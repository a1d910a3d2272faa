import GuidedTour.Proofs.Token.Legacy
import GuidedTour.Proofs.Token.Span

/-!
# Offsets at which the rules are tried

Not at every offset of a text are the rules tried: behind a match they are tried again at its end, and behind a
character that is left over at the next one (`Token.Tried`). Seen from the tokens, these are the offsets that do not
lie inside a match (`Token.tried_iff`).

So whether a token is found at an offset is settled there alone. At an offset that lies in no match, the first rule
that matches makes a token that starts there (`Token.mem_of_isFirstAt`), and if there is none, the character is left
over (`Token.mem_of_noneAt`).
-/

set_option autoImplicit false

namespace GuidedTour

/-! ## Patterns at an offset -/

namespace Pattern

variable {pattern : Pattern} {source : Text} {p n : Nat}

/-- Matching at an offset is matching the text from there on, behind the character before. -/
theorem matchAt?_eq (pattern : Pattern) (source : Text) (p : Nat) :
    pattern.matchAt? source p = pattern.length? (source.take p).getLast? (source.drop p) :=
  (pattern.length?_eq _ _).symm

/-- A match is not empty and lies in the text. -/
theorem matchAt?_pos (h : pattern.matchAt? source p = some n) : 0 < n ∧ p + n ≤ source.length := by
  rw [matchAt?_eq] at h
  have hpos := length?_pos h
  have hle := length?_le h
  rw [List.length_drop] at hle
  omega

/-- A match begins with one of the characters that its pattern can begin with. -/
theorem exists_head_of_matchAt? (h : pattern.matchAt? source p = some n) :
    ∃ c, source[p]? = some c ∧ c ∈ pattern.heads := by
  have hlt : p < source.length := by
    have hbounds := matchAt?_pos h
    omega
  rw [matchAt?_eq, List.drop_eq_getElem_cons hlt] at h
  exact ⟨source[p], List.getElem?_eq_getElem hlt, head_mem h⟩

end Pattern

/-- No rule in use names what is left over. -/
theorem Rule.standard_classed : ∀ rule ∈ Rule.standard, rule.cls ≠ .unclassified := by decide

namespace Token

/-- A token that does not end the text has a neighbour behind it. -/
theorem TilesFrom.exists_next {R : Token → Token → Prop} {source : Text} {tokens : List Token}
    {token : Token} {p : Nat} (h : TilesFrom source p tokens) (hchain : tokens.IsChain R)
    (htoken : token ∈ tokens) (hlt : token.stop < source.length) :
    ∃ next ∈ tokens, next.start = token.stop ∧ R token next := by
  induction tokens generalizing p with
  | nil => exact absurd htoken List.not_mem_nil
  | cons first more ih =>
    obtain ⟨-, -, -, hmore⟩ := h
    rcases List.mem_cons.1 htoken with rfl | htoken
    · cases more with
      | nil =>
        have hend : token.stop = source.length := hmore
        omega
      | cons next rest =>
        exact ⟨next, List.mem_cons_of_mem token List.mem_cons_self, hmore.1, (List.isChain_cons_cons.1 hchain).1⟩
    · obtain ⟨next, hnext, hfound⟩ := ih hmore hchain.tail htoken
      exact ⟨next, List.mem_cons_of_mem first hnext, hfound⟩

section Scan

variable {rules : List (Rule Pattern)} {source : Text} {p : Nat}

/-- The offsets at which the rules are tried. -/
inductive Tried (rules : List (Rule Pattern)) (source : Text) : Nat → Prop
  | start : Tried rules source 0
  /-- What no rule matches is left over, one character at a time. -/
  | past {p : Nat} : Tried rules source p → p < source.length → Rule.NoneAt rules source p →
      Tried rules source (p + 1)
  /-- A match is taken as a whole. -/
  | behind {p n : Nat} {cls : TokenClass} : Tried rules source p → Rule.IsFirstAt rules source p cls n →
      Tried rules source (p + n)

/-- An offset lies inside a match: behind the start of a token that is not left over, and before its end. -/
def Inside (tokens : List Token) (p : Nat) : Prop :=
  ∃ token ∈ tokens, token.cls ≠ .unclassified ∧ token.start < p ∧ p < token.stop

/-- The stream takes the first match at each place, and what is left over is not cut up. -/
theorem firstMatch_stream (hrules : ∀ rule ∈ rules, rule.cls ≠ .unclassified) (source : Text) :
    FirstMatch rules source (stream rules source) ∧ Separated (stream rules source) :=
  (follows_iff.1 (follows_place (p := Position.start) hrules (Nat.zero_le source.length))).2

/-- A token of the stream is not empty and holds the text between its offsets. -/
theorem extent_of_mem_stream {token : Token} (h : token ∈ stream rules source) :
    token.start < token.stop ∧ token.value = source.extract token.start token.stop :=
  ((tilesFrom_iff source 0 _).1 (tilesFrom_stream rules source)).1 token h

/-- Every offset lies in one token of the stream. -/
theorem existsUnique_mem_stream (rules : List (Rule Pattern)) (h : p < source.length) :
    ∃ token ∈ stream rules source, (token.start ≤ p ∧ p < token.stop) ∧
      ∀ other ∈ stream rules source, other.start ≤ p → p < other.stop → other = token :=
  (tilesFrom_stream rules source).existsUnique (Nat.zero_le p) h

/-- Two tokens of a text that share an offset are the same. -/
theorem eq_of_mem_stream {a b : Token} (ha : a ∈ stream rules source) (hb : b ∈ stream rules source)
    (hpa : a.start ≤ p ∧ p < a.stop) (hpb : b.start ≤ p ∧ p < b.stop) : a = b := by
  have hlt : p < source.length := by
    have hle := ((tilesFrom_stream rules source).bounds.2 a ha).2.2
    omega
  obtain ⟨token, -, -, honly⟩ := existsUnique_mem_stream rules hlt
  rw [honly a ha hpa.1 hpa.2, honly b hb hpb.1 hpb.2]

/-- The first match at a place is one. -/
theorem isFirstAt_unique {cls cls' : TokenClass} {n n' : Nat} (h : Rule.IsFirstAt rules source p cls n)
    (h' : Rule.IsFirstAt rules source p cls' n') : cls = cls' ∧ n = n' := by
  rw [← Rule.firstAt?_eq_some_iff] at h h'
  rw [h] at h'
  exact Prod.mk.inj (Option.some.inj h')

/-- Where a rule is the first to match, not none does. -/
theorem not_noneAt_of_isFirstAt {cls : TokenClass} {n : Nat} (h : Rule.IsFirstAt rules source p cls n) :
    ¬Rule.NoneAt rules source p := by
  rw [← Rule.firstAt?_eq_some_iff] at h
  rw [← Rule.firstAt?_eq_none_iff, h]
  simp

/-- Where a rule matches, not none does. -/
theorem not_noneAt_of_matchAt? (rule : Rule Pattern) {n : Nat} (hrule : rule ∈ rules)
    (h : rule.pattern.matchAt? source p = some n) : ¬Rule.NoneAt rules source p := by
  intro hnone
  rw [hnone rule hrule] at h
  cases h

/-- The first match at a place is not empty and lies in the text. -/
theorem lt_of_isFirstAt {cls : TokenClass} {n : Nat} (h : Rule.IsFirstAt rules source p cls n) :
    0 < n ∧ p + n ≤ source.length :=
  Rule.add_le_of_firstAt? (Rule.firstAt?_eq_some_iff.2 h)

variable (hrules : ∀ rule ∈ rules, rule.cls ≠ .unclassified)
include hrules

/-- No rule matches at a character that is left over. -/
theorem noneAt_of_mem_stream {token : Token} (htoken : token ∈ stream rules source)
    (hcls : token.cls = .unclassified) (hp : token.start ≤ p ∧ p < token.stop) : Rule.NoneAt rules source p :=
  (firstMatch_stream hrules source).1.unmatched token htoken hcls p hp.1 hp.2

/-- What is left over ends where a match begins, unless it ends the text. -/
theorem exists_match_behind {token : Token} (htoken : token ∈ stream rules source) (hcls : token.cls = .unclassified)
    (hlt : token.stop < source.length) :
    ∃ next ∈ stream rules source, next.cls ≠ .unclassified ∧ next.start = token.stop := by
  obtain ⟨next, hnext, hstart, hapart⟩ :=
    (tilesFrom_stream rules source).exists_next (firstMatch_stream hrules source).2 htoken hlt
  exact ⟨next, hnext, fun hnot => hapart ⟨hcls, hnot⟩, hstart⟩

/-- What is left over begins where a match ends, unless it begins the text. -/
theorem exists_match_before {token : Token} (htoken : token ∈ stream rules source) (hcls : token.cls = .unclassified)
    (hpos : 0 < token.start) : ∃ prev ∈ stream rules source, prev.cls ≠ .unclassified ∧ prev.stop = token.start := by
  have hbounds := ((tilesFrom_stream rules source).bounds.2 token htoken).2.2
  have hnonempty := (extent_of_mem_stream htoken).1
  obtain ⟨prev, hprev, hspan, -⟩ := existsUnique_mem_stream rules (show token.start - 1 < source.length by omega)
  have hstop : prev.stop = token.start := by
    by_contra hne
    have hsame := eq_of_mem_stream hprev htoken (p := token.start) ⟨by omega, by omega⟩ ⟨by omega, hnonempty⟩
    rw [hsame] at hspan
    omega
  refine ⟨prev, hprev, fun hleft => ?_, hstop⟩
  obtain ⟨next, hnext, hclassed, hstart⟩ := exists_match_behind hrules hprev hleft (by omega)
  have hlonger := (extent_of_mem_stream hnext).1
  have hsame := eq_of_mem_stream hnext htoken (p := token.start) ⟨by omega, by omega⟩ ⟨by omega, hnonempty⟩
  exact hclassed (hsame ▸ hcls)

/-- A token that is not left over is the match of a rule. -/
theorem exists_rule {token : Token} (htoken : token ∈ stream rules source) (hcls : token.cls ≠ .unclassified) :
    ∃ rule ∈ rules, rule.cls = token.cls ∧
      ∃ n, rule.pattern.matchAt? source token.start = some n ∧ token.stop = token.start + n := by
  obtain ⟨n, ⟨earlier, rule, later, rfl, -, hmatch, hrule⟩, hstop⟩ :=
    (firstMatch_stream hrules source).1.matched token htoken hcls
  exact ⟨rule, List.mem_append_right earlier List.mem_cons_self, hrule, n, hmatch, hstop⟩

/-- Where a match is tried and found, it is a token. -/
theorem mem_of_isFirstAt (hp : ¬Inside (stream rules source) p) {cls : TokenClass} {n : Nat}
    (h : Rule.IsFirstAt rules source p cls n) :
    ∃ token ∈ stream rules source, token.cls = cls ∧ token.start = p ∧ token.stop = p + n := by
  have hlt := lt_of_isFirstAt h
  obtain ⟨token, htoken, hspan, -⟩ := existsUnique_mem_stream rules (show p < source.length by omega)
  have hclassed : token.cls ≠ .unclassified := by
    intro hcls
    exact not_noneAt_of_isFirstAt h (noneAt_of_mem_stream hrules htoken hcls hspan)
  have hstart : token.start = p := by
    by_contra hne
    exact hp ⟨token, htoken, hclassed, by omega, hspan.2⟩
  obtain ⟨m, hfirst, hstop⟩ := (firstMatch_stream hrules source).1.matched token htoken hclassed
  rw [hstart] at hfirst hstop
  obtain ⟨rfl, rfl⟩ := isFirstAt_unique hfirst h
  exact ⟨token, htoken, rfl, hstart, hstop⟩

/-- Where no match is found, the character is left over. -/
theorem mem_of_noneAt (hp : ¬Inside (stream rules source) p) (hlt : p < source.length)
    (h : Rule.NoneAt rules source p) :
    ∃ token ∈ stream rules source, token.cls = .unclassified ∧ token.start ≤ p ∧ p < token.stop := by
  obtain ⟨token, htoken, hspan, -⟩ := existsUnique_mem_stream rules hlt
  refine ⟨token, htoken, ?_, hspan⟩
  by_contra hclassed
  have hstart : token.start = p := by
    by_contra hne
    exact hp ⟨token, htoken, hclassed, by omega, hspan.2⟩
  obtain ⟨n, hfirst, -⟩ := (firstMatch_stream hrules source).1.matched token htoken hclassed
  rw [hstart] at hfirst
  exact not_noneAt_of_isFirstAt hfirst h

/-- The rules are never tried inside a match, by induction over the offsets tried. -/
theorem not_inside_of_tried (h : Tried rules source p) : ¬Inside (stream rules source) p := by
  induction h with
  | start =>
    rintro ⟨token, -, -, hstart, -⟩
    omega
  | @past p _ hlt hnone ih =>
    rintro ⟨token, htoken, hclassed, hstart, hstop⟩
    obtain ⟨gap, hgap, hcls, hspan⟩ := mem_of_noneAt hrules ih hlt hnone
    have hsame := eq_of_mem_stream htoken hgap (p := p) ⟨by omega, by omega⟩ hspan
    exact hclassed (hsame ▸ hcls)
  | @behind p n cls _ hfirst ih =>
    rintro ⟨token, htoken, -, hstart, hstop⟩
    obtain ⟨found, hfound, -, hbegin, hend⟩ := mem_of_isFirstAt hrules ih hfirst
    have hpos := (lt_of_isFirstAt hfirst).1
    have hsame := eq_of_mem_stream htoken hfound (p := p + n - 1) ⟨by omega, by omega⟩ ⟨by omega, by omega⟩
    rw [hsame] at hstop
    omega

/-- The rules are tried at the offsets that do not lie inside a match. -/
theorem tried_iff (hle : p ≤ source.length) :
    Tried rules source p ↔ ¬Inside (stream rules source) p := by
  refine ⟨not_inside_of_tried hrules, ?_⟩
  induction p using Nat.strongRecOn with
  | _ p ih =>
    intro hp
    rcases Nat.eq_zero_or_pos p with rfl | hpos
    · exact .start
    obtain ⟨token, htoken, hspan, -⟩ := existsUnique_mem_stream rules (show p - 1 < source.length by omega)
    -- The character before the offset is left over, or it is the last one of a match.
    by_cases hcls : token.cls = .unclassified
    · have hbefore : ¬Inside (stream rules source) (p - 1) := by
        rintro ⟨other, hother, hclassed, hstart, hstop⟩
        exact hclassed ((eq_of_mem_stream hother htoken ⟨by omega, hstop⟩ hspan) ▸ hcls)
      have hnone := noneAt_of_mem_stream hrules htoken hcls hspan
      have htried := Tried.past (ih (p - 1) (by omega) (by omega) hbefore) (by omega) hnone
      rwa [Nat.sub_add_cancel hpos] at htried
    · have hstop : token.stop = p := by
        by_contra hne
        exact hp ⟨token, htoken, hcls, by omega, by omega⟩
      obtain ⟨n, hfirst, hlength⟩ := (firstMatch_stream hrules source).1.matched token htoken hcls
      have hbefore : ¬Inside (stream rules source) token.start := by
        rintro ⟨other, hother, -, hstart, hend⟩
        have hsame := eq_of_mem_stream hother htoken (p := token.start) ⟨by omega, hend⟩ ⟨by omega, by omega⟩
        rw [hsame] at hstart
        omega
      have htried := Tried.behind (ih token.start (by omega) (by omega) hbefore) hfirst
      rwa [← hlength, hstop] at htried

end Scan

end Token

end GuidedTour
