import GuidedTour.Proofs.Token.Expression
import GuidedTour.Proofs.Token.Tiling

/-!
# The policy of the first match

At each place the first rule that matches takes its match, even where a later one would match more, and
what no rule matches is left over. The policy is told of a list of tokens and a source alone
(`Token.FirstMatch`), with matches in the sense of the regular expressions. The tokens of a text follow it, and
no other tokens do that tile the text and keep what is left over in whole stretches
(`Token.stream_unique_first_match`).

`Follows` tells the same offset by offset, which is what both halves are proved by induction on.
-/

set_option autoImplicit false

namespace GuidedTour

/-! ## Rules at an offset of a source -/

/-- The length of what a pattern matches at an offset of a source. The edges of words are those of the whole
source, so the character before the offset counts. -/
def Pattern.matchAt? (pattern : Pattern) (source : Text) (p : Nat) : Option Nat :=
  pattern.regular.length? (source.take p).getLast? (source.drop p)

namespace Rule

/-- The first of some rules that matches at an offset has a class and a match of a length. -/
def IsFirstAt (rules : List (Rule Pattern)) (source : Text) (p : Nat) (cls : TokenClass) (n : Nat) : Prop :=
  ∃ earlier rule later, rules = earlier ++ rule :: later ∧
    (∀ other ∈ earlier, other.pattern.matchAt? source p = none) ∧
    rule.pattern.matchAt? source p = some n ∧ rule.cls = cls

/-- No rule matches at an offset. -/
def NoneAt (rules : List (Rule Pattern)) (source : Text) (p : Nat) : Prop :=
  ∀ rule ∈ rules, rule.pattern.matchAt? source p = none

/-- What is computed at an offset of a source. -/
def firstAt? (rules : List (Rule Pattern)) (source : Text) (p : Nat) : Option (TokenClass × Nat) :=
  first? rules (source.take p).getLast? (source.drop p)

/-- What is computed at an offset is the first rule that matches there. -/
theorem firstAt?_eq_some_iff {rules : List (Rule Pattern)} {source : Text} {p : Nat} {cls : TokenClass}
    {n : Nat} : firstAt? rules source p = some (cls, n) ↔ IsFirstAt rules source p cls n := by
  unfold firstAt? IsFirstAt Pattern.matchAt?
  simp only [first?_eq_findSome?, List.findSome?_eq_some_iff, Option.map_eq_some_iff, Option.map_eq_none_iff,
    Pattern.length?_eq, Prod.mk.injEq]
  constructor
  · rintro ⟨earlier, rule, later, rfl, ⟨k, hk, hcls, rfl⟩, hearlier⟩
    exact ⟨earlier, rule, later, rfl, hearlier, hk, hcls⟩
  · rintro ⟨earlier, rule, later, rfl, hearlier, hk, hcls⟩
    exact ⟨earlier, rule, later, rfl, ⟨n, hk, hcls, rfl⟩, hearlier⟩

/-- Nothing is computed at an offset where no rule matches. -/
theorem firstAt?_eq_none_iff {rules : List (Rule Pattern)} {source : Text} {p : Nat} :
    firstAt? rules source p = none ↔ NoneAt rules source p := by
  unfold firstAt? NoneAt Pattern.matchAt?
  simp only [first?_eq_findSome?, List.findSome?_eq_none_iff, Option.map_eq_none_iff, Pattern.length?_eq]

/-- A match lies within the source. -/
theorem add_le_of_firstAt? {rules : List (Rule Pattern)} {source : Text} {p : Nat} {cls : TokenClass} {n : Nat}
    (h : firstAt? rules source p = some (cls, n)) : 0 < n ∧ p + n ≤ source.length := by
  have hpos := first?_pos h
  have hle := first?_le h
  rw [List.length_drop] at hle
  exact ⟨hpos, by omega⟩

end Rule

/-! ## The pieces from an offset on -/

namespace Piece

/-- The pieces of a source from an offset on. -/
def fromOffset (rules : List (Rule Pattern)) (source : Text) (p : Nat) : List Piece :=
  ofText rules (source.take p).getLast? (source.drop p)

/-- No pieces are left at the end. -/
theorem fromOffset_end (rules : List (Rule Pattern)) (source : Text) :
    fromOffset rules source source.length = [] := by
  rw [fromOffset, List.drop_length, ofText]

/-- Where no rule matches, the character joins what follows it. -/
theorem fromOffset_none {rules : List (Rule Pattern)} {source : Text} {p : Nat} (hp : p < source.length)
    (h : Rule.firstAt? rules source p = none) :
    fromOffset rules source p = consGap source[p] (fromOffset rules source (p + 1)) := by
  have hdrop : source.drop p = source[p] :: source.drop (p + 1) := List.drop_eq_getElem_cons hp
  have hlast : (source.take (p + 1)).getLast? = some source[p] := by
    rw [List.take_succ_eq_append_getElem hp, List.getLast?_concat]
  rw [Rule.firstAt?, hdrop] at h
  rw [fromOffset, hdrop, ofText, Pattern.behind_singleton, fromOffset, hlast]
  split
  · rfl
  · rename_i cls n hsome
    rw [h] at hsome
    exact absurd hsome (by simp)

/-- Where a rule matches, its match is the next piece. -/
theorem fromOffset_some {rules : List (Rule Pattern)} {source : Text} {p : Nat} {cls : TokenClass} {n : Nat}
    (h : Rule.firstAt? rules source p = some (cls, n)) :
    fromOffset rules source p =
      matched cls (source.extract p (p + n)) :: fromOffset rules source (p + n) := by
  obtain ⟨hpos, hle⟩ := Rule.add_le_of_firstAt? h
  have hp : p < source.length := by omega
  have hdrop : source.drop p = source[p] :: source.drop (p + 1) := List.drop_eq_getElem_cons hp
  have hlast : (source.take (p + n)).getLast? =
      Matching.behind Pattern (source.take p).getLast? ((source.drop p).take n) := by
    rw [List.take_add, List.getLast?_append]
    rfl
  rw [Token.extract_add, fromOffset, fromOffset, hlast, ← List.drop_drop]
  rw [Rule.firstAt?, hdrop] at h
  rw [hdrop, ofText]
  split
  · rename_i hnone
    rw [h] at hnone
    exact absurd hnone (by simp)
  · rename_i cls' n' hsome
    rw [h] at hsome
    obtain ⟨rfl, rfl⟩ := Prod.mk.inj (Option.some.inj hsome)
    rfl

/-- A stretch at whose offsets no rule matches is one gap, if what follows it does not begin with another. -/
theorem fromOffset_gap {rules : List (Rule Pattern)} {source : Text} {p n : Nat}
    (hle : p + (n + 1) ≤ source.length)
    (hnone : ∀ q, p ≤ q → q < p + (n + 1) → Rule.firstAt? rules source q = none)
    (hnext : ∀ text, (fromOffset rules source (p + (n + 1))).head? ≠ some (gap text)) :
    fromOffset rules source p =
      gap (source.extract p (p + (n + 1))) :: fromOffset rules source (p + (n + 1)) := by
  induction n generalizing p with
  | zero =>
    have hp : p < source.length := by omega
    rw [fromOffset_none hp (hnone p (Nat.le_refl p) (by omega)), Token.extract_add,
      List.drop_eq_getElem_cons hp]
    show consGap source[p] (fromOffset rules source (p + 1)) =
      gap [source[p]] :: fromOffset rules source (p + 1)
    cases hpieces : fromOffset rules source (p + 1) with
    | nil => rfl
    | cons piece more =>
      cases piece with
      | matched cls text => rfl
      | gap text => exact absurd (by rw [Nat.zero_add, hpieces]; rfl) (hnext text)
  | succ n ih =>
    have hp : p < source.length := by omega
    have hend : p + 1 + (n + 1) = p + (n + 1 + 1) := by omega
    have hmore := ih (p := p + 1) (by omega) (fun q hq hlt => hnone q (by omega) (by omega))
      (by rw [hend]; exact hnext)
    rw [fromOffset_none hp (hnone p (Nat.le_refl p) (by omega)), hmore, Token.extract_add,
      Token.extract_add, hend, List.drop_eq_getElem_cons hp]
    rfl

end Piece

/-! ## Tokens that follow the policy -/

namespace Token

/-- The policy of the first match, told of tokens and a source. -/
structure FirstMatch (rules : List (Rule Pattern)) (source : Text) (tokens : List Token) : Prop where
  /-- A classed token is the match of the first rule that matches at its start. -/
  matched : ∀ token ∈ tokens, token.cls ≠ .unclassified →
    ∃ n, Rule.IsFirstAt rules source token.start token.cls n ∧ token.stop = token.start + n
  /-- No rule matches anywhere in what is left over. -/
  unmatched : ∀ token ∈ tokens, token.cls = .unclassified →
    ∀ p, token.start ≤ p → p < token.stop → Rule.NoneAt rules source p

/-- Tokens that lie end to end from an offset on, each of which is a first match or a whole stretch of
what no rule matches. -/
def Follows (rules : List (Rule Pattern)) (source : Text) : Nat → List Token → Prop
  | p, [] => p = source.length
  | p, token :: more =>
    token.start = p ∧ token.value = source.extract p token.stop ∧
    ((∃ n, token.stop = p + n ∧ token.cls ≠ .unclassified ∧
        Rule.firstAt? rules source p = some (token.cls, n)) ∨
      (p < token.stop ∧ token.cls = .unclassified ∧
        (∀ q, p ≤ q → q < token.stop → Rule.firstAt? rules source q = none) ∧
        ∀ next ∈ more.head?, next.cls ≠ .unclassified)) ∧
    Follows rules source token.stop more

/-- Tokens that follow the policy from an offset on start within the source. -/
theorem Follows.le {rules : List (Rule Pattern)} {source : Text} {p : Nat} {tokens : List Token}
    (h : Follows rules source p tokens) : p ≤ source.length := by
  induction tokens generalizing p with
  | nil => exact Nat.le_of_eq h
  | cons token more ih =>
    obtain ⟨-, -, hcase, hmore⟩ := h
    have hstop := ih hmore
    rcases hcase with ⟨n, hn, -, -⟩ | ⟨hlt, -, -, -⟩
    · omega
    · omega

/-- Tokens that follow the policy from an offset on are the tokens of the pieces from there on, as far as
tokens are compared. -/
theorem Follows.key_eq {rules : List (Rule Pattern)} {source : Text} {tokens : List Token} {p : Position}
    (h : Follows rules source p.offset tokens) :
    tokens.map key = (place p (Piece.fromOffset rules source p.offset)).map key := by
  induction tokens generalizing p with
  | nil =>
    have hp : p.offset = source.length := h
    rw [hp, Piece.fromOffset_end]
    rfl
  | cons token more ih =>
    obtain ⟨hstart, hvalue, hcase, hmore⟩ := h
    have hle := hmore.le
    have hp : p.offset ≤ token.stop := by
      rcases hcase with ⟨n, hn, -, -⟩ | ⟨hlt, -, -, -⟩ <;> omega
    have hlen : (source.extract p.offset token.stop).length = token.stop - p.offset := by
      rw [List.extract_eq_take_drop, List.length_take, List.length_drop]
      omega
    have hoffset : (p.after (source.extract p.offset token.stop)).offset = token.stop := by
      rw [Position.offset_after, hlen]
      omega
    have hrest := ih (p := p.after (source.extract p.offset token.stop)) (by rw [hoffset]; exact hmore)
    rw [hoffset] at hrest
    have hkey : token.key =
        (located p token.cls (source.extract p.offset token.stop)).key := by
      unfold key located
      rw [hvalue, hstart, hlen]
      simp
      omega
    have hpieces : ∃ piece, piece.cls = token.cls ∧ piece.text = source.extract p.offset token.stop ∧
        Piece.fromOffset rules source p.offset =
          piece :: Piece.fromOffset rules source token.stop := by
      rcases hcase with ⟨n, hn, -, hfirst⟩ | ⟨hlt, hcls, hnone, hnext⟩
      · rw [hn]
        exact ⟨.matched token.cls (source.extract p.offset (p.offset + n)), rfl, rfl,
          Piece.fromOffset_some hfirst⟩
      · obtain ⟨n, hn⟩ : ∃ n, token.stop = p.offset + (n + 1) := ⟨token.stop - p.offset - 1, by omega⟩
        have happart (text : Text) :
            (Piece.fromOffset rules source (p.offset + (n + 1))).head? ≠ some (.gap text) := by
          intro hgap
          obtain ⟨pieces, hpieces⟩ := List.head?_eq_some_iff.mp hgap
          rw [hn, hpieces, place, List.map_cons] at hrest
          cases more with
          | nil => exact absurd hrest (by simp)
          | cons next more =>
            have hkeys : next.key = (located _ _ _).key := (List.cons.inj hrest).1
            exact hnext next rfl (congrArg Prod.fst hkeys)
        rw [hn] at hle hnone ⊢
        exact ⟨.gap (source.extract p.offset (p.offset + (n + 1))), hcls.symm, rfl,
          Piece.fromOffset_gap hle hnone happart⟩
    obtain ⟨piece, hpc, hpt, hp⟩ := hpieces
    rw [hp, place, List.map_cons, List.map_cons, hkey, hpc, hpt, hrest]

/-- A located piece in front of tokens that follow the policy follows it, if it is a first match or a whole stretch.
-/
theorem Follows.located {rules : List (Rule Pattern)} {source : Text} {p : Position} {cls : TokenClass}
    {more : List Token} (text : Text) (htext : (source.drop p.offset).take text.length = text)
    (hcase : (cls ≠ .unclassified ∧
        Rule.firstAt? rules source p.offset = some (cls, text.length)) ∨
      (0 < text.length ∧ cls = .unclassified ∧
        (∀ q, p.offset ≤ q → q < p.offset + text.length → Rule.firstAt? rules source q = none) ∧
        ∀ next ∈ more.head?, next.cls ≠ .unclassified))
    (hmore : Follows rules source (p.offset + text.length) more) :
    Follows rules source p.offset (Token.located p cls text :: more) := by
  refine ⟨rfl, ?_, ?_, hmore⟩
  · show text = source.extract p.offset (p.offset + text.length)
    rw [extract_add, htext]
  · rcases hcase with ⟨hcls, hfirst⟩ | ⟨hpos, hcls, hnone, hnext⟩
    · exact .inl ⟨text.length, rfl, hcls, hfirst⟩
    · exact .inr ⟨Nat.lt_add_of_pos_right hpos, hcls, hnone, hnext⟩

/-- A character that no rule matches may be put in front of tokens that follow the policy. -/
theorem follows_place_consGap {rules : List (Rule Pattern)} {source : Text} {p : Position}
    {pieces : List Piece} (hp : p.offset < source.length)
    (hnone : Rule.firstAt? rules source p.offset = none)
    (hcls : ∀ piece ∈ pieces, piece.cls = .unclassified → ∃ text, piece = .gap text)
    (h : Follows rules source (p.offset + 1) (place (p.step source[p.offset]) pieces)) :
    Follows rules source p.offset (place p (Piece.consGap source[p.offset] pieces)) := by
  have hstep : (p.step source[p.offset]).offset = p.offset + 1 := p.offset_after [source[p.offset]]
  have hdrop : source.drop p.offset = source[p.offset] :: source.drop (p.offset + 1) :=
    List.drop_eq_getElem_cons hp
  have hsingle (hfirst : ∀ next ∈ (place (p.step source[p.offset]) pieces).head?,
      next.cls ≠ .unclassified) : Follows rules source p.offset
        (Token.located p .unclassified [source[p.offset]] ::
          place (p.step source[p.offset]) pieces) := by
    refine Follows.located [source[p.offset]] (by rw [hdrop]; rfl)
      (.inr ⟨Nat.one_pos, rfl, ?_, hfirst⟩) h
    intro q hq hlt
    obtain rfl : q = p.offset := by simp at hlt; omega
    exact hnone
  cases pieces with
  | nil => exact hsingle (by simp [place])
  | cons piece more =>
    cases piece with
    | matched cls text =>
      refine hsingle ?_
      intro next hnext
      obtain rfl : _ = next := Option.some.inj hnext
      intro hunclassified
      obtain ⟨other, hother⟩ := hcls _ List.mem_cons_self hunclassified
      exact absurd hother (by simp)
    | gap text =>
      obtain ⟨-, hvalue, hcase, hmore⟩ := h
      have hstop : (Token.located (p.step source[p.offset]) (Piece.gap text).cls
          (Piece.gap text).text).stop = p.offset + 1 + text.length :=
        congrArg (· + text.length) hstep
      rw [hstop] at hvalue hcase hmore
      have htext : text = (source.drop (p.offset + 1)).take text.length := by
        rw [extract_add] at hvalue
        exact hvalue
      have hlen : p.offset + (source[p.offset] :: text).length = p.offset + 1 + text.length := by
        rw [List.length_cons]
        omega
      rcases hcase with ⟨n, -, hclassed, -⟩ | ⟨-, -, hrest, hnext⟩
      · exact absurd rfl hclassed
      · refine Follows.located (source[p.offset] :: text) ?_ (.inr ?_) ?_
        · rw [hdrop, List.length_cons, List.take_succ_cons, ← htext]
        · refine ⟨Nat.succ_pos _, rfl, ?_, hnext⟩
          intro q hq hlt
          rcases Nat.eq_or_lt_of_le hq with rfl | hgt
          · exact hnone
          · exact hrest q hgt (by omega)
        · rw [hlen]
          exact hmore

/-- The tokens of the pieces from an offset on follow the policy. -/
theorem follows_place {rules : List (Rule Pattern)} (hrules : ∀ rule ∈ rules, rule.cls ≠ .unclassified)
    {source : Text} {p : Position} (hp : p.offset ≤ source.length) :
    Follows rules source p.offset (place p (Piece.fromOffset rules source p.offset)) := by
  induction hk : source.length - p.offset using Nat.strongRecOn generalizing p with
  | _ k ih =>
    by_cases hend : p.offset = source.length
    · rw [hend, Piece.fromOffset_end]
      rfl
    have hlt : p.offset < source.length := by omega
    cases hfirst : Rule.firstAt? rules source p.offset with
    | none =>
      have hstep : (p.step source[p.offset]).offset = p.offset + 1 :=
        p.offset_after [source[p.offset]]
      have hmore := ih _ (by omega) (p := p.step source[p.offset]) (by omega) rfl
      rw [hstep] at hmore
      rw [Piece.fromOffset_none hlt hfirst]
      exact follows_place_consGap hlt hfirst (fun _ => Piece.exists_gap hrules) hmore
    | some found =>
      obtain ⟨cls, n⟩ := found
      obtain ⟨hpos, hle⟩ := Rule.add_le_of_firstAt? hfirst
      obtain ⟨earlier, rule, later, hmem, -, -, hcls⟩ := Rule.firstAt?_eq_some_iff.mp hfirst
      have hclassed : cls ≠ .unclassified := hcls ▸ hrules rule (by rw [hmem]; simp)
      have hlen : (source.extract p.offset (p.offset + n)).length = n := by
        rw [extract_add, List.length_take, List.length_drop]
        omega
      have hoffset : (p.after (source.extract p.offset (p.offset + n))).offset = p.offset + n := by
        rw [Position.offset_after, hlen]
      have hmore := ih _ (by omega) (p := p.after (source.extract p.offset (p.offset + n)))
        (by omega) rfl
      rw [hoffset] at hmore
      rw [Piece.fromOffset_some hfirst]
      exact Follows.located (source.extract p.offset (p.offset + n)) (by rw [hlen, extract_add])
        (.inl ⟨hclassed, by rw [hlen]; exact hfirst⟩)
        (by rw [hlen]; exact hmore)

/-- The policy for a token and those behind it. -/
theorem firstMatch_cons {rules : List (Rule Pattern)} {source : Text} {token : Token} {more : List Token} :
    FirstMatch rules source (token :: more) ↔
      (token.cls ≠ .unclassified →
        ∃ n, Rule.IsFirstAt rules source token.start token.cls n ∧ token.stop = token.start + n) ∧
      (token.cls = .unclassified →
        ∀ p, token.start ≤ p → p < token.stop → Rule.NoneAt rules source p) ∧
      FirstMatch rules source more := by
  constructor
  · intro h
    exact ⟨h.matched token List.mem_cons_self, h.unmatched token List.mem_cons_self,
      fun t ht => h.matched t (List.mem_cons_of_mem _ ht),
      fun t ht => h.unmatched t (List.mem_cons_of_mem _ ht)⟩
  · rintro ⟨hmatched, hunmatched, hmore⟩
    constructor
    · intro t ht
      rcases List.mem_cons.mp ht with rfl | ht
      · exact hmatched
      · exact hmore.matched t ht
    · intro t ht
      rcases List.mem_cons.mp ht with rfl | ht
      · exact hunmatched
      · exact hmore.unmatched t ht

/-- What `Follows` tells offset by offset is what the policy and the tiling tell of the tokens as a whole. -/
theorem follows_iff {rules : List (Rule Pattern)} {source : Text} {p : Nat} {tokens : List Token} :
    Follows rules source p tokens ↔
      TilesFrom source p tokens ∧ FirstMatch rules source tokens ∧ Separated tokens := by
  induction tokens generalizing p with
  | nil =>
    constructor
    · intro h
      exact ⟨h, ⟨by simp, by simp⟩, .nil⟩
    · exact fun h => h.1
  | cons token more ih =>
    rw [Follows, TilesFrom, ih, firstMatch_cons, Separated, Separated, List.isChain_cons]
    constructor
    · rintro ⟨rfl, hvalue, hcase, htiles, hmore, hapart⟩
      rcases hcase with ⟨n, hstop, hcls, hfirst⟩ | ⟨hlt, hcls, hnone, hnext⟩
      · have hpos := (Rule.add_le_of_firstAt? hfirst).1
        refine ⟨⟨rfl, by omega, hvalue, htiles⟩, ⟨fun _ => ⟨n, ?_, hstop⟩, fun h => absurd h hcls,
          hmore⟩, fun next _ h => hcls h.1, hapart⟩
        exact Rule.firstAt?_eq_some_iff.mp hfirst
      · refine ⟨⟨rfl, hlt, hvalue, htiles⟩, ⟨fun h => absurd hcls h, fun _ q hq hstop => ?_, hmore⟩,
          fun next hn h => hnext next hn h.2, hapart⟩
        exact Rule.firstAt?_eq_none_iff.mp (hnone q hq hstop)
    · rintro ⟨⟨rfl, hlt, hvalue, htiles⟩, ⟨hmatched, hunmatched, hmore⟩, hnext, hapart⟩
      refine ⟨rfl, hvalue, ?_, htiles, hmore, hapart⟩
      by_cases hcls : token.cls = .unclassified
      · refine .inr ⟨hlt, hcls, fun q hq hstop => ?_, fun next hn h => hnext next hn ⟨hcls, h⟩⟩
        exact Rule.firstAt?_eq_none_iff.mpr (hunmatched hcls q hq hstop)
      · obtain ⟨n, hfirst, hstop⟩ := hmatched hcls
        exact .inl ⟨n, hstop, hcls, Rule.firstAt?_eq_some_iff.mpr hfirst⟩

/-- Tokens that are compared as equal and carry the line and the column of their start are equal. -/
theorem eq_of_key_eq {source : Text} {a b : List Token} (h : a.map key = b.map key)
    (ha : ∀ token ∈ a, Placed source token) (hb : ∀ token ∈ b, Placed source token) : a = b := by
  induction a generalizing b with
  | nil =>
    cases b with
    | nil => rfl
    | cons t b => exact absurd h (by simp)
  | cons s a ih =>
    cases b with
    | nil => exact absurd h (by simp)
    | cons t b =>
      obtain ⟨hkey, hmore⟩ := List.cons.inj h
      have hs := ha s List.mem_cons_self
      have ht := hb t List.mem_cons_self
      have hst : s = t := by
        obtain ⟨cls, value, start, stop, line, column⟩ := s
        obtain ⟨cls', value', start', stop', line', column'⟩ := t
        obtain ⟨rfl, rfl, rfl, rfl⟩ : cls = cls' ∧ value = value' ∧ start = start' ∧ stop = stop' := by
          simpa [key] using hkey
        obtain rfl : line = line' := hs.line.trans ht.line.symm
        obtain rfl : column = column' := hs.column.trans ht.column.symm
        rfl
      rw [hst, ih hmore (fun token h => ha token (List.mem_cons_of_mem _ h))
        (fun token h => hb token (List.mem_cons_of_mem _ h))]

/-- The tokens of a text follow the policy of the first match. Tokens that tile the text, follow the policy
and keep what is left over in whole stretches are the tokens of the text, as far as tokens are compared; and
where their lines and columns are those of their starts, altogether. -/
theorem stream_unique_first_match (rules : List (Rule Pattern))
    (hrules : ∀ rule ∈ rules, rule.cls ≠ .unclassified) (source : Text) :
    FirstMatch rules source (stream rules source) ∧
    ∀ tokens, Tiling source tokens → FirstMatch rules source tokens → Separated tokens →
      tokens.map key = (stream rules source).map key ∧
      ((∀ token ∈ tokens, Placed source token) → tokens = stream rules source) := by
  have hstream : Follows rules source 0 (stream rules source) :=
    follows_place (p := Position.start) hrules (Nat.zero_le _)
  refine ⟨(follows_iff.mp hstream).2.1, ?_⟩
  intro tokens htiles hfirst hapart
  have hfollows : Follows rules source Position.start.offset tokens :=
    follows_iff.mpr ⟨(tiling_iff_tilesFrom source tokens).mp htiles, hfirst, hapart⟩
  have hkey : tokens.map key = (stream rules source).map key := hfollows.key_eq
  exact ⟨hkey, fun h => eq_of_key_eq hkey h (placed_stream rules source)⟩

/-- A minus sign with no word before it is left over, and the number behind it is found as a whole, as is the
spread pipe. -/
theorem stream_minus_spread :
    (∀ rule ∈ Rule.standard, rule.cls ≠ .unclassified) ∧
    stream Rule.standard "-1.5|*".toList =
      [⟨.unclassified, "-".toList, 0, 1, 1, 1⟩, ⟨.floatLiteral, "1.5".toList, 1, 4, 1, 2⟩,
        ⟨.pipeStar, "|*".toList, 4, 6, 1, 5⟩] := by
  have hfirst {p n : Nat} {cls : TokenClass}
      (h : Rule.firstAt? Rule.standard "-1.5|*".toList p = some (cls, n)) :=
    Rule.firstAt?_eq_some_iff.mp h
  refine ⟨by decide, Eq.symm ?_⟩
  refine ((stream_unique_first_match Rule.standard (by decide) "-1.5|*".toList).2 _ ?_ ?_ ?_).2 ?_
  · exact (tiling_iff_tilesFrom _ _).mpr ⟨rfl, by decide, rfl, rfl, by decide, rfl, rfl, by decide, rfl, rfl⟩
  · constructor
    · simp only [List.forall_mem_cons]
      refine ⟨fun h => absurd rfl h, fun _ => ⟨3, hfirst (by decide), rfl⟩,
        fun _ => ⟨2, hfirst (by decide), rfl⟩, by simp⟩
    · simp only [List.forall_mem_cons]
      refine ⟨fun _ p _ hp => ?_, fun h => absurd h (by decide), fun h => absurd h (by decide),
        by simp⟩
      obtain rfl : p = 0 := by simpa using hp
      exact Rule.firstAt?_eq_none_iff.mp (by decide)
  · exact .cons_cons (by decide) (.cons_cons (by decide) (.singleton _))
  · simp only [List.forall_mem_cons]
    exact ⟨⟨by decide, by decide⟩, ⟨by decide, by decide⟩, ⟨by decide, by decide⟩, by simp⟩

end Token

end GuidedTour
