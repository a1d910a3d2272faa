import GuidedTour.Proofs.Token.Scan
import Mathlib.Algebra.Ring.Parity

/-!
# String literals

A string is read from its opening quote in steps: a backslash takes the next character with it, which must not be a
line feed, any other character stands for itself, and a quote that is reached closes the string. The same is told here
without steps, by the parity of runs of backslashes (`Token.Closes`): the closing quote is the first one with an even
number of backslashes before it, and no line feed up to it has an odd number.

The two agree since a backslash and the character that it takes along lengthen a run that reaches back to them by two
and leave any other run alone (`Pattern.even_trailing_pair`). So a quote at which the rules are tried begins a string
if and only if some quote closes it, and is left over otherwise (`Token.string_of_quote`).
-/

set_option autoImplicit false

namespace GuidedTour

/-! ## Runs of backslashes -/

namespace Pattern

/-- The number of backslashes at the end of a text. -/
def trailing (text : Text) : Nat := (text.rtakeWhile (· = '\\')).length

/-- One character more lengthens the run of backslashes at the end or ends it. -/
theorem trailing_concat (text : Text) (c : Char) :
    trailing (text ++ [c]) = if c = '\\' then trailing text + 1 else 0 := by
  unfold trailing
  rw [List.rtakeWhile_concat]
  by_cases hc : c = '\\' <;> simp [hc]

/-- A run of backslashes does not reach across another character. -/
theorem trailing_cons_of_ne {c : Char} (hc : c ≠ '\\') (text : Text) : trailing (c :: text) = trailing text := by
  induction text using List.reverseRecOn with
  | nil => simp [hc, trailing]
  | append_singleton text d ih => rw [← List.cons_append, trailing_concat, trailing_concat, ih]

/-- A backslash and its companion in front of a text leave the parity of the run at its end. -/
theorem even_trailing_pair (c : Char) (text : Text) :
    Even (trailing ('\\' :: c :: text)) ↔ Even (trailing text) := by
  induction text using List.reverseRecOn with
  | nil =>
    have hpair : trailing ['\\', c] = if c = '\\' then 2 else 0 := trailing_concat ['\\'] c
    have hnil : trailing [] = 0 := rfl
    rw [hpair, hnil]
    split <;> decide
  | append_singleton text d ih =>
    rw [← List.cons_append, ← List.cons_append, trailing_concat, trailing_concat]
    by_cases hd : d = '\\'
    · simp only [hd, if_true, Nat.even_add_one, ih]
    · simp only [hd, if_false]

/-! ## The end of a string -/

/-- A string goes on at an offset of its body: a quote there is taken along by a backslash, and a line feed is not. -/
structure GoesOn (text : Text) (k : Nat) : Prop where
  quote : text[k]? = some '"' → ¬Even (trailing (text.take k))
  lineFeed : text[k]? = some '\n' → Even (trailing (text.take k))

/-- A string ends at an offset of what follows its opening quote. -/
structure Ends (text : Text) (q : Nat) : Prop where
  quote : text[q]? = some '"'
  free : Even (trailing (text.take q))
  goesOn : ∀ k < q, GoesOn text k

/-- A character that is no backslash has no part in whether a string goes on behind it. -/
theorem goesOn_succ {c : Char} (hc : c ≠ '\\') (text : Text) (k : Nat) :
    GoesOn (c :: text) (k + 1) ↔ GoesOn text k := by
  constructor
  · rintro ⟨hquote, hfeed⟩
    rw [List.getElem?_cons_succ, List.take_succ_cons, trailing_cons_of_ne hc] at hquote hfeed
    exact ⟨hquote, hfeed⟩
  · rintro ⟨hquote, hfeed⟩
    constructor <;> rwa [List.getElem?_cons_succ, List.take_succ_cons, trailing_cons_of_ne hc]

/-- A backslash and the character that it takes along have no part in whether a string goes on behind them. -/
theorem goesOn_add_two (c : Char) (text : Text) (k : Nat) :
    GoesOn ('\\' :: c :: text) (k + 2) ↔ GoesOn text k := by
  have htake : ('\\' :: c :: text).take (k + 2) = '\\' :: c :: text.take k := rfl
  have hget : ('\\' :: c :: text)[k + 2]? = text[k]? := rfl
  constructor
  · rintro ⟨hquote, hfeed⟩
    rw [hget, htake, even_trailing_pair] at hquote hfeed
    exact ⟨hquote, hfeed⟩
  · rintro ⟨hquote, hfeed⟩
    constructor <;> rwa [hget, htake, even_trailing_pair]

/-- A quote in front ends the string. -/
theorem ends_quote_iff (text : Text) (q : Nat) : Ends ('"' :: text) q ↔ q = 0 := by
  constructor
  · intro h
    by_contra hne
    exact (h.goesOn 0 (Nat.pos_of_ne_zero hne)).quote rfl ⟨0, rfl⟩
  · rintro rfl
    exact ⟨rfl, ⟨0, rfl⟩, fun k hk => absurd hk (Nat.not_lt_zero k)⟩

/-- A character that stands for itself may be put in front. -/
theorem ends_cons_iff {c : Char} (hquote : c ≠ '"') (hback : c ≠ '\\') (text : Text) (q : Nat) :
    Ends (c :: text) q ↔ ∃ k, q = k + 1 ∧ Ends text k := by
  have hfirst : GoesOn (c :: text) 0 := ⟨fun h => absurd (Option.some.inj h) hquote, fun _ => ⟨0, rfl⟩⟩
  cases q with
  | zero =>
    constructor
    · intro h
      exact absurd (Option.some.inj h.quote) hquote
    · rintro ⟨k, hk, -⟩
      omega
  | succ q =>
    constructor
    · rintro ⟨hend, hfree, hgoes⟩
      rw [List.take_succ_cons, trailing_cons_of_ne hback] at hfree
      refine ⟨q, rfl, hend, hfree, fun k hk => ?_⟩
      exact (goesOn_succ hback text k).1 (hgoes (k + 1) (by omega))
    · rintro ⟨k, hk, hend, hfree, hgoes⟩
      obtain rfl : q = k := by omega
      refine ⟨hend, ?_, ?_⟩
      · rwa [List.take_succ_cons, trailing_cons_of_ne hback]
      · intro k hk
        cases k with
        | zero => exact hfirst
        | succ k => exact (goesOn_succ hback text k).2 (hgoes k (by omega))

/-- A backslash and the character that it takes along may be put in front, unless that is a line feed. -/
theorem ends_pair_iff {c : Char} (hc : c ≠ '\n') (text : Text) (q : Nat) :
    Ends ('\\' :: c :: text) q ↔ ∃ k, q = k + 2 ∧ Ends text k := by
  have hsingle : ¬Even (trailing ['\\']) := Nat.not_even_one
  have hfirst : GoesOn ('\\' :: c :: text) 0 :=
    ⟨fun h => absurd (Option.some.inj h) (by decide), fun h => absurd (Option.some.inj h) (by decide)⟩
  have hsecond : GoesOn ('\\' :: c :: text) 1 := ⟨fun _ => hsingle, fun h => absurd (Option.some.inj h) hc⟩
  rcases q with _ | _ | q
  · constructor
    · intro h
      exact absurd (Option.some.inj h.quote) (by decide)
    · rintro ⟨k, hk, -⟩
      omega
  · constructor
    · intro h
      exact absurd h.free hsingle
    · rintro ⟨k, hk, -⟩
      omega
  · constructor
    · rintro ⟨hend, hfree, hgoes⟩
      refine ⟨q, rfl, hend, (even_trailing_pair c _).1 hfree, fun k hk => ?_⟩
      exact (goesOn_add_two c text k).1 (hgoes (k + 2) (by omega))
    · rintro ⟨k, hk, hend, hfree, hgoes⟩
      obtain rfl : q = k := by omega
      refine ⟨hend, (even_trailing_pair c _).2 hfree, ?_⟩
      intro k hk
      rcases k with _ | _ | k
      · exact hfirst
      · exact hsecond
      · exact (goesOn_add_two c text k).2 (hgoes k (by omega))

/-- No string ends behind a line feed that a backslash would take along. -/
theorem not_ends_lineFeed (text : Text) (q : Nat) : ¬Ends ('\\' :: '\n' :: text) q := by
  intro h
  rcases q with _ | _ | q
  · exact absurd (Option.some.inj h.quote) (by decide)
  · exact absurd (Option.some.inj h.quote) (by decide)
  · exact Nat.not_even_one ((h.goesOn 1 (by omega)).lineFeed rfl)

/-- Reading in steps stops behind the quote at which the string ends, and fails if there is none. -/
theorem untilQuote?_eq_some_iff {text : Text} {n : Nat} :
    untilQuote? text = some n ↔ ∃ q, n = q + 1 ∧ Ends text q := by
  fun_induction untilQuote? text generalizing n with
  | case1 =>
    constructor
    · intro h
      cases h
    · rintro ⟨q, -, h⟩
      cases h.quote
  | case2 rest =>
    simp only [ends_quote_iff, Option.some.injEq]
    constructor
    · rintro rfl
      exact ⟨0, rfl, rfl⟩
    · rintro ⟨q, rfl, rfl⟩
      rfl
  | case3 =>
    constructor
    · intro h
      cases h
    · rintro ⟨q, -, h⟩
      rcases q with _ | q
      · exact absurd (Option.some.inj h.quote) (by decide)
      · cases h.quote
  | case4 rest =>
    constructor
    · intro h
      cases h
    · rintro ⟨q, -, h⟩
      exact absurd h (not_ends_lineFeed rest q)
  | case5 c rest hc ih =>
    simp only [Option.map_eq_some_iff, ih, ends_pair_iff hc]
    constructor
    · rintro ⟨m, ⟨q, rfl, hq⟩, rfl⟩
      exact ⟨q + 2, rfl, q, rfl, hq⟩
    · rintro ⟨q, rfl, k, rfl, hk⟩
      exact ⟨k + 1, ⟨k, rfl, hk⟩, rfl⟩
  | case6 c rest hne hend hback ih =>
    have hquote : c ≠ '"' := fun h => hne h
    have hb : c ≠ '\\' := by
      intro h
      cases rest with
      | nil => exact hend h rfl
      | cons d more => exact hback d more h rfl
    simp only [Option.map_eq_some_iff, ih, ends_cons_iff hquote hb]
    constructor
    · rintro ⟨m, ⟨q, rfl, hq⟩, rfl⟩
      exact ⟨q + 1, rfl, q, rfl, hq⟩
    · rintro ⟨q, rfl, k, rfl, hk⟩
      exact ⟨k + 1, ⟨k, rfl, hk⟩, rfl⟩

end Pattern

/-! ## Strings in a source -/

namespace Token

/-- The number of backslashes that stand directly before an offset, counted behind another offset. -/
def backslashes (source : Text) (p k : Nat) : Nat := ((source.extract (p + 1) k).rtakeWhile (· = '\\')).length

/-- A later quote closes the string that a quote opens. -/
structure Closes (source : Text) (p q : Nat) : Prop where
  behind : p < q
  quote : source[q]? = some '"'
  /-- An even number of backslashes stands before it. -/
  free : Even (backslashes source p q)
  /-- It is the first such quote. -/
  first : ∀ k, p < k → k < q → source[k]? = some '"' → Odd (backslashes source p k)
  /-- Up to it no run of backslashes of odd length is followed by a line feed. -/
  unbroken : ∀ k, p < k → k < q → source[k]? = some '\n' → Even (backslashes source p k)

/-- A quote closes a string iff the string ends at it, counted from behind the opening quote. -/
theorem closes_iff {source : Text} {p q : Nat} :
    Closes source p q ↔ ∃ k, q = p + 1 + k ∧ Pattern.Ends (source.drop (p + 1)) k := by
  have hcount (k : Nat) : backslashes source p (p + 1 + k) = Pattern.trailing ((source.drop (p + 1)).take k) := by
    rw [backslashes, extract_add, Pattern.trailing]
  constructor
  · rintro ⟨hbehind, hquote, hfree, hfirst, hunbroken⟩
    obtain ⟨k, rfl⟩ := Nat.exists_eq_add_of_le (show p + 1 ≤ q from hbehind)
    rw [hcount] at hfree
    refine ⟨k, rfl, by rwa [List.getElem?_drop], hfree, fun j hj => ⟨?_, ?_⟩⟩
    · rw [List.getElem?_drop, Nat.not_even_iff_odd, ← hcount]
      exact hfirst (p + 1 + j) (by omega) (by omega)
    · rw [List.getElem?_drop, ← hcount]
      exact hunbroken (p + 1 + j) (by omega) (by omega)
  · rintro ⟨k, rfl, hquote, hfree, hgoes⟩
    rw [List.getElem?_drop] at hquote
    refine ⟨by omega, hquote, by rwa [hcount], ?_, ?_⟩
    · intro j hj hlt
      obtain ⟨j, rfl⟩ := Nat.exists_eq_add_of_le (show p + 1 ≤ j from hj)
      have hgoes := (hgoes j (by omega)).quote
      rwa [List.getElem?_drop, Nat.not_even_iff_odd, ← hcount] at hgoes
    · intro j hj hlt
      obtain ⟨j, rfl⟩ := Nat.exists_eq_add_of_le (show p + 1 ≤ j from hj)
      have hgoes := (hgoes j (by omega)).lineFeed
      rwa [List.getElem?_drop, ← hcount] at hgoes

section Quote

variable {source : Text} {p : Nat} (hquote : source[p]? = some '"')
include hquote

/-- A string is matched iff a quote closes it, and up to behind that quote. -/
theorem matchAt?_quotedString_iff {n : Nat} :
    Pattern.quotedString.matchAt? source p = some n ↔ ∃ q, Closes source p q ∧ p + n = q + 1 := by
  obtain ⟨hlt, hget⟩ := List.getElem?_eq_some_iff.1 hquote
  have hlength : Pattern.quotedString.matchAt? source p =
      (Pattern.untilQuote? (source.drop (p + 1))).map (· + 1) := by
    rw [Pattern.matchAt?_eq, List.drop_eq_getElem_cons hlt, hget]
    rfl
  simp only [hlength, Option.map_eq_some_iff, Pattern.untilQuote?_eq_some_iff, closes_iff]
  constructor
  · rintro ⟨m, ⟨k, rfl, hk⟩, rfl⟩
    exact ⟨p + 1 + k, ⟨k, rfl, hk⟩, by omega⟩
  · rintro ⟨q, ⟨k, rfl, hk⟩, hn⟩
    exact ⟨k + 1, ⟨k, rfl, hk⟩, by omega⟩

/-- Where a quote is closed, the rule of strings is the first to match. -/
theorem isFirstAt_of_closes {q : Nat} (h : Closes source p q) :
    Rule.IsFirstAt Rule.standard source p .stringLiteral (q + 1 - p) := by
  have hbehind := h.behind
  have hmatch : Pattern.quotedString.matchAt? source p = some (q + 1 - p) :=
    (matchAt?_quotedString_iff hquote).2 ⟨q, h, by omega⟩
  rw [Pattern.matchAt?_eq] at hmatch
  apply Rule.firstAt?_eq_some_iff.1
  exact Rule.first?_of_heads (Rule.standard.take 8) (Rule.standard.drop 9) ⟨.quotedString, .stringLiteral⟩
    (by decide) hmatch

/-- Where a quote is not closed, no rule matches. -/
theorem noneAt_of_not_closes (h : ¬∃ q, Closes source p q) : Rule.NoneAt Rule.standard source p := by
  have honly : ∀ rule ∈ Rule.standard, '"' ∈ rule.pattern.heads → rule.pattern = .quotedString := by decide
  intro rule hrule
  cases hmatch : rule.pattern.matchAt? source p with
  | none => rfl
  | some n =>
    obtain ⟨c, hc, hhead⟩ := Pattern.exists_head_of_matchAt? hmatch
    rw [hquote] at hc
    obtain rfl := Option.some.inj hc
    rw [honly rule hrule hhead] at hmatch
    obtain ⟨q, hq, -⟩ := (matchAt?_quotedString_iff hquote).1 hmatch
    exact absurd ⟨q, hq⟩ h

/-- A quote that lies in no match begins a string if and only if a later quote closes it, and the string reaches up to
that quote. Otherwise the quote is left over, and the rules are tried again right behind it. -/
theorem string_of_quote (hp : ¬Inside (stream Rule.standard source) p) :
    ((∃ token ∈ stream Rule.standard source, token.cls = .stringLiteral ∧ token.start = p) ↔
      ∃ q, Closes source p q) ∧
    (∀ q, Closes source p q → ∀ token ∈ stream Rule.standard source, token.start = p →
      token.cls = .stringLiteral ∧ token.stop = q + 1 ∧ token.value = source.extract p (q + 1)) ∧
    ((¬∃ q, Closes source p q) →
      (∃ token ∈ stream Rule.standard source,
        token.cls = .unclassified ∧ token.start ≤ p ∧ p < token.stop) ∧
      Tried Rule.standard source (p + 1)) := by
  have hlt : p < source.length := (List.getElem?_eq_some_iff.1 hquote).1
  have hclosed : ∀ q, Closes source p q → ∃ token ∈ stream Rule.standard source,
      token.cls = .stringLiteral ∧ token.start = p ∧ token.stop = q + 1 := by
    intro q hq
    obtain ⟨token, htoken, hcls, hstart, hstop⟩ :=
      mem_of_isFirstAt Rule.standard_classed hp (isFirstAt_of_closes hquote hq)
    have hbehind := hq.behind
    exact ⟨token, htoken, hcls, hstart, by omega⟩
  refine ⟨⟨?_, ?_⟩, ?_, ?_⟩
  · rintro ⟨token, htoken, hcls, hstart⟩
    by_contra hopen
    obtain ⟨gap, hgap, hgapcls, hspan⟩ :=
      mem_of_noneAt Rule.standard_classed hp hlt (noneAt_of_not_closes hquote hopen)
    have hnonempty := (extent_of_mem_stream htoken).1
    have hsame := eq_of_mem_stream htoken hgap (p := p) ⟨by omega, by omega⟩ hspan
    rw [hsame, hgapcls] at hcls
    cases hcls
  · rintro ⟨q, hq⟩
    obtain ⟨token, htoken, hcls, hstart, -⟩ := hclosed q hq
    exact ⟨token, htoken, hcls, hstart⟩
  · intro q hq token htoken hstart
    obtain ⟨found, hfound, hcls, hbegin, hend⟩ := hclosed q hq
    have hbehind := hq.behind
    obtain ⟨hnonempty, hvalue⟩ := extent_of_mem_stream htoken
    obtain rfl := eq_of_mem_stream htoken hfound (p := p) ⟨by omega, by omega⟩ ⟨by omega, by omega⟩
    rw [hbegin, hend] at hvalue
    exact ⟨hcls, hend, hvalue⟩
  · intro hopen
    have hnone := noneAt_of_not_closes hquote hopen
    have htried : Tried Rule.standard source p := (tried_iff Rule.standard_classed (by omega)).2 hp
    exact ⟨mem_of_noneAt Rule.standard_classed hp hlt hnone, htried.past hlt hnone⟩

end Quote

/-- In `"\"" "\` the second quote is escaped, so that the third one closes the first. The last quote is never closed. -/
theorem string_of_quote_escaped :
    let source : Text := ['"', '\\', '"', '"', ' ', '"', '\\']
    (∃ token ∈ stream Rule.standard source, token.cls = .stringLiteral ∧ token.start = 0) ∧
    ∃ token ∈ stream Rule.standard source, token.cls = .unclassified ∧ token.start ≤ 5 ∧ 5 < token.stop := by
  intro source
  have hstring : Rule.IsFirstAt Rule.standard source 0 .stringLiteral 4 := Rule.firstAt?_eq_some_iff.1 (by decide)
  have hblank : Rule.NoneAt Rule.standard source 4 := Rule.firstAt?_eq_none_iff.1 (by decide)
  have htried : Tried Rule.standard source 5 := (Tried.start.behind hstring).past (by decide) hblank
  have hzero : source[0]? = some '"' := rfl
  have hfive : source[5]? = some '"' := rfl
  have hclosed : ∃ q, Closes source 0 q := by
    obtain ⟨q, hq, -⟩ := (matchAt?_quotedString_iff (n := 4) hzero).1 (by decide)
    exact ⟨q, hq⟩
  have hopen : ¬∃ q, Closes source 5 q := by
    rintro ⟨q, hq⟩
    have hbehind := hq.behind
    have hmatch := (matchAt?_quotedString_iff (n := q + 1 - 5) hfive).2 ⟨q, hq, by omega⟩
    have hnone : Pattern.quotedString.matchAt? source 5 = none := by decide
    rw [hnone] at hmatch
    cases hmatch
  have hfirst := string_of_quote hzero (not_inside_of_tried Rule.standard_classed .start)
  have hlast := string_of_quote hfive (not_inside_of_tried Rule.standard_classed htried)
  exact ⟨hfirst.1.2 hclosed, (hlast.2.2 hopen).1⟩

end Token

end GuidedTour
