import GuidedTour.Token.Pattern

/-!
# Matching

Rules can be made of patterns of any kind. All that is asked of a kind of patterns is how some of them, in their
order, are matched together at a place in a text (`Matching`). The patterns of program text are matched one after the
other, and the first one that matches is found (`Pattern.firstOf?`).
-/

set_option autoImplicit false

namespace GuidedTour

/-- How patterns of a kind are matched. Patterns in an order make one expression. At a place in a text it finds one of
them, by its number, and the length of the match, which may be empty. A match can depend on all that comes before the
place; what it depends on is kept in a context. -/
class Matching (α : Type) (κ : outParam Type) where
  /-- The context at the start of a text. -/
  start : κ
  /-- The context behind a further stretch of text. -/
  behind : κ → Text → κ
  /-- The context behind two stretches only depends on the text that they make up. -/
  behind_append : ∀ (before : κ) (first second : Text),
    behind before (first ++ second) = behind (behind before first) second
  /-- What some patterns find at the start of what is left of a text. -/
  find? : List α → κ → Text → Option (Nat × Nat)
  /-- What is found is one of the patterns. -/
  find?_lt : ∀ {patterns : List α} {before : κ} {text : Text} {i n : Nat},
    find? patterns before text = some (i, n) → i < patterns.length
  /-- No match exceeds the text. -/
  find?_le : ∀ {patterns : List α} {before : κ} {text : Text} {i n : Nat},
    find? patterns before text = some (i, n) → n ≤ text.length

namespace Pattern

/-- The first of some patterns that matches at the start of a text, by its number, and the length of its match. -/
def firstOf? : List Pattern → Option Char → Text → Option (Nat × Nat)
  | [], _, _ => none
  | pattern :: more, before, text =>
    match pattern.length? before text with
    | some n => some (0, n)
    | none => (firstOf? more before text).map fun found => (found.1 + 1, found.2)

/-- What is found is a pattern of the list, at its place, and as long as its own match. -/
theorem firstOf?_spec {patterns : List Pattern} {before : Option Char} {text : Text} {i n : Nat}
    (h : firstOf? patterns before text = some (i, n)) :
    ∃ pattern, patterns[i]? = some pattern ∧ pattern.length? before text = some n := by
  induction patterns generalizing i with
  | nil => cases h
  | cons pattern more ih =>
    unfold firstOf? at h
    split at h
    · rename_i m hm
      cases h
      exact ⟨pattern, rfl, hm⟩
    · obtain ⟨⟨j, m⟩, hfound, he⟩ := Option.map_eq_some_iff.1 h
      cases he
      exact ih hfound

/-- Program text is matched with an eye on the one character before a place. -/
instance : Matching Pattern (Option Char) where
  start := none
  behind before text := text.getLast?.or before
  behind_append before first second := by rw [List.getLast?_append, Option.or_assoc]
  find? := firstOf?
  find?_lt h := by
    obtain ⟨pattern, hpattern, -⟩ := firstOf?_spec h
    exact (List.getElem?_eq_some_iff.1 hpattern).1
  find?_le h := by
    obtain ⟨pattern, -, hlength⟩ := firstOf?_spec h
    exact length?_le hlength

/-- Behind a stretch of text stands its last character. -/
theorem behind_of_ne_nil {before : Option Char} {text : Text} (h : text ≠ []) :
    Matching.behind Pattern before text = text.getLast? := by
  show text.getLast?.or before = text.getLast?
  rw [List.getLast?_eq_some_getLast h]
  rfl

/-- Behind one more character stands that character. -/
@[simp] theorem behind_singleton (before : Option Char) (c : Char) :
    Matching.behind Pattern before [c] = some c := rfl

end Pattern

end GuidedTour
