/-!
# Texts

A text is the sequence of its code points. Every length, offset and column of the library counts
code points, so a text is a list of characters and not a byte string; the outer layer converts.

The module holds the few operations on lines that several parts of the library share, and the
decimal form of a number. `join_lines` is the law that ties splitting to joining.
-/

set_option autoImplicit false

namespace GuidedTour

/-- A text: its code points in order. -/
abbrev Text := List Char

namespace Text

/-- The decimal digits of a number. -/
def ofNat (n : Nat) : Text := Nat.toDigits 10 n

/-- The decimal digits of an integer, after a minus sign if it is negative. -/
def ofInt : Int → Text
  | .ofNat n => ofNat n
  | .negSucc n => '-' :: ofNat (n + 1)

/-- The texts in order, with a separator between neighbours. -/
def join (separator : Text) (texts : List Text) : Text := List.intercalate separator texts

/-- Puts a character in front of the first of some texts. -/
def consFirst (c : Char) : List Text → List Text
  | [] => [[c]]
  | text :: more => (c :: text) :: more

/-- The parts of a text between the separators, one more than there are separators. -/
def split (separator : Char) : Text → List Text
  | [] => [[]]
  | c :: rest =>
    if c = separator then [] :: split separator rest else consFirst c (split separator rest)

/-- The lines of a text. A line feed ends a line and belongs to none. -/
def lines (text : Text) : List Text := split '\n' text

/-- The number of line feeds in a text. -/
def lineFeeds (text : Text) : Nat := text.count '\n'

/-- What follows the last line feed, or the whole text if it has none. -/
def lastLine : Text → Text
  | [] => []
  | c :: rest => if c = '\n' then lastLine rest
    else if '\n' ∈ rest then lastLine rest else c :: rest

/-- Splitting gives one part at least. -/
theorem split_ne_nil (separator : Char) (text : Text) : split separator text ≠ [] := by
  cases text with
  | nil => simp [split]
  | cons c rest =>
    unfold split
    split
    · simp
    · cases split separator rest <;> simp [consFirst]

/-- Splitting loses only the separators. -/
theorem join_split (separator : Char) (text : Text) :
    join [separator] (split separator text) = text := by
  induction text with
  | nil => rfl
  | cons c rest ih =>
    have hne := split_ne_nil separator rest
    rw [split]
    cases hs : split separator rest with
    | nil => exact absurd hs hne
    | cons first more =>
      rw [hs] at ih
      by_cases hc : c = separator
      · simp [hc, join, List.intercalate] at ih ⊢
        exact ih
      · cases more with
        | nil => simp [hc, join, List.intercalate, consFirst] at ih ⊢; exact ih
        | cons _ _ => simp [hc, join, List.intercalate, consFirst] at ih ⊢; exact ih

/-- Splitting into lines loses only the line feeds. -/
theorem join_lines (text : Text) : join ['\n'] (lines text) = text := join_split '\n' text

end Text

end GuidedTour
