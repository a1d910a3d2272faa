import GuidedTour.Text.Basic
import GuidedTour.Text.Ranges

/-!
# Blank characters

The blanks that are dropped at both ends of a text: the white space of Unicode together with the
four information separators U+001C to U+001F. `stripped_of_ends` says when nothing is dropped.
-/

set_option autoImplicit false

namespace GuidedTour.Text

/-- The code points of the blanks. -/
def blankRanges : Ranges :=
  [(0x9, 0xd), (0x1c, 0x20), (0x85, 0x85), (0xa0, 0xa0), (0x1680, 0x1680), (0x2000, 0x200a),
   (0x2028, 0x2029), (0x202f, 0x202f), (0x205f, 0x205f), (0x3000, 0x3000)]

/-- Whether a character is a blank. -/
def isBlank (c : Char) : Bool := blankRanges.has c.toNat

/-- A text without the blanks at its start. -/
def stripStart (text : Text) : Text := text.dropWhile isBlank

/-- A text without the blanks at its end. -/
def stripEnd (text : Text) : Text := (stripStart text.reverse).reverse

/-- Whether a character may stand around the digits of a number: the blanks but the information
separators. -/
def isNumberBlank (c : Char) : Bool := isBlank c && !(0x1c ≤ c.toNat && c.toNat ≤ 0x1f)

/-- A text without the characters at its two ends that may stand around a number. -/
def stripNumber (text : Text) : Text :=
  ((text.dropWhile isNumberBlank).reverse.dropWhile isNumberBlank).reverse

/-- A text without the blanks at its two ends. -/
def strip (text : Text) : Text := stripEnd (stripStart text)

/-- A text that starts and ends with other characters than blanks keeps all of itself. -/
theorem stripped_of_ends {text : Text} (hs : stripStart text = text)
    (he : stripStart text.reverse = text.reverse) : strip text = text := by
  simp [strip, stripEnd, hs, he]

end GuidedTour.Text
