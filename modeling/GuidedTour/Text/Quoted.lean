import GuidedTour.Text.Basic
import GuidedTour.Text.Printable

/-!
# Quoted texts

A text is quoted so that it fits on one line of a message: between single quotes, or between double
quotes if it holds a single quote and no double one. The quote in use and the backslash are escaped,
and what cannot be printed is written by its code point in two, four or eight hexadecimal digits.
Sequences of bytes are quoted in the same manner behind the letter `b`.
-/

set_option autoImplicit false

namespace GuidedTour.Text

/-- The quote a text is put between. -/
def quoteMark (text : Text) : Char :=
  if '\'' ∈ text ∧ '"' ∉ text then '"' else '\''

/-- A number in hexadecimal digits, filled up with zeros to a width. -/
def hexadecimal (width n : Nat) : Text :=
  let digits := Nat.toDigits 16 n
  List.replicate (width - digits.length) '0' ++ digits

/-- The escape that names a code point. -/
def codeEscape (code : Nat) : Text :=
  if code < 0x100 then '\\' :: 'x' :: hexadecimal 2 code
  else if code < 0x10000 then '\\' :: 'u' :: hexadecimal 4 code
  else '\\' :: 'U' :: hexadecimal 8 code

/-- How one character is written between the given quotes. -/
def quotedChar (mark c : Char) : Text :=
  if c = '\\' ∨ c = mark then ['\\', c]
  else if c = '\n' then ['\\', 'n']
  else if c = '\r' then ['\\', 'r']
  else if c = '\t' then ['\\', 't']
  else if isPrintable c then [c]
  else codeEscape c.toNat

/-- A text between quotes, on one line. -/
def quoted (text : Text) : Text :=
  quoteMark text :: text.flatMap (quotedChar (quoteMark text)) ++ [quoteMark text]

/-- A sequence of bytes between quotes, each byte beyond printable ASCII by its number. -/
def quotedBytes (bytes : List UInt8) : Text :=
  let text : Text := bytes.map fun b => Char.ofNat b.toNat
  let mark := quoteMark text
  let body := text.flatMap fun c =>
    if c.toNat < 0x80 then quotedChar mark c else codeEscape c.toNat
  'b' :: mark :: body ++ [mark]

/-- Several texts quoted, in square brackets, as a command is shown. -/
def quotedList (texts : List Text) : Text :=
  '[' :: join [',', ' '] (texts.map quoted) ++ [']']

end GuidedTour.Text
