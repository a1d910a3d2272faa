import GuidedTour.Decimal.Double
import GuidedTour.Text.Digit

/-!
# Spellings of numbers and characters

The lexical forms inside a printed result: names, signed integers, floats, the two truths, and codes in
braces. Each reader gives what it has read together with what is left of the text.
-/

set_option autoImplicit false

namespace GuidedTour.Outcome

/-- A name of ASCII letters, and the rest. -/
def name? (text : Text) : Option (Text × Text) :=
  if (text.takeWhile Char.isAlpha).isEmpty then none
  else some (text.takeWhile Char.isAlpha, text.dropWhile Char.isAlpha)

/-- The ASCII digits at the start of a text, and the rest. -/
def digits (text : Text) : Text × Text := (text.takeWhile Char.isDigit, text.dropWhile Char.isDigit)

/-- A minus sign at the start of a text, and the rest. -/
def sign : Text → Text × Text
  | '-' :: rest => (['-'], rest)
  | text => ([], text)

/-- A signed integer: its spelling, and the rest. -/
def integer? (text : Text) : Option (Text × Text) :=
  let (minus, body) := sign text
  let (ds, rest) := digits body
  if ds.isEmpty then none else some (minus ++ ds, rest)

/-- The digits behind a point, if there is a point with digits behind it. -/
def fractionDigits : Text → Text × Text
  | '.' :: rest => if (digits rest).1.isEmpty then ([], '.' :: rest) else digits rest
  | text => ([], text)

/-- The power of ten behind the letter `e`, if it is complete. -/
def power : Text → Int × Text
  | 'e' :: rest =>
    let (minus, body) := sign rest
    let (ds, left) := digits body
    if ds.isEmpty then (0, 'e' :: rest)
    else (if minus.isEmpty then Text.natOfDigits ds else -(Text.natOfDigits ds : Int), left)
  | text => (0, text)

/-- A float: the nearest double, and the rest. -/
def float? (text : Text) : Option (Double × Text) :=
  let (minus, body) := sign text
  let negative := !minus.isEmpty
  if ['i', 'n', 'f'].isPrefixOf body then some (.infinite negative, body.drop 3)
  else if ['N', 'a', 'N'].isPrefixOf body then some (.nan, body.drop 3)
  else
    let (whole, rest) := digits body
    if whole.isEmpty then none
    else
      let (behind, rest) := fractionDigits rest
      let (exponent, rest) := power rest
      some (Double.ofDecimal negative (Text.natOfDigits (whole ++ behind))
        (exponent - behind.length), rest)

/-- A truth word: the truth, and the rest. -/
def boolean? (text : Text) : Option (Bool × Text) :=
  if "true".toList.isPrefixOf text then some (true, text.drop 4)
  else if "false".toList.isPrefixOf text then some (false, text.drop 5)
  else none

/-- Whether a character is a hexadecimal digit. -/
def isHex (c : Char) : Bool := c.isDigit || ('a' ≤ c && c ≤ 'f') || ('A' ≤ c && c ≤ 'F')

/-- A code point in braces and hexadecimal digits, and the rest. -/
def braced? : Text → Option (Nat × Text)
  | '{' :: body =>
    let ds := body.takeWhile isHex
    match body.dropWhile isHex with
    | '}' :: rest => (Text.natIn? 16 ds).map (·, rest)
    | _ => none
  | _ => none

/-- A code in braces takes something of the text. -/
theorem braced?_length {text rest : Text} {code : Nat} (h : braced? text = some (code, rest)) :
    rest.length < text.length := by
  unfold braced? at h
  split at h
  · next body =>
    simp only at h
    split at h
    · next left hl =>
      simp only [Option.map_eq_some_iff] at h
      obtain ⟨_, _, he⟩ := h
      simp at he
      have := congrArg List.length hl
      have := (List.dropWhile_sublist (l := body) isHex).length_le
      rw [← he.2]
      simp_all
      omega
    · simp at h
  · simp at h

/-- The character that a letter behind a backslash stands for. -/
def escaped? : Char → Option Char
  | 'n' => some '\n'
  | 't' => some '\t'
  | 'r' => some '\r'
  | '0' => some '\x00'
  | '\\' => some '\\'
  | '"' => some '"'
  | '\'' => some '\''
  | _ => none

end GuidedTour.Outcome
