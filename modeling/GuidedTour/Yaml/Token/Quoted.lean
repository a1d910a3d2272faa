import GuidedTour.Text.Digit
import GuidedTour.Yaml.Cursor
import GuidedTour.Yaml.Token.Basic

/-!
# Quoted scalars

Between single quotes only a doubled quote is special; between double quotes a backslash names characters
and takes line breaks away. In both, blanks around a line break are dropped, a single break becomes a
space, and of several breaks the first is dropped.
-/

set_option autoImplicit false

namespace GuidedTour.Yaml

/-- The character that a letter behind a backslash stands for. -/
def escapeOf? (c : Char) : Option Char :=
  match c with
  | '0' => some '\x00'
  | 'a' => some '\x07'
  | 'b' => some '\x08'
  | 't' => some '\t'
  | '\t' => some '\t'
  | 'n' => some '\n'
  | 'v' => some '\x0b'
  | 'f' => some '\x0c'
  | 'r' => some '\r'
  | 'e' => some '\x1b'
  | ' ' => some ' '
  | '"' => some '"'
  | '\\' => some '\\'
  | '/' => some '/'
  | 'N' => some '\x85'
  | '_' => some '\xa0'
  | 'L' => some '\u2028'
  | 'P' => some '\u2029'
  | _ => none

/-- How many hexadecimal digits follow a letter behind a backslash. -/
def escapeWidth? (c : Char) : Option Nat :=
  match c with
  | 'x' => some 2
  | 'u' => some 4
  | 'U' => some 8
  | _ => none

/-- The character of a code point that is written in digits. A text holds characters only, so U+FFFD stands in for
a lone surrogate, which the YAML library that the tour relies on keeps as it is. -/
def codedCharacter (digits : Text) : Except Error Char :=
  match Text.natIn? 16 digits with
  | none => .error .invalid
  | some code =>
    if Nat.pow 2 31 ≤ code then .error (.fault .tooLarge)
    else if 0x10ffff < code then .error (.fault .illFormed)
    else .ok (if code.isValidChar then Char.ofNat code else '\uFFFD')

namespace Lex

/-- Whether a character is a space or a tab. -/
def isSpaceOrTab (c : Char) : Bool := c == ' ' || c == '\t'

/-- The line breaks that follow, with the blanks around them dropped. A line that separates documents
must not follow a break. -/
def quotedBreaks : Nat → Lex Text
  | 0 => return []
  | fuel + 1 => do
    if ← seesSeparator then invalid
    else
      skipWhile isSpaceOrTab
      match ← lineBreak? with
      | none => return []
      | some ch => return ch :: (← quotedBreaks fuel)

/-- The blanks and line breaks that follow inside a quoted scalar, folded. -/
def quotedBlanks : Lex Text := do
  let blanks ← takeWhile isSpaceOrTab
  match ← lineBreak? with
  | some ch => return foldedBreaks ch (← quotedBreaks (← fuel))
  | none =>
    demand (← peek).isSome
    return blanks

/-- What a backslash between double quotes stands for, from behind the backslash. -/
def escape : Lex Text := do
  match ← peek with
  | none => invalid
  | some letter =>
    match escapeOf? letter, escapeWidth? letter with
    | some ch, _ =>
      next
      return [ch]
    | none, some width =>
      next
      let digits ← (List.range width).mapM hexDigit
      let ch ← codedCharacter digits
      skip width
      return [ch]
    | none, none =>
      match ← lineBreak? with
      | some _ => quotedBreaks (← fuel)
      | none => invalid

/-- A quoted scalar from behind its opening quote to behind its closing one. -/
def quotedBody (isDouble : Bool) : Nat → Lex Text
  | 0 => invalid
  | fuel + 1 => do
    let quote := if isDouble then '"' else '\''
    let piece ← takeWhile fun c =>
      !(isSpaceOrTab c || isBreak c || c == quote || (isDouble && c == '\\'))
    match ← peek with
    | none => invalid
    | some ch =>
      if isSpaceOrTab ch || isBreak ch then
        let blanks ← quotedBlanks
        return piece ++ blanks ++ (← quotedBody isDouble fuel)
      else if ch == '\\' then
        next
        let escaped ← escape
        return piece ++ escaped ++ (← quotedBody isDouble fuel)
      else if isDouble then
        next
        return piece
      else if (← peekAt 1) == some '\'' then
        skip 2
        return piece ++ '\'' :: (← quotedBody isDouble fuel)
      else
        next
        return piece

/-- A quoted scalar with its quotes. -/
def quoted (isDouble : Bool) : Lex Token := do
  next
  return .scalar (← quotedBody isDouble (← fuel)) false

end Lex

end GuidedTour.Yaml
