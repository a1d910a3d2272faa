import GuidedTour.Yaml.Incoming

/-!
# Places in YAML text

A cursor is what is left of a text together with how much has been passed, the line and the column. The
rules of indentation are about columns, and those of simple keys about lines and distances. A byte order
mark takes no column.

The characters are gone through in steps that may fail. A step that moves on or looks ahead needs the text
to have come in so far, so that what stops a text comes up at the first step that gets there.
-/

set_option autoImplicit false

namespace GuidedTour.Yaml

/-- A place in a text. -/
structure Cursor where
  rest : Text
  /-- What stops the text behind what is left of it. -/
  stop : Option Error
  index : Nat
  line : Nat
  column : Nat
deriving Repr, Inhabited

namespace Cursor

/-- The beginning of a text. -/
def start (incoming : Incoming) : Cursor := ⟨incoming.text, incoming.stop, 0, 0, 0⟩

/-- The place behind the next character. -/
def next (c : Cursor) : Cursor :=
  match c.rest with
  | [] => c
  | ch :: rest =>
    let newLine := isBreak ch && !(ch == '\r' && rest.head? == some '\n')
    if newLine then ⟨rest, c.stop, c.index + 1, c.line + 1, 0⟩
    else
      ⟨rest, c.stop, c.index + 1, c.line, if ch == byteOrderMark then c.column else c.column + 1⟩

/-- The place behind some more characters. -/
def skip (c : Cursor) : Nat → Cursor
  | 0 => c
  | n + 1 => c.next.skip n

end Cursor

/-- Gives up, whatever the state of the steps: the text is no document. -/
def invalid {σ α : Type} : StateT σ (Except Error) α := throw .invalid

/-- A step through the characters of a text. -/
abbrev Lex (α : Type) := StateT Cursor (Except Error) α

namespace Lex

/-- Goes on only where a condition holds. -/
def demand (condition : Bool) : Lex Unit := if condition then return else invalid

/-- Needs the text to have come in as far as some characters ahead. -/
def await (distance : Nat) : Lex Unit := do
  let c ← get
  match c.stop with
  | none => return
  | some error => if (c.rest.drop distance).isEmpty then throw error else return

/-- The number of characters that are left, and one for the end. It is fuel for steps that each take a
character. -/
def fuel : Lex Nat := return (← get).rest.length + 1

/-- The column of the place. -/
def column : Lex Nat := return (← get).column

/-- The next character. -/
def peek : Lex (Option Char) := return (← get).rest.head?

/-- Whether a character is next. -/
def sees (ch : Char) : Lex Bool := return (← peek) == some ch

/-- The character some way ahead. -/
def peekAt (distance : Nat) : Lex (Option Char) := do
  await distance
  return (← get).rest[distance]?

/-- A hexadecimal digit some way ahead. -/
def hexDigit (distance : Nat) : Lex Char := do
  match ← peekAt distance with
  | some c => if isHexDigit c then return c else invalid
  | none => invalid

/-- Passes some characters. -/
def skip (n : Nat) : Lex Unit := do
  modify (·.skip n)
  await 0

/-- Passes the next character. -/
def next : Lex Unit := skip 1

/-- Passes the characters of a class that are next, and gives them. -/
def takeWhile (p : Char → Bool) : Lex Text := do
  let text := (← get).rest.takeWhile p
  skip text.length
  return text

/-- Passes the characters of a class that are next. -/
def skipWhile (p : Char → Bool) : Lex Unit := do
  let _ ← takeWhile p

/-- Passes the spaces that are next. -/
def skipSpaces : Lex Unit := skipWhile (· == ' ')

/-- Goes to the end of the line. -/
def skipLine : Lex Unit := skipWhile (!isBreak ·)

/-- Goes to the end of the line if a comment is next. -/
def skipComment : Lex Unit := do
  if ← sees '#' then skipLine

/-- Passes the line break that is next, if there is one, and gives it. All breaks but the two of Unicode
count as a line feed. -/
def lineBreak? : Lex (Option Char) := do
  match (← get).rest with
  | '\r' :: '\n' :: _ =>
    skip 2
    return some '\n'
  | ch :: _ =>
    if isBreak ch then
      next
      return some (if ch == '\u2028' || ch == '\u2029' then ch else '\n')
    else return none
  | [] => return none

/-- Passes what may follow on a line that is finished: spaces, a comment, and the line break. -/
def finishLine : Lex Unit := do
  skipSpaces
  skipComment
  demand (atLineEnd (← peek))
  let _ ← lineBreak?

/-- Whether one of some characters is next three times, and a blank behind them. -/
def seesMark (marks : List Char) : Lex Bool := do
  await 2
  let rest := (← get).rest
  if marks.any fun mark => [mark, mark, mark].isPrefixOf rest then return atBlank (← peekAt 3)
  else return false

/-- Whether a line that separates documents is next, given that a line begins here. -/
def seesSeparator : Lex Bool := seesMark ['-', '.']

end Lex

end GuidedTour.Yaml
