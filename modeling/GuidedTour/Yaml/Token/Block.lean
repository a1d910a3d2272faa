import GuidedTour.Yaml.Cursor
import GuidedTour.Yaml.Token.Basic

/-!
# Block scalars

A literal block keeps its line breaks and a folded one turns single breaks between lines of text into
spaces. The header says what happens to the breaks at the end and may give the indentation; otherwise the
first line with text gives it.
-/

set_option autoImplicit false

namespace GuidedTour.Yaml

/-- What happens to the line breaks at the end of a block. -/
inductive Chomping where
  /-- One is kept. -/
  | clip
  /-- None is kept. -/
  | strip
  /-- All are kept. -/
  | keep
deriving DecidableEq, Repr, Inhabited

namespace Lex

/-- The chomping that an indicator asks for. -/
def chomping? : Lex (Option Chomping) := do
  match ← peek with
  | some '+' =>
    next
    return some .keep
  | some '-' =>
    next
    return some .strip
  | _ => return none

/-- The indentation that a header gives, if it does. It must not be zero. -/
def increment? : Lex (Option Nat) := do
  match ← peek with
  | some ch =>
    if ch.isDigit then
      demand (ch != '0')
      next
      return some (ch.toNat - '0'.toNat)
    else return none
  | none => return none

/-- The header of a block behind its indicator, up to behind the line: chomping and indentation in either
order, and a comment behind a space. -/
def blockHeader : Lex (Chomping × Option Nat) := do
  let first ← chomping?
  let increment ← increment?
  let second ← if first.isNone && increment.isSome then chomping? else pure none
  demand (atSpace (← peek))
  finishLine
  return ((first <|> second).getD .clip, increment)

/-- The breaks before the first line of text, and the deepest column that spaces reach in them. -/
def blockIndentation : Nat → Nat → Lex (Text × Nat)
  | 0, deepest => return ([], deepest)
  | fuel + 1, deepest => do
    skipSpaces
    let deepest := max deepest (← column)
    match ← lineBreak? with
    | none => return ([], deepest)
    | some ch =>
      let (breaks, deepest) ← blockIndentation fuel deepest
      return (ch :: breaks, deepest)

/-- Passes the spaces that are next, as far as the indentation goes. -/
def skipIndent (indent : Nat) : Lex Unit := do
  let c ← get
  skip ((c.rest.takeWhile (· == ' ')).length.min (indent - c.column))

/-- The breaks of the empty lines that follow. -/
def blockBreaks (indent : Nat) : Nat → Lex Text
  | 0 => return []
  | fuel + 1 => do
    skipIndent indent
    match ← lineBreak? with
    | none => return []
    | some ch => return ch :: (← blockBreaks indent fuel)

/-- Whether a line of a block begins here, that is, whether there is text at its indentation. -/
def seesBlockLine (indent : Nat) : Lex Bool := do
  let c ← get
  return c.column == indent && !c.rest.isEmpty

/-- Whether a line of text begins here, and not one that starts with a blank. -/
def seesText : Lex Bool := do
  let c ← peek
  return !(c == some ' ' || c == some '\t')

/-- The lines of a block, from the breaks before them on. The last break and the breaks behind it come
apart from the text, since the chomping decides about them. -/
def blockLines (folded : Bool) (indent : Nat) : Nat → Text → Lex (Text × Text × Text)
  | 0, breaks => return ([], [], breaks)
  | fuel + 1, breaks => do
    if ← seesBlockLine indent then
      let isText ← seesText
      let line ← takeWhile (!isBreak ·)
      let lineBreak := (← lineBreak?).toList
      let after ← blockBreaks indent (← Lex.fuel)
      let isTextBehind ← seesText
      if ← seesBlockLine indent then
        let joint : Text :=
          if folded && lineBreak == ['\n'] && isText && isTextBehind then
            if after.isEmpty then [' '] else []
          else lineBreak
        let (text, last, more) ← blockLines folded indent fuel after
        return (breaks ++ line ++ joint ++ text, last, more)
      else return (breaks ++ line, lineBreak, after)
    else return ([], [], breaks)

/-- A block scalar from its indicator on, inside a collection at the given column. -/
def block (folded : Bool) (parent : Int) : Lex Token := do
  next
  let (chomping, increment) ← blockHeader
  let least := (parent + 1).toNat.max 1
  let (breaks, indent) ←
    match increment with
    | some n =>
      let indent := least + n - 1
      pure (← blockBreaks indent (← fuel), indent)
    | none =>
      let (breaks, deepest) ← blockIndentation (← fuel) 0
      pure (breaks, least.max deepest)
  let (text, last, more) ← blockLines folded indent (← fuel) breaks
  let tail :=
    match chomping with
    | .strip => []
    | .clip => last
    | .keep => last ++ more
  return .scalar (text ++ tail) false

end Lex

end GuidedTour.Yaml
