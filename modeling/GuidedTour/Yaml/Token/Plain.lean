import GuidedTour.Yaml.Cursor
import GuidedTour.Yaml.Token.Basic

/-!
# Plain scalars

A plain scalar has no quotes and ends at whatever could be an indicator. It may go on over several lines,
which are folded, as long as they are indented more than the collection around it; it ends at a line that
separates documents and at a comment. Tabs have no place in it behind its first line.
-/

set_option autoImplicit false

namespace GuidedTour.Yaml

/-- The characters that are indicators inside a flow collection. -/
def isFlowIndicator (c : Char) : Bool :=
  c == ',' || c == '?' || c == '[' || c == ']' || c == '{' || c == '}'

/-- Whether a plain scalar ends in front of a character, given the one behind it. -/
def endsPlain (inFlow : Bool) (c : Char) (behind : Option Char) : Bool :=
  c == ' ' || c == '\t' || isBreak c
    || (c == ':' && (atBlank behind
      || (inFlow && behind.any fun b => b == ',' || b == '[' || b == ']' || b == '{' || b == '}')))
    || (inFlow && isFlowIndicator c)

/-- The part of a plain scalar without blanks at the start of a text. -/
def plainWord (inFlow : Bool) : Text → Text
  | [] => []
  | c :: rest => if endsPlain inFlow c rest.head? then [] else c :: plainWord inFlow rest

namespace Lex

/-- The part of a plain scalar without blanks that is next. It is not passed before the character behind it
is seen, and behind a colon one more. -/
def plainPart (inFlow : Bool) : Lex Text := do
  let word := plainWord inFlow (← get).rest
  if (← peekAt word.length) == some ':' then await (word.length + 1)
  skip word.length
  return word

/-- The breaks behind a first line break, with the spaces around them dropped. With nothing, a line that
separates documents follows. -/
def plainBreaks : Nat → Lex (Option Text)
  | 0 => return some []
  | fuel + 1 => do
    if ← seesSeparator then return none
    else
      skipSpaces
      match ← lineBreak? with
      | none => return some []
      | some ch => return (← plainBreaks fuel).map (ch :: ·)

/-- What lies between two parts of a plain scalar, folded, and whether a line was broken. Where there is
nothing the scalar ends. -/
def plainBetween : Lex (Text × Bool) := do
  let spaces ← takeWhile (· == ' ')
  match ← lineBreak? with
  | none => return (spaces, false)
  | some ch => return (((← plainBreaks (← fuel)).map (foldedBreaks ch)).getD [], true)

/-- The parts of a plain scalar from here on, with the text that lies before them, and whether a line was
broken behind the last part. -/
def plainParts (inFlow : Bool) (indent : Int) : Nat → Text → Lex (Text × Bool)
  | 0, _ => return ([], false)
  | fuel + 1, before => do
    let word ← if ← sees '#' then pure [] else plainPart inFlow
    if word.isEmpty then return ([], false)
    else
      let (between, broken) ← plainBetween
      let isOutside := !inFlow && ((← column) : Int) < indent
      if between.isEmpty || (← sees '#') || isOutside then return (before ++ word, broken)
      else
        let (text, brokenBehind) ← plainParts inFlow indent fuel between
        return (before ++ word ++ text, if text.isEmpty then broken else brokenBehind)

/-- A plain scalar inside a collection at the given column, and whether a line was broken behind it. -/
def plain (inFlow : Bool) (parent : Int) : Lex (Token × Bool) := do
  let (text, broken) ← plainParts inFlow (parent + 1) (← fuel) []
  return (.scalar text true, broken)

end Lex

end GuidedTour.Yaml
