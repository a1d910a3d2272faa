import GuidedTour.Text.Digit
import GuidedTour.Yaml.Cursor
import GuidedTour.Yaml.Token.Basic

/-!
# Directives, anchors and tags

The tokens that say something about a document or a node instead of being part of its value.
-/

set_option autoImplicit false

namespace GuidedTour.Yaml.Lex

/-- A name of at least one character. -/
def name : Lex Text := do
  let name ← takeWhile inName
  demand !name.isEmpty
  return name

/-! ## Tag addresses -/

/-- Bytes that are written in hexadecimal behind percent signs. -/
def percentBytes : Nat → Lex Text.Bytes
  | 0 => return []
  | fuel + 1 => do
    if ← sees '%' then
      next
      let high ← hexDigit 0
      let low ← hexDigit 1
      skip 2
      let more ← percentBytes fuel
      return ((Text.natIn? 16 [high, low]).getD 0).toUInt8 :: more
    else return []

/-- The pieces of an address, those written as bytes being read as UTF-8. -/
def addressPieces : Nat → Lex Text
  | 0 => return []
  | fuel + 1 => do
    if ← sees '%' then
      match Text.decode? (← percentBytes (fuel + 1)) with
      | none => invalid
      | some piece => return piece ++ (← addressPieces fuel)
    else
      let piece ← takeWhile fun c => inAddress c && c != '%'
      if piece.isEmpty then return [] else return piece ++ (← addressPieces fuel)

/-- The address of a tag, of at least one character. -/
def address : Lex Text := do
  demand ((← peek).any inAddress)
  addressPieces (← fuel)

/-- The handle of a tag: one exclamation mark, or a name between two. -/
def handle : Lex Text := do
  demand (← sees '!')
  if (← peekAt 1) == some ' ' then
    next
    return ['!']
  else
    next
    let name ← takeWhile inName
    demand (← sees '!')
    next
    return '!' :: name ++ ['!']

/-! ## The tokens -/

/-- A number of a version. Its digits must not be too many. -/
def versionNumber : Lex Nat := do
  let digits ← takeWhile Char.isDigit
  demand !digits.isEmpty
  if Text.digitLimit < digits.length then throw (.fault .illFormed)
  else return Text.natOfDigits digits

/-- A directive, from its percent sign to behind the line. -/
def directive : Lex Token := do
  next
  let name ← name
  demand (atSpace (← peek))
  let directive ←
    if name = "YAML".toList then
      skipSpaces
      let major ← versionNumber
      demand (← sees '.')
      next
      let _ ← versionNumber
      demand (atSpace (← peek))
      pure (Directive.version major)
    else if name = "TAG".toList then
      skipSpaces
      let handle ← handle
      demand (← sees ' ')
      skipSpaces
      let address ← address
      demand (atSpace (← peek))
      pure (Directive.tagHandle handle address)
    else
      skipLine
      pure Directive.other
  finishLine
  return .directive directive

/-- The name of an anchor or an alias, from its indicator. -/
def anchorName : Lex Text := do
  next
  let name ← name
  let behind ← peek
  demand (atBlank behind || behind.any ("?:,]\x7d%@`".toList.contains ·))
  return name

/-- Whether a tag has a handle: a second exclamation mark before the next space. -/
def hasHandle : Lex Bool := do
  let behind := (← get).rest.drop 1
  let before := behind.takeWhile fun c => !atSpace (some c) && c != '!'
  return (← peekAt (before.length + 1)) == some '!'

/-- A tag, from its exclamation mark. -/
def tag : Lex Token := do
  let behind ← peekAt 1
  let token ←
    if behind == some '<' then
      skip 2
      let suffix ← address
      demand (← sees '>')
      next
      pure (Token.tag none suffix)
    else if atBlank behind then
      next
      pure (Token.tag none ['!'])
    else
      let handle ←
        if ← hasHandle then handle
        else
          next
          pure ['!']
      let suffix ← address
      pure (Token.tag (some handle) suffix)
  demand (atSpace (← peek))
  return token

end GuidedTour.Yaml.Lex
