import GuidedTour.Yaml.Token.Block
import GuidedTour.Yaml.Token.Plain
import GuidedTour.Yaml.Token.Property
import GuidedTour.Yaml.Token.Quoted

/-!
# The tokens of a YAML text

Block structure is told by indentation: a token that begins further right than the collection around it
opens a new one, and one further left closes. That something is the key of a mapping shows only at the
colon behind it, so each place where a simple key may begin is remembered, and the tokens of the key are
put in front of it when the colon comes. A simple key fits on one line and in 1024 characters.

Tokens are fetched on demand: no more of them than it takes to settle that nothing comes in front of the
next one. `settle` fetches so far, and `Scanner.taken` takes the next one.
-/

set_option autoImplicit false

namespace GuidedTour.Yaml

/-- A place where a simple key may have begun, with the number of the token that begins there. A key is
required where only a key can stand. -/
structure SimpleKey where
  number : Nat
  required : Bool
  index : Nat
  line : Nat
  column : Nat
deriving Repr, Inhabited

/-- The state of fetching tokens: those that wait to be taken, and how many have been taken. Flow
collections are counted by depth; of block collections the columns are kept, the outermost being `-1`.
Simple keys are remembered one for each flow depth. -/
structure Scanner where
  cursor : Cursor
  tokens : List Token
  takenCount : Nat
  ended : Bool
  flowDepth : Nat
  indent : Int
  indents : List Int
  keyAllowed : Bool
  keys : List (Nat × SimpleKey)
deriving Inhabited

namespace Scanner

/-- The state at the beginning of a text. -/
def start (incoming : Incoming) : Scanner :=
  ⟨.start incoming, [], 0, false, 0, -1, [], true, []⟩

/-- Whether the place is inside a flow collection. -/
def inFlow (s : Scanner) : Bool := 0 < s.flowDepth

/-- The state with the next token taken. -/
def taken (s : Scanner) : Scanner :=
  { s with tokens := s.tokens.drop 1, takenCount := s.takenCount + 1 }

/-- The simple key at the depth of the place. -/
def key? (s : Scanner) : Option SimpleKey := s.keys.lookup s.flowDepth

/-- The state without the simple key at the depth of the place. -/
def withoutKey (s : Scanner) : Scanner := { s with keys := s.keys.filter (·.1 != s.flowDepth) }

/-- Whether a simple key can no longer be continued. -/
def isStale (s : Scanner) (key : SimpleKey) : Bool :=
  key.line != s.cursor.line || 1024 < s.cursor.index - key.index

/-- Whether the next token may still turn out to begin a simple key. -/
def awaitsKey (s : Scanner) : Bool := s.keys.any (·.2.number == s.takenCount)

/-- Puts a token in front of the one of a number. -/
def insert (s : Scanner) (number : Nat) (token : Token) : Scanner :=
  let place := number - s.takenCount
  { s with tokens := s.tokens.take place ++ token :: s.tokens.drop place }

/-- Closes the block collections that lie further right than a column. -/
def unwound (s : Scanner) (column : Int) : Scanner :=
  if s.inFlow then s
  else
    let closed := (s.indent :: s.indents).takeWhile (column < ·)
    match (s.indent :: s.indents).drop closed.length with
    | indent :: indents =>
      { s with tokens := s.tokens ++ closed.map fun _ => Token.blockEnd, indent, indents }
    | [] => s

/-- Opens a block collection at a column, if it lies further right than the one around it. -/
def indented? (s : Scanner) (column : Nat) : Option Scanner :=
  if s.indent < column then some { s with indent := column, indents := s.indent :: s.indents }
  else none

end Scanner

/-- A step of fetching tokens. -/
abbrev Scan (α : Type) := StateT Scanner (Except Error) α

namespace Scan

/-- A step through the characters. -/
def lex {α : Type} (step : Lex α) : Scan α := fun s => do
  let (result, cursor) ← step s.cursor
  return (result, { s with cursor })

/-- Whether a condition holds and a look at the characters confirms it. They are looked at only where the
condition holds. -/
def provided (condition : Bool) (look : Lex Bool) : Scan Bool :=
  if condition then lex look else return false

/-- Adds a token. -/
def push (token : Token) : Scan Unit := modify fun s => { s with tokens := s.tokens ++ [token] }

/-- Adds a token and passes the characters that it is written with. -/
def pushMark (token : Token) (length : Nat) : Scan Unit := do
  lex (.skip length)
  push token

/-- Says whether a simple key may begin next. -/
def allowKey (allowed : Bool) : Scan Unit := modify fun s => { s with keyAllowed := allowed }

/-! ## Simple keys -/

/-- Forgets the simple keys that can no longer be continued; a required one must not be lost. -/
def dropStaleKeys : Scan Unit := do
  let s ← get
  if s.keys.any fun key => s.isStale key.2 && key.2.required then invalid
  else set { s with keys := s.keys.filter fun key => !s.isStale key.2 }

/-- Forgets the simple key at this depth; a required one must not be lost. -/
def dropKey : Scan Unit := do
  let s ← get
  if s.key?.any (·.required) then invalid else set s.withoutKey

/-- Remembers that a simple key may begin here. -/
def saveKey : Scan Unit := do
  if (← get).keyAllowed then
    dropKey
    modify fun s =>
      let required := !s.inFlow && s.indent == (s.cursor.column : Int)
      let key : SimpleKey :=
        ⟨s.takenCount + s.tokens.length, required, s.cursor.index, s.cursor.line, s.cursor.column⟩
      { s with keys := (s.flowDepth, key) :: s.keys }

/-! ## Blanks and comments -/

/-- Passes spaces, comments and line breaks, and tells whether there was a break. -/
def blanks : Nat → Bool → Lex Bool
  | 0, broken => return broken
  | fuel + 1, broken => do
    Lex.skipSpaces
    Lex.skipComment
    match ← Lex.lineBreak? with
    | some _ => blanks fuel true
    | none => return broken

/-- Goes to the next token. In block context a simple key may begin on a new line. Even at the beginning the
first character is needed. -/
def toNext : Scan Unit := do
  lex (.await 0)
  if ← provided ((← get).cursor.index == 0) (.sees byteOrderMark) then lex .next
  let broken ← lex (do blanks (← Lex.fuel) false)
  modify fun s => { s with keyAllowed := s.keyAllowed || (broken && !s.inFlow) }

/-! ## Tokens -/

/-- Closes all block collections and forgets the simple key, in front of something that is about documents. -/
def closeAll : Scan Unit := do
  modify (·.unwound (-1))
  dropKey
  allowKey false

/-- A line that begins or ends a document. -/
def documentMark (token : Token) : Scan Unit := do
  closeAll
  pushMark token 3

/-- A directive, which closes what is open. -/
def directive : Scan Unit := do
  closeAll
  push (← lex .directive)

/-- The opening of a flow collection, which may begin a simple key. -/
def openFlow (token : Token) : Scan Unit := do
  saveKey
  modify fun s => { s with flowDepth := s.flowDepth + 1, keyAllowed := true }
  pushMark token 1

/-- The closing of a flow collection. There must be one to close. -/
def closeFlow (token : Token) : Scan Unit := do
  dropKey
  if (← get).flowDepth = 0 then invalid
  else
    modify fun s => { s with flowDepth := s.flowDepth - 1, keyAllowed := false }
    pushMark token 1

/-- The comma between the entries of a flow collection. -/
def flowEntry : Scan Unit := do
  allowKey true
  dropKey
  pushMark .flowEntry 1

/-- In block context, opens a collection with a token if the column asks for it. Only where a simple key
may begin can such a collection begin or go on. -/
def opening (token : Token) : Scan Unit := do
  let s ← get
  if s.inFlow then return
  else if !s.keyAllowed then invalid
  else
    match s.indented? s.cursor.column with
    | some s =>
      set s
      push token
    | none => return

/-- The hyphen of an entry of a block sequence. -/
def blockEntry : Scan Unit := do
  opening .blockSequenceStart
  allowKey true
  dropKey
  pushMark .blockEntry 1

/-- Says that a simple key may begin behind an indicator in block context. -/
def allowKeyInBlock : Scan Unit := do
  allowKey !(← get).inFlow
  dropKey

/-- The question mark of a key that need not be simple. -/
def complexKey : Scan Unit := do
  opening .blockMappingStart
  allowKeyInBlock
  pushMark .key 1

/-- The state with the tokens put in front of a simple key. If it is the first of a block mapping the
mapping begins there. -/
def Scanner.keyed (s : Scanner) (key : SimpleKey) : Scanner :=
  let s := s.withoutKey.insert key.number .key
  if s.inFlow then s
  else
    match s.indented? key.column with
    | some s => s.insert key.number .blockMappingStart
    | none => s

/-- The colon in front of a value. A simple key before it gets its tokens. -/
def value : Scan Unit := do
  match (← get).key? with
  | some key =>
    modify fun s => Scanner.keyed s key
    allowKey false
  | none =>
    opening .blockMappingStart
    allowKeyInBlock
  pushMark .value 1

/-- A token that may begin a simple key and behind which none begins. -/
def keyed (read : Lex Token) : Scan Unit := do
  saveKey
  allowKey false
  push (← lex read)

/-- A block scalar, behind which a simple key may begin. -/
def blockScalar (folded : Bool) : Scan Unit := do
  allowKey true
  dropKey
  let indent := (← get).indent
  push (← lex (.block folded indent))

/-- A plain scalar. -/
def plainScalar : Scan Unit := do
  saveKey
  let s ← get
  let (token, broken) ← lex (.plain s.inFlow s.indent)
  allowKey broken
  push token

/-- The characters that are indicators. -/
def isIndicator (c : Char) : Bool := "-?:,[]\x7b\x7d#&*!|>'\"%@`".toList.contains c

/-- Whether a plain scalar begins with a character. Some indicators may begin one if no blank is behind
them. -/
def beginsPlain (inFlow : Bool) (c : Char) : Lex Bool := do
  if atBlank (some c) || isIndicator c then
    let behind ← Lex.peekAt 1
    return !atBlank behind && (c == '-' || (!inFlow && (c == '?' || c == ':')))
  else return true

/-- Whether an indicator stands alone here: inside a flow collection, where that is enough, or in front of
a blank. -/
def standsAlone (inFlow : Bool) : Lex Bool := do
  if inFlow then return true else return atBlank (← Lex.peekAt 1)

/-- The token that begins with a character at the place. -/
def fetch (c : Char) : Scan Unit := do
  let s ← get
  let atStart := s.cursor.column == 0
  if c == '%' && atStart then directive
  else if ← provided (c == '-' && atStart) (.seesMark ['-']) then documentMark .documentStart
  else if ← provided (c == '.' && atStart) (.seesMark ['.']) then documentMark .documentEnd
  else if c == '[' then openFlow .flowSequenceStart
  else if c == '{' then openFlow .flowMappingStart
  else if c == ']' then closeFlow .flowSequenceEnd
  else if c == '}' then closeFlow .flowMappingEnd
  else if c == ',' then flowEntry
  else if ← provided (c == '-') (standsAlone false) then blockEntry
  else if ← provided (c == '?') (standsAlone s.inFlow) then complexKey
  else if ← provided (c == ':') (standsAlone s.inFlow) then value
  else if c == '*' then keyed (.alias <$> Lex.anchorName)
  else if c == '&' then keyed (.anchor <$> Lex.anchorName)
  else if c == '!' then keyed .tag
  else if c == '|' && !s.inFlow then blockScalar false
  else if c == '>' && !s.inFlow then blockScalar true
  else if c == '\'' then keyed (.quoted false)
  else if c == '"' then keyed (.quoted true)
  else if ← lex (beginsPlain s.inFlow c) then plainScalar
  else invalid

/-- The end of the text closes what is open in block context. -/
def finish : Scan Unit := do
  modify (·.unwound (-1))
  dropKey
  modify fun s => { s with keys := [], ended := true }

/-- Fetches the tokens that come of what follows next in the text. -/
def fetchNext : Scan Unit := do
  toNext
  dropStaleKeys
  modify fun s => s.unwound s.cursor.column
  match ← lex .peek with
  | none => finish
  | some c => fetch c

/-- Fetches tokens until the next one is settled. -/
def settleWithin : Nat → Scan Unit
  | 0 => invalid
  | fuel + 1 => do
    let s ← get
    if s.ended then return
    else if s.tokens.isEmpty then
      fetchNext
      settleWithin fuel
    else
      dropStaleKeys
      if (← get).awaitsKey then
        fetchNext
        settleWithin fuel

/-- Fetches tokens until the next one is settled, or the text has ended. Each time a character at least is
taken or the end is reached, so the fuel lasts. -/
def settle : Scan Unit := do
  let s ← get
  if s.ended || (!s.tokens.isEmpty && s.keys.isEmpty) then return
  else settleWithin ((← lex .fuel) + 1)

end Scan

end GuidedTour.Yaml
