import GuidedTour.Token.Basic

/-!
# Spans of tokens in an editor

An editor addresses text by line and column, `line.column`, with columns from zero. Some editors count a
character beyond U+FFFF as two columns; these are called wide here. The span of a token is told from its
line and column and from the lines of the text.
-/

set_option autoImplicit false

namespace GuidedTour.Token

/-- The number of editor columns that a text takes. -/
def columns (wide : Bool) (text : Text) : Nat :=
  if wide then text.length + text.countP (fun c => decide (0xffff < c.toNat)) else text.length

/-- An address in an editor. -/
def address (line column : Nat) : Text := Text.ofNat line ++ '.' :: Text.ofNat column

/-- The addresses of the start and the end of a token, given the lines of its text. -/
def span (wide : Bool) (lines : List Text) (token : Token) : Text × Text :=
  let start := columns wide ((lines.getD (token.line - 1) []).take (token.column - 1))
  let parts := Text.lines token.value
  let stop :=
    if parts.length = 1 then address token.line (start + columns wide token.value)
    else address (token.line + parts.length - 1) (columns wide (Text.lastLine token.value))
  (address token.line start, stop)

/-- A class with the addresses between which it holds. -/
structure Tag where
  cls : TokenClass
  start : Text
  stop : Text
deriving DecidableEq, Repr, Inhabited

/-- The tags of some tokens of a text, in order. -/
def tags (wide : Bool) (source : Text) (tokens : List Token) : List Tag :=
  let lines := Text.lines source
  tokens.map fun token =>
    let (start, stop) := token.span wide lines
    ⟨token.cls, start, stop⟩

end GuidedTour.Token
