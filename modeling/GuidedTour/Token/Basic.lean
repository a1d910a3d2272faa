import GuidedTour.Token.Class
import GuidedTour.Text.Quoted

/-!
# Tokens

A token is a classed stretch of a program text: where it starts and stops, what it says, and the line
and column of its start. Positions are followed character by character by `Position.after`.
-/

set_option autoImplicit false

namespace GuidedTour

/-- A place in a text: how many characters come before it, and its line and column, both from one. -/
structure Position where
  offset : Nat
  line : Nat
  column : Nat
deriving DecidableEq, Repr, Inhabited

namespace Position

/-- The beginning of a text. -/
def start : Position := ⟨0, 1, 1⟩

/-- The place behind one more character. Only a line feed begins a new line. -/
def step (p : Position) (c : Char) : Position :=
  if c = '\n' then ⟨p.offset + 1, p.line + 1, 1⟩ else ⟨p.offset + 1, p.line, p.column + 1⟩

/-- The place behind a further stretch of text. -/
def after (p : Position) (text : Text) : Position := text.foldl step p

end Position

/-- A classed stretch of a program text. -/
structure Token where
  cls : TokenClass
  value : Text
  start : Nat
  stop : Nat
  line : Nat
  column : Nat
deriving DecidableEq, Repr, Inhabited

namespace Token

/-- The token of a class that says `value` and starts at a place. -/
def located (p : Position) (cls : TokenClass) (value : Text) : Token :=
  ⟨cls, value, p.offset, p.offset + value.length, p.line, p.column⟩

/-- What a token is compared by: line and column follow from the text and do not count. -/
def key (token : Token) : TokenClass × Text × Nat × Nat :=
  (token.cls, token.value, token.start, token.stop)

/-- Whether two tokens are the same stretch with the same class. -/
def same (a b : Token) : Bool := a.key == b.key

/-- A token as it is shown on one line. -/
def shown (token : Token) : Text :=
  "Token(".toList ++ token.cls.name.toList ++ [',', ' '] ++ Text.quoted token.value ++ [',', ' ']
    ++ Text.ofNat token.start ++ [':'] ++ Text.ofNat token.stop
    ++ ", line=".toList ++ Text.ofNat token.line
    ++ ", col=".toList ++ Text.ofNat token.column ++ [')']

end Token

end GuidedTour
