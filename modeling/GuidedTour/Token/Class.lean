import GuidedTour.Text.Basic

/-!
# Token classes

The classes that program text is coloured by. Each has a label, under which an editor knows it, and a
name, under which messages mention it.
-/

set_option autoImplicit false

namespace GuidedTour

/-- What a stretch of program text is. `unclassified` is for what no rule matches, blanks included. -/
inductive TokenClass where
  | leftParen | rightParen | leftBrace | rightBrace
  | pipe | pipeStar | colon | identifier
  | stringLiteral | booleanLiteral | integerLiteral | floatLiteral
  | keyword | unclassified
deriving DecidableEq, Repr, Inhabited

namespace TokenClass

/-- Every class, ascending by label. -/
def byLabel : List TokenClass :=
  [booleanLiteral, colon, floatLiteral, identifier, integerLiteral, keyword, leftBrace, leftParen,
   pipe, pipeStar, rightBrace, rightParen, stringLiteral, unclassified]

/-- The label of a class in an editor. -/
def label : TokenClass → String
  | leftParen => "leftParen"
  | rightParen => "rightParen"
  | leftBrace => "leftBrace"
  | rightBrace => "rightBrace"
  | pipe => "pipe"
  | pipeStar => "pipeStar"
  | colon => "colon"
  | identifier => "identifier"
  | stringLiteral => "stringLiteral"
  | booleanLiteral => "booleanLiteral"
  | integerLiteral => "integerLiteral"
  | floatLiteral => "floatLiteral"
  | keyword => "keyword"
  | unclassified => "unclassified"

/-- The name of a class in messages. -/
def name : TokenClass → String
  | leftParen => "LEFT_PAREN"
  | rightParen => "RIGHT_PAREN"
  | leftBrace => "LEFT_BRACE"
  | rightBrace => "RIGHT_BRACE"
  | pipe => "PIPE"
  | pipeStar => "PIPE_STAR"
  | colon => "COLON"
  | identifier => "IDENTIFIER"
  | stringLiteral => "STRING_LITERAL"
  | booleanLiteral => "BOOLEAN_LITERAL"
  | integerLiteral => "INTEGER_LITERAL"
  | floatLiteral => "FLOAT_LITERAL"
  | keyword => "KEYWORD"
  | unclassified => "UNCLASSIFIED"

/-- The class of a label. -/
def ofLabel? (label : String) : Option TokenClass := byLabel.find? (·.label == label)

/-- No class is missing from the list. -/
theorem mem_byLabel (c : TokenClass) : c ∈ byLabel := by cases c <;> decide

/-- A class is found again under its label. -/
theorem ofLabel?_label (c : TokenClass) : ofLabel? c.label = some c := by cases c <;> decide

/-- The names of some classes in ascending order, as a message lists them. The labels and the names of
the classes are in the same order. -/
def listed (classes : List TokenClass) : List TokenClass := byLabel.filter (· ∈ classes)

/-- The names of some classes, separated by commas. -/
def names (classes : List TokenClass) : Text :=
  Text.join [',', ' '] ((listed classes).map (·.name.toList))

end TokenClass

end GuidedTour
