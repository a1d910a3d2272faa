import GuidedTour.Decimal.Layout
import GuidedTour.Text.CodePoint

/-!
# Result values

The values that a program of the language can have, and how they are displayed: strings without quotes,
tuples in parentheses with blanks between the items, closures by a word. Floats are displayed without an
exponent and without a fraction of zeros.
-/

set_option autoImplicit false

namespace GuidedTour.Outcome

/-- The value of a program. An integer keeps the digits that it was printed with. -/
inductive Value where
  | integer (digits : Text)
  | float (number : Double)
  | boolean (truth : Bool)
  | string (text : CodeText)
  | tuple (items : List Value)
  | closure
  | runtimeInvocation
deriving Repr, Inhabited

/-- Floats are written positionally, whatever their size, and a whole number has no point. -/
def floatLayout : Layout := ⟨none, false, ['N', 'a', 'N']⟩

/-- A float as it is displayed. -/
def displayFloat (number : Double) : Text := floatLayout.write number

/-- The words for the two truths. -/
def truthWord (truth : Bool) : Text := if truth then "true".toList else "false".toList

mutual

/-- A value as it is displayed. -/
def Value.display : Value → CodeText
  | .integer digits => Text.coded digits
  | .float number => Text.coded (displayFloat number)
  | .boolean truth => Text.coded (truthWord truth)
  | .string text => text
  | .tuple items => .ofChar '(' :: List.intercalate [.ofChar ' '] (Value.displayAll items) ++ [.ofChar ')']
  | .closure => Text.coded "<closure>".toList
  | .runtimeInvocation => Text.coded "<runtime invocation>".toList

/-- Some values, each as it is displayed. -/
def Value.displayAll : List Value → List CodeText
  | [] => []
  | value :: more => value.display :: Value.displayAll more

end

end GuidedTour.Outcome

namespace GuidedTour

/-- How a run of a program ended, as the interpreter prints it: with a value, or with its report of an
error. -/
inductive Outcome where
  | value (value : Outcome.Value)
  | error (report : CodeText)
deriving Repr, Inhabited

end GuidedTour
