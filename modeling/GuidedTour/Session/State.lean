import GuidedTour.Data.Value
import GuidedTour.Text.CodePoint

/-!
# The state of an exercise

The state holds the program text, what its last run printed, and how that compares with the expected
output. Editing changes the text alone; a run changes the output and the status alone. An error never
counts as the expected output, even if its text is the same.
-/

set_option autoImplicit false

namespace GuidedTour

/-- How the last run compares with the expected output. -/
inductive Status where
  /-- There was no run yet. -/
  | idle
  /-- The last run printed exactly the expected output. -/
  | success
  /-- The last run printed anything else, or failed. -/
  | mismatch
deriving DecidableEq, Repr, Inhabited

/-- The word for a status. -/
def Status.name : Status → String
  | idle => "idle"
  | success => "success"
  | mismatch => "mismatch"

/-- Compares an output with the expected one, code point by code point. -/
def Status.ofOutput (output expected : CodeText) : Status :=
  if output = expected then .success else .mismatch

/-- The state of an exercise. There is no output before the first run. -/
structure State where
  source : Text
  output : Option CodeText
  status : Status
deriving DecidableEq, Repr, Inhabited

/-- What can happen to an exercise. Whatever else is handed in is kept as the value it is. -/
inductive Action where
  | edit (source : Text)
  | completed (output : CodeText)
  | failed (message : CodeText)
  | other (value : Data.Value)
deriving Repr, Inhabited

/-- The refusal of a value that is no action. -/
structure UnknownAction where
  value : Data.Value
deriving Repr

/-- The words for the refusal, if the value can be written out. -/
def UnknownAction.message? (e : UnknownAction) : Option Text :=
  if e.value.isWritable then some ("Unknown action: ".toList ++ e.value.literal) else none

namespace State

/-- The state before the first run. -/
def initial (source : Text) : State := ⟨source, none, .idle⟩

/-- What stands in front of the message of a failed run. -/
def errorMark : Text := "Error: ".toList

/-- The state after an edit. -/
def edit (state : State) (source : Text) : State := { state with source }

/-- The state after a run that printed an output. -/
def complete (state : State) (expected output : CodeText) : State :=
  { state with output := some output, status := .ofOutput output expected }

/-- The state after a run that failed. -/
def fail (state : State) (message : CodeText) : State :=
  { state with output := some (Text.coded errorMark ++ message), status := .mismatch }

/-- The state after an action, given the expected output. -/
def apply (state : State) (expected : CodeText) : Action → Except UnknownAction State
  | .edit source => .ok (state.edit source)
  | .completed output => .ok (state.complete expected output)
  | .failed message => .ok (state.fail message)
  | .other value => .error ⟨value⟩

/-- The text of the output pane. -/
def outputText (state : State) : CodeText := state.output.getD []

end State

end GuidedTour
