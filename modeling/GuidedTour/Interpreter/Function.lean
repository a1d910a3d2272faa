import GuidedTour.Interpreter.Basic

/-!
# Interpreters made of a function

A function that takes a call and hands over any value makes an interpreter: the value is taken by its text, and
whatever else the function does counts as a refusal, so that no fault comes out (`ofFunction_no_fault`). A value
that has no text is not handed over here.
-/

set_option autoImplicit false

namespace GuidedTour

/-- What a function does with a call. -/
inductive Reaction where
  /-- It hands over a value with this text. -/
  | returns (shown : CodeText)
  /-- It refuses as an interpreter does. -/
  | refuses (error : InterpreterError)
  /-- It fails in its own way, with these words. -/
  | raises (words : CodeText)
deriving Repr, Inhabited

/-- The interpreter made of a function. -/
def Interpreter.ofFunction (react : Nat → Call → Reaction) : Interpreter := fun count call =>
  match react count call with
  | .returns shown => ⟨.ok shown, [], []⟩
  | .refuses error => ⟨.error (.refused error), [], []⟩
  | .raises words => ⟨.error (.refused (.raised words)), [], []⟩

/-- No fault comes out of an interpreter made of a function. -/
theorem Interpreter.ofFunction_no_fault (react : Nat → Call → Reaction) (count : Nat) (call : Call)
    (fault : Fault) : (Interpreter.ofFunction react count call).result ≠ .error (.fault fault) := by
  unfold Interpreter.ofFunction
  split <;> simp

end GuidedTour
