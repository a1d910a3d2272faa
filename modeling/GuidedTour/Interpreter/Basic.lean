import GuidedTour.Log
import GuidedTour.Outcome.Reading

/-!
# Interpreters

An interpreter evaluates a program text and gives the text of its result, or the reason why there is
none. The tour talks to it in calls that are numbered over the whole tour; what an interpreter is made
of, a function or a program, is told in the modules beside this one.
-/

set_option autoImplicit false

namespace GuidedTour

/-- Why there is no result, in the cases that the tour reports to its reader. -/
inductive InterpreterError where
  /-- The output is no printed result. -/
  | unreadable (reason : Outcome.Reason) (position : Nat) (output : Text)
  /-- The program text has an error, and the interpreter says which. -/
  | reported (report : CodeText)
  /-- The function behind the interpreter failed. -/
  | raised (report : CodeText)
  /-- There is no such program. -/
  | notFound (executable : Text)
  /-- The program cannot be started, and the system says why. -/
  | notStarted (words : Text)
  /-- The program ended with a status other than zero and said why. -/
  | stopped (diagnostics : Text)
  /-- The program ended with a status other than zero and said nothing. -/
  | stoppedSilently (status : Int)
deriving DecidableEq, Repr, Inhabited

/-- The words for the reason. -/
def InterpreterError.message : InterpreterError → CodeText
  | unreadable reason position output =>
    Text.coded ("Unreadable interpreter output (".toList ++ reason.words ++ " at ".toList
      ++ Text.ofNat position ++ "): ".toList ++ output)
  | reported report => report
  | raised report => report
  | notFound executable => Text.coded ("BlockPipe interpreter not found: ".toList ++ executable)
  | notStarted words => Text.coded ("Cannot start interpreter: ".toList ++ words)
  | stopped diagnostics => Text.coded diagnostics
  | stoppedSilently status => Text.coded ("exit status ".toList ++ Text.ofInt status)

/-- What no interpreter is prepared for. -/
inductive Fault where
  /-- The output names a code point past the last one. -/
  | noSuchCharacter (code : Nat)
  /-- An argument for a program holds the character NUL. -/
  | nulArgument
deriving DecidableEq, Repr, Inhabited

/-- How an evaluation ends without a result. -/
inductive Failure where
  | refused (error : InterpreterError)
  | fault (fault : Fault)
deriving DecidableEq, Repr, Inhabited

/-- One call of an interpreter. With `verbose` the program is executed with the arguments; without, it is
only evaluated. -/
structure Call where
  source : Text
  arguments : List Text
  verbose : Bool
deriving DecidableEq, Repr, Inhabited

/-- What the system is asked to start: a command, and what the file holds that the command names. -/
structure Start where
  command : List Text
  file : Text
deriving DecidableEq, Repr, Inhabited

/-- What came of a call: the result, what the system was asked to start, and the report. -/
structure Evaluation where
  result : Except Failure CodeText
  starts : List Start
  logs : List LogLine

/-- An interpreter: what comes of a call, given how many calls came before it. -/
abbrev Interpreter := Nat → Call → Evaluation

/-- The displayed value in what an interpreter has printed. A reported error is a refusal. -/
def Interpreter.resultOf (output : Text) : Except Failure CodeText :=
  match Outcome.read output with
  | .ok (.value value) => .ok value.display
  | .ok (.error report) => .error (.refused (.reported report))
  | .error (.unreadable reason position) =>
    .error (.refused (.unreadable reason position (Text.strip output)))
  | .error (.noSuchCharacter code) => .error (.fault (.noSuchCharacter code))

end GuidedTour
