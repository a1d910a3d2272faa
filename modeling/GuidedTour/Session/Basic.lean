import GuidedTour.Interpreter.Basic
import GuidedTour.Session.Section
import GuidedTour.Session.State

/-!
# Sessions

A session is a section with the state of its exercise. Running it makes one call of the interpreter with
the current program text and records how the call ended. Several sessions may share one interpreter; the
calls of all of them are then numbered together (`Sessions`).
-/

set_option autoImplicit false

namespace GuidedTour

/-- A section that is being worked on. -/
structure Session where
  lesson : Section
  state : State
deriving DecidableEq, Repr, Inhabited

/-- What a run of a session did: the session after it, its call, the programs that were started, and the
report. A fault is handed on and leaves the session as it was. -/
structure Ran where
  session : Session
  call : Call
  starts : List Start
  logs : List LogLine
  fault : Option Fault
deriving Inhabited

namespace Session

/-- The session of a section before any work. -/
def ofSection (lesson : Section) : Session := ⟨lesson, .initial lesson.startingCode⟩

/-- The session after an edit. -/
def edit (session : Session) (source : Text) : Session :=
  { session with state := session.state.edit source }

/-- The call that a run makes. -/
def call (session : Session) : Call := ⟨session.state.source, [], true⟩

/-- The report that a session was run. -/
def ranLog (session : Session) : LogLine :=
  ⟨.info, .verification, "Ran ".toList ++ Text.quoted session.lesson.title ++ [':', ' ']
    ++ session.state.status.name.toList⟩

/-- The report that a run failed. A surrogate in the message is reported by its number. -/
def failedLog (session : Session) (message : CodeText) : LogLine :=
  ⟨.warning, .verification, "Run of ".toList ++ Text.quoted session.lesson.title
    ++ " failed: ".toList ++ CodeText.written message⟩

/-- The session after a run that printed an output. -/
def complete (session : Session) (output : CodeText) : Session :=
  { session with state := session.state.complete session.lesson.expected output }

/-- The session after a run that failed. -/
def fail (session : Session) (message : CodeText) : Session :=
  { session with state := session.state.fail message }

/-- Runs a session with an interpreter that has been called `count` times before. -/
def run (session : Session) (interpreter : Interpreter) (count : Nat) : Ran :=
  let evaluation := interpreter count session.call
  match evaluation.result with
  | .ok output =>
    let after := session.complete output
    ⟨after, session.call, evaluation.starts, evaluation.logs ++ [after.ranLog], none⟩
  | .error (.refused error) =>
    let after := session.fail error.message
    ⟨after, session.call, evaluation.starts,
      evaluation.logs ++ [session.failedLog error.message, after.ranLog], none⟩
  | .error (.fault fault) =>
    ⟨session, session.call, evaluation.starts, evaluation.logs, some fault⟩

end Session

/-! ## Sessions that share an interpreter -/

/-- A step of the work on several sessions. -/
inductive Sessions.Step where
  | edit (index : Nat) (source : Text)
  | run (index : Nat)
deriving Repr, Inhabited

/-- Sessions that share an interpreter, and the calls they have made so far, the first one first. -/
structure Sessions where
  sessions : List Session
  calls : List Call
deriving Repr, Inhabited

namespace Sessions

/-- The sessions of some sections before any work. -/
def ofSections (sections : List Section) : Sessions := ⟨sections.map .ofSection, []⟩

/-- The sessions after a step, and what was reported. A step on a session that is not there does
nothing. -/
def step (work : Sessions) (interpreter : Interpreter) : Step → Sessions × List LogLine
  | .edit index source => ({ work with sessions := work.sessions.modify index (·.edit source) }, [])
  | .run index =>
    match work.sessions[index]? with
    | none => (work, [])
    | some session =>
      let ran := session.run interpreter work.calls.length
      (⟨work.sessions.set index ran.session, work.calls ++ [ran.call]⟩, ran.logs)

end Sessions

end GuidedTour
