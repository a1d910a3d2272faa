import GuidedTour.Editor.Basic
import GuidedTour.Session.Basic
import GuidedTour.Tour.Look

/-!
# Section views

A section is shown with an editor, a run button and an output pane. What the user changes in the editor goes
to the session at once. Pressing the button hands the text of the editor to the session, runs it, and shows
the status and the output.
-/

set_option autoImplicit false

namespace GuidedTour.Tour

/-- A section on the screen: its session and editor, and what the button and the output pane show. -/
structure View (α : Type) where
  session : Session
  editor : Editor.CodeEditor α
  button : Look
  output : CodeText
deriving Inhabited

/-- What a user does with a section. -/
inductive Step where
  | run
  | edit (step : Editor.Step)
deriving DecidableEq, Repr, Inhabited

/-- A view after a step, with the call that was made if one was, the programs that were started, the report,
and the fault that broke the step off. -/
structure Stepped (α : Type) where
  view : View α
  call : Option Call
  starts : List Start
  logs : List LogLine
  fault : Option Fault
deriving Inhabited

namespace View

variable {α κ : Type} [Matching α κ]

/-- Shows the status and the output of the session. -/
def render (view : View α) : View α :=
  { view with button := view.session.state.status.look, output := view.session.state.outputText }

/-- The view of a session before any step: the editor holds its text, in colours. -/
def ofSession (language : Language α) (session : Session) : View α :=
  let editor := (Editor.CodeEditor.ofLanguage language).setSource session.state.source
  render ⟨session, editor, Status.idle.look, []⟩

/-- Presses the run button. A fault leaves the button and the output pane as they were. -/
def run (view : View α) (interpreter : Interpreter) (count : Nat) : Stepped α :=
  let ran := (view.session.edit view.editor.source).run interpreter count
  let after := { view with session := ran.session }
  ⟨if ran.fault.isSome then after else after.render, some ran.call, ran.starts, ran.logs, ran.fault⟩

/-- Works in the editor. -/
def edit (view : View α) (step : Editor.Step) : View α :=
  let (editor, effect) := view.editor.step step
  { view with
    editor
    session := if effect.changed then view.session.edit editor.source else view.session }

/-- The view after a step, with an interpreter that has been called `count` times before. -/
def step (view : View α) (interpreter : Interpreter) (count : Nat) : Step → Stepped α
  | .run => view.run interpreter count
  | .edit step => ⟨view.edit step, none, [], [], none⟩

end View

end GuidedTour.Tour
