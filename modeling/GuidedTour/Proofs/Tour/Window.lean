import GuidedTour.Proofs.Editor.Freshness
import GuidedTour.Proofs.Session.Sharing
import GuidedTour.Tour.Window

/-!
# What the screen shows

A section on the screen is kept in three places: the text in its editor, the state of its session, and what the
button and the output pane show. They agree between any two steps of a user (`View.InStep`). An edit reaches the
session because the buffer tells whether its text was changed (`Editor.Buffer.Tells`), and it leaves the output and
the status, so nothing needs to be shown anew; a run begins with the text of the editor and ends with showing what
it came to. Text that is set in an editor from outside would not reach the session, but no user does that.

`Window.in_step_after` says this of all sections of a window and of every run of steps on them, and what a further
step does: only a run makes a call, one, with the text that is in the editor.
-/

set_option autoImplicit false

namespace GuidedTour

variable {α κ : Type} [Matching α κ]

/-! ## Steps of a user -/

/-- Whether a step is one that a user takes: anything but setting the text from outside. -/
def Editor.Step.isUsers : Editor.Step → Bool
  | setSource _ => false
  | _ => true

namespace Editor.CodeEditor

/-- What a user's step makes of the buffer tells whether the text was changed. -/
theorem tells_act {e : CodeEditor α} {s : Step} (h : s.isUsers = true) :
    e.buffer.Tells (e.act s).1.buffer := by
  cases s with
  | key typed =>
    dsimp only [act]
    cases hclosed : e.closeKey? typed with
    | some closed =>
      obtain ⟨buffer, rfl, htells⟩ := tells_closeKey? hclosed
      exact htells
    | none =>
      dsimp only
      split
      · exact .refl e.buffer
      · exact e.buffer.tells_type typed
  | cursor offset => exact e.buffer.tells_moveTo offset
  | select start stop => exact e.buffer.tells_select start stop
  | backspace => exact e.buffer.tells_backspace
  | setSource source => cases h
  | expire number =>
    have hsame : (e.act (.expire number)).1.buffer = e.buffer := e.buffer_expire number
    rw [hsame]
    exact .refl e.buffer
  | tick =>
    have hsame : (e.act .tick).1.buffer = e.buffer := e.buffer_tick
    rw [hsame]
    exact .refl e.buffer

/-- Behind every step there is nothing left to tell. -/
theorem settled_step (e : CodeEditor α) (s : Step) : (e.step s).1.buffer.modified = false := by
  dsimp only [step]
  split
  · rfl
  · rename_i hsettled
    exact eq_false_of_ne_true hsettled

/-- A user's step that tells of no change has not made any. -/
theorem source_step {e : CodeEditor α} {s : Step} (h : s.isUsers = true)
    (hchanged : (e.step s).2.changed = false) : (e.step s).1.source = e.source := by
  have htells := tells_act (e := e) h
  dsimp only [step] at hchanged ⊢
  split
  · rename_i hmodified
    rw [if_pos hmodified] at hchanged
    cases hchanged
  · rename_i hsettled
    exact (htells (eq_false_of_ne_true hsettled)).2

end Editor.CodeEditor

/-- A call that came to a reaction leaves its action over the text of the state. -/
theorem State.next_action (expected : CodeText) (state : State) (reaction : Reaction) :
    state.next expected reaction.action = left expected state.source (some reaction.action) := by
  cases reaction <;> rfl

namespace Tour

/-- Whether a step is one that a user takes. -/
def Step.isUsers : Step → Bool
  | run => true
  | edit step => step.isUsers

/-- The call that a step makes, if it makes one, given the text in the editor. -/
def Step.call? (source : Text) : Step → Option Call
  | run => some ⟨source, [], true⟩
  | edit _ => none

/-! ## One view -/

namespace View

/-- Editor, session and screen agree, and no change of the text is yet to be told. -/
structure InStep (view : View α) : Prop where
  /-- The output pane shows the output of the session. -/
  output : view.output = view.session.state.outputText
  /-- The button shows the status of the session. -/
  button : view.button = view.session.state.status.look
  /-- The session has the text of the editor. -/
  source : view.session.state.source = view.editor.source
  settled : view.editor.buffer.modified = false

/-- What a step came to on a view, given the number of calls before it. -/
structure Taken (react : Nat → Call → Reaction) (count : Nat) (view : View α) (s : Step) (stepped : Stepped α) :
    Prop where
  /-- No fault breaks it off. -/
  fault : stepped.fault = none
  /-- A run makes one call, with the whole text of the editor, and no other step makes any. -/
  call : stepped.call = s.call? view.editor.source
  /-- A run leaves the editor, and the state is what its call came to, compared with the expected output of the
  section. -/
  run : s = .run → stepped.view.editor = view.editor ∧
    stepped.view.session.state = .left view.session.lesson.expected view.editor.source
      (some (react count ⟨view.editor.source, [], true⟩).action)
  /-- Any other step leaves the output and the status. -/
  edit : s ≠ .run → stepped.view.session.state.output = view.session.state.output ∧
    stepped.view.session.state.status = view.session.state.status
  lesson : stepped.view.session.lesson = view.session.lesson

/-- What a run leaves: the session has recorded the reaction to its call over the text of the editor. -/
theorem session_run (view : View α) (react : Nat → Call → Reaction) (count : Nat) :
    (view.run (.ofFunction react) count).view.session =
      ⟨view.session.lesson, .left view.session.lesson.expected view.editor.source
        (some (react count ⟨view.editor.source, [], true⟩).action)⟩ := by
  obtain ⟨hsession, hfault, -⟩ :=
    (view.session.edit view.editor.source).run_ofFunction react count
  have hshown : (view.run (.ofFunction react) count).view.session =
      ((view.session.edit view.editor.source).run (.ofFunction react) count).session := by
    dsimp only [View.run]
    rw [hfault]
    rfl
  rw [hshown, hsession, Session.next, State.next_action]
  rfl

/-- A run does what a step should. -/
theorem taken_run (view : View α) (react : Nat → Call → Reaction) (count : Nat) :
    view.Taken react count .run (view.run (.ofFunction react) count) := by
  have hran := view.session_run react count
  obtain ⟨-, hfault, hcall⟩ := (view.session.edit view.editor.source).run_ofFunction react count
  have hmade : (view.run (.ofFunction react) count).call = some ⟨view.editor.source, [], true⟩ :=
    congrArg some hcall
  have heditor : (view.run (.ofFunction react) count).view.editor = view.editor := by
    dsimp only [View.run]
    split <;> rfl
  refine ⟨hfault, hmade, ?_, fun hne => absurd rfl hne, ?_⟩
  · intro _
    exact ⟨heditor, congrArg Session.state hran⟩
  · rw [hran]

/-- A step in the editor does what a step should. -/
theorem taken_edit (view : View α) (react : Nat → Call → Reaction) (count : Nat) (s : Editor.Step) :
    view.Taken react count (.edit s) ⟨view.edit s, none, [], [], none⟩ := by
  have hsession : (view.edit s).session = view.session ∨
      (view.edit s).session = view.session.edit (view.editor.step s).1.source := by
    dsimp only [View.edit]
    split
    · exact .inr rfl
    · exact .inl rfl
  refine ⟨rfl, rfl, fun heq => (nomatch heq), ?_, ?_⟩
  · intro _
    rcases hsession with hsame | hedited
    · rw [hsame]
      exact ⟨rfl, rfl⟩
    · rw [hedited]
      exact ⟨rfl, rfl⟩
  · rcases hsession with hsame | hedited
    · rw [hsame]
    · rw [hedited]
      rfl

/-- Every step does what a step should. -/
theorem taken_step (view : View α) (react : Nat → Call → Reaction) (count : Nat) (s : Step) :
    view.Taken react count s (view.step (.ofFunction react) count s) := by
  cases s with
  | run => exact view.taken_run react count
  | edit s => exact view.taken_edit react count s

/-- A run hands the text of the editor over anew and shows what it came to, whatever was shown before. -/
theorem InStep.run {view : View α} (h : view.InStep) (react : Nat → Call → Reaction) (count : Nat) :
    (view.run (.ofFunction react) count).view.InStep := by
  have hran := view.session_run react count
  obtain ⟨-, hfault, -⟩ := (view.session.edit view.editor.source).run_ofFunction react count
  have hrendered : (view.run (.ofFunction react) count).view =
      ({ view with session := (view.run (.ofFunction react) count).view.session } : View α).render := by
    dsimp only [View.run]
    rw [hfault]
    rfl
  rw [hrendered]
  refine ⟨rfl, rfl, ?_, h.settled⟩
  show (view.run (.ofFunction react) count).view.session.state.source = view.editor.source
  rw [hran]
  exact State.source_left _ _ _

/-- An edit reaches the session if it changes the text, and leaves what is shown. -/
theorem InStep.edit {view : View α} (h : view.InStep) {s : Editor.Step} (husers : s.isUsers = true) :
    (view.edit s).InStep := by
  have hsettled := view.editor.settled_step s
  cases hchanged : (view.editor.step s).2.changed with
  | true =>
    have hedited : view.edit s =
        { view with
          editor := (view.editor.step s).1
          session := view.session.edit (view.editor.step s).1.source } := by
      dsimp only [View.edit]
      rw [hchanged]
      rfl
    rw [hedited]
    exact ⟨h.output, h.button, rfl, hsettled⟩
  | false =>
    have hsame : view.edit s = { view with editor := (view.editor.step s).1 } := by
      dsimp only [View.edit]
      rw [hchanged]
      rfl
    have hsource := Editor.CodeEditor.source_step husers hchanged
    rw [hsame]
    exact ⟨h.output, h.button, h.source.trans hsource.symm, hsettled⟩

/-- A user's step keeps editor, session and screen in step. -/
theorem InStep.step {view : View α} (h : view.InStep) (react : Nat → Call → Reaction) (count : Nat) {s : Step}
    (husers : s.isUsers = true) : (view.step (.ofFunction react) count s).view.InStep := by
  cases s with
  | run => exact h.run react count
  | edit s => exact h.edit husers

/-- A text that replaces another is the text of the buffer. -/
theorem text_replace (b : Editor.Buffer) (text : Text) : (b.replace text).text = text := by
  -- Once all is deleted there is nothing on either side of the cursor.
  have hempty : ((b.delete 0 b.text.length).moveTo 0).text = [] := by
    have hdeleted : (b.delete 0 b.text.length).text = [] := by
      dsimp only [Editor.Buffer.delete]
      split
      · simp [Editor.Buffer.text]
      · rename_i hnone
        have hlength : b.text.length = 0 := by omega
        exact List.length_eq_zero_iff.1 hlength
    have hmoved : ((b.delete 0 b.text.length).moveTo 0).text = (b.delete 0 b.text.length).text :=
      List.take_append_drop 0 _
    rw [hmoved, hdeleted]
  have hnil := List.append_eq_nil_iff.1 hempty
  dsimp only [Editor.Buffer.replace, Editor.Buffer.insert]
  split
  · rename_i hnone
    rw [hempty, List.isEmpty_iff.1 hnone]
  · show ((b.delete 0 b.text.length).moveTo 0).before ++ text ++
      ((b.delete 0 b.text.length).moveTo 0).after = text
    rw [hnil.1, hnil.2, List.nil_append, List.append_nil]

/-- A new view shows what its session has, and its editor holds the text. -/
theorem inStep_ofSession (language : Language α) (session : Session) : (ofSession language session).InStep := by
  refine ⟨rfl, rfl, ?_, rfl⟩
  exact (text_replace .empty session.state.source).symm

end View

/-! ## A window -/

namespace Window

/-- The window after some steps on its sections, one after another. A step on a section that is not there does
nothing. -/
def after (window : Window α) (interpreter : Interpreter) (steps : List (Nat × Step)) : Window α :=
  steps.foldl (fun window s => ((window.step interpreter s.1 s.2).map Prod.fst).getD window) window

/-- The first of some steps is taken before the others. -/
theorem after_cons (window : Window α) (interpreter : Interpreter) (s : Nat × Step) (more : List (Nat × Step)) :
    window.after interpreter (s :: more) =
      (((window.step interpreter s.1 s.2).map Prod.fst).getD window).after interpreter more := rfl

/-- All views of a window agree with their sessions and editors, and they are those of some sections. -/
structure Shows (window : Window α) (lessons : List Section) : Prop where
  inStep : ∀ view ∈ window.views, view.InStep
  lessons : window.views.map (fun view => view.session.lesson) = lessons

/-- A step on a section that is there puts what it made of its view in the place of it. -/
theorem step_eq_some {window : Window α} {index : Nat} {view : View α} (h : window.views[index]? = some view)
    (interpreter : Interpreter) (s : Step) :
    window.step interpreter index s = some
      ({ window with
          views := window.views.set index (view.step interpreter window.calls s).view
          calls := window.calls + (view.step interpreter window.calls s).call.toList.length },
        view.step interpreter window.calls s) := by
  rw [Window.step, h]
  rfl

/-- A user's step keeps the views in step: its own by what it does there, the others since it leaves them. -/
theorem Shows.step {window : Window α} {lessons : List Section} (h : window.Shows lessons)
    (react : Nat → Call → Reaction) {s : Nat × Step} (husers : s.2.isUsers = true) :
    (((window.step (.ofFunction react) s.1 s.2).map Prod.fst).getD window).Shows lessons := by
  obtain ⟨index, s⟩ := s
  cases hview : window.views[index]? with
  | none =>
    rw [Window.step, hview]
    exact h
  | some view =>
    have hmem : view ∈ window.views := List.mem_of_getElem? hview
    have htaken := view.taken_step react window.calls s
    rw [step_eq_some hview]
    constructor
    · intro other hother
      rcases List.mem_or_eq_of_mem_set hother with hother | rfl
      · exact h.inStep other hother
      · exact (h.inStep view hmem).step react window.calls husers
    · -- The step keeps the section under its view, so nothing is put in another's place.
      have hlesson : (window.views.map fun view => view.session.lesson)[index]? = some view.session.lesson := by
        rw [List.getElem?_map, hview]
        rfl
      obtain ⟨hin, hget⟩ := List.getElem?_eq_some_iff.1 hlesson
      have hsame : (window.views.map fun view => view.session.lesson).set index view.session.lesson =
          window.views.map fun view => view.session.lesson := by
        rw [← hget, List.set_getElem_self hin]
      show (window.views.set index _).map _ = lessons
      rw [List.map_set, htaken.lesson, hsame]
      exact h.lessons

/-- Steps of a user keep the views in step. -/
theorem Shows.after {window : Window α} {lessons : List Section} (h : window.Shows lessons)
    (react : Nat → Call → Reaction) {steps : List (Nat × Step)}
    (husers : ∀ s ∈ steps, s.2.isUsers = true) : (window.after (.ofFunction react) steps).Shows lessons := by
  induction steps generalizing window with
  | nil => exact h
  | cons s more ih =>
    have hstep := h.step react (husers s List.mem_cons_self)
    rw [after_cons]
    exact ih hstep fun other hother => husers other (List.mem_cons_of_mem s hother)

/-- A new window shows its sections, in step. -/
theorem shows_ofSections (language : Language α) (families : List String) (lessons : List Section) :
    (ofSections language families lessons).Shows lessons := by
  constructor
  · intro view hview
    obtain ⟨lesson, -, rfl⟩ := List.mem_map.1 hview
    exact View.inStep_ofSession language (.ofSection lesson)
  · rw [ofSections, List.map_map]
    exact List.map_id lessons

/-- In a window of some sections, whatever a user does in them and whatever function evaluates for all of them, the
output pane and the button of each section show the output and the status of its session, and the session has the
text of the editor. A further step on one of the sections comes to no fault, makes one call if it is a run and none
otherwise, and leaves in the session what the call came to, or the output and the status as they were. -/
theorem in_step_after (language : Language α) (families : List String) (lessons : List Section)
    (react : Nat → Call → Reaction) (steps : List (Nat × Step)) (husers : ∀ s ∈ steps, s.2.isUsers = true) :
    ∀ index lesson, lessons[index]? = some lesson → ∃ view : View α,
      ((ofSections language families lessons).after (.ofFunction react) steps).views[index]? = some view ∧
      view.session.lesson = lesson ∧ view.InStep ∧
      ∀ s, ∃ next stepped,
        ((ofSections language families lessons).after (.ofFunction react) steps).step (.ofFunction react)
          index s = some (next, stepped) ∧
        next.views[index]? = some stepped.view ∧
        next.calls = ((ofSections language families lessons).after (.ofFunction react) steps).calls
          + (s.call? view.editor.source).toList.length ∧
        view.Taken react ((ofSections language families lessons).after (.ofFunction react) steps).calls s
          stepped := by
  intro index lesson hlesson
  have hshows := (shows_ofSections language families lessons).after react husers
  generalize (ofSections language families lessons).after (.ofFunction react) steps = window at hshows ⊢
  rw [← hshows.lessons, List.getElem?_map, Option.map_eq_some_iff] at hlesson
  obtain ⟨view, hview, hlesson⟩ := hlesson
  refine ⟨view, hview, hlesson, hshows.inStep view (List.mem_of_getElem? hview), ?_⟩
  intro s
  have htaken := view.taken_step react window.calls s
  refine ⟨_, _, step_eq_some hview _ s, ?_, ?_, htaken⟩
  · exact List.getElem?_set_self (List.getElem?_eq_some_iff.1 hview).1
  · rw [htaken.call]

/-- A section that asks for a number in brackets. -/
def bracketed : Section := ⟨"Tuples".toList, [], [], "(1)".toList⟩

/-- A user types a bracket, which closes by itself, and a number, runs the section and takes the number back. -/
def takenBack : List (Nat × Step) := [(0, .edit (.key ['('])), (0, .edit (.key ['1'])), (0, .run), (0, .edit .backspace)]

/-- The text is in the session as it is in the editor, and the section is still shown as solved. -/
theorem in_step_after_takenBack :
    (∀ s ∈ takenBack, s.2.isUsers = true) ∧ ∃ view : View Pattern,
      ((ofSections Editor.CodeEditor.ofTour.language [] [bracketed]).after
        (.ofFunction fun _ call => .returns (Text.coded call.source)) takenBack).views[0]? = some view ∧
      view.editor.source = ['(', ')'] ∧ view.session.state.source = ['(', ')'] ∧
      view.output = Text.coded "(1)".toList ∧ view.button = Status.success.look := by
  have husers : ∀ s ∈ takenBack, s.2.isUsers = true := by decide
  obtain ⟨view, hview, -, hinStep, -⟩ := in_step_after Editor.CodeEditor.ofTour.language [] [bracketed]
    (fun _ call => .returns (Text.coded call.source)) takenBack husers 0 bracketed rfl
  have hstate : (((ofSections Editor.CodeEditor.ofTour.language [] [bracketed]).after
      (.ofFunction fun _ call => .returns (Text.coded call.source)) takenBack).views[0]?).map
        (fun view => view.session.state) = some ⟨['(', ')'], some (Text.coded "(1)".toList), .success⟩ := rfl
  rw [hview] at hstate
  have hstate : view.session.state = ⟨['(', ')'], some (Text.coded "(1)".toList), .success⟩ := Option.some.inj hstate
  refine ⟨husers, view, hview, ?_, ?_, ?_, ?_⟩
  · rw [← hinStep.source, hstate]
  · rw [hstate]
  · rw [hinStep.output, hstate]
    rfl
  · rw [hinStep.button, hstate]

end Window

end Tour

end GuidedTour
