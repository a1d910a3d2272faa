import GuidedTour.Interpreter.Function
import GuidedTour.Proofs.Session.History
import GuidedTour.Session.Basic
import Mathlib.Data.List.Basic

/-!
# Sessions that share a function

Several sessions are worked on in turn, and one function evaluates for all of them. Whatever it does with a
call, a step touches its own session alone, as its action does (`Sessions.step_eq`), and only a run makes a
call. Through a whole run of steps, each session therefore comes to the fold over its own actions: its edits,
and what its own calls came to (`Sessions.shared_after`). The other sessions only push the numbers of its calls
on.
-/

set_option autoImplicit false

namespace GuidedTour

/-- What a session records of a function's reaction: any value by its text, and any failure by its words. -/
def Reaction.action : Reaction → Action
  | returns shown => .completed shown
  | refuses error => .failed error.message
  | raises words => .failed words

namespace Sessions

/-! ## Steps and their actions -/

namespace Step

/-- The session that a step works on. -/
def index : Step → Nat
  | edit index _ => index
  | run index => index

/-- Whether a step runs its session. -/
def isRun : Step → Bool
  | edit _ _ => false
  | run _ => true

/-- The text that a step sets in a session, if it does. -/
def edited? (index : Nat) : Step → Option Text
  | edit i text => if i = index then some text else none
  | run _ => none

/-- What a step does to its session, given the number of calls before it and the text of the session. -/
def action (react : Nat → Call → Reaction) (count : Nat) (source : Text) : Step → Action
  | edit _ text => .edit text
  | run _ => (react count ⟨source, [], true⟩).action

/-- The text of its session after a step. -/
def leaves (source : Text) : Step → Text
  | edit _ text => text
  | run _ => source

/-- The calls that a step makes, given the text of its session. -/
def calls (source : Text) : Step → List Call
  | edit _ _ => []
  | run _ => [⟨source, [], true⟩]

/-- A step makes one call if it is a run, and none otherwise. -/
theorem length_calls (source : Text) (step : Step) : (step.calls source).length = step.isRun.toNat := by
  cases step <;> rfl

/-- A step on another session edits nothing in this one. -/
theorem edited?_of_ne {index : Nat} {step : Step} (h : step.index ≠ index) : step.edited? index = none := by
  cases step with
  | edit i text => exact if_neg h
  | run i => rfl

/-- The action of a step brings the text that the step edits. -/
theorem edited?_action (react : Nat → Call → Reaction) (count : Nat) (source : Text) (step : Step) :
    (step.action react count source).edited? = step.edited? step.index := by
  cases step with
  | edit i text => exact (if_pos rfl).symm
  | run i =>
    show (react count ⟨source, [], true⟩).action.edited? = none
    cases react count ⟨source, [], true⟩ <;> rfl

end Step

/-- The text of a session after some steps: that of the last edit on it, or the one it started with. -/
def latest (lesson : Section) (index : Nat) (steps : List Step) : Text :=
  (steps.filterMap (Step.edited? index)).getLast?.getD lesson.startingCode

/-- What happens to one session in the course of some steps, given the number of calls before them and the text
of the session. Of the steps on other sessions only the runs count, as calls. -/
def actionsOf (react : Nat → Call → Reaction) (index : Nat) : Nat → Text → List Step → List Action
  | _, _, [] => []
  | count, source, step :: more =>
    if step.index = index then
      step.action react count source
        :: actionsOf react index (count + step.isRun.toNat) (step.leaves source) more
    else actionsOf react index (count + step.isRun.toNat) source more

/-- The actions of a session bring the texts that the steps edit in it. -/
theorem edited_actionsOf (react : Nat → Call → Reaction) (index count : Nat) (source : Text)
    (steps : List Step) :
    (actionsOf react index count source steps).filterMap Action.edited? =
      steps.filterMap (Step.edited? index) := by
  induction steps generalizing count source with
  | nil => rfl
  | cons step more ih =>
    by_cases h : step.index = index
    · subst h
      rw [actionsOf, if_pos rfl, List.filterMap_cons, List.filterMap_cons, Step.edited?_action, ih]
    · rw [actionsOf, if_neg h, ih, List.filterMap_cons_none (Step.edited?_of_ne h)]

end Sessions

/-! ## One step -/

/-- A session after an action. -/
def Session.next (session : Session) (action : Action) : Session :=
  { session with state := session.state.next session.lesson.expected action }

/-- A run records what the function came to, and no fault breaks it off. -/
theorem Session.run_ofFunction (session : Session) (react : Nat → Call → Reaction) (count : Nat) :
    (session.run (.ofFunction react) count).session = session.next (react count session.call).action ∧
      (session.run (.ofFunction react) count).fault = none ∧
      (session.run (.ofFunction react) count).call = session.call := by
  unfold Session.run Interpreter.ofFunction
  cases react count session.call with
  | returns shown => exact ⟨rfl, rfl, rfl⟩
  | refuses error => exact ⟨rfl, rfl, rfl⟩
  | raises words => exact ⟨rfl, rfl, rfl⟩

/-- The action of a step leaves the text that the step leaves. -/
theorem State.source_next_action (state : State) (expected : CodeText) (react : Nat → Call → Reaction)
    (count : Nat) (step : Sessions.Step) :
    (state.next expected (step.action react count state.source)).source = step.leaves state.source := by
  cases step with
  | edit index text => rfl
  | run index =>
    show (state.next expected (react count ⟨state.source, [], true⟩).action).source = state.source
    cases react count ⟨state.source, [], true⟩ <;> rfl

namespace Sessions

/-- The fault that breaks a step off, if one does. -/
def fault? (work : Sessions) (interpreter : Interpreter) : Step → Option Fault
  | .edit _ _ => none
  | .run index =>
    (work.sessions[index]?).bind fun session => (session.run interpreter work.calls.length).fault

/-- A step puts its action upon its own session and adds its calls. -/
theorem step_eq (react : Nat → Call → Reaction) {work : Sessions} {step : Step} {session : Session}
    (h : work.sessions[step.index]? = some session) :
    (work.step (.ofFunction react) step).1 =
      ⟨work.sessions.set step.index
          (session.next (step.action react work.calls.length session.state.source)),
        work.calls ++ step.calls session.state.source⟩ := by
  cases step with
  | edit index text =>
    have hget : work.sessions[index]? = some session := h
    have hset : work.sessions.modify index (·.edit text) = work.sessions.set index (session.edit text) := by
      rw [List.modify_eq_set_getElem?, hget]
      rfl
    simp only [Sessions.step, hset, Step.calls, List.append_nil]
    rfl
  | run index =>
    obtain ⟨hsession, -, hcall⟩ := session.run_ofFunction react work.calls.length
    have hget : work.sessions[index]? = some session := h
    simp only [Sessions.step, hget, hsession, hcall]
    rfl

/-- No fault breaks off a step, since none comes out of a function. -/
theorem fault?_ofFunction (work : Sessions) (react : Nat → Call → Reaction) (step : Step) :
    work.fault? (.ofFunction react) step = none := by
  cases step with
  | edit index text => rfl
  | run index =>
    rw [fault?, Option.bind_eq_none_iff]
    intro session _
    exact (session.run_ofFunction react work.calls.length).2.1

/-- All of some steps are on sessions that are there. -/
def Within (work : Sessions) (steps : List Step) : Prop := ∀ step ∈ steps, step.index < work.sessions.length

/-- The first of some steps finds its session. -/
theorem Within.head {work : Sessions} {step : Step} {more : List Step} (h : work.Within (step :: more)) :
    ∃ session, work.sessions[step.index]? = some session :=
  ⟨_, List.getElem?_eq_getElem (h step List.mem_cons_self)⟩

/-- A step leaves the number of the sessions, so what was within them stays within. -/
theorem Within.tail {work : Sessions} {step : Step} {more : List Step} (h : work.Within (step :: more))
    (react : Nat → Call → Reaction) : (work.step (.ofFunction react) step).1.Within more := by
  obtain ⟨session, hsession⟩ := h.head
  intro other hother
  rw [step_eq react hsession, List.length_set]
  exact h other (List.mem_cons_of_mem step hother)

/-! ## Runs of steps -/

/-- The sessions after some steps, one after another. -/
def after (work : Sessions) (interpreter : Interpreter) (steps : List Step) : Sessions :=
  steps.foldl (fun work step => (work.step interpreter step).1) work

/-- The first of some steps is taken before the others. -/
theorem after_cons (work : Sessions) (interpreter : Interpreter) (step : Step) (more : List Step) :
    work.after interpreter (step :: more) = (work.step interpreter step).1.after interpreter more := rfl

/-- Steps are taken one part after the other. -/
theorem after_append (work : Sessions) (interpreter : Interpreter) (steps more : List Step) :
    work.after interpreter (steps ++ more) = (work.after interpreter steps).after interpreter more :=
  List.foldl_append

/-- Steps that are within the sessions are so behind others. -/
theorem Within.after {work : Sessions} {steps more : List Step} (h : work.Within (steps ++ more))
    (react : Nat → Call → Reaction) : (work.after (.ofFunction react) steps).Within more := by
  induction steps generalizing work with
  | nil => exact h
  | cons step steps ih => exact ih (h.tail react)

/-- Through some steps a session comes to the fold over its own actions. -/
theorem sessions_after (react : Nat → Call → Reaction) {work : Sessions} {steps : List Step} {index : Nat}
    {session : Session} (hin : work.Within steps) (h : work.sessions[index]? = some session) :
    (work.after (.ofFunction react) steps).sessions[index]? =
      some { session with
        state := session.state.after session.lesson.expected
          (actionsOf react index work.calls.length session.state.source steps) } := by
  induction steps generalizing work session with
  | nil => exact h
  | cons step more ih =>
    obtain ⟨mover, hmover⟩ := hin.head
    have hstep := step_eq react hmover
    have hcount : (work.step (.ofFunction react) step).1.calls.length =
        work.calls.length + step.isRun.toNat := by
      rw [hstep, List.length_append, Step.length_calls]
    by_cases hi : step.index = index
    · -- The step is one of the session's own, and brings its action.
      subst hi
      have hown := step_eq react h
      have hnext : (work.step (.ofFunction react) step).1.sessions[step.index]? =
          some (session.next (step.action react work.calls.length session.state.source)) := by
        rw [hown]
        exact List.getElem?_set_self (hin step List.mem_cons_self)
      rw [after_cons, ih (hin.tail react) hnext, hcount, actionsOf, if_pos rfl, Session.next,
        State.source_next_action]
      rfl
    · -- The step is another session's, and at most pushes the number of calls on.
      have hnext : (work.step (.ofFunction react) step).1.sessions[index]? = some session := by
        rw [hstep, List.getElem?_set_ne hi]
        exact h
      rw [after_cons, ih (hin.tail react) hnext, hcount, actionsOf, if_neg hi]

/-- Through some steps there is one call more for each run. -/
theorem calls_after (react : Nat → Call → Reaction) {work : Sessions} {steps : List Step}
    (hin : work.Within steps) :
    ∃ made, (work.after (.ofFunction react) steps).calls = work.calls ++ made ∧
      made.length = steps.countP Step.isRun := by
  induction steps generalizing work with
  | nil => exact ⟨[], (List.append_nil _).symm, rfl⟩
  | cons step more ih =>
    obtain ⟨session, hsession⟩ := hin.head
    obtain ⟨made, hmade, hlength⟩ := ih (hin.tail react)
    have hcalls := congrArg Sessions.calls (step_eq react hsession)
    rw [hcalls, List.append_assoc] at hmade
    refine ⟨_, hmade, ?_⟩
    rw [List.length_append, hlength, Step.length_calls, List.countP_cons]
    cases step.isRun with
    | false => exact Nat.zero_add _
    | true => exact Nat.add_comm 1 _

/-! ## Sessions of some sections -/

/-- The session of a section after all that happens to it in the course of some steps, and nothing else. -/
def alone (react : Nat → Call → Reaction) (lesson : Section) (index : Nat) (steps : List Step) : Session :=
  ⟨lesson, (State.initial lesson.startingCode).after lesson.expected
    (actionsOf react index 0 lesson.startingCode steps)⟩

/-- What some steps on the sessions of some sections come to. -/
structure Shared (react : Nat → Call → Reaction) (lessons : List Section) (steps : List Step)
    (work : Sessions) : Prop where
  /-- There was one call for each run. -/
  count : work.calls.length = steps.countP Step.isRun
  /-- The call of a run has the number of the run among all of them, and hands over the latest text of its
  session, without arguments and to be executed. -/
  calls : ∀ earlier index later lesson, steps = earlier ++ .run index :: later →
    lessons[index]? = some lesson →
    work.calls[earlier.countP Step.isRun]? = some ⟨latest lesson index earlier, [], true⟩
  /-- Each session is at the fold over its own actions. -/
  sessions : ∀ index lesson, lessons[index]? = some lesson →
    work.sessions[index]? = some (alone react lesson index steps)

/-- What one step on a session does, given the session before it. -/
structure Taken (react : Nat → Call → Reaction) (work : Sessions) (step : Step) (session : Session) :
    Prop where
  /-- No fault breaks it off. -/
  fault : work.fault? (.ofFunction react) step = none
  /-- An edit makes no call, and a run makes one, with the text of its session. -/
  calls : (work.step (.ofFunction react) step).1.calls = work.calls ++ step.calls session.state.source
  /-- A run keeps the text of its session. -/
  source : step.isRun = true → ∃ next : Session,
    (work.step (.ofFunction react) step).1.sessions[step.index]? = some next ∧
      next.state.source = session.state.source
  /-- Other sessions are left as they were. -/
  others : ∀ index, index ≠ step.index →
    (work.step (.ofFunction react) step).1.sessions[index]? = work.sessions[index]?

/-- A step on a session that is there does its work. -/
theorem taken_of_getElem? (react : Nat → Call → Reaction) {work : Sessions} (step : Step)
    {session : Session} (h : work.sessions[step.index]? = some session) : work.Taken react step session := by
  have hstep := step_eq react h
  refine ⟨fault?_ofFunction work react step, ?_, ?_, ?_⟩
  · rw [hstep]
  · intro hrun
    refine ⟨_, by rw [hstep]; exact List.getElem?_set_self (List.getElem?_eq_some_iff.1 h).1, ?_⟩
    cases step with
    | edit index text => cases hrun
    | run index => exact State.source_next_action session.state _ react work.calls.length (.run index)
  · intro index hne
    rw [hstep, List.getElem?_set_ne hne.symm]

/-- Steps with numbers of sections are within the sessions of these. -/
theorem within_ofSections {lessons : List Section} {steps : List Step}
    (h : ∀ step ∈ steps, step.index < lessons.length) : (ofSections lessons).Within steps := by
  intro step hstep
  rw [ofSections, List.length_map]
  exact h step hstep

/-- The session of a section comes to the fold over its own actions. -/
theorem sessions_after_ofSections (react : Nat → Call → Reaction) {lessons : List Section}
    {steps : List Step} (h : ∀ step ∈ steps, step.index < lessons.length) {index : Nat} {lesson : Section}
    (hlesson : lessons[index]? = some lesson) :
    ((ofSections lessons).after (.ofFunction react) steps).sessions[index]? =
      some (alone react lesson index steps) := by
  have hfirst : (ofSections lessons).sessions[index]? = some (.ofSection lesson) := by
    rw [ofSections, List.getElem?_map, hlesson]
    rfl
  exact sessions_after react (within_ofSections h) hfirst

/-- The text of a session at the end is that of the last edit on it. -/
theorem source_alone (react : Nat → Call → Reaction) (lesson : Section) (index : Nat)
    (steps : List Step) : (alone react lesson index steps).state.source = latest lesson index steps := by
  rw [alone, State.after_initial, State.source_left, Action.lastEdit?, edited_actionsOf]
  rfl

/-- Whatever steps are taken on sessions that share a function, and whatever the function does at each of its
calls, each session is at the fold over its own edits and what its own calls came to. The calls are those of the
runs, in order, each with the latest text of its session. Every further step on one of the sessions does its
work without a fault, makes a call if it is a run, and leaves the others alone. -/
theorem shared_after (lessons : List Section) (react : Nat → Call → Reaction) (steps : List Step)
    (h : ∀ step ∈ steps, step.index < lessons.length) :
    Shared react lessons steps ((ofSections lessons).after (.ofFunction react) steps) ∧
    ∀ step lesson, lessons[step.index]? = some lesson → ∃ session : Session,
      ((ofSections lessons).after (.ofFunction react) steps).sessions[step.index]? = some session ∧
      session.state.source = latest lesson step.index steps ∧
      ((ofSections lessons).after (.ofFunction react) steps).Taken react step session := by
  refine ⟨⟨?_, ?_, ?_⟩, ?_⟩
  · obtain ⟨made, hmade, hlength⟩ := calls_after react (within_ofSections h)
    rw [hmade]
    exact hlength
  · rintro earlier index later lesson rfl hlesson
    have hwithin := within_ofSections h
    have hearlier : ∀ step ∈ earlier, step.index < lessons.length :=
      fun step hstep => h step (List.mem_append_left _ hstep)
    obtain ⟨before, hbefore, hcount⟩ := calls_after react (within_ofSections hearlier)
    have hrest := hwithin.after react
    obtain ⟨made, hmade, -⟩ := calls_after react (hrest.tail react)
    have hsession := sessions_after_ofSections react hearlier hlesson
    have hcall := (taken_of_getElem? react (.run index) hsession).calls
    rw [source_alone, hbefore] at hcall
    rw [after_append, after_cons, hmade, hcall, ← hcount]
    simp [ofSections, Step.calls]
  · intro index lesson hlesson
    exact sessions_after_ofSections react h hlesson
  · intro step lesson hlesson
    have hsession := sessions_after_ofSections react h hlesson
    exact ⟨_, hsession, source_alone react lesson step.index steps, taken_of_getElem? react step hsession⟩

/-- Two sections with the same exercise. -/
def twins : List Section :=
  [⟨"Literals".toList, [], ['5'], ['5']⟩, ⟨"Literals".toList, [], ['5'], ['5']⟩]

/-- A function that hands the program text back once and fails from then on. -/
def faltering (count : Nat) (call : Call) : Reaction :=
  if count = 0 then .returns (Text.coded call.source) else .raises (Text.coded "boom".toList)

/-- The first session is edited, and the second one is run before it: the first call is the second session's,
which is solved, and the first session fails with the text it has by then. -/
theorem shared_after_twins :
    (∀ step ∈ [Step.edit 0 ['7'], .run 1, .run 0], step.index < twins.length) ∧
    ((ofSections twins).after (.ofFunction faltering) [.edit 0 ['7'], .run 1, .run 0]).calls[0]? =
      some ⟨['5'], [], true⟩ ∧
    ((ofSections twins).after (.ofFunction faltering) [.edit 0 ['7'], .run 1, .run 0]).calls[1]? =
      some ⟨['7'], [], true⟩ ∧
    (((ofSections twins).after (.ofFunction faltering)
      [.edit 0 ['7'], .run 1, .run 0]).sessions[0]?).map Session.state =
        some ⟨['7'], some (Text.coded "Error: boom".toList), .mismatch⟩ ∧
    (((ofSections twins).after (.ofFunction faltering)
      [.edit 0 ['7'], .run 1, .run 0]).sessions[1]?).map Session.state =
        some ⟨['5'], some (Text.coded ['5']), .success⟩ := by
  have hin : ∀ step ∈ [Step.edit 0 ['7'], .run 1, .run 0], step.index < twins.length := by decide
  obtain ⟨hshared, -⟩ := shared_after twins faltering [.edit 0 ['7'], .run 1, .run 0] hin
  refine ⟨hin, ?_, ?_, ?_, ?_⟩
  · exact hshared.calls [.edit 0 ['7']] 1 [.run 0] _ rfl rfl
  · exact hshared.calls [.edit 0 ['7'], .run 1] 0 [] _ rfl rfl
  · rw [hshared.sessions 0 _ rfl]
    rfl
  · rw [hshared.sessions 1 _ rfl]
    rfl

end Sessions

end GuidedTour
