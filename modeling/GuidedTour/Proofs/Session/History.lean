import GuidedTour.Session.State
import Mathlib.Data.List.Induction

/-!
# The state of an exercise as its history tells it

The state is folded over what happens to the exercise. What the fold comes to can be told without it: the text
is that of the last edit, and the output and the status are those of the last run, whatever was edited or
refused around it (`State.after_initial`). The status alone does not follow from the output, since a failed run
may print what was expected, so the induction carries the last run itself. `State.after_tells_history` says what
this means for the status.
-/

set_option autoImplicit false

namespace GuidedTour

/-! ## Histories -/

namespace Action

/-- The text that an edit brings. -/
def edited? : Action → Option Text
  | edit source => some source
  | _ => none

/-- Whether an action is the end of a run. -/
def isRun : Action → Bool
  | completed _ => true
  | failed _ => true
  | _ => false

/-- The text of the last edit. -/
def lastEdit? (actions : List Action) : Option Text := (actions.filterMap edited?).getLast?

/-- The end of the last run. -/
def lastRun? (actions : List Action) : Option Action := (actions.filter isRun).getLast?

/-- A further action brings the text of the last edit, if it is one. -/
theorem lastEdit?_concat (actions : List Action) (action : Action) :
    lastEdit? (actions ++ [action]) = action.edited?.or (lastEdit? actions) := by
  unfold lastEdit?
  cases hedited : action.edited? with
  | none => simp [hedited]
  | some source => simp [hedited]

/-- A further action is the last run, if it is the end of one. -/
theorem lastRun?_concat (actions : List Action) (action : Action) :
    lastRun? (actions ++ [action]) = if action.isRun then some action else lastRun? actions := by
  unfold lastRun?
  cases hrun : action.isRun with
  | false => simp [hrun]
  | true => simp [hrun]

/-- There was no run, or the last one was completed, or it failed. -/
theorem lastRun?_cases (actions : List Action) :
    lastRun? actions = none ∨ (∃ output, lastRun? actions = some (completed output)) ∨
      ∃ message, lastRun? actions = some (failed message) := by
  cases hrun : lastRun? actions with
  | none => exact .inl rfl
  | some action =>
    have hmem : action ∈ actions.filter isRun := List.mem_of_getLast? hrun
    have hisRun : action.isRun = true := (List.mem_filter.1 hmem).2
    cases action with
    | completed output => exact .inr (.inl ⟨output, rfl⟩)
    | failed message => exact .inr (.inr ⟨message, rfl⟩)
    | edit source => cases hisRun
    | other value => cases hisRun

/-- There was no run exactly if no action is the end of one. -/
theorem lastRun?_eq_none_iff {actions : List Action} :
    lastRun? actions = none ↔ ∀ action ∈ actions, action.isRun = false := by
  unfold lastRun?
  rw [List.getLast?_eq_none_iff, List.filter_eq_nil_iff]
  simp

end Action

/-! ## States -/

namespace Status

/-- An output that is compared has been printed. -/
theorem ofOutput_ne_idle (output expected : CodeText) : ofOutput output expected ≠ idle := by
  unfold ofOutput
  split <;> simp

/-- An output is a success exactly if it is the expected one. -/
theorem ofOutput_eq_success_iff {output expected : CodeText} :
    ofOutput output expected = success ↔ output = expected := by
  unfold ofOutput
  split <;> simp [*]

end Status

namespace State

/-- The state after an action. What is refused leaves it as it is. -/
def next (expected : CodeText) (state : State) (action : Action) : State :=
  match state.apply expected action with
  | .ok after => after
  | .error _ => state

/-- The state after some actions, one after another. -/
def after (state : State) (expected : CodeText) (actions : List Action) : State :=
  actions.foldl (next expected) state

/-- Actions are taken one part after the other. -/
theorem after_append (state : State) (expected : CodeText) (actions more : List Action) :
    state.after expected (actions ++ more) = (state.after expected actions).after expected more :=
  List.foldl_append

/-- The last of some actions is taken behind the others. -/
theorem after_concat (state : State) (expected : CodeText) (actions : List Action) (action : Action) :
    state.after expected (actions ++ [action]) = (state.after expected actions).next expected action :=
  after_append state expected actions [action]

/-- The state that the last run leaves behind, over a text. -/
def left (expected : CodeText) (source : Text) : Option Action → State
  | some (.completed output) => ⟨source, some output, .ofOutput output expected⟩
  | some (.failed message) => ⟨source, some (Text.coded "Error: ".toList ++ message), .mismatch⟩
  | _ => .initial source

/-- What a run leaves behind does not touch the text. -/
theorem source_left (expected : CodeText) (source : Text) (run : Option Action) :
    (left expected source run).source = source := by
  unfold left
  split <;> rfl

/-- The output that a run leaves behind does not depend on the text. -/
theorem output_left (expected : CodeText) (source source' : Text) (run : Option Action) :
    (left expected source run).output = (left expected source' run).output := by
  unfold left
  split <;> rfl

/-- The status that a run leaves behind does not depend on the text. -/
theorem status_left (expected : CodeText) (source source' : Text) (run : Option Action) :
    (left expected source run).status = (left expected source' run).status := by
  unfold left
  split <;> rfl

/-- An edit changes the text and leaves what the last run left behind. -/
theorem edit_left (expected : CodeText) (source source' : Text) (run : Option Action) :
    (left expected source run).edit source' = left expected source' run := by
  unfold left
  split <;> rfl

/-- A completed run is the last one, whatever was left behind before it. -/
theorem complete_left (expected : CodeText) (source : Text) (output : CodeText) (run : Option Action) :
    (left expected source run).complete expected output = left expected source (some (.completed output)) := by
  unfold left
  split <;> rfl

/-- A failed run is the last one, whatever was left behind before it. -/
theorem fail_left (expected : CodeText) (source : Text) (message : CodeText) (run : Option Action) :
    (left expected source run).fail message = left expected source (some (.failed message)) := by
  unfold left
  split <;> rfl

/-- What the fold comes to: the text of the last edit, with what the last run left behind. -/
theorem after_initial (source : Text) (expected : CodeText) (actions : List Action) :
    (initial source).after expected actions =
      left expected ((Action.lastEdit? actions).getD source) (Action.lastRun? actions) := by
  induction actions using List.reverseRecOn with
  | nil => rfl
  | append_singleton actions action ih =>
    rw [after_concat, ih, Action.lastEdit?_concat, Action.lastRun?_concat]
    cases action with
    | edit source' => exact edit_left expected _ source' _
    | completed output => exact complete_left expected _ output _
    | failed message => exact fail_left expected _ message _
    | other value => rfl

/-! ## What the status says -/

/-- What is left behind is idle and without output exactly if there was no run. -/
theorem left_eq_none_iff {expected : CodeText} {source : Text} {actions : List Action} :
    ((left expected source (Action.lastRun? actions)).status = .idle ↔ Action.lastRun? actions = none) ∧
      ((left expected source (Action.lastRun? actions)).output = none ↔
        Action.lastRun? actions = none) := by
  obtain h | ⟨output, h⟩ | ⟨message, h⟩ := Action.lastRun?_cases actions
  · simp [h, left, initial]
  · simp [h, left, Status.ofOutput_ne_idle]
  · simp [h, left]

/-- What is left behind is a success exactly if the last run was completed with the expected output. -/
theorem status_left_eq_success_iff {expected : CodeText} {source : Text} {actions : List Action} :
    (left expected source (Action.lastRun? actions)).status = .success ↔
      Action.lastRun? actions = some (.completed expected) := by
  obtain h | ⟨output, h⟩ | ⟨message, h⟩ := Action.lastRun?_cases actions
  · simp [h, left, initial]
  · simp [h, left, Status.ofOutput_eq_success_iff]
  · simp [h, left]

/-- What a state tells of the history behind it. -/
structure Tells (source : Text) (expected : CodeText) (actions : List Action) (state : State) : Prop where
  /-- The text is that of the last edit, or the one at the start. -/
  source : state.source = (Action.lastEdit? actions).getD source
  /-- Without a run the status is idle, and only then. -/
  idle : state.status = .idle ↔ ∀ action ∈ actions, action.isRun = false
  /-- Without a run there is no output, and only then. -/
  silent : state.output = none ↔ ∀ action ∈ actions, action.isRun = false
  /-- The status is success if the last run printed exactly what was expected, and only then. -/
  success : state.status = .success ↔ Action.lastRun? actions = some (.completed expected)
  /-- The output of a completed run is what it printed. -/
  completed : ∀ output, Action.lastRun? actions = some (.completed output) → state.output = some output
  /-- A failed run is a mismatch whatever its message is, which stands behind a mark. -/
  failed : ∀ message, Action.lastRun? actions = some (.failed message) →
    state.output = some (Text.coded "Error: ".toList ++ message) ∧ state.status = .mismatch

/-- The state after some actions tells of them what it should. -/
theorem tells_after_initial (source : Text) (expected : CodeText) (actions : List Action) :
    Tells source expected actions ((initial source).after expected actions) := by
  rw [after_initial]
  refine ⟨?_, ?_, ?_, ?_, ?_, ?_⟩
  · exact source_left expected _ _
  · exact left_eq_none_iff.1.trans Action.lastRun?_eq_none_iff
  · exact left_eq_none_iff.2.trans Action.lastRun?_eq_none_iff
  · exact status_left_eq_success_iff
  · intro output h
    rw [h]
    rfl
  · intro message h
    rw [h]
    exact ⟨rfl, rfl⟩

/-- A value that is no action is refused, and nothing else is. -/
theorem apply_eq_error_iff {state : State} {expected : CodeText} {action : Action} {e : UnknownAction} :
    state.apply expected action = .error e ↔ action = .other e.value := by
  cases action with
  | other value =>
    constructor
    · intro h
      cases h
      rfl
    · intro h
      cases h
      rfl
  | _ =>
    constructor
    · intro h
      cases h
    · intro h
      cases h

/-- After any history the text is that of the last edit, and the output and the status follow from the last run
alone: they are the same after every other history that ends in the same run. The status is idle, and the
output missing, just as long as there was no run; it is success just if the last run printed what was expected,
and a failed run never is. A value that is no action is refused and leaves the state as it was. -/
theorem after_tells_history (source : Text) (expected : CodeText) (actions : List Action) :
    Tells source expected actions ((initial source).after expected actions) ∧
    (∀ source' actions', Action.lastRun? actions' = Action.lastRun? actions →
      ((initial source').after expected actions').output =
          ((initial source).after expected actions).output ∧
        ((initial source').after expected actions').status =
          ((initial source).after expected actions).status) ∧
    (∀ more, ((initial source).after expected (actions ++ more)).status = .idle →
      ((initial source).after expected actions).status = .idle) ∧
    (∀ action e,
      ((initial source).after expected actions).apply expected action = .error e ↔
        action = .other e.value) ∧
    ∀ value, (initial source).after expected (actions ++ [.other value]) =
      (initial source).after expected actions := by
  have htells := tells_after_initial source expected
  refine ⟨htells actions, ?_, ?_, ?_, ?_⟩
  · intro source' actions' h
    rw [after_initial, after_initial, h]
    exact ⟨output_left expected _ _ _, status_left expected _ _ _⟩
  · intro more h
    have hnone := (htells (actions ++ more)).idle.1 h
    apply (htells actions).idle.2
    intro action hmem
    exact hnone action (List.mem_append_left more hmem)
  · intro action e
    exact apply_eq_error_iff
  · intro value
    exact after_concat _ expected actions (.other value)

end State

end GuidedTour
