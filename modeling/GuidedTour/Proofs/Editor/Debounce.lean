import GuidedTour.Proofs.Editor.Freshness

/-!
# One timer at a time

Colouring is put off by one timer at a time (`CodeEditor.Debounced`): at most one is running, and the editor has
it in mind, so that the next change of the text stops it. Typing keeps this, and so do timers that run out. Text
that is set from outside does not: it makes the editor forget the timer it has in mind, and that timer goes on
running beside the one that the next change starts (`CodeEditor.not_debounced_interrupted`).

This is the only way to lose it. Through a whole run one timer at a time is running if and only if the text is
never set from outside while a timer is running (`CodeEditor.debounced_iff_set_at_rest`).
-/

set_option autoImplicit false

namespace GuidedTour.Editor.CodeEditor

variable {α κ : Type} [Matching α κ]

/-- At most one timer is running, and the editor has it in mind. -/
structure Debounced (e : CodeEditor α) : Prop where
  single : e.timers.length ≤ 1
  inMind : ∀ timer ∈ e.timers, e.job = some timer.number

/-- Without a timer nothing is to be had in mind. -/
theorem debounced_of_nil {e : CodeEditor α} (h : e.timers = []) : e.Debounced := by
  constructor
  · rw [h]
    exact Nat.zero_le 1
  · intro timer htimer
    rw [h] at htimer
    cases htimer

/-! ## One step -/

/-- Putting colouring off stops the timer in mind, and so all that are running. -/
theorem Debounced.timers_postpone {e : CodeEditor α} (h : e.Debounced) :
    e.postpone.timers = [⟨e.started, highlightDelay⟩] := by
  have hstopped : (e.timers.filter fun timer => some timer.number != e.job) = [] := by
    rw [List.filter_eq_nil_iff]
    intro timer htimer
    rw [h.inMind timer htimer, bne_self_eq_false]
    exact Bool.false_ne_true
  unfold CodeEditor.postpone
  rw [hstopped]
  rfl

/-- Putting colouring off leaves one timer, which is in mind. -/
theorem Debounced.postpone {e : CodeEditor α} (h : e.Debounced) : e.postpone.Debounced := by
  have htimers := h.timers_postpone
  constructor
  · rw [htimers]
    exact Nat.le_refl 1
  · intro timer htimer
    rw [htimers, List.mem_singleton] at htimer
    rw [htimer]
    rfl

/-- If the timer in mind runs out, none is left, and no other is running that could. -/
theorem Debounced.expire {e : CodeEditor α} (h : e.Debounced) (number : Nat) : (e.expire number).Debounced := by
  by_cases hrunning : ∃ timer ∈ e.timers, timer.number = number
  · obtain ⟨timer, htimer, hnumber⟩ := hrunning
    have hjob : e.job = some number := by
      rw [← hnumber]
      exact h.inMind timer htimer
    apply debounced_of_nil
    rw [timers_expire, List.filter_eq_nil_iff]
    intro other hother
    have hsame : some number = some other.number := hjob.symm.trans (h.inMind other hother)
    rw [← Option.some.inj hsame, bne_self_eq_false]
    exact Bool.false_ne_true
  · have hnone : ¬(e.timers.any (·.number == number) = true) := by
      rw [List.any_eq_true]
      rintro ⟨timer, htimer, hnumber⟩
      exact hrunning ⟨timer, htimer, beq_iff_eq.1 hnumber⟩
    unfold CodeEditor.expire
    rw [if_neg hnone]
    exact h

/-- After all timers have run out none is running. -/
theorem debounced_tick (e : CodeEditor α) : e.tick.Debounced := debounced_of_nil e.timers_tick

/-- All that an editor does by itself keeps it, except for setting the text while a timer is running. -/
theorem Debounced.act {e : CodeEditor α} (h : e.Debounced) {s : Step}
    (hset : ∀ source, s = .setSource source → e.timers = []) : (e.act s).1.Debounced := by
  have hbuffer (buffer : Buffer) : ({ e with buffer } : CodeEditor α).Debounced := ⟨h.single, h.inMind⟩
  cases s with
  | key typed =>
    dsimp only [CodeEditor.act]
    cases hclosed : e.closeKey? typed with
    | some closed =>
      obtain ⟨buffer, rfl, -⟩ := tells_closeKey? hclosed
      exact hbuffer buffer
    | none => exact hbuffer _
  | cursor offset => exact hbuffer _
  | select start stop => exact hbuffer _
  | backspace => exact hbuffer _
  | setSource source =>
    apply debounced_of_nil
    exact hset source rfl
  | expire number => exact h.expire number
  | tick => exact debounced_tick e

/-- A step keeps the one timer in mind, except for setting the text while a timer is running. -/
theorem Debounced.step {e : CodeEditor α} (h : e.Debounced) {s : Step}
    (hset : ∀ source, s = .setSource source → e.timers = []) : (e.step s).1.Debounced := by
  have hact := h.act hset
  dsimp only [CodeEditor.step]
  split
  · exact hact.postpone
  · exact hact

/-- Setting the text takes no timer off, but the editor has none in mind afterwards. -/
theorem timers_eq_nil_of_set {e : CodeEditor α} {source : Text} (h : (e.step (.setSource source)).1.Debounced) :
    e.timers = [] := by
  have hset : (e.step (.setSource source)).1 = e.setSource source := rfl
  rw [hset] at h
  rw [List.eq_nil_iff_forall_not_mem]
  intro timer htimer
  have hjob : (e.setSource source).job = some timer.number := h.inMind timer htimer
  cases hjob

/-! ## Changes of the text -/

/-- A timer that runs out starts none. -/
theorem started_expire (e : CodeEditor α) (number : Nat) : (e.expire number).started = e.started := by
  unfold expire
  split <;> rfl

/-- Timers that run out start none. -/
theorem started_tick (e : CodeEditor α) : e.tick.started = e.started := by
  unfold tick
  generalize e.timers = timers
  induction timers generalizing e with
  | nil => rfl
  | cons timer more ih => exact (ih _).trans (e.started_expire timer.number)

/-- No step starts a timer by itself. -/
theorem started_act (e : CodeEditor α) (s : Step) : (e.act s).1.started = e.started := by
  cases s with
  | key typed =>
    dsimp only [act]
    cases hclosed : e.closeKey? typed with
    | some closed =>
      obtain ⟨buffer, rfl, -⟩ := tells_closeKey? hclosed
      rfl
    | none => rfl
  | cursor offset => rfl
  | select start stop => rfl
  | backspace => rfl
  | setSource source => rfl
  | expire number => exact e.started_expire number
  | tick => exact e.started_tick

/-- A change of the text leaves no timer but the one that it starts. -/
theorem Debounced.timers_of_changed {e : CodeEditor α} (h : e.Debounced) {s : Step}
    (hchanged : (e.step s).2.changed = true) : (e.step s).1.timers = [⟨e.started, highlightDelay⟩] := by
  have hset : ∀ source, s = .setSource source → e.timers = [] := by
    -- Text that is set from outside is no change that is told.
    rintro source rfl
    cases hchanged
  have hact := h.act hset
  dsimp only [CodeEditor.step] at hchanged ⊢
  split
  · rw [hact.timers_postpone, started_act]
  · rename_i hsettled
    rw [if_neg hsettled] at hchanged
    cases hchanged

/-! ## Runs of steps -/

/-- Whenever the text is set from outside in the course of some steps, no timer is running. -/
def SetAtRest (e : CodeEditor α) (steps : List Step) : Prop :=
  ∀ earlier source later, steps = earlier ++ .setSource source :: later → (e.after earlier).timers = []

/-- What is so over a run is so over its beginning. -/
theorem SetAtRest.earlier {e : CodeEditor α} {steps more : List Step} (h : e.SetAtRest (steps ++ more)) :
    e.SetAtRest steps := by
  rintro earlier source later rfl
  apply h earlier source (later ++ more)
  rw [List.append_assoc, List.cons_append]

/-- A run keeps the one timer in mind if the text is set only while none is running, by induction over its steps. -/
theorem Debounced.after {e : CodeEditor α} (h : e.Debounced) {steps : List Step} (hset : e.SetAtRest steps) :
    (e.after steps).Debounced := by
  induction steps using List.reverseRecOn with
  | nil => exact h
  | append_singleton steps s ih =>
    have hbefore := ih hset.earlier
    rw [after_concat]
    apply hbefore.step
    rintro source rfl
    exact hset steps source [] rfl

/-- Through a run of an editor that was empty, one timer at a time is running if and only if the text is never set
from outside while a timer is running. As long as one timer at a time is running, a change of the text stops it and
leaves only the timer that the change starts. -/
theorem debounced_iff_set_at_rest (language : Language α) (wide : Bool) (steps : List Step) :
    ((∀ earlier later, steps = earlier ++ later →
        (({ ofLanguage language with wide } : CodeEditor α).after earlier).Debounced) ↔
      ({ ofLanguage language with wide } : CodeEditor α).SetAtRest steps) ∧
    ∀ e : CodeEditor α, e.Debounced → ∀ s, (e.step s).2.changed = true →
      (e.step s).1.timers = [⟨e.started, highlightDelay⟩] := by
  refine ⟨⟨?_, ?_⟩, fun e h s => h.timers_of_changed⟩
  · rintro h earlier source later rfl
    have hafter := h (earlier ++ [.setSource source]) later (by simp)
    rw [after_concat] at hafter
    exact timers_eq_nil_of_set hafter
  · rintro h earlier later rfl
    have hempty : ({ ofLanguage language with wide } : CodeEditor α).Debounced := debounced_of_nil rfl
    exact hempty.after h.earlier

/-- The text is set from outside between two keys. -/
def interrupted : List Step := [.key ['a'], .setSource ['b'], .key ['c']]

/-- Two timers are running then, and the editor has only one of them in mind. -/
theorem not_debounced_interrupted : ¬(ofTour.after interrupted).Debounced := by
  have htimers : (ofTour.after interrupted).timers = [⟨0, highlightDelay⟩, ⟨1, highlightDelay⟩] := rfl
  intro h
  have hsingle := h.single
  rw [htimers] at hsingle
  exact absurd hsingle (by decide)

end GuidedTour.Editor.CodeEditor
