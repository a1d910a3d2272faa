import GuidedTour.Proofs.Session.Fault

/-!
# Programs that have ended

On any system, a call that finds a program and can start it (`Program.Runs`) starts it once and comes to what the
program has ended with (`Program.Runs.evaluate_eq`). A program that ends well gives what can be read in the text that
it has printed, whatever it wrote to its error stream (`Program.evaluate_printed`).

A program that ends with another status is refused, and the message is meant to be what the program says about it: on
its error stream or else in its output (`Program.diagnosis`). An error stream of blanks alone is an exception. It is
chosen before the blanks are dropped, and so it hides the output (`Program.Hidden`); the message is then the status
alone (`Program.evaluate_stopped`).
-/

set_option autoImplicit false

namespace GuidedTour.Program

/-! ## Started programs -/

/-- On a system a call finds a program at a path, the program can be started and ends, and the arguments can be handed
over, if they are to be handed over at all. -/
structure Runs (system : System) (executable : Text) (call : Call) (path : Text) (ended : Ended) : Prop where
  found : system.locate? executable = some path
  ends : system.start ⟨command path system.file call, call.source⟩ = .ok ended
  arguments : call.verbose = true → ∀ argument ∈ call.arguments, '\x00' ∉ argument

variable {system : System} {executable path : Text} {call : Call} {ended : Ended}

/-- The program is started once, and the call comes to what it has ended with. -/
theorem Runs.evaluate_eq (h : Runs system executable call path ended) :
    (evaluate system executable call).result = finished ended ∧
      (evaluate system executable call).starts = [⟨command path system.file call, call.source⟩] := by
  have hnul := command_any_nul (system.locate?_nul h.found) system.file_nul h.arguments
  unfold evaluate
  simp only [h.found, hnul, h.ends]
  exact ⟨rfl, rfl⟩

/-! ## Programs that end well -/

/-- What a program says about its end: on its error stream, or else in its output, or else by its status. Blanks say
nothing. -/
def diagnosis (errors output : Text) (status : Int) : Text :=
  if Text.strip errors ≠ [] then Text.strip errors
  else if Text.strip output ≠ [] then Text.strip output
  else "exit status ".toList ++ Text.ofInt status

/-- Blanks on the error stream hide an output that says something. -/
def Hidden (errors output : Text) : Prop := errors ≠ [] ∧ Text.strip errors = [] ∧ Text.strip output ≠ []

/-- The message is what the stream says that was chosen, or else the status. -/
theorem message_stopReason (errors output : Text) (status : Int) :
    (stopReason errors output status).message = Text.coded (
      if Text.strip (if errors = [] then output else errors) = [] then "exit status ".toList ++ Text.ofInt status
      else Text.strip (if errors = [] then output else errors)) := by
  unfold stopReason
  simp only [List.isEmpty_iff]
  rw [apply_ite InterpreterError.message, apply_ite Text.coded]
  rfl

/-- Where the error stream hides the output, the message is the status. -/
theorem message_stopReason_of_hidden {errors output : Text} {status : Int} (h : Hidden errors output) :
    (stopReason errors output status).message = Text.coded ("exit status ".toList ++ Text.ofInt status) := by
  obtain ⟨hne, hblank, -⟩ := h
  rw [message_stopReason, if_neg hne, if_pos hblank]

/-- Where the error stream hides nothing, the message is what the program says about its end. -/
theorem message_stopReason_of_not_hidden {errors output : Text} {status : Int} (h : ¬Hidden errors output) :
    (stopReason errors output status).message = Text.coded (diagnosis errors output status) := by
  rw [message_stopReason, diagnosis]
  by_cases hnil : errors = []
  · have herrors : Text.strip errors = [] := by rw [hnil]; rfl
    rw [if_pos hnil, if_neg (not_not_intro herrors)]
    by_cases houtput : Text.strip output = []
    · rw [if_pos houtput, if_neg (not_not_intro houtput)]
    · rw [if_neg houtput, if_pos houtput]
  rw [if_neg hnil]
  by_cases herrors : Text.strip errors = []
  · -- Both streams say nothing, or else the output would be hidden.
    have houtput : Text.strip output = [] := by
      by_contra houtput
      exact h ⟨hnil, herrors, houtput⟩
    rw [if_pos herrors, if_neg (not_not_intro herrors), if_neg (not_not_intro houtput)]
  · rw [if_neg herrors, if_pos herrors]

/-- A program that is found on any system, starts and ends with another status than zero is refused, whatever it
wrote. The message is what it says about its end, unless blanks on its error stream hide its output; then it is the
status alone. -/
theorem evaluate_stopped (hruns : Runs system executable call path ended) (hstatus : ended.status ≠ 0) :
    ∃ error, (evaluate system executable call).result = .error (.refused error) ∧
      (¬Hidden (streamText ended.errors) (streamText ended.output) → error.message =
        Text.coded (diagnosis (streamText ended.errors) (streamText ended.output) ended.status)) ∧
      (Hidden (streamText ended.errors) (streamText ended.output) →
        error.message = Text.coded ("exit status ".toList ++ Text.ofInt ended.status)) := by
  refine ⟨stopReason (streamText ended.errors) (streamText ended.output) ended.status, ?_,
    message_stopReason_of_not_hidden, message_stopReason_of_hidden⟩
  rw [hruns.evaluate_eq.1, finished, if_pos hstatus]

/-- A program asked for by its path that is killed after it has printed a result is refused, with what it has printed as
the message. -/
theorem evaluate_stopped_killed :
    let path := "/opt/bp".toList
    let ended : Ended := ⟨-9, Text.encode "Ok(Integer(5))\n".toList, []⟩
    let call : Call := ⟨"5".toList, [], true⟩
    (Runs (.single path ended) path call path ended ∧ ended.status ≠ 0) ∧
      ∃ error, (evaluate (.single path ended) path call).result = .error (.refused error) ∧
        error.message = Text.coded "Ok(Integer(5))".toList := by
  intro path ended call
  have hruns : Runs (.single path ended) path call path ended := ⟨rfl, rfl, by decide⟩
  have hstatus : ended.status ≠ 0 := by decide
  obtain ⟨error, hresult, hshown, -⟩ := evaluate_stopped hruns hstatus
  have herrors : streamText ended.errors = [] := @streamText_encode [] List.not_mem_nil
  have houtput : streamText ended.output = "Ok(Integer(5))\n".toList := streamText_encode (by decide)
  refine ⟨⟨hruns, hstatus⟩, error, hresult, ?_⟩
  rw [hshown fun h => h.1 herrors, herrors, houtput]
  rfl

/-- A program that fails with a line of blanks on its error stream and a reason in its output, which no message tells.
-/
theorem not_diagnosed_blank :
    let path := "/opt/bp".toList
    let ended : Ended := ⟨1, Text.encode "out\n".toList, Text.encode " \n".toList⟩
    ¬∃ error, (evaluate (.single path ended) path ⟨"5".toList, [], true⟩).result = .error (.refused error) ∧
      error.message = Text.coded (diagnosis (streamText ended.errors) (streamText ended.output) ended.status) := by
  intro path ended
  rintro ⟨error, hresult, hmessage⟩
  have hruns : Runs (.single path ended) path ⟨"5".toList, [], true⟩ path ended := ⟨rfl, rfl, by decide⟩
  have herrors : streamText ended.errors = " \n".toList := streamText_encode (by decide)
  have houtput : streamText ended.output = "out\n".toList := streamText_encode (by decide)
  have hhidden : Hidden (streamText ended.errors) (streamText ended.output) := by
    rw [herrors, houtput]
    exact ⟨by decide, by decide, by decide⟩
  rw [hruns.evaluate_eq.1, finished, if_pos (by decide)] at hresult
  cases hresult
  rw [message_stopReason_of_hidden hhidden, herrors, houtput] at hmessage
  exact absurd (Text.coded_inj.1 hmessage) (by decide)

end GuidedTour.Program
