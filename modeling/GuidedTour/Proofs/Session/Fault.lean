import GuidedTour.Interpreter.Program
import GuidedTour.Proofs.Outcome.Fault
import GuidedTour.Proofs.Text.Utf8
import GuidedTour.Session.Basic

/-!
# Runs that end in a fault

A call of an interpreter is answered if it ends with a text or with one of the interpreter's own errors
(`Failure.Answered`), and a session records every call that is answered. Calls of a program are answered on
every system and whatever the program does, with one exception: it ends well, and its output breaks off at a code
past the last one (`Program.BreaksOff`). `Program.answered_unless_breaksOff` says so for the output, for the call
and for the session.
-/

set_option autoImplicit false

namespace GuidedTour

/-! ## Answers -/

/-- A call is answered by a text or by one of the errors that are told to the reader of the tour. -/
def Failure.Answered (result : Except Failure CodeText) : Prop :=
  (∃ text, result = .ok text) ∨ ∃ error, result = .error (.refused error)

/-- A call is answered unless it ends in a fault. -/
theorem Failure.answered_iff {result : Except Failure CodeText} :
    Answered result ↔ ∀ fault, result ≠ .error (.fault fault) := by
  unfold Answered
  constructor
  · rintro (⟨text, rfl⟩ | ⟨error, rfl⟩) fault h
    · cases h
    · cases h
  · intro h
    cases result with
    | ok text => exact .inl ⟨text, rfl⟩
    | error failure =>
      cases failure with
      | refused error => exact .inr ⟨error, rfl⟩
      | fault fault => exact absurd rfl (h fault)

/-- An output is answered unless it breaks off. -/
theorem Interpreter.answered_resultOf_iff {output : Text} :
    Failure.Answered (resultOf output) ↔ ∀ code, ¬Outcome.ResultBreaksOff code (Text.strip output) := by
  rw [Failure.answered_iff]
  constructor
  · intro h code hbreaks
    exact h _ (resultOf_eq_fault_iff.2 ⟨code, rfl, hbreaks⟩)
  · intro h fault hfault
    obtain ⟨code, -, hbreaks⟩ := resultOf_eq_fault_iff.1 hfault
    exact h code hbreaks

/-! ## Programs -/

namespace Program

/-- A text that is printed in UTF-8 is read back as it is, if it has no carriage returns. -/
theorem streamText_encode {text : Text} (h : '\r' ∉ text) : streamText (Text.encode text) = text := by
  rw [streamText, Text.decodeLenient_of_decode? (Text.decode?_encode text), Text.unifyLineEnds_of_notMem h]

/-- On a system, the program for a call is found, starts, ends with status zero, and prints a result that breaks off. -/
def BreaksOff (code : Nat) (system : System) (executable : Text) (call : Call) : Prop :=
  ∃ path ended, system.locate? executable = some path ∧
    system.start ⟨command path system.file call, call.source⟩ = .ok ended ∧ ended.status = 0 ∧
    Outcome.ResultBreaksOff code (Text.strip (streamText ended.output))

/-- No part of a command holds NUL if no argument does that is handed over. -/
theorem command_any_nul {path file : Text} {call : Call} (hpath : '\x00' ∉ path) (hfile : '\x00' ∉ file)
    (harguments : call.verbose = true → ∀ argument ∈ call.arguments, '\x00' ∉ argument) :
    (command path file call).any (·.contains '\x00') = false := by
  have hwords : ∀ word ∈ command path file call, '\x00' ∉ word := by
    unfold command
    intro word hword
    split at hword
    · rename_i hverbose
      simp only [List.mem_cons] at hword
      rcases hword with rfl | rfl | rfl | hword
      · exact hpath
      · decide
      · exact hfile
      · exact harguments hverbose word hword
    · simp only [List.mem_cons, List.not_mem_nil, or_false] at hword
      rcases hword with rfl | rfl | rfl
      · exact hpath
      · decide
      · exact hfile
  rw [List.any_eq_false]
  intro word hword
  rw [List.contains_iff_mem]
  exact hwords word hword

/-- A program that has ended is answered unless it ended well with a result that breaks off. -/
theorem answered_finished_iff {ended : Ended} :
    Failure.Answered (finished ended) ↔
      ∀ code, ¬(ended.status = 0 ∧ Outcome.ResultBreaksOff code (Text.strip (streamText ended.output))) := by
  unfold finished
  split
  · rename_i hstatus
    constructor
    · intro _ code h
      exact hstatus h.1
    · intro _
      exact .inr ⟨_, rfl⟩
  · rename_i hstatus
    have hzero : ended.status = 0 := Decidable.not_not.1 hstatus
    rw [Interpreter.answered_resultOf_iff]
    constructor
    · intro h code hbreaks
      exact h code hbreaks.2
    · intro h code hbreaks
      exact h code ⟨hzero, hbreaks⟩

/-- A call with arguments that can be handed over is answered unless the program breaks off. -/
theorem answered_evaluate_iff {system : System} {executable : Text} {call : Call}
    (harguments : ∀ argument ∈ call.arguments, '\x00' ∉ argument) :
    Failure.Answered (evaluate system executable call).result ↔
      ∀ code, ¬BreaksOff code system executable call := by
  unfold evaluate BreaksOff
  cases hlocate : system.locate? executable with
  | none =>
    constructor
    · rintro - code ⟨path, ended, h, -⟩
      cases h
    · intro _
      exact .inr ⟨_, rfl⟩
  | some path =>
    simp only [command_any_nul (system.locate?_nul hlocate) system.file_nul fun _ => harguments]
    cases hstart : system.start ⟨command path system.file call, call.source⟩ with
    | error words =>
      constructor
      · rintro - code ⟨path', ended, h, hstarted, -⟩
        cases h
        rw [hstart] at hstarted
        cases hstarted
      · intro _
        exact .inr ⟨_, rfl⟩
    | ok ended =>
      show Failure.Answered (finished ended) ↔ _
      rw [answered_finished_iff]
      constructor
      · rintro h code ⟨path', ended', he, hstarted, hbreaks⟩
        cases he
        rw [hstart] at hstarted
        cases hstarted
        exact h code hbreaks
      · intro h code hbreaks
        exact h code ⟨path, ended, rfl, hstart, hbreaks⟩

end Program

/-! ## Sessions -/

/-- A session records its run: as completed with the text that the call came to, or as failed with the words
of its error. -/
def Session.Records (session : Session) (interpreter : Interpreter) (count : Nat) : Prop :=
  (session.run interpreter count).fault = none ∧
    ((∃ output, (interpreter count session.call).result = .ok output ∧
        (session.run interpreter count).session = session.complete output) ∨
      ∃ error, (interpreter count session.call).result = .error (.refused error) ∧
        (session.run interpreter count).session = session.fail error.message)

/-- A run is recorded if its call is answered; otherwise the fault is handed on and the session stays as it
was. -/
theorem Session.run_cases (session : Session) (interpreter : Interpreter) (count : Nat) :
    (Failure.Answered (interpreter count session.call).result ∧ session.Records interpreter count) ∨
    ∃ fault, (interpreter count session.call).result = .error (.fault fault) ∧
      (session.run interpreter count).fault = some fault ∧
      (session.run interpreter count).session = session := by
  unfold Records run
  simp only
  cases hresult : (interpreter count session.call).result with
  | ok output => exact .inl ⟨.inl ⟨output, rfl⟩, rfl, .inl ⟨output, rfl, rfl⟩⟩
  | error failure =>
    cases failure with
    | refused error => exact .inl ⟨.inr ⟨error, rfl⟩, rfl, .inr ⟨error, rfl, rfl⟩⟩
    | fault fault => exact .inr ⟨fault, rfl, rfl, rfl⟩

/-- A session records its run exactly if the call is answered. -/
theorem Session.records_iff {session : Session} {interpreter : Interpreter} {count : Nat} :
    session.Records interpreter count ↔ Failure.Answered (interpreter count session.call).result := by
  obtain ⟨hanswered, hrecords⟩ | ⟨fault, hresult, hfault, -⟩ := session.run_cases interpreter count
  · exact iff_of_true hrecords hanswered
  · refine iff_of_false ?_ ?_
    · intro h
      rw [h.1] at hfault
      cases hfault
    · intro h
      exact Failure.answered_iff.1 h fault hresult

/-! ## When everything is answered -/

/-- An output is answered unless it breaks off, and so is a call of a program on any system if its arguments can be
handed over, and a session records its run whatever system it meets. Whatever else the program does, there is a text
or an error of the interpreter. -/
theorem Program.answered_unless_breaksOff (system : System) (executable : Text) (call : Call)
    (harguments : ∀ argument ∈ call.arguments, '\x00' ∉ argument) :
    (∀ output, Failure.Answered (Interpreter.resultOf output) ↔
      ∀ code, ¬Outcome.ResultBreaksOff code (Text.strip output)) ∧
    (Failure.Answered (evaluate system executable call).result ↔
      ∀ code, ¬BreaksOff code system executable call) ∧
    ∀ (session : Session) (systems : Nat → System) (count : Nat),
      (session.Records (.ofProgram systems executable) count ↔
        ∀ code, ¬BreaksOff code (systems count) executable session.call) := by
  refine ⟨fun output => Interpreter.answered_resultOf_iff, answered_evaluate_iff harguments, ?_⟩
  intro session systems count
  rw [Session.records_iff]
  exact answered_evaluate_iff (fun argument hargument => absurd hargument List.not_mem_nil)

/-! ## A program that is not answered -/

/-- A result whose only literal names the code behind the last one. -/
def Outcome.pastLast : Text := "Ok(String(\"\\u\x7b110000\x7d\"))".toList

/-- A program that ends well after printing this result. -/
def Program.pastLast : Ended := ⟨0, Text.encode Outcome.pastLast, []⟩

/-- A system on which there is one program, which is asked for by its path and always ends in the same way. -/
def System.single (path : Text) (ended : Program.Ended) : System where
  locate? executable := if executable = path ∧ '\x00' ∉ path then some path else none
  locate?_nul := by
    intro executable found h
    split at h
    · rename_i hpath
      cases h
      exact hpath.2
    · cases h
  file := "/tmp/tour.bp".toList
  file_nul := by decide
  start _ := .ok ended

/-- The result breaks off at the code behind the last one. -/
theorem Outcome.resultBreaksOff_pastLast : ResultBreaksOff 0x110000 pastLast := by
  have hcode : IsCode "110000".toList 0x110000 :=
    ⟨by decide, List.all_eq_true.1 (show "110000".toList.all isHex = true from rfl), rfl⟩
  exact .value (.called (.string ⟨_, ⟨[], [], _, "\"))".toList, .nil, hcode, by decide, rfl⟩, rfl⟩))

/-- The result is not answered. -/
theorem Interpreter.not_answered_pastLast : ¬Failure.Answered (resultOf Outcome.pastLast) := by
  have hstrip : Text.strip Outcome.pastLast = Outcome.pastLast := rfl
  rw [answered_resultOf_iff, hstrip]
  intro h
  exact h _ Outcome.resultBreaksOff_pastLast

/-- Whatever is called, a system with this program alone breaks off. -/
theorem Program.breaksOff_pastLast (call : Call) :
    BreaksOff 0x110000 (.single "/opt/bp".toList pastLast) "/opt/bp".toList call := by
  have hstream : streamText pastLast.output = Outcome.pastLast := streamText_encode (by decide)
  refine ⟨"/opt/bp".toList, pastLast, rfl, rfl, rfl, ?_⟩
  rw [hstream]
  exact Outcome.resultBreaksOff_pastLast

/-- With one argument, neither the call of the program by its path nor a session that runs it is answered. -/
theorem Program.unanswered_pastLast :
    (∀ argument ∈ [['a']], '\x00' ∉ argument) ∧
    ¬Failure.Answered (evaluate (.single "/opt/bp".toList pastLast) "/opt/bp".toList ⟨[], [['a']], true⟩).result ∧
    ∀ (session : Session) (count : Nat),
      ¬session.Records (.ofProgram (fun _ => .single "/opt/bp".toList pastLast) "/opt/bp".toList) count := by
  have harguments : ∀ argument ∈ [['a']], '\x00' ∉ argument := by decide
  obtain ⟨-, hcall, hsession⟩ := answered_unless_breaksOff (.single "/opt/bp".toList pastLast) "/opt/bp".toList
    ⟨[], [['a']], true⟩ harguments
  refine ⟨harguments, ?_, ?_⟩
  · intro h
    exact hcall.1 h _ (breaksOff_pastLast _)
  · intro session count h
    exact (hsession session (fun _ => .single "/opt/bp".toList pastLast) count).1 h _ (breaksOff_pastLast _)

end GuidedTour
