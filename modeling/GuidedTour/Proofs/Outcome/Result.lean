import GuidedTour.Interpreter.Basic
import GuidedTour.Proofs.Outcome.Grammar

/-!
# Printed results

A printed result is `Ok` around a value or `Err` around a string (`SpellsOutcome`), and the reader of results
takes nothing else (`Outcome.ofText_eq_ok_iff`). What a value is shown as is told apart from the reader and from
the display (`Shows`). From this follows what an interpreter makes of its output: what the value is shown as, the
report of the error, or no answer to any other text (`Interpreter.resultOf_grammar`).
-/

set_option autoImplicit false

namespace GuidedTour

namespace Outcome

/-- A text spells the outcome of a run. -/
inductive SpellsOutcome : Text → Outcome → Prop where
  | value {spelling : Text} {value : Value} (spelling_value : SpellsValue spelling value) :
      SpellsOutcome ("Ok".toList ++ '(' :: spelling ++ [')']) (.value value)
  | error {literal : Text} {report : CodeText} (literal_report : SpellsString literal report) :
      SpellsOutcome ("Err".toList ++ '(' :: literal ++ [')']) (.error report)

/-- Both verdicts are names. -/
theorem isName_verdict {verdict : Text} (h : verdict = "Ok".toList ∨ verdict = "Err".toList) :
    IsName verdict := by
  rcases h with rfl | rfl
  · exact isName_of_all (by decide) rfl
  · exact isName_of_all (by decide) rfl

/-- The end of a result is a closing parenthesis and nothing behind it. -/
theorem readEnd_eq_ok_iff {cursor : Cursor} :
    (readEnd cursor).ending = .ok () ↔ cursor.rest = [')'] := by
  unfold readEnd
  rw [Course.bind_eq_ok_iff]
  constructor
  · rintro ⟨closed, hclose, h⟩
    have hclosing := Cursor.expect_eq_ok_iff.1 hclose
    split at h
    · rename_i hnil
      rw [hclosing.1, List.isEmpty_iff.1 hnil]
      rfl
    · cases h
  · intro h
    exact ⟨⟨[], cursor.position + 1⟩, Cursor.expect_eq_ok_iff.2 ⟨h, rfl⟩, rfl⟩

/-- Behind the first verdict a value is read and nothing else. -/
theorem readVerdict_ok_eq_ok_iff {fuel : Nat} {opened behind : Cursor} {left : Text} {outcome : Outcome}
    (hlen : opened.rest.length ≤ fuel) (hbehind : behind.rest = ')' :: left) :
    (readVerdict fuel "Ok".toList opened).ending = .ok (outcome, behind) ↔
      ∃ spelling value, SpellsValue spelling value ∧ opened.Passes spelling behind ∧
        outcome = .value value := by
  have hhalts : Halts Char.isAlpha behind.rest := by
    rw [hbehind]
    exact halts_cons rfl
  unfold readVerdict
  rw [if_pos rfl, Course.bind_eq_ok_iff]
  constructor
  · rintro ⟨⟨value, end'⟩, hread, he⟩
    cases he
    obtain ⟨spelling, hvalue, -, hpasses⟩ := (readValue_eq_ok_iff hlen).1 hread
    exact ⟨spelling, value, hvalue, hpasses, rfl⟩
  · rintro ⟨spelling, value, hvalue, hpasses, rfl⟩
    exact ⟨(value, behind), (readValue_eq_ok_iff hlen).2 ⟨spelling, hvalue, fun _ => hhalts, hpasses⟩, rfl⟩

/-- Behind the second verdict a string is read and nothing else. -/
theorem readVerdict_err_eq_ok_iff {fuel : Nat} {opened behind : Cursor} {outcome : Outcome} :
    (readVerdict fuel "Err".toList opened).ending = .ok (outcome, behind) ↔
      ∃ literal report, SpellsString literal report ∧ opened.Passes literal behind ∧
        outcome = .error report := by
  unfold readVerdict
  rw [if_neg (by decide), Course.bind_eq_ok_iff]
  constructor
  · rintro ⟨⟨report, end'⟩, hread, he⟩
    cases he
    obtain ⟨literal, hliteral, hpasses⟩ := readString_eq_ok_iff.1 hread
    exact ⟨literal, report, hliteral, hpasses, rfl⟩
  · rintro ⟨literal, report, hliteral, hpasses, rfl⟩
    exact ⟨(report, behind), readString_eq_ok_iff.2 ⟨literal, hliteral, hpasses⟩, rfl⟩

/-- What stands behind a verdict and an opening parenthesis: what the verdict stands around, and then the end. -/
def courseBehind (fuel : Nat) (verdict : Text) (opened : Cursor) : Course Outcome := do
  let (outcome, cursor) ← readVerdict fuel verdict opened
  readEnd cursor
  return outcome

/-- A verdict and an opening parenthesis are read as such, and then what stands behind them. -/
theorem ofText_verdict {verdict : Text} (hknown : verdict = "Ok".toList ∨ verdict = "Err".toList) (rest : Text) :
    ofText (verdict ++ '(' :: rest) =
      (courseBehind (verdict ++ '(' :: rest).length verdict ⟨rest, verdict.length + 1⟩).ending := by
  have hnamed : Cursor.Passes ⟨verdict ++ '(' :: rest, 0⟩ verdict ⟨'(' :: rest, 0 + verdict.length⟩ :=
    ⟨rfl, rfl⟩
  have hopening : Cursor.Passes ⟨'(' :: rest, 0 + verdict.length⟩ ['('] ⟨rest, 0 + verdict.length + 1⟩ :=
    ⟨rfl, rfl⟩
  have hstop : Halts Char.isAlpha ('(' :: rest) := halts_cons rfl
  have hverdict : (Cursor.lexical ⟨verdict ++ '(' :: rest, 0⟩ name? .expectedVerdict).ending =
      .ok (verdict, ⟨'(' :: rest, 0 + verdict.length⟩) :=
    lexical_name_eq_ok_iff.2 ⟨⟨isName_verdict hknown, hstop⟩, hnamed⟩
  have hopen := Cursor.expect_eq_ok_iff.2 hopening
  rw [ofText, courseOf, Course.ending_bind, hverdict]
  show Course.ending (if _ then _ else _) = _
  rw [if_neg (fun h => hknown.elim h.1 h.2), Course.ending_bind, hopen, Nat.zero_add]
  rfl

/-- Where what a verdict stands around is read, the rest is up to the end of the result. -/
theorem courseBehind_ending {fuel : Nat} {verdict : Text} {opened behind : Cursor} {outcome : Outcome}
    (h : (readVerdict fuel verdict opened).ending = .ok (outcome, behind)) :
    (courseBehind fuel verdict opened).ending = (fun _ => outcome) <$> (readEnd behind).ending := by
  rw [courseBehind, Course.ending_bind, h]
  show (readEnd behind >>= fun _ => pure outcome).ending = _
  rw [Course.ending_bind]
  cases (readEnd behind).ending with
  | ok _ => rfl
  | error e => rfl

/-- A spelled outcome is read up to its closing parenthesis, whatever follows it. -/
theorem SpellsOutcome.ofText_append {text : Text} {outcome : Outcome} (h : SpellsOutcome text outcome)
    (more : Text) :
    ofText (text ++ more) = (fun _ => outcome) <$> (readEnd ⟨')' :: more, text.length - 1⟩).ending := by
  have hcut (verdict inside : Text) :
      verdict ++ '(' :: inside ++ [')'] ++ more = verdict ++ '(' :: (inside ++ ')' :: more) := by simp
  have hend (verdict inside : Text) :
      (verdict ++ '(' :: inside ++ [')']).length - 1 = verdict.length + 1 + inside.length := by
    simp
    omega
  cases h with
  | @value spelling value hvalue =>
    have hread (fuel position : Nat) (hlen : (spelling ++ ')' :: more).length ≤ fuel) :
        (readVerdict fuel "Ok".toList ⟨spelling ++ ')' :: more, position⟩).ending =
          .ok (.value value, ⟨')' :: more, position + spelling.length⟩) :=
      (readVerdict_ok_eq_ok_iff hlen rfl).2 ⟨spelling, value, hvalue, ⟨rfl, rfl⟩, rfl⟩
    rw [hcut, hend, ofText_verdict (.inl rfl)]
    refine courseBehind_ending (hread _ _ ?_)
    exact ((List.suffix_cons '(' _).trans (List.suffix_append "Ok".toList _)).length_le
  | @error literal report hliteral =>
    have hread (fuel position : Nat) :
        (readVerdict fuel "Err".toList ⟨literal ++ ')' :: more, position⟩).ending =
          .ok (.error report, ⟨')' :: more, position + literal.length⟩) :=
      readVerdict_err_eq_ok_iff.2 ⟨literal, report, hliteral, ⟨rfl, rfl⟩, rfl⟩
    rw [hcut, hend, ofText_verdict (.inr rfl)]
    exact courseBehind_ending (hread _ _)

/-- The reader of results takes a printed result and nothing else. -/
theorem ofText_eq_ok_iff {text : Text} {outcome : Outcome} :
    ofText text = .ok outcome ↔ SpellsOutcome text outcome := by
  constructor
  · intro h
    obtain ⟨⟨verdict, named⟩, hread, h⟩ := Course.bind_eq_ok_iff.1 h
    obtain ⟨-, hnamed⟩ := lexical_name_eq_ok_iff.1 hread
    simp only at h
    split at h
    · cases h
    · rename_i hverdict
      obtain ⟨opened, hopen, h⟩ := Course.bind_eq_ok_iff.1 h
      obtain ⟨⟨outcome', behind⟩, hinside, h⟩ := Course.bind_eq_ok_iff.1 h
      obtain ⟨⟨⟩, hend, he⟩ := Course.bind_eq_ok_iff.1 h
      cases he
      have hopening := Cursor.expect_eq_ok_iff.1 hopen
      have hclosing := readEnd_eq_ok_iff.1 hend
      have hlength : opened.rest.length ≤ text.length :=
        Nat.le_trans hopening.length_le hnamed.length_le
      have htext {inside : Text} (hpasses : opened.Passes inside behind) :
          text = verdict ++ '(' :: inside ++ [')'] := by
        have hrest : text = verdict ++ named.rest := hnamed.1
        rw [hrest, hopening.1, hpasses.1, hclosing]
        simp
      by_cases hok : verdict = "Ok".toList
      · subst hok
        obtain ⟨spelling, value, hvalue, hpasses, rfl⟩ :=
          (readVerdict_ok_eq_ok_iff hlength hclosing).1 hinside
        rw [htext hpasses]
        exact .value hvalue
      · have herr : verdict = "Err".toList := Decidable.byContradiction fun herr => hverdict ⟨hok, herr⟩
        subst herr
        obtain ⟨literal, report, hliteral, hpasses, rfl⟩ := readVerdict_err_eq_ok_iff.1 hinside
        rw [htext hpasses]
        exact .error hliteral
  · intro h
    have hread := h.ofText_append []
    rwa [List.append_nil, readEnd_eq_ok_iff.2 rfl] at hread

/-! ## What is shown -/

mutual

/-- A text shows a value: an integer by the digits it was printed with, a float by its plain decimal, a truth by its
word, a string by itself, a tuple by what shows its items, with blanks between them and in parentheses, and the two
kinds of values that are not looked into by a word each. -/
inductive Shows : Value → CodeText → Prop where
  | integer (digits : Text) : Shows (.integer digits) (Text.coded digits)
  | float (number : Double) : Shows (.float number) (Text.coded (displayFloat number))
  | true : Shows (.boolean true) (Text.coded "true".toList)
  | false : Shows (.boolean false) (Text.coded "false".toList)
  | string (text : CodeText) : Shows (.string text) text
  | tuple {items : List Value} {texts : List CodeText} (items_texts : ShowsAll items texts) :
      Shows (.tuple items)
        (Text.coded ['('] ++ List.intercalate (Text.coded [' ']) texts ++ Text.coded [')'])
  | closure : Shows .closure (Text.coded "<closure>".toList)
  | runtimeInvocation : Shows .runtimeInvocation (Text.coded "<runtime invocation>".toList)

/-- Some texts show some values, each its own. -/
inductive ShowsAll : List Value → List CodeText → Prop where
  | nil : ShowsAll [] []
  | cons {value : Value} {text : CodeText} {values : List Value} {texts : List CodeText}
      (first : Shows value text) (more : ShowsAll values texts) : ShowsAll (value :: values) (text :: texts)

end

mutual

/-- What shows a value is its display. -/
theorem Shows.display_eq {value : Value} {text : CodeText} : Shows value text → value.display = text
  | .integer _ => rfl
  | .float _ => rfl
  | .true => rfl
  | .false => rfl
  | .string _ => rfl
  | .tuple items_texts => congrArg (fun texts => _ :: List.intercalate _ texts ++ _) items_texts.displayAll_eq
  | .closure => rfl
  | .runtimeInvocation => rfl

/-- What shows some values are their displays. -/
theorem ShowsAll.displayAll_eq {values : List Value} {texts : List CodeText} :
    ShowsAll values texts → Value.displayAll values = texts
  | .nil => rfl
  | .cons first more => congrArg₂ List.cons first.display_eq more.displayAll_eq

end

mutual

/-- The display of a value shows it. -/
theorem shows_display : ∀ value : Value, Shows value value.display
  | .integer digits => .integer digits
  | .float number => .float number
  | .boolean true => .true
  | .boolean false => .false
  | .string text => .string text
  | .tuple items => .tuple (showsAll_displayAll items)
  | .closure => .closure
  | .runtimeInvocation => .runtimeInvocation

/-- The displays of some values show them. -/
theorem showsAll_displayAll : ∀ values : List Value, ShowsAll values (Value.displayAll values)
  | [] => .nil
  | first :: more => .cons (shows_display first) (showsAll_displayAll more)

end

/-- A value is shown by its display and by nothing else. -/
theorem shows_iff {value : Value} {text : CodeText} : Shows value text ↔ value.display = text :=
  ⟨Shows.display_eq, fun h => h ▸ shows_display value⟩

end Outcome

/-- What an interpreter makes of its output, without the blanks at the ends. It comes to a text for the outputs that
spell a value which the text shows and for no others, it reports an error with a message for the outputs that spell an
error with this report and for no others, and every other output is unreadable at a place or names a code past the last
one. -/
theorem Interpreter.resultOf_grammar (output : Text) :
    (∀ shown, resultOf output = .ok shown ↔
      ∃ value : Outcome.Value, Outcome.SpellsOutcome (Text.strip output) (.value value) ∧
        Outcome.Shows value shown) ∧
    (∀ message, (∃ report, resultOf output = .error (.refused (.reported report)) ∧
        (InterpreterError.reported report).message = message) ↔
      Outcome.SpellsOutcome (Text.strip output) (.error message)) ∧
    ((∃ outcome, Outcome.SpellsOutcome (Text.strip output) outcome) ∨
      (∃ reason position,
        resultOf output = .error (.refused (.unreadable reason position (Text.strip output)))) ∨
      ∃ code, resultOf output = .error (.fault (.noSuchCharacter code))) := by
  have hread (outcome : Outcome) :
      Outcome.read output = .ok outcome ↔ Outcome.SpellsOutcome (Text.strip output) outcome :=
    Outcome.ofText_eq_ok_iff
  simp only [← hread, Outcome.shows_iff]
  unfold resultOf
  cases Outcome.read output with
  | ok outcome =>
    cases outcome with
    | value value => simp
    | error report => simp [InterpreterError.message]
  | error e =>
    cases e with
    | unreadable reason position => simp
    | noSuchCharacter code => simp

end GuidedTour
