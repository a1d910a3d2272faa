import GuidedTour.Proofs.Outcome.Fault
import Mathlib.Data.List.DropRight

/-!
# Results cut short and results with more behind them

No part of an output is taken for the whole. Where an interpreter understands an output, as a value or as a report, it
can read neither an output that is cut off earlier nor one that goes on (`Interpreter.unreadable_of_understands`).

What goes on behind a result is trailing text (`Outcome.SpellsOutcome.ofText_trailing`), and so no part of a result from
its start is one. Nor does such a part name a code past the last one, since the whole would break off at that code as
well (`Outcome.ResultBreaksOff.append`). The blanks at the end of a part are dropped before it is read, which leaves a
shorter part.
-/

set_option autoImplicit false

namespace GuidedTour

/-! ## Blanks at the ends -/

namespace Text

/-- A text without its last blanks is a part of it from its start. -/
theorem prefix_stripEnd (text : Text) : stripEnd text <+: text := List.rdropWhile_prefix isBlank text

/-- A text without blanks at its two ends begins with another character, if it begins with any. -/
theorem stripStart_of_strip {text : Text} (h : strip text = text) : stripStart text = text := by
  have hsuffix : stripStart text <:+ text := List.dropWhile_suffix isBlank
  have hle : text.length ≤ (stripStart text).length := by
    calc text.length = (strip text).length := by rw [h]
      _ ≤ (stripStart text).length := (prefix_stripEnd _).length_le
  exact hsuffix.eq_of_length_le hle

/-- Blanks are dropped from the start of a text exactly if it begins with one. -/
theorem stripStart_cons_iff {c : Char} {text : Text} : stripStart (c :: text) = c :: text ↔ isBlank c = false := by
  constructor
  · intro h
    have hhead := List.head?_dropWhile_not isBlank (c :: text)
    rw [show (c :: text).dropWhile isBlank = c :: text from h] at hhead
    exact hhead
  · intro h
    exact List.dropWhile_cons_of_neg (by simp [h])

/-- A part of a text that begins with no blank leaves a part of it when its blanks are dropped. -/
theorem prefix_strip {text start : Text} (h : strip text = text) (hstart : start <+: text) : strip start <+: start := by
  have hsame : stripStart start = start := by
    cases start with
    | nil => rfl
    | cons c start =>
      obtain ⟨rest, rfl⟩ := hstart
      exact stripStart_cons_iff.2 (stripStart_cons_iff.1 (stripStart_of_strip h))
  rw [strip, hsame]
  exact prefix_stripEnd start

/-- A text that is not all blanks is not dropped as a whole. -/
theorem stripEnd_ne_nil {text : Text} (h : ¬∀ c ∈ text, isBlank c = true) : stripEnd text ≠ [] := by
  intro hnil
  refine h fun c hc => ?_
  have hall := List.dropWhile_eq_nil_iff.1 (List.reverse_eq_nil_iff.1 hnil)
  exact hall c (List.mem_reverse.2 hc)

/-- What is not all blanks leaves something behind a text that begins with no blank. -/
theorem strip_append {text more : Text} (hne : text ≠ []) (h : strip text = text)
    (hmore : ¬∀ c ∈ more, isBlank c = true) : strip (text ++ more) = text ++ stripEnd more := by
  have hstart : stripStart (text ++ more) = text ++ more := by
    obtain ⟨c, text, rfl⟩ := List.exists_cons_of_ne_nil hne
    exact stripStart_cons_iff.2 (stripStart_cons_iff.1 (stripStart_of_strip h))
  have hleft : (stripStart more.reverse).isEmpty = false := by
    rw [Bool.eq_false_iff, Ne, List.isEmpty_iff]
    exact fun hnil => stripEnd_ne_nil hmore (List.reverse_eq_nil_iff.2 hnil)
  rw [strip, hstart, stripEnd, List.reverse_append, stripStart, List.dropWhile_append]
  rw [stripStart] at hleft
  simp [hleft, stripEnd, stripStart]

end Text

namespace Outcome

/-! ## Texts that go on -/

/-- A literal that breaks off does so whatever follows. -/
theorem StringBreaksOff.append {code : Nat} {literal : Text} (h : StringBreaksOff code literal) (more : Text) :
    StringBreaksOff code (literal ++ more) := by
  obtain ⟨rest, ⟨body, text, digits, left, hbody, hcode, hlast, rfl⟩, rfl⟩ := h
  refine ⟨body ++ codeEscape digits ++ left ++ more, ⟨body, text, digits, left ++ more, hbody, hcode, hlast, ?_⟩, rfl⟩
  exact List.append_assoc _ left more

/-- The insides of a closure that break off do so whatever follows. -/
theorem NestsBreaksOff.append {code depth : Nat} {rest : Text} (h : NestsBreaksOff code depth rest) (more : Text) :
    NestsBreaksOff code depth (rest ++ more) := by
  obtain ⟨inner, depth', literal, hinner, hliteral, rfl⟩ := h
  exact ⟨inner, depth', literal ++ more, hinner, hliteral.append more, List.append_assoc inner literal more⟩

mutual

/-- A value that breaks off does so whatever follows. -/
theorem ValueBreaksOff.append {code : Nat} {text : Text} (more : Text) :
    ValueBreaksOff code text → ValueBreaksOff code (text ++ more)
  | .called inside => List.append_assoc _ _ more ▸ .called (inside.append more)

/-- The insides of a value that break off do so whatever follows. -/
theorem InsideBreaksOff.append {code : Nat} {name rest : Text} (more : Text) :
    InsideBreaksOff code name rest → InsideBreaksOff code name (rest ++ more)
  | .string breaksOff => .string (breaksOff.append more)
  | .closure breaksOff => .closure (breaksOff.append more)
  | .tuple texts_items breaksOff =>
    List.append_assoc _ _ more ▸ .tuple texts_items (breaksOff.append more)

end

/-- A text that breaks off does so whatever follows. -/
theorem ResultBreaksOff.append {code : Nat} {text : Text} (h : ResultBreaksOff code text) (more : Text) :
    ResultBreaksOff code (text ++ more) := by
  cases h with
  | value breaksOff =>
    rw [List.append_assoc]
    exact .value (breaksOff.append more)
  | error breaksOff =>
    rw [List.append_assoc]
    exact .error (breaksOff.append more)

/-- No outcome is spelled by nothing. -/
theorem SpellsOutcome.ne_nil {text : Text} {outcome : Outcome} (h : SpellsOutcome text outcome) : text ≠ [] := by
  cases h <;> exact List.cons_ne_nil _ _

/-- What goes on behind a result is trailing text. -/
theorem SpellsOutcome.ofText_trailing {text : Text} {outcome : Outcome} (h : SpellsOutcome text outcome)
    {more : Text} (hmore : more ≠ []) : ofText (text ++ more) = .error (.unreadable .trailingText text.length) := by
  have hlength : text.length - 1 + 1 = text.length := Nat.sub_add_cancel (List.length_pos_iff.2 h.ne_nil)
  have hclosing : (Cursor.expect ⟨')' :: more, text.length - 1⟩ [')']).ending = .ok ⟨more, text.length - 1 + 1⟩ :=
    Cursor.expect_eq_ok_iff.2 ⟨rfl, rfl⟩
  have hend : (readEnd ⟨')' :: more, text.length - 1⟩).ending = .error (.unreadable .trailingText text.length) := by
    rw [readEnd, Course.ending_bind, hclosing, hlength]
    show Course.ending (if more.isEmpty then _ else _) = _
    rw [if_neg (by rwa [List.isEmpty_iff])]
    rfl
  rw [h.ofText_append, hend]
  rfl

/-- A proper part of a result from its start is unreadable. -/
theorem SpellsOutcome.ofText_cut {start rest : Text} {outcome : Outcome} (h : SpellsOutcome (start ++ rest) outcome)
    (hrest : rest ≠ []) : ∃ reason position, ofText start = .error (.unreadable reason position) := by
  cases hread : ofText start with
  | ok shorter =>
    have htrailing := (ofText_eq_ok_iff.1 hread).ofText_trailing hrest
    rw [ofText_eq_ok_iff.2 h] at htrailing
    cases htrailing
  | error e =>
    cases e with
    | unreadable reason position => exact ⟨reason, position, rfl⟩
    | noSuchCharacter code =>
      have hbreaks := ofText_eq_noSuchCharacter_iff.2 ((ofText_eq_noSuchCharacter_iff.1 hread).append rest)
      rw [ofText_eq_ok_iff.2 h] at hbreaks
      cases hbreaks

end Outcome

namespace Interpreter

/-- An output is understood: a value is shown for it, or an error that it reports. -/
def Understands (output : Text) : Prop :=
  (∃ shown, resultOf output = .ok shown) ∨ ∃ report, resultOf output = .error (.refused (.reported report))

/-- The outputs that are understood are those that spell an outcome. -/
theorem understands_iff {output : Text} :
    Understands output ↔ ∃ outcome, Outcome.SpellsOutcome (Text.strip output) outcome := by
  have hread (outcome : Outcome) :
      Outcome.read output = .ok outcome ↔ Outcome.SpellsOutcome (Text.strip output) outcome :=
    Outcome.ofText_eq_ok_iff
  simp only [← hread]
  unfold Understands resultOf
  cases Outcome.read output with
  | ok outcome =>
    cases outcome with
    | value value => simp
    | error report => simp
  | error e =>
    cases e with
    | unreadable reason position => simp
    | noSuchCharacter code => simp

/-- An output that the reader gives up at a place is refused with the reason, the place and the output. -/
theorem resultOf_unreadable {output : Text} {reason : Outcome.Reason} {position : Nat}
    (h : Outcome.ofText (Text.strip output) = .error (.unreadable reason position)) :
    resultOf output = .error (.refused (.unreadable reason position (Text.strip output))) := by
  rw [resultOf, Outcome.read, h]

/-- A proper part of an understood output from its start is unreadable. -/
theorem unreadable_of_shorter {text start : Text} (hstrip : Text.strip text = text) (h : Understands text)
    (hstart : start <+: text) (hne : start ≠ text) : ∃ reason position,
      resultOf start = .error (.refused (.unreadable reason position (Text.strip start))) := by
  obtain ⟨outcome, hspells⟩ := understands_iff.1 h
  obtain ⟨rest, hrest⟩ := (Text.prefix_strip hstrip hstart).trans hstart
  have hshorter : rest ≠ [] := by
    rintro rfl
    rw [List.append_nil] at hrest
    have hle := (Text.prefix_strip hstrip hstart).length_le
    rw [hrest] at hle
    exact hne (hstart.eq_of_length_le hle)
  rw [hstrip, ← hrest] at hspells
  obtain ⟨reason, position, hread⟩ := hspells.ofText_cut hshorter
  exact ⟨reason, position, resultOf_unreadable hread⟩

/-- An interpreter that understands an output finds every shorter part of it from its start unreadable, and trailing
text in whatever is not all blanks behind it. So no understood output is part of another from its start. -/
theorem unreadable_of_understands {text : Text} (hstrip : Text.strip text = text) (h : Understands text) :
    (∀ start, start <+: text → start ≠ text → ∃ reason position,
      resultOf start = .error (.refused (.unreadable reason position (Text.strip start)))) ∧
    (∀ more, (¬∀ c ∈ more, Text.isBlank c = true) → resultOf (text ++ more) =
      .error (.refused (.unreadable .trailingText text.length (Text.strip (text ++ more))))) ∧
    ∀ other, Text.strip other = other → Understands other → text <+: other → text = other := by
  refine ⟨fun start => unreadable_of_shorter hstrip h, fun more hmore => ?_, fun other hother hlonger hprefix => ?_⟩
  · obtain ⟨outcome, hspells⟩ := understands_iff.1 h
    rw [hstrip] at hspells
    refine resultOf_unreadable ?_
    rw [Text.strip_append hspells.ne_nil hstrip hmore]
    exact hspells.ofText_trailing (Text.stripEnd_ne_nil hmore)
  · by_contra hne
    obtain ⟨reason, position, hunreadable⟩ := unreadable_of_shorter hother hlonger hprefix hne
    rcases h with ⟨shown, h⟩ | ⟨report, h⟩
    · rw [h] at hunreadable
      cases hunreadable
    · rw [h] at hunreadable
      cases hunreadable

/-- A report of two words is unreadable without the second one, and with a further parenthesis in another line. -/
theorem unreadable_of_understands_report :
    let text := "Err(\"a b\")".toList
    (Text.strip text = text ∧ Understands text) ∧
      (∃ reason position, resultOf "Err(\"a ".toList =
        .error (.refused (.unreadable reason position "Err(\"a".toList))) ∧
      resultOf "Err(\"a b\")\n)".toList =
        .error (.refused (.unreadable .trailingText 10 "Err(\"a b\")\n)".toList)) := by
  intro text
  have hstrip : Text.strip text = text := by decide
  have hbody : Outcome.SpellsBody "a b".toList (Text.coded "a b".toList) := Outcome.spellsBody_coded (by simp)
  have hunderstands : Understands text := by
    rw [understands_iff, hstrip]
    exact ⟨.error (Text.coded "a b".toList), .error ⟨"a b".toList, hbody, rfl⟩⟩
  obtain ⟨hcut, hmore, -⟩ := unreadable_of_understands hstrip hunderstands
  refine ⟨⟨hstrip, hunderstands⟩, ?_, ?_⟩
  · exact hcut "Err(\"a ".toList (by decide) (by decide)
  · exact hmore "\n)".toList fun hblank => absurd (hblank ')' (by simp)) (by decide)

end Interpreter

end GuidedTour
