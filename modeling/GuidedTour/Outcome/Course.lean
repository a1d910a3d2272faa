import GuidedTour.Text.Quoted

/-!
# Courses of reading

A reader goes through its text by positions and comes to a result or gives up. Its course (`Course`) is all of that:
the positions in order, and the ending. Courses are put one behind another as computations that may fail are, and what
a reader comes to does not depend on the positions (`Course.ending_bind`).
-/

set_option autoImplicit false

namespace GuidedTour.Outcome

/-- Why a text is no printed result. -/
inductive Reason where
  | expectedVerdict
  | unknownVerdict (name : Text)
  | expectedValue
  | unknownValue (name : Text)
  | expectedText (text : Text)
  | expectedInteger
  | expectedFloat
  | expectedBoolean
  | expectedCode
  | unknownEscape (escape : Option Char)
  | unterminatedString
  | unterminatedClosure
  | trailingText
deriving DecidableEq, Repr, Inhabited

/-- The words for a reason. -/
def Reason.words : Reason → Text
  | expectedVerdict => "expected Ok or Err".toList
  | unknownVerdict name => "expected Ok or Err, found ".toList ++ Text.quoted name
  | expectedValue => "expected a value".toList
  | unknownValue name => "unknown value ".toList ++ Text.quoted name
  | expectedText text => "expected ".toList ++ Text.quoted text
  | expectedInteger => "expected an integer".toList
  | expectedFloat => "expected a float".toList
  | expectedBoolean => "expected a boolean".toList
  | expectedCode => "expected a unicode escape".toList
  | unknownEscape escape => "unknown escape \\".toList ++ escape.toList
  | unterminatedString => "unterminated string".toList
  | unterminatedClosure => "unterminated closure".toList
  | trailingText => "unexpected trailing text".toList

/-- How reading fails: the text is unreadable at a place, or it names a code point past the last one. -/
inductive ReadError where
  | unreadable (reason : Reason) (position : Nat)
  | noSuchCharacter (code : Nat)
deriving DecidableEq, Repr, Inhabited

/-- A course of reading: the positions that a reader comes to, in order, and how it ends. -/
structure Course (α : Type) where
  positions : List Nat
  ending : Except ReadError α

namespace Course

variable {α β : Type}

/-- A reader gives up where it is. -/
def stop (e : ReadError) : Course α := ⟨[], .error e⟩

/-- A reader moves to a position, with a result. -/
def reach (position : Nat) (a : α) : Course α := ⟨[position], .ok a⟩

/-- A course behind some further positions. -/
def passing (positions : List Nat) (course : Course α) : Course α := ⟨positions ++ course.positions, course.ending⟩

instance : Monad Course where
  pure a := ⟨[], .ok a⟩
  map f course := ⟨course.positions, f <$> course.ending⟩
  bind course next :=
    match course.ending with
    | .ok a => (next a).passing course.positions
    | .error e => ⟨course.positions, .error e⟩

/-- The position that a course from a start leads to. -/
def last (start : Nat) (course : Course α) : Nat := course.positions.getLastD start

/-! ## Endings -/

/-- A course that stops ends with its error. -/
@[simp] theorem ending_stop (e : ReadError) : (stop e : Course α).ending = .error e := rfl

/-- A course that has got to a place ends with its result. -/
@[simp] theorem ending_reach (position : Nat) (a : α) : (reach position a).ending = .ok a := rfl

/-- Passing more places first changes nothing about the end. -/
@[simp] theorem ending_passing (positions : List Nat) (course : Course α) :
    (course.passing positions).ending = course.ending := rfl

/-- A course of no steps ends with its result. -/
@[simp] theorem ending_pure (a : α) : (pure a : Course α).ending = .ok a := rfl

/-- What is done to a result is done at the end. -/
@[simp] theorem ending_map (f : α → β) (course : Course α) : (f <$> course).ending = f <$> course.ending := rfl

/-- A course behind another ends as computations do that may fail. -/
theorem ending_bind (course : Course α) (next : α → Course β) :
    (course >>= next).ending = course.ending >>= fun a => (next a).ending := by
  obtain ⟨positions, ending⟩ := course
  cases ending with
  | ok a => rfl
  | error e => rfl

/-- Two courses come to a result exactly where the first one comes to one from which the second does. -/
theorem bind_eq_ok_iff {course : Course α} {next : α → Course β} {b : β} :
    (course >>= next).ending = .ok b ↔ ∃ a, course.ending = .ok a ∧ (next a).ending = .ok b := by
  rw [ending_bind]
  cases course.ending with
  | ok a => simp [bind, Except.bind]
  | error e => simp [bind, Except.bind]

/-- Two courses give up exactly where the first one does, or the second one from what the first comes to. -/
theorem bind_eq_error_iff {course : Course α} {next : α → Course β} {e : ReadError} :
    (course >>= next).ending = .error e ↔
      course.ending = .error e ∨ ∃ a, course.ending = .ok a ∧ (next a).ending = .error e := by
  rw [ending_bind]
  cases course.ending with
  | ok a => simp [bind, Except.bind]
  | error e' => simp [bind, Except.bind]

/-- A course whose result is changed comes to the changed one of what it came to. -/
theorem map_eq_ok_iff {course : Course α} {f : α → β} {b : β} :
    (f <$> course).ending = .ok b ↔ ∃ a, course.ending = .ok a ∧ f a = b := by
  rw [ending_map]
  cases course.ending with
  | ok a => simp [Functor.map, Except.map]
  | error e => simp [Functor.map, Except.map]

/-- A course whose result is changed gives up where it did before. -/
theorem map_eq_error_iff {course : Course α} {f : α → β} {e : ReadError} :
    (f <$> course).ending = .error e ↔ course.ending = .error e := by
  rw [ending_map]
  cases course.ending with
  | ok a => simp [Functor.map, Except.map]
  | error e' => simp [Functor.map, Except.map]

end Course

end GuidedTour.Outcome
