import GuidedTour.Outcome.Course
import GuidedTour.Outcome.Spelling
import GuidedTour.Outcome.Value
import GuidedTour.Text.Blank

/-!
# Reading a printed result

The interpreter prints the result of a run as `Ok(...)` around a value or `Err(...)` around a string. The
reader follows the printed form from left to right and stops at the first thing that does not belong to
it, with the reason and the place. Closures are printed with all their insides, of which only the ends of
strings and the balance of brackets are looked at.

The reader of values calls itself for each tuple inside a tuple. It goes as deep as the text does: a bound on
the depth, which a machine with a stack has, is no part of it.
-/

set_option autoImplicit false

namespace GuidedTour.Outcome

/-- A place in the printed text: what is left of it, and how many characters have been read. -/
structure Cursor where
  rest : Text
  position : Nat
deriving DecidableEq, Repr, Inhabited

namespace Cursor

variable {α : Type}

/-- Gives up at a place. -/
def fail (cursor : Cursor) (reason : Reason) : Course α := .stop (.unreadable reason cursor.position)

/-- The place at which `rest` is left. -/
def upTo (cursor : Cursor) (rest : Text) : Cursor :=
  ⟨rest, cursor.position + (cursor.rest.length - rest.length)⟩

/-- Reads a lexical form, or gives up for a reason. -/
def lexical (cursor : Cursor) (form : Text → Option (α × Text)) (reason : Reason) : Course (α × Cursor) :=
  match form cursor.rest with
  | some (a, rest) => .reach (cursor.upTo rest).position (a, cursor.upTo rest)
  | none => cursor.fail reason

/-- The place behind a given text, if that text is next. -/
def accept? (cursor : Cursor) (text : Text) : Option Cursor :=
  if text.isPrefixOf cursor.rest then
    some ⟨cursor.rest.drop text.length, cursor.position + text.length⟩
  else none

/-- The place behind a given text, which must be next. -/
def expect (cursor : Cursor) (text : Text) : Course Cursor :=
  match cursor.accept? text with
  | some next => .reach next.position next
  | none => cursor.fail (.expectedText text)

end Cursor

/-! ## Strings -/

/-- Puts a code point in front of a text that was read. -/
def prepend (p : CodePoint) (read : CodeText × Cursor) : CodeText × Cursor := (p :: read.1, read.2)

/-- Reads a string from behind its opening quote to behind its closing one. A backslash is read first, then
the place for the character behind it, even if there is none. -/
def stringBody (rest : Text) (position : Nat) : Course (CodeText × Cursor) :=
  match rest with
  | [] => .stop (.unreadable .unterminatedString position)
  | '"' :: rest => .reach (position + 1) ([], ⟨rest, position + 1⟩)
  | '\\' :: [] =>
    .passing [position + 1, position + 2] (.stop (.unreadable (.unknownEscape none) (position + 2)))
  | '\\' :: 'u' :: rest =>
    match _h : braced? rest with
    | none => .passing [position + 1, position + 2] (.stop (.unreadable .expectedCode (position + 2)))
    | some (code, left) =>
      match CodePoint.ofNat? code with
      | none =>
        .passing [position + 1, position + 2, position + 2 + (rest.length - left.length)]
          (.stop (.noSuchCharacter code))
      | some p =>
        .passing [position + 1, position + 2, position + 2 + (rest.length - left.length)]
          (prepend p <$> stringBody left (position + 2 + (rest.length - left.length)))
  | '\\' :: letter :: rest =>
    match escaped? letter with
    | none => .passing [position + 1, position + 2] (.stop (.unreadable (.unknownEscape (some letter)) (position + 2)))
    | some c => .passing [position + 1, position + 2] (prepend (.ofChar c) <$> stringBody rest (position + 2))
  | c :: rest => .passing [position + 1] (prepend (.ofChar c) <$> stringBody rest (position + 1))
termination_by rest.length
decreasing_by
  · have := braced?_length _h
    simp only [List.length_cons]; omega
  · simp only [List.length_cons]; omega
  · simp

/-- Reads a string with its quotes. -/
def readString (cursor : Cursor) : Course (CodeText × Cursor) := do
  let inside ← cursor.expect ['"']
  stringBody inside.rest inside.position

/-- A string takes something of the text. -/
theorem stringBody_length {rest : Text} {position : Nat} {text : CodeText} {cursor : Cursor}
    (h : (stringBody rest position).ending = .ok (text, cursor)) : cursor.rest.length < rest.length := by
  fun_induction stringBody rest position generalizing text cursor with
  | case1 => simp at h
  | case2 => simp at h; simp [← h.2]
  | case3 => simp at h
  | case4 => simp at h
  | case5 => simp at h
  | case6 position rest code left hb p hp ih =>
    obtain ⟨read, hread, he⟩ := Course.map_eq_ok_iff.1 h
    have hless := ih hread
    have hbraced := braced?_length hb
    cases he
    simp only [List.length_cons]
    omega
  | case7 => simp at h
  | case8 position letter rest _ c hc ih =>
    obtain ⟨read, hread, he⟩ := Course.map_eq_ok_iff.1 h
    have hless := ih hread
    cases he
    simp only [List.length_cons]
    omega
  | case9 position c rest _ _ _ _ ih =>
    obtain ⟨read, hread, he⟩ := Course.map_eq_ok_iff.1 h
    have hless := ih hread
    cases he
    simp only [List.length_cons]
    omega

/-! ## Values -/

/-- Whether a character opens a bracket. -/
def opens (c : Char) : Bool := c == '(' || c == '[' || c == '{'

/-- Whether a character closes a bracket. -/
def closes (c : Char) : Bool := c == ')' || c == ']' || c == '}'

/-- Skips the insides of a closure up to the bracket that closes it, passing over strings. Brackets are
counted without regard to their kind. -/
def skipInside (depth : Nat) (rest : Text) (position : Nat) : Course Cursor :=
  match rest with
  | [] => .stop (.unreadable .unterminatedClosure position)
  | c :: left =>
    if c = '"' then
      match _h : stringBody left (position + 1) with
      | ⟨positions, .error e⟩ => ⟨(position + 1) :: positions, .error e⟩
      | ⟨positions, .ok (_, cursor)⟩ =>
        .passing ((position + 1) :: positions) (skipInside depth cursor.rest cursor.position)
    else if opens c then .passing [position + 1] (skipInside (depth + 1) left (position + 1))
    else if closes c then
      if depth = 0 then pure ⟨c :: left, position⟩
      else .passing [position + 1] (skipInside (depth - 1) left (position + 1))
    else .passing [position + 1] (skipInside depth left (position + 1))
termination_by rest.length
decreasing_by
  · have := stringBody_length (congrArg Course.ending _h)
    simp only [List.length_cons]; omega
  · simp
  · simp
  · simp

/-- Reads what stands before an item: nothing before the first, and a comma and a blank before the others. -/
def readSeparator (isFirst : Bool) (cursor : Cursor) : Course Cursor :=
  if isFirst then pure cursor else cursor.expect [',', ' ']

mutual

/-- Reads a value. The fuel bounds the number of values begun and is at least the length of the text that
is left; without fuel there is no text, and so no value. -/
def readValue : Nat → Cursor → Course (Value × Cursor)
  | 0, cursor => cursor.fail .expectedValue
  | fuel + 1, cursor => do
    let (name, cursor) ← cursor.lexical name? .expectedValue
    if name = "RuntimeInvocation".toList then return (.runtimeInvocation, cursor)
    let cursor ← cursor.expect ['(']
    let (result, cursor) ← readInside fuel name cursor
    let cursor ← cursor.expect [')']
    return (result, cursor)

/-- Reads what stands between the parentheses behind the name of a value. -/
def readInside (fuel : Nat) (name : Text) (cursor : Cursor) : Course (Value × Cursor) :=
  if name = "Integer".toList then do
    let (ds, cursor) ← cursor.lexical integer? .expectedInteger
    return (.integer ds, cursor)
  else if name = "Float".toList then do
    let (number, cursor) ← cursor.lexical float? .expectedFloat
    return (.float number, cursor)
  else if name = "Boolean".toList then do
    let (truth, cursor) ← cursor.lexical boolean? .expectedBoolean
    return (.boolean truth, cursor)
  else if name = "String".toList then do
    let (text, cursor) ← readString cursor
    return (.string text, cursor)
  else if name = "Tuple".toList then do
    let cursor ← cursor.expect ['[']
    let (values, cursor) ← readItems fuel true cursor
    return (.tuple values, cursor)
  else if name = "Closure".toList then do
    let cursor ← skipInside 0 cursor.rest cursor.position
    return (.closure, cursor)
  else cursor.fail (.unknownValue name)

/-- Reads the items of a tuple up to behind the closing bracket. All but the first follow a comma and a
blank. -/
def readItems : Nat → Bool → Cursor → Course (List Value × Cursor)
  | fuel, isFirst, cursor =>
    match cursor.accept? [']'] with
    | some closed => .reach closed.position ([], closed)
    | none =>
      match fuel with
      | 0 => cursor.fail (if isFirst then .expectedValue else .expectedText [',', ' '])
      | fuel + 1 => do
        let cursor ← readSeparator isFirst cursor
        let (first, cursor) ← readValue fuel cursor
        let (more, cursor) ← readItems fuel false cursor
        return (first :: more, cursor)

end

/-! ## Results -/

/-- Reads what stands between the parentheses behind a verdict. -/
def readVerdict (fuel : Nat) (verdict : Text) (cursor : Cursor) : Course (Outcome × Cursor) :=
  if verdict = "Ok".toList then do
    let (result, cursor) ← readValue fuel cursor
    return (.value result, cursor)
  else do
    let (report, cursor) ← readString cursor
    return (.error report, cursor)

/-- Reads to the end of a result, and nothing may follow. -/
def readEnd (cursor : Cursor) : Course Unit := do
  let cursor ← cursor.expect [')']
  if cursor.rest.isEmpty then return () else cursor.fail .trailingText

/-- The course of reading a whole printed result. -/
def courseOf (text : Text) : Course Outcome := do
  let (verdict, cursor) ← Cursor.lexical ⟨text, 0⟩ name? .expectedVerdict
  if verdict ≠ "Ok".toList ∧ verdict ≠ "Err".toList then cursor.fail (.unknownVerdict verdict)
  else
    let cursor ← cursor.expect ['(']
    let (outcome, cursor) ← readVerdict text.length verdict cursor
    readEnd cursor
    return outcome

/-- What a whole printed result is read as. -/
def ofText (text : Text) : Except ReadError Outcome := (courseOf text).ending

/-- Reads what an interpreter has printed, without the blanks at its ends. -/
def read (output : Text) : Except ReadError Outcome := ofText (Text.strip output)

end GuidedTour.Outcome
