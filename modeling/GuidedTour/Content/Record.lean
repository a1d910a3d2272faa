import GuidedTour.Data.Value
import GuidedTour.Session.Section

/-!
# Records

A section is written as a record of four texts. Each field goes by the name that authors use or by the name
of the field itself; the first counts if both are there. A record must have all four fields and nothing
else, and what is wrong with it is listed: first the fields in their order, then the keys that are too many
in the order of the record.
-/

set_option autoImplicit false

namespace GuidedTour.Content

/-- The fields of a section. -/
inductive Field where
  | title | narrative | startingCode | expectedOutput
deriving DecidableEq, Repr, Inhabited

namespace Field

/-- Every field, in order. -/
def all : List Field := [title, narrative, startingCode, expectedOutput]

/-- The key that authors use for a field. -/
def written : Field → Text
  | title => "title".toList
  | narrative => "content".toList
  | startingCode => "startingCode".toList
  | expectedOutput => "expect".toList

/-- The name of a field. -/
def name : Field → Text
  | title => "title".toList
  | narrative => "narrative".toList
  | startingCode => "starting_code".toList
  | expectedOutput => "expected_output".toList

/-- What a section has in a field. -/
def of (lesson : Section) : Field → Text
  | title => lesson.title
  | narrative => lesson.narrative
  | startingCode => lesson.startingCode
  | expectedOutput => lesson.expectedOutput

end Field

/-! ## Problems -/

/-- What can be wrong with a record. -/
inductive ProblemKind where
  | missing
  | notText
  | surplus
  | keyNotText
  | noRecord
  | unchangeable
deriving DecidableEq, Repr, Inhabited

/-- How a key that is no text is called in the list of problems. -/
def keyName (key : Data.Scalar) : Text :=
  if key.isWritable then key.literal else "<unprintable int object>".toList

/-- Something wrong with a record: what, and at which key. A problem of the record as a whole is at none. -/
structure Problem where
  place : Option Data.Scalar
  kind : ProblemKind
deriving DecidableEq, Repr, Inhabited

namespace Problem

/-- A problem at a text key. -/
def atKey (key : Text) (kind : ProblemKind) : Problem := ⟨some (.text key), kind⟩

end Problem

/-! ## Reading -/

/-- A record: its keys with their values. -/
abbrev Record := List (Data.Scalar × Data.Value)

namespace Record

/-- The value at a text key. -/
def value? (record : Record) (key : Text) : Option Data.Value :=
  (record.find? fun entry => entry.1 == .text key).map (·.2)

/-- The key under which a record has a field, with its value. -/
def field? (record : Record) (field : Field) : Option (Text × Data.Value) :=
  match record.value? field.written with
  | some value => some (field.written, value)
  | none => (record.value? field.name).map (field.name, ·)

/-- The text of a field, or what is wrong with it. -/
def text (record : Record) (field : Field) : Except Problem Text :=
  match record.field? field with
  | none => .error (.atKey field.written .missing)
  | some (_, .scalar (.text text)) => .ok text
  | some (key, _) => .error (.atKey key .notText)

/-- The keys under which the fields of a record are found. -/
def usedKeys (record : Record) : List Text :=
  Field.all.filterMap fun field => (record.field? field).map (·.1)

/-- What is wrong with a key that is no field of a record. -/
def surplus? (record : Record) (key : Data.Scalar) : Option Problem :=
  match key with
  | .text t => if t ∈ record.usedKeys then none else some (.atKey t .surplus)
  | key => some ⟨some key, .keyNotText⟩

/-- All that is wrong with a record. -/
def problems (record : Record) : List Problem :=
  (Field.all.filterMap fun field =>
    match record.text field with
    | .ok _ => none
    | .error problem => some problem)
  ++ record.filterMap fun entry => record.surplus? entry.1

/-- The text of a field, empty where there is none. -/
def textOf (record : Record) (field : Field) : Text :=
  match record.text field with
  | .ok text => text
  | .error _ => []

/-- The section of a record, or all that is wrong with it. -/
def section? (record : Record) : Except (List Problem) Section :=
  if record.problems.isEmpty then
    .ok ⟨record.textOf .title, record.textOf .narrative, record.textOf .startingCode,
      record.textOf .expectedOutput⟩
  else .error record.problems

end Record

/-- The section of a value, which must be a record. -/
def sectionOf (value : Data.Value) : Except (List Problem) Section :=
  match value with
  | .mapping record => Record.section? record
  | _ => .error [⟨none, .noRecord⟩]

/-- Why a name of a section cannot be given a value. A section stays as it was read, so no field is ever
changed and none is added; only names that begin with an underscore are no concern of the record. -/
def refusal? (name : Text) : Option Problem :=
  if name.head? = some '_' then none else some (.atKey name .unchangeable)

/-- The record of a section under the given keys. -/
def recordOf (key : Field → Text) (lesson : Section) : List (Text × Text) :=
  Field.all.map fun field => (key field, field.of lesson)

end GuidedTour.Content
