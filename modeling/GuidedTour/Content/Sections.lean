import GuidedTour.Content.Record
import GuidedTour.Yaml.Error

/-!
# The sections of a tour

A tour is written as a mapping from identifiers to records or as a list of records. The sections come in
the order of the document. One bad record spoils the tour, and the first one is named.
-/

set_option autoImplicit false

namespace GuidedTour.Content

/-- Why a file cannot be read. -/
inductive FileError where
  | notFound
  | notDirectory
  | isDirectory
  | nameTooLong
  /-- Anything else, with the words of the system. -/
  | other (words : Text)
deriving DecidableEq, Repr, Inhabited

/-- A number and words of the system, about a path. -/
def FileError.about (path : Text) (reason : String) : Text := reason.toList ++ [':', ' '] ++ Text.quoted path

/-- The words of the system for a file error. -/
def FileError.words (path : Text) : FileError → Text
  | notFound => about path "[Errno 2] No such file or directory"
  | notDirectory => about path "[Errno 20] Not a directory"
  | isDirectory => about path "[Errno 21] Is a directory"
  | nameTooLong => about path "[Errno 36] File name too long"
  | other words => words

/-- Why there is no tour, in the cases that are reported to its author. -/
inductive ContentError where
  /-- The document is neither a mapping nor a list. -/
  | noCollection (kind : String)
  /-- A section is no mapping. -/
  | noRecord (label : Text) (kind : String)
  /-- The record of a section has problems. -/
  | badRecord (label : Text) (problems : List Problem)
  /-- There are no sections. -/
  | noSections
  /-- The file cannot be read. -/
  | unreadable (path : Text) (error : FileError)
  /-- The file holds no document. -/
  | noDocument (path : Text)
deriving DecidableEq, Repr

/-- The words for the reason. -/
def ContentError.message : ContentError → Text
  | noCollection kind =>
    "Tutorial content must be a mapping or a list, got ".toList ++ kind.toList
  | noRecord label kind =>
    "Section ".toList ++ label ++ ": expected a mapping, got ".toList ++ kind.toList
  | badRecord label problems =>
    "Section ".toList ++ label ++ [':', ' '] ++ Text.ofNat problems.length
      ++ (if problems.length = 1 then " validation error".toList else " validation errors".toList)
      ++ " for TutorialSection".toList
  | noSections => "Tutorial content has no sections".toList
  | unreadable path error =>
    "Cannot read tutorial content ".toList ++ path ++ [':', ' '] ++ error.words path
  | noDocument path => "Invalid YAML in ".toList ++ path

/-- What loading is not prepared for. -/
inductive LoadFault where
  /-- The path holds the character NUL. -/
  | nulInPath
  /-- The file is not UTF-8. -/
  | notUtf8
  /-- The document asks for what cannot be built. -/
  | unbuildable (fault : Yaml.Fault)
  /-- The identifier of a section cannot be written out. -/
  | unwritableLabel
deriving DecidableEq, Repr, Inhabited

/-- How loading ends without a tour. -/
inductive LoadError where
  | content (error : ContentError)
  | fault (fault : LoadFault)
deriving DecidableEq, Repr

/-- What a section is known by in its document. -/
inductive Label where
  | identifier (key : Data.Scalar)
  /-- The place in a list, counted from one. -/
  | place (n : Nat)
deriving DecidableEq, Repr

/-- How messages call a section, if that can be written. -/
def Label.shown? : Label → Option Text
  | identifier key => if key.isWritable then some key.plain else none
  | place n => some ('#' :: Text.ofNat n)

/-- The records of a document, each with what it is known by. -/
def labelled : Data.Value → Except ContentError (List (Label × Data.Value))
  | .mapping entries => .ok (entries.map fun entry => (.identifier entry.1, entry.2))
  | .list items => .ok (items.mapIdx fun i item => (.place (i + 1), item))
  | value => .error (.noCollection value.kind)

/-- The section of a record that messages call by the given words. -/
def sectionCalled (words : Text) : Data.Value → Except ContentError Section
  | .mapping record =>
    match Record.section? record with
    | .ok lesson => .ok lesson
    | .error problems => .error (.badRecord words problems)
  | value => .error (.noRecord words value.kind)

/-- The section of a labelled record. What it is called is settled before the record is looked at. -/
def labelledSection (label : Label) (value : Data.Value) : Except LoadError Section :=
  match label.shown? with
  | none => .error (.fault .unwritableLabel)
  | some words => (sectionCalled words value).mapError .content

/-- The sections of a document, of which there must be one at least. -/
def sections (document : Data.Value) : Except LoadError (List Section) := do
  let records ← (labelled document).mapError .content
  let lessons ← records.mapM fun record => labelledSection record.1 record.2
  if lessons.isEmpty then .error (.content .noSections) else return lessons

end GuidedTour.Content
