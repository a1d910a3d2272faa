import GuidedTour.Content.Bundled
import GuidedTour.Content.Sections
import GuidedTour.Log
import GuidedTour.Yaml.Document

/-!
# Loading a tour

A tour is loaded from the file that a path leads to: its bytes must be UTF-8, its text a YAML document, and
the document a tour. What goes wrong is reported to the author of the tour, except for the faults that no
report is prepared for.
-/

set_option autoImplicit false

namespace GuidedTour.Content

/-- Where a tour is loaded from: the document that comes with the program, which lies at a path of the installation, or
a path that is asked for. -/
inductive Source where
  | bundled (path : Text)
  | path (path : Text)
deriving DecidableEq, Repr, Inhabited

/-- The path of a source, as messages show it. -/
def Source.shown : Source → Text
  | bundled p => p
  | path p => p

/-- How deep a document is looked into: the tour, its records, their fields. -/
def depth : Nat := 2

/-- What a path leads to: the bytes of a file, or the reason why there are none. -/
abbrev Files := Text → Except FileError Text.Bytes

/-- The bytes of a source. -/
def Source.bytes (files : Files) : Source → Except LoadError Text.Bytes
  | bundled _ => .ok (Text.encode Content.bundled)
  | path p =>
    if p.contains '\x00' then .error (.fault .nulInPath)
    else
      match files p with
      | .ok bytes => .ok bytes
      | .error error => .error (.content (.unreadable p error))

/-- The document in some bytes. -/
def documentOf (shownPath : Text) (bytes : Text.Bytes) : Except LoadError Data.Value :=
  match Yaml.valueOf depth bytes with
  | .ok document => .ok document
  | .error .invalid => .error (.content (.noDocument shownPath))
  | .error .notUtf8 => .error (.fault .notUtf8)
  | .error (.fault fault) => .error (.fault (.unbuildable fault))

/-- Loads the sections of a tour. -/
def load (files : Files) (source : Source) : Except LoadError (List Section) := do
  let bytes ← source.bytes files
  let document ← documentOf source.shown bytes
  sections document

/-- The report that a tour was loaded. -/
def loadedLog (source : Source) (lessons : List Section) : LogLine :=
  ⟨.info, .content, "Loaded ".toList ++ Text.ofNat lessons.length
    ++ " tutorial sections from ".toList ++ source.shown⟩

end GuidedTour.Content
