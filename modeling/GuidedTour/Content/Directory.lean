import GuidedTour.Content.Sections
import GuidedTour.Text.Utf8

/-!
# Files

The files that a path can lead to, seen from the directory where the tour is started. A path is followed
name by name; an empty name and a dot stay where they are, and two dots lead to the directory around.
-/

set_option autoImplicit false

namespace GuidedTour.Content

/-- The files and directories below a directory: each with its path, and a file with its bytes. -/
abbrev Directory := List (Text × Option Text.Bytes)

namespace Directory

/-- A place that a path has led to. Directories are given by their names from the starting directory on;
what lies around that is not known. -/
inductive Place where
  | directory (names : List Text)
  | file (bytes : Text.Bytes)
  | outside
deriving Inhabited

/-- The longest name that a file can have, in bytes. -/
def nameLimit : Nat := 255

/-- The longest path that can be followed, in bytes. -/
def pathLimit : Nat := 4095

/-- The names in a path. -/
def names (path : Text) : List Text := Text.split '/' path

/-- The places that lead from one place along some names, each as the names that lead straight to it. -/
def passed (place : List Text) : List Text → List (List Text)
  | [] => [place]
  | name :: more =>
    place :: passed
      (if name.isEmpty ∨ name = ['.'] then place
      else if name = ['.', '.'] then place.dropLast
      else place ++ [name]) more

/-- What a directory has under a path of names. The last entry of a place counts, and the places on the way
to an entry are directories. -/
def entry? (directory : Directory) (path : List Text) : Option Place :=
  match directory.reverse.find? fun entry => (passed [] (names entry.1)).getLast? == some path with
  | some (_, some bytes) => some (.file bytes)
  | some (_, none) => some (.directory path)
  | none =>
    if directory.any fun entry => (passed [] (names entry.1)).contains path then some (.directory path)
    else none

/-- Follows one name from a place. -/
def follow (directory : Directory) (place : Place) (name : Text) : Except FileError Place :=
  match place with
  | .file _ => .error .notDirectory
  | .outside =>
    if name.isEmpty ∨ name = ['.'] ∨ name = ['.', '.'] then .ok .outside
    else if nameLimit < (Text.encode name).length then .error .nameTooLong
    else .error .notFound
  | .directory path =>
    if name.isEmpty ∨ name = ['.'] then .ok place
    else if name = ['.', '.'] then
      if path.isEmpty then .ok .outside else .ok (.directory path.dropLast)
    else if nameLimit < (Text.encode name).length then .error .nameTooLong
    else
      match directory.entry? (path ++ [name]) with
      | some place => .ok place
      | none => .error .notFound

/-- The bytes of the file that a path leads to. -/
def read (directory : Directory) (path : Text) : Except FileError Text.Bytes :=
  if path.isEmpty then .error .notFound
  else if pathLimit < (Text.encode path).length then .error .nameTooLong
  else do
    let start : Place := if path.head? = some '/' then .outside else .directory []
    match ← (names path).foldlM directory.follow start with
    | .file bytes => return bytes
    | _ => .error .isDirectory

end Directory

end GuidedTour.Content
