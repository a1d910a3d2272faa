import GuidedTour.Text.Inflow
import GuidedTour.Yaml.Char
import GuidedTour.Yaml.Error

/-!
# YAML text on its way in

The text of a document comes in page by page, as far as it is looked at. A page with broken bytes or with a
character that has no place in YAML stops the text in front of it: what stands before can still be read, and
what is wrong comes up as soon as anything behind is needed.
-/

set_option autoImplicit false

namespace GuidedTour.Yaml

/-- A text as far as it comes in, and what stops the rest of it, if anything does. -/
structure Incoming where
  text : Text
  stop : Option Error
deriving Repr, Inhabited

namespace Incoming

/-- The number of characters in a page. -/
def pageLength : Nat := 4096

/-- A page in front of the pages that follow it. -/
def page (text : Text) (more : Incoming) : Incoming :=
  if text.all isAllowed then ⟨text ++ more.text, more.stop⟩ else ⟨[], some .invalid⟩

/-- The pages that are left. Each has a character at least, so as much fuel as there are bytes lasts. -/
def pages : Nat → Text.Inflow → Incoming
  | 0, _ => ⟨[], none⟩
  | fuel + 1, s =>
    match s.piece? pageLength with
    | none => ⟨[], some .notUtf8⟩
    | some ([], _) => ⟨[], none⟩
    | some (text, s) => page text (pages fuel s)

/-- The text in some bytes. The first two pages come in as one. -/
def ofBytes (bytes : Text.Bytes) : Incoming :=
  let twoPages : Option (Text × Text.Inflow) := do
    let (first, s) ← (Text.Inflow.start bytes).piece? pageLength
    let (second, s) ← s.piece? pageLength
    return (first ++ second, s)
  match twoPages with
  | none => ⟨[], some .notUtf8⟩
  | some (text, s) => page text (pages bytes.length s)

end Incoming

end GuidedTour.Yaml
