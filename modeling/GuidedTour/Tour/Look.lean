import GuidedTour.Session.State
import GuidedTour.Theme.Palette

/-!
# The look of the run button

The button shows by a sign and its colour how the last run compares with the expected output.
-/

set_option autoImplicit false

namespace GuidedTour

/-- The sign on the run button and its colour. -/
structure Look where
  sign : String
  colour : Colour
deriving DecidableEq, Repr, Inhabited

/-- Every status. -/
def Status.all : List Status := [idle, success, mismatch]

/-- The look of the run button for a status. -/
def Status.look : Status → Look
  | idle => ⟨"▶", Shade.text.colour⟩
  | success => ⟨"✓", Shade.green.colour⟩
  | mismatch => ⟨"?", Shade.orange.colour⟩

end GuidedTour
