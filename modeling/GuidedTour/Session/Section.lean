import GuidedTour.Text.CodePoint

/-!
# Sections

A section of the tour: a heading, a narrative, the program text that its editor opens with, and the
output that counts as solved.
-/

set_option autoImplicit false

namespace GuidedTour

/-- One section of the tour. -/
structure Section where
  title : Text
  narrative : Text
  startingCode : Text
  expectedOutput : Text
deriving DecidableEq, Repr, Inhabited

/-- The code points of the output that counts as solved. -/
def Section.expected (lesson : Section) : CodeText := Text.coded lesson.expectedOutput

end GuidedTour
