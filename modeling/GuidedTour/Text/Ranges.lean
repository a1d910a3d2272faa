/-!
# Ranges of code points

A character class of the Unicode standard is given by the closed ranges of its code points, in
ascending order. Membership is the only question asked of it.
-/

set_option autoImplicit false

namespace GuidedTour.Text

/-- Closed ranges of code points, in ascending order. -/
abbrev Ranges := List (Nat × Nat)

/-- Whether a code point lies in one of the ranges. -/
def Ranges.has (ranges : Ranges) (code : Nat) : Bool :=
  ranges.any fun range => range.1 ≤ code && code ≤ range.2

end GuidedTour.Text
