import GuidedTour.Decimal.Double

/-!
# Sums and products of doubles

The two operations that numbers in base sixty need, each the exact result rounded once.
-/

set_option autoImplicit false

namespace GuidedTour.Double

/-- The sum of two doubles. A sum that is exactly zero is negative only if both terms are. -/
def add : Double → Double → Double
  | nan, _ => nan
  | _, nan => nan
  | infinite a, infinite b => if a = b then infinite a else nan
  | infinite a, _ => infinite a
  | _, infinite b => infinite b
  | finite a m p, finite b n q =>
    let (x, d) := fraction m p
    let (y, e) := fraction n q
    let signed (negative : Bool) (k : Nat) : Int := if negative then -(k : Int) else k
    let sum := signed a (x * e) + signed b (y * d)
    if sum = 0 then zero (a && b) else nearest (sum < 0) sum.natAbs (d * e)

/-- The product of two doubles. -/
def mul : Double → Double → Double
  | nan, _ => nan
  | _, nan => nan
  | infinite a, infinite b => infinite (a != b)
  | infinite a, finite b n _ => if n = 0 then nan else infinite (a != b)
  | finite a m _, infinite b => if m = 0 then nan else infinite (a != b)
  | finite a m p, finite b n q =>
    let (x, d) := fraction m p
    let (y, e) := fraction n q
    nearest (a != b) (x * y) (d * e)

/-- The double nearest to a whole number. -/
def ofNat (n : Nat) : Double := nearest false n 1

end GuidedTour.Double
