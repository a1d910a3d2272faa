import GuidedTour.Decimal.Double

/-!
# Shortest digits

Among the decimals that round to a given finite double, those of the fewest digits are wanted, and of
these the nearest to the double. The reals that round to `m * 2 ^ q` form an interval around it whose
ends belong to it iff `m` is even. On the grid of decimals with `n` digits only the two neighbours of
the double need to be tried, for `n` from one to seventeen, in exact arithmetic.
-/

set_option autoImplicit false

namespace GuidedTour

/-- The number `digits * 10 ^ exponent`. -/
structure Numeral where
  digits : Nat
  exponent : Int
deriving DecidableEq, Repr, Inhabited

namespace Numeral

/-- Moves the zeros at the end of the digits into the exponent, at most `fuel` of them. -/
def trim : Nat → Numeral → Numeral
  | 0, x => x
  | fuel + 1, x =>
    if x.digits % 10 = 0 ∧ x.digits ≠ 0 then trim fuel ⟨x.digits / 10, x.exponent + 1⟩ else x

/-- The same number with no zero at the end of its digits. -/
def trimmed (x : Numeral) : Numeral := trim x.digits.log2 x

end Numeral

namespace Double

/-- How far the interval of a double reaches down and up, in quarters of its unit. Below a power of
two the doubles lie twice as dense. -/
def reach (mantissa : Nat) (exponent : Int) : Nat × Nat :=
  if mantissa = Nat.pow 2 52 ∧ leastExponent < exponent then (1, 2) else (2, 2)

/-- Whether a decimal lies in the interval of the reals that round to `mantissa * 2 ^ exponent`. -/
def contains (mantissa : Nat) (exponent : Int) (x : Numeral) : Bool :=
  let (down, up) := reach mantissa exponent
  let (unit, denominator) := fraction 1 exponent
  let scaled (k : Nat) : Nat := if 0 ≤ x.exponent then k else k * Nat.pow 10 (-x.exponent).toNat
  let low := scaled ((4 * mantissa - down) * unit)
  let high := scaled ((4 * mantissa + up) * unit)
  let point := 4 * x.digits * denominator *
    (if 0 ≤ x.exponent then Nat.pow 10 x.exponent.toNat else 1)
  if mantissa % 2 = 0 then low ≤ point && point ≤ high else low < point && point < high

/-- The number of decimal places before the point of a positive double, negative or zero if it is
below one: the `k` with `10 ^ (k - 1) ≤ x < 10 ^ k`. Every double is above `10 ^ -340`. -/
def places (mantissa : Nat) (exponent : Int) : Int :=
  let (numerator, denominator) := fraction mantissa exponent
  (Nat.toDigits 10 (numerator * Nat.pow 10 340 / denominator)).length - 340

/-- The better of the two neighbours on the grid of decimals with `count` digits, if one of them rounds
to the double. Of two that do, the nearer is taken, and at the same distance the one that ends even. -/
def onGrid? (mantissa : Nat) (exponent : Int) (count : Nat) : Option Numeral :=
  let step := places mantissa exponent - count
  let (numerator, denominator) := fraction mantissa exponent
  let numerator := if 0 ≤ step then numerator else numerator * Nat.pow 10 (-step).toNat
  let denominator := if 0 ≤ step then denominator * Nat.pow 10 step.toNat else denominator
  let below : Numeral := ⟨numerator / denominator, step⟩
  let above : Numeral := ⟨numerator / denominator + 1, step⟩
  match contains mantissa exponent below, contains mantissa exponent above with
  | true, true => some ⟨roundHalfEven numerator denominator, step⟩
  | true, false => some below
  | false, true => some above
  | false, false => none

/-- The shortest decimal that rounds to `mantissa * 2 ^ exponent`, for a positive mantissa. -/
def shortest (mantissa : Nat) (exponent : Int) : Numeral :=
  let counts := (List.range 17).map (· + 1)
  ((counts.findSome? (onGrid? mantissa exponent)).getD ⟨0, 0⟩).trimmed

end Double

end GuidedTour
