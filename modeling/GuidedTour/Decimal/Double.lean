/-!
# Doubles

A double is a number of the 64-bit binary format, taken apart: not a number, an infinity, or a signed
multiple of a power of two. The module decodes the bits and rounds a fraction to the nearest double,
a half to the even neighbour, in exact arithmetic on natural numbers. `roundHalfEven_near` says that
rounding moves a quotient by at most a half.
-/

set_option autoImplicit false

namespace GuidedTour

/-- A number of the 64-bit binary format. The finite ones are `mantissa * 2 ^ exponent` with a mantissa
below `2 ^ 53` and an exponent from `-1074` to `971`; the mantissa is at least `2 ^ 52` unless the
exponent is the least one, so that each double has one form. -/
inductive Double where
  | nan
  | infinite (negative : Bool)
  | finite (negative : Bool) (mantissa : Nat) (exponent : Int)
deriving DecidableEq, Repr, Inhabited

namespace Double

/-- The exponent of the smallest doubles. -/
def leastExponent : Int := -1074

/-- The exponent of the largest doubles. -/
def greatestExponent : Int := 971

/-- The double that 64 bits encode: a sign, eleven bits of exponent, fifty-two bits of fraction. -/
def ofBits (bits : UInt64) : Double :=
  let n := bits.toNat
  let negative := decide (Nat.pow 2 63 ≤ n)
  let field : Nat := n / Nat.pow 2 52 % Nat.pow 2 11
  let fraction : Nat := n % Nat.pow 2 52
  if field = Nat.pow 2 11 - 1 then
    if fraction = 0 then infinite negative else nan
  else if field = 0 then finite negative fraction leastExponent
  else finite negative (Nat.pow 2 52 + fraction) (field - 1075)

/-- The zero of a sign. -/
def zero (negative : Bool) : Double := finite negative 0 leastExponent

/-- The same number with the opposite sign. -/
def neg : Double → Double
  | nan => nan
  | infinite negative => infinite !negative
  | finite negative mantissa exponent => finite (!negative) mantissa exponent

/-- A quotient rounded to the nearest whole number, a half to the even one. -/
def roundHalfEven (numerator denominator : Nat) : Nat :=
  let quotient := numerator / denominator
  let twice := 2 * (numerator % denominator)
  if twice < denominator then quotient
  else if denominator < twice then quotient + 1
  else if quotient % 2 = 0 then quotient else quotient + 1

/-- Rounding moves a quotient by at most a half. -/
theorem roundHalfEven_near (numerator : Nat) {denominator : Nat} (h : 0 < denominator) :
    2 * numerator ≤ 2 * roundHalfEven numerator denominator * denominator + denominator ∧
    2 * roundHalfEven numerator denominator * denominator ≤ 2 * numerator + denominator := by
  have hd := Nat.div_add_mod numerator denominator
  have hm := Nat.mod_lt numerator h
  generalize hq : numerator / denominator = quotient at hd
  have e1 : 2 * quotient * denominator = 2 * (denominator * quotient) := by
    rw [Nat.mul_assoc, Nat.mul_comm quotient]
  have e2 : 2 * (quotient + 1) * denominator = 2 * (denominator * quotient) + 2 * denominator := by
    rw [Nat.mul_assoc, Nat.add_mul, Nat.mul_comm quotient]; omega
  unfold roundHalfEven
  simp only [hq]
  split
  · rw [e1]; omega
  · split
    · rw [e2]; omega
    · split
      · rw [e1]; omega
      · rw [e2]; omega

/-- The whole part of the binary logarithm of a positive fraction. -/
def fractionLog2 (numerator denominator : Nat) : Int :=
  let k : Int := (Nat.log2 numerator : Int) - Nat.log2 denominator
  let reaches :=
    if 0 ≤ k then denominator * Nat.pow 2 k.toNat ≤ numerator
    else denominator ≤ numerator * Nat.pow 2 (-k).toNat
  if reaches then k else k - 1

/-- The double nearest to a fraction, a half going to the even neighbour and what lies past the
largest double to an infinity. -/
def nearest (negative : Bool) (numerator denominator : Nat) : Double :=
  if numerator = 0 then zero negative
  else
    let exponent := max (fractionLog2 numerator denominator - 52) leastExponent
    let mantissa :=
      if 0 ≤ exponent then roundHalfEven numerator (denominator * Nat.pow 2 exponent.toNat)
      else roundHalfEven (numerator * Nat.pow 2 (-exponent).toNat) denominator
    let (mantissa, exponent) :=
      if mantissa = Nat.pow 2 53 then (Nat.pow 2 52, exponent + 1) else (mantissa, exponent)
    if greatestExponent < exponent then infinite negative
    else finite negative mantissa exponent

/-- The double nearest to `digits * 10 ^ exponent`. A number of more than 310 places before the point
lies past the largest double, and one that starts more than 326 places behind it rounds to zero, so
the powers of ten that are computed stay small. -/
def ofDecimal (negative : Bool) (digits : Nat) (exponent : Int) : Double :=
  let places : Int := (Nat.toDigits 10 digits).length + exponent
  if digits = 0 ∨ places < -326 then zero negative
  else if 310 < places then infinite negative
  else if 0 ≤ exponent then nearest negative (digits * Nat.pow 10 exponent.toNat) 1
  else nearest negative digits (Nat.pow 10 (-exponent).toNat)

/-- A finite mantissa and exponent as a fraction. -/
def fraction (mantissa : Nat) (exponent : Int) : Nat × Nat :=
  if 0 ≤ exponent then (mantissa * Nat.pow 2 exponent.toNat, 1) else (mantissa, Nat.pow 2 (-exponent).toNat)

end Double

end GuidedTour
