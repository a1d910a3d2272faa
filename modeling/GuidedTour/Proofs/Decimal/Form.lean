import GuidedTour.Decimal.Double
import GuidedTour.Decimal.Shortest
import Mathlib.Algebra.Order.Field.Basic
import Mathlib.Algebra.Order.Field.Power
import Mathlib.Algebra.Order.Ring.Abs
import Mathlib.Data.Rat.Cast.Order
import Mathlib.Tactic.Linarith
import Mathlib.Tactic.NormNum
import Mathlib.Tactic.Positivity
import Mathlib.Tactic.Ring

/-!
# Forms of doubles

A finite double stands for `mantissa * 2 ^ exponent`, and each has one form (`Double.Fits`), which its bits encode. A
number is rounded to the form nearest to it, and where two are as near to the even one (`Double.Rounded`). The numbers
that are rounded to one form make up an interval around it, which reaches half a unit up and down, and down only a
quarter where the forms below lie twice as dense (`Double.Inside`): for the numbers of the interval the form is the
nearest one (`Double.rounded_of_inside`).
-/

set_option autoImplicit false

namespace GuidedTour.Double

/-! ## Forms -/

/-- The number that a finite double stands for, its sign apart. -/
def value (mantissa : Nat) (exponent : Int) : ℚ := mantissa * 2 ^ exponent

/-- A mantissa and an exponent are the form of a number: the mantissa has fifty-three binary digits, or fewer where
the exponent is the least one. There is no greatest exponent here. -/
structure Fits (mantissa : Nat) (exponent : Int) : Prop where
  mantissa_lt : mantissa < 2 ^ 53
  least : leastExponent ≤ exponent
  leading : 2 ^ 52 ≤ mantissa ∨ exponent = leastExponent

/-- A number is rounded to a form: no other form is nearer, and if another one is as near, this one is even and the
other one is odd. -/
structure Rounded (number : ℚ) (mantissa : Nat) (exponent : Int) : Prop where
  fits : Fits mantissa exponent
  nearest : ∀ m q, Fits m q → |number - value mantissa exponent| ≤ |number - value m q|
  even : ∀ m q, Fits m q → |number - value mantissa exponent| = |number - value m q| →
    (m = mantissa ∧ q = exponent) ∨ (mantissa % 2 = 0 ∧ m % 2 = 1)

/-- A unit is positive. -/
theorem two_zpow_pos (q : Int) : (0 : ℚ) < 2 ^ q := zpow_pos two_pos q

/-- A unit is two of the next smaller one. -/
theorem zpow_succ (q : Int) : (2 : ℚ) ^ (q + 1) = 2 * 2 ^ q := by
  rw [zpow_add_one₀ two_ne_zero, mul_comm]

variable {m n : Nat} {q p : Int}

/-- A value with a greater exponent is a whole number of units of the smaller one. -/
theorem exists_units (hqp : q ≤ p) (n : Nat) : ∃ k : Nat, value n p = k * 2 ^ q := by
  obtain ⟨d, rfl⟩ := Int.exists_add_of_le hqp
  refine ⟨n * 2 ^ d, ?_⟩
  unfold value
  rw [zpow_add₀ two_ne_zero]
  push_cast
  rw [zpow_natCast]
  ring

/-- A form with a smaller exponent lies below the leading digit of the greater one. -/
theorem value_le_of_exponent_lt (hn : Fits n p) (hpq : p < q) : value n p ≤ (2 ^ 52 - 1 / 2) * 2 ^ q := by
  have hmantissa : (n : ℚ) ≤ 2 ^ 53 - 1 := by
    have h : n + 1 ≤ 2 ^ 53 := hn.mantissa_lt
    have hcast : (n : ℚ) + 1 ≤ 2 ^ 53 := by exact_mod_cast h
    linarith
  have hunit : (2 : ℚ) ^ p ≤ 2 ^ (q - 1) := zpow_le_zpow_right₀ one_le_two (by omega)
  have hhalf : (2 : ℚ) ^ q = 2 * 2 ^ (q - 1) := by rw [← zpow_succ, sub_add_cancel]
  calc value n p ≤ (2 ^ 53 - 1) * 2 ^ p := mul_le_mul_of_nonneg_right hmantissa (two_zpow_pos p).le
    _ ≤ (2 ^ 53 - 1) * 2 ^ (q - 1) := mul_le_mul_of_nonneg_left hunit (by norm_num)
    _ = (2 ^ 52 - 1 / 2) * 2 ^ q := by rw [hhalf]; ring

/-- A form with a smaller exponent than another's leaves that one its leading digit. -/
theorem leading_of_exponent_lt (hm : Fits m q) (hn : Fits n p) (hpq : p < q) : 2 ^ 52 ≤ m := by
  rcases hm.leading with h | h
  · exact h
  · have := hn.least
    omega

/-- The next form above is a unit away. -/
theorem add_unit_le (hm : Fits m q) (hn : Fits n p) (h : value m q < value n p) :
    (m + 1) * 2 ^ q ≤ value n p := by
  have hunit := two_zpow_pos q
  rcases le_or_gt q p with hqp | hpq
  · obtain ⟨k, hk⟩ := exists_units hqp n
    rw [hk] at h ⊢
    have hlt : (m : ℚ) < k := lt_of_mul_lt_mul_right h hunit.le
    have hle : m + 1 ≤ k := by exact_mod_cast hlt
    have hcast : (m : ℚ) + 1 ≤ k := by exact_mod_cast hle
    exact mul_le_mul_of_nonneg_right hcast hunit.le
  · -- A form with a smaller exponent is not above one that has its leading digit.
    exfalso
    have hle := value_le_of_exponent_lt hn hpq
    have hleading : (2 : ℚ) ^ 52 ≤ m := by exact_mod_cast leading_of_exponent_lt hm hn hpq
    have hvalue : (2 : ℚ) ^ 52 * 2 ^ q ≤ value m q := mul_le_mul_of_nonneg_right hleading hunit.le
    nlinarith

/-- The next form below is a unit away, or half a unit where the forms below lie twice as dense. -/
theorem le_sub_unit (hm : Fits m q) (hn : Fits n p) (h : value n p < value m q) :
    value n p ≤ (m - 1) * 2 ^ q ∨
      (m = 2 ^ 52 ∧ leastExponent < q ∧ value n p ≤ (m - 1 / 2) * 2 ^ q) := by
  have hunit := two_zpow_pos q
  rcases le_or_gt q p with hqp | hpq
  · left
    obtain ⟨k, hk⟩ := exists_units hqp n
    rw [hk] at h ⊢
    have hlt : (k : ℚ) < m := lt_of_mul_lt_mul_right h hunit.le
    have hle : k + 1 ≤ m := by exact_mod_cast hlt
    have hcast : (k : ℚ) + 1 ≤ m := by exact_mod_cast hle
    exact mul_le_mul_of_nonneg_right (by linarith) hunit.le
  · have hle := value_le_of_exponent_lt hn hpq
    have hleading := leading_of_exponent_lt hm hn hpq
    rcases hleading.eq_or_lt with heq | hlt
    · right
      refine ⟨heq.symm, lt_of_le_of_lt hn.least hpq, ?_⟩
      rw [← heq]
      exact_mod_cast hle
    · left
      have hcast : (2 : ℚ) ^ 52 + 1 ≤ m := by exact_mod_cast hlt
      exact hle.trans (mul_le_mul_of_nonneg_right (by linarith) hunit.le)

/-- A number has one form. -/
theorem Fits.unique (hm : Fits m q) (hn : Fits n p) (h : value m q = value n p) : m = n ∧ q = p := by
  have hne {k l : Nat} {a b : Int} (hk : Fits k a) (hl : Fits l b) (hv : value k a = value l b) :
      ¬a < b := by
    intro hab
    have hle := value_le_of_exponent_lt hk hab
    have hleading : (2 : ℚ) ^ 52 ≤ l := by exact_mod_cast leading_of_exponent_lt hl hk hab
    have hvalue : (2 : ℚ) ^ 52 * 2 ^ b ≤ value l b :=
      mul_le_mul_of_nonneg_right hleading (two_zpow_pos b).le
    have hunit := two_zpow_pos b
    nlinarith
  have hq : q = p := le_antisymm (not_lt.1 (hne hn hm h.symm)) (not_lt.1 (hne hm hn h))
  subst hq
  have hcast : (m : ℚ) = n := mul_right_cancel₀ (two_zpow_pos q).ne' h
  exact ⟨by exact_mod_cast hcast, rfl⟩

/-- A number is rounded to one form: of two that are as near, only one is even. -/
theorem Rounded.unique {number : ℚ} (hm : Rounded number m q) (hn : Rounded number n p) : m = n ∧ q = p := by
  have hsame := le_antisymm (hm.nearest n p hn.fits) (hn.nearest m q hm.fits)
  rcases hm.even n p hn.fits hsame with ⟨rfl, rfl⟩ | ⟨heven, -⟩
  · exact ⟨rfl, rfl⟩
  · rcases hn.even m q hm.fits hsame.symm with ⟨rfl, rfl⟩ | ⟨-, hodd⟩
    · exact ⟨rfl, rfl⟩
    · omega

/-! ## Bits -/

/-- The cases of decoding, with the powers of two as numerals. -/
theorem ofBits_cases (bits : UInt64) :
    (ofBits bits = infinite (decide (2 ^ 63 ≤ bits.toNat)) ∧
        bits.toNat / 4503599627370496 % 2048 = 2047 ∧ bits.toNat % 4503599627370496 = 0) ∨
      (ofBits bits = nan ∧ bits.toNat / 4503599627370496 % 2048 = 2047) ∨
      (ofBits bits = finite (decide (2 ^ 63 ≤ bits.toNat)) (bits.toNat % 4503599627370496) leastExponent ∧
        bits.toNat / 4503599627370496 % 2048 = 0) ∨
      (ofBits bits = finite (decide (2 ^ 63 ≤ bits.toNat))
          (4503599627370496 + bits.toNat % 4503599627370496)
          ((bits.toNat / 4503599627370496 % 2048 : Nat) - 1075) ∧
        0 < bits.toNat / 4503599627370496 % 2048 ∧ bits.toNat / 4503599627370496 % 2048 < 2047) := by
  unfold ofBits
  simp only [show Nat.pow 2 52 = 4503599627370496 from rfl, show Nat.pow 2 11 = 2048 from rfl,
    show Nat.pow 2 63 = 2 ^ 63 from rfl]
  split_ifs with h₁ h₂ h₃
  · exact .inl ⟨rfl, h₁, h₂⟩
  · exact .inr (.inl ⟨rfl, h₁⟩)
  · exact .inr (.inr (.inl ⟨rfl, h₃⟩))
  · exact .inr (.inr (.inr ⟨rfl, by omega, by omega⟩))

/-- The bits of a finite double decode to a form, with the sign bit as its sign. -/
theorem fits_of_ofBits {bits : UInt64} {negative : Bool} (h : ofBits bits = finite negative m q) :
    Fits m q ∧ q ≤ greatestExponent ∧ negative = decide (2 ^ 63 ≤ bits.toNat) := by
  unfold greatestExponent
  rcases ofBits_cases bits with ⟨hbits, -⟩ | ⟨hbits, -⟩ | ⟨hbits, -⟩ | ⟨hbits, hfield⟩ <;>
    rw [hbits] at h
  · cases h
  · cases h
  · obtain ⟨rfl, rfl, rfl⟩ := finite.inj h
    exact ⟨⟨by omega, le_rfl, .inr rfl⟩, by unfold leastExponent; omega, rfl⟩
  · obtain ⟨rfl, rfl, rfl⟩ := finite.inj h
    exact ⟨⟨by omega, by unfold leastExponent; omega, .inl (by omega)⟩, by omega, rfl⟩

/-- The bits that encode what is a number: the inverse of decoding. -/
def encode : Double → Nat
  | nan => 0
  | infinite negative => (if negative then 2 ^ 63 else 0) + 2047 * 2 ^ 52
  | finite negative mantissa exponent =>
    (if negative then 2 ^ 63 else 0) +
      (if mantissa < 2 ^ 52 then mantissa else (exponent + 1075).toNat * 2 ^ 52 + (mantissa - 2 ^ 52))

/-- What is a number is encoded by the bits that it was decoded from. -/
theorem encode_ofBits {bits : UInt64} (hnan : ofBits bits ≠ nan) : encode (ofBits bits) = bits.toNat := by
  have hbound : bits.toNat < 2 ^ 64 := bits.toNat_lt
  have hsign : (if decide (2 ^ 63 ≤ bits.toNat) = true then 2 ^ 63 else 0) =
      bits.toNat / 4503599627370496 / 2048 * 2 ^ 63 := by
    split_ifs with h <;> rw [decide_eq_true_eq] at h <;> omega
  rcases ofBits_cases bits with ⟨h, hfield, hfraction⟩ | ⟨h, -⟩ | ⟨h, hfield⟩ | ⟨h, hfield, -⟩
  · rw [h, encode, hsign]
    omega
  · exact absurd h hnan
  · rw [h, encode, hsign, if_pos (by omega)]
    omega
  · rw [h, encode, hsign, if_neg (by omega)]
    omega

/-- What is a number is decoded from one pattern of bits. -/
theorem ofBits_inj {a b : UInt64} (hnan : ofBits a ≠ nan) (h : ofBits a = ofBits b) : a = b := by
  apply UInt64.toNat_inj.1
  rw [← encode_ofBits hnan, h, encode_ofBits (h ▸ hnan)]

/-- A signed number is rounded to the bits of a finite double. -/
def RoundsTo (negative : Bool) (number : ℚ) (bits : UInt64) : Prop :=
  ∃ m q, ofBits bits = finite negative m q ∧ Rounded number m q

/-- A signed number is rounded to one pattern of bits. -/
theorem RoundsTo.unique {negative : Bool} {number : ℚ} {a b : UInt64} (ha : RoundsTo negative number a)
    (hb : RoundsTo negative number b) : a = b := by
  obtain ⟨m, q, hm, hrounded⟩ := ha
  obtain ⟨n, p, hn, hrounded'⟩ := hb
  obtain ⟨rfl, rfl⟩ := hrounded.unique hrounded'
  exact ofBits_inj (by rw [hm]; exact Double.noConfusion) (hm.trans hn.symm)

/-! ## Intervals -/

/-- The lower end of the interval of a form. -/
def lower (mantissa : Nat) (exponent : Int) : ℚ :=
  (mantissa - (reach mantissa exponent).1 / 4) * 2 ^ exponent

/-- The upper end of the interval of a form. -/
def upper (mantissa : Nat) (exponent : Int) : ℚ := (mantissa + 1 / 2) * 2 ^ exponent

/-- A number lies in the interval of a form, to which its ends belong if the mantissa is even. -/
structure Inside (number : ℚ) (mantissa : Nat) (exponent : Int) : Prop where
  lower_le : lower mantissa exponent ≤ number
  le_upper : number ≤ upper mantissa exponent
  strict : mantissa % 2 = 1 → lower mantissa exponent < number ∧ number < upper mantissa exponent

/-- Where the forms below lie denser, the interval reaches down half as far as up. -/
theorem reach_of_dense (h : m = 2 ^ 52 ∧ leastExponent < q) : reach m q = (1, 2) := if_pos h

/-- Where the forms below lie no denser, the interval reaches down as far as up. -/
theorem reach_of_not_dense (h : ¬(m = 2 ^ 52 ∧ leastExponent < q)) : reach m q = (2, 2) := if_neg h

/-- Where the forms below lie denser, the interval reaches down a quarter of a unit. -/
theorem lower_of_dense (h : m = 2 ^ 52 ∧ leastExponent < q) : lower m q = (m - 1 / 4) * 2 ^ q := by
  rw [lower, reach_of_dense h]
  norm_num

/-- Where the forms below lie no denser, the interval reaches down half a unit. -/
theorem lower_of_not_dense (h : ¬(m = 2 ^ 52 ∧ leastExponent < q)) : lower m q = (m - 1 / 2) * 2 ^ q := by
  rw [lower, reach_of_not_dense h]
  norm_num

/-- No interval reaches down by more than half a unit. -/
theorem half_le_lower (m : Nat) (q : Int) : (m - 1 / 2) * 2 ^ q ≤ lower m q := by
  by_cases h : m = 2 ^ 52 ∧ leastExponent < q
  · rw [lower_of_dense h]
    exact mul_le_mul_of_nonneg_right (by linarith) (two_zpow_pos q).le
  · rw [lower_of_not_dense h]

/-- Zero is inside the interval of its form. -/
theorem inside_zero : Inside 0 0 leastExponent := by
  have hunit := two_zpow_pos leastExponent
  have hlower : lower 0 leastExponent = (0 - 1 / 2) * 2 ^ leastExponent := by
    rw [lower_of_not_dense (by norm_num), Nat.cast_zero]
  have hupper : upper 0 leastExponent = (0 + 1 / 2) * 2 ^ leastExponent := by rw [upper, Nat.cast_zero]
  exact ⟨by rw [hlower]; linarith, by rw [hupper]; linarith, fun hodd => absurd hodd (by norm_num)⟩

/-- The form a unit above an even one is odd. -/
theorem Fits.odd_of_value_eq_add (hm : Fits m q) (hn : Fits n p) (heven : m % 2 = 0)
    (h : value n p = (m + 1) * 2 ^ q) : n % 2 = 1 := by
  have hlt : m + 1 < 2 ^ 53 := by have := hm.mantissa_lt; omega
  have hnext : Fits (m + 1) q := ⟨hlt, hm.least, hm.leading.imp_left fun h => by omega⟩
  obtain ⟨rfl, -⟩ := Fits.unique hn hnext (by rw [h, value]; push_cast; ring)
  omega

/-- The form a unit below an even one is odd, where the forms below lie no denser. -/
theorem Fits.odd_of_value_eq_sub (hm : Fits m q) (hn : Fits n p) (heven : m % 2 = 0)
    (hdense : ¬(m = 2 ^ 52 ∧ leastExponent < q)) (hpositive : 0 < m) (h : value n p = (m - 1) * 2 ^ q) :
    n % 2 = 1 := by
  have hbefore : Fits (m - 1) q := by
    refine ⟨by have := hm.mantissa_lt; omega, hm.least, ?_⟩
    rcases hm.leading with hleading | hleast
    · rcases hleading.eq_or_lt with heq | hlt
      · right
        by_contra hq
        exact hdense ⟨heq.symm, lt_of_le_of_ne hm.least (Ne.symm hq)⟩
      · left
        omega
    · exact .inr hleast
  obtain ⟨rfl, -⟩ := Fits.unique hn hbefore (by rw [h, value, Nat.cast_sub hpositive, Nat.cast_one])
  omega

/-- The form half a unit below a leading digit is odd. -/
theorem Fits.odd_of_value_eq_sub_half (hn : Fits n p) (hq : leastExponent < q)
    (h : value n p = (2 ^ 52 - 1 / 2) * 2 ^ q) : n % 2 = 1 := by
  have hbefore : Fits (2 ^ 53 - 1) (q - 1) := ⟨by norm_num, by omega, .inl (by norm_num)⟩
  have hhalf : (2 : ℚ) ^ q = 2 * 2 ^ (q - 1) := by rw [← zpow_succ, sub_add_cancel]
  have hvalue : value n p = value (2 ^ 53 - 1) (q - 1) := by
    rw [h, hhalf, value]
    push_cast
    ring
  obtain ⟨rfl, -⟩ := Fits.unique hn hbefore hvalue
  norm_num

variable {v : ℚ}

/-- No form above is nearer to a number of the interval. -/
theorem Inside.le_above (hv : Inside v m q) (hm : Fits m q) (hn : Fits n p) (h : value m q < value n p) :
    |v - value m q| ≤ |v - value n p| ∧
      (|v - value m q| = |v - value n p| → m % 2 = 0 ∧ n % 2 = 1) := by
  have hunit := two_zpow_pos q
  have hgap := add_unit_le hm hn h
  have hlow := (half_le_lower m q).trans hv.lower_le
  have hhigh := hv.le_upper
  have hvalue : value m q = m * 2 ^ q := rfl
  have hupper : upper m q = (m + 1 / 2) * 2 ^ q := rfl
  rw [abs_of_nonpos (by linarith : v - value n p ≤ 0)]
  refine ⟨abs_le.2 ⟨by linarith, by linarith⟩, fun hsame => ?_⟩
  -- As near means that the number is the upper end and the other form a unit above.
  rcases abs_cases (v - value m q) with ⟨habs, -⟩ | ⟨habs, -⟩
  · have hend : v = upper m q := by linarith
    have heven : m % 2 = 0 := by
      by_contra hodd
      exact (hv.strict (by omega)).2.ne hend
    exact ⟨heven, hm.odd_of_value_eq_add hn heven (by linarith)⟩
  · exfalso
    linarith

/-- No form below is nearer to a number of the interval. -/
theorem Inside.le_below (hv : Inside v m q) (hm : Fits m q) (hn : Fits n p) (h : value n p < value m q) :
    |v - value m q| ≤ |v - value n p| ∧
      (|v - value m q| = |v - value n p| → m % 2 = 0 ∧ n % 2 = 1) := by
  have hunit := two_zpow_pos q
  have hlow := hv.lower_le
  have hhigh := hv.le_upper
  have hvalue : value m q = m * 2 ^ q := rfl
  have hupper : upper m q = (m + 1 / 2) * 2 ^ q := rfl
  by_cases hdense : m = 2 ^ 52 ∧ leastExponent < q
  · rw [lower_of_dense hdense] at hlow
    have hgap : value n p ≤ (m - 1 / 2) * 2 ^ q := by
      rcases le_sub_unit hm hn h with hunitBelow | ⟨-, -, hhalf⟩ <;> linarith
    rw [abs_of_nonneg (by linarith : 0 ≤ v - value n p)]
    refine ⟨abs_le.2 ⟨by linarith, by linarith⟩, fun hsame => ?_⟩
    rcases abs_cases (v - value m q) with ⟨habs, -⟩ | ⟨habs, -⟩
    · exfalso
      linarith
    · refine ⟨by omega, hn.odd_of_value_eq_sub_half hdense.2 ?_⟩
      have hm' : (m : ℚ) = 2 ^ 52 := by exact_mod_cast hdense.1
      rw [← hm']
      linarith
  · rw [lower_of_not_dense hdense] at hlow
    have hgap : value n p ≤ (m - 1) * 2 ^ q := by
      rcases le_sub_unit hm hn h with hunitBelow | ⟨hleading, hleast, -⟩
      · exact hunitBelow
      · exact absurd ⟨hleading, hleast⟩ hdense
    rw [abs_of_nonneg (by linarith : 0 ≤ v - value n p)]
    refine ⟨abs_le.2 ⟨by linarith, by linarith⟩, fun hsame => ?_⟩
    -- As near means that the number is the lower end and the other form a unit below.
    rcases abs_cases (v - value m q) with ⟨habs, -⟩ | ⟨habs, -⟩
    · exfalso
      linarith
    · have hend : v = lower m q := by rw [lower_of_not_dense hdense]; linarith
      have heven : m % 2 = 0 := by
        by_contra hodd
        exact (hv.strict (by omega)).1.ne' hend
      have hpositive : 0 < m := by
        by_contra hzero
        have hm0 : (m : ℚ) = 0 := by exact_mod_cast Nat.eq_zero_of_not_pos hzero
        have hn0 : 0 ≤ value n p := mul_nonneg n.cast_nonneg (two_zpow_pos p).le
        rw [hvalue, hm0] at h
        linarith
      exact ⟨heven, hm.odd_of_value_eq_sub hn heven hdense hpositive (by linarith)⟩

/-- The numbers of the interval of a form are rounded to it. -/
theorem rounded_of_inside (hm : Fits m q) (hv : Inside v m q) : Rounded v m q := by
  have hother (n : Nat) (p : Int) (hn : Fits n p) :
      |v - value m q| ≤ |v - value n p| ∧ (|v - value m q| = |v - value n p| →
        (n = m ∧ p = q) ∨ (m % 2 = 0 ∧ n % 2 = 1)) := by
    rcases lt_trichotomy (value n p) (value m q) with hlt | heq | hgt
    · exact (hv.le_below hm hn hlt).imp_right fun h hsame => .inr (h hsame)
    · exact ⟨by rw [heq], fun _ => .inl (Fits.unique hn hm heq)⟩
    · exact (hv.le_above hm hn hgt).imp_right fun h hsame => .inr (h hsame)
  exact ⟨hm, fun n p hn => (hother n p hn).1, fun n p hn => (hother n p hn).2⟩

end GuidedTour.Double
