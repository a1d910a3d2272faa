import GuidedTour.Proofs.Decimal.Rounding
import Mathlib.Data.Nat.Cast.Order.Field

/-!
# Shortest digits that round back

The digits chosen for a finite double lie in its interval (`Double.shortest_spec`), so the double is rounded back
from them, and they end in no zero. That there always is a choice is due to the grid of seventeen digits, whose
step is less than the width of any interval: of the two neighbours of a double on it, the nearer one is inside.
-/

set_option autoImplicit false

namespace GuidedTour

namespace Numeral

/-- The number that a numeral denotes. -/
def value (x : Numeral) : ℚ := x.digits * 10 ^ x.exponent

/-- Taking zeros off the end does not change the value. -/
theorem trim_value (fuel : Nat) (x : Numeral) : (trim fuel x).value = x.value := by
  induction fuel generalizing x with
  | zero => rfl
  | succ fuel ih =>
    unfold trim
    split_ifs with h
    · obtain ⟨k, hk⟩ := Nat.dvd_of_mod_eq_zero h.1
      rw [ih, value, value, hk, Nat.mul_div_cancel_left k (by norm_num), zpow_add_one₀ (by norm_num)]
      push_cast
      ring
    · rfl

/-- With enough fuel no zero is left. -/
theorem trim_digits (fuel : Nat) (x : Numeral) (hx : x.digits ≠ 0) (hfuel : x.digits < 2 ^ (fuel + 1)) :
    (trim fuel x).digits % 10 ≠ 0 := by
  induction fuel generalizing x with
  | zero =>
    -- The digits are a one.
    unfold trim
    omega
  | succ fuel ih =>
    unfold trim
    split_ifs with h
    · rw [pow_succ] at hfuel
      exact ih _ (by dsimp only; omega) (by dsimp only; omega)
    · exact fun hzero => h ⟨hzero, hx⟩

/-- A numeral without zeros at its end has the value it had. -/
theorem trimmed_value (x : Numeral) : x.trimmed.value = x.value := trim_value _ x

/-- A numeral without zeros at its end has none there. -/
theorem trimmed_digits {x : Numeral} (hx : x.digits ≠ 0) : x.trimmed.digits % 10 ≠ 0 :=
  trim_digits _ x hx Nat.lt_log2_self

end Numeral

namespace Double

variable {m : Nat} {q : Int}

/-- The denominator of a form is positive. -/
theorem fraction_pos (m : Nat) (q : Int) : 0 < (fraction m q).2 := by
  unfold fraction
  split_ifs
  · exact one_pos
  · exact Nat.pow_pos two_pos

/-- The fraction of a form is its value. -/
theorem fraction_value (m : Nat) (q : Int) : ((fraction m q).1 / (fraction m q).2 : ℚ) = value m q := by
  unfold fraction value
  split_ifs with hq
  · rw [Nat.cast_mul, cast_natPow_toNat 2 hq, Nat.cast_ofNat, Nat.cast_one, div_one]
  · rw [cast_natPow_neg_toNat 2 hq, Nat.cast_ofNat, div_inv_eq_mul]

/-! ## The interval test -/

/-- Whether a number lies in an interval can be told from the ends and the number at one scale. -/
theorem inside_iff_of_scale {v D : ℚ} {low high point : Nat} (hD : 0 < D) (hlow : (low : ℚ) = lower m q * D)
    (hhigh : (high : ℚ) = upper m q * D) (hpoint : (point : ℚ) = v * D) :
    (if m % 2 = 0 then decide (low ≤ point) && decide (point ≤ high)
      else decide (low < point) && decide (point < high)) = true ↔ Inside v m q := by
  have hle_low : low ≤ point ↔ lower m q ≤ v := by
    rw [← Nat.cast_le (α := ℚ), hlow, hpoint, mul_le_mul_iff_left₀ hD]
  have hle_high : point ≤ high ↔ v ≤ upper m q := by
    rw [← Nat.cast_le (α := ℚ), hhigh, hpoint, mul_le_mul_iff_left₀ hD]
  have hlt_low : low < point ↔ lower m q < v := by
    rw [← Nat.cast_lt (α := ℚ), hlow, hpoint, mul_lt_mul_iff_left₀ hD]
  have hlt_high : point < high ↔ v < upper m q := by
    rw [← Nat.cast_lt (α := ℚ), hhigh, hpoint, mul_lt_mul_iff_left₀ hD]
  split_ifs with heven
  · rw [Bool.and_eq_true, decide_eq_true_eq, decide_eq_true_eq, hle_low, hle_high]
    exact ⟨fun h => ⟨h.1, h.2, fun hodd => by omega⟩, fun h => ⟨h.lower_le, h.le_upper⟩⟩
  · rw [Bool.and_eq_true, decide_eq_true_eq, decide_eq_true_eq, hlt_low, hlt_high]
    exact ⟨fun h => ⟨h.1.le, h.2.le, fun _ => h⟩, fun h => h.strict (by omega)⟩

/-- The scale at which a decimal is a whole number: a power of ten on one side of the comparison, or on the other. -/
theorem exists_scale (x : Numeral) : ∃ T P : Nat,
    (∀ k : Nat, (if 0 ≤ x.exponent then k else k * Nat.pow 10 (-x.exponent).toNat) = k * T) ∧
      (if 0 ≤ x.exponent then Nat.pow 10 x.exponent.toNat else 1) = P ∧
      (0 : ℚ) < T ∧ x.digits * P = x.value * T := by
  unfold Numeral.value
  by_cases he : 0 ≤ x.exponent
  · refine ⟨1, Nat.pow 10 x.exponent.toNat, fun k => by rw [if_pos he, mul_one], if_pos he, by norm_num, ?_⟩
    rw [cast_natPow_toNat 10 he, Nat.cast_ofNat, Nat.cast_one, mul_one]
  · have hten : (0 : ℚ) < 10 ^ x.exponent := zpow_pos (by norm_num) _
    have hpower := cast_natPow_neg_toNat 10 he
    rw [Nat.cast_ofNat] at hpower
    refine ⟨Nat.pow 10 (-x.exponent).toNat, 1, fun k => by rw [if_neg he], if_neg he, ?_, ?_⟩
    · rw [hpower]
      exact inv_pos.2 hten
    · rw [hpower, Nat.cast_one, mul_one, mul_inv_cancel_right₀ hten.ne']

/-- The test of a numeral against an interval, which is made with naturals, is exact. -/
theorem contains_iff (hm : 0 < m) (x : Numeral) : contains m q x = true ↔ Inside x.value m q := by
  have hreach : (reach m q).1 ≤ 2 ∧ (reach m q).2 = 2 := by
    unfold reach
    split_ifs <;> norm_num
  have hdenominator : (0 : ℚ) < (fraction 1 q).2 := by exact_mod_cast fraction_pos 1 q
  have hunit : ((fraction 1 q).1 : ℚ) = 2 ^ q * (fraction 1 q).2 := by
    have h := fraction_value 1 q
    rwa [div_eq_iff hdenominator.ne', value, Nat.cast_one, one_mul] at h
  obtain ⟨T, P, hT, hP, hpositive, hscale⟩ := exists_scale x
  unfold contains
  simp only [hT, hP]
  apply inside_iff_of_scale (D := 4 * (fraction 1 q).2 * T) (by positivity)
  · rw [Nat.cast_mul, Nat.cast_mul, Nat.cast_sub (by omega), hunit, lower]
    push_cast
    ring
  · rw [hreach.2, Nat.cast_mul, Nat.cast_mul, hunit, upper]
    push_cast
    ring
  · calc ((4 * x.digits * (fraction 1 q).2 * P : Nat) : ℚ)
        = 4 * (fraction 1 q).2 * (x.digits * P) := by push_cast; ring
      _ = x.value * (4 * (fraction 1 q).2 * T) := by rw [hscale]; ring

/-! ## The grids -/

/-- No positive form is below the three hundred and fortieth power of a tenth. -/
theorem ten_zpow_le_value (hm : 0 < m) (hq : leastExponent ≤ q) : (10 : ℚ) ^ (-340 : Int) ≤ value m q := by
  have hcast : (1 : ℚ) ≤ m := by exact_mod_cast hm
  have hbound : 2 ^ 1074 ≤ 10 ^ 340 := by decide +kernel
  calc (10 : ℚ) ^ (-340 : Int) ≤ 2 ^ leastExponent := by
        rw [leastExponent, zpow_neg, zpow_neg]
        exact inv_anti₀ (zpow_pos two_pos _) (by exact_mod_cast hbound)
    _ ≤ 1 * 2 ^ q := by rw [one_mul]; exact zpow_le_zpow_right₀ one_le_two hq
    _ ≤ value m q := mul_le_mul_of_nonneg_right hcast (two_zpow_pos q).le

/-- A quotient of naturals is the whole part of the fraction. -/
theorem natDiv_spec (n : Nat) {d : Nat} (hd : 0 < d) :
    ((n / d : Nat) : ℚ) ≤ n / d ∧ (n / d : ℚ) < (n / d : Nat) + 1 := by
  have hd' : (0 : ℚ) < d := by exact_mod_cast hd
  refine ⟨Nat.cast_div_le, ?_⟩
  rw [div_lt_iff₀ hd']
  rw [mul_comm]
  exact_mod_cast Nat.lt_mul_div_succ n hd

/-- The digits of a positive double that is moved up by a power of ten, past the point, tell its magnitude. -/
theorem length_toDigits_moved (m : Nat) (q e : Int) {scale : Nat} (hscale : (scale : ℚ) = 10 ^ e)
    (hone : (1 : ℚ) ≤ value m q * 10 ^ e) :
    (10 : ℚ) ^ (((Nat.toDigits 10 ((fraction m q).1 * scale / (fraction m q).2)).length : Int) - e - 1) ≤
        value m q ∧
      value m q < 10 ^ (((Nat.toDigits 10 ((fraction m q).1 * scale / (fraction m q).2)).length : Int) - e) := by
  have hten : (0 : ℚ) < 10 ^ e := zpow_pos (by norm_num) _
  have hscaled : (((fraction m q).1 * scale : Nat) / (fraction m q).2 : ℚ) = value m q * 10 ^ e := by
    rw [← fraction_value, Nat.cast_mul, mul_div_right_comm, hscale]
  obtain ⟨hfloor, hceil⟩ := natDiv_spec ((fraction m q).1 * scale) (fraction_pos m q)
  rw [hscaled] at hfloor hceil
  generalize (fraction m q).1 * scale / (fraction m q).2 = N at hfloor hceil ⊢
  have hN : 0 < N := by
    by_contra hzero
    rw [Nat.eq_zero_of_not_pos hzero, Nat.cast_zero, zero_add] at hceil
    exact absurd hone (not_le.2 hceil)
  obtain ⟨hlow, hhigh⟩ := length_toDigits_spec hN
  constructor
  · rw [sub_right_comm, zpow_sub₀ (by norm_num), div_le_iff₀ hten]
    exact hlow.trans hfloor
  · rw [zpow_sub₀ (by norm_num), lt_div_iff₀ hten]
    exact hceil.trans_le hhigh

/-- The places before the point tell the magnitude of a positive double. -/
theorem places_spec (hm : 0 < m) (hq : leastExponent ≤ q) :
    (10 : ℚ) ^ (places m q - 1) ≤ value m q ∧ value m q < 10 ^ places m q := by
  have hone : (1 : ℚ) ≤ value m q * 10 ^ (340 : Int) := by
    have h := mul_le_mul_of_nonneg_right (ten_zpow_le_value hm hq)
      (zpow_pos (by norm_num : (0 : ℚ) < 10) 340).le
    rwa [← zpow_add₀ (by norm_num), neg_add_cancel, zpow_zero] at h
  refine length_toDigits_moved m q 340 ?_ hone
  simp only [cast_natPow, Nat.cast_ofNat]

/-- What is known of the grid of a number of digits: the double lies between two neighbours, one of them is chosen if
it is in the interval, and there is no choice only if neither is. -/
theorem onGrid?_spec (m : Nat) (q : Int) (count : Nat) : ∃ k : Nat,
    (k * 10 ^ (places m q - count) : ℚ) ≤ value m q ∧ value m q < (k + 1) * 10 ^ (places m q - count) ∧
      (∀ x, onGrid? m q count = some x → contains m q x = true) ∧
      (onGrid? m q count = none →
        contains m q ⟨k, places m q - count⟩ = false ∧ contains m q ⟨k + 1, places m q - count⟩ = false) := by
  unfold onGrid?
  dsimp only
  generalize places m q - count = step
  have hstep : (0 : ℚ) < 10 ^ step := zpow_pos (by norm_num) _
  generalize hN : (if 0 ≤ step then (fraction m q).1 else (fraction m q).1 * Nat.pow 10 (-step).toNat) = N
  generalize hD : (if 0 ≤ step then (fraction m q).2 * Nat.pow 10 step.toNat else (fraction m q).2) = D
  have hpositive : 0 < D := by
    rw [← hD]
    split_ifs
    · exact Nat.mul_pos (fraction_pos m q) (Nat.pow_pos (by norm_num))
    · exact fraction_pos m q
  have hvalue : (N / D : ℚ) = value m q / 10 ^ step := by
    rw [← hN, ← hD, ← fraction_value]
    split_ifs with hs
    · rw [Nat.cast_mul, cast_natPow_toNat 10 hs, Nat.cast_ofNat, div_div]
    · rw [Nat.cast_mul, cast_natPow_neg_toNat 10 hs, Nat.cast_ofNat, mul_div_right_comm,
        div_eq_mul_inv _ ((10 : ℚ) ^ step)]
  obtain ⟨hfloor, hceil⟩ := natDiv_spec N hpositive
  rw [hvalue] at hfloor hceil
  refine ⟨N / D, (le_div_iff₀ hstep).1 hfloor, (div_lt_iff₀ hstep).1 hceil, ?_⟩
  have hround : roundHalfEven N D = N / D ∨ roundHalfEven N D = N / D + 1 := by
    unfold roundHalfEven
    dsimp only
    split_ifs <;> simp
  cases hbelow : contains m q ⟨N / D, step⟩ <;> cases habove : contains m q ⟨N / D + 1, step⟩ <;>
    simp only [reduceCtorEq, Option.some.injEq, forall_eq', false_implies, implies_true, and_self, hbelow,
      habove]
  rcases hround with h | h <;> simp [h, hbelow, habove]

/-- A step that is small beside a double takes half of it no further than its interval reaches. -/
theorem half_step_inside (hm : Fits m q) {step : ℚ} (hstep : step * 10 ^ 16 ≤ value m q) :
    lower m q < value m q - step / 2 ∧ value m q + step / 2 < upper m q := by
  have hunit := two_zpow_pos q
  have hvalue : value m q = m * 2 ^ q := rfl
  have hlt : (m : ℚ) * 2 ^ q ≤ 2 ^ 53 * 2 ^ q :=
    mul_le_mul_of_nonneg_right (by exact_mod_cast hm.mantissa_lt.le) hunit.le
  constructor
  · by_cases hdense : m = 2 ^ 52 ∧ leastExponent < q
    · have hleading : (m : ℚ) = 2 ^ 52 := by exact_mod_cast hdense.1
      rw [lower_of_dense hdense]
      rw [hvalue, hleading] at hstep ⊢
      linarith
    · rw [lower_of_not_dense hdense]
      linarith
  · rw [upper]
    linarith

/-- On the grid of seventeen digits the nearer neighbour of a double is in its interval. -/
theorem onGrid?_seventeen (hm : Fits m q) (hpositive : 0 < m) : onGrid? m q 17 ≠ none := by
  intro hnone
  obtain ⟨k, hbelow, habove, -, hneither⟩ := onGrid?_spec m q 17
  obtain ⟨hnotBelow, hnotAbove⟩ := hneither hnone
  have hstep : (10 : ℚ) ^ (places m q - (17 : Nat)) * 10 ^ 16 ≤ value m q := by
    refine le_trans (le_of_eq ?_) (places_spec hpositive hm.least).1
    rw [← zpow_natCast, ← zpow_add₀ (by norm_num)]
    congr 1
    push_cast
    ring
  generalize hs : (10 : ℚ) ^ (places m q - (17 : Nat)) = step at hbelow habove hstep
  obtain ⟨hdown, hup⟩ := half_step_inside hm hstep
  rw [← Bool.not_eq_true, contains_iff hpositive, Numeral.value, hs] at hnotBelow hnotAbove
  rcases le_total (value m q - k * step) (step / 2) with hnear | hfar
  · exact hnotBelow ⟨by linarith, by linarith, fun _ => ⟨by linarith, by linarith⟩⟩
  · push_cast at hnotAbove
    exact hnotAbove ⟨by linarith, by linarith, fun _ => ⟨by linarith, by linarith⟩⟩

/-! ## The choice -/

/-- The digits chosen for a positive double lie in its interval, and the last of them is no zero. -/
theorem shortest_spec (hm : Fits m q) (hpositive : 0 < m) :
    Inside (shortest m q).value m q ∧ (shortest m q).digits % 10 ≠ 0 := by
  unfold shortest
  dsimp only
  generalize hchoice : ((List.range 17).map (· + 1)).findSome? (onGrid? m q) = choice
  cases choice with
  | none =>
    rw [List.findSome?_eq_none_iff] at hchoice
    exact absurd (hchoice 17 (by simp)) (onGrid?_seventeen hm hpositive)
  | some x =>
    obtain ⟨count, -, hx⟩ := List.exists_of_findSome?_eq_some hchoice
    obtain ⟨-, -, -, hcontains, -⟩ := onGrid?_spec m q count
    have hinside : Inside x.value m q := (contains_iff hpositive x).1 (hcontains x hx)
    have hdigits : 0 < x.digits := digits_pos_of_inside hpositive hm.least hinside
    rw [Option.getD_some, Numeral.trimmed_value]
    exact ⟨hinside, Numeral.trimmed_digits hdigits.ne'⟩

end Double

end GuidedTour
