import GuidedTour.Proofs.Decimal.Form

/-!
# Rounding to doubles

The rounding of fractions and of decimals computes the form of the interval that the number lies in
(`Double.nearest_of_inside`, `Double.ofDecimal_of_inside`). Where the forms below lie twice as dense, the lowest quarter
of a unit of the interval has the smaller exponent; there the mantissa is rounded up to one digit more and carried into
the next exponent.
-/

set_option autoImplicit false

namespace GuidedTour.Double

variable {m : Nat} {q : Int}

/-! ## Powers on either side of a fraction -/

/-- A power of naturals is the power of rationals. -/
theorem cast_natPow (b k : Nat) : ((Nat.pow b k : Nat) : ℚ) = (b : ℚ) ^ (k : Int) := by
  rw [Nat.pow_eq, Nat.cast_pow, zpow_natCast]

/-- A power of naturals is the power of rationals, told of an integer exponent that is not negative. -/
theorem cast_natPow_toNat (b : Nat) {e : Int} (he : 0 ≤ e) : ((Nat.pow b e.toNat : Nat) : ℚ) = (b : ℚ) ^ e := by
  rw [cast_natPow, Int.toNat_of_nonneg he]

/-- The power that is computed for a negative exponent, on the other side of the fraction. -/
theorem cast_natPow_neg_toNat (b : Nat) {e : Int} (he : ¬0 ≤ e) :
    ((Nat.pow b (-e).toNat : Nat) : ℚ) = ((b : ℚ) ^ e)⁻¹ := by
  rw [cast_natPow, Int.toNat_of_nonneg (by omega), zpow_neg]

/-! ## The computed rounding -/

variable {numerator denominator k : Nat} {e : Int}

/-- A whole number within half a denominator of the numerator is the quotient or the one after it, and of the two the
one that is taken. -/
theorem roundHalfEven_of_bounds (hpositive : 0 < denominator)
    (hlow : 2 * (k * denominator) ≤ 2 * numerator + denominator)
    (hhigh : 2 * numerator ≤ 2 * (k * denominator) + denominator)
    (hstrict : k % 2 = 1 → 2 * (k * denominator) < 2 * numerator + denominator ∧
      2 * numerator < 2 * (k * denominator) + denominator) : roundHalfEven numerator denominator = k := by
  have hdiv := Nat.div_add_mod' numerator denominator
  have hmod := Nat.mod_lt numerator hpositive
  unfold roundHalfEven
  generalize numerator / denominator = quotient at hdiv ⊢
  generalize numerator % denominator = rest at hdiv hmod ⊢
  have hquotient : k = quotient ∨ k = quotient + 1 := by
    rcases Nat.lt_trichotomy k quotient with hlt | heq | hgt
    · exfalso
      have hmultiple : (k + 1) * denominator ≤ quotient * denominator := Nat.mul_le_mul_right _ hlt
      rw [Nat.add_mul] at hmultiple
      omega
    · exact .inl heq
    · rcases Nat.eq_or_lt_of_le (Nat.succ_le_of_lt hgt) with heq | hlt
      · exact .inr heq.symm
      · exfalso
        have hmultiple : (quotient + 2) * denominator ≤ k * denominator := Nat.mul_le_mul_right _ hlt
        rw [Nat.add_mul] at hmultiple
        omega
  rcases hquotient with rfl | rfl
  · dsimp only
    split_ifs <;> omega
  · rw [Nat.add_mul] at hlow hhigh hstrict
    dsimp only
    split_ifs <;> omega

/-- A quotient within half a unit of a whole number is rounded to it, at just half a unit if the whole number is
even. -/
theorem roundHalfEven_eq (hpositive : 0 < denominator)
    (hlow : (k - 1 / 2 : ℚ) ≤ numerator / denominator) (hhigh : (numerator / denominator : ℚ) ≤ k + 1 / 2)
    (hstrict : k % 2 = 1 →
      (k - 1 / 2 : ℚ) < numerator / denominator ∧ (numerator / denominator : ℚ) < k + 1 / 2) :
    roundHalfEven numerator denominator = k := by
  have hd : (0 : ℚ) < denominator := by exact_mod_cast hpositive
  rw [le_div_iff₀ hd] at hlow
  rw [div_le_iff₀ hd] at hhigh
  rw [lt_div_iff₀ hd, div_lt_iff₀ hd] at hstrict
  have hlow' : (2 * (k * denominator) : ℚ) ≤ 2 * numerator + denominator := by linarith
  have hhigh' : (2 * numerator : ℚ) ≤ 2 * (k * denominator) + denominator := by linarith
  refine roundHalfEven_of_bounds hpositive (by exact_mod_cast hlow') (by exact_mod_cast hhigh') fun hodd => ?_
  obtain ⟨hlt, hgt⟩ := hstrict hodd
  have hlt' : (2 * (k * denominator) : ℚ) < 2 * numerator + denominator := by linarith
  have hgt' : (2 * numerator : ℚ) < 2 * (k * denominator) + denominator := by linarith
  exact ⟨by exact_mod_cast hlt', by exact_mod_cast hgt'⟩

/-- The mantissa that is computed for an exponent, from bounds on the number in units of that exponent. -/
theorem roundHalfEven_scaled (hpositive : 0 < denominator)
    (hlow : (k - 1 / 2 : ℚ) * 2 ^ e ≤ numerator / denominator)
    (hhigh : (numerator / denominator : ℚ) ≤ (k + 1 / 2) * 2 ^ e)
    (hstrict : k % 2 = 1 →
      (k - 1 / 2 : ℚ) * 2 ^ e < numerator / denominator ∧
      (numerator / denominator : ℚ) < (k + 1 / 2) * 2 ^ e) :
    (if 0 ≤ e then roundHalfEven numerator (denominator * Nat.pow 2 e.toNat)
      else roundHalfEven (numerator * Nat.pow 2 (-e).toNat) denominator) = k := by
  have hunit := two_zpow_pos e
  have hscaled (a b : Nat) (h : (a / b : ℚ) = numerator / denominator / 2 ^ e) (hb : 0 < b) :
      roundHalfEven a b = k := by
    apply roundHalfEven_eq hb <;> rw [h]
    · exact (le_div_iff₀ hunit).2 hlow
    · exact (div_le_iff₀ hunit).2 hhigh
    · exact fun hodd => ⟨(lt_div_iff₀ hunit).2 (hstrict hodd).1, (div_lt_iff₀ hunit).2 (hstrict hodd).2⟩
  split_ifs with he
  · refine hscaled _ _ ?_ (Nat.mul_pos hpositive (Nat.pow_pos two_pos))
    rw [Nat.cast_mul, cast_natPow_toNat 2 he, Nat.cast_ofNat, div_div]
  · refine hscaled _ _ ?_ hpositive
    rw [Nat.cast_mul, cast_natPow_neg_toNat 2 he, Nat.cast_ofNat, mul_div_right_comm, div_eq_mul_inv _ ((2 : ℚ) ^ e)]

/-- The binary logarithm of a natural is exact. -/
theorem two_zpow_log2 (hk : 0 < k) : (2 : ℚ) ^ (k.log2 : Int) ≤ k ∧ (k : ℚ) < 2 ^ ((k.log2 : Int) + 1) := by
  refine ⟨?_, ?_⟩
  · rw [zpow_natCast]
    exact_mod_cast Nat.log2_self_le hk.ne'
  · rw [← Nat.cast_add_one, zpow_natCast]
    exact_mod_cast Nat.lt_log2_self

/-- The test of a fraction against a power of two, which is made without division. -/
theorem two_zpow_le_div_iff (numerator : Nat) (hd : 0 < denominator) (e : Int) :
    (if 0 ≤ e then denominator * Nat.pow 2 e.toNat ≤ numerator
      else denominator ≤ numerator * Nat.pow 2 (-e).toNat) ↔ (2 : ℚ) ^ e ≤ numerator / denominator := by
  have hd' : (0 : ℚ) < denominator := by exact_mod_cast hd
  rw [le_div_iff₀ hd']
  split_ifs with he
  · rw [← Nat.cast_le (α := ℚ), Nat.cast_mul, cast_natPow_toNat 2 he, Nat.cast_ofNat, mul_comm]
  · rw [← Nat.cast_le (α := ℚ), Nat.cast_mul, cast_natPow_neg_toNat 2 he, Nat.cast_ofNat,
      le_mul_inv_iff₀ (two_zpow_pos e), mul_comm]

/-- The binary logarithm of a fraction is exact. -/
theorem fractionLog2_spec (hn : 0 < numerator) (hd : 0 < denominator) :
    (2 : ℚ) ^ fractionLog2 numerator denominator ≤ numerator / denominator ∧
      (numerator / denominator : ℚ) < 2 ^ (fractionLog2 numerator denominator + 1) := by
  have hd' : (0 : ℚ) < denominator := by exact_mod_cast hd
  obtain ⟨hn₁, hn₂⟩ := two_zpow_log2 hn
  obtain ⟨hd₁, hd₂⟩ := two_zpow_log2 hd
  have hlow : (2 : ℚ) ^ ((numerator.log2 : Int) - denominator.log2 - 1) ≤ numerator / denominator := by
    rw [le_div_iff₀ hd']
    calc (2 : ℚ) ^ ((numerator.log2 : Int) - denominator.log2 - 1) * denominator
        ≤ 2 ^ ((numerator.log2 : Int) - denominator.log2 - 1) * 2 ^ ((denominator.log2 : Int) + 1) :=
          mul_le_mul_of_nonneg_left hd₂.le (two_zpow_pos _).le
      _ = 2 ^ (numerator.log2 : Int) := by rw [← zpow_add₀ two_ne_zero]; congr 1; omega
      _ ≤ numerator := hn₁
  have hhigh : (numerator / denominator : ℚ) < 2 ^ ((numerator.log2 : Int) - denominator.log2 + 1) := by
    rw [div_lt_iff₀ hd']
    calc (numerator : ℚ) < 2 ^ ((numerator.log2 : Int) + 1) := hn₂
      _ = 2 ^ ((numerator.log2 : Int) - denominator.log2 + 1) * 2 ^ (denominator.log2 : Int) := by
          rw [← zpow_add₀ two_ne_zero]; congr 1; omega
      _ ≤ 2 ^ ((numerator.log2 : Int) - denominator.log2 + 1) * denominator :=
          mul_le_mul_of_nonneg_left hd₁ (two_zpow_pos _).le
  unfold fractionLog2
  have htest := two_zpow_le_div_iff numerator hd ((numerator.log2 : Int) - denominator.log2)
  by_cases hreaches : (2 : ℚ) ^ ((numerator.log2 : Int) - denominator.log2) ≤ numerator / denominator
  · rw [if_pos (htest.2 hreaches)]
    exact ⟨hreaches, hhigh⟩
  · rw [if_neg (mt htest.1 hreaches), sub_add_cancel]
    exact ⟨hlow, not_le.1 hreaches⟩

/-- The binary logarithm of a fraction is the one exponent between whose powers it lies. -/
theorem fractionLog2_eq (hn : 0 < numerator) (hd : 0 < denominator)
    (hlow : (2 : ℚ) ^ e ≤ numerator / denominator) (hhigh : (numerator / denominator : ℚ) < 2 ^ (e + 1)) :
    fractionLog2 numerator denominator = e := by
  obtain ⟨h₁, h₂⟩ := fractionLog2_spec hn hd
  have h₃ := (zpow_lt_zpow_iff_right₀ (one_lt_two : (1 : ℚ) < 2)).1 (hlow.trans_lt h₂)
  have h₄ := (zpow_lt_zpow_iff_right₀ (one_lt_two : (1 : ℚ) < 2)).1 (h₁.trans_lt hhigh)
  omega

/-- The rounding of a fraction whose mantissa is not carried. -/
theorem nearest_of_mantissa (negative : Bool) (hn : numerator ≠ 0)
    (hexponent : max (fractionLog2 numerator denominator - 52) leastExponent = e)
    (hmantissa : (if 0 ≤ e then roundHalfEven numerator (denominator * Nat.pow 2 e.toNat)
      else roundHalfEven (numerator * Nat.pow 2 (-e).toNat) denominator) = k)
    (hk : k < 2 ^ 53) (he : e ≤ greatestExponent) :
    nearest negative numerator denominator = finite negative k e := by
  unfold nearest
  rw [if_neg hn]
  simp only [hexponent, hmantissa]
  rw [if_neg (show k ≠ Nat.pow 2 53 from hk.ne)]
  exact if_neg (not_lt.2 he)

/-- The rounding of a fraction whose mantissa is carried into the next exponent. -/
theorem nearest_of_carry (negative : Bool) (hn : numerator ≠ 0)
    (hexponent : max (fractionLog2 numerator denominator - 52) leastExponent = e)
    (hmantissa : (if 0 ≤ e then roundHalfEven numerator (denominator * Nat.pow 2 e.toNat)
      else roundHalfEven (numerator * Nat.pow 2 (-e).toNat) denominator) = 2 ^ 53)
    (he : e + 1 ≤ greatestExponent) :
    nearest negative numerator denominator = finite negative (2 ^ 52) (e + 1) := by
  unfold nearest
  rw [if_neg hn]
  simp only [hexponent, hmantissa]
  rw [if_pos (show 2 ^ 53 = Nat.pow 2 53 from rfl)]
  exact if_neg (not_lt.2 he)

/-- A greater unit is so many smaller ones. -/
theorem two_zpow_add (q : Int) (k : Nat) : (2 : ℚ) ^ (q + k) = 2 ^ k * 2 ^ q := by
  rw [zpow_add₀ two_ne_zero, mul_comm, zpow_natCast]

/-- The interval of a form ends below the next power of two. -/
theorem upper_lt (hm : Fits m q) : upper m q < 2 ^ (q + 53) := by
  have hmantissa : (m : ℚ) + 1 ≤ 2 ^ 53 := by exact_mod_cast hm.mantissa_lt
  have hunit := two_zpow_pos q
  calc upper m q = (m + 1 / 2) * 2 ^ q := rfl
    _ < 2 ^ 53 * 2 ^ q := mul_lt_mul_of_pos_right (by linarith) hunit
    _ = 2 ^ (q + 53) := (two_zpow_add q 53).symm

/-- A fraction inside the interval of a form is rounded to it, if it has as many binary places as the form. -/
theorem nearest_of_leading (negative : Bool) (hm : Fits m q) (hq : q ≤ greatestExponent) (hn : 0 < numerator)
    (hd : 0 < denominator) (hv : Inside (numerator / denominator) m q)
    (hleading : (2 : ℚ) ^ (q + 52) ≤ numerator / denominator ∨ q = leastExponent) :
    nearest negative numerator denominator = finite negative m q := by
  obtain ⟨hlog, hlog'⟩ := fractionLog2_spec hn hd
  have hbelow : fractionLog2 numerator denominator < q + 53 :=
    (zpow_lt_zpow_iff_right₀ one_lt_two).1 (hlog.trans_lt (hv.le_upper.trans_lt (upper_lt hm)))
  have hexponent : max (fractionLog2 numerator denominator - 52) leastExponent = q := by
    have hleast := hm.least
    rcases hleading with hleading | heq
    · have habove := (zpow_lt_zpow_iff_right₀ (one_lt_two : (1 : ℚ) < 2)).1 (hleading.trans_lt hlog')
      omega
    · omega
  refine nearest_of_mantissa negative hn.ne' hexponent (roundHalfEven_scaled hd ?_ hv.le_upper ?_) hm.mantissa_lt hq
  · exact (half_le_lower m q).trans hv.lower_le
  · exact fun hodd => (hv.strict hodd).imp_left (half_le_lower m q).trans_lt

/-- Below its leading digit only the interval of a power of two has numbers. -/
theorem Inside.eq_leading {v : ℚ} (hv : Inside v m q) (hm : Fits m q) (hq : q ≠ leastExponent)
    (hlt : v < 2 ^ 52 * 2 ^ q) : m = 2 ^ 52 := by
  rcases (hm.leading.resolve_right hq).eq_or_lt with heq | hgt
  · exact heq.symm
  · exfalso
    have hcast : (2 : ℚ) ^ 52 + 1 ≤ m := by exact_mod_cast hgt
    have hle : (2 : ℚ) ^ 52 * 2 ^ q ≤ (m - 1 / 2) * 2 ^ q :=
      mul_le_mul_of_nonneg_right (by linarith) (two_zpow_pos q).le
    exact absurd (hle.trans ((half_le_lower m q).trans hv.lower_le)) (not_le.2 hlt)

/-- Below its leading digit a form is reached by a carry out of the next smaller exponent. -/
theorem nearest_of_lt_leading (negative : Bool) (hm : Fits m q) (hq : q ≤ greatestExponent) (hn : 0 < numerator)
    (hd : 0 < denominator) (hv : Inside (numerator / denominator) m q) (hleast : q ≠ leastExponent)
    (hlt : (numerator / denominator : ℚ) < 2 ^ 52 * 2 ^ q) :
    nearest negative numerator denominator = finite negative m q := by
  obtain rfl : m = 2 ^ 52 := hv.eq_leading hm hleast hlt
  have hbelow : leastExponent < q := lt_of_le_of_ne hm.least (Ne.symm hleast)
  have hhalf : (2 : ℚ) ^ q = 2 * 2 ^ (q - 1) := by rw [← zpow_succ, sub_add_cancel]
  have hlow := hv.lower_le
  rw [lower_of_dense ⟨rfl, hbelow⟩, Nat.cast_pow, Nat.cast_ofNat] at hlow
  have hlog : fractionLog2 numerator denominator = q + 51 := by
    refine fractionLog2_eq hn hd ?_ ?_
    · have hunit := two_zpow_pos q
      rw [show q + 51 = q + (51 : Nat) from rfl, two_zpow_add]
      linarith
    · rw [show q + 51 + 1 = q + (52 : Nat) by push_cast; omega, two_zpow_add]
      exact hlt
  have hcarry := nearest_of_carry (e := q - 1) negative hn.ne' (by omega)
    (roundHalfEven_scaled hd
      (by rw [Nat.cast_pow, Nat.cast_ofNat]; linarith)
      (by rw [Nat.cast_pow, Nat.cast_ofNat]; linarith)
      (fun hodd => absurd hodd (by norm_num))) (by omega)
  rwa [sub_add_cancel] at hcarry

/-- A fraction inside the interval of a form is rounded to it. -/
theorem nearest_of_inside (negative : Bool) (hm : Fits m q) (hq : q ≤ greatestExponent)
    (hn : 0 < numerator) (hd : 0 < denominator) (hv : Inside (numerator / denominator) m q) :
    nearest negative numerator denominator = finite negative m q := by
  by_cases hleading : (2 : ℚ) ^ (q + 52) ≤ numerator / denominator ∨ q = leastExponent
  · exact nearest_of_leading negative hm hq hn hd hv hleading
  · obtain ⟨hlt, hleast⟩ := not_or.1 hleading
    rw [show q + 52 = q + (52 : Nat) from rfl, two_zpow_add, not_le] at hlt
    exact nearest_of_lt_leading negative hm hq hn hd hv hleast hlt

/-! ## Rounding decimals -/

/-- The digits of a positive number tell its magnitude. -/
theorem length_toDigits_spec (hk : 0 < k) :
    (10 : ℚ) ^ (((Nat.toDigits 10 k).length : Int) - 1) ≤ k ∧
      (k + 1 : ℚ) ≤ 10 ^ ((Nat.toDigits 10 k).length : Int) := by
  have hlength : 0 < (Nat.toDigits 10 k).length := Nat.length_toDigits_pos
  have hbelow : k < 10 ^ (Nat.toDigits 10 k).length :=
    (Nat.length_toDigits_le_iff (by norm_num) hlength).1 le_rfl
  constructor
  · obtain ⟨j, hj⟩ : ∃ j, (Nat.toDigits 10 k).length = j + 1 := ⟨_, (Nat.succ_pred_eq_of_pos hlength).symm⟩
    rw [hj, Nat.cast_add_one, add_sub_cancel_right, zpow_natCast]
    rcases Nat.eq_zero_or_pos j with rfl | hpos
    · exact_mod_cast hk
    · have hnot : ¬(Nat.toDigits 10 k).length ≤ j := by omega
      rw [Nat.length_toDigits_le_iff (by norm_num) hpos, not_lt] at hnot
      exact_mod_cast hnot
  · rw [zpow_natCast]
    exact_mod_cast hbelow

/-- The interval of a positive form begins at half the least unit or above. -/
theorem half_unit_le_lower (hm : 0 < m) (hq : leastExponent ≤ q) : (2 : ℚ) ^ (-1075 : Int) ≤ lower m q := by
  have hcast : (1 : ℚ) ≤ m := by exact_mod_cast hm
  calc (2 : ℚ) ^ (-1075 : Int) = 1 / 2 * 2 ^ leastExponent := by
        rw [show leastExponent = -1075 + 1 from rfl, zpow_succ]; ring
    _ ≤ 1 / 2 * 2 ^ q := mul_le_mul_of_nonneg_left (zpow_le_zpow_right₀ one_le_two hq) (by norm_num)
    _ ≤ (m - 1 / 2) * 2 ^ q := mul_le_mul_of_nonneg_right (by linarith) (two_zpow_pos q).le
    _ ≤ lower m q := half_le_lower m q

/-- A decimal inside the interval of a positive form is positive. -/
theorem digits_pos_of_inside {digits : Nat} {exponent : Int} (hm : 0 < m) (hq : leastExponent ≤ q)
    (hv : Inside (digits * 10 ^ exponent) m q) : 0 < digits := by
  by_contra hzero
  have hlow := (half_unit_le_lower hm hq).trans hv.lower_le
  rw [Nat.eq_zero_of_not_pos hzero, Nat.cast_zero, zero_mul] at hlow
  exact absurd hlow (not_le.2 (two_zpow_pos _))

/-- The largest doubles have no more than 310 places. -/
theorem two_zpow_lt_ten_zpow : (2 : ℚ) ^ (1024 : Int) < 10 ^ (310 : Int) := by
  have h : 2 ^ 1024 < 10 ^ 310 := by decide +kernel
  exact_mod_cast h

/-- What starts more than 326 places behind the point lies below half the least double. -/
theorem ten_zpow_lt_two_zpow : (10 : ℚ) ^ (-327 : Int) < 2 ^ (-1075 : Int) := by
  have h : 2 ^ 1075 < 10 ^ 327 := by decide +kernel
  rw [zpow_neg, zpow_neg]
  exact inv_strictAnti₀ (zpow_pos two_pos _) (by exact_mod_cast h)

/-- The number of digits and the exponent of a decimal tell between which powers of ten it lies. -/
theorem decimal_magnitude (hk : 0 < k) (e : Int) :
    (10 : ℚ) ^ (((Nat.toDigits 10 k).length : Int) - 1 + e) ≤ k * 10 ^ e ∧
      (k * 10 ^ e : ℚ) < 10 ^ (((Nat.toDigits 10 k).length : Int) + e) := by
  obtain ⟨hleading, hplaces⟩ := length_toDigits_spec hk
  have hten : (0 : ℚ) < 10 ^ e := zpow_pos (by norm_num) _
  rw [zpow_add₀ (by norm_num), zpow_add₀ (by norm_num)]
  exact ⟨mul_le_mul_of_nonneg_right hleading hten.le, mul_lt_mul_of_pos_right (by linarith) hten⟩

/-- A decimal inside the interval of a form is rounded to it. -/
theorem ofDecimal_of_inside (negative : Bool) {digits : Nat} {exponent : Int} (hm : Fits m q)
    (hpositive : 0 < m) (hq : q ≤ greatestExponent) (hv : Inside (digits * 10 ^ exponent) m q) :
    ofDecimal negative digits exponent = finite negative m q := by
  have hlow := (half_unit_le_lower hpositive hm.least).trans hv.lower_le
  have hhigh : (digits * 10 ^ exponent : ℚ) < 2 ^ (1024 : Int) :=
    (hv.le_upper.trans_lt (upper_lt hm)).trans_le
      (zpow_le_zpow_right₀ one_le_two (by unfold greatestExponent at hq; omega))
  have hdigits : 0 < digits := digits_pos_of_inside hpositive hm.least hv
  have hmagnitude := decimal_magnitude hdigits exponent
  unfold ofDecimal
  dsimp only
  generalize ((Nat.toDigits 10 digits).length : Int) = length at hmagnitude ⊢
  have hsmall : ¬(length + exponent < -326) := by
    intro h
    have : (10 : ℚ) ^ (length + exponent) ≤ 10 ^ (-327 : Int) := zpow_le_zpow_right₀ (by norm_num) (by omega)
    exact absurd (hlow.trans_lt (hmagnitude.2.trans_le this)) (not_lt.2 ten_zpow_lt_two_zpow.le)
  have hlarge : ¬(310 < length + exponent) := by
    intro h
    have : (10 : ℚ) ^ (310 : Int) ≤ 10 ^ (length - 1 + exponent) := zpow_le_zpow_right₀ (by norm_num) (by omega)
    exact absurd (this.trans hmagnitude.1) (not_le.2 (hhigh.trans two_zpow_lt_ten_zpow))
  rw [if_neg (by omega), if_neg hlarge]
  split_ifs with he
  · have hfraction : Inside ((digits * Nat.pow 10 exponent.toNat : Nat) / (1 : Nat)) m q := by
      rwa [Nat.cast_mul, cast_natPow_toNat 10 he, Nat.cast_ofNat, Nat.cast_one, div_one]
    exact nearest_of_inside negative hm hq (Nat.mul_pos hdigits (Nat.pow_pos (by norm_num))) one_pos hfraction
  · have hfraction : Inside (digits / (Nat.pow 10 (-exponent).toNat : Nat)) m q := by
      rwa [cast_natPow_neg_toNat 10 he, Nat.cast_ofNat, div_inv_eq_mul]
    exact nearest_of_inside negative hm hq hdigits (Nat.pow_pos (by norm_num)) hfraction

end GuidedTour.Double
