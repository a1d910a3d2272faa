import GuidedTour.Decimal.Layout
import GuidedTour.Proofs.Decimal.Shortest
import GuidedTour.Text.Digit

/-!
# Plain decimals

A numeral without a zero at the end of its digits, or a plain zero, is set out positionally as a plain decimal
(`Layout.plain_spec`): digits that begin with a zero only if it is the only one, and behind a point, if there is one,
digits that do not end in a zero. The decimal denotes the number of the numeral, whichever side of the point the
digits come to stand on.
-/

set_option autoImplicit false

namespace GuidedTour

namespace Text

/-! ## Digits -/

/-- Digits denote what the library's reader takes them for. -/
theorem natOfDigits_eq (ds : Text) : natOfDigits ds = Nat.ofDigitChars 10 ds 0 := by
  rw [Nat.ofDigitChars_eq_foldl, natOfDigits]
  simp only [Nat.mul_comm]

/-- Digits in front of others are shifted by as many places. -/
theorem natOfDigits_append (xs ys : Text) :
    natOfDigits (xs ++ ys) = natOfDigits xs * 10 ^ ys.length + natOfDigits ys := by
  rw [natOfDigits_eq, natOfDigits_eq, natOfDigits_eq, Nat.ofDigitChars_append, Nat.ofDigitChars_eq_ofDigitChars_zero,
    Nat.mul_comm]

/-- Zeros denote zero. -/
theorem natOfDigits_replicate_zero (n : Nat) : natOfDigits (List.replicate n '0') = 0 := by
  rw [natOfDigits_eq, Nat.ofDigitChars_replicate_zero, Nat.mul_zero]

/-- The digits of a number denote it. -/
theorem natOfDigits_ofNat (n : Nat) : natOfDigits (ofNat n) = n := by
  rw [natOfDigits_eq]
  exact Nat.ofDigitChars_ten_toDigits

/-- A number has digits. -/
theorem ofNat_ne_nil (n : Nat) : ofNat n ≠ [] := Nat.toDigits_ne_nil

/-- A number is written in digits. -/
theorem isDigit_of_mem_ofNat {n : Nat} : ∀ c ∈ ofNat n, c.isDigit = true :=
  fun _ hc => Nat.isDigit_of_mem_toDigits (by norm_num) le_rfl hc

/-- The last digit of a number is its remainder by ten, behind the digits of the tenth part. -/
theorem ofNat_eq (n : Nat) :
    ofNat n = if n < 10 then [n.digitChar] else ofNat (n / 10) ++ [(n % 10).digitChar] :=
  Nat.toDigits_eq_if (by norm_num)

/-- A positive number does not begin with a zero. -/
theorem head?_ofNat_ne_zero {n : Nat} (hn : n ≠ 0) : (ofNat n).head? ≠ some '0' := by
  induction n using Nat.strong_induction_on with
  | h n ih =>
    rw [ofNat_eq]
    split_ifs with hsmall
    · simpa [Nat.digitChar_eq_zero] using hn
    · rw [List.head?_append_of_ne_nil _ (ofNat_ne_nil _)]
      exact ih (n / 10) (by omega) (by omega)

/-- A number that ten does not divide does not end with a zero. -/
theorem getLast?_ofNat_ne_zero {n : Nat} (hn : n % 10 ≠ 0) : (ofNat n).getLast? ≠ some '0' := by
  rw [ofNat_eq]
  split_ifs with hsmall
  · rw [Nat.mod_eq_of_lt hsmall] at hn
    simpa [Nat.digitChar_eq_zero] using hn
  · simpa [Nat.digitChar_eq_zero] using hn

end Text

namespace Layout

/-! ## The parts of a plain decimal -/

/-- The digits of a plain decimal before and behind the point. -/
structure IsPlain (whole behind : Text) : Prop where
  whole_ne_nil : whole ≠ []
  whole_digits : ∀ c ∈ whole, c.isDigit = true
  no_leading_zero : whole.head? = some '0' → whole = ['0']
  behind_digits : ∀ c ∈ behind, c.isDigit = true
  no_trailing_zero : behind.getLast? ≠ some '0'

/-- The digits behind a point, with the point if there are any. -/
def pointed : Text → Text
  | [] => []
  | d :: ds => '.' :: d :: ds

/-- The number that the digits before and behind a point denote. -/
def denoted (whole behind : Text) : ℚ := Text.natOfDigits (whole ++ behind) * 10 ^ (-(behind.length : Int))

/-- A point stands in front of the digits behind it, if there are any. -/
theorem pointed_of_ne_nil {behind : Text} (h : behind ≠ []) : pointed behind = '.' :: behind := by
  obtain ⟨d, ds, rfl⟩ := List.exists_cons_of_ne_nil h
  rfl

/-- A single zero is plain. -/
theorem isPlain_zero : IsPlain ['0'] [] := ⟨List.cons_ne_nil _ _, by simp, fun _ => rfl, by simp, by simp⟩

/-- A single zero denotes zero. -/
theorem denoted_zero : denoted ['0'] [] = 0 := by simp [denoted, Text.natOfDigits]

/-- The digits of a numeral and the zeros of its exponent make a whole number. -/
theorem isPlain_whole {n : Nat} (hn : n ≠ 0) (zeros : Nat) :
    IsPlain (Text.ofNat n ++ List.replicate zeros '0') [] where
  whole_ne_nil := List.append_ne_nil_of_left_ne_nil (Text.ofNat_ne_nil n) _
  whole_digits := by
    intro c hc
    rcases List.mem_append.1 hc with hdigit | hzero
    · exact Text.isDigit_of_mem_ofNat c hdigit
    · rw [List.eq_of_mem_replicate hzero]
      rfl
  no_leading_zero := by
    rw [List.head?_append_of_ne_nil _ (Text.ofNat_ne_nil n)]
    exact fun h => absurd h (Text.head?_ofNat_ne_zero hn)
  behind_digits := by simp
  no_trailing_zero := by simp

/-- The digits of a numeral are cut at the point. -/
theorem isPlain_cut {n : Nat} (cut : Nat) (hn : n % 10 ≠ 0) (hpositive : 0 < cut)
    (hcut : cut < (Text.ofNat n).length) :
    IsPlain ((Text.ofNat n).take cut) ((Text.ofNat n).drop cut) where
  whole_ne_nil := by
    rw [Ne, List.take_eq_nil_iff, not_or]
    exact ⟨hpositive.ne', Text.ofNat_ne_nil n⟩
  whole_digits := fun c hc => Text.isDigit_of_mem_ofNat c (List.mem_of_mem_take hc)
  no_leading_zero := by
    rw [List.head?_take, if_neg hpositive.ne']
    exact fun h => absurd h (Text.head?_ofNat_ne_zero (by omega))
  behind_digits := fun c hc => Text.isDigit_of_mem_ofNat c (List.mem_of_mem_drop hc)
  no_trailing_zero := by
    rw [List.getLast?_drop, if_neg (by omega)]
    exact Text.getLast?_ofNat_ne_zero hn

/-- All digits of a numeral stand behind the point, and zeros before them. -/
theorem isPlain_behind {n : Nat} (hn : n % 10 ≠ 0) (zeros : Nat) :
    IsPlain ['0'] (List.replicate zeros '0' ++ Text.ofNat n) where
  whole_ne_nil := List.cons_ne_nil _ _
  whole_digits := by simp
  no_leading_zero := fun _ => rfl
  behind_digits := by
    intro c hc
    rcases List.mem_append.1 hc with hzero | hdigit
    · rw [List.eq_of_mem_replicate hzero]
      rfl
    · exact Text.isDigit_of_mem_ofNat c hdigit
  no_trailing_zero := by
    rw [List.getLast?_append_of_ne_nil _ (Text.ofNat_ne_nil n)]
    exact Text.getLast?_ofNat_ne_zero hn

/-- Zeros in front of a number change nothing. -/
theorem natOfDigits_zeros_append (zeros n : Nat) :
    Text.natOfDigits (List.replicate zeros '0' ++ Text.ofNat n) = n := by
  rw [Text.natOfDigits_append, Text.natOfDigits_replicate_zero, Text.natOfDigits_ofNat, zero_mul, zero_add]

/-- A numeral without a zero at its end, or a plain zero, is written as a plain decimal of its number. -/
theorem plain_spec (x : Numeral) (hx : x.digits % 10 ≠ 0 ∨ x = ⟨0, 0⟩) :
    ∃ whole behind, IsPlain whole behind ∧ plain x = whole ++ pointed behind ∧
      denoted whole behind = x.value := by
  rcases hx with hx | rfl
  · obtain ⟨n, e⟩ := x
    dsimp only at hx
    unfold plain Numeral.value denoted
    dsimp only
    by_cases he : 0 ≤ e
    · obtain ⟨j, rfl⟩ := Int.eq_ofNat_of_zero_le he
      rw [if_pos he, if_neg (by omega)]
      refine ⟨_, [], isPlain_whole (by omega) j, (List.append_nil _).symm, ?_⟩
      rw [List.append_nil, Text.natOfDigits_append, Text.natOfDigits_ofNat, Text.natOfDigits_replicate_zero,
        List.length_replicate]
      simp
    · obtain ⟨j, hj⟩ := Int.eq_ofNat_of_zero_le (by omega : 0 ≤ -e)
      obtain rfl : e = -(j : Int) := by omega
      rw [if_neg he, neg_neg, Int.toNat_natCast]
      by_cases hcut : j < (Text.ofNat n).length
      · rw [if_pos hcut]
        have hbehind : ((Text.ofNat n).drop ((Text.ofNat n).length - j)).length = j := by
          rw [List.length_drop]
          omega
        refine ⟨_, _, isPlain_cut ((Text.ofNat n).length - j) hx (by omega) (by omega), ?_, ?_⟩
        · rw [pointed_of_ne_nil]
          exact List.ne_nil_of_length_pos (by omega)
        · rw [List.take_append_drop, Text.natOfDigits_ofNat, hbehind]
      · rw [if_neg hcut]
        have hbehind : (List.replicate (j - (Text.ofNat n).length) '0' ++ Text.ofNat n).length = j := by
          rw [List.length_append, List.length_replicate]
          omega
        refine ⟨_, _, isPlain_behind hx (j - (Text.ofNat n).length), ?_, ?_⟩
        · rw [pointed_of_ne_nil (List.append_ne_nil_of_right_ne_nil _ (Text.ofNat_ne_nil n))]
          rfl
        · rw [hbehind]
          exact congrArg (fun k : Nat => (k : ℚ) * 10 ^ (-(j : Int)))
            (natOfDigits_zeros_append (j - (Text.ofNat n).length + 1) n)
  · exact ⟨['0'], [], isPlain_zero, rfl, by rw [denoted_zero, Numeral.value, Nat.cast_zero, zero_mul]⟩

end Layout

end GuidedTour
