import GuidedTour.Proofs.Decimal.Layout
import GuidedTour.Proofs.Outcome.Result

/-!
# Displayed floats

A float is displayed as a plain decimal, and what is displayed is a spelling of the float itself
(`Outcome.spellsFloat_display`): the digits lie in the interval of the double, so the double is rounded back from
them, and the two words for what is not finite are read as what they stand for. From this follow both that no two
numbers are displayed alike and that a displayed float is read as itself.
-/

set_option autoImplicit false

namespace GuidedTour

namespace Outcome

variable {m : Nat} {q : Int}

/-- The decimal that is displayed for a finite double lies in its interval, and the double is read from it. -/
theorem displayFloat_finite (negative : Bool) (hm : Double.Fits m q) (hq : q ≤ Double.greatestExponent) :
    ∃ whole behind, Layout.IsPlain whole behind ∧
      displayFloat (.finite negative m q) = signText negative ++ whole ++ Layout.pointed behind ∧
      Double.Inside (Layout.denoted whole behind) m q ∧
      Double.ofDecimal negative (Text.natOfDigits (whole ++ behind)) (-(behind.length : Int)) =
        .finite negative m q := by
  have hdisplay : displayFloat (.finite negative m q) =
      signText negative ++ Layout.plain (if m = 0 then ⟨0, 0⟩ else Double.shortest m q) := rfl
  rcases Nat.eq_zero_or_pos m with rfl | hpositive
  · have hleast : q = Double.leastExponent := hm.leading.resolve_left (by norm_num)
    subst hleast
    refine ⟨['0'], [], Layout.isPlain_zero, ?_, ?_, rfl⟩
    · rw [hdisplay, Layout.pointed, List.append_nil]
      rfl
    · rw [Layout.denoted_zero]
      exact Double.inside_zero
  · rw [if_neg hpositive.ne'] at hdisplay
    obtain ⟨hinside, hdigits⟩ := Double.shortest_spec hm hpositive
    obtain ⟨whole, behind, hplain, hlayout, hvalue⟩ := Layout.plain_spec _ (.inl hdigits)
    rw [← hvalue] at hinside
    refine ⟨whole, behind, hplain, ?_, hinside, Double.ofDecimal_of_inside negative hm hpositive hq hinside⟩
    rw [hdisplay, hlayout, List.append_assoc]

/-- A plain decimal is a spelling of the double that is nearest to it. -/
theorem spellsFloat_of_isPlain (negative : Bool) {whole behind : Text} (h : Layout.IsPlain whole behind) :
    SpellsFloat (signText negative ++ whole ++ Layout.pointed behind)
      (Double.ofDecimal negative (Text.natOfDigits (whole ++ behind)) (-(behind.length : Int))) := by
  have hfraction : SpellsFraction (Layout.pointed behind) behind := by
    cases behind with
    | nil => exact .none
    | cons d ds => exact .some ⟨List.cons_ne_nil _ _, h.behind_digits⟩
  have hspells := SpellsFloat.decimal negative ⟨h.whole_ne_nil, h.whole_digits⟩ hfraction .none
  rwa [List.append_nil, zero_sub] at hspells

/-- What is displayed for a double is a spelling of it. -/
theorem spellsFloat_display (bits : UInt64) : SpellsFloat (displayFloat (.ofBits bits)) (.ofBits bits) := by
  cases h : Double.ofBits bits with
  | nan => exact .nan false
  | infinite negative => exact .infinite negative
  | finite negative m q =>
    obtain ⟨hfits, hq, -⟩ := Double.fits_of_ofBits h
    obtain ⟨whole, behind, hplain, hdisplay, -, hread⟩ := displayFloat_finite negative hfits hq
    have hspells := spellsFloat_of_isPlain negative hplain
    rwa [← hdisplay, hread] at hspells

/-- A spelling stands for one float. -/
theorem SpellsFloat.unique {spelling : Text} {x y : Double} (hx : SpellsFloat spelling x)
    (hy : SpellsFloat spelling y) : x = y := by
  have hread {z : Double} (hz : SpellsFloat spelling z) :
      float? (spelling ++ [')']) = some (z, [')']) := float?_eq_some_iff.2 ⟨spelling, hz, rfl⟩
  have hsame := (hread hx).symm.trans (hread hy)
  cases hsame
  rfl

/-- A result around a spelling of a float is shown as that float is displayed. -/
theorem resultOf_float {spelling : Text} {number : Double} (h : SpellsFloat spelling number) :
    Interpreter.resultOf ("Ok(Float(".toList ++ spelling ++ "))".toList) =
      .ok (Text.coded (displayFloat number)) := by
  have houtcome : SpellsOutcome ("Ok(Float(".toList ++ spelling ++ "))".toList) (.value (.float number)) := by
    have hcalled := SpellsOutcome.value (SpellsValue.called (SpellsInside.float h))
    rw [List.append_assoc, show "Ok(Float(".toList = "Ok".toList ++ '(' :: ("Float".toList ++ ['(']) from rfl]
    simpa using hcalled
  have hstrip : Text.strip ("Ok(Float(".toList ++ spelling ++ "))".toList) =
      "Ok(Float(".toList ++ spelling ++ "))".toList := by
    refine Text.stripped_of_ends (List.dropWhile_cons_of_neg (by decide)) ?_
    rw [List.reverse_append]
    exact List.dropWhile_cons_of_neg (by decide)
  rw [Interpreter.resultOf, read, hstrip, ofText_eq_ok_iff.2 houtcome]
  rfl

/-- The bits of a double are determined by what is displayed, unless it is no number. -/
theorem eq_of_displayFloat_eq {bits other : UInt64} (hnan : Double.ofBits bits ≠ .nan)
    (h : displayFloat (.ofBits other) = displayFloat (.ofBits bits)) : other = bits := by
  have hspells := spellsFloat_display other
  rw [h] at hspells
  exact (Double.ofBits_inj hnan ((spellsFloat_display bits).unique hspells)).symm

/-- A finite double is displayed as a plain decimal with a minus if its sign bit is set, and of all doubles of that sign
it is the one that the decimal is rounded to; the reader of decimals computes the same. No two doubles are displayed
alike if one of them is a number. And a displayed float, be it finite or not, is read as the float that is displayed
the same way. -/
theorem displayFloat_round_trip (bits : UInt64) :
    (∀ negative m q, Double.ofBits bits = .finite negative m q →
      negative = decide (2 ^ 63 ≤ bits.toNat) ∧
      ∃ whole behind, Layout.IsPlain whole behind ∧
        displayFloat (.ofBits bits) = signText negative ++ whole ++ Layout.pointed behind ∧
        (∀ other, Double.RoundsTo negative (Layout.denoted whole behind) other ↔ other = bits) ∧
        Double.ofDecimal negative (Text.natOfDigits (whole ++ behind)) (-(behind.length : Int)) = .ofBits bits) ∧
    (∀ other, Double.ofBits bits ≠ .nan →
      displayFloat (.ofBits other) = displayFloat (.ofBits bits) → other = bits) ∧
    Interpreter.resultOf ("Ok(Float(".toList ++ displayFloat (.ofBits bits) ++ "))".toList) =
      .ok (Text.coded (displayFloat (.ofBits bits))) := by
  refine ⟨fun negative m q h => ?_, fun other => eq_of_displayFloat_eq, resultOf_float (spellsFloat_display bits)⟩
  obtain ⟨hfits, hq, hnegative⟩ := Double.fits_of_ofBits h
  obtain ⟨whole, behind, hplain, hdisplay, hinside, hread⟩ := displayFloat_finite negative hfits hq
  have hrounds : Double.RoundsTo negative (Layout.denoted whole behind) bits :=
    ⟨m, q, h, Double.rounded_of_inside hfits hinside⟩
  refine ⟨hnegative, whole, behind, hplain, by rw [h, hdisplay], fun other => ?_, by rw [h, hread]⟩
  exact ⟨fun hother => hother.unique hrounds, fun hsame => hsame ▸ hrounds⟩

/-- The double nearest to minus a tenth is displayed as such, by no other double, and read as such. -/
theorem displayFloat_round_trip_tenth :
    let bits : UInt64 := 0xBFB999999999999A
    Double.ofBits bits = .finite true 7205759403792794 (-56) ∧
      displayFloat (.ofBits bits) = "-0.1".toList ∧
      (∃ whole behind, "-0.1".toList = signText true ++ whole ++ Layout.pointed behind ∧
        ∀ other, Double.RoundsTo true (Layout.denoted whole behind) other ↔ other = bits) ∧
      (∀ other, displayFloat (.ofBits other) = "-0.1".toList → other = bits) ∧
      Interpreter.resultOf "Ok(Float(-0.1))".toList = .ok (Text.coded "-0.1".toList) := by
  intro bits
  have hbits : Double.ofBits bits = .finite true 7205759403792794 (-56) := by decide +kernel
  have hdisplay : displayFloat (.ofBits bits) = "-0.1".toList := by decide +kernel
  obtain ⟨hfinite, hother, hread⟩ := displayFloat_round_trip bits
  obtain ⟨-, whole, behind, -, htext, hrounds, -⟩ := hfinite true _ _ hbits
  rw [hdisplay] at hother hread htext
  refine ⟨hbits, hdisplay, ⟨whole, behind, htext, hrounds⟩, fun other => ?_, hread⟩
  exact hother other (by rw [hbits]; exact Double.noConfusion)

end Outcome

end GuidedTour
