import GuidedTour.Text.Quoted

/-!
# Code points

A printed result may name any code point by its number, also a surrogate, which is no character. What an interpreter
hands over is therefore a sequence of code points (`CodeText`), and every text is one (`Text.coded`). Texts that come
from files, keys and command lines hold characters alone.
-/

set_option autoImplicit false

namespace GuidedTour

/-- The last code point. -/
def lastCode : Nat := 0x10ffff

/-- A code point: a number up to the last one. -/
structure CodePoint where
  code : Nat
  code_le : code ≤ lastCode
deriving DecidableEq, Repr

/-- A text of code points, which may hold surrogates. -/
abbrev CodeText := List CodePoint

namespace CodePoint

instance : Inhabited CodePoint := ⟨⟨0, by decide⟩⟩

/-- No character lies past the last code point. -/
theorem toNat_le_lastCode (c : Char) : c.toNat ≤ lastCode := by
  have hvalid : c.toNat.isValidChar := c.valid
  unfold Nat.isValidChar at hvalid
  unfold lastCode
  omega

/-- The code point of a character. -/
def ofChar (c : Char) : CodePoint := ⟨c.toNat, toNat_le_lastCode c⟩

/-- Different characters have different code points. -/
theorem ofChar_injective : Function.Injective ofChar := by
  intro a b h
  have hcode : a.toNat = b.toNat := congrArg code h
  rw [← Char.ofNat_toNat a, hcode, Char.ofNat_toNat]

/-- The code point of a number, if there is one. -/
def ofNat? (code : Nat) : Option CodePoint := if h : code ≤ lastCode then some ⟨code, h⟩ else none

/-- A number has the code point with that number and no other. -/
theorem ofNat?_eq_some_iff {code : Nat} {p : CodePoint} : ofNat? code = some p ↔ p.code = code := by
  obtain ⟨code', hcode⟩ := p
  unfold ofNat?
  constructor
  · intro h
    split at h
    · cases h
      rfl
    · cases h
  · rintro rfl
    exact dif_pos hcode

/-- A number has no code point exactly past the last one. -/
theorem ofNat?_eq_none_iff {code : Nat} : ofNat? code = none ↔ lastCode < code := by
  unfold ofNat?
  split
  · rename_i hle
    exact iff_of_false (Option.some_ne_none _) (Nat.not_lt.2 hle)
  · rename_i hnot
    exact iff_of_true rfl (Nat.not_le.1 hnot)

/-- How a code point is written to a stream of characters: a character as itself, a surrogate by its number. -/
def written (p : CodePoint) : Text :=
  if p.code.isValidChar then [Char.ofNat p.code] else Text.codeEscape p.code

end CodePoint

/-- How a text of code points is written to a stream of characters. -/
def CodeText.written (text : CodeText) : Text := text.flatMap CodePoint.written

namespace Text

/-- The code points of a text. -/
def coded (text : Text) : CodeText := text.map CodePoint.ofChar

/-- Different texts have different code points. -/
theorem coded_inj {text other : Text} : coded text = coded other ↔ text = other :=
  List.map_inj_right fun _ _ h => CodePoint.ofChar_injective h

/-- A text is written as it is. -/
theorem written_coded (text : Text) : CodeText.written (coded text) = text := by
  induction text with
  | nil => rfl
  | cons c text ih =>
    have hvalid : c.toNat.isValidChar := c.valid
    have hfirst : (CodePoint.ofChar c).written = [c] := by
      show (if c.toNat.isValidChar then [Char.ofNat c.toNat] else _) = [c]
      rw [if_pos hvalid, Char.ofNat_toNat]
    show (CodePoint.ofChar c).written ++ CodeText.written (coded text) = c :: text
    rw [hfirst, ih]
    rfl

end Text

end GuidedTour
