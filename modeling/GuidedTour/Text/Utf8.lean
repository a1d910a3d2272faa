import GuidedTour.Text.Basic

/-!
# UTF-8

Bytes are read as UTF-8 in one pass that names, in order, each character and each broken stretch. A
broken stretch is as long as it could still have become a character and at least one byte long. Strict
reading refuses bytes with a broken stretch; lenient reading puts one replacement character for each.
-/

set_option autoImplicit false

namespace GuidedTour.Text

/-- The bytes of a text. -/
abbrev Bytes := List UInt8

/-- The bytes of one character. -/
def encodeChar (c : Char) : Bytes :=
  let n := c.toNat
  if n < 0x80 then [n.toUInt8]
  else if n < 0x800 then [(0xc0 + n / 0x40).toUInt8, (0x80 + n % 0x40).toUInt8]
  else if n < 0x10000 then
    [(0xe0 + n / 0x1000).toUInt8, (0x80 + n / 0x40 % 0x40).toUInt8, (0x80 + n % 0x40).toUInt8]
  else
    [(0xf0 + n / 0x40000).toUInt8, (0x80 + n / 0x1000 % 0x40).toUInt8,
     (0x80 + n / 0x40 % 0x40).toUInt8, (0x80 + n % 0x40).toUInt8]

/-- The bytes of a text. -/
def encode (text : Text) : Bytes := text.flatMap encodeChar

/-- What a leading byte announces: the bits it carries, how many bytes follow, and the range of the
first of them. The range keeps out overlong forms, surrogates and codes past the last character. -/
structure Lead where
  bits : Nat
  following : Nat
  low : Nat
  high : Nat

/-- The announcement of a leading byte, if it is one. -/
def lead? (b : Nat) : Option Lead :=
  if b < 0x80 then some ⟨b, 0, 0x80, 0xbf⟩
  else if b < 0xc2 then none
  else if b < 0xe0 then some ⟨b - 0xc0, 1, 0x80, 0xbf⟩
  else if b = 0xe0 then some ⟨0, 2, 0xa0, 0xbf⟩
  else if b = 0xed then some ⟨0xd, 2, 0x80, 0x9f⟩
  else if b < 0xf0 then some ⟨b - 0xe0, 2, 0x80, 0xbf⟩
  else if b = 0xf0 then some ⟨0, 3, 0x90, 0xbf⟩
  else if b < 0xf4 then some ⟨b - 0xf0, 3, 0x80, 0xbf⟩
  else if b = 0xf4 then some ⟨4, 3, 0x80, 0x8f⟩
  else none

/-- Reads the following bytes: the code if all are there, and how many were fit to follow. -/
def followers (code : Nat) : Nat → Nat → Nat → Bytes → Option Nat × Nat
  | 0, _, _, _ => (some code, 0)
  | _ + 1, _, _, [] => (none, 0)
  | n + 1, low, high, b :: rest =>
    if low ≤ b.toNat ∧ b.toNat ≤ high then
      let next := followers (code * 0x40 + (b.toNat - 0x80)) n 0x80 0xbf rest
      (next.1, next.2 + 1)
    else (none, 0)

/-- The first character of some bytes, or nothing for a broken stretch, and how many bytes after the
first belong to it. -/
def firstOf (b : UInt8) (rest : Bytes) : Option Char × Nat :=
  match lead? b.toNat with
  | none => (none, 0)
  | some lead =>
    let next := followers lead.bits lead.following lead.low lead.high rest
    (next.1.map Char.ofNat, next.2)

/-- The characters of some bytes in order, with nothing in the place of each broken stretch. -/
def characters : Bytes → List (Option Char)
  | [] => []
  | b :: rest => (firstOf b rest).1 :: characters (rest.drop (firstOf b rest).2)
termination_by bytes => bytes.length
decreasing_by simp only [List.length_drop, List.length_cons]; omega

/-- The text that some bytes spell, if no stretch of them is broken. -/
def decode? (bytes : Bytes) : Option Text := (characters bytes).mapM id

/-- The character that stands for a broken stretch. -/
def replacement : Char := '\uFFFD'

/-- The text that some bytes spell, with the replacement character for each broken stretch. -/
def decodeLenient (bytes : Bytes) : Text := (characters bytes).map (·.getD replacement)

/-- Lenient reading agrees with strict reading wherever that succeeds. -/
theorem decodeLenient_of_decode? {bytes : Bytes} {text : Text} (h : decode? bytes = some text) :
    decodeLenient bytes = text := by
  suffices ∀ (cs : List (Option Char)) (t : Text), cs.mapM id = some t →
      cs.map (·.getD replacement) = t from this _ _ h
  intro cs
  induction cs with
  | nil => intro t ht; simp at ht; simp [ht]
  | cons c more ih =>
    intro t ht
    cases c with
    | none => simp at ht
    | some c =>
      rw [List.mapM_cons] at ht
      cases hm : more.mapM id with
      | none => simp [hm] at ht
      | some u => simp [hm] at ht; simp [← ht, ih u hm]

end GuidedTour.Text
