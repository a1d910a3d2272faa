import GuidedTour.Text.Utf8

/-!
# Texts as bytes and back

Reading the bytes of a text as UTF-8 gives the text (`Text.decode?_encode`), character by character: the first byte
announces how many bytes follow and in which range the next one lies, and each of them adds six bits to the code. The
ranges that keep out overlong forms, surrogates and codes past the last character keep out no character.
-/

set_option autoImplicit false

namespace GuidedTour.Text

/-- A number below 256 is kept in a byte. -/
theorem toNat_toUInt8 {n : Nat} (h : n < 0x100) : n.toUInt8.toNat = n := UInt8.toNat_ofNat_of_lt' h

/-- A byte that is fit to follow adds its six bits to the code. -/
theorem followers_fit {code n low high bits count : Nat} {found : Option Nat} {rest : Bytes} (hbits : bits < 0x40)
    (hlow : low ≤ 0x80 + bits) (hhigh : 0x80 + bits ≤ high)
    (hrest : followers (code * 0x40 + bits) n 0x80 0xbf rest = (found, count)) :
    followers code (n + 1) low high ((0x80 + bits).toUInt8 :: rest) = (found, count + 1) := by
  have hbyte : (0x80 + bits).toUInt8.toNat = 0x80 + bits := toNat_toUInt8 (by omega)
  rw [followers, hbyte, if_pos ⟨hlow, hhigh⟩, Nat.add_sub_cancel_left, hrest]

/-- Behind the last byte the code is complete. -/
theorem followers_end {code n low high : Nat} {rest : Bytes} (h : code = n) :
    followers code 0 low high rest = (some n, 0) := by
  rw [followers, h]

/-- A leading byte takes as many followers as it asks for. -/
theorem firstOf_of_lead {byte : Nat} {lead : Lead} {rest : Bytes} (hbyte : byte < 0x100)
    (hlead : lead? byte = some lead) :
    firstOf byte.toUInt8 rest =
      ((followers lead.bits lead.following lead.low lead.high rest).1.map Char.ofNat,
        (followers lead.bits lead.following lead.low lead.high rest).2) := by
  rw [firstOf, toNat_toUInt8 hbyte, hlead]

/-! ## Leading bytes -/

/-- The leading byte of two is read as such. -/
theorem lead?_two {n : Nat} (hlow : 0x80 ≤ n) (hhigh : n < 0x800) :
    lead? (0xc0 + n / 0x40) = some ⟨n / 0x40, 1, 0x80, 0xbf⟩ := by
  rw [lead?, if_neg (by omega), if_neg (by omega), if_pos (by omega), Nat.add_sub_cancel_left]

/-- A leading byte of three announces a range that the next byte lies in, unless the code is a surrogate. -/
theorem lead?_three {n : Nat} (hlow : 0x800 ≤ n) (hhigh : n < 0x10000) (hvalid : n < 0xd800 ∨ 0xdfff < n) :
    ∃ low high, lead? (0xe0 + n / 0x1000) = some ⟨n / 0x1000, 2, low, high⟩ ∧
      low ≤ 0x80 + n / 0x40 % 0x40 ∧ 0x80 + n / 0x40 % 0x40 ≤ high := by
  rw [lead?, if_neg (by omega), if_neg (by omega), if_neg (by omega)]
  by_cases hfirst : n / 0x1000 = 0
  · exact ⟨0xa0, 0xbf, by rw [hfirst]; rfl, by omega, by omega⟩
  by_cases hsurrogate : n / 0x1000 = 0xd
  · exact ⟨0x80, 0x9f, by rw [hsurrogate]; rfl, by omega, by omega⟩
  · refine ⟨0x80, 0xbf, ?_, by omega, by omega⟩
    rw [if_neg (by omega), if_neg (by omega), if_pos (by omega), Nat.add_sub_cancel_left]

/-- A leading byte of four announces a range that the next byte lies in, up to the last code. -/
theorem lead?_four {n : Nat} (hlow : 0x10000 ≤ n) (hhigh : n < 0x110000) :
    ∃ low high, lead? (0xf0 + n / 0x40000) = some ⟨n / 0x40000, 3, low, high⟩ ∧
      low ≤ 0x80 + n / 0x1000 % 0x40 ∧ 0x80 + n / 0x1000 % 0x40 ≤ high := by
  rw [lead?, if_neg (by omega), if_neg (by omega), if_neg (by omega), if_neg (by omega), if_neg (by omega),
    if_neg (by omega)]
  by_cases hfirst : n / 0x40000 = 0
  · exact ⟨0x90, 0xbf, by rw [hfirst]; rfl, by omega, by omega⟩
  by_cases hlast : n / 0x40000 = 4
  · exact ⟨0x80, 0x8f, by rw [hlast]; rfl, by omega, by omega⟩
  · refine ⟨0x80, 0xbf, ?_, by omega, by omega⟩
    rw [if_neg (by omega), if_pos (by omega), Nat.add_sub_cancel_left]

/-! ## Characters -/

/-- The bytes of a character are read as the character, whatever follows them. -/
theorem characters_encodeChar_append (c : Char) (rest : Bytes) :
    characters (encodeChar c ++ rest) = some c :: characters rest := by
  have hvalid : c.toNat < 0xd800 ∨ 0xdfff < c.toNat ∧ c.toNat < 0x110000 := c.valid
  -- The first byte is a leading one, and the others bring the code of the character.
  have hread {byte bits following low high : Nat} {bytes : Bytes} (hbyte : byte < 0x100)
      (hlead : lead? byte = some ⟨bits, following, low, high⟩) (hlength : bytes.length = following)
      (hfollow : followers bits following low high (bytes ++ rest) = (some c.toNat, following)) :
      characters (byte.toUInt8 :: bytes ++ rest) = some c :: characters rest := by
    rw [List.cons_append, characters, firstOf_of_lead hbyte hlead, hfollow, ← hlength, List.drop_left]
    simp [Char.ofNat_toNat]
  unfold encodeChar
  by_cases hone : c.toNat < 0x80
  · have hlead : lead? c.toNat = some ⟨c.toNat, 0, 0x80, 0xbf⟩ := if_pos hone
    simp only [hone, if_true]
    exact hread (by omega) hlead rfl rfl
  by_cases htwo : c.toNat < 0x800
  · simp only [hone, htwo, if_true, if_false]
    refine hread (by omega) (lead?_two (by omega) htwo) rfl ?_
    exact followers_fit (by omega) (by omega) (by omega) (followers_end (by omega))
  by_cases hthree : c.toNat < 0x10000
  · obtain ⟨low, high, hlead, hlow, hhigh⟩ := lead?_three (by omega) hthree (by omega)
    simp only [hone, htwo, hthree, if_true, if_false]
    refine hread (by omega) hlead rfl ?_
    refine followers_fit (by omega) hlow hhigh ?_
    exact followers_fit (by omega) (by omega) (by omega) (followers_end (by omega))
  · obtain ⟨low, high, hlead, hlow, hhigh⟩ := lead?_four (n := c.toNat) (by omega) (by omega)
    simp only [hone, htwo, hthree, if_false]
    refine hread (by omega) hlead rfl ?_
    refine followers_fit (by omega) hlow hhigh ?_
    refine followers_fit (by omega) (by omega) (by omega) ?_
    exact followers_fit (by omega) (by omega) (by omega) (followers_end (by omega))

/-- Reading what was encoded gives each character back. -/
theorem characters_encode (text : Text) : characters (encode text) = text.map some := by
  induction text with
  | nil => rw [encode, List.flatMap_nil, characters, List.map_nil]
  | cons c text ih => rw [encode, List.flatMap_cons, characters_encodeChar_append, ← encode, ih, List.map_cons]

/-- The bytes of a text spell the text. -/
theorem decode?_encode (text : Text) : decode? (encode text) = some text := by
  rw [decode?, characters_encode]
  induction text with
  | nil => rfl
  | cons c text ih => rw [List.map_cons, List.mapM_cons, ih]; rfl

end GuidedTour.Text
