import GuidedTour.Outcome.Reading
import Mathlib.Data.List.TakeWhile

/-!
# Names, numbers and codes

The lexical forms of a printed result as sets of texts: names, integers, floats, the two truths, and the
codes of characters. A form is told of its own text alone, while its reader takes as much as it can from a
longer text; inside a result a closing parenthesis ends a number, and there the two agree
(`integer?_eq_some_iff`, `float?_eq_some_iff`).
-/

set_option autoImplicit false

namespace GuidedTour.Outcome

/-! ## Runs of characters -/

/-- A run of characters ends before a text: the text is empty or begins with a character of another kind. -/
def Halts (p : Char → Bool) (rest : Text) : Prop := ∀ c ∈ rest.head?, p c = false

/-- A run of characters ends before a character of another kind. -/
theorem halts_cons {p : Char → Bool} {c : Char} {rest : Text} (h : p c = false) :
    Halts p (c :: rest) := by
  intro d hd
  cases hd
  exact h

/-- A run of characters is taken from in front of what ends it. -/
theorem takeWhile_append {p : Char → Bool} {xs rest : Text} (h : ∀ x ∈ xs, p x = true)
    (hrest : Halts p rest) : (xs ++ rest).takeWhile p = xs := by
  rw [List.takeWhile_append_of_pos h]
  cases rest with
  | nil => rw [List.takeWhile_nil, List.append_nil]
  | cons c rest =>
    have hc : p c = false := hrest c rfl
    rw [List.takeWhile_cons_of_neg (by simp [hc]), List.append_nil]

/-- Behind a run of characters is left what ends it. -/
theorem dropWhile_append {p : Char → Bool} {xs rest : Text} (h : ∀ x ∈ xs, p x = true)
    (hrest : Halts p rest) : (xs ++ rest).dropWhile p = rest := by
  rw [List.dropWhile_append_of_pos h]
  cases rest with
  | nil => rfl
  | cons c rest =>
    have hc : p c = false := hrest c rfl
    rw [List.dropWhile_cons_of_neg (by simp [hc])]

/-- A run of characters has ended where it was dropped. -/
theorem halts_dropWhile (p : Char → Bool) (text : Text) : Halts p (text.dropWhile p) := by
  have h := List.head?_dropWhile_not p text
  intro c hc
  rw [Option.mem_def.1 hc] at h
  exact h

/-- A run of characters is of one kind. -/
theorem mem_takeWhile {p : Char → Bool} {text : Text} : ∀ c ∈ text.takeWhile p, p c = true :=
  fun _ hc => List.mem_takeWhile_imp hc

/-- A text that begins with a word is the word and the rest. -/
theorem eq_append_drop {word text : Text} (h : word.isPrefixOf text = true) :
    text = word ++ text.drop word.length :=
  (List.prefix_iff_eq_append.1 (List.isPrefixOf_iff_prefix.1 h)).symm

/-! ## Names -/

/-- A name is one or more ASCII letters. -/
def IsName (name : Text) : Prop := name ≠ [] ∧ ∀ c ∈ name, c.isAlpha = true

/-- Letters that can be checked one by one are a name. -/
theorem isName_of_all {name : Text} (hne : name ≠ []) (hall : name.all Char.isAlpha = true) : IsName name :=
  ⟨hne, List.all_eq_true.1 hall⟩

/-- The reader of names takes the longest name at the start of a text. -/
theorem name?_eq_some_iff {text name rest : Text} :
    name? text = some (name, rest) ↔ IsName name ∧ text = name ++ rest ∧ Halts Char.isAlpha rest := by
  unfold name?
  constructor
  · intro h
    split at h
    · cases h
    · rename_i hne
      cases h
      refine ⟨⟨?_, mem_takeWhile⟩, List.takeWhile_append_dropWhile.symm, halts_dropWhile _ _⟩
      exact fun hnil => hne (List.isEmpty_iff.2 hnil)
  · rintro ⟨⟨hne, hletters⟩, rfl, hhalts⟩
    rw [takeWhile_append hletters hhalts, dropWhile_append hletters hhalts, if_neg]
    rwa [List.isEmpty_iff]

/-! ## Numbers -/

/-- One or more ASCII digits. -/
def IsDigits (ds : Text) : Prop := ds ≠ [] ∧ ∀ c ∈ ds, c.isDigit = true

/-- The sign before a number: a minus, or nothing. -/
def signText (negative : Bool) : Text := if negative then ['-'] else []

/-- An integer is one or more digits behind a sign. -/
def IsInteger (spelling : Text) : Prop :=
  ∃ negative ds, IsDigits ds ∧ spelling = signText negative ++ ds

/-- The fraction of a float and its digits: none, or a point with digits behind it. -/
inductive SpellsFraction : Text → Text → Prop where
  | none : SpellsFraction [] []
  | some {ds : Text} (ds_digits : IsDigits ds) : SpellsFraction ('.' :: ds) ds

/-- The power of ten of a float and its exponent: none, or the letter `e` and an integer. -/
inductive SpellsPower : Text → Int → Prop where
  | none : SpellsPower [] 0
  | some {negative : Bool} {ds : Text} (ds_digits : IsDigits ds) :
      SpellsPower ('e' :: signText negative ++ ds)
        (if negative then -(Text.natOfDigits ds : Int) else Text.natOfDigits ds)

/-- A float is spelled by a word for what is not finite, or by a decimal, for which the nearest double
stands. -/
inductive SpellsFloat : Text → Double → Prop where
  | infinite (negative : Bool) :
      SpellsFloat (signText negative ++ ['i', 'n', 'f']) (.infinite negative)
  | nan (negative : Bool) : SpellsFloat (signText negative ++ ['N', 'a', 'N']) .nan
  | decimal (negative : Bool) {whole fraction behind power : Text} {exponent : Int}
      (whole_digits : IsDigits whole) (fraction_behind : SpellsFraction fraction behind)
      (power_exponent : SpellsPower power exponent) :
      SpellsFloat (signText negative ++ whole ++ fraction ++ power)
        (Double.ofDecimal negative (Text.natOfDigits (whole ++ behind)) (exponent - behind.length))

/-- The digits in front of a text that begins with no digit are all taken. -/
theorem digits_append {ds rest : Text} (h : IsDigits ds) (hrest : Halts Char.isDigit rest) :
    digits (ds ++ rest) = (ds, rest) := by
  rw [digits, takeWhile_append h.2 hrest, dropWhile_append h.2 hrest]

/-- No character is lost between the digits and the rest. -/
theorem eq_digits_append (text : Text) : text = (digits text).1 ++ (digits text).2 :=
  List.takeWhile_append_dropWhile.symm

/-- Digits that were taken at all are one or more digits. -/
theorem isDigits_of_isEmpty {text : Text} (h : (digits text).1.isEmpty = false) :
    IsDigits (digits text).1 := by
  refine ⟨?_, mem_takeWhile⟩
  intro hnil
  rw [hnil] at h
  cases h

/-- One or more digits are not nothing. -/
theorem isEmpty_of_isDigits {ds : Text} (h : IsDigits ds) : ds.isEmpty = false := by
  rw [Bool.eq_false_iff, Ne, List.isEmpty_iff]
  exact h.1

/-- A sign is taken off in front of a text that begins with none. -/
theorem sign_append {text : Text} (negative : Bool) (h : text.head? ≠ some '-') :
    sign (signText negative ++ text) = (signText negative, text) := by
  cases negative with
  | true => rfl
  | false =>
    unfold sign
    split
    · rename_i rest heq
      rw [show text = '-' :: rest from heq] at h
      exact absurd rfl h
    · rfl

/-- Every text is a sign, or nothing, and what is left behind it. -/
theorem exists_sign (text : Text) :
    ∃ negative, (sign text).1 = signText negative ∧ text = signText negative ++ (sign text).2 := by
  unfold sign
  split
  · exact ⟨true, rfl, rfl⟩
  · exact ⟨false, rfl, rfl⟩

/-- The text of a sign tells which one it is. -/
theorem not_isEmpty_signText (negative : Bool) : (!(signText negative).isEmpty) = negative := by
  cases negative <;> rfl

/-- Digits begin with no minus. -/
theorem head?_ne_minus {ds rest : Text} (h : IsDigits ds) : (ds ++ rest).head? ≠ some '-' := by
  cases ds with
  | nil => exact absurd rfl h.1
  | cons d ds =>
    intro hd
    have hdigit := h.2 d List.mem_cons_self
    rw [Option.some.inj hd] at hdigit
    cases hdigit

/-- Up to a closing parenthesis the reader of integers takes an integer and nothing else. -/
theorem integer?_eq_some_iff {text spelling rest : Text} :
    integer? text = some (spelling, ')' :: rest) ↔
      IsInteger spelling ∧ text = spelling ++ ')' :: rest := by
  constructor
  · intro h
    obtain ⟨negative, hminus, htext⟩ := exists_sign text
    unfold integer? at h
    simp only at h
    split at h
    · cases h
    · rename_i hne
      obtain ⟨hspelling, hrest⟩ := Prod.mk.inj (Option.some.inj h)
      have hds : IsDigits (digits (sign text).2).1 := isDigits_of_isEmpty (by simpa using hne)
      refine ⟨⟨negative, _, hds, ?_⟩, ?_⟩
      · rw [← hspelling, hminus]
      · rw [← hspelling, ← hrest, hminus, List.append_assoc, ← eq_digits_append]
        exact htext
  · rintro ⟨⟨negative, ds, hds, rfl⟩, rfl⟩
    have hhalts : Halts Char.isDigit (')' :: rest) := halts_cons rfl
    unfold integer?
    rw [List.append_assoc, sign_append negative (head?_ne_minus hds)]
    simp only [digits_append hds hhalts, isEmpty_of_isDigits hds]
    rfl

/-- Every text is a fraction, or nothing, and what is left behind it. -/
theorem exists_fraction (text : Text) :
    ∃ fraction, SpellsFraction fraction (fractionDigits text).1 ∧
      text = fraction ++ (fractionDigits text).2 := by
  unfold fractionDigits
  split
  · rename_i rest
    split
    · exact ⟨[], .none, rfl⟩
    · rename_i hne
      refine ⟨'.' :: (digits rest).1, .some (isDigits_of_isEmpty (by simpa using hne)), ?_⟩
      rw [List.cons_append, ← eq_digits_append]
  · exact ⟨[], .none, rfl⟩

/-- A fraction is taken off as a whole, if neither a digit nor a point follows it. -/
theorem fractionDigits_append {fraction behind rest : Text} (h : SpellsFraction fraction behind)
    (hrest : Halts Char.isDigit rest) (hpoint : rest.head? ≠ some '.') :
    fractionDigits (fraction ++ rest) = (behind, rest) := by
  cases h with
  | none =>
    unfold fractionDigits
    split
    · rename_i more heq
      rw [show rest = '.' :: more from heq] at hpoint
      exact absurd rfl hpoint
    · rfl
  | some hds =>
    rw [List.cons_append, fractionDigits, digits_append hds hrest]
    simp only [isEmpty_of_isDigits hds]
    rfl

/-- Every text is a power of ten, or nothing, and what is left behind it. -/
theorem exists_power (text : Text) :
    ∃ spelling, SpellsPower spelling (power text).1 ∧ text = spelling ++ (power text).2 := by
  unfold power
  split
  · rename_i rest
    obtain ⟨negative, hminus, hrest⟩ := exists_sign rest
    simp only
    split
    · exact ⟨[], .none, rfl⟩
    · rename_i hne
      have hds : IsDigits (digits (sign rest).2).1 := isDigits_of_isEmpty (by simpa using hne)
      refine ⟨'e' :: signText negative ++ (digits (sign rest).2).1, ?_, ?_⟩
      · have hpower := @SpellsPower.some negative _ hds
        rw [hminus]
        cases negative with
        | true => exact hpower
        | false => exact hpower
      · rw [List.append_assoc, ← eq_digits_append, List.cons_append]
        exact congrArg _ hrest
  · exact ⟨[], .none, rfl⟩

/-- A power of ten in front of a closing parenthesis is taken off as a whole. -/
theorem power_append {spelling rest : Text} {exponent : Int} (h : SpellsPower spelling exponent) :
    power (spelling ++ ')' :: rest) = (exponent, ')' :: rest) := by
  have hhalts : Halts Char.isDigit (')' :: rest) := halts_cons rfl
  cases h with
  | none => rfl
  | @some negative ds hds =>
    rw [List.append_assoc, List.cons_append, power,
      sign_append negative (head?_ne_minus hds)]
    simp only [digits_append hds hhalts, isEmpty_of_isDigits hds]
    cases negative with
    | true => rfl
    | false => rfl


/-- What the reader of floats takes off is a spelling of the float that it gives. -/
theorem exists_float {text rest : Text} {number : Double} (h : float? text = some (number, rest)) :
    ∃ spelling, SpellsFloat spelling number ∧ text = spelling ++ rest := by
  obtain ⟨negative, hminus, htext⟩ := exists_sign text
  have hnegative : (!(sign text).1.isEmpty) = negative := by
    rw [hminus, not_isEmpty_signText]
  have hword {word : Text} (hstarts : word.isPrefixOf (sign text).2 = true) :
      text = signText negative ++ word ++ (sign text).2.drop word.length := by
    rw [List.append_assoc, ← eq_append_drop hstarts]
    exact htext
  unfold float? at h
  simp only [hnegative] at h
  split at h
  · rename_i hstarts
    cases h
    exact ⟨_, .infinite negative, hword hstarts⟩
  · split at h
    · rename_i hstarts
      cases h
      exact ⟨_, .nan negative, hword hstarts⟩
    · split at h
      · cases h
      · rename_i hne
        have hwhole := isDigits_of_isEmpty (by simpa using hne)
        obtain ⟨fraction, hfraction, hbehind⟩ := exists_fraction (digits (sign text).2).2
        obtain ⟨spelling, hpower, hrest⟩ := exists_power (fractionDigits (digits (sign text).2).2).2
        cases h
        refine ⟨_, .decimal negative hwhole hfraction hpower, ?_⟩
        rw [List.append_assoc, ← hrest, List.append_assoc, ← hbehind, List.append_assoc,
          ← eq_digits_append]
        exact htext

/-- Up to a closing parenthesis the reader of floats takes a float and nothing else. -/
theorem float?_eq_some_iff {text rest : Text} {number : Double} :
    float? text = some (number, ')' :: rest) ↔
      ∃ spelling, SpellsFloat spelling number ∧ text = spelling ++ ')' :: rest := by
  constructor
  · exact exists_float
  · rintro ⟨spelling, hspelling, rfl⟩
    unfold float?
    cases hspelling with
    | infinite negative =>
      rw [List.append_assoc, sign_append negative (by simp)]
      simp only [not_isEmpty_signText]
      rfl
    | nan negative =>
      rw [List.append_assoc, sign_append negative (by simp)]
      simp only [not_isEmpty_signText]
      rfl
    | @decimal negative whole fraction behind spelling exponent hwhole hfraction hpower =>
      -- The digits, the fraction and the power end at a point, at the letter `e` or at the parenthesis.
      have hpoint : (spelling ++ ')' :: rest).head? ≠ some '.' := by
        cases hpower <;> simp
      have hbehind : Halts Char.isDigit (spelling ++ ')' :: rest) := by
        cases hpower with
        | none => exact halts_cons rfl
        | some hds => exact halts_cons rfl
      have hrest : Halts Char.isDigit (fraction ++ (spelling ++ ')' :: rest)) := by
        cases hfraction with
        | none => exact hbehind
        | some hds => exact halts_cons rfl
      -- A decimal begins with a digit, and so with neither of the two words.
      obtain ⟨d, ds, rfl⟩ := List.exists_cons_of_ne_nil hwhole.1
      have hd : d.isDigit = true := hwhole.2 d List.mem_cons_self
      have hword {c : Char} (word more : Text) (hc : c.isDigit = false) :
          (c :: word).isPrefixOf (d :: more) = false := by
        have hne : c ≠ d := by
          rintro rfl
          rw [hd] at hc
          cases hc
        simp [List.isPrefixOf, hne]
      rw [List.append_assoc, List.append_assoc, List.append_assoc,
        sign_append negative (head?_ne_minus hwhole)]
      have hi : Char.isDigit 'i' = false := rfl
      have hN : Char.isDigit 'N' = false := rfl
      simp only [not_isEmpty_signText, List.cons_append, hword _ _ hi, hword _ _ hN,
        Bool.false_eq_true, if_false]
      rw [← List.cons_append, digits_append hwhole hrest]
      simp only [isEmpty_of_isDigits hwhole, fractionDigits_append hfraction hbehind hpoint,
        power_append hpower]
      rfl

/-- The reader of truths takes one of the two words. -/
theorem boolean?_eq_some_iff {text rest : Text} {truth : Bool} :
    boolean? text = some (truth, rest) ↔ text = truthWord truth ++ rest := by
  constructor
  · intro h
    unfold boolean? at h
    split at h
    · rename_i hstarts
      cases h
      exact eq_append_drop hstarts
    · split at h
      · rename_i hstarts
        cases h
        exact eq_append_drop hstarts
      · cases h
  · rintro rfl
    cases truth with
    | true => rfl
    | false => rfl

/-! ## Characters by their code -/

/-- The value of a hexadecimal digit, in either case of the letters. -/
def hexDigit (c : Char) : Nat :=
  if c.isDigit then c.toNat - '0'.toNat
  else if 'a' ≤ c then c.toNat - 'a'.toNat + 10
  else c.toNat - 'A'.toNat + 10

/-- Some hexadecimal digits, at least one, are those of a code. -/
structure IsCode (digits : Text) (code : Nat) : Prop where
  ne_nil : digits ≠ []
  isHex : ∀ c ∈ digits, isHex c = true
  value : digits.foldl (fun n c => n * 16 + hexDigit c) 0 = code

/-- The value of an ASCII digit is its distance from zero. -/
theorem decimalDigit?_of_isDigit {c : Char} (h : c.isDigit = true) :
    Text.decimalDigit? c = some (c.toNat - '0'.toNat) := by
  have hrange := Char.isDigit_iff_toNat.1 h
  have hzero : '0'.toNat = 0x30 := rfl
  have hnine : '9'.toNat = 0x39 := rfl
  have hscripts : Text.zeroDigits = 0x30 :: Text.zeroDigits.tail := rfl
  unfold Text.decimalDigit?
  rw [hscripts, List.find?_cons_of_pos (by simp; omega)]
  rfl

/-- A hexadecimal digit has its value in base sixteen. -/
theorem digitIn?_of_isHex {c : Char} (h : isHex c = true) :
    Text.digitIn? 16 c = some (hexDigit c) := by
  have hle (a b : Char) : a ≤ b ↔ a.toNat ≤ b.toNat := Iff.rfl
  have hlower : 'a'.toNat = 97 ∧ 'f'.toNat = 102 ∧ 'z'.toNat = 122 := by decide
  have hupper : 'A'.toNat = 65 ∧ 'F'.toNat = 70 ∧ 'Z'.toNat = 90 := by decide
  have hdigit : '0'.toNat = 48 ∧ '9'.toNat = 57 := by decide
  simp only [isHex, Bool.or_eq_true, Bool.and_eq_true, decide_eq_true_eq,
    Char.isDigit_iff_toNat, hle] at h
  unfold Text.digitIn? hexDigit
  simp only [hle, Char.isDigit_iff_toNat]
  by_cases hd : '0'.toNat ≤ c.toNat ∧ c.toNat ≤ '9'.toNat
  · rw [if_neg (by omega), if_neg (by omega), if_pos hd,
      decimalDigit?_of_isDigit (Char.isDigit_iff_toNat.2 hd)]
    exact Option.filter_some_pos (by simp; omega)
  · rw [if_neg hd]
    by_cases hl : 'a'.toNat ≤ c.toNat
    · rw [if_pos (by omega), if_pos hl]
      exact Option.filter_some_pos (by simp; omega)
    · rw [if_neg (by omega), if_pos (by omega), if_neg hl]
      exact Option.filter_some_pos (by simp; omega)

/-- Hexadecimal digits are folded to their number without a failure. -/
theorem foldlM_digitIn? {digits : Text} (h : ∀ c ∈ digits, isHex c = true) (n : Nat) :
    digits.foldlM (fun n c => (Text.digitIn? 16 c).map (n * 16 + ·)) n =
      some (digits.foldl (fun n c => n * 16 + hexDigit c) n) := by
  induction digits generalizing n with
  | nil => rfl
  | cons c digits ih =>
    rw [List.foldlM_cons, digitIn?_of_isHex (h c List.mem_cons_self)]
    exact ih (fun c hc => h c (List.mem_cons_of_mem _ hc)) _

/-- One or more hexadecimal digits have a number in base sixteen. -/
theorem natIn?_of_isHex {digits : Text} (hne : digits ≠ []) (h : ∀ c ∈ digits, isHex c = true) :
    Text.natIn? 16 digits = some (digits.foldl (fun n c => n * 16 + hexDigit c) 0) := by
  cases digits with
  | nil => exact absurd rfl hne
  | cons c digits => exact foldlM_digitIn? h 0

/-- The reader of codes takes the digits of a code between two braces and nothing else. -/
theorem braced?_eq_some_iff {text rest : Text} {code : Nat} :
    braced? text = some (code, rest) ↔
      ∃ digits, IsCode digits code ∧ text = '{' :: digits ++ '}' :: rest := by
  constructor
  · intro h
    unfold braced? at h
    split at h
    · next body =>
      simp only at h
      split at h
      · next left hleft =>
        rw [Option.map_eq_some_iff] at h
        obtain ⟨n, hn, he⟩ := h
        cases he
        have hne : body.takeWhile isHex ≠ [] := by
          intro hnil
          rw [hnil] at hn
          cases hn
        rw [natIn?_of_isHex hne mem_takeWhile] at hn
        refine ⟨body.takeWhile isHex, ⟨hne, mem_takeWhile, Option.some.inj hn⟩, ?_⟩
        rw [List.cons_append, ← hleft, List.takeWhile_append_dropWhile]
      · cases h
    · cases h
  · rintro ⟨digits, hcode, rfl⟩
    have hhalts : Halts isHex ('}' :: rest) := halts_cons rfl
    rw [List.cons_append, braced?]
    simp only [takeWhile_append hcode.isHex hhalts, dropWhile_append hcode.isHex hhalts]
    rw [natIn?_of_isHex hcode.ne_nil hcode.isHex, hcode.value]
    rfl

end GuidedTour.Outcome
