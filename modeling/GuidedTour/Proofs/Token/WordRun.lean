import GuidedTour.Proofs.Token.Scan

/-!
# Words in a text

A word is a longest run of word characters (`Text.WordRun`). Two runs that share an offset are the same, so a match
that begins and ends at edges of words either is a word or keeps clear of it.

The patterns are told by runs: a pattern of words matches where a run is one of its words
(`Pattern.matchAt?_word_iff`), and a whole number is a run of digits, behind a minus sign that ends a word
(`Pattern.matchAt?_integer_iff`). A number with a point has two such runs (`Pattern.NumberAt`). No other match but that
of a string has a minus sign in it (`Pattern.minus_of_matchAt?`).
-/

set_option autoImplicit false

namespace GuidedTour

namespace Text

/-- Whether a word character stands at an offset. -/
def wordAt (text : Text) (k : Nat) : Bool := text[k]?.any isWordChar

/-- Whether an ASCII digit stands at an offset. -/
def digitAt (text : Text) (k : Nat) : Bool := text[k]?.any Char.isDigit

/-- Word characters are looked up from an offset on. -/
theorem wordAt_drop (text : Text) (p k : Nat) : wordAt (text.drop p) k = wordAt text (p + k) := by
  simp [wordAt]

/-- Digits are looked up from an offset on. -/
theorem digitAt_drop (text : Text) (p k : Nat) : digitAt (text.drop p) k = digitAt text (p + k) := by
  simp [digitAt]

/-- A digit is a word character. -/
theorem wordAt_of_digitAt {text : Text} {k : Nat} (h : digitAt text k = true) : wordAt text k = true := by
  simp only [digitAt, wordAt, Option.any_eq_true] at h ⊢
  obtain ⟨c, hc, hdigit⟩ := h
  exact ⟨c, hc, Expression.isWordChar_of_isDigit hdigit⟩

/-- A longest run of word characters. -/
structure WordRun (text : Text) (a b : Nat) : Prop where
  nonempty : a < b
  within : ∀ k, a ≤ k → k < b → wordAt text k = true
  before : 0 < a → wordAt text (a - 1) = false
  behind : wordAt text b = false

/-- A longest run of word characters that consists of digits. -/
structure DigitRun (text : Text) (a b : Nat) : Prop extends WordRun text a b where
  digits : ∀ k, a ≤ k → k < b → digitAt text k = true

namespace WordRun

variable {text : Text} {a b a' b' k : Nat}

/-- A run lies in the text. -/
theorem stop_le (h : WordRun text a b) : b ≤ text.length := by
  have hlt := h.nonempty
  have hlast := h.within (b - 1) (by omega) (by omega)
  by_contra hlong
  rw [wordAt, List.getElem?_eq_none (by omega)] at hlast
  cases hlast

/-- Of two runs through one offset neither begins before the other. -/
theorem le_start (h : WordRun text a b) (h' : WordRun text a' b') (hk : a ≤ k ∧ k < b) (hk' : a' ≤ k ∧ k < b') :
    a' ≤ a := by
  by_contra hlt
  have hbefore := h'.before (by omega)
  rw [h.within (a' - 1) (by omega) (by omega)] at hbefore
  cases hbefore

/-- Of two runs through one offset neither ends behind the other. -/
theorem stop_le_stop (h : WordRun text a b) (h' : WordRun text a' b') (hk : a ≤ k ∧ k < b)
    (hk' : a' ≤ k ∧ k < b') : b ≤ b' := by
  by_contra hlt
  have hbehind := h'.behind
  rw [h.within b' (by omega) (by omega)] at hbehind
  cases hbehind

/-- Two runs that share an offset are the same. -/
theorem unique (h : WordRun text a b) (h' : WordRun text a' b') (hk : a ≤ k ∧ k < b) (hk' : a' ≤ k ∧ k < b') :
    a = a' ∧ b = b' := by
  have hstart := h.le_start h' hk hk'
  have hstart' := h'.le_start h hk' hk
  have hstop := h.stop_le_stop h' hk hk'
  have hstop' := h'.stop_le_stop h hk' hk
  omega

end WordRun

end Text

open Text (wordAt digitAt WordRun DigitRun)

namespace Pattern

variable {source : Text} {p n : Nat}

/-- A word is ahead iff a word character is next. -/
theorem wordAhead_eq (text : Text) : wordAhead text = wordAt text 0 := by
  rw [wordAhead, List.head?_eq_getElem?, wordAt]

/-- A word ends at an offset iff a word character stands before it. -/
theorem wordBefore_take (hp : p ≤ source.length) :
    wordBefore (source.take p).getLast? = true ↔ 0 < p ∧ wordAt source (p - 1) = true := by
  cases p with
  | zero => simp [wordBefore]
  | succ p =>
    have hlt : p < source.length := hp
    simp [wordBefore, wordAt, List.getLast?_take, hlt]

/-- No word ends at an offset iff no word character stands before it. -/
theorem wordBefore_eq_false (hp : p ≤ source.length) :
    wordBefore (source.take p).getLast? = false ↔ (0 < p → wordAt source (p - 1) = false) := by
  rw [← Bool.not_eq_true, wordBefore_take hp]
  simp

/-! ## Words -/

/-- A word is matched iff it is next and word characters stand neither before nor behind it. -/
theorem wholeWord?_eq_some_iff {word text : Text} {before : Option Char} :
    wholeWord? word before text = some n ↔
      n = word.length ∧ text.take n = word ∧ wordBefore before = false ∧ wordAt text n = false := by
  have hstart : word.isPrefixOf text = true ↔ text.take word.length = word := by
    rw [List.isPrefixOf_iff_prefix, List.prefix_iff_eq_take, eq_comm]
  have hbehind : wordAhead (text.drop word.length) = wordAt text word.length := by
    rw [wordAhead_eq, Text.wordAt_drop, Nat.add_zero]
  unfold wholeWord?
  rw [hbehind, Option.ite_none_right_eq_some, Option.some.injEq]
  simp only [Bool.and_eq_true, Bool.not_eq_true', hstart]
  constructor
  · rintro ⟨⟨⟨htake, hbefore⟩, hedge⟩, rfl⟩
    exact ⟨rfl, htake, hbefore, hedge⟩
  · rintro ⟨rfl, htake, hbefore, hedge⟩
    exact ⟨⟨⟨htake, hbefore⟩, hedge⟩, rfl⟩

/-- A word that stands alone is a whole run. -/
theorem wholeWord?_eq_some_iff_wordRun {word : Text} (hne : word ≠ []) (hword : word.all Text.isWordChar = true) :
    wholeWord? word (source.take p).getLast? (source.drop p) = some n ↔
      WordRun source p (p + n) ∧ source.extract p (p + n) = word := by
  rw [wholeWord?_eq_some_iff, Text.wordAt_drop, Token.extract_add]
  constructor
  · rintro ⟨rfl, htake, hbefore, hbehind⟩
    have hpos : 0 < word.length := List.length_pos_iff.2 hne
    have hlength := congrArg List.length htake
    rw [List.length_take, List.length_drop] at hlength
    refine ⟨⟨by omega, ?_, (wordBefore_eq_false (by omega)).1 hbefore, hbehind⟩, htake⟩
    intro k hk hlt
    obtain ⟨j, rfl⟩ := Nat.exists_eq_add_of_le hk
    have hget : source[p + j]? = word[j]? := by
      calc source[p + j]? = (source.drop p)[j]? := List.getElem?_drop.symm
        _ = ((source.drop p).take word.length)[j]? := (List.getElem?_take_of_lt (by omega)).symm
        _ = word[j]? := by rw [htake]
    rw [wordAt, hget, List.getElem?_eq_getElem (show j < word.length by omega)]
    exact List.all_eq_true.1 hword _ (List.getElem_mem _)
  · rintro ⟨hrun, htake⟩
    have hle := hrun.stop_le
    have hlength := congrArg List.length htake
    rw [List.length_take, List.length_drop] at hlength
    exact ⟨by omega, htake, (wordBefore_eq_false (by omega)).2 hrun.before, hrun.behind⟩

/-- The words that a pattern matches. -/
def words : Pattern → List Text
  | boolean => [['T'], ['F']]
  | typeWord => [['t', 'y', 'p', 'e']]
  | pasteWord => [['p', 'a', 's', 't', 'e']]
  | _ => []

/-- A pattern of words matches where a whole run is one of its words. -/
theorem matchAt?_word_iff {pattern : Pattern} (hpattern : pattern.words ≠ []) :
    pattern.matchAt? source p = some n ↔
      WordRun source p (p + n) ∧ source.extract p (p + n) ∈ pattern.words := by
  rw [matchAt?_eq]
  cases pattern with
  | boolean =>
    have htrue (k : Nat) : wholeWord? ['T'] (source.take p).getLast? (source.drop p) = some k ↔
        WordRun source p (p + k) ∧ source.extract p (p + k) = ['T'] :=
      wholeWord?_eq_some_iff_wordRun (by decide) (by decide)
    have hfalse (k : Nat) : wholeWord? ['F'] (source.take p).getLast? (source.drop p) = some k ↔
        WordRun source p (p + k) ∧ source.extract p (p + k) = ['F'] :=
      wholeWord?_eq_some_iff_wordRun (by decide) (by decide)
    show (wholeWord? ['T'] _ _).or (wholeWord? ['F'] _ _) = some n ↔ _
    rw [Option.or_eq_some_iff, htrue, hfalse]
    simp only [words, List.mem_cons, List.not_mem_nil, or_false]
    constructor
    · rintro (⟨hrun, hword⟩ | ⟨-, hrun, hword⟩)
      · exact ⟨hrun, .inl hword⟩
      · exact ⟨hrun, .inr hword⟩
    · rintro ⟨hrun, hword | hword⟩
      · exact .inl ⟨hrun, hword⟩
      · refine .inr ⟨?_, hrun, hword⟩
        rw [Option.eq_none_iff_forall_ne_some]
        intro m hm
        obtain ⟨hother, hsame⟩ := (htrue m).1 hm
        have hlt := hrun.nonempty
        have hlt' := hother.nonempty
        obtain ⟨-, hstop⟩ := hrun.unique hother (k := p) (by omega) (by omega)
        rw [← hstop, hword] at hsame
        exact absurd hsame (by decide)
  | typeWord =>
    rw [words, List.mem_singleton]
    exact wholeWord?_eq_some_iff_wordRun (by decide) (by decide)
  | pasteWord =>
    rw [words, List.mem_singleton]
    exact wholeWord?_eq_some_iff_wordRun (by decide) (by decide)
  | _ => exact absurd rfl hpattern

/-! ## Numbers -/

/-- The digits that are counted are digits. -/
theorem digitAt_of_lt_digitCount {text : Text} {k : Nat} (h : k < digitCount text) : digitAt text k = true := by
  induction text generalizing k with
  | nil => exact absurd h (Nat.not_lt_zero k)
  | cons c text ih =>
    by_cases hc : c.isDigit = true
    · rw [digitCount, List.takeWhile_cons_of_pos hc, List.length_cons] at h
      cases k with
      | zero => simpa [digitAt] using hc
      | succ k => exact ih (Nat.lt_of_succ_lt_succ h)
    · rw [digitCount, List.takeWhile_cons_of_neg hc] at h
      exact absurd h (Nat.not_lt_zero k)

/-- Digits are counted up to the first character that is none. -/
theorem digitCount_eq {text : Text} (h : ∀ k < n, digitAt text k = true) (hn : digitAt text n = false) :
    digitCount text = n := by
  induction n generalizing text with
  | zero =>
    cases text with
    | nil => rfl
    | cons c text =>
      have hc : ¬c.isDigit = true := by simpa [digitAt] using hn
      rw [digitCount, List.takeWhile_cons_of_neg hc, List.length_nil]
  | succ n ih =>
    cases text with
    | nil => exact absurd (h 0 (Nat.succ_pos n)) Bool.false_ne_true
    | cons c text =>
      have hc : c.isDigit = true := by simpa [digitAt] using h 0 (Nat.succ_pos n)
      rw [digitCount, List.takeWhile_cons_of_pos hc, List.length_cons]
      exact congrArg (· + 1) (ih (fun k hk => h (k + 1) (Nat.succ_lt_succ hk)) hn)

/-- Digits are matched iff they are next and no word character is behind them. -/
theorem wholeDigits?_eq_some_iff {text : Text} :
    wholeDigits? text = some n ↔ 0 < n ∧ (∀ k < n, digitAt text k = true) ∧ wordAt text n = false := by
  have hbehind (k : Nat) : wordAhead (text.drop k) = wordAt text k := by
    rw [wordAhead_eq, Text.wordAt_drop, Nat.add_zero]
  simp only [wholeDigits?, hbehind, Option.ite_none_left_eq_some, Option.some.injEq, Bool.or_eq_true,
    decide_eq_true_eq, not_or, Bool.not_eq_true]
  constructor
  · rintro ⟨⟨hpos, hedge⟩, rfl⟩
    exact ⟨Nat.pos_of_ne_zero hpos, fun k => digitAt_of_lt_digitCount, hedge⟩
  · rintro ⟨hpos, hdigits, hedge⟩
    have hstop : digitAt text n = false := by
      rw [← Bool.not_eq_true]
      intro hdigit
      rw [Text.wordAt_of_digitAt hdigit] at hedge
      cases hedge
    obtain rfl := digitCount_eq hdigits hstop
    exact ⟨⟨by omega, hedge⟩, rfl⟩

/-- A minus sign directly behind a word. -/
def SignAt (source : Text) (m : Nat) : Prop := source[m]? = some '-' ∧ 0 < m ∧ wordAt source (m - 1) = true

/-- No sign is matched where no word ends, and a minus sign where one does. -/
theorem sign?_eq_some_iff {sign : Nat} (hp : p ≤ source.length) :
    sign? (source.take p).getLast? (source.drop p) = some sign ↔
      (sign = 0 ∧ source[p]? ≠ some '-' ∧ (0 < p → wordAt source (p - 1) = false)) ∨
        (sign = 1 ∧ SignAt source p) := by
  have hhead : (source.drop p).head? = source[p]? := by
    rw [List.head?_drop]
  unfold sign? SignAt
  rw [hhead, ← wordBefore_take hp, ← wordBefore_eq_false hp]
  by_cases hminus : source[p]? = some '-' <;> cases wordBefore (source.take p).getLast? <;>
    simp [hminus, eq_comm]

/-- A run of digits is matched as such from its start. -/
theorem digitRun_iff {d : Nat} :
    DigitRun source d (d + n) ↔
      wholeDigits? (source.drop d) = some n ∧ (0 < d → wordAt source (d - 1) = false) := by
  rw [wholeDigits?_eq_some_iff, Text.wordAt_drop]
  constructor
  · intro h
    have hlt := h.nonempty
    refine ⟨⟨by omega, fun k hk => ?_, h.behind⟩, h.before⟩
    rw [Text.digitAt_drop]
    exact h.digits (d + k) (by omega) (by omega)
  · rintro ⟨⟨hpos, hdigits, hbehind⟩, hbefore⟩
    have hdigit (k : Nat) (hk : d ≤ k) (hlt : k < d + n) : digitAt source k = true := by
      have hdigit := hdigits (k - d) (by omega)
      rwa [Text.digitAt_drop, Nat.add_sub_cancel' hk] at hdigit
    exact ⟨⟨by omega, fun k hk hlt => Text.wordAt_of_digitAt (hdigit k hk hlt), hbefore, hbehind⟩, hdigit⟩

/-- A digit is no minus sign. -/
theorem ne_minus_of_digitAt {k : Nat} (h : digitAt source k = true) : source[k]? ≠ some '-' := by
  intro hminus
  rw [digitAt, hminus] at h
  exact absurd h (by decide)

/-- A word character is no minus sign. -/
theorem ne_minus_of_wordAt {k : Nat} (h : wordAt source k = true) : source[k]? ≠ some '-' := by
  intro hminus
  rw [wordAt, hminus] at h
  exact absurd h (by decide)

/-- A whole number is a run of digits, behind a sign if it has one. -/
theorem matchAt?_integer_iff :
    integer.matchAt? source p = some n ↔
      ∃ d, (d = p ∨ d = p + 1 ∧ SignAt source p) ∧ DigitRun source d (p + n) := by
  have hnumber : integer.matchAt? source p =
      (sign? (source.take p).getLast? (source.drop p)).bind fun sign =>
        (wholeDigits? (source.drop (p + sign))).map (sign + ·) := by
    rw [matchAt?_eq]
    show (sign? _ _).bind (fun sign => (wholeDigits? ((source.drop p).drop sign)).map (sign + ·)) = _
    simp only [List.drop_drop]
  constructor
  · intro h
    have hle := (matchAt?_pos h).2
    rw [hnumber, Option.bind_eq_some_iff] at h
    obtain ⟨sign, hsign, h⟩ := h
    obtain ⟨k, hk, rfl⟩ := Option.map_eq_some_iff.1 h
    rcases (sign?_eq_some_iff (by omega)).1 hsign with ⟨rfl, -, hbefore⟩ | ⟨rfl, hat⟩
    · exact ⟨p, .inl rfl, by rw [Nat.zero_add]; exact digitRun_iff.2 ⟨hk, hbefore⟩⟩
    · refine ⟨p + 1, .inr ⟨rfl, hat⟩, ?_⟩
      rw [← Nat.add_assoc]
      refine digitRun_iff.2 ⟨hk, fun _ => ?_⟩
      rw [Nat.add_sub_cancel, wordAt, hat.1]
      decide
  · rintro ⟨d, hd, hrun⟩
    have hlt := hrun.nonempty
    have hle := hrun.stop_le
    have hdigit := hrun.digits d (Nat.le_refl d) hlt
    rw [hnumber]
    rcases hd with rfl | ⟨rfl, hat⟩
    · obtain ⟨hdigits, hbefore⟩ := digitRun_iff.1 hrun
      have hsign : sign? (source.take d).getLast? (source.drop d) = some 0 :=
        (sign?_eq_some_iff (by omega)).2 (.inl ⟨rfl, ne_minus_of_digitAt hdigit, hbefore⟩)
      simp [hsign, hdigits]
    · obtain ⟨k, rfl⟩ := Nat.exists_eq_add_of_le (show 1 ≤ n by omega)
      rw [← Nat.add_assoc] at hrun
      have hsign : sign? (source.take p).getLast? (source.drop p) = some 1 :=
        (sign?_eq_some_iff (by omega)).2 (.inr ⟨rfl, hat⟩)
      simp [hsign, (digitRun_iff.1 hrun).1]

/-- A number from an offset to another: a sign or none, and digits, or digits, a point and digits. -/
structure NumberAt (source : Text) (p d m q : Nat) : Prop where
  sign : d = p ∨ d = p + 1 ∧ SignAt source p
  whole : DigitRun source d m
  rest : q = m ∨ source[m]? = some '.' ∧ DigitRun source (m + 1) q

/-- What a pattern of numbers matches is written as a number. -/
theorem exists_numberAt {pattern : Pattern} (hpattern : pattern = .integer ∨ pattern = .decimal)
    (h : pattern.matchAt? source p = some n) : ∃ d m, NumberAt source p d m (p + n) := by
  rcases hpattern with rfl | rfl
  · obtain ⟨d, hsign, hrun⟩ := matchAt?_integer_iff.1 h
    exact ⟨d, p + n, hsign, hrun, .inl rfl⟩
  · have hle := (matchAt?_pos h).2
    rw [matchAt?_eq] at h
    obtain ⟨whole, fraction, rest, htext, rfl, -, hwhole, hfraction⟩ := decimal_eq_some h
    rw [← matchAt?_eq] at hwhole
    obtain ⟨d, hsign, hrun⟩ := matchAt?_integer_iff.1 hwhole
    have hpoint : source[p + whole.length]? = some '.' := by
      rw [← List.getElem?_drop, htext]
      simp
    have hbehind : source.drop (p + whole.length + 1) = fraction ++ rest := by
      rw [Nat.add_assoc, ← List.drop_drop, htext]
      simp
    have hlast : (source.take (p + whole.length + 1)).getLast? = some '.' := by
      simp [List.getLast?_take, hpoint]
    rw [← hbehind, ← hlast, ← matchAt?_eq] at hfraction
    obtain ⟨e, hfirst, hdigits⟩ := matchAt?_integer_iff.1 hfraction
    -- The character before the second run is the point, so that no sign stands there.
    obtain rfl : e = p + whole.length + 1 := by
      rcases hfirst with rfl | ⟨-, -, -, hword⟩
      · rfl
      · rw [Nat.add_sub_cancel, wordAt, hpoint] at hword
        exact absurd hword (by decide)
    refine ⟨d, p + whole.length, hsign, hrun, .inr ⟨hpoint, ?_⟩⟩
    have hlength : p + (whole ++ '.' :: fraction).length = p + whole.length + 1 + fraction.length := by
      rw [List.length_append, List.length_cons]
      omega
    rwa [hlength]

/-- The part before the point ends no later than the number. -/
theorem NumberAt.whole_le {d m q : Nat} (h : NumberAt source p d m q) : m ≤ q := by
  rcases h.rest with hrest | ⟨-, hrest⟩
  · omega
  · have hlt := hrest.nonempty
    omega

/-- A number that begins with a minus sign has it as its sign. -/
theorem NumberAt.sign_of_minus {d m q : Nat} (h : NumberAt source p d m q) (hminus : source[p]? = some '-') :
    d = p + 1 ∧ SignAt source p := by
  rcases h.sign with rfl | hsign
  · exact absurd hminus (ne_minus_of_digitAt (h.whole.digits d (Nat.le_refl d) h.whole.nonempty))
  · exact hsign

/-- An offset of a number is that of its sign, lies in a run of digits, or is that of the point. -/
theorem NumberAt.cases {d m q k : Nat} (h : NumberAt source p d m q) (hk : p ≤ k ∧ k < q) :
    (k = p ∧ SignAt source p) ∨
      (∃ a b, (p ≤ a ∧ b ≤ q) ∧ (a ≤ k ∧ k < b) ∧ DigitRun source a b) ∨ source[k]? = some '.' := by
  have hwhole := h.whole.nonempty
  have hstart : p ≤ d := by
    rcases h.sign with hsign | ⟨hsign, -⟩ <;> omega
  have hrest := h.whole_le
  by_cases hd : k < d
  · rcases h.sign with hsign | ⟨hsign, hat⟩
    · omega
    · exact .inl ⟨by omega, hat⟩
  · by_cases hm : k < m
    · exact .inr (.inl ⟨d, m, ⟨hstart, hrest⟩, ⟨by omega, hm⟩, h.whole⟩)
    · rcases h.rest with hq | ⟨hpoint, hfraction⟩
      · omega
      · rcases Nat.eq_or_lt_of_le (Nat.le_of_not_lt hm) with rfl | hlt
        · exact .inr (.inr hpoint)
        · exact .inr (.inl ⟨m + 1, q, ⟨by omega, Nat.le_refl q⟩, ⟨hlt, hk.2⟩, hfraction⟩)

/-! ## Characters of a match -/

/-- The patterns of brackets, pipes and colons. -/
def symbols : List Pattern := [leftParen, rightParen, leftBrace, rightBrace, pipeStar, pipe, colon]

/-- A pattern is that of strings or of identifiers, of numbers, of symbols or of words. -/
theorem kinds (pattern : Pattern) :
    pattern = quotedString ∨ pattern = identifier ∨ (pattern = integer ∨ pattern = decimal) ∨
      pattern ∈ symbols ∨ pattern.words ≠ [] := by
  cases pattern <;> decide

/-- A pattern of one character matches that character. -/
theorem take_single? {c : Char} {text : Text} (h : single? c text = some n) : text.take n = [c] := by
  rw [single?, Option.ite_none_right_eq_some] at h
  obtain ⟨hhead, hn⟩ := h
  obtain ⟨rest, rfl⟩ := List.head?_eq_some_iff.1 hhead
  obtain rfl := Option.some.inj hn
  rfl

/-- What a symbol matches is made of symbols. -/
theorem mem_symbol {pattern : Pattern} {before : Option Char} {text : Text} (hpattern : pattern ∈ symbols)
    (h : pattern.length? before text = some n) :
    ∀ c ∈ text.take n, c ∈ ['(', ')', '{', '}', '|', '*', ':'] := by
  have hsingle {c : Char} (hc : c ∈ ['(', ')', '{', '}', '|', '*', ':']) (h : single? c text = some n) :
      ∀ d ∈ text.take n, d ∈ ['(', ')', '{', '}', '|', '*', ':'] := by
    rw [take_single? h]
    intro d hd
    rwa [List.mem_singleton.1 hd]
  cases pattern with
  | leftParen => exact hsingle (by decide) h
  | rightParen => exact hsingle (by decide) h
  | leftBrace => exact hsingle (by decide) h
  | rightBrace => exact hsingle (by decide) h
  | pipe => exact hsingle (by decide) h
  | colon => exact hsingle (by decide) h
  | pipeStar =>
    obtain ⟨rfl, rest, rfl⟩ := pipeStar_eq_some h
    show ∀ c ∈ ['|', '*'], _
    simp
  | _ => exact absurd hpattern (by decide)

/-- What starts a name may go on in it. -/
theorem continuesName_of_startsName {c : Char} (h : startsName c = true) : continuesName c = true := by
  show (c.isUpper || c.isLower || c.isDigit || c == '_') = true
  rcases Bool.or_eq_true_iff.1 h with hlower | hline
  · simp [hlower]
  · simp [hline]

/-- What an identifier matches is a dollar sign and the characters of names. -/
theorem mem_identifier {before : Option Char} {text : Text} (h : identifier.length? before text = some n) :
    ∀ c ∈ text.take n, c = '$' ∨ continuesName c = true := by
  dsimp only [length?] at h
  split at h
  · rename_i first rest
    rw [Option.ite_none_right_eq_some] at h
    obtain ⟨hfirst, hn⟩ := h
    obtain rfl := Option.some.inj hn
    have htake : rest.take (rest.takeWhile continuesName).length = rest.takeWhile continuesName :=
      (List.prefix_iff_eq_take.1 (List.takeWhile_prefix _)).symm
    rw [Nat.add_comm, List.take_succ_cons, List.take_succ_cons, htake]
    intro c hc
    rcases List.mem_cons.1 hc with rfl | hc
    · exact .inl rfl
    · rcases List.mem_cons.1 hc with rfl | hc
      · exact .inr (continuesName_of_startsName hfirst)
      · exact .inr (List.mem_takeWhile_imp hc)
  · cases h

/-- A character inside a match is one of those matched. -/
theorem exists_mem_take {pattern : Pattern} {k : Nat} (h : pattern.matchAt? source p = some n)
    (hk : p ≤ k ∧ k < p + n) : ∃ c ∈ (source.drop p).take n, source[k]? = some c := by
  have hle := (matchAt?_pos h).2
  have hget : ((source.drop p).take n)[k - p]? = source[k]? := by
    rw [List.getElem?_take_of_lt (by omega), List.getElem?_drop, Nat.add_sub_cancel' hk.1]
  have hlt : k < source.length := by omega
  rw [List.getElem?_eq_getElem hlt] at hget
  exact ⟨source[k], List.mem_of_getElem? hget, List.getElem?_eq_getElem hlt⟩

/-- A minus sign in a match begins a number, unless it is part of a string. -/
theorem minus_of_matchAt? {pattern : Pattern} {k : Nat} (hstring : pattern ≠ .quotedString)
    (h : pattern.matchAt? source p = some n) (hk : p ≤ k ∧ k < p + n) (hminus : source[k]? = some '-') :
    k = p ∧ (pattern = .integer ∨ pattern = .decimal) := by
  obtain ⟨c, hmem, hc⟩ := exists_mem_take h hk
  obtain rfl : '-' = c := Option.some.inj (hminus.symm.trans hc)
  have hlength := h
  rw [matchAt?_eq] at hlength
  rcases pattern.kinds with rfl | rfl | hnumber | hsymbol | hwords
  · exact absurd rfl hstring
  · rcases mem_identifier hlength '-' hmem with hdollar | hname
    · exact absurd hdollar (by decide)
    · exact absurd hname (by decide)
  · obtain ⟨d, m, hat⟩ := exists_numberAt hnumber h
    rcases hat.cases hk with ⟨rfl, -⟩ | ⟨a, b, -, hin, hrun⟩ | hpoint
    · exact ⟨rfl, hnumber⟩
    · exact absurd hminus (ne_minus_of_digitAt (hrun.digits k hin.1 hin.2))
    · rw [hminus] at hpoint
      exact absurd (Option.some.inj hpoint) (by decide)
  · exact absurd (mem_symbol hsymbol hlength '-' hmem) (by decide)
  · have hrun := ((matchAt?_word_iff hwords).1 h).1
    exact absurd hminus (ne_minus_of_wordAt (hrun.within k hk.1 hk.2))

end Pattern

end GuidedTour
