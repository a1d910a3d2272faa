import GuidedTour.Proofs.Token.FirstMatch

/-!
# The older order of the rules

In their older order the rules cut a text where they do in the newer one, and besides inside every spread pipe and
every number with a point (`Token.stream_legacy`). So the older tokens can be told from the newer ones alone:
spread pipes and numbers with a point are cut up, and what is left over is put together where it meets.

The two orders differ in two pairs of neighbours. A match of another class is therefore the same in both
(`Rule.first?_legacy_of_standard`), and where the longer pattern of a pair matches, the shorter one does too. What
is left of the longer match begins with a star or a point, which no rule takes, and behind a point a number begins
at the edge of a word. The proof follows the pieces of the newer order from place to place.
-/

set_option autoImplicit false

namespace GuidedTour

/-! ## First characters -/

namespace Pattern

/-- The characters that a match of a pattern can begin with. -/
def heads : Pattern → List Char
  | leftParen => ['(']
  | rightParen => [')']
  | leftBrace => ['{']
  | rightBrace => ['}']
  | pipeStar => ['|']
  | pipe => ['|']
  | colon => [':']
  | identifier => ['$']
  | quotedString => ['"']
  | boolean => ['T', 'F']
  | decimal => "-0123456789".toList
  | integer => "-0123456789".toList
  | typeWord => ['t']
  | pasteWord => ['p']

/-- A digit is one of ten characters. -/
theorem mem_digits_of_isDigit {c : Char} (h : c.isDigit = true) : c ∈ "0123456789".toList := by
  have hall : ∀ n < 58, (Char.ofNat n).isDigit = true → Char.ofNat n ∈ "0123456789".toList := by decide
  have hlt : c.toNat < 58 := by
    simp only [Char.isDigit, ge_iff_le, UInt32.le_iff_toNat_le, Bool.and_eq_true, decide_eq_true_eq] at h
    exact Nat.lt_succ_of_le h.2
  have hdigit := hall c.toNat hlt
  rw [Char.ofNat_toNat] at hdigit
  exact hdigit h

/-- A number begins with a sign or a digit. -/
theorem head_number {digits? : Text → Option Nat} {before : Option Char} {c : Char} {rest : Text} {n : Nat}
    (hdigits : ∀ text k, digits? text = some k → ∃ d, text.head? = some d ∧ d.isDigit = true)
    (h : number? digits? before (c :: rest) = some n) : c ∈ "-0123456789".toList := by
  obtain ⟨sign, hsign, hlength⟩ := Option.bind_eq_some_iff.1 h
  obtain ⟨k, hk, -⟩ := Option.map_eq_some_iff.1 hlength
  by_cases hc : c = '-'
  · rw [hc]
    decide
  · have hzero : sign = 0 := by
      unfold sign? at hsign
      rw [if_neg (by simpa using hc)] at hsign
      split at hsign
      · cases hsign
      · exact (Option.some.inj hsign).symm
    obtain ⟨d, hd, hdigit⟩ := hdigits _ k hk
    rw [hzero, List.drop_zero, List.head?_cons] at hd
    rw [Option.some.inj hd]
    exact List.mem_cons_of_mem _ (mem_digits_of_isDigit hdigit)

/-- A word begins with its first letter. -/
theorem head_wholeWord {letter : Char} {letters : Text} {before : Option Char} {c : Char} {rest : Text} {n : Nat}
    (h : wholeWord? (letter :: letters) before (c :: rest) = some n) : c = letter := by
  unfold wholeWord? at h
  split at h
  · rename_i hword
    simp only [List.isPrefixOf, Bool.and_eq_true, beq_iff_eq] at hword
    exact hword.1.1.1.symm
  · cases h

/-- A pattern of one character begins with it. -/
theorem head_single {letter c : Char} {rest : Text} {n : Nat} (h : single? letter (c :: rest) = some n) :
    c = letter := by
  unfold single? at h
  split at h
  · rename_i hhead
    exact Option.some.inj hhead
  · cases h

/-- A match begins with one of the characters that its pattern can begin with. -/
theorem head_mem {pattern : Pattern} {before : Option Char} {c : Char} {rest : Text} {n : Nat}
    (h : pattern.length? before (c :: rest) = some n) : c ∈ pattern.heads := by
  cases pattern with
  | leftParen => exact List.mem_singleton.2 (head_single h)
  | rightParen => exact List.mem_singleton.2 (head_single h)
  | leftBrace => exact List.mem_singleton.2 (head_single h)
  | rightBrace => exact List.mem_singleton.2 (head_single h)
  | pipe => exact List.mem_singleton.2 (head_single h)
  | colon => exact List.mem_singleton.2 (head_single h)
  | pipeStar =>
    dsimp only [length?] at h
    split at h
    · rename_i hbar
      simp only [List.isPrefixOf, Bool.and_eq_true, beq_iff_eq] at hbar
      exact List.mem_singleton.2 hbar.1.symm
    · cases h
  | identifier =>
    dsimp only [length?] at h
    split at h
    · rename_i heq
      exact List.mem_singleton.2 (List.cons.inj heq).1
    · cases h
  | quotedString =>
    dsimp only [length?] at h
    split at h
    · rename_i heq
      exact List.mem_singleton.2 (List.cons.inj heq).1
    · cases h
  | boolean =>
    rcases Option.or_eq_some_iff.1 h with htrue | ⟨-, hfalse⟩
    · rw [head_wholeWord htrue]
      exact List.mem_cons_self
    · rw [head_wholeWord hfalse]
      exact List.mem_cons_of_mem _ List.mem_cons_self
  | decimal => exact head_number (fun _ _ => exists_digit_of_pointedDigits?) h
  | integer => exact head_number (fun _ _ => exists_digit_of_wholeDigits?) h
  | typeWord => exact List.mem_singleton.2 (head_wholeWord h)
  | pasteWord => exact List.mem_singleton.2 (head_wholeWord h)

/-! ## Longer and shorter matches -/

/-- A spread pipe is a bar and a star. -/
theorem pipeStar_eq_some {before : Option Char} {text : Text} {n : Nat}
    (h : pipeStar.length? before text = some n) : n = 2 ∧ ∃ rest, text = '|' :: '*' :: rest := by
  dsimp only [length?] at h
  split at h
  · rename_i hstart
    obtain ⟨rest, hrest⟩ := List.isPrefixOf_iff_prefix.1 hstart
    exact ⟨(Option.some.inj h).symm, rest, hrest.symm⟩
  · cases h

/-- The digits around a point are whole numbers by themselves. -/
theorem pointedDigits_eq_some {text : Text} {n : Nat} (h : pointedDigits? text = some n) :
    ∃ whole fraction rest, text = whole ++ '.' :: (fraction ++ rest) ∧
      n = whole.length + 1 + fraction.length ∧ (∀ c ∈ whole, c.isDigit = true) ∧
      wholeDigits? text = some whole.length ∧ wholeDigits? (fraction ++ rest) = some fraction.length := by
  have htake : text.take (digitCount text) = text.takeWhile Char.isDigit :=
    (List.prefix_iff_eq_take.1 (List.takeWhile_prefix _)).symm
  unfold pointedDigits? at h
  dsimp only at h
  split at h
  · rename_i behind hbehind
    split at h
    · cases h
    · rename_i hcount
      obtain ⟨m, hm, rfl⟩ := Option.map_eq_some_iff.1 h
      have hfraction : (behind.take m).length = m := List.length_take_of_le (wholeDigits?_le hm)
      refine ⟨text.takeWhile Char.isDigit, behind.take m, behind.drop m, ?_, ?_, ?_, ?_, ?_⟩
      · rw [List.take_append_drop, ← htake, ← hbehind, List.take_append_drop]
      · rw [hfraction]
        rfl
      · exact fun c hc => List.mem_takeWhile_imp hc
      · have hpoint : wordAhead ('.' :: behind) = false := by
          show Text.isWordChar '.' = false
          decide
        show wholeDigits? text = some (digitCount text)
        simp only [wholeDigits?, hbehind, hpoint, Bool.or_false]
        rw [if_neg (by simpa using hcount)]
      · rw [hfraction, List.take_append_drop]
        exact hm
  · cases h

/-- A sign is taken behind a word and there only. -/
theorem sign_eq_some {before : Option Char} {text : Text} {sign : Nat} (h : sign? before text = some sign) :
    (sign = 0 ∧ wordBefore before = false ∧ text.head? ≠ some '-') ∨
      (sign = 1 ∧ wordBefore before = true ∧ ∃ rest, text = '-' :: rest) := by
  unfold sign? at h
  split at h
  · rename_i hminus
    split at h
    · rename_i hword
      obtain ⟨rest, hrest⟩ := List.head?_eq_some_iff.1 hminus
      exact .inr ⟨(Option.some.inj h).symm, hword, rest, hrest⟩
    · cases h
  · rename_i hminus
    split at h
    · cases h
    · rename_i hword
      exact .inl ⟨(Option.some.inj h).symm, eq_false_of_ne_true hword, hminus⟩

/-- A number with a point is a whole number with its sign, a point, and a whole number that begins behind it. -/
theorem decimal_eq_some {before : Option Char} {text : Text} {n : Nat}
    (h : decimal.length? before text = some n) :
    ∃ whole fraction rest, text = (whole ++ '.' :: fraction) ++ rest ∧
      n = (whole ++ '.' :: fraction).length ∧ '.' ∉ whole ∧
      integer.length? before text = some whole.length ∧
      integer.length? (some '.') (fraction ++ rest) = some fraction.length := by
  obtain ⟨sign, hsign, hlength⟩ := Option.bind_eq_some_iff.1 h
  obtain ⟨k, hk, rfl⟩ := Option.map_eq_some_iff.1 hlength
  obtain ⟨digits, fraction, rest, htext, rfl, hdigits, hwhole, hfraction⟩ := pointedDigits_eq_some hk
  have hcut : digits ++ '.' :: (fraction ++ rest) = (digits ++ '.' :: fraction) ++ rest :=
    (List.append_assoc digits ('.' :: fraction) rest).symm
  have hsize : (digits ++ '.' :: fraction).length = digits.length + 1 + fraction.length := by
    rw [List.length_append, List.length_cons]
    omega
  rw [hcut] at htext
  have hbehind : integer.length? (some '.') (fraction ++ rest) = some fraction.length := by
    obtain ⟨d, hd, hdigit⟩ := exists_digit_of_wholeDigits? hfraction
    have hplain : sign? (some '.') (fraction ++ rest) = some 0 := by
      have hminus : (fraction ++ rest).head? ≠ some '-' := by
        rw [hd]
        rintro heq
        rw [Option.some.inj heq] at hdigit
        exact absurd hdigit (by decide)
      have hedge : wordBefore (some '.') = false := by decide
      rw [sign?, if_neg hminus, hedge]
      rfl
    show number? wholeDigits? (some '.') (fraction ++ rest) = some fraction.length
    simp [number?, hplain, hfraction]
  have hdigits' : '.' ∉ digits := fun hmem => absurd (hdigits '.' hmem) (by decide)
  have hinteger : integer.length? before text = some (sign + digits.length) := by
    show number? wholeDigits? before text = _
    simp [number?, hsign, hwhole]
  rcases sign_eq_some hsign with ⟨rfl, -, -⟩ | ⟨rfl, -, more, rfl⟩
  · refine ⟨digits, fraction, rest, htext, ?_, hdigits', ?_, hbehind⟩
    · rw [hsize, Nat.zero_add]
    · rw [hinteger, Nat.zero_add]
  · refine ⟨'-' :: digits, fraction, rest, congrArg ('-' :: ·) htext, ?_, ?_, ?_, hbehind⟩
    · rw [List.cons_append, List.length_cons, hsize, Nat.add_comm]
    · rw [List.mem_cons, not_or]
      exact ⟨by decide, hdigits'⟩
    · rw [hinteger, List.length_cons, Nat.add_comm]

end Pattern

/-! ## First matches in the two orders -/

namespace Rule

/-- A rule that changes places with the one behind it matters only where its own match was found. -/
theorem first?_swap (earlier later : List (Rule Pattern)) (a b : Rule Pattern) {before : Option Char} {text : Text}
    {cls : TokenClass} {n : Nat} (hcls : cls ≠ a.cls)
    (h : first? (earlier ++ a :: b :: later) before text = some (cls, n)) :
    first? (earlier ++ b :: a :: later) before text = some (cls, n) := by
  rw [first?_eq_findSome?] at h ⊢
  rw [List.findSome?_append, List.findSome?_cons, List.findSome?_cons] at h ⊢
  cases hearlier : earlier.findSome? fun rule => (rule.pattern.length? before text).map (rule.cls, ·) with
  | some found =>
    rw [hearlier] at h
    exact h
  | none =>
    rw [hearlier] at h
    cases ha : a.pattern.length? before text with
    | some k =>
      rw [ha] at h
      exact absurd (congrArg Prod.fst (Option.some.inj h)).symm hcls
    | none =>
      rw [ha] at h
      cases hb : b.pattern.length? before text with
      | some k =>
        rw [hb] at h
        exact h
      | none =>
        rw [hb] at h
        exact h

/-- Where the newer order finds neither a spread pipe nor a number with a point, the older one finds the same. -/
theorem first?_legacy_of_standard {before : Option Char} {text : Text} {cls : TokenClass} {n : Nat}
    (hpipe : cls ≠ .pipeStar) (hfloat : cls ≠ .floatLiteral)
    (h : first? standard before text = some (cls, n)) : first? legacy before text = some (cls, n) := by
  have hpipes := first?_swap (standard.take 4) (standard.drop 6) ⟨.pipeStar, .pipeStar⟩ ⟨.pipe, .pipe⟩ hpipe h
  exact first?_swap (legacy.take 10) (legacy.drop 12) ⟨.decimal, .floatLiteral⟩ ⟨.integer, .integerLiteral⟩
    hfloat hpipes

/-- Both orders have the same rules, so they match at the same places. -/
theorem first?_legacy_eq_none {before : Option Char} {text : Text} (h : first? standard before text = none) :
    first? legacy before text = none := by
  have hsame : ∀ rule ∈ legacy, rule ∈ standard := by decide
  rw [first?_eq_none_iff] at h ⊢
  exact fun rule hrule => h rule (hsame rule hrule)

/-- A character that no match begins with is left over. -/
theorem first?_eq_none_of_head {rules : List (Rule Pattern)} {before : Option Char} {c : Char} {rest : Text}
    (h : ∀ rule ∈ rules, c ∉ rule.pattern.heads) : first? rules before (c :: rest) = none := by
  rw [first?_eq_none_iff]
  intro rule hrule
  cases hlength : rule.pattern.length? before (c :: rest) with
  | none => rfl
  | some n => exact absurd (Pattern.head_mem hlength) (h rule hrule)

/-- A rule whose match cannot begin as those of the rules before it do is the first that matches. -/
theorem first?_of_heads (earlier later : List (Rule Pattern)) (rule : Rule Pattern) {before : Option Char}
    {text : Text} {n : Nat}
    (hheads : ∀ other ∈ earlier, rule.pattern.heads.any other.pattern.heads.contains = false)
    (h : rule.pattern.length? before text = some n) :
    first? (earlier ++ rule :: later) before text = some (rule.cls, n) := by
  have hpos := Pattern.length?_pos h
  have hle := Pattern.length?_le h
  cases text with
  | nil => exact absurd (Nat.lt_of_lt_of_le hpos hle) (Nat.lt_irrefl 0)
  | cons c rest =>
    have hearlier : first? earlier before (c :: rest) = none := by
      apply first?_eq_none_of_head
      intro other hother hmem
      exact List.any_eq_false.1 (hheads other hother) c (Pattern.head_mem h) (List.contains_iff_mem.2 hmem)
    exact first?_of_earlier later hearlier h

/-- The older order takes a bar as a pipe, whatever follows. -/
theorem first?_legacy_pipe (before : Option Char) (rest : Text) :
    first? legacy before ('|' :: rest) = some (.pipe, 1) :=
  first?_of_heads (legacy.take 4) (legacy.drop 5) ⟨.pipe, .pipe⟩ (by decide) rfl

/-- The older order takes digits as an integer wherever they are one. -/
theorem first?_legacy_integer {before : Option Char} {text : Text} {n : Nat}
    (h : Pattern.integer.length? before text = some n) :
    first? legacy before text = some (.integerLiteral, n) :=
  first?_of_heads (legacy.take 10) (legacy.drop 11) ⟨.integer, .integerLiteral⟩ (by decide) h

/-- The older order leaves a star over. -/
theorem first?_legacy_star (before : Option Char) (rest : Text) : first? legacy before ('*' :: rest) = none :=
  first?_eq_none_of_head (by decide)

/-- The older order leaves a point over. -/
theorem first?_legacy_point (before : Option Char) (rest : Text) : first? legacy before ('.' :: rest) = none :=
  first?_eq_none_of_head (by decide)

/-- The pattern of a spread pipe, and that of a number with a point, can be told from the class. -/
theorem pattern_of_first?_standard (pattern : Pattern) {before : Option Char} {text : Text} {cls : TokenClass}
    {n : Nat} (honly : ∀ rule ∈ standard, rule.cls = cls → rule.pattern = pattern)
    (h : first? standard before text = some (cls, n)) : pattern.length? before text = some n := by
  obtain ⟨rule, hrule, hcls, hlength⟩ := mem_of_first? h
  rw [← honly rule hrule hcls]
  exact hlength

end Rule

/-! ## Pieces in the two orders -/

namespace Piece

/-- The pieces that the older order makes of a piece of the newer one: a spread pipe is cut behind its bar, and a
number with a point around the point. -/
def cut (cls : TokenClass) (text : Text) : List Piece :=
  match cls with
  | .pipeStar => [matched .pipe ['|'], gap ['*']]
  | .floatLiteral =>
    [matched .integerLiteral (text.takeWhile (· != '.')), gap ['.'],
      matched .integerLiteral ((text.dropWhile (· != '.')).drop 1)]
  | .unclassified => [gap text]
  | cls => [matched cls text]

/-- Puts a piece in front of some pieces. A gap takes in a gap that follows. -/
def joined : Piece → List Piece → List Piece
  | gap text, gap more :: pieces => gap (text ++ more) :: pieces
  | piece, pieces => piece :: pieces

/-- Pieces with neighbouring gaps put together. -/
def merged (pieces : List Piece) : List Piece := pieces.foldr joined []

/-- Putting a character that is left over in front is putting a gap in front. -/
theorem consGap_eq_joined (c : Char) (pieces : List Piece) : consGap c pieces = joined (gap [c]) pieces := by
  cases pieces with
  | nil => rfl
  | cons piece more => cases piece <;> rfl

/-- A gap can be put in front character by character. -/
theorem joined_gap_cons (c : Char) (text : Text) (pieces : List Piece) :
    joined (gap (c :: text)) pieces = consGap c (joined (gap text) pieces) := by
  cases pieces with
  | nil => rfl
  | cons piece more => cases piece <;> rfl

/-- A match in front of pieces takes nothing in. -/
theorem joined_matched (cls : TokenClass) (text : Text) (pieces : List Piece) :
    joined (matched cls text) pieces = matched cls text :: pieces := by
  cases pieces <;> rfl

/-- A character that is left over may be put in front before or after gaps are put together. -/
theorem merged_cut_consGap (c : Char) (pieces : List Piece) :
    merged ((consGap c pieces).flatMap fun piece => cut piece.cls piece.text) =
      consGap c (merged (pieces.flatMap fun piece => cut piece.cls piece.text)) := by
  cases pieces with
  | nil => rfl
  | cons piece more =>
    cases piece with
    | matched cls text => exact (consGap_eq_joined c _).symm
    | gap text => exact joined_gap_cons c text _

/-- A character at which no rule matches is left over. -/
theorem ofText_of_none {rules : List (Rule Pattern)} {before : Option Char} {c : Char} {rest : Text}
    (h : Rule.first? rules before (c :: rest) = none) :
    ofText rules before (c :: rest) = consGap c (ofText rules (some c) rest) := by
  rw [ofText, Pattern.behind_singleton]
  split
  · rfl
  · rename_i hsome
    rw [h] at hsome
    cases hsome

/-- A match at the beginning of a text is its first piece. -/
theorem ofText_of_some {rules : List (Rule Pattern)} {before : Option Char} (word rest : Text) {cls : TokenClass}
    (h : Rule.first? rules before (word ++ rest) = some (cls, word.length)) :
    ofText rules before (word ++ rest) =
      matched cls word :: ofText rules (Matching.behind Pattern before word) rest := by
  have hpos := Rule.first?_pos h
  have htake : (word ++ rest).take word.length = word := List.take_left
  have hdrop : (word ++ rest).drop word.length = rest := List.drop_left
  cases htext : word ++ rest with
  | nil =>
    rw [(List.append_eq_nil_iff.1 htext).1] at hpos
    exact absurd hpos (Nat.lt_irrefl 0)
  | cons c more =>
    rw [htext] at h htake hdrop
    rw [ofText]
    split
    · rename_i hnone
      rw [h] at hnone
      cases hnone
    · rename_i cls' n hsome
      rw [h] at hsome
      obtain ⟨rfl, rfl⟩ := Prod.mk.inj (Option.some.inj hsome)
      rw [htake, hdrop]

/-- The first match at the beginning of a text is its first piece. -/
theorem ofText_of_first? {rules : List (Rule Pattern)} {before : Option Char} {text : Text} {cls : TokenClass} {n : Nat}
    (h : Rule.first? rules before text = some (cls, n)) :
    ofText rules before text =
      matched cls (text.take n) :: ofText rules (Matching.behind Pattern before (text.take n)) (text.drop n) := by
  have hword : (text.take n).length = n := List.length_take_of_le (Rule.first?_le h)
  have hpieces := ofText_of_some (text.take n) (text.drop n) (by rwa [List.take_append_drop, hword])
  rwa [List.take_append_drop] at hpieces

/-- A text that the first match takes as a whole is one piece. -/
theorem ofText_whole {rules : List (Rule Pattern)} {before : Option Char} {word : Text} {cls : TokenClass}
    (h : Rule.first? rules before word = some (cls, word.length)) : ofText rules before word = [matched cls word] := by
  rw [ofText_of_first? h, List.take_length, List.drop_length, ofText]

/-- What the older order makes of a spread pipe and what follows it. -/
theorem ofText_legacy_pipeStar (before : Option Char) (rest : Text) :
    ofText Rule.legacy before ('|' :: '*' :: rest) =
      matched .pipe ['|'] :: consGap '*' (ofText Rule.legacy (some '*') rest) := by
  have hpipe := ofText_of_some ['|'] ('*' :: rest) (Rule.first?_legacy_pipe before ('*' :: rest))
  rw [← ofText_of_none (Rule.first?_legacy_star (some '|') rest)]
  exact hpipe

/-- What the older order makes of a number with a point and what follows it. -/
theorem ofText_legacy_decimal {before : Option Char} {whole fraction rest : Text}
    (hwhole : Pattern.integer.length? before ((whole ++ '.' :: fraction) ++ rest) = some whole.length)
    (hfraction : Pattern.integer.length? (some '.') (fraction ++ rest) = some fraction.length) :
    ofText Rule.legacy before ((whole ++ '.' :: fraction) ++ rest) =
      matched .integerLiteral whole :: consGap '.' (matched .integerLiteral fraction ::
        ofText Rule.legacy (Matching.behind Pattern (some '.') fraction) rest) := by
  rw [List.append_assoc, List.cons_append] at hwhole ⊢
  rw [ofText_of_some whole _ (Rule.first?_legacy_integer hwhole), ofText_of_none (Rule.first?_legacy_point _ _),
    ofText_of_some fraction rest (Rule.first?_legacy_integer hfraction)]

/-- A number with a point is cut into its digits and the point. -/
theorem cut_float (whole fraction : Text) (h : '.' ∉ whole) :
    cut .floatLiteral (whole ++ '.' :: fraction) =
      [matched .integerLiteral whole, gap ['.'], matched .integerLiteral fraction] := by
  have hall : ∀ c ∈ whole, (c != '.') = true := by
    intro c hc
    rw [bne_iff_ne]
    rintro rfl
    exact h hc
  have htake : (whole ++ '.' :: fraction).takeWhile (· != '.') = whole := by
    rw [List.takeWhile_append_of_pos hall, List.takeWhile_cons_of_neg (by decide), List.append_nil]
  have hdrop : (whole ++ '.' :: fraction).dropWhile (· != '.') = '.' :: fraction := by
    rw [List.dropWhile_append_of_pos hall, List.dropWhile_cons_of_neg (by decide)]
  unfold cut
  rw [htake, hdrop, List.drop_one, List.tail_cons]

/-- A match of any other class is not cut. -/
theorem cut_other {cls : TokenClass} (text : Text) (hpipe : cls ≠ .pipeStar) (hfloat : cls ≠ .floatLiteral)
    (hgap : cls ≠ .unclassified) : cut cls text = [matched cls text] := by
  unfold cut
  split <;> first | rfl | contradiction

/-- A match separates what is put together behind it. -/
theorem merged_matched (cls : TokenClass) (text : Text) (pieces : List Piece) :
    merged (matched cls text :: pieces) = matched cls text :: merged pieces :=
  joined_matched cls text (merged pieces)

/-- A character that is left over joins what is left over behind it. -/
theorem merged_gap (c : Char) (pieces : List Piece) : merged (gap [c] :: pieces) = consGap c (merged pieces) :=
  (consGap_eq_joined c (merged pieces)).symm

/-- The pieces by the older order are those by the newer one, cut up and with neighbouring gaps put together. -/
theorem ofText_legacy (before : Option Char) (source : Text) :
    ofText Rule.legacy before source =
      merged ((ofText Rule.standard before source).flatMap fun piece => cut piece.cls piece.text) := by
  fun_induction ofText Rule.standard before source with
  | case1 =>
    rw [ofText]
    rfl
  | case2 before c rest h ih =>
    rw [Pattern.behind_singleton] at ih ⊢
    rw [ofText_of_none (Rule.first?_legacy_eq_none h), ih, merged_cut_consGap]
  | case3 before c rest cls n h ih =>
    rw [List.flatMap_cons]
    show _ = merged (cut cls ((c :: rest).take n) ++ _)
    -- The newer order has found a spread pipe, a number with a point, or what the older order finds too.
    by_cases hpipe : cls = .pipeStar
    · subst hpipe
      have hlength := Rule.pattern_of_first?_standard .pipeStar (by decide) h
      obtain ⟨rfl, more, hmore⟩ := Pattern.pipeStar_eq_some hlength
      obtain ⟨rfl, rfl⟩ := List.cons.inj hmore
      have hcut : cut .pipeStar (('|' :: '*' :: more).take 2) = [matched .pipe ['|'], gap ['*']] := rfl
      rw [ofText_legacy_pipeStar, hcut, List.cons_append, List.singleton_append, merged_matched, merged_gap, ← ih]
      rfl
    by_cases hfloat : cls = .floatLiteral
    · subst hfloat
      have hlength := Rule.pattern_of_first?_standard .decimal (by decide) h
      obtain ⟨whole, fraction, more, htext, rfl, hpoint, hwhole, hfraction⟩ := Pattern.decimal_eq_some hlength
      have hlast : Matching.behind Pattern before (whole ++ '.' :: fraction) =
          Matching.behind Pattern (some '.') fraction := by
        rw [Matching.behind_append, ← List.singleton_append, Matching.behind_append, Pattern.behind_singleton]
      rw [htext] at hwhole ih ⊢
      rw [List.take_left, List.drop_left] at ih ⊢
      rw [hlast] at ih
      rw [ofText_legacy_decimal hwhole hfraction, ih, cut_float whole fraction hpoint, List.cons_append,
        List.cons_append, List.singleton_append, merged_matched, merged_gap, merged_matched, hlast]
    · have hclassed : cls ≠ .unclassified := by
        have hall : ∀ rule ∈ Rule.standard, rule.cls ≠ .unclassified := by decide
        obtain ⟨rule, hrule, rfl, -⟩ := Rule.mem_of_first? h
        exact hall rule hrule
      rw [ofText_of_first? (Rule.first?_legacy_of_standard hpipe hfloat h), ih, cut_other _ hpipe hfloat hclassed,
        List.singleton_append, merged_matched]

/-- What holds of some pieces and does not depend on how far a gap goes holds when gaps are put together. -/
theorem forall_mem_merged {P : Piece → Prop} (hgap : ∀ text, P (gap text)) {pieces : List Piece}
    (h : ∀ piece ∈ pieces, P piece) : ∀ piece ∈ merged pieces, P piece := by
  induction pieces with
  | nil => exact h
  | cons first more ih =>
    have hmore := ih fun piece hp => h piece (List.mem_cons_of_mem _ hp)
    intro piece hp
    change piece ∈ joined first (merged more) at hp
    unfold joined at hp
    split at hp
    · rename_i text next rest heq
      rcases List.mem_cons.1 hp with rfl | hp
      · exact hgap _
      · exact hmore piece (heq ▸ List.mem_cons_of_mem _ hp)
    · rcases List.mem_cons.1 hp with rfl | hp
      · exact h piece List.mem_cons_self
      · exact hmore piece hp

/-- A piece that can come of cutting: a gap, or a match of a class that is not cut up. -/
def Older : Piece → Prop
  | matched cls _ => cls ≠ .unclassified ∧ cls ≠ .pipeStar ∧ cls ≠ .floatLiteral
  | gap _ => True

/-- What comes of cutting is of the older order. -/
theorem older_of_mem_cut {cls : TokenClass} {text : Text} {piece : Piece} (h : piece ∈ cut cls text) :
    Older piece := by
  unfold cut at h
  split at h
  · simp only [List.mem_cons, List.not_mem_nil, or_false] at h
    rcases h with rfl | rfl
    · exact ⟨by decide, by decide, by decide⟩
    · trivial
  · simp only [List.mem_cons, List.not_mem_nil, or_false] at h
    rcases h with rfl | rfl | rfl
    · exact ⟨by decide, by decide, by decide⟩
    · trivial
    · exact ⟨by decide, by decide, by decide⟩
  · rw [List.mem_singleton.1 h]
    trivial
  · rename_i hpipe hfloat hgap
    rw [List.mem_singleton.1 h]
    exact ⟨hgap, hpipe, hfloat⟩

/-- What the older order finds is of the older order. -/
theorem older_of_mem_ofText {before : Option Char} {source : Text} {piece : Piece}
    (h : piece ∈ ofText Rule.legacy before source) : Older piece := by
  rw [ofText_legacy] at h
  refine forall_mem_merged (fun _ => trivial) ?_ piece h
  intro piece hp
  obtain ⟨whole, -, hcut⟩ := List.mem_flatMap.1 hp
  exact older_of_mem_cut hcut

/-- Cutting up a piece of a text keeps what it says. -/
theorem flatMap_text_cut {before : Option Char} {source : Text} {piece : Piece}
    (h : piece ∈ ofText Rule.standard before source) :
    (cut piece.cls piece.text).flatMap text = piece.text := by
  refine forall_mem_ofText (P := fun piece => (cut piece.cls piece.text).flatMap text = piece.text) ?_ ?_
    before source piece h
  · intro c more
    exact List.append_nil _
  · intro before ahead cls n hfirst
    show (cut cls (ahead.take n)).flatMap text = ahead.take n
    unfold cut
    split
    · have hlength := Rule.pattern_of_first?_standard .pipeStar (by decide) hfirst
      obtain ⟨rfl, rest, rfl⟩ := Pattern.pipeStar_eq_some hlength
      rfl
    · have hlength := Rule.pattern_of_first?_standard .decimal (by decide) hfirst
      obtain ⟨whole, fraction, rest, rfl, rfl, hpoint, -, -⟩ := Pattern.decimal_eq_some hlength
      have hcut := congrArg (List.flatMap text) (cut_float whole fraction hpoint)
      rw [List.take_left]
      refine hcut.trans ?_
      simp [text]
    · exact List.append_nil _
    · exact List.append_nil _

end Piece

/-! ## Tokens in the two orders -/

namespace Token

/-- Where a token starts. -/
def position (token : Token) : Position := ⟨token.start, token.line, token.column⟩

/-- The tokens that the older order makes of a token of the newer one. They lie end to end from its start. -/
def cut (token : Token) : List Token := place token.position (Piece.cut token.cls token.value)

/-- Puts a token in front of some tokens. What is left over takes in what is left over behind it. -/
def joined (token : Token) : List Token → List Token
  | [] => [token]
  | next :: more =>
    if token.cls = .unclassified ∧ next.cls = .unclassified then
      { token with value := token.value ++ next.value, stop := next.stop } :: more
    else
      token :: next :: more

/-- Tokens with neighbouring tokens of what is left over put together. -/
def merged (tokens : List Token) : List Token := tokens.foldr joined []

/-- Pieces behind others are placed behind their text. -/
theorem place_append (p : Position) (a b : List Piece) :
    place p (a ++ b) = place p a ++ place (p.after (a.flatMap Piece.text)) b := by
  induction a generalizing p with
  | nil => rfl
  | cons piece more ih =>
    have hrest := ih (p.after piece.text)
    rw [← Position.after_append, ← List.flatMap_cons] at hrest
    exact congrArg (located p piece.cls piece.text :: ·) hrest

/-- Pieces may be cut up before or after they are given their places. -/
theorem flatMap_cut_place (p : Position) {pieces : List Piece}
    (h : ∀ piece ∈ pieces, (Piece.cut piece.cls piece.text).flatMap Piece.text = piece.text) :
    (place p pieces).flatMap cut = place p (pieces.flatMap fun piece => Piece.cut piece.cls piece.text) := by
  induction pieces generalizing p with
  | nil => rfl
  | cons piece more ih =>
    have hmore := ih (p.after piece.text) fun piece hp => h piece (List.mem_cons_of_mem _ hp)
    rw [List.flatMap_cons, place_append, h piece List.mem_cons_self, ← hmore]
    rfl

/-- Gaps may be put together before or after they are given their places. -/
theorem place_joined (p : Position) {piece : Piece} {pieces : List Piece} (hpiece : piece.Older)
    (hpieces : ∀ next ∈ pieces, next.Older) :
    place p (Piece.joined piece pieces) =
      joined (located p piece.cls piece.text) (place (p.after piece.text) pieces) := by
  cases pieces with
  | nil => cases piece <;> rfl
  | cons next more =>
    cases piece with
    | matched cls text =>
      have hcls : ¬(cls = .unclassified ∧ next.cls = .unclassified) := fun h => hpiece.1 h.1
      exact (if_neg hcls).symm
    | gap text =>
      cases next with
      | matched cls next =>
        have hnext : ¬(TokenClass.unclassified = .unclassified ∧ cls = .unclassified) :=
          fun h => (hpieces _ List.mem_cons_self).1 h.2
        exact (if_neg hnext).symm
      | gap next =>
        have hstop : p.offset + (text ++ next).length = (p.after text).offset + next.length := by
          rw [Position.offset_after, List.length_append, Nat.add_assoc]
        have hplace : p.after (text ++ next) = (p.after text).after next := Position.after_append p text next
        show located p .unclassified (text ++ next) :: place (p.after (text ++ next)) more = _
        rw [located, hstop, hplace]
        rfl

/-- Placing pieces that were put together puts together the tokens of the pieces. -/
theorem place_merged (p : Position) {pieces : List Piece} (h : ∀ piece ∈ pieces, piece.Older) :
    place p (Piece.merged pieces) = merged (place p pieces) := by
  induction pieces generalizing p with
  | nil => rfl
  | cons piece more ih =>
    have holder : ∀ next ∈ more, next.Older := fun next hnext => h next (List.mem_cons_of_mem _ hnext)
    have hmerged := Piece.forall_mem_merged (fun _ => trivial) holder
    have hjoined := place_joined p (h piece List.mem_cons_self) hmerged
    rw [ih (p.after piece.text) holder] at hjoined
    exact hjoined

/-- A token comes of a piece of its class. -/
theorem exists_piece_of_mem_place {p : Position} {pieces : List Piece} {token : Token}
    (h : token ∈ place p pieces) : ∃ piece ∈ pieces, token.cls = piece.cls := by
  induction pieces generalizing p with
  | nil => cases h
  | cons piece more ih =>
    rcases List.mem_cons.1 h with rfl | hmore
    · exact ⟨piece, List.mem_cons_self, rfl⟩
    · obtain ⟨next, hnext, hcls⟩ := ih hmore
      exact ⟨next, List.mem_cons_of_mem _ hnext, hcls⟩

/-- The tokens of a text by the older order are those by the newer one, with every spread pipe and every number with
a point cut up and with neighbouring tokens of what is left over put together. So the older order produces neither
spread pipes nor numbers with a point. -/
theorem stream_legacy (source : Text) :
    stream Rule.legacy source = merged ((stream Rule.standard source).flatMap cut) ∧
      ∀ token ∈ stream Rule.legacy source, token.cls ≠ .pipeStar ∧ token.cls ≠ .floatLiteral := by
  constructor
  · have htext : ∀ piece ∈ Piece.ofText Rule.standard none source,
        (Piece.cut piece.cls piece.text).flatMap Piece.text = piece.text := fun _ => Piece.flatMap_text_cut
    have holder : ∀ piece ∈ (Piece.ofText Rule.standard none source).flatMap
        (fun piece => Piece.cut piece.cls piece.text), piece.Older := by
      intro piece hp
      obtain ⟨whole, -, hcut⟩ := List.mem_flatMap.1 hp
      exact Piece.older_of_mem_cut hcut
    rw [stream_eq, stream_eq, flatMap_cut_place _ htext, ← place_merged _ holder, Piece.ofText_legacy]
  · intro token htoken
    obtain ⟨piece, hpiece, hcls⟩ := exists_piece_of_mem_place htoken
    have holder := Piece.older_of_mem_ofText hpiece
    rw [hcls]
    cases piece with
    | matched cls text => exact holder.2
    | gap text =>
      have hgap : (Piece.gap text).cls = .unclassified := rfl
      rw [hgap]
      decide

end Token

end GuidedTour
