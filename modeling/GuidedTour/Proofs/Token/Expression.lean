import GuidedTour.Token.Rule

/-!
# Patterns as regular expressions

Each pattern is written as a regular expression (`Pattern.expression`). Here the expressions are taken apart
and given a meaning of their own: the lengths that an expression matches at a place, in the order in which a
search comes upon them that tries alternatives from left to right, takes as much as it can first and gives
back one round at a time. What such a search finds first is what `Pattern.length?` computes in one pass
(`Pattern.length?_eq`), so nothing that follows depends on how the passes are written.

Two facts keep the search from giving anything back with success: a run of digits that stops early stops
inside a word, and a string that stops early stops before a character that is no quote.
-/

set_option autoImplicit false

namespace GuidedTour

/-! ## Sets of characters -/

/-- What stands for one character in a regular expression. -/
inductive CharSet where
  /-- One given character. -/
  | only (c : Char)
  /-- The characters of some ranges. -/
  | within (ranges : List (Char × Char))
  /-- The characters outside some ranges. -/
  | outside (ranges : List (Char × Char))
  /-- Any character but a line feed. -/
  | dot

namespace CharSet

/-- Whether a character lies in one of the ranges. -/
def inRanges (ranges : List (Char × Char)) (c : Char) : Bool :=
  ranges.any fun range => range.1 ≤ c && c ≤ range.2

/-- Whether a character belongs to the set. -/
def has : CharSet → Char → Bool
  | only d, c => c == d
  | within ranges, c => inRanges ranges c
  | outside ranges, c => !inRanges ranges c
  | dot, c => c != '\n'

/-- A range with one character at both ends holds that character alone. -/
theorem range_self (c d : Char) : (d ≤ c && c ≤ d) = (c == d) := by
  rw [← Bool.decide_and]
  exact decide_eq_decide.mpr ⟨fun h => Char.le_antisymm h.2 h.1, by rintro rfl; simp⟩

/-- A character that means itself, behind a backslash where it would mean something else. -/
def shownChar (special : List Char) (c : Char) : Text := if c ∈ special then ['\\', c] else [c]

/-- Ranges as they are written between brackets. -/
def shownRanges (ranges : List (Char × Char)) : Text :=
  ranges.flatMap fun range =>
    if range.1 = range.2 then shownChar ['\\'] range.1 else [range.1, '-', range.2]

/-- The set as it is written. -/
def shown : CharSet → Text
  | only c => shownChar ['(', ')', '{', '}', '|', '*', '$', '.', '\\'] c
  | within ranges => '[' :: shownRanges ranges ++ [']']
  | outside ranges => '[' :: '^' :: shownRanges ranges ++ [']']
  | dot => ['.']

end CharSet

/-! ## Expressions -/

/-- A regular expression. -/
inductive Expression where
  /-- Nothing. -/
  | empty
  /-- One character of a set. -/
  | one (set : CharSet)
  /-- The edge of a word. -/
  | edge
  | followed (first second : Expression)
  | either (first second : Expression)
  | optional (body : Expression)
  | many (body : Expression)
  | oneOrMore (body : Expression)

namespace Expression

/-- How a place is tried: the lengths found there, given the character before it and the text ahead. -/
abbrev Trial := Option Char → Text → List Nat

/-- The character before the place that lies `n` characters ahead. -/
def before (last : Option Char) (text : Text) (n : Nat) : Option Char := (text.take n).getLast?.or last

/-- One trial after another: for each length found by the first, those found by the second behind it. -/
def andThen (first second : Trial) : Trial := fun last text =>
  (first last text).flatMap fun n => (second (before last text n) (text.drop n)).map (n + ·)

/-- A trial repeated as often as possible, but at most `fuel` times, and then less often. A round that takes
nothing is not repeated. -/
def repeated (body : Trial) : Nat → Trial
  | 0, _, _ => [0]
  | fuel + 1, last, text =>
    andThen (fun last text => (body last text).filter (0 < ·)) (repeated body fuel) last text ++ [0]

/-- The lengths that an expression matches at a place, in the order in which they are found. There are no
more rounds of a repetition than characters. -/
def lengths : Expression → Trial
  | empty, _, _ => [0]
  | one _, _, [] => []
  | one set, _, c :: _ => if set.has c then [1] else []
  | edge, last, text => if Pattern.wordBefore last = Pattern.wordAhead text then [] else [0]
  | followed first second, last, text => andThen first.lengths second.lengths last text
  | either first second, last, text => first.lengths last text ++ second.lengths last text
  | optional body, last, text => body.lengths last text ++ [0]
  | many body, last, text => repeated body.lengths text.length last text
  | oneOrMore body, last, text =>
    andThen body.lengths (fun last text => repeated body.lengths text.length last text) last text

/-- The length that is found first. -/
def length? (expression : Expression) (last : Option Char) (text : Text) : Option Nat :=
  (expression.lengths last text).head?

/-- An expression as it is written. -/
def shown : Expression → Text
  | empty => []
  | one set => set.shown
  | edge => ['\\', 'b']
  | followed first second => first.shown ++ second.shown
  | either first second => ['(', '?', ':'] ++ first.shown ++ '|' :: second.shown ++ [')']
  | optional body => body.shown ++ ['?']
  | many body => body.shown ++ ['*']
  | oneOrMore body => body.shown ++ ['+']

/-- The characters of a word in order, and then an expression. -/
def word (letters : Text) (rest : Expression) : Expression :=
  letters.foldr (fun c e => followed (one (.only c)) e) rest

/-- A word that stands alone. -/
def wholeWord (letters : Text) : Expression := followed edge (word letters edge)

/-- An ASCII digit. -/
def digit : Expression := one (.within [('0', '9')])

/-- Digits up to the edge of the word. -/
def wholeDigits : Expression := followed (oneOrMore digit) edge

/-- Digits, a point, and digits up to the edge of the word. -/
def pointedDigits : Expression := followed (oneOrMore digit) (followed (one (.only '.')) wholeDigits)

/-- A number that begins at the edge of a word, given its digits. -/
def number (digits : Expression) : Expression :=
  followed edge (followed (optional (one (.only '-'))) digits)

/-- A character of a string, or a backslash with the character that it takes along. -/
def stringItem : Expression :=
  either (one (.outside [('"', '"'), ('\\', '\\')])) (followed (one (.only '\\')) (one .dot))

end Expression

/-- The regular expression of a pattern. -/
def Pattern.regular : Pattern → Expression
  | leftParen => .one (.only '(')
  | rightParen => .one (.only ')')
  | leftBrace => .one (.only '{')
  | rightBrace => .one (.only '}')
  | pipeStar => .followed (.one (.only '|')) (.one (.only '*'))
  | pipe => .one (.only '|')
  | colon => .one (.only ':')
  | identifier =>
    .followed (.one (.only '$')) (.followed (.one (.within [('a', 'z'), ('_', '_')]))
      (.many (.one (.within [('a', 'z'), ('A', 'Z'), ('0', '9'), ('_', '_')]))))
  | quotedString =>
    .followed (.one (.only '"')) (.followed (.many Expression.stringItem) (.one (.only '"')))
  | boolean =>
    .followed .edge (.followed (.either (.one (.only 'T')) (.one (.only 'F'))) .edge)
  | decimal => Expression.number Expression.pointedDigits
  | integer => Expression.number Expression.wholeDigits
  | typeWord => Expression.wholeWord ['t', 'y', 'p', 'e']
  | pasteWord => Expression.wholeWord ['p', 'a', 's', 't', 'e']

/-- The regular expression of a pattern is the one that it is written as. -/
theorem Pattern.shown_regular (pattern : Pattern) :
    pattern.regular.shown = pattern.expression.toList := by
  cases pattern <;> decide

/-! ## Laws of the search -/

namespace Expression

/-- The character before the place itself is the last one. -/
theorem before_zero (last : Option Char) (text : Text) : before last text 0 = last := rfl

/-- One character on, it is the character before the place. -/
theorem before_one (last : Option Char) (c : Char) (rest : Text) :
    before last (c :: rest) 1 = some c := rfl

/-- The character before a place can be looked up in two steps. -/
theorem before_add (last : Option Char) (text : Text) (n k : Nat) :
    before last text (n + k) = before (before last text n) (text.drop n) k := by
  simp only [before, List.take_add, List.getLast?_append, Option.or_assoc]

/-- If the first trial finds nothing, nothing is found. -/
theorem andThen_nil {first second : Trial} {last : Option Char} {text : Text}
    (h : first last text = []) : andThen first second last text = [] := by
  simp [andThen, h]

/-- If the first trial finds one length, the second one starts behind it. -/
theorem andThen_singleton {first second : Trial} {last : Option Char} {text : Text} {n : Nat}
    (h : first last text = [n]) : andThen first second last text =
      (second (before last text n) (text.drop n)).map (n + ·) := by
  simp [andThen, h]

/-- If the first trial takes nothing, the second is tried at the same place. -/
theorem andThen_zero {first second : Trial} {last : Option Char} {text : Text}
    (h : first last text = [0]) : andThen first second last text = second last text := by
  rw [andThen_singleton h]
  simp [before_zero]

/-- If the first trial takes one character, the second is tried behind it. -/
theorem andThen_one {first second : Trial} {last : Option Char} {c : Char} {rest : Text}
    (h : first last (c :: rest) = [1]) :
    andThen first second last (c :: rest) = (second (some c) rest).map (1 + ·) := andThen_singleton h

/-- A first trial that goes on `n` characters ahead goes on there together with the second one. -/
theorem andThen_shifted {first further second : Trial} {last : Option Char} {text : Text} {n : Nat}
    {more : List Nat}
    (h : first last text = (further (before last text n) (text.drop n)).map (n + ·) ++ more) :
    andThen first second last text =
      (andThen further second (before last text n) (text.drop n)).map (n + ·) ++
        more.flatMap fun k => (second (before last text k) (text.drop k)).map (k + ·) := by
  have hstep (k : Nat) : (second (before last text (n + k)) (text.drop (n + k))).map (n + k + ·) =
      ((second (before (before last text n) (text.drop n) k) ((text.drop n).drop k)).map
        (k + ·)).map (n + ·) := by
    rw [before_add, List.drop_drop, List.map_map]
    exact List.map_congr_left fun i _ => Nat.add_assoc n k i
  rw [andThen, h, List.flatMap_append, List.flatMap_map, andThen, List.map_flatMap]
  simp only [hstep]

/-- A round of a repetition that finds one length is followed by more rounds, or else is taken back. -/
theorem repeated_singleton {body : Trial} {fuel : Nat} {last : Option Char} {text : Text} {n : Nat}
    (h : body last text = [n + 1]) : repeated body (fuel + 1) last text =
      (repeated body fuel (before last text (n + 1)) (text.drop (n + 1))).map (n + 1 + ·) ++ [0] := by
  rw [repeated, andThen_singleton (by rw [h]; rfl)]

/-- Without a round there is the empty repetition. -/
theorem repeated_nil {body : Trial} {fuel : Nat} {last : Option Char} {text : Text}
    (h : body last text = []) : repeated body fuel last text = [0] := by
  cases fuel with
  | zero => rfl
  | succ fuel => rw [repeated, andThen_nil (by rw [h]; rfl), List.nil_append]

/-- A set of characters takes one of them, and the rest is tried behind it. -/
theorem lengths_followed_one (set : CharSet) (e : Expression) (last : Option Char) (c : Char)
    (rest : Text) :
    (followed (one set) e).lengths last (c :: rest) =
      if set.has c then (e.lengths (some c) rest).map (1 + ·) else [] := by
  by_cases hc : set.has c = true
  · rw [if_pos hc]
    exact andThen_one (by simp [lengths, hc])
  · rw [if_neg hc]
    exact andThen_nil (by simp [lengths, hc])

/-- At the end of the text no character is taken. -/
theorem lengths_followed_one_nil (set : CharSet) (e : Expression) (last : Option Char) :
    (followed (one set) e).lengths last [] = [] := andThen_nil rfl

/-- At the edge of a word the rest is tried, elsewhere nothing. -/
theorem lengths_followed_edge (e : Expression) (last : Option Char) (text : Text) :
    (followed edge e).lengths last text =
      if Pattern.wordBefore last = Pattern.wordAhead text then [] else e.lengths last text := by
  by_cases h : Pattern.wordBefore last = Pattern.wordAhead text
  · rw [if_pos h]
    exact andThen_nil (by simp [lengths, h])
  · rw [if_neg h]
    exact andThen_zero (by simp [lengths, h])

/-- The letters of a word are matched one after another. -/
theorem lengths_word (letters : Text) (e : Expression) (last : Option Char) (text : Text) :
    (word letters e).lengths last text =
      if letters.isPrefixOf text then
        (e.lengths (letters.getLast?.or last) (text.drop letters.length)).map (letters.length + ·)
      else [] := by
  induction letters generalizing last text with
  | nil => simp [word]
  | cons c letters ih =>
    have hword : word (c :: letters) e = followed (one (.only c)) (word letters e) := rfl
    have hlast : letters.getLast?.or (some c) = (c :: letters).getLast?.or last := by
      rw [List.getLast?_cons]
      cases letters.getLast? <;> rfl
    cases text with
    | nil => rw [hword, lengths_followed_one_nil]; rfl
    | cons d rest =>
      rw [hword, lengths_followed_one, ih]
      by_cases hd : d = c
      · subst hd
        simp only [CharSet.has, BEq.rfl, if_true, List.isPrefixOf_cons_cons, Bool.true_and, hlast,
          List.length_cons, List.drop_succ_cons]
        split
        · rw [List.map_map]
          refine List.map_congr_left fun k _ => ?_
          show 1 + (letters.length + k) = letters.length + 1 + k
          omega
        · rfl
      · have hcd : (c == d) = false := by simpa using Ne.symm hd
        simp [CharSet.has, hd, List.isPrefixOf_cons_cons, hcd]

/-! ## Words that stand alone -/

/-- A word is found where it stands alone. Its own letters are what the edges are seen from. -/
theorem length?_wholeWord {letters : Text} (hne : letters ≠ [])
    (hall : letters.all Text.isWordChar = true) (last : Option Char) (text : Text) :
    (wholeWord letters).length? last text = Pattern.wholeWord? letters last text := by
  have hword := List.all_eq_true.mp hall
  rw [length?, wholeWord, lengths_followed_edge, lengths_word, Pattern.wholeWord?]
  by_cases hp : letters.isPrefixOf text = true
  · obtain ⟨rest, rfl⟩ := List.isPrefixOf_iff_prefix.mp hp
    have hahead : Pattern.wordAhead (letters ++ rest) = true := by
      obtain ⟨c, more, rfl⟩ := List.exists_cons_of_ne_nil hne
      exact hword c List.mem_cons_self
    have hbehind : Pattern.wordBefore (letters.getLast?.or last) = true := by
      rw [List.getLast?_eq_some_getLast hne]
      exact hword _ (List.getLast_mem hne)
    simp only [hp, hahead, if_true, List.drop_left, Bool.true_and]
    cases hl : Pattern.wordBefore last with
    | true => simp
    | false =>
      cases hr : Pattern.wordAhead rest with
      | true => simp [lengths, hbehind, hr]
      | false => simp [lengths, hbehind, hr]
  · simp [hp]

/-! ## Runs of characters -/

/-- A run of characters of a set is followed by what cannot start inside it. Whatever the run gives back is
given back in vain. -/
theorem andThen_repeated_run (set : CharSet) (second : Trial)
    (hstuck : ∀ b c rest, set.has b → set.has c → second (some b) (c :: rest) = [])
    {fuel : Nat} {text : Text} (hfuel : text.length ≤ fuel) {b : Char} (hb : set.has b) :
    andThen (repeated (one set).lengths fuel) second (some b) text =
      (second ((text.takeWhile set.has).getLast?.or (some b))
        (text.drop (text.takeWhile set.has).length)).map ((text.takeWhile set.has).length + ·) := by
  induction text generalizing fuel b with
  | nil =>
    rw [andThen_zero (repeated_nil rfl)]
    simp
  | cons c rest ih =>
    obtain ⟨fuel, rfl⟩ : ∃ k, fuel = k + 1 := ⟨fuel - 1, by simp at hfuel; omega⟩
    by_cases hc : set.has c = true
    · have hround : (one set).lengths (some b) (c :: rest) = [1] := by simp [lengths, hc]
      have hlast : (rest.takeWhile set.has).getLast?.or (some c) =
          (c :: rest.takeWhile set.has).getLast?.or (some b) := by
        rw [List.getLast?_cons]
        cases (rest.takeWhile set.has).getLast? <;> rfl
      rw [andThen_shifted (repeated_singleton hround), before_one, Nat.zero_add, List.drop_one,
        List.tail_cons, ih (by simpa using hfuel) hc, List.takeWhile_cons_of_pos hc, hlast]
      simp only [List.flatMap_cons, List.flatMap_nil, before_zero, List.drop_zero,
        hstuck b c rest hb hc, List.map_nil, List.append_nil, List.length_cons, List.drop_succ_cons,
        List.map_map]
      refine List.map_congr_left fun k _ => ?_
      show 1 + ((rest.takeWhile set.has).length + k) = (rest.takeWhile set.has).length + 1 + k
      omega
    · rw [andThen_zero (repeated_nil (by simp [lengths, hc]))]
      simp [List.takeWhile_cons_of_neg hc]

/-- One or more characters of a set are taken as far as they go. -/
theorem lengths_run (set : CharSet) (e : Expression)
    (hstuck : ∀ b c rest, set.has b → set.has c → e.lengths (some b) (c :: rest) = [])
    (last : Option Char) (text : Text) :
    (followed (oneOrMore (one set)) e).lengths last text =
      if text.takeWhile set.has = [] then []
      else (e.lengths (text.takeWhile set.has).getLast?
        (text.drop (text.takeWhile set.has).length)).map ((text.takeWhile set.has).length + ·) := by
  cases text with
  | nil => exact andThen_nil (andThen_nil rfl)
  | cons c rest =>
    by_cases hc : set.has c = true
    · have hrounds : (oneOrMore (one set)).lengths last (c :: rest) =
          (repeated (one set).lengths rest.length (some c) rest).map (1 + ·) ++ [] := by
        rw [List.append_nil]
        exact andThen_one (by simp [lengths, hc])
      have hlast : (rest.takeWhile set.has).getLast?.or (some c) =
          (c :: rest.takeWhile set.has).getLast? := by
        rw [List.getLast?_cons]
        cases (rest.takeWhile set.has).getLast? <;> rfl
      have hshift : andThen (oneOrMore (one set)).lengths e.lengths last (c :: rest) =
          (andThen (repeated (one set).lengths rest.length) e.lengths (some c) rest).map (1 + ·) ++
            [] := andThen_shifted (n := 1) hrounds
      rw [andThen_repeated_run set e.lengths hstuck (Nat.le_refl _) hc, hlast] at hshift
      rw [List.takeWhile_cons_of_pos hc, if_neg (List.cons_ne_nil _ _)]
      show andThen (oneOrMore (one set)).lengths e.lengths last (c :: rest) = _
      rw [hshift, List.append_nil, List.map_map, List.length_cons, List.drop_succ_cons]
      refine List.map_congr_left fun k _ => ?_
      show 1 + ((rest.takeWhile set.has).length + k) = (rest.takeWhile set.has).length + 1 + k
      omega
    · rw [List.takeWhile_cons_of_neg hc, if_pos rfl]
      exact andThen_nil (andThen_nil (by simp [lengths, hc]))

/-! ## Numbers -/

/-- The range of digits holds the digits. -/
theorem has_digits : (CharSet.within [('0', '9')]).has = Char.isDigit := by
  funext c
  simp only [CharSet.has, CharSet.inRanges, List.any_cons, List.any_nil, Bool.or_false]
  rfl

/-- A digit is a word character. -/
theorem isWordChar_of_isDigit {c : Char} (h : c.isDigit = true) : Text.isWordChar c = true := by
  refine Text.isWordChar_of_isAlphanum (by simp [Char.isAlphanum, h]) ?_
  simp only [Char.isDigit, Bool.and_eq_true, decide_eq_true_eq] at h
  have : c.val.toNat ≤ 57 := UInt32.le_iff_toNat_le.mp h.2
  show c.val.toNat < 0x80
  omega

/-- Digits are found where the word ends behind them. -/
theorem lengths_wholeDigits (last : Option Char) (text : Text) :
    wholeDigits.lengths last text = (Pattern.wholeDigits? text).toList := by
  have hstuck : ∀ b c rest, (CharSet.within [('0', '9')]).has b →
      (CharSet.within [('0', '9')]).has c → edge.lengths (some b) (c :: rest) = [] := by
    intro b c rest hb hc
    rw [has_digits] at hb hc
    simp [lengths, Pattern.wordBefore, Pattern.wordAhead, isWordChar_of_isDigit hb,
      isWordChar_of_isDigit hc]
  rw [wholeDigits, digit, lengths_run _ _ hstuck, has_digits, Pattern.wholeDigits?,
    Pattern.digitCount]
  by_cases hnil : text.takeWhile Char.isDigit = []
  · simp [hnil]
  · have hlast : Pattern.wordBefore (text.takeWhile Char.isDigit).getLast? = true := by
      rw [List.getLast?_eq_some_getLast hnil]
      exact isWordChar_of_isDigit (List.all_eq_true.mp List.all_takeWhile _ (List.getLast_mem hnil))
    have hlen : (text.takeWhile Char.isDigit).length ≠ 0 := by simpa using hnil
    cases ha : Pattern.wordAhead (text.drop (text.takeWhile Char.isDigit).length) with
    | true => simp [lengths, hnil, hlast, ha]
    | false => simp [lengths, hnil, hlast, ha]

/-- Digits with a point are found where both runs are whole. -/
theorem lengths_pointedDigits (last : Option Char) (text : Text) :
    pointedDigits.lengths last text = (Pattern.pointedDigits? text).toList := by
  have hpoint : ∀ c rest, c ≠ '.' → ∀ b,
      (followed (one (.only '.')) wholeDigits).lengths b (c :: rest) = [] := by
    intro c rest hc b
    rw [lengths_followed_one, if_neg (by simpa [CharSet.has] using hc)]
  have hstuck : ∀ b c rest, (CharSet.within [('0', '9')]).has b →
      (CharSet.within [('0', '9')]).has c →
      (followed (one (.only '.')) wholeDigits).lengths (some b) (c :: rest) = [] := by
    intro b c rest _ hc
    rw [has_digits] at hc
    exact hpoint c rest (by rintro rfl; simp at hc) _
  rw [pointedDigits, digit, lengths_run _ _ hstuck, has_digits, Pattern.pointedDigits?,
    Pattern.digitCount]
  by_cases hnil : text.takeWhile Char.isDigit = []
  · simp only [hnil, List.length_nil, List.drop_zero, if_true]
    split <;> simp
  · rw [if_neg hnil]
    cases hd : text.drop (text.takeWhile Char.isDigit).length with
    | nil => simp [lengths_followed_one_nil]
    | cons c rest =>
      by_cases hc : c = '.'
      · subst hc
        rw [lengths_followed_one, if_pos (by simp [CharSet.has]), lengths_wholeDigits]
        cases hw : Pattern.wholeDigits? rest with
        | none => simp [hw]
        | some n => simp [hw, hnil, Nat.add_assoc]
      · rw [hpoint c rest hc]
        simp [hc]

/-- A number is found where its digits are, with a sign only behind a word. -/
theorem length?_number {digits : Expression} {digits? : Text → Option Nat}
    (hdigits : ∀ last text, digits.lengths last text = (digits? text).toList)
    (hhead : ∀ text n, digits? text = some n → ∃ c, text.head? = some c ∧ c.isDigit = true)
    (last : Option Char) (text : Text) :
    (number digits).length? last text = Pattern.number? digits? last text := by
  rw [length?, number, lengths_followed_edge, Pattern.number?, Pattern.sign?]
  by_cases hminus : text.head? = some '-'
  · obtain ⟨rest, rfl⟩ := List.head?_eq_some_iff.mp hminus
    have hahead : Pattern.wordAhead ('-' :: rest) = false := rfl
    have hnone : digits? ('-' :: rest) = none := by
      cases hd : digits? ('-' :: rest) with
      | none => rfl
      | some n =>
        obtain ⟨c, hc, hdigit⟩ := hhead _ _ hd
        obtain rfl := Option.some.inj hc
        simp at hdigit
    have hsign : (optional (one (.only '-'))).lengths last ('-' :: rest) = [1, 0] := rfl
    have hbody : (followed (optional (one (.only '-'))) digits).lengths last ('-' :: rest) =
        (digits? rest).toList.map (1 + ·) := by
      show andThen _ _ _ _ = _
      rw [andThen, hsign]
      simp [hdigits, hnone]
    rw [hbody, hahead, if_pos hminus]
    cases Pattern.wordBefore last with
    | false => simp
    | true => cases hd : digits? rest <;> simp [hd]
  · have hsign : (optional (one (.only '-'))).lengths last text = [0] := by
      cases text with
      | nil => rfl
      | cons c rest =>
        have hc : c ≠ '-' := by simpa using hminus
        simp [lengths, CharSet.has, hc]
    have hbody : (followed (optional (one (.only '-'))) digits).lengths last text =
        (digits? text).toList := (andThen_zero hsign).trans (hdigits last text)
    rw [hbody, if_neg hminus]
    cases hd : digits? text with
    | none => cases Pattern.wordBefore last <;> simp [hd]
    | some n =>
      obtain ⟨c, hc, hdigit⟩ := hhead _ _ hd
      have hahead : Pattern.wordAhead text = true := by
        simp [Pattern.wordAhead, hc, isWordChar_of_isDigit hdigit]
      rw [hahead]
      cases Pattern.wordBefore last <;> simp [hd]

/-! ## Strings and identifiers -/

/-- What the body of a string takes at once: a character that is no quote and no backslash, or a backslash
with a character that is no line feed. -/
theorem lengths_stringItem (last : Option Char) (c : Char) (rest : Text) :
    stringItem.lengths last (c :: rest) =
      if c = '"' then [] else if c = '\\' then
        (match rest with | [] => [] | d :: _ => if d = '\n' then [] else [2])
      else [1] := by
  have hplain : (one (.outside [('"', '"'), ('\\', '\\')])).lengths last (c :: rest) =
      if c = '"' ∨ c = '\\' then [] else [1] := by
    by_cases hquote : c = '"'
    · simp [lengths, CharSet.has, CharSet.inRanges, hquote]
    · by_cases hback : c = '\\'
      · simp [lengths, CharSet.has, CharSet.inRanges, hback]
      · simp [lengths, CharSet.has, CharSet.inRanges, CharSet.range_self, hquote, hback]
  show (one _).lengths last (c :: rest) ++ (followed _ _).lengths last (c :: rest) = _
  rw [hplain, lengths_followed_one]
  by_cases hquote : c = '"'
  · simp [hquote, CharSet.has]
  · by_cases hback : c = '\\'
    · cases rest with
      | nil => simp [hback, CharSet.has, lengths]
      | cons d rest => by_cases hd : d = '\n' <;> simp [hback, hd, CharSet.has, lengths]
    · simp [hquote, hback, CharSet.has]

/-- A string is found up to its first quote that no backslash takes along. A shorter body ends before
something else than a quote. -/
theorem andThen_repeated_stringItem {fuel : Nat} {text : Text} (hfuel : text.length ≤ fuel)
    (last : Option Char) :
    andThen (repeated stringItem.lengths fuel) (one (.only '"')).lengths last text =
      (Pattern.untilQuote? text).toList := by
  have hquote (last : Option Char) (c : Char) (rest : Text) :
      (one (.only '"')).lengths last (c :: rest) = if c = '"' then [1] else [] := by
    simp [lengths, CharSet.has]
  fun_induction Pattern.untilQuote? text generalizing fuel last with
  | case1 =>
    rw [andThen_zero (repeated_nil rfl)]
    rfl
  | case2 rest =>
    rw [andThen_zero (repeated_nil (by simp [lengths_stringItem]))]
    rfl
  | case3 =>
    rw [andThen_zero (repeated_nil (by simp [lengths_stringItem]))]
    rfl
  | case4 rest =>
    rw [andThen_zero (repeated_nil (by simp [lengths_stringItem]))]
    rfl
  | case5 c rest hc ih =>
    obtain ⟨fuel, rfl⟩ : ∃ k, fuel = k + 1 := ⟨fuel - 1, by simp at hfuel; omega⟩
    have hitem : stringItem.lengths last ('\\' :: c :: rest) = [1 + 1] := by
      simp [lengths_stringItem, hc]
    rw [andThen_shifted (repeated_singleton hitem)]
    show (andThen _ _ _ rest).map (2 + ·) ++ _ = _
    rw [ih (by simp at hfuel; omega)]
    simp only [List.flatMap_cons, List.flatMap_nil, List.drop_zero, hquote]
    cases Pattern.untilQuote? rest <;> simp [Nat.add_comm]
  | case6 c rest hne hend hback ih =>
    obtain ⟨fuel, rfl⟩ : ∃ k, fuel = k + 1 := ⟨fuel - 1, by simp at hfuel; omega⟩
    have hc : c ≠ '"' := fun h => hne h
    have hb : c ≠ '\\' := by
      intro h
      cases rest with
      | nil => exact hend h rfl
      | cons d more => exact hback d more h rfl
    have hitem : stringItem.lengths last (c :: rest) = [0 + 1] := by
      simp [lengths_stringItem, hc, hb]
    rw [andThen_shifted (repeated_singleton hitem)]
    show (andThen _ _ _ rest).map (0 + 1 + ·) ++ _ = _
    rw [ih (by simpa using hfuel)]
    simp only [List.flatMap_cons, List.flatMap_nil, List.drop_zero, hquote]
    cases Pattern.untilQuote? rest <;> simp [hc, Nat.add_comm]

/-- A repetition of one character takes as many as there are. -/
theorem head?_repeated_one (set : CharSet) {fuel : Nat} {text : Text} (hfuel : text.length ≤ fuel)
    (last : Option Char) :
    (repeated (one set).lengths fuel last text).head? = some (text.takeWhile set.has).length := by
  induction text generalizing fuel last with
  | nil =>
    rw [repeated_nil rfl]
    rfl
  | cons c rest ih =>
    obtain ⟨fuel, rfl⟩ : ∃ k, fuel = k + 1 := ⟨fuel - 1, by simp at hfuel; omega⟩
    by_cases hc : set.has c = true
    · have hround : (one set).lengths last (c :: rest) = [0 + 1] := by simp [lengths, hc]
      have hmore : (repeated (one set).lengths fuel (some c) rest).head? =
          some (rest.takeWhile set.has).length := ih (by simpa using hfuel) (some c)
      rw [repeated_singleton hround, List.takeWhile_cons_of_pos hc]
      show ((repeated _ fuel (some c) rest).map _ ++ [0]).head? = _
      rw [List.head?_append, List.head?_map, hmore]
      simp [Nat.add_comm]
    · rw [repeated_nil (by simp [lengths, hc]), List.takeWhile_cons_of_neg hc]
      rfl

/-- The ranges at the start of a name hold the characters that start one. -/
theorem has_startsName : (CharSet.within [('a', 'z'), ('_', '_')]).has = Pattern.startsName := by
  funext c
  have hlower : ('a' ≤ c && c ≤ 'z') = c.isLower := rfl
  simp only [CharSet.has, CharSet.inRanges, List.any_cons, List.any_nil, Bool.or_false, hlower,
    CharSet.range_self, Pattern.startsName]

/-- The ranges behind the start of a name hold the characters that go on in one. -/
theorem has_continuesName :
    (CharSet.within [('a', 'z'), ('A', 'Z'), ('0', '9'), ('_', '_')]).has =
      Pattern.continuesName := by
  funext c
  have hlower : ('a' ≤ c && c ≤ 'z') = c.isLower := rfl
  have hupper : ('A' ≤ c && c ≤ 'Z') = c.isUpper := (Bool.decide_and _ _).symm
  have hdigit : ('0' ≤ c && c ≤ '9') = c.isDigit := rfl
  have halphanum : c.isAlphanum = (c.isUpper || c.isLower || c.isDigit) := rfl
  simp only [CharSet.has, CharSet.inRanges, List.any_cons, List.any_nil, Bool.or_false, hlower,
    hupper, hdigit, CharSet.range_self, Pattern.continuesName, halphanum]
  cases c.isLower <;> cases c.isUpper <;> rfl

/-- A set of one character matches as the pattern of that character. -/
theorem length?_single (c : Char) (last : Option Char) (text : Text) :
    (one (.only c)).length? last text = Pattern.single? c text := by
  cases text with
  | nil => rfl
  | cons d rest => by_cases hd : d = c <;> simp [length?, lengths, CharSet.has, Pattern.single?, hd]

/-- A word of several letters and the words of one letter are tried at the same edge. -/
theorem length?_either (a b : Char) (ha : Text.isWordChar a = true) (hb : Text.isWordChar b = true)
    (last : Option Char) (text : Text) :
    (followed edge (followed (either (one (.only a)) (one (.only b))) edge)).length? last text =
      (Pattern.wholeWord? [a] last text).or (Pattern.wholeWord? [b] last text) := by
  have hboth : (followed edge (followed (either (one (.only a)) (one (.only b))) edge)).lengths
      last text = (wholeWord [a]).lengths last text ++ (wholeWord [b]).lengths last text := by
    simp only [wholeWord, lengths_followed_edge]
    split
    · rfl
    · exact List.flatMap_append
  rw [length?, hboth, List.head?_append,
    ← length?_wholeWord (List.cons_ne_nil a []) (by simpa using ha) last text,
    ← length?_wholeWord (List.cons_ne_nil b []) (by simpa using hb) last text, length?, length?]

end Expression

namespace Pattern

/-- Digits that are matched begin with one. -/
theorem exists_digit_of_wholeDigits? {text : Text} {n : Nat} (h : wholeDigits? text = some n) :
    ∃ c, text.head? = some c ∧ c.isDigit = true := by
  cases text with
  | nil => simp [wholeDigits?, digitCount] at h
  | cons c rest =>
    cases hc : c.isDigit with
    | true => exact ⟨c, rfl, hc⟩
    | false => simp [wholeDigits?, digitCount, hc] at h

/-- Digits around a point that are matched begin with one. -/
theorem exists_digit_of_pointedDigits? {text : Text} {n : Nat} (h : pointedDigits? text = some n) :
    ∃ c, text.head? = some c ∧ c.isDigit = true := by
  cases text with
  | nil => simp [pointedDigits?, digitCount] at h
  | cons c rest =>
    cases hc : c.isDigit with
    | true => exact ⟨c, rfl, hc⟩
    | false =>
      simp only [pointedDigits?, digitCount, List.takeWhile_cons, hc, Bool.false_eq_true, if_false,
        List.length_nil, List.drop_zero, if_true] at h
      split at h <;> simp at h

/-- What a pattern matches is what a search with its regular expression finds first. -/
theorem length?_eq (pattern : Pattern) (last : Option Char) (text : Text) :
    pattern.length? last text = pattern.regular.length? last text := by
  cases pattern with
  | leftParen => exact (Expression.length?_single _ last text).symm
  | rightParen => exact (Expression.length?_single _ last text).symm
  | leftBrace => exact (Expression.length?_single _ last text).symm
  | rightBrace => exact (Expression.length?_single _ last text).symm
  | pipe => exact (Expression.length?_single _ last text).symm
  | colon => exact (Expression.length?_single _ last text).symm
  | pipeStar =>
    rw [length?, regular, Expression.length?]
    cases text with
    | nil => rfl
    | cons c rest =>
      rw [Expression.lengths_followed_one]
      cases rest with
      | nil => simp [Expression.lengths, List.isPrefixOf]
      | cons d rest =>
        by_cases hc : c = '|'
        · by_cases hd : d = '*'
          · simp [Expression.lengths, CharSet.has, hc, hd]
          · simp [Expression.lengths, CharSet.has, hc, hd, Ne.symm hd]
        · simp [CharSet.has, hc, Ne.symm hc]
  | identifier =>
    rw [regular, Expression.length?]
    cases text with
    | nil => rfl
    | cons c rest =>
      rw [Expression.lengths_followed_one]
      by_cases hc : c = '$'
      · subst hc
        rw [if_pos (by simp [CharSet.has])]
        cases rest with
        | nil => rfl
        | cons d rest =>
          rw [Expression.lengths_followed_one, Expression.has_startsName]
          cases hd : startsName d with
          | false => simp [length?, hd]
          | true =>
            have hmany : (Expression.lengths (.many (.one (.within
                [('a', 'z'), ('A', 'Z'), ('0', '9'), ('_', '_')]))) (some d) rest).head? =
                some (rest.takeWhile continuesName).length := by
              rw [← Expression.has_continuesName]
              exact Expression.head?_repeated_one _ (Nat.le_refl _) _
            simp only [if_true, List.head?_map, hmany, length?, hd]
            simp
            omega
      · simp [CharSet.has, hc, length?]
  | quotedString =>
    rw [regular, Expression.length?]
    cases text with
    | nil => rfl
    | cons c rest =>
      rw [Expression.lengths_followed_one]
      by_cases hc : c = '"'
      · subst hc
        have hbody : (Expression.lengths (.followed (.many Expression.stringItem)
            (.one (.only '"'))) (some '"') rest) = (untilQuote? rest).toList :=
          Expression.andThen_repeated_stringItem (Nat.le_refl _) _
        rw [if_pos (by simp [CharSet.has]), hbody]
        cases hu : untilQuote? rest <;> simp [length?, hu, Nat.add_comm]
      · simp [CharSet.has, hc, length?]
  | boolean => exact (Expression.length?_either 'T' 'F' rfl rfl last text).symm
  | decimal =>
    exact (Expression.length?_number Expression.lengths_pointedDigits
      (fun _ _ => exists_digit_of_pointedDigits?) last text).symm
  | integer =>
    exact (Expression.length?_number Expression.lengths_wholeDigits
      (fun _ _ => exists_digit_of_wholeDigits?) last text).symm
  | typeWord => exact (Expression.length?_wholeWord (List.cons_ne_nil _ _) rfl last text).symm
  | pasteWord => exact (Expression.length?_wholeWord (List.cons_ne_nil _ _) rfl last text).symm

end Pattern

end GuidedTour
