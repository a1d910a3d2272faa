import GuidedTour.Text.WordChar
import GuidedTour.Text.Basic

/-!
# Patterns of program text

A pattern says how much of a text it matches at its start, knowing the character before it: the
character before decides whether a word begins there. No pattern matches the empty text
(`Pattern.length?_pos`) and none matches more than there is (`Pattern.length?_le`).
-/

set_option autoImplicit false

namespace GuidedTour

/-- The patterns that rules are made of. -/
inductive Pattern where
  | leftParen | rightParen | leftBrace | rightBrace
  | pipeStar | pipe | colon
  | identifier | quotedString | boolean | decimal | integer
  | typeWord | pasteWord
deriving DecidableEq, Repr, Inhabited

namespace Pattern

/-- A pattern written as a regular expression, as the host editor takes it. -/
def expression : Pattern → String
  | leftParen => "\\("
  | rightParen => "\\)"
  | leftBrace => "\\\x7b"
  | rightBrace => "\\\x7d"
  | pipeStar => "\\|\\*"
  | pipe => "\\|"
  | colon => ":"
  | identifier => "\\$[a-z_][a-zA-Z0-9_]*"
  | quotedString => "\"(?:[^\"\\\\]|\\\\.)*\""
  | boolean => "\\b(?:T|F)\\b"
  | decimal => "\\b-?[0-9]+\\.[0-9]+\\b"
  | integer => "\\b-?[0-9]+\\b"
  | typeWord => "\\btype\\b"
  | pasteWord => "\\bpaste\\b"

/-! ## Words -/

/-- Whether the character before a position, if there is one, is part of a word. -/
def wordBefore (before : Option Char) : Bool := before.any Text.isWordChar

/-- Whether a word goes on at the start of a text. -/
def wordAhead (text : Text) : Bool := text.head?.any Text.isWordChar

/-- A word that stands alone: nothing of a word before it and nothing behind it. -/
def wholeWord? (word : Text) (before : Option Char) (text : Text) : Option Nat :=
  if word.isPrefixOf text && !wordBefore before && !wordAhead (text.drop word.length)
  then some word.length else none

/-! ## Numbers -/

/-- The number of ASCII digits at the start of a text. -/
def digitCount (text : Text) : Nat := (text.takeWhile Char.isDigit).length

/-- The length of the sign of a number, which must begin at the edge of a word: a minus sign has a word
before it, a digit has none. -/
def sign? (before : Option Char) (text : Text) : Option Nat :=
  if text.head? = some '-' then
    if wordBefore before then some 1 else none
  else if wordBefore before then none else some 0

/-- One or more digits, with nothing of a word behind them. -/
def wholeDigits? (text : Text) : Option Nat :=
  let count := digitCount text
  if count = 0 || wordAhead (text.drop count) then none else some count

/-- Digits, a point and digits, with nothing of a word behind them. -/
def pointedDigits? (text : Text) : Option Nat :=
  let count := digitCount text
  match text.drop count with
  | '.' :: rest => if count = 0 then none else (wholeDigits? rest).map (count + 1 + ·)
  | _ => none

/-- A number with its sign, given how its digits are matched. -/
def number? (digits? : Text → Option Nat) (before : Option Char) (text : Text) : Option Nat :=
  (sign? before text).bind fun sign => (digits? (text.drop sign)).map (sign + ·)

/-! ## Strings and identifiers -/

/-- The length of the rest of a string up to its closing quote. A backslash takes the next character
with it, which must not be a line feed. -/
def untilQuote? : Text → Option Nat
  | [] => none
  | '"' :: _ => some 1
  | ['\\'] => none
  | '\\' :: c :: rest => if c = '\n' then none else (untilQuote? rest).map (· + 2)
  | _ :: rest => (untilQuote? rest).map (· + 1)

/-- Whether a character can start the name of an identifier. -/
def startsName (c : Char) : Bool := c.isLower || c == '_'

/-- Whether a character can go on with the name of an identifier. -/
def continuesName (c : Char) : Bool := c.isAlphanum || c == '_'

/-! ## Matching -/

/-- The length of a text of one given character. -/
def single? (c : Char) (text : Text) : Option Nat := if text.head? = some c then some 1 else none

/-- How much of a text a pattern matches at its start, given the character before it. -/
def length? (pattern : Pattern) (before : Option Char) (text : Text) : Option Nat :=
  match pattern with
  | leftParen => single? '(' text
  | rightParen => single? ')' text
  | leftBrace => single? '{' text
  | rightBrace => single? '}' text
  | pipeStar => if ['|', '*'].isPrefixOf text then some 2 else none
  | pipe => single? '|' text
  | colon => single? ':' text
  | identifier =>
    match text with
    | '$' :: c :: rest =>
      if startsName c then some (2 + (rest.takeWhile continuesName).length) else none
    | _ => none
  | quotedString =>
    match text with
    | '"' :: rest => (untilQuote? rest).map (· + 1)
    | _ => none
  | boolean => (wholeWord? ['T'] before text).or (wholeWord? ['F'] before text)
  | decimal => number? pointedDigits? before text
  | integer => number? wholeDigits? before text
  | typeWord => wholeWord? ['t', 'y', 'p', 'e'] before text
  | pasteWord => wholeWord? ['p', 'a', 's', 't', 'e'] before text

/-! ## No match is empty -/

/-- A character that is matched is one character. -/
theorem single?_pos {c : Char} {text : Text} {n : Nat} (h : single? c text = some n) : 0 < n := by
  unfold single? at h
  split at h <;> simp_all
  omega

/-- A word that is matched is not empty if it has letters. -/
theorem wholeWord?_pos {word : Text} {before : Option Char} {text : Text} {n : Nat}
    (hw : 0 < word.length) (h : wholeWord? word before text = some n) : 0 < n := by
  unfold wholeWord? at h
  split at h <;> simp_all

/-- Digits that are matched are not empty. -/
theorem wholeDigits?_pos {text : Text} {n : Nat} (h : wholeDigits? text = some n) : 0 < n := by
  unfold wholeDigits? at h
  simp only at h
  split at h
  · simp at h
  · next hc => simp at h hc; omega

/-- Digits around a point that are matched are not empty. -/
theorem pointedDigits?_pos {text : Text} {n : Nat} (h : pointedDigits? text = some n) : 0 < n := by
  unfold pointedDigits? at h
  simp only at h
  split at h
  · split at h
    · simp at h
    · simp at h; obtain ⟨m, _, rfl⟩ := h; omega
  · simp at h

/-- A number that is matched is not empty if its digits are not. -/
theorem number?_pos {digits? : Text → Option Nat} {before : Option Char} {text : Text} {n : Nat}
    (hd : ∀ t k, digits? t = some k → 0 < k) (h : number? digits? before text = some n) : 0 < n := by
  unfold number? at h
  simp only [Option.bind_eq_some_iff, Option.map_eq_some_iff] at h
  obtain ⟨sign, _, k, hk, rfl⟩ := h
  have := hd _ _ hk
  omega

/-- No pattern matches the empty text. -/
theorem length?_pos {pattern : Pattern} {before : Option Char} {text : Text} {n : Nat}
    (h : length? pattern before text = some n) : 0 < n := by
  unfold length? at h
  cases pattern <;> simp only at h
  case pipeStar => split at h <;> simp_all; omega
  case identifier =>
    split at h
    · split at h <;> simp_all; omega
    · simp at h
  case quotedString =>
    split at h
    · simp at h; obtain ⟨m, _, rfl⟩ := h; omega
    · simp at h
  case boolean =>
    rw [Option.or_eq_some_iff] at h
    rcases h with h | ⟨_, h⟩
    · exact wholeWord?_pos (by simp) h
    · exact wholeWord?_pos (by simp) h
  case decimal => exact number?_pos (fun _ _ => pointedDigits?_pos) h
  case integer => exact number?_pos (fun _ _ => wholeDigits?_pos) h
  case typeWord => exact wholeWord?_pos (by simp) h
  case pasteWord => exact wholeWord?_pos (by simp) h
  all_goals exact single?_pos h

/-! ## No match exceeds the text -/

/-- A character that is matched is there. -/
theorem single?_le {c : Char} {text : Text} {n : Nat} (h : single? c text = some n) :
    n ≤ text.length := by
  unfold single? at h
  cases text with
  | nil => simp at h
  | cons d rest => split at h <;> simp_all

/-- A word that is matched is there. -/
theorem wholeWord?_le {word : Text} {before : Option Char} {text : Text} {n : Nat}
    (h : wholeWord? word before text = some n) : n ≤ text.length := by
  unfold wholeWord? at h
  split at h
  · next hw =>
    simp only [Bool.and_eq_true, List.isPrefixOf_iff_prefix] at hw
    simp at h
    exact h ▸ hw.1.1.length_le
  · simp at h

/-- There are no more digits in front than characters. -/
theorem digitCount_le (text : Text) : digitCount text ≤ text.length :=
  (List.takeWhile_sublist _).length_le

/-- Digits that are matched are there. -/
theorem wholeDigits?_le {text : Text} {n : Nat} (h : wholeDigits? text = some n) :
    n ≤ text.length := by
  unfold wholeDigits? at h
  simp only at h
  split at h
  · simp at h
  · simp at h; exact h ▸ digitCount_le text

/-- Digits around a point that are matched are there. -/
theorem pointedDigits?_le {text : Text} {n : Nat} (h : pointedDigits? text = some n) :
    n ≤ text.length := by
  unfold pointedDigits? at h
  simp only at h
  split at h
  · next rest hr =>
    split at h
    · simp at h
    · simp at h
      obtain ⟨m, hm, rfl⟩ := h
      have := wholeDigits?_le hm
      have hl := congrArg List.length hr
      simp at hl
      omega
  · simp at h

/-- A number that is matched is there if its digits are. -/
theorem number?_le {digits? : Text → Option Nat} {before : Option Char} {text : Text} {n : Nat}
    (hd : ∀ t k, digits? t = some k → 0 < k ∧ k ≤ t.length)
    (h : number? digits? before text = some n) : n ≤ text.length := by
  unfold number? at h
  simp only [Option.bind_eq_some_iff, Option.map_eq_some_iff] at h
  obtain ⟨sign, _, k, hk, rfl⟩ := h
  have := hd _ _ hk
  simp at this
  omega

/-- The quote that ends a string is there. -/
theorem untilQuote?_le {text : Text} {n : Nat} (h : untilQuote? text = some n) :
    n ≤ text.length := by
  fun_induction untilQuote? text generalizing n with
  | case1 => simp at h
  | case2 => simp at h; simp only [List.length_cons]; omega
  | case3 => simp at h
  | case4 => simp at h
  | case5 c rest _ ih =>
    simp at h
    obtain ⟨m, hm, rfl⟩ := h
    have := ih hm
    simp only [List.length_cons]; omega
  | case6 c rest _ _ _ ih =>
    simp at h
    obtain ⟨m, hm, rfl⟩ := h
    have := ih hm
    simp only [List.length_cons]; omega

/-- No pattern matches more than the text. -/
theorem length?_le {pattern : Pattern} {before : Option Char} {text : Text} {n : Nat}
    (h : length? pattern before text = some n) : n ≤ text.length := by
  unfold length? at h
  cases pattern <;> simp only at h
  case pipeStar =>
    split at h
    · next hp =>
      rw [List.isPrefixOf_iff_prefix] at hp
      have := hp.length_le
      simp at h this; omega
    · simp at h
  case identifier =>
    split at h
    · next c rest =>
      have := (List.takeWhile_sublist (l := rest) continuesName).length_le
      split at h <;> simp_all; omega
    · simp at h
  case quotedString =>
    split at h
    · simp at h; obtain ⟨m, hm, rfl⟩ := h; have := untilQuote?_le hm; simp only [List.length_cons]; omega
    · simp at h
  case boolean =>
    rw [Option.or_eq_some_iff] at h
    rcases h with h | ⟨_, h⟩
    · exact wholeWord?_le h
    · exact wholeWord?_le h
  case decimal => exact number?_le (fun _ _ h => ⟨pointedDigits?_pos h, pointedDigits?_le h⟩) h
  case integer => exact number?_le (fun _ _ h => ⟨wholeDigits?_pos h, wholeDigits?_le h⟩) h
  case typeWord => exact wholeWord?_le h
  case pasteWord => exact wholeWord?_le h
  all_goals exact single?_le h

end Pattern

end GuidedTour
