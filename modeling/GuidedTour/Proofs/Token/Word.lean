import GuidedTour.Proofs.Token.StringLiteral
import GuidedTour.Proofs.Token.WordRun

/-!
# Words and numbers among the tokens

A match that meets a word, and is neither a string nor an identifier, is that word or a number around it
(`Token.holdsWord_of_meets`). So no token begins or ends inside a word, and what a word is follows from how it is
spelled (`Token.exists_holdsWord`).

A minus sign is part of a number if and only if it stands between a word and digits. It is enough to look at the
token that holds the sign (`Token.minus_classed`), since a string that reaches up to the sign would end with a quote.
-/

set_option autoImplicit false

namespace GuidedTour

open Text (wordAt WordRun DigitRun)

namespace Token

open Pattern (SignAt NumberAt)

variable {source : Text} {token : Token} {a b : Nat}

/-- A token is a number. -/
def Numeric (token : Token) : Prop := token.cls = .integerLiteral ∨ token.cls = .floatLiteral

/-- A number is classified, and no string. -/
theorem Numeric.cls_ne (h : token.Numeric) : token.cls ≠ .unclassified ∧ token.cls ≠ .stringLiteral := by
  rcases h with h | h <;> simp [h]

/-- The words that are truth values. -/
def truthWords : List Text := [['T'], ['F']]

/-- The words that are keywords. -/
def keywords : List Text := [['t', 'y', 'p', 'e'], ['p', 'a', 's', 't', 'e']]

/-- The rule of strings is the one with their pattern. -/
theorem string_rule : ∀ rule ∈ Rule.standard, rule.cls = .stringLiteral ↔ rule.pattern = .quotedString := by
  decide

/-- The rule of identifiers is the one with their pattern. -/
theorem identifier_rule : ∀ rule ∈ Rule.standard, rule.cls = .identifier ↔ rule.pattern = .identifier := by
  decide

/-- The rules of numbers are the two with their patterns. -/
theorem number_rule : ∀ rule ∈ Rule.standard,
    (rule.cls = .integerLiteral ∨ rule.cls = .floatLiteral) ↔
      (rule.pattern = .integer ∨ rule.pattern = .decimal) := by
  decide

/-- The rules of words are those of truth values and of keywords. -/
theorem word_rule : ∀ rule ∈ Rule.standard, rule.pattern.words ≠ [] →
    (rule.cls = .booleanLiteral ∧ ∀ word ∈ rule.pattern.words, word ∈ truthWords) ∨
      (rule.cls = .keyword ∧ ∀ word ∈ rule.pattern.words, word ∈ keywords) := by
  decide

/-- A token that is a number is written as one. -/
theorem exists_numberAt (htoken : token ∈ stream Rule.standard source) (hnumber : token.Numeric) :
    ∃ d m, NumberAt source token.start d m token.stop := by
  obtain ⟨rule, hrule, hsame, n, hmatch, hstop⟩ := exists_rule Rule.standard_classed htoken hnumber.cls_ne.1
  rw [Numeric, ← hsame, number_rule rule hrule] at hnumber
  rw [hstop]
  exact Pattern.exists_numberAt hnumber hmatch

/-! ## Tokens and words -/

/-- A token holds a word, as the spelling of the word asks for it. -/
inductive HoldsWord (source : Text) (a b : Nat) (token : Token) : Prop
  | truth (cls : token.cls = .booleanLiteral) (extent : token.start = a ∧ token.stop = b)
      (spelling : source.extract a b ∈ truthWords)
  | keyword (cls : token.cls = .keyword) (extent : token.start = a ∧ token.stop = b)
      (spelling : source.extract a b ∈ keywords)
  | number (cls : token.Numeric) (extent : token.start ≤ a ∧ b ≤ token.stop) (spelling : DigitRun source a b)
  | leftOver (cls : token.cls = .unclassified) (extent : token.start ≤ a ∧ b ≤ token.stop)
      (truth : source.extract a b ∉ truthWords) (keyword : source.extract a b ∉ keywords)
      (number : ¬DigitRun source a b)

/-- A token that holds a word begins no later than the word. -/
theorem HoldsWord.start_le (h : HoldsWord source a b token) : token.start ≤ a := by
  cases h with
  | truth _ extent => exact Nat.le_of_eq extent.1
  | keyword _ extent => exact Nat.le_of_eq extent.1
  | number _ extent => exact extent.1
  | leftOver _ extent => exact extent.1

/-- A match that meets a word, and is no string or identifier, is the word, or is a number around it. -/
theorem holdsWord_of_meets (htoken : token ∈ stream Rule.standard source) (hcls : token.cls ≠ .unclassified)
    (hplain : ¬(token.cls = .stringLiteral ∨ token.cls = .identifier)) (hrun : WordRun source a b) {k : Nat}
    (hk : a ≤ k ∧ k < b) (hspan : token.start ≤ k ∧ k < token.stop) : HoldsWord source a b token := by
  obtain ⟨rule, hrule, hsame, n, hmatch, hstop⟩ := exists_rule Rule.standard_classed htoken hcls
  rw [hstop] at hspan
  have hword := hrun.within k hk.1 hk.2
  rcases rule.pattern.kinds with hstring | hname | hnumber | hsymbol | hwords
  · exact absurd (.inl (hsame ▸ (string_rule rule hrule).2 hstring)) hplain
  · exact absurd (.inr (hsame ▸ (identifier_rule rule hrule).2 hname)) hplain
  · have hnumeric : token.Numeric := by
      rw [Numeric, ← hsame]
      exact (number_rule rule hrule).2 hnumber
    obtain ⟨d, m, hat⟩ := Pattern.exists_numberAt hnumber hmatch
    rcases hat.cases hspan with ⟨rfl, hminus, -⟩ | ⟨a', b', hwithin, hin, hdigits⟩ | hpoint
    · exact absurd hminus (Pattern.ne_minus_of_wordAt hword)
    · obtain ⟨rfl, rfl⟩ := hrun.unique hdigits.toWordRun hk hin
      rw [← hstop] at hwithin
      exact .number hnumeric hwithin hdigits
    · rw [wordAt, hpoint] at hword
      exact absurd hword (by decide)
  · obtain ⟨c, hmem, hc⟩ := Pattern.exists_mem_take hmatch hspan
    have hapart : (['(', ')', '{', '}', '|', '*', ':'].any Text.isWordChar) = false := by decide
    rw [Pattern.matchAt?_eq] at hmatch
    rw [wordAt, hc, Option.any_some] at hword
    exact absurd hword (List.any_eq_false.1 hapart c (Pattern.mem_symbol hsymbol hmatch c hmem))
  · obtain ⟨hsingle, hmem⟩ := (Pattern.matchAt?_word_iff hwords).1 hmatch
    rw [← hstop] at hsingle hmem hspan
    obtain ⟨rfl, rfl⟩ := hsingle.unique hrun hspan hk
    rcases word_rule rule hrule hwords with ⟨hclass, hall⟩ | ⟨hclass, hall⟩
    · exact .truth (hsame ▸ hclass) ⟨rfl, rfl⟩ (hall _ hmem)
    · exact .keyword (hsame ▸ hclass) ⟨rfl, rfl⟩ (hall _ hmem)

/-- A stretch begins with the character at its start. -/
theorem head?_extract (h : a < b) : (source.extract a b).head? = source[a]? := by
  rw [List.extract_eq_take_drop, List.head?_take, if_neg (by omega), List.head?_drop]

/-- No character of a stretch lies in a string or in an identifier. -/
def Plain (tokens : List Token) (a b : Nat) : Prop :=
  ∀ token ∈ tokens, token.cls = .stringLiteral ∨ token.cls = .identifier →
    ∀ k, a ≤ k → k < b → ¬(token.start ≤ k ∧ k < token.stop)

/-- Every word outside strings and identifiers is held by a token. -/
theorem exists_holdsWord (hrun : WordRun source a b) (hplain : Plain (stream Rule.standard source) a b) :
    ∃ token ∈ stream Rule.standard source, HoldsWord source a b token := by
  obtain ⟨n, rfl⟩ := Nat.exists_eq_add_of_le (Nat.le_of_lt hrun.nonempty)
  have hlt := hrun.nonempty
  have hle := hrun.stop_le
  obtain ⟨token, htoken, hspan, -⟩ := existsUnique_mem_stream Rule.standard (show a < source.length by omega)
  refine ⟨token, htoken, ?_⟩
  have hmeets {other : Token} (hother : other ∈ stream Rule.standard source) (hcls : other.cls ≠ .unclassified)
      {k : Nat} (hk : a ≤ k ∧ k < a + n) (hin : other.start ≤ k ∧ k < other.stop) :
      HoldsWord source a (a + n) other :=
    holdsWord_of_meets hother hcls (fun hnot => hplain other hother hnot k hk.1 hk.2 hin) hrun hk hin
  by_cases hcls : token.cls = .unclassified
  · have hnone := noneAt_of_mem_stream Rule.standard_classed htoken hcls hspan
    have hwhole : a + n ≤ token.stop := by
      by_contra hshort
      obtain ⟨next, hnext, hclassed, hstart⟩ := exists_match_behind Rule.standard_classed htoken hcls (by omega)
      have hnonempty := (extent_of_mem_stream hnext).1
      have hholds := hmeets hnext hclassed (k := token.stop) ⟨by omega, by omega⟩ ⟨by omega, by omega⟩
      have hbefore := hholds.start_le
      omega
    have hword (rule : Rule Pattern) (hrule : rule ∈ Rule.standard) (hmem : source.extract a (a + n) ∈ rule.pattern.words) :
        False :=
      not_noneAt_of_matchAt? rule hrule ((Pattern.matchAt?_word_iff (List.ne_nil_of_mem hmem)).2 ⟨hrun, hmem⟩) hnone
    refine .leftOver hcls ⟨hspan.1, hwhole⟩ ?_ ?_ ?_
    · exact hword ⟨.boolean, .booleanLiteral⟩ (by decide)
    · intro hmem
      rcases List.mem_cons.1 hmem with hmem | hmem
      · exact hword ⟨.typeWord, .keyword⟩ (by decide) (List.mem_singleton.2 hmem)
      · exact hword ⟨.pasteWord, .keyword⟩ (by decide) hmem
    · intro hdigits
      have hmatch := Pattern.matchAt?_integer_iff.2 ⟨a, .inl rfl, hdigits⟩
      exact not_noneAt_of_matchAt? ⟨.integer, .integerLiteral⟩ (by decide) hmatch hnone
  · exact hmeets htoken hcls ⟨Nat.le_refl a, hlt⟩ hspan

/-! ## Tokens and signs -/

/-- A minus sign in a match begins a number, unless it is part of a string. -/
theorem start_of_minus (htoken : token ∈ stream Rule.standard source) (hcls : token.cls ≠ .unclassified)
    (hstring : token.cls ≠ .stringLiteral) {m : Nat} (hspan : token.start ≤ m ∧ m < token.stop)
    (hminus : source[m]? = some '-') : token.start = m ∧ token.Numeric := by
  obtain ⟨rule, hrule, hsame, n, hmatch, hstop⟩ := exists_rule Rule.standard_classed htoken hcls
  have hpattern : rule.pattern ≠ .quotedString := by
    rw [← hsame] at hstring
    exact mt (string_rule rule hrule).2 hstring
  obtain ⟨hstart, hnumber⟩ := Pattern.minus_of_matchAt? hpattern hmatch (hstop ▸ hspan) hminus
  refine ⟨hstart.symm, ?_⟩
  rw [Numeric, ← hsame]
  exact (number_rule rule hrule).2 hnumber

/-- The minus sign before a number is part of it if and only if a word ends before the sign. -/
theorem minus_classed {m : Nat} (hminus : source[m]? = some '-') (hrun : DigitRun source (m + 1) b)
    (hstring : ∀ token ∈ stream Rule.standard source, token.cls = .stringLiteral →
      ¬(token.start ≤ m ∧ m < token.stop)) :
    ∃ token ∈ stream Rule.standard source, (token.start ≤ m ∧ m < token.stop) ∧
      (token.Numeric ↔ 0 < m ∧ wordAt source (m - 1) = true) ∧
      (token.Numeric → token.start = m ∧ b ≤ token.stop) := by
  have hbehind := hrun.nonempty
  obtain ⟨n, rfl⟩ := Nat.exists_eq_add_of_le (show m ≤ b by omega)
  have hlt : m < source.length := (List.getElem?_eq_some_iff.1 hminus).1
  obtain ⟨token, htoken, hspan, -⟩ := existsUnique_mem_stream Rule.standard hlt
  refine ⟨token, htoken, hspan, ?_⟩
  by_cases hcls : token.cls = .unclassified
  · have hnumber : ¬token.Numeric := fun h => h.cls_ne.1 hcls
    refine ⟨⟨fun h => absurd h hnumber, fun hbefore => ?_⟩, fun h => absurd h hnumber⟩
    have hnone := noneAt_of_mem_stream Rule.standard_classed htoken hcls hspan
    have hmatch := Pattern.matchAt?_integer_iff.2 ⟨m + 1, .inr ⟨rfl, hminus, hbefore⟩, hrun⟩
    exact absurd hnone (not_noneAt_of_matchAt? ⟨.integer, .integerLiteral⟩ (by decide) hmatch)
  · obtain ⟨hstart, hnumber⟩ := start_of_minus htoken hcls (fun h => hstring token htoken h hspan) hspan hminus
    obtain ⟨d, e, hat⟩ := exists_numberAt htoken hnumber
    rw [hstart] at hat
    obtain ⟨rfl, -, hbefore⟩ := hat.sign_of_minus hminus
    have hwhole := hat.whole.nonempty
    have hend := hat.whole_le
    obtain ⟨-, hsame⟩ := hrun.unique hat.whole.toWordRun (k := m + 1) ⟨by omega, by omega⟩ ⟨by omega, by omega⟩
    exact ⟨⟨fun _ => hbefore, fun _ => hnumber⟩, fun _ => ⟨hstart, by omega⟩⟩

/-- A string ends with a quote. -/
theorem last_of_string (htoken : token ∈ stream Rule.standard source) (hcls : token.cls = .stringLiteral) :
    source[token.stop - 1]? = some '"' := by
  obtain ⟨rule, hrule, hsame, n, hmatch, hstop⟩ := exists_rule Rule.standard_classed htoken (by rw [hcls]; decide)
  rw [(string_rule rule hrule).1 (hsame.trans hcls)] at hmatch
  obtain ⟨c, hc, hhead⟩ := Pattern.exists_head_of_matchAt? hmatch
  obtain rfl := List.mem_singleton.1 hhead
  obtain ⟨q, hq, hend⟩ := (matchAt?_quotedString_iff hc).1 hmatch
  rw [hstop, hend, Nat.add_sub_cancel]
  exact hq.quote

/-- No string reaches up to a sign that stands directly before a token. -/
theorem not_string_of_minus (htoken : token ∈ stream Rule.standard source) (hcls : token.cls ≠ .stringLiteral)
    {m : Nat} (hm : token.start = m + 1) (hminus : source[m]? = some '-') :
    ∀ other ∈ stream Rule.standard source, other.cls = .stringLiteral → ¬(other.start ≤ m ∧ m < other.stop) := by
  intro other hother hstring hspan
  have hnonempty := (extent_of_mem_stream htoken).1
  by_cases hlong : m + 1 < other.stop
  · have hsame := eq_of_mem_stream hother htoken (p := m + 1) ⟨by omega, hlong⟩ ⟨by omega, by omega⟩
    exact hcls (hsame ▸ hstring)
  · have hlast := last_of_string hother hstring
    rw [show other.stop - 1 = m by omega, hminus] at hlast
    exact absurd (Option.some.inj hlast) (by decide)

/-- A number begins with a minus sign if and only if one stands between a word and its digits. -/
theorem sign_of_number (htoken : token ∈ stream Rule.standard source) (hnumber : token.Numeric) :
    ∃ d e, (token.start ≤ d ∧ d ≤ token.start + 1 ∧ e ≤ token.stop) ∧ DigitRun source d e ∧
      (token.value.head? = some '-' ↔ 0 < d ∧ SignAt source (d - 1)) := by
  obtain ⟨hnonempty, hvalue⟩ := extent_of_mem_stream htoken
  have hhead : token.value.head? = source[token.start]? := by
    rw [hvalue, head?_extract hnonempty]
  obtain ⟨d, e, hat⟩ := exists_numberAt htoken hnumber
  have hend := hat.whole_le
  have hwhole := hat.whole.nonempty
  rw [hhead]
  rcases hat.sign with rfl | ⟨rfl, hsign⟩
  · refine ⟨token.start, e, ⟨Nat.le_refl _, Nat.le_succ _, hend⟩, hat.whole, ?_⟩
    constructor
    · intro hminus
      have hsign := (hat.sign_of_minus hminus).1
      omega
    · rintro ⟨hpos, hminus, hbefore⟩
      have hstart : token.start = token.start - 1 + 1 := by omega
      have hrun := hat.whole
      rw [hstart] at hrun
      obtain ⟨other, hother, hspan, hiff, hbegin⟩ :=
        minus_classed hminus hrun (not_string_of_minus htoken hnumber.cls_ne.2 hstart hminus)
      obtain ⟨hfirst, hlast⟩ := hbegin (hiff.2 hbefore)
      have hsame := eq_of_mem_stream hother htoken (p := token.start) ⟨by omega, by omega⟩ ⟨by omega, hnonempty⟩
      rw [hsame] at hfirst
      omega
  · refine ⟨token.start + 1, e, ⟨by omega, Nat.le_refl _, hend⟩, hat.whole, ?_⟩
    rw [Nat.add_sub_cancel]
    exact ⟨fun _ => ⟨Nat.succ_pos _, hsign⟩, fun _ => hsign.1⟩

/-- Digits do not spell a truth value or a keyword. -/
theorem not_mem_of_digitRun (h : DigitRun source a b) :
    source.extract a b ∉ truthWords ∧ source.extract a b ∉ keywords := by
  have hwords : ∀ word ∈ truthWords ++ keywords, word.head?.any Char.isDigit = false := by decide
  have hhead : (source.extract a b).head?.any Char.isDigit = true := by
    rw [head?_extract h.nonempty]
    exact h.digits a (Nat.le_refl a) h.nonempty
  rw [← not_or, ← List.mem_append]
  intro hmem
  rw [hwords _ hmem] at hhead
  cases hhead

/-- A word outside strings and identifiers is a token by itself if it is a truth value or a keyword, lies in a number if
it consists of digits, and is left over as a whole otherwise. A minus sign before digits and outside strings is part of
the number if and only if a word ends before it, and no number has a minus sign for another reason. -/
theorem words_classed (source : Text) :
    (∀ a b, WordRun source a b → Plain (stream Rule.standard source) a b →
      (source.extract a b ∈ truthWords → ∃ token ∈ stream Rule.standard source,
        token.cls = .booleanLiteral ∧ token.start = a ∧ token.stop = b) ∧
      (source.extract a b ∈ keywords → ∃ token ∈ stream Rule.standard source,
        token.cls = .keyword ∧ token.start = a ∧ token.stop = b) ∧
      (DigitRun source a b → ∃ token ∈ stream Rule.standard source,
        token.Numeric ∧ token.start ≤ a ∧ b ≤ token.stop) ∧
      (source.extract a b ∉ truthWords → source.extract a b ∉ keywords → ¬DigitRun source a b →
        ∃ token ∈ stream Rule.standard source, token.cls = .unclassified ∧ token.start ≤ a ∧ b ≤ token.stop)) ∧
    (∀ m b, source[m]? = some '-' → DigitRun source (m + 1) b →
      (∀ token ∈ stream Rule.standard source, token.cls = .stringLiteral →
        ¬(token.start ≤ m ∧ m < token.stop)) →
      ∃ token ∈ stream Rule.standard source, (token.start ≤ m ∧ m < token.stop) ∧
        (token.Numeric ↔ 0 < m ∧ wordAt source (m - 1) = true) ∧
        (token.Numeric → token.start = m ∧ b ≤ token.stop)) ∧
    ∀ token ∈ stream Rule.standard source, token.Numeric →
      ∃ d e, (token.start ≤ d ∧ d ≤ token.start + 1 ∧ e ≤ token.stop) ∧ DigitRun source d e ∧
        (token.value.head? = some '-' ↔ 0 < d ∧ SignAt source (d - 1)) := by
  refine ⟨fun a b hrun hplain => ?_, fun m b => minus_classed, fun token => sign_of_number⟩
  have hdisjoint : ∀ word ∈ truthWords, word ∉ keywords := by decide
  obtain ⟨token, htoken, hholds⟩ := exists_holdsWord hrun hplain
  refine ⟨fun htruth => ?_, fun hkeyword => ?_, fun hdigits => ?_, fun htruth hkeyword hdigits => ?_⟩
  · cases hholds with
    | truth hcls hextent => exact ⟨token, htoken, hcls, hextent⟩
    | keyword _ _ hother => exact absurd hother (hdisjoint _ htruth)
    | number _ _ hother => exact absurd htruth (not_mem_of_digitRun hother).1
    | leftOver _ _ hother => exact absurd htruth hother
  · cases hholds with
    | truth _ _ hother => exact absurd hkeyword (hdisjoint _ hother)
    | keyword hcls hextent => exact ⟨token, htoken, hcls, hextent⟩
    | number _ _ hother => exact absurd hkeyword (not_mem_of_digitRun hother).2
    | leftOver _ _ _ hother => exact absurd hkeyword hother
  · obtain ⟨htruth, hkeyword⟩ := not_mem_of_digitRun hdigits
    cases hholds with
    | truth _ _ hother => exact absurd hother htruth
    | keyword _ _ hother => exact absurd hother hkeyword
    | number hcls hextent => exact ⟨token, htoken, hcls, hextent⟩
    | leftOver _ _ _ _ hother => exact absurd hdigits hother
  · cases hholds with
    | truth _ _ hother => exact absurd hother htruth
    | keyword _ _ hother => exact absurd hother hkeyword
    | number _ _ hother => exact absurd hother hdigits
    | leftOver hcls hextent => exact ⟨token, htoken, hcls, hextent⟩

/-- In `x-1 -2 T` the first sign is part of a number and the second is left over. The last word is a truth value. -/
theorem words_classed_signs :
    let source : Text := ['x', '-', '1', ' ', '-', '2', ' ', 'T']
    (∃ token ∈ stream Rule.standard source, token.cls = .booleanLiteral ∧ token.start = 7 ∧ token.stop = 8) ∧
    (∃ token ∈ stream Rule.standard source, token.Numeric ∧ token.start = 1) ∧
    ∃ token ∈ stream Rule.standard source, (token.start ≤ 4 ∧ 4 < token.stop) ∧ ¬token.Numeric := by
  intro source
  have hstring : ∀ token ∈ stream Rule.standard source, token.cls ≠ .stringLiteral := by
    intro token htoken hcls
    have hquote : '"' ∉ source := by decide
    exact hquote (List.mem_of_getElem? (last_of_string htoken hcls))
  have hname : ∀ token ∈ stream Rule.standard source, token.cls ≠ .identifier := by
    intro token htoken hcls
    obtain ⟨rule, hrule, hsame, n, hmatch, -⟩ := exists_rule Rule.standard_classed htoken (by rw [hcls]; decide)
    rw [(identifier_rule rule hrule).1 (hsame.trans hcls)] at hmatch
    obtain ⟨c, hc, hhead⟩ := Pattern.exists_head_of_matchAt? hmatch
    obtain rfl := List.mem_singleton.1 hhead
    have hdollar : '$' ∉ source := by decide
    exact hdollar (List.mem_of_getElem? hc)
  have hplain : Plain (stream Rule.standard source) 7 8 := by
    rintro token htoken (hcls | hcls)
    · exact absurd hcls (hstring token htoken)
    · exact absurd hcls (hname token htoken)
  have hword : WordRun source 7 8 := by
    refine ⟨by decide, fun k hk hlt => ?_, by decide, by decide⟩
    obtain rfl : k = 7 := by omega
    decide
  have hone : DigitRun source 2 (2 + 1) := Pattern.digitRun_iff.2 (by decide)
  have htwo : DigitRun source 5 (5 + 1) := Pattern.digitRun_iff.2 (by decide)
  obtain ⟨hwords, hminus, -⟩ := words_classed source
  refine ⟨(hwords 7 8 hword hplain).1 (by decide), ?_, ?_⟩
  · obtain ⟨token, htoken, -, hiff, hstart⟩ :=
      hminus 1 3 rfl hone fun token htoken hcls => absurd hcls (hstring token htoken)
    have hnumber := hiff.2 (by decide)
    exact ⟨token, htoken, hnumber, (hstart hnumber).1⟩
  · obtain ⟨token, htoken, hspan, hiff, -⟩ :=
      hminus 4 6 rfl htwo fun token htoken hcls => absurd hcls (hstring token htoken)
    exact ⟨token, htoken, hspan, fun hnumber => absurd (hiff.1 hnumber) (by decide)⟩

end Token

end GuidedTour
