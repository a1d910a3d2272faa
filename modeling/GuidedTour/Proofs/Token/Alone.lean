import GuidedTour.Proofs.Token.Surroundings
import GuidedTour.Proofs.Token.Word

/-!
# Tokens by themselves

What a token says is tokenized by itself to that one token again, except that a number leaves its minus sign behind,
since no word stands before the sign any more (`Token.stream_value`).

A match loses nothing when it is cut out: its pattern either does not look at its surroundings, or ends at the edges of
a word (`Pattern.edges_of_matchAt?`). What is left over gains no match when it is cut out. A word could only begin anew
where the word before it is cut off, but what is cut off there is an identifier, and behind it no ASCII letter or digit
follows (`Pattern.not_continuesName_behind`); and a word is cut off at the end only if a match begins inside it.
-/

set_option autoImplicit false

namespace GuidedTour

open Text (wordAt DigitRun)

namespace Pattern

variable {pattern : Pattern} {source : Text} {p n : Nat}

/-! ## Matches at the edges of words -/

/-- What goes on in a name is a word character. -/
theorem isWordChar_of_continuesName {c : Char} (h : continuesName c = true) : Text.isWordChar c = true := by
  rcases Bool.or_eq_true_iff.1 h with halphanum | hline
  · refine Text.isWordChar_of_isAlphanum halphanum ?_
    rcases Bool.or_eq_true_iff.1 halphanum with halpha | hdigit
    · rcases Bool.or_eq_true_iff.1 halpha with hupper | hlower
      · have hlast : c.val ≤ 'Z'.val := (of_decide_eq_true hupper).2
        exact Nat.lt_of_le_of_lt hlast (by decide)
      · have hlast : c.val ≤ 'z'.val := of_decide_eq_true (Bool.and_eq_true_iff.1 hlower).2
        exact Nat.lt_of_le_of_lt hlast (by decide)
    · exact Nat.lt_of_le_of_lt (Char.isDigit_iff_toNat.1 hdigit).2 (by decide)
  · rw [beq_iff_eq.1 hline]
    decide

/-- Edges matter to the patterns whose matches begin with a letter, a digit or a minus sign, and to no others. -/
theorem edged_iff (pattern : Pattern) : ∀ c ∈ pattern.heads,
    (pattern.regular.edged = true ↔ c = '-' ∨ continuesName c = true) := by
  have hall : pattern.heads.all (fun c => pattern.regular.edged == (c == '-' || continuesName c)) = true := by
    cases pattern <;> decide
  intro c hc
  rw [beq_iff_eq.1 (List.all_eq_true.1 hall c hc)]
  simp

/-- The patterns whose matches begin with a word character look at the edges of words, and so at the one before it. -/
theorem edged_of_isWordChar (pattern : Pattern) : ∀ c ∈ pattern.heads, Text.isWordChar c = true →
    pattern.regular.edged = true ∧ c ≠ '-' := by
  have hall : pattern.heads.all (fun c => !Text.isWordChar c || pattern.regular.edged && c != '-') = true := by
    cases pattern <;> decide
  intro c hc hword
  have hedged := List.all_eq_true.1 hall c hc
  rw [hword] at hedged
  simpa using hedged

/-- Only numbers begin as numbers do. -/
theorem number_of_head (pattern : Pattern) : ∀ c ∈ pattern.heads, c ∈ "-0123456789".toList →
    pattern = .integer ∨ pattern = .decimal := by
  have hany : pattern.heads.any "-0123456789".toList.contains = true → pattern = .integer ∨ pattern = .decimal := by
    cases pattern <;> decide
  intro c hc hnumber
  exact hany (List.any_eq_true.2 ⟨c, hc, List.contains_iff_mem.2 hnumber⟩)

/-- A match that looks at the edges of words ends at one, and begins at one unless it begins with a sign. -/
theorem edges_of_matchAt? (hedged : pattern.regular.edged = true) (h : pattern.matchAt? source p = some n) :
    (source[p]? ≠ some '-' → wordBefore (source.take p).getLast? = false) ∧
      wordAhead (source.drop (p + n)) = false := by
  have hle := (matchAt?_pos h).2
  rw [wordAhead_eq, Text.wordAt_drop, Nat.add_zero, wordBefore_eq_false (by omega)]
  rcases pattern.kinds with rfl | rfl | hnumber | hsymbol | hwords
  · cases hedged
  · cases hedged
  · obtain ⟨d, m, hat⟩ := exists_numberAt hnumber h
    constructor
    · intro hminus
      rcases hat.sign with rfl | ⟨-, hsign, -⟩
      · exact hat.whole.before
      · exact absurd hsign hminus
    · rcases hat.rest with hend | ⟨-, hfraction⟩
      · exact hend ▸ hat.whole.behind
      · exact hfraction.behind
  · have hplain : ∀ symbol ∈ symbols, symbol.regular.edged = false := by decide
    rw [hplain pattern hsymbol] at hedged
    cases hedged
  · have hrun := ((matchAt?_word_iff hwords).1 h).1
    exact ⟨fun _ => hrun.before, hrun.behind⟩

/-- A name goes on as long as it can. -/
theorem not_continuesName_of_identifier (h : identifier.matchAt? source p = some n) {c : Char}
    (hc : source[p + n]? = some c) : continuesName c = false := by
  rw [matchAt?_eq] at h
  rw [← List.getElem?_drop] at hc
  dsimp only [length?] at h
  split at h
  · rename_i first rest heq
    rw [Option.ite_none_right_eq_some] at h
    obtain ⟨-, hn⟩ := h
    obtain rfl := Option.some.inj hn
    have hdrop : rest.drop (rest.takeWhile continuesName).length = rest.dropWhile continuesName := by
      calc rest.drop (rest.takeWhile continuesName).length
          = (rest.takeWhile continuesName ++ rest.dropWhile continuesName).drop
              (rest.takeWhile continuesName).length := by rw [List.takeWhile_append_dropWhile]
        _ = rest.dropWhile continuesName := List.drop_left
    have hbehind : ('$' :: first :: rest)[2 + (rest.takeWhile continuesName).length]? =
        (rest.dropWhile continuesName).head? := by
      rw [Nat.add_comm, List.getElem?_cons_succ, List.getElem?_cons_succ, ← List.head?_drop, hdrop]
    rw [heq, hbehind] at hc
    have hstop := List.head?_dropWhile_not continuesName rest
    rw [hc] at hstop
    simpa using hstop
  · cases h

/-- Behind a match that ends with a letter or a digit there is none of the characters that a name can go on with. -/
theorem not_continuesName_behind (h : pattern.matchAt? source p = some n)
    (hword : wordAt source (p + n - 1) = true) {c : Char} (hc : source[p + n]? = some c) :
    continuesName c = false := by
  obtain ⟨hpos, hle⟩ := matchAt?_pos h
  have hedge (hedged : pattern.regular.edged = true) : continuesName c = false := by
    have hbehind := (edges_of_matchAt? hedged h).2
    rw [wordAhead_eq, Text.wordAt_drop, Nat.add_zero, wordAt, hc, Option.any_some] at hbehind
    rw [← Bool.not_eq_true] at hbehind ⊢
    exact mt isWordChar_of_continuesName hbehind
  rcases pattern.kinds with rfl | rfl | hnumber | hsymbol | hwords
  · obtain ⟨d, hd, hhead⟩ := exists_head_of_matchAt? h
    obtain rfl := List.mem_singleton.1 hhead
    obtain ⟨q, hq, hend⟩ := (Token.matchAt?_quotedString_iff hd).1 h
    rw [show p + n - 1 = q by omega, wordAt, hq.quote] at hword
    exact absurd hword (by decide)
  · exact not_continuesName_of_identifier h hc
  · exact hedge (by rcases hnumber with rfl | rfl <;> rfl)
  · obtain ⟨d, hmem, hd⟩ := exists_mem_take h (k := p + n - 1) (by omega)
    have hapart : (['(', ')', '{', '}', '|', '*', ':'].any Text.isWordChar) = false := by decide
    rw [matchAt?_eq] at h
    rw [wordAt, hd, Option.any_some] at hword
    exact absurd hword (List.any_eq_false.1 hapart d (mem_symbol hsymbol h d hmem))
  · have hedged : ∀ pattern : Pattern, pattern.words ≠ [] → pattern.regular.edged = true := by
      intro pattern
      cases pattern <;> decide
    exact hedge (hedged pattern hwords)

/-! ## Signs -/

/-- No match begins with a minus sign that no word stands before. -/
theorem length?_minus {before : Option Char} (hbefore : wordBefore before = false) (rest : Text) :
    pattern.length? before ('-' :: rest) = none := by
  have hsign : sign? before ('-' :: rest) = none := by
    rw [sign?, List.head?_cons, if_pos rfl, hbefore]
    rfl
  cases hlength : pattern.length? before ('-' :: rest) with
  | none => rfl
  | some n =>
    rcases number_of_head pattern '-' (head_mem hlength) (by decide) with rfl | rfl
    · simp [length?, number?, hsign] at hlength
    · simp [length?, number?, hsign] at hlength

/-- A number with a sign is a number again behind the sign. -/
theorem number?_past_sign {digits? : Text → Option Nat}
    (hdigits : ∀ text k, digits? text = some k → ∃ c, text.head? = some c ∧ c.isDigit = true) {before : Option Char}
    (hbefore : wordBefore before = true) (rest : Text) :
    number? digits? before ('-' :: rest) = (number? digits? (some '-') rest).map (1 + ·) := by
  have hsign : sign? before ('-' :: rest) = some 1 := by
    rw [sign?, List.head?_cons, if_pos rfl, if_pos hbefore]
  have hedge : wordBefore (some '-') = false := rfl
  have hwith : number? digits? before ('-' :: rest) = (digits? rest).map (1 + ·) := by
    rw [number?, hsign]
    rfl
  rw [hwith, number?, sign?, hedge]
  by_cases hminus : rest.head? = some '-'
  · have hnone : digits? rest = none := by
      cases hdigits' : digits? rest with
      | none => rfl
      | some k =>
        obtain ⟨c, hc, hdigit⟩ := hdigits rest k hdigits'
        rw [hminus] at hc
        rw [← Option.some.inj hc] at hdigit
        exact absurd hdigit (by decide)
    rw [if_pos hminus, hnone]
    rfl
  · rw [if_neg hminus]
    simp

/-- A signed number is matched as the number behind the sign, with the sign. -/
theorem matchAt?_past_sign (hpattern : pattern = .integer ∨ pattern = .decimal) (hsign : SignAt source p) :
    pattern.matchAt? source p = (pattern.matchAt? source (p + 1)).map (1 + ·) := by
  obtain ⟨hminus, hword⟩ := hsign
  obtain ⟨hlt, hget⟩ := List.getElem?_eq_some_iff.1 hminus
  have hdrop : source.drop p = '-' :: source.drop (p + 1) := by rw [List.drop_eq_getElem_cons hlt, hget]
  have hlast : (source.take (p + 1)).getLast? = some '-' := by simp [List.getLast?_take, hminus]
  have hbefore : wordBefore (source.take p).getLast? = true := (wordBefore_take (Nat.le_of_lt hlt)).2 hword
  rw [matchAt?_eq, matchAt?_eq, hdrop, hlast]
  rcases hpattern with rfl | rfl
  · exact number?_past_sign (fun _ _ => exists_digit_of_wholeDigits?) hbefore _
  · exact number?_past_sign (fun _ _ => exists_digit_of_pointedDigits?) hbefore _

/-! ## Matches by themselves -/

/-- The text from an offset on is a stretch and the text behind it. -/
theorem drop_eq_extract_append (source : Text) (p n : Nat) :
    source.drop p = source.extract p (p + n) ++ source.drop (p + n) := by
  rw [Token.extract_add, ← List.drop_drop, List.take_append_drop]

/-- A stretch inside a text is as long as it says. -/
theorem length_extract (h : p + n ≤ source.length) : (source.extract p (p + n)).length = n := by
  rw [Token.extract_add, List.length_take, List.length_drop]
  omega

section Alone

variable {last : Option Char} (hlast : wordBefore last = false) (h : pattern.matchAt? source p = some n)
  (hsign : source[p]? ≠ some '-')
include hlast h hsign

/-- The edges of a match are edges still when nothing of a word stands around it. -/
theorem edges_alone (hedged : pattern.regular.edged = true) :
    wordBefore (source.take p).getLast? = wordBefore last ∧ wordAhead (source.drop (p + n)) = false := by
  obtain ⟨hbefore, hahead⟩ := edges_of_matchAt? hedged h
  exact ⟨(hbefore hsign).trans hlast.symm, hahead⟩

/-- A match is found again in its own text. -/
theorem length?_alone : pattern.length? last (source.extract p (p + n)) = some n := by
  have hlength := length_extract (matchAt?_pos h).2
  have hedges := edges_alone hlast h hsign
  rw [matchAt?, drop_eq_extract_append source p n] at h
  rw [length?_eq]
  exact Expression.length?_alone hedges (Nat.le_of_eq hlength.symm) h

/-- What does not match where a match is found does not match in the text of that match either. -/
theorem length?_alone_eq_none {other : Pattern} (hnone : other.matchAt? source p = none) :
    other.length? last (source.extract p (p + n)) = none := by
  have hpos := (matchAt?_pos h).1
  obtain ⟨c, hc, hhead⟩ := exists_head_of_matchAt? h
  have hbegins : (source.extract p (p + n)).head? = some c := by
    rw [Token.head?_extract (by omega), hc]
  obtain ⟨rest, hword⟩ := List.head?_eq_some_iff.1 hbegins
  cases hlength : other.length? last (source.extract p (p + n)) with
  | none => rfl
  | some k =>
    -- Both begin with the same character, so edges matter to both or to neither.
    rw [hword] at hlength
    have hshared := (edged_iff other c (head_mem hlength)).trans (edged_iff pattern c hhead).symm
    rw [← hword, length?_eq] at hlength
    rw [matchAt?, drop_eq_extract_append source p n] at hnone
    rw [Expression.length?_alone_eq_none (fun hedged => ?_) hnone] at hlength
    · cases hlength
    · obtain ⟨hbefore, hahead⟩ := edges_alone hlast h hsign (hshared.1 hedged)
      exact Expression.agree_alone hbefore hahead

end Alone

end Pattern

namespace Rule

open Pattern (wordBefore)

variable {rules : List (Rule Pattern)} {source : Text} {p n : Nat} {cls : TokenClass}

/-- No rule matches at a minus sign that follows no word. -/
theorem first?_minus {last : Option Char} (hlast : wordBefore last = false) (rest : Text) :
    first? rules last ('-' :: rest) = none :=
  first?_eq_none_iff.2 fun _ _ => Pattern.length?_minus hlast rest

/-- The first match at a minus sign is a number, and behind the sign its digits are the first match. -/
theorem isFirstAt_past_sign (h : IsFirstAt rules source p cls n) (hminus : source[p]? = some '-') :
    ∃ m, n = 1 + m ∧ IsFirstAt rules source (p + 1) cls m ∧ source[p + 1]? ≠ some '-' := by
  obtain ⟨earlier, rule, later, hrules, hearlier, hmatch, hcls⟩ := h
  obtain ⟨c, hc, hhead⟩ := Pattern.exists_head_of_matchAt? hmatch
  obtain rfl : '-' = c := Option.some.inj (hminus.symm.trans hc)
  have hnumber := Pattern.number_of_head _ _ hhead (by decide)
  obtain ⟨d, q, hat⟩ := Pattern.exists_numberAt hnumber hmatch
  obtain ⟨rfl, hsign⟩ := hat.sign_of_minus hminus
  have hdigit := hat.whole.digits (p + 1) (Nat.le_refl _) hat.whole.nonempty
  rw [Pattern.matchAt?_past_sign hnumber hsign] at hmatch
  obtain ⟨m, hm, rfl⟩ := Option.map_eq_some_iff.1 hmatch
  refine ⟨m, rfl, ⟨earlier, rule, later, hrules, fun other hother => ?_, hm, hcls⟩,
    Pattern.ne_minus_of_digitAt hdigit⟩
  have hnone := hearlier other hother
  cases hlength : other.pattern.matchAt? source (p + 1) with
  | none => rfl
  | some k =>
    -- Another match behind the sign begins as a number does, so with the sign it is one that comes before the rule's.
    obtain ⟨d, hd, hdigit⟩ := Pattern.exists_head_of_matchAt? hm
    obtain ⟨d', hd', hother⟩ := Pattern.exists_head_of_matchAt? hlength
    obtain rfl : d = d' := Option.some.inj (hd.symm.trans hd')
    have hheads : d ∈ "-0123456789".toList := by
      rcases hnumber with hpattern | hpattern <;> rwa [hpattern] at hdigit
    rw [Pattern.matchAt?_past_sign (Pattern.number_of_head _ _ hother hheads) hsign, hlength] at hnone
    cases hnone

/-- The first match at an offset is the first match in its own text, unless it begins with a sign. -/
theorem first?_alone {last : Option Char} (hlast : wordBefore last = false) (h : IsFirstAt rules source p cls n)
    (hsign : source[p]? ≠ some '-') : first? rules last (source.extract p (p + n)) = some (cls, n) := by
  obtain ⟨earlier, rule, later, rfl, hearlier, hmatch, rfl⟩ := h
  have hnone : first? earlier last (source.extract p (p + n)) = none :=
    first?_eq_none_iff.2 fun other hother =>
      Pattern.length?_alone_eq_none hlast hmatch hsign (hearlier other hother)
  exact first?_of_earlier later hnone (Pattern.length?_alone hlast hmatch hsign)

end Rule

/-! ## What is left over by itself -/

namespace Token

open Pattern (wordBefore wordAhead)

variable {rules : List (Rule Pattern)} {source : Text} {token : Token}

/-- A character of a stretch is of a word as it is in the text. -/
theorem wordAt_extract {a b k : Nat} (hk : a + k < b) : wordAt (source.extract a b) k = wordAt source (a + k) := by
  rw [wordAt, List.extract_eq_take_drop, List.getElem?_take_of_lt (by omega), List.getElem?_drop, wordAt]

/-- A token of a text ends as far behind its start as it is long. -/
theorem span_value (htoken : token ∈ stream rules source) :
    token.stop = token.start + token.value.length ∧ token.stop ≤ source.length := by
  obtain ⟨hnonempty, hvalue⟩ := extent_of_mem_stream htoken
  have hle := ((tilesFrom_stream rules source).bounds.2 token htoken).2.2
  refine ⟨?_, hle⟩
  rw [hvalue, List.extract_eq_take_drop, List.length_take, List.length_drop]
  omega

/-- A character of a token is of a word as it is in the text. -/
theorem wordAt_value (htoken : token ∈ stream rules source) {k : Nat} (hk : k < token.value.length) :
    wordAt token.value k = wordAt source (token.start + k) := by
  have hstop := (span_value htoken).1
  rw [(extent_of_mem_stream htoken).2, wordAt_extract (by omega)]

section LeftOver

variable (hrules : ∀ rule ∈ rules, rule.cls ≠ .unclassified) (htoken : token ∈ stream rules source)
  (hcls : token.cls = .unclassified)
include hrules htoken hcls

/-- What is left over does not end inside a word, since what follows it is a match. -/
theorem not_wordAt_stop (hword : wordAt source (token.stop - 1) = true) : wordAt source token.stop = false := by
  have hnonempty := (extent_of_mem_stream htoken).1
  by_cases hlt : token.stop < source.length
  · obtain ⟨next, hnext, hclassed, hstart⟩ := exists_match_behind hrules htoken hcls hlt
    obtain ⟨rule, hrule, -, n, hmatch, -⟩ := exists_rule hrules hnext hclassed
    rw [hstart] at hmatch
    obtain ⟨c, hc, hhead⟩ := Pattern.exists_head_of_matchAt? hmatch
    by_contra hahead
    rw [Bool.not_eq_false, wordAt, hc, Option.any_some] at hahead
    obtain ⟨hedged, hminus⟩ := Pattern.edged_of_isWordChar rule.pattern c hhead hahead
    have hsign : source[token.stop]? ≠ some '-' := by
      rw [hc]
      exact fun h => hminus (Option.some.inj h)
    have hbefore := (Pattern.edges_of_matchAt? hedged hmatch).1 hsign
    rw [Pattern.wordBefore_eq_false (Nat.le_of_lt hlt)] at hbefore
    rw [hbefore (by omega)] at hword
    cases hword
  · rw [wordAt, List.getElem?_eq_none (by omega)]
    rfl

/-- Where what is left over begins inside a word, it does not begin as a name can go on. -/
theorem not_continuesName_start (hword : wordBefore (source.take token.start).getLast? = true) {c : Char}
    (hc : source[token.start]? = some c) : Pattern.continuesName c = false := by
  have hlt := (List.getElem?_eq_some_iff.1 hc).1
  obtain ⟨hpos, hword⟩ := (Pattern.wordBefore_take (Nat.le_of_lt hlt)).1 hword
  obtain ⟨prev, hprev, hclassed, hstop⟩ := exists_match_before hrules htoken hcls hpos
  obtain ⟨rule, -, -, n, hmatch, hend⟩ := exists_rule hrules hprev hclassed
  rw [← hstop, hend] at hword hc
  exact Pattern.not_continuesName_behind hmatch hword hc

/-- Where a match that looks at the edges of words begins in what is left over by itself, there is a word before it in
the whole text only if there is one by itself. -/
theorem wordBefore_value {pattern : Pattern} {k n : Nat} (hmatch : pattern.matchAt? token.value k = some n)
    (hedged : pattern.regular.edged = true) :
    wordBefore (token.value.take k).getLast? = wordBefore (source.take (token.start + k)).getLast? := by
  obtain ⟨hpos, hle⟩ := Pattern.matchAt?_pos hmatch
  have hspan := span_value htoken
  rw [Bool.eq_iff_iff, Pattern.wordBefore_take (by omega), Pattern.wordBefore_take (by omega)]
  cases k with
  | succ k =>
    rw [Nat.add_sub_cancel, wordAt_value htoken (by omega)]
    exact and_congr_left' (by omega)
  | zero =>
    refine ⟨fun h => absurd h.1 (Nat.lt_irrefl 0), fun hword => ?_⟩
    obtain ⟨c, hc, hhead⟩ := Pattern.exists_head_of_matchAt? hmatch
    have hsource : source[token.start]? = some c := by
      rw [← head?_extract (extent_of_mem_stream htoken).1, ← (extent_of_mem_stream htoken).2,
        List.head?_eq_getElem?, hc]
    have hbefore := (Pattern.wordBefore_take (p := token.start) (by omega)).2 hword
    rcases (Pattern.edged_iff pattern c hhead).1 hedged with rfl | hname
    · obtain ⟨rest, hrest⟩ := List.head?_eq_some_iff.1 ((List.head?_eq_getElem? ..).trans hc)
      rw [Pattern.matchAt?_eq, hrest, List.drop_zero, List.take_zero, Pattern.length?_minus rfl] at hmatch
      cases hmatch
    · rw [not_continuesName_start hrules htoken hcls hbefore hsource] at hname
      cases hname

/-- No rule matches in what is left over by itself. -/
theorem noneAt_alone {k : Nat} (hk : k < token.value.length) : Rule.NoneAt rules token.value k := by
  obtain ⟨hstop, hle⟩ := span_value htoken
  have hcut : source.drop (token.start + k) = token.value.drop k ++ source.drop token.stop := by
    have hwhole := Pattern.drop_eq_extract_append source token.start token.value.length
    rw [← hstop, ← (extent_of_mem_stream htoken).2] at hwhole
    rw [← List.drop_drop, hwhole, List.drop_append_of_le_length (Nat.le_of_lt hk)]
  have hend (last : Option Char) : wordBefore (Expression.before last (token.value.drop k)
      (token.value.drop k).length) = wordAt source (token.stop - 1) := by
    rw [Expression.before_length (by simpa using hk), List.getLast?_drop, if_neg (by omega),
      List.getLast?_eq_getElem?]
    exact (wordAt_value htoken (by omega)).trans (congrArg _ (by omega))
  intro rule hrule
  have hnone := noneAt_of_mem_stream hrules htoken hcls (p := token.start + k) (by omega) rule hrule
  rw [Pattern.matchAt?, hcut] at hnone
  cases hmatch : rule.pattern.matchAt? token.value k with
  | none => rfl
  | some n =>
    rw [Pattern.matchAt?, Expression.length?_alone_eq_none (fun hedged => ⟨?_, fun hedge => ?_⟩) hnone] at hmatch
    · cases hmatch
    · exact wordBefore_value hrules htoken hcls hmatch hedged
    · rw [hend] at hedge ⊢
      have hword : wordAt source (token.stop - 1) = true := Bool.ne_false_iff.1 hedge
      rw [hword, Pattern.wordAhead_eq, Text.wordAt_drop, Nat.add_zero, not_wordAt_stop hrules htoken hcls hword]
      exact Bool.noConfusion

/-- What is left over is left over by itself, as a whole. -/
theorem ofText_leftOver : Piece.ofText rules none token.value = [.gap token.value] := by
  obtain ⟨hstop, -⟩ := span_value htoken
  have hnonempty := (extent_of_mem_stream htoken).1
  obtain ⟨n, hn⟩ : ∃ n, token.value.length = 0 + (n + 1) := ⟨token.value.length - 1, by omega⟩
  have hend := Piece.fromOffset_end rules token.value
  have hnone (q : Nat) (_ : 0 ≤ q) (hq : q < 0 + (n + 1)) : Rule.firstAt? rules token.value q = none :=
    Rule.firstAt?_eq_none_iff.2 (noneAt_alone hrules htoken hcls (by omega))
  have hgap := Piece.fromOffset_gap (Nat.le_of_eq hn.symm) hnone (by simp [← hn, hend])
  rw [← hn, hend, List.extract_eq_take_drop, Nat.sub_zero, List.drop_zero, List.take_length] at hgap
  exact hgap

end LeftOver

end Token

/-! ## Matches by themselves are tokens -/

namespace Piece

variable {rules : List (Rule Pattern)} {source : Text} {p n : Nat} {cls : TokenClass}

/-- A match is found by itself, unless it begins with a sign. -/
theorem ofText_match {last : Option Char} (hlast : Pattern.wordBefore last = false)
    (h : Rule.IsFirstAt rules source p cls n) (hsign : source[p]? ≠ some '-') :
    ofText rules last (source.extract p (p + n)) = [matched cls (source.extract p (p + n))] := by
  refine ofText_whole ?_
  rw [Pattern.length_extract (Token.lt_of_isFirstAt h).2, Rule.first?_alone hlast h hsign]

/-- A number with a sign leaves the sign over and is found behind it. -/
theorem ofText_signed (h : Rule.IsFirstAt rules source p cls n) (hminus : source[p]? = some '-') :
    ∃ digits, source.extract p (p + n) = '-' :: digits ∧
      ofText rules none (source.extract p (p + n)) = [gap ['-'], matched cls digits] := by
  obtain ⟨m, rfl, hdigits, hplain⟩ := Rule.isFirstAt_past_sign h hminus
  have hword : source.extract p (p + (1 + m)) = '-' :: source.extract (p + 1) (p + 1 + m) := by
    obtain ⟨hlt, hget⟩ := List.getElem?_eq_some_iff.1 hminus
    rw [Token.extract_add, Token.extract_add, List.drop_eq_getElem_cons hlt, hget, Nat.add_comm 1, List.take_succ_cons]
  refine ⟨_, hword, ?_⟩
  rw [hword, ofText_of_none (Rule.first?_minus rfl _), ofText_match rfl hdigits hplain]
  rfl

end Piece

/-! ## Tokens by themselves -/

namespace Token

variable {rules : List (Rule Pattern)} {source : Text} {token : Token}

/-- A number that begins with a minus sign. -/
def Signed (token : Token) : Prop := token.Numeric ∧ token.value.head? = some '-'

/-- Of the classed tokens only numbers begin with a minus sign. -/
theorem numeric_of_minus (hrules : ∀ rule ∈ rules, rule ∈ Rule.standard) (htoken : token ∈ stream rules source)
    (hcls : token.cls ≠ .unclassified) (hminus : source[token.start]? = some '-') : token.Numeric := by
  have hclassed : ∀ rule ∈ rules, rule.cls ≠ .unclassified := fun rule hrule =>
    Rule.standard_classed rule (hrules rule hrule)
  obtain ⟨rule, hrule, hsame, n, hmatch, -⟩ := exists_rule hclassed htoken hcls
  obtain ⟨c, hc, hhead⟩ := Pattern.exists_head_of_matchAt? hmatch
  obtain rfl : '-' = c := Option.some.inj (hminus.symm.trans hc)
  rw [Numeric, ← hsame, number_rule rule (hrules rule hrule)]
  exact Pattern.number_of_head _ _ hhead (by decide)

/-- What a token says is that one token by itself, in the newer order of the rules as in the older one. Only a number
that begins with a minus sign leaves the sign over, and is one token behind it. -/
theorem stream_value (source : Text) : ∀ rules ∈ [Rule.standard, Rule.legacy], ∀ token ∈ stream rules source,
    (¬token.Signed → stream rules token.value = [located Position.start token.cls token.value]) ∧
      (token.Signed → ∃ digits, token.value = '-' :: digits ∧ stream rules token.value =
        [located Position.start .unclassified ['-'], located ⟨1, 1, 2⟩ token.cls digits]) := by
  intro rules hrules token htoken
  have hstandard : ∀ rules ∈ [Rule.standard, Rule.legacy], ∀ rule ∈ rules, rule ∈ Rule.standard := by decide
  have hclassed : ∀ rule ∈ rules, rule.cls ≠ .unclassified := fun rule hrule =>
    Rule.standard_classed rule (hstandard rules hrules rule hrule)
  obtain ⟨hnonempty, hvalue⟩ := extent_of_mem_stream htoken
  have hhead : token.value.head? = source[token.start]? := by rw [hvalue, head?_extract hnonempty]
  rw [Signed, hhead]
  by_cases hcls : token.cls = .unclassified
  · refine ⟨fun _ => ?_, fun hsigned => absurd hcls hsigned.1.cls_ne.1⟩
    rw [stream_eq, ofText_leftOver hclassed htoken hcls, hcls]
    rfl
  · obtain ⟨n, hfirst, hstop⟩ := (firstMatch_stream hclassed source).1.matched token htoken hcls
    rw [hstop] at hvalue
    by_cases hminus : source[token.start]? = some '-'
    · have hnumber := numeric_of_minus (hstandard rules hrules) htoken hcls hminus
      obtain ⟨digits, hdigits, hpieces⟩ := Piece.ofText_signed hfirst hminus
      refine ⟨fun hplain => absurd ⟨hnumber, hminus⟩ hplain, fun _ => ⟨digits, hvalue.trans hdigits, ?_⟩⟩
      rw [stream_eq, hvalue, hpieces]
      rfl
    · refine ⟨fun _ => ?_, fun hsigned => absurd hsigned.2 hminus⟩
      rw [stream_eq, hvalue, Piece.ofText_match rfl hfirst hminus]
      rfl

/-- The number of `x-1` is the sign and `1` by itself, since no word stands before the sign any more. -/
theorem stream_value_signed :
    let token : Token := ⟨.integerLiteral, ['-', '1'], 1, 3, 1, 2⟩
    token ∈ stream Rule.standard ['x', '-', '1'] ∧ token.Signed ∧
      stream Rule.standard token.value =
        [⟨.unclassified, ['-'], 0, 1, 1, 1⟩, ⟨.integerLiteral, ['1'], 1, 2, 1, 2⟩] := by
  intro token
  have hletter : Rule.first? Rule.standard none ['x', '-', '1'] = none := by decide
  have hnumber : Rule.first? Rule.standard (some 'x') token.value = some (token.cls, token.value.length) := by decide
  have htoken : token ∈ stream Rule.standard ['x', '-', '1'] := by
    rw [stream_eq, Piece.ofText_of_none hletter, Piece.ofText_whole hnumber]
    exact List.mem_cons_of_mem _ List.mem_cons_self
  have hsigned : token.Signed := ⟨.inl rfl, rfl⟩
  refine ⟨htoken, hsigned, ?_⟩
  obtain ⟨digits, hvalue, hstream⟩ := (stream_value _ Rule.standard List.mem_cons_self token htoken).2 hsigned
  obtain rfl : ['1'] = digits := List.tail_eq_of_cons_eq hvalue
  exact hstream

end Token

end GuidedTour
