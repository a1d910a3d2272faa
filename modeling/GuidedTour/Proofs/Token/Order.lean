import GuidedTour.Proofs.Token.Scan

/-!
# Other orders of the rules

Which of two rules comes first matters only where both match, and two rules can both match only if they are a pair of
a longer and a shorter one: the spread pipe and the pipe, or numbers with a point and numbers without one
(`Rule.overlapping_of_length?`). So every order of the rules that puts the longer rule of each pair first
(`Rule.LongerFirst`) makes the same tokens, and each of them is as long as the longest match at its start
(`Token.stream_of_longerFirst`).

At a place where a rule matches, one rule beats all others that match (`Rule.Beats`). It does not depend on the order
which one that is, and in an order of this kind it is the first.
-/

set_option autoImplicit false

namespace GuidedTour

namespace Rule

/-! ## Rules that match together -/

/-- The pairs of rules that can match at one place, the one with the longer match first. -/
def overlapping : List (Rule Pattern × Rule Pattern) :=
  [(⟨.pipeStar, .pipeStar⟩, ⟨.pipe, .pipe⟩), (⟨.decimal, .floatLiteral⟩, ⟨.integer, .integerLiteral⟩)]

/-- The rules in use, in an order that puts the longer rule of each pair first. -/
structure LongerFirst (rules : List (Rule Pattern)) : Prop where
  perm : rules.Perm standard
  longer : ∀ pair ∈ overlapping, [pair.1, pair.2].Sublist rules

/-- The order in use puts the longer rule of each pair first. -/
theorem longerFirst_standard : LongerFirst standard := ⟨.refl _, by decide⟩

/-- No order of the rules in use names what is left over. -/
theorem LongerFirst.classed {rules : List (Rule Pattern)} (h : LongerFirst rules) :
    ∀ rule ∈ rules, rule.cls ≠ .unclassified :=
  fun rule hrule => standard_classed rule (h.perm.mem_iff.1 hrule)

/-- No order of the rules in use has a rule twice. -/
theorem LongerFirst.nodup {rules : List (Rule Pattern)} (h : LongerFirst rules) : rules.Nodup :=
  h.perm.nodup_iff.2 (by decide)

section Place

variable {a b rule other : Rule Pattern} {before : Option Char} {text : Text} {n m : Nat}

/-- Two rules that match at one place can begin with the same character, so they are a pair. -/
theorem overlapping_of_length? (ha : a ∈ standard) (hb : b ∈ standard) (hne : a ≠ b)
    (hn : a.pattern.length? before text = some n) (hm : b.pattern.length? before text = some m) :
    (a, b) ∈ overlapping ∨ (b, a) ∈ overlapping := by
  have hheads : ∀ a ∈ standard, ∀ b ∈ standard, a ≠ b →
      a.pattern.heads.any b.pattern.heads.contains = true → (a, b) ∈ overlapping ∨ (b, a) ∈ overlapping := by
    decide
  cases text with
  | nil =>
    have hpos := Pattern.length?_pos hn
    have hle : n ≤ 0 := Pattern.length?_le hn
    omega
  | cons c rest =>
    refine hheads a ha b hb hne (List.any_eq_true.2 ⟨c, Pattern.head_mem hn, ?_⟩)
    exact List.contains_iff_mem.2 (Pattern.head_mem hm)

/-- The first rule of a pair matches more than the second one. -/
theorem lt_of_overlapping (h : (a, b) ∈ overlapping) (hn : a.pattern.length? before text = some n)
    (hm : b.pattern.length? before text = some m) : m < n := by
  simp only [overlapping, List.mem_cons, Prod.mk.injEq, List.not_mem_nil, or_false] at h
  rcases h with ⟨rfl, rfl⟩ | ⟨rfl, rfl⟩
  · obtain ⟨rfl, rest, rfl⟩ := Pattern.pipeStar_eq_some hn
    have hone : Pattern.pipe.length? before ('|' :: '*' :: rest) = some 1 := rfl
    rw [hone] at hm
    exact Option.some.inj hm ▸ Nat.one_lt_two
  · obtain ⟨whole, fraction, rest, rfl, rfl, -, hwhole, -⟩ := Pattern.decimal_eq_some hn
    rw [hwhole] at hm
    rw [← Option.some.inj hm, List.length_append, List.length_cons]
    omega

/-- A rule beats the others at a place: it matches there, and every other rule that does is the shorter of a pair. -/
structure Beats (rule : Rule Pattern) (before : Option Char) (text : Text) (n : Nat) : Prop where
  mem : rule ∈ standard
  matched : rule.pattern.length? before text = some n
  longer : ∀ other ∈ standard, other ≠ rule → ∀ m, other.pattern.length? before text = some m →
    (rule, other) ∈ overlapping

/-- What beats the others is as long as any. -/
theorem Beats.length_le (h : Beats rule before text n) (hother : other ∈ standard)
    (hm : other.pattern.length? before text = some m) : m ≤ n := by
  by_cases hsame : other = rule
  · rw [hsame, h.matched] at hm
    exact Nat.le_of_eq (Option.some.inj hm).symm
  · exact Nat.le_of_lt (lt_of_overlapping (h.longer other hother hsame m hm) h.matched hm)

/-- Where a rule matches, one of the rules beats the others. -/
theorem exists_beats (hrule : rule ∈ standard) (hn : rule.pattern.length? before text = some n) :
    ∃ best k, Beats best before text k := by
  have hends : ∀ pair ∈ overlapping, pair.1 ∈ standard ∧ ∀ next ∈ overlapping, next.2 ≠ pair.1 := by decide
  -- It is the rule itself, or else the longer rule of its pair, which is the shorter one of no other.
  by_cases hbest : ∃ best k, (best, rule) ∈ overlapping ∧ best.pattern.length? before text = some k
  · obtain ⟨best, k, hpair, hk⟩ := hbest
    obtain ⟨hmem, hlast⟩ := hends _ hpair
    refine ⟨best, k, hmem, hk, fun other hother hne m hm => ?_⟩
    rcases overlapping_of_length? hmem hother hne.symm hk hm with h | h
    · exact h
    · exact absurd rfl (hlast _ h)
  · refine ⟨rule, n, hrule, hn, fun other hother hne m hm => ?_⟩
    rcases overlapping_of_length? hrule hother hne.symm hn hm with h | h
    · exact h
    · exact absurd ⟨other, m, h, hm⟩ hbest

/-- A rule that comes before every other rule that matches is the first that matches. -/
theorem first?_of_sublist {rules : List (Rule Pattern)} (hnodup : rules.Nodup) (hrule : rule ∈ rules)
    (hn : rule.pattern.length? before text = some n)
    (hfirst : ∀ other ∈ rules, other ≠ rule → ∀ m, other.pattern.length? before text = some m →
      [rule, other].Sublist rules) : first? rules before text = some (rule.cls, n) := by
  induction rules with
  | nil => exact absurd hrule List.not_mem_nil
  | cons head rest ih =>
    rw [first?_eq_findSome?] at ih ⊢
    rw [List.findSome?_cons]
    by_cases hhead : head = rule
    · rw [hhead, hn]
      rfl
    · have hrest {other : Rule Pattern} (h : [rule, other].Sublist (head :: rest)) : [rule, other].Sublist rest := by
        cases h with
        | cons _ h => exact h
        | cons_cons _ _ => exact absurd rfl hhead
      cases hlength : head.pattern.length? before text with
      | some k =>
        have hlater := hrest (hfirst head List.mem_cons_self hhead k hlength)
        have hmem : head ∈ rest := hlater.subset (List.mem_cons_of_mem _ List.mem_cons_self)
        exact absurd hmem (List.nodup_cons.1 hnodup).1
      | none =>
        refine ih (List.nodup_cons.1 hnodup).2 ((List.mem_cons.1 hrule).resolve_left (Ne.symm hhead)) ?_
        intro other hother hne m hm
        exact hrest (hfirst other (List.mem_cons_of_mem _ hother) hne m hm)

/-- The rule that beats the others is the one taken, in every order that puts the longer first. -/
theorem first?_of_beats {rules : List (Rule Pattern)} (hrules : LongerFirst rules) (h : Beats rule before text n) :
    first? rules before text = some (rule.cls, n) := by
  refine first?_of_sublist hrules.nodup (hrules.perm.mem_iff.2 h.mem) h.matched ?_
  intro other hother hne m hm
  exact hrules.longer (rule, other) (h.longer other (hrules.perm.mem_iff.1 hother) hne m hm)

end Place

/-- Where the longer rule of each pair comes first, the order makes no difference. -/
theorem first?_eq_standard {rules : List (Rule Pattern)} (hrules : LongerFirst rules) (before : Option Char)
    (text : Text) : first? rules before text = first? standard before text := by
  by_cases hmatch : ∃ rule ∈ standard, ∃ n, rule.pattern.length? before text = some n
  · obtain ⟨rule, hrule, n, hn⟩ := hmatch
    obtain ⟨best, k, hbest⟩ := exists_beats hrule hn
    rw [first?_of_beats hrules hbest, first?_of_beats longerFirst_standard hbest]
  · have hnone {order : List (Rule Pattern)} (hsame : ∀ rule ∈ order, rule ∈ standard) :
        first? order before text = none := by
      rw [first?_eq_none_iff]
      intro rule hrule
      rw [Option.eq_none_iff_forall_ne_some]
      exact fun n hn => hmatch ⟨rule, hsame rule hrule, n, hn⟩
    rw [hnone fun rule => hrules.perm.mem_iff.1, hnone fun rule => id]

end Rule

/-! ## Tokens -/

/-- The pieces of a text depend on the rules through their first matches only. -/
theorem Piece.ofText_congr {rules other : List (Rule Pattern)}
    (h : ∀ before text, Rule.first? rules before text = Rule.first? other before text) (before : Option Char)
    (source : Text) : ofText rules before source = ofText other before source := by
  fun_induction ofText rules before source with
  | case1 => rw [ofText]
  | case2 before c rest hnone ih =>
    rw [h] at hnone
    rw [Pattern.behind_singleton] at ih ⊢
    rw [ofText_of_none hnone, ih]
  | case3 before c rest cls n hsome ih =>
    rw [h] at hsome
    rw [ofText_of_first? hsome, ih]

namespace Token

/-- Every order of the rules in which the spread pipe comes before the pipe, and numbers with a point before numbers
without one, makes the same tokens, and no rule matches more at the start of one of them. These are the only rules
that can match at the same offset. -/
theorem stream_of_longerFirst (source : Text) :
    (∀ p, ∀ a ∈ Rule.standard, ∀ b ∈ Rule.standard, a ≠ b → a.pattern.matchAt? source p ≠ none →
      b.pattern.matchAt? source p ≠ none → (a, b) ∈ Rule.overlapping ∨ (b, a) ∈ Rule.overlapping) ∧
    ∀ rules, Rule.LongerFirst rules →
      stream rules source = stream Rule.standard source ∧
      ∀ token ∈ stream rules source, token.cls ≠ .unclassified →
        (∃ rule ∈ rules, rule.cls = token.cls ∧
          rule.pattern.matchAt? source token.start = some (token.stop - token.start)) ∧
        ∀ rule ∈ rules, ∀ n, rule.pattern.matchAt? source token.start = some n →
          token.start + n ≤ token.stop := by
  refine ⟨fun p a ha b hb hne hn hm => ?_, fun rules hrules => ⟨?_, fun token htoken hcls => ⟨?_, ?_⟩⟩⟩
  · obtain ⟨n, hn⟩ := Option.ne_none_iff_exists'.1 hn
    obtain ⟨m, hm⟩ := Option.ne_none_iff_exists'.1 hm
    rw [Pattern.matchAt?_eq] at hn hm
    exact Rule.overlapping_of_length? ha hb hne hn hm
  · rw [stream_eq, stream_eq, Piece.ofText_congr (Rule.first?_eq_standard hrules)]
  · obtain ⟨rule, hrule, hsame, n, hmatch, hstop⟩ := exists_rule hrules.classed htoken hcls
    refine ⟨rule, hrule, hsame, ?_⟩
    rw [hmatch, hstop, Nat.add_sub_cancel_left]
  · intro rule hrule n hn
    obtain ⟨k, hfirst, hstop⟩ := (firstMatch_stream hrules.classed source).1.matched token htoken hcls
    rw [Pattern.matchAt?_eq] at hn
    obtain ⟨best, m, hbest⟩ := Rule.exists_beats (hrules.perm.mem_iff.1 hrule) hn
    -- The match of the token is that of the rule that beats the others at its start.
    have hfound : Rule.firstAt? rules source token.start = some (best.cls, m) := Rule.first?_of_beats hrules hbest
    have hsame : k = m := (isFirstAt_unique hfirst (Rule.firstAt?_eq_some_iff.1 hfound)).2
    have hle := hbest.length_le (hrules.perm.mem_iff.1 hrule) hn
    omega

/-- The rules may begin with the colon and end with the pipe: `|*1.5` is still a spread pipe and one number. -/
theorem stream_of_longerFirst_rotated :
    let rules := Rule.standard.drop 6 ++ Rule.standard.take 6
    Rule.LongerFirst rules ∧
      stream rules "|*1.5".toList =
        [⟨.pipeStar, "|*".toList, 0, 2, 1, 1⟩, ⟨.floatLiteral, "1.5".toList, 2, 5, 1, 3⟩] := by
  intro rules
  have hrules : Rule.LongerFirst rules := ⟨List.perm_append_comm, by decide⟩
  have hspread : Rule.first? Rule.standard none ("|*".toList ++ "1.5".toList) =
      some (.pipeStar, "|*".toList.length) := by decide
  have hnumber : Rule.first? Rule.standard (some '*') "1.5".toList =
      some (.floatLiteral, "1.5".toList.length) := by decide
  have hpieces : Piece.ofText Rule.standard none ("|*".toList ++ "1.5".toList) =
      [.matched .pipeStar "|*".toList, .matched .floatLiteral "1.5".toList] := by
    rw [Piece.ofText_of_some _ _ hspread]
    exact congrArg _ (Piece.ofText_whole hnumber)
  refine ⟨hrules, ?_⟩
  rw [((stream_of_longerFirst "|*1.5".toList).2 rules hrules).1]
  exact congrArg (place Position.start) hpieces

end Token

end GuidedTour
