import GuidedTour.Proofs.Token.Expression
import Mathlib.Data.List.Basic
import Mathlib.Data.List.Flatten

/-!
# Matches and their surroundings

What an expression finds within a stretch of text depends on what stands around the stretch at two points only: whether
a word ends before it, and whether a word goes on behind it (`Expression.Agree`). This is told of the lengths in the
order in which they are found, so it holds of the length that is found first as well. An expression without edges of
words does not look at its surroundings at all.

The proof follows an expression constructor by constructor. What is found one after another is found in stretches that
become shorter, and at each point between two of them the surroundings agree again (`Expression.Agree.drop`).
-/

set_option autoImplicit false

namespace GuidedTour

namespace Expression

open Pattern (wordBefore wordAhead)

/-! ## Characters of a match -/

/-- A trial finds only lengths of the text ahead, and takes only characters of a kind. -/
def Takes (P : Char → Prop) (trial : Trial) : Prop :=
  ∀ last text, ∀ n ∈ trial last text, n ≤ text.length ∧ ∀ c ∈ text.take n, P c

/-- Taking nothing takes only characters of any kind. -/
theorem takes_zero {P : Char → Prop} (text : Text) : 0 ≤ text.length ∧ ∀ c ∈ text.take 0, P c :=
  ⟨Nat.zero_le _, fun _ hc => absurd hc List.not_mem_nil⟩

/-- One trial after another takes only what both do. -/
theorem Takes.andThen {P : Char → Prop} {first second : Trial} (hfirst : Takes P first) (hsecond : Takes P second) :
    Takes P (andThen first second) := by
  intro last text n hn
  obtain ⟨i, hi, hn⟩ := List.mem_flatMap.1 hn
  obtain ⟨k, hk, rfl⟩ := List.mem_map.1 hn
  obtain ⟨hile, hichars⟩ := hfirst last text i hi
  obtain ⟨hkle, hkchars⟩ := hsecond _ _ k hk
  rw [List.length_drop] at hkle
  refine ⟨by omega, fun c hc => ?_⟩
  rw [List.take_add, List.mem_append] at hc
  exact hc.elim (hichars c) (hkchars c)

/-- A repeated trial takes only what it takes once, by induction over its rounds. -/
theorem Takes.repeated {P : Char → Prop} {body : Trial} (h : Takes P body) (fuel : Nat) :
    Takes P (repeated body fuel) := by
  induction fuel with
  | zero =>
    intro last text n hn
    rw [List.mem_singleton.1 hn]
    exact takes_zero text
  | succ fuel ih =>
    intro last text n hn
    have hround : Takes P fun last text => (body last text).filter (0 < ·) :=
      fun last text n hn => h last text n (List.mem_filter.1 hn).1
    rcases List.mem_append.1 hn with hn | hn
    · exact hround.andThen ih last text n hn
    · rw [List.mem_singleton.1 hn]
      exact takes_zero text

/-- The sets of characters in an expression. -/
def sets : Expression → List CharSet
  | empty => []
  | one set => [set]
  | edge => []
  | followed first second => first.sets ++ second.sets
  | either first second => first.sets ++ second.sets
  | optional body => body.sets
  | many body => body.sets
  | oneOrMore body => body.sets

/-- A match lies in the text ahead, and each of its characters belongs to a set of the expression. -/
theorem takes_lengths {P : Char → Prop} (e : Expression) (h : ∀ set ∈ e.sets, ∀ c, set.has c = true → P c) :
    Takes P e.lengths := by
  induction e with
  | empty =>
    intro last text n hn
    rw [List.mem_singleton.1 hn]
    exact takes_zero text
  | one set =>
    intro last text n hn
    cases text with
    | nil => exact absurd hn List.not_mem_nil
    | cons c rest =>
      rw [lengths] at hn
      split at hn
      · rename_i hc
        rw [List.mem_singleton.1 hn]
        refine ⟨Nat.succ_le_succ (Nat.zero_le _), fun d hd => ?_⟩
        rw [List.mem_singleton.1 hd]
        exact h set List.mem_cons_self c hc
      · exact absurd hn List.not_mem_nil
  | edge =>
    intro last text n hn
    rw [lengths] at hn
    split at hn
    · exact absurd hn List.not_mem_nil
    · rw [List.mem_singleton.1 hn]
      exact takes_zero text
  | followed first second hfirst hsecond =>
    exact (hfirst fun set hs => h set (List.mem_append_left _ hs)).andThen
      (hsecond fun set hs => h set (List.mem_append_right _ hs))
  | either first second hfirst hsecond =>
    intro last text n hn
    rcases List.mem_append.1 hn with hn | hn
    · exact hfirst (fun set hs => h set (List.mem_append_left _ hs)) last text n hn
    · exact hsecond (fun set hs => h set (List.mem_append_right _ hs)) last text n hn
  | optional body hbody =>
    intro last text n hn
    rcases List.mem_append.1 hn with hn | hn
    · exact hbody h last text n hn
    · rw [List.mem_singleton.1 hn]
      exact takes_zero text
  | many body hbody => exact fun last text => (hbody h).repeated text.length last text
  | oneOrMore body hbody =>
    have hrest : Takes P fun last text => repeated body.lengths text.length last text :=
      fun last text => (hbody h).repeated text.length last text
    exact (hbody h).andThen hrest

/-- An expression finds no more than the text ahead. -/
theorem le_of_mem_lengths {e : Expression} {last : Option Char} {text : Text} {n : Nat}
    (h : n ∈ e.lengths last text) : n ≤ text.length :=
  (takes_lengths (P := fun _ => True) e (fun _ _ _ _ => trivial) last text n h).1

/-! ## Agreeing surroundings -/

/-- The surroundings of a stretch agree with others: at its start a word ends in both or in neither, and where its end
is the edge of a word in the first it is one in the second. -/
structure Agree (stretch : Text) (last last' : Option Char) (more more' : Text) : Prop where
  start : wordBefore last = wordBefore last'
  stop : wordBefore (before last stretch stretch.length) ≠ wordAhead more →
    wordBefore (before last' stretch stretch.length) ≠ wordAhead more'

/-- If a word ends at the start of a stretch in both surroundings or in neither, so it is at every place of it. -/
theorem wordBefore_before {last last' : Option Char} (h : wordBefore last = wordBefore last') (stretch : Text)
    (n : Nat) : wordBefore (before last stretch n) = wordBefore (before last' stretch n) := by
  unfold before
  cases (stretch.take n).getLast? with
  | none => exact h
  | some c => rfl

/-- Surroundings that agree about a stretch agree about its rest. -/
theorem Agree.drop {stretch : Text} {last last' : Option Char} {more more' : Text}
    (h : Agree stretch last last' more more') {n : Nat} (hn : n ≤ stretch.length) :
    Agree (stretch.drop n) (before last stretch n) (before last' stretch n) more more' := by
  refine ⟨wordBefore_before h.start stretch n, ?_⟩
  have hend (last : Option Char) : before (before last stretch n) (stretch.drop n) (stretch.drop n).length =
      before last stretch stretch.length := by
    rw [← before_add, List.length_drop, Nat.add_sub_cancel' hn]
  rw [hend, hend]
  exact h.stop

/-- The character before a place of a stretch does not depend on what follows the stretch. -/
theorem before_append {last : Option Char} {stretch : Text} {n : Nat} (hn : n ≤ stretch.length) (more : Text) :
    before last (stretch ++ more) n = before last stretch n := by
  rw [before, List.take_append_of_le_length hn, before]

/-- The character before the end of a stretch is its last one. -/
theorem before_length {stretch : Text} (h : stretch ≠ []) (last : Option Char) :
    before last stretch stretch.length = stretch.getLast? := by
  rw [before, List.take_length, List.getLast?_eq_some_getLast h, Option.some_or]

/-- Of what is found by two trials one after another, what lies within a stretch has its first part within the stretch
and its second part within the rest. -/
theorem flatMap_within (l : List Nat) (f : Nat → List Nat) (k : Nat) :
    (l.flatMap fun n => (f n).map (n + ·)).filter (· ≤ k) =
      (l.filter (· ≤ k)).flatMap fun n => ((f n).filter (· ≤ k - n)).map (n + ·) := by
  induction l with
  | nil => rfl
  | cons n l ih =>
    rw [List.flatMap_cons, List.filter_append, ih, List.filter_map]
    by_cases hn : n ≤ k
    · have hsame : ((fun m => decide (m ≤ k)) ∘ fun m => n + m) = fun m => decide (m ≤ k - n) := by
        funext m
        exact decide_eq_decide.2 (by simp only; omega)
      rw [List.filter_cons_of_pos (by simpa using hn), List.flatMap_cons, hsame]
    · have hnone : (f n).filter ((fun m => decide (m ≤ k)) ∘ fun m => n + m) = [] := by
        rw [List.filter_eq_nil_iff]
        intro m _
        simp only [Function.comp_apply, decide_eq_true_eq]
        omega
      rw [List.filter_cons_of_neg (by simpa using hn), hnone, List.map_nil, List.nil_append]

/-- What one trial after another finds within a stretch, each finds within what is left of it. -/
theorem andThen_within (first second : Trial) (last : Option Char) (stretch more : Text) :
    (andThen first second last (stretch ++ more)).filter (· ≤ stretch.length) =
      ((first last (stretch ++ more)).filter (· ≤ stretch.length)).flatMap fun n =>
        ((second (before last stretch n) (stretch.drop n ++ more)).filter (· ≤ (stretch.drop n).length)).map
          (n + ·) := by
  rw [andThen, flatMap_within]
  refine List.flatMap_congr fun n hn => ?_
  have hle : n ≤ stretch.length := by simpa using (List.mem_filter.1 hn).2
  rw [before_append hle, List.drop_append_of_le_length hle, List.length_drop]

/-- What a trial finds within a stretch is found by another in other surroundings, in the same order. Where a trial has
no edges, that is so whatever the surroundings. -/
def Carries (edged : Bool) (trial trial' : Trial) : Prop :=
  ∀ stretch last last' more more', (edged = true → Agree stretch last last' more more') →
    ((trial last (stretch ++ more)).filter (· ≤ stretch.length)).Sublist
      ((trial' last' (stretch ++ more')).filter (· ≤ stretch.length))

/-- What is found in other surroundings asking less of them is found there asking more. -/
theorem Carries.mono {edged edged' : Bool} {trial trial' : Trial} (h : Carries edged trial trial')
    (hedged : edged = true → edged' = true) : Carries edged' trial trial' :=
  fun stretch last last' more more' hagree => h stretch last last' more more' fun he => hagree (hedged he)

/-- One trial after another finds elsewhere what both do. -/
theorem Carries.andThen {edged : Bool} {first first' second second' : Trial} (hfirst : Carries edged first first')
    (hsecond : Carries edged second second') : Carries edged (andThen first second) (andThen first' second') := by
  intro stretch last last' more more' hagree
  rw [andThen_within, andThen_within]
  refine .trans (.flatMap_right _ fun n hn => ?_) (.flatMap (hfirst stretch last last' more more' hagree) _)
  have hle : n ≤ stretch.length := by simpa using (List.mem_filter.1 hn).2
  exact (hsecond _ _ _ _ _ fun he => (hagree he).drop hle).map _

/-- A repeated trial can always take nothing. -/
theorem mem_repeated_zero (body : Trial) (fuel : Nat) (last : Option Char) (text : Text) :
    0 ∈ repeated body fuel last text := by
  cases fuel with
  | zero => exact List.mem_singleton.2 rfl
  | succ fuel => exact List.mem_append_right _ (List.mem_singleton.2 rfl)

/-- Rounds are carried over one by one. Each of them takes a character, so there are enough of them in the other
surroundings if there are as many as characters in the stretch. -/
theorem sublist_repeated {edged : Bool} {body body' : Trial} (hbody : Carries edged body body') {fuel fuel' : Nat}
    {stretch : Text} (hfuel : stretch.length ≤ fuel') {last last' : Option Char} {more more' : Text}
    (hagree : edged = true → Agree stretch last last' more more') :
    ((repeated body fuel last (stretch ++ more)).filter (· ≤ stretch.length)).Sublist
      ((repeated body' fuel' last' (stretch ++ more')).filter (· ≤ stretch.length)) := by
  induction fuel generalizing fuel' stretch last last' with
  | zero =>
    refine List.singleton_sublist.2 (List.mem_filter.2 ⟨mem_repeated_zero body' fuel' last' _, ?_⟩)
    exact decide_eq_true (Nat.zero_le stretch.length)
  | succ fuel ih =>
    have hrounds (trial : Trial) (last : Option Char) (more : Text) :
        ((trial last (stretch ++ more)).filter (0 < ·)).filter (· ≤ stretch.length) =
          ((trial last (stretch ++ more)).filter (· ≤ stretch.length)).filter (0 < ·) := List.filter_comm _ _ _
    rw [repeated, List.filter_append, andThen_within, hrounds]
    cases fuel' with
    | zero =>
      have hnone : ((body last (stretch ++ more)).filter (· ≤ stretch.length)).filter (0 < ·) = [] := by
        rw [List.filter_eq_nil_iff]
        intro n hn
        have hle : n ≤ stretch.length := by simpa using (List.mem_filter.1 hn).2
        simp only [decide_eq_true_eq]
        omega
      rw [hnone]
      exact .refl _
    | succ fuel' =>
      rw [repeated, List.filter_append, andThen_within, hrounds]
      refine .append (.trans (.flatMap_right _ fun n hn => ?_) (.flatMap ?_ _)) (.refl _)
      · obtain ⟨hn, hpos⟩ := List.mem_filter.1 hn
        have hle : n ≤ stretch.length := by simpa using (List.mem_filter.1 hn).2
        have hpos : 0 < n := by simpa using hpos
        refine (ih ?_ fun he => (hagree he).drop hle).map _
        rw [List.length_drop]
        omega
      · exact (hbody stretch last last' more more' hagree).filter _

/-- Whether the edge of a word matters to an expression. -/
def edged : Expression → Bool
  | empty => false
  | one _ => false
  | edge => true
  | followed first second => first.edged || second.edged
  | either first second => first.edged || second.edged
  | optional body => body.edged
  | many body => body.edged
  | oneOrMore body => body.edged

/-- An expression finds within a stretch what it finds there in other surroundings that agree, in the same order. -/
theorem carries_lengths (e : Expression) : Carries e.edged e.lengths e.lengths := by
  induction e with
  | empty => exact fun _ _ _ _ _ _ => .refl _
  | one set =>
    intro stretch last last' more more' hagree
    cases stretch with
    | nil =>
      have hnone (last : Option Char) (more : Text) : ((one set).lengths last more).filter (· ≤ 0) = [] := by
        cases more with
        | nil => rfl
        | cons c more => by_cases hc : set.has c = true <;> simp [lengths, hc]
      rw [List.nil_append, List.nil_append]
      exact (hnone last more).symm ▸ List.nil_sublist _
    | cons c stretch => exact .refl _
  | edge =>
    intro stretch last last' more more' hagree
    have h := hagree rfl
    refine List.Sublist.filter _ ?_
    rw [lengths, lengths]
    cases stretch with
    | nil =>
      by_cases hedge : wordBefore last = wordAhead more
      · rw [List.nil_append, if_pos hedge]
        exact List.nil_sublist _
      · have hother : wordBefore last' ≠ wordAhead more' := h.stop hedge
        rw [List.nil_append, List.nil_append, if_neg hedge, if_neg hother]
    | cons c stretch => exact h.start ▸ .refl _
  | followed first second hfirst hsecond =>
    exact (hfirst.mono fun he => Bool.or_eq_true_iff.2 (.inl he)).andThen
      (hsecond.mono fun he => Bool.or_eq_true_iff.2 (.inr he))
  | either first second hfirst hsecond =>
    intro stretch last last' more more' hagree
    rw [lengths, lengths, List.filter_append, List.filter_append]
    exact .append (hfirst _ _ _ _ _ fun he => hagree (Bool.or_eq_true_iff.2 (.inl he)))
      (hsecond _ _ _ _ _ fun he => hagree (Bool.or_eq_true_iff.2 (.inr he)))
  | optional body hbody =>
    intro stretch last last' more more' hagree
    rw [lengths, lengths, List.filter_append, List.filter_append]
    exact .append (hbody _ _ _ _ _ hagree) (.refl _)
  | many body hbody =>
    intro stretch last last' more more' hagree
    exact sublist_repeated hbody (by simp) hagree
  | oneOrMore body hbody =>
    have hrest : Carries body.edged (fun last text => repeated body.lengths text.length last text)
        (fun last text => repeated body.lengths text.length last text) :=
      fun stretch last last' more more' hagree => sublist_repeated hbody (by simp) hagree
    exact hbody.andThen hrest

/-! ## Stretches by themselves -/

section Alone

variable {e : Expression} {last last' : Option Char} {stretch more : Text}

/-- A stretch by itself holds all that is found in it. -/
theorem filter_lengths_self (e : Expression) (last : Option Char) (stretch : Text) :
    (e.lengths last (stretch ++ [])).filter (· ≤ stretch.length) = e.lengths last stretch := by
  rw [List.append_nil, List.filter_eq_self]
  exact fun n hn => decide_eq_true (le_of_mem_lengths hn)

/-- Where no word goes on behind a stretch, what is found in the text is found in the stretch by itself. -/
theorem agree_within (hstart : wordBefore last = wordBefore last') (hmore : wordAhead more = false) :
    Agree stretch last last' more [] := by
  refine ⟨hstart, fun hstop => ?_⟩
  rwa [hmore, wordBefore_before hstart] at hstop

/-- Where no word goes on behind a stretch, what is found in it by itself is found in the text. -/
theorem agree_alone (hstart : wordBefore last = wordBefore last') (hmore : wordAhead more = false) :
    Agree stretch last' last [] more := by
  refine ⟨hstart.symm, fun hstop => ?_⟩
  rwa [hmore, wordBefore_before hstart]

/-- Where no word goes on behind a stretch, what is found in it by itself is what is found within it. -/
theorem filter_lengths (h : e.edged = true → wordBefore last = wordBefore last' ∧ wordAhead more = false) :
    (e.lengths last (stretch ++ more)).filter (· ≤ stretch.length) = e.lengths last' stretch := by
  rw [← filter_lengths_self e last' stretch]
  exact (carries_lengths e _ _ _ _ _ fun he => agree_within (h he).1 (h he).2).antisymm
    (carries_lengths e _ _ _ _ _ fun he => agree_alone (h he).1 (h he).2)

/-- A first match within a stretch is the first match in the stretch by itself. -/
theorem length?_alone (h : e.edged = true → wordBefore last = wordBefore last' ∧ wordAhead more = false) {n : Nat}
    (hn : n ≤ stretch.length) (hmatch : e.length? last (stretch ++ more) = some n) :
    e.length? last' stretch = some n := by
  obtain ⟨others, hlengths⟩ := List.head?_eq_some_iff.1 hmatch
  rw [length?, ← filter_lengths h, hlengths, List.filter_cons_of_pos (by simpa using hn), List.head?_cons]

/-- Where nothing is found in the text, nothing is found in a stretch by itself. -/
theorem length?_alone_eq_none (h : e.edged = true → Agree stretch last' last [] more)
    (hnone : e.length? last (stretch ++ more) = none) : e.length? last' stretch = none := by
  have hsublist := carries_lengths e _ _ _ _ _ h
  rw [filter_lengths_self, List.head?_eq_none_iff.1 hnone] at hsublist
  rw [length?, List.sublist_nil.1 hsublist, List.head?_nil]

end Alone

end Expression

end GuidedTour
