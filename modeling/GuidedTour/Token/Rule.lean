import GuidedTour.Token.Class
import GuidedTour.Token.Matching

/-!
# Rules of program text

A rule gives the class of what a pattern matches. Rules come in an order and are matched together, which for the
patterns of program text means that at each place the first one that matches wins, even where a later one would match
more (`Rule.first?_eq_findSome?`). Two orders are in use: the default one and an older one, in which the shorter of two
overlapping patterns comes first.
-/

set_option autoImplicit false

namespace GuidedTour

/-- A pattern together with the class of what it matches. -/
structure Rule (α : Type) where
  pattern : α
  cls : TokenClass
deriving DecidableEq, Repr, Inhabited

namespace Rule

variable {α κ : Type}

/-- The rules in use. The spread pipe comes before the pipe and numbers with a point before numbers
without one, so that the longer of the two is found. -/
def standard : List (Rule Pattern) :=
  [⟨.leftParen, .leftParen⟩, ⟨.rightParen, .rightParen⟩, ⟨.leftBrace, .leftBrace⟩,
   ⟨.rightBrace, .rightBrace⟩, ⟨.pipeStar, .pipeStar⟩, ⟨.pipe, .pipe⟩, ⟨.colon, .colon⟩,
   ⟨.identifier, .identifier⟩, ⟨.quotedString, .stringLiteral⟩, ⟨.boolean, .booleanLiteral⟩,
   ⟨.decimal, .floatLiteral⟩, ⟨.integer, .integerLiteral⟩, ⟨.typeWord, .keyword⟩,
   ⟨.pasteWord, .keyword⟩]

/-- The rules in their older order: the pipe hides the spread pipe, and whole numbers hide numbers with
a point. -/
def legacy : List (Rule Pattern) :=
  [⟨.leftParen, .leftParen⟩, ⟨.rightParen, .rightParen⟩, ⟨.leftBrace, .leftBrace⟩,
   ⟨.rightBrace, .rightBrace⟩, ⟨.pipe, .pipe⟩, ⟨.pipeStar, .pipeStar⟩, ⟨.colon, .colon⟩,
   ⟨.identifier, .identifier⟩, ⟨.quotedString, .stringLiteral⟩, ⟨.boolean, .booleanLiteral⟩,
   ⟨.integer, .integerLiteral⟩, ⟨.decimal, .floatLiteral⟩, ⟨.typeWord, .keyword⟩,
   ⟨.pasteWord, .keyword⟩]

/-- The classes that the tokens of some rules can have, what no rule matches included. -/
def produced (rules : List (Rule α)) : List TokenClass :=
  TokenClass.byLabel.filter fun c => c == .unclassified || rules.any (·.cls == c)

/-- One regular expression for all the rules: the alternatives in order, each in a numbered group. -/
def expression (rules : List (Rule Pattern)) : Text :=
  Text.join ['|'] (rules.mapIdx fun i rule =>
    "(?P<R".toList ++ Text.ofNat i ++ '>' :: rule.pattern.expression.toList ++ [')'])

section

variable [Matching α κ] {rules : List (Rule α)} {before : κ} {text : Text} {cls : TokenClass} {n : Nat}

/-- What some rules find at the start of a text: the class of the rule that is found, and the length of its match. An
empty match counts for none, and hides whatever another rule would match. -/
def first? (rules : List (Rule α)) (before : κ) (text : Text) : Option (TokenClass × Nat) :=
  match Matching.find? (rules.map (·.pattern)) before text with
  | none => none
  | some (i, n) => if n = 0 then none else rules[i]?.map fun rule => (rule.cls, n)

/-- What some rules find is the class of one of them, with a match that is not empty and lies in the text. -/
theorem first?_spec (h : first? rules before text = some (cls, n)) :
    (∃ rule ∈ rules, rule.cls = cls) ∧ 0 < n ∧ n ≤ text.length := by
  unfold first? at h
  split at h
  · cases h
  · rename_i i m hfound
    split at h
    · cases h
    · rename_i hne
      obtain ⟨rule, hrule, he⟩ := Option.map_eq_some_iff.1 h
      cases he
      exact ⟨⟨rule, List.mem_of_getElem? hrule, rfl⟩, Nat.pos_of_ne_zero hne, Matching.find?_le hfound⟩

/-- No rule is found only where the expression matches nothing: the class of a match can always be looked up. -/
theorem first?_eq_none_iff_find? : first? rules before text = none ↔
    ∀ i n, Matching.find? (rules.map (·.pattern)) before text = some (i, n) → n = 0 := by
  unfold first?
  cases hfind : Matching.find? (rules.map (·.pattern)) before text with
  | none => simp
  | some found =>
    obtain ⟨i, n⟩ := found
    have hlt : i < rules.length := by simpa using Matching.find?_lt hfind
    simp [List.getElem?_eq_getElem hlt]

/-- What a rule matches is not empty. -/
theorem first?_pos (h : first? rules before text = some (cls, n)) : 0 < n := (first?_spec h).2.1

/-- What a rule matches is part of the text. -/
theorem first?_le (h : first? rules before text = some (cls, n)) : n ≤ text.length := (first?_spec h).2.2

/-- What a rule matches is some stretch of the text. -/
theorem take_ne_nil (h : first? rules before text = some (cls, n)) : text.take n ≠ [] := by
  obtain ⟨-, hpos, hle⟩ := first?_spec h
  exact List.ne_nil_of_length_pos (Nat.lt_of_lt_of_eq hpos (List.length_take_of_le hle).symm)

end

/-- In program text the first rule that matches wins. -/
theorem first?_eq_findSome? (rules : List (Rule Pattern)) (before : Option Char) (text : Text) :
    first? rules before text =
      rules.findSome? fun rule => (rule.pattern.length? before text).map (rule.cls, ·) := by
  induction rules with
  | nil => rfl
  | cons rule more ih =>
    rw [List.findSome?_cons, ← ih]
    unfold first?
    rw [List.map_cons, show @Matching.find? Pattern _ _ = Pattern.firstOf? from rfl, Pattern.firstOf?]
    cases hlength : rule.pattern.length? before text with
    | some m => exact if_neg (Nat.ne_of_gt (Pattern.length?_pos hlength))
    | none =>
      cases Pattern.firstOf? (more.map (·.pattern)) before text with
      | none => rfl
      | some found => rfl

end Rule

end GuidedTour
