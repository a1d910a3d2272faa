import GuidedTour.Proofs.Editor.Freshness

/-!
# Typing with automatic closing

What is typed stands left of the cursor exactly as it was typed, whatever was closed or stepped over on the way.
Right of the cursor a closing character that is typed takes itself away from the front, an opening one puts its
partner there, and any other leaves what is there (`CodeEditor.typed_in_order`).

If the characters are well nested, all partners that were put there are taken away again. The invariant is that
the text right of the cursor begins with the closing characters that are still due, the innermost first. The quote
opens and closes: it opens unless a quote is due next, so a quote that stands in the old text right of the cursor
would be stepped over at the wrong time, and there must be none.
-/

set_option autoImplicit false

namespace GuidedTour.Editor

/-! ## Opening and closing characters -/

/-- The partner of an opening character is a closing one. -/
theorem isClosing_of_partner? {opener closer : Char} (h : partner? opener = some closer) :
    isClosing closer = true := by
  obtain ⟨earlier, later, hpairs, -⟩ := List.lookup_eq_some_iff.1 h
  apply List.any_eq_true.2
  refine ⟨(opener, closer), ?_, beq_self_eq_true closer⟩
  rw [hpairs]
  simp

/-- The quote is the only character that both opens and closes. -/
theorem eq_quote_of_isClosing {c closer : Char} (hclosing : isClosing c = true)
    (hopening : partner? c = some closer) : c = '"' := by
  simp only [isClosing, closingPairs, List.any_cons, List.any_nil, Bool.or_false, Bool.or_eq_true,
    beq_iff_eq] at hclosing
  rcases hclosing with rfl | rfl | rfl | rfl
  · cases hopening
  · cases hopening
  · cases hopening
  · rfl

/-! ## One key -/

/-- What a typed character makes of the text right of the cursor. -/
def aheadAfter (right : Text) (c : Char) : Text :=
  if isClosing c = true ∧ right.head? = some c then right.tail
  else match partner? c with
    | some closer => closer :: right
    | none => right

/-- The cursor stands between two texts, and nothing is selected. -/
structure Buffer.Between (b : Buffer) (left right : Text) : Prop where
  before : b.before = left
  after : b.after = right
  selection : b.selection = none

namespace Buffer.Between

variable {b : Buffer} {left right : Text}

/-- The text is what stands on both sides of the cursor. -/
theorem text (h : b.Between left right) : b.text = left ++ right := by
  rw [Buffer.text, h.before, h.after]

/-- Nothing is selected. -/
theorem selected (h : b.Between left right) : b.selected = [] := by
  rw [Buffer.selected, h.selection]

/-- The line feed that is read at the end of the text is no closing character. -/
theorem next_eq_iff (h : b.Between left right) {c : Char} (hc : isClosing c = true) :
    b.next = c ↔ right.head? = some c := by
  rw [Buffer.next, h.after]
  cases right with
  | nil =>
    constructor
    · rintro rfl
      cases hc
    · intro hhead
      cases hhead
  | cons d rest => simp

/-- What is inserted stands left of the cursor. -/
theorem insert (h : b.Between left right) (text : Text) : (b.insert text).Between (left ++ text) right := by
  unfold Buffer.insert
  split
  · rename_i hempty
    rw [List.isEmpty_iff.1 hempty, List.append_nil]
    exact h
  · exact ⟨congrArg (· ++ text) h.before, h.after, h.selection⟩

/-- Stepping forward puts a character from the right to the left. -/
theorem forward {c : Char} (h : b.Between left (c :: right)) : (b.shift 1).Between (left ++ [c]) right := by
  have hcursor : ((b.cursor : Int) + 1).toNat = left.length + 1 := by
    rw [Buffer.cursor, h.before]
    omega
  refine ⟨?_, ?_, h.selection⟩
  · simp [Buffer.shift, Buffer.jump, hcursor, h.text, List.take_append, List.take_of_length_le]
  · simp [Buffer.shift, Buffer.jump, hcursor, h.text, List.drop_append]

/-- Stepping back puts a character from the left to the right. -/
theorem back {c : Char} (h : b.Between (left ++ [c]) right) : (b.shift (-1)).Between left (c :: right) := by
  have hcursor : ((b.cursor : Int) + -1).toNat = left.length := by
    rw [Buffer.cursor, h.before, List.length_append, List.length_singleton]
    omega
  refine ⟨?_, ?_, h.selection⟩
  · simp [Buffer.shift, Buffer.jump, hcursor, h.text]
  · simp [Buffer.shift, Buffer.jump, hcursor, h.text]

/-- What is typed stands left of the cursor. -/
theorem type (h : b.Between left right) (text : Text) : (b.type text).Between (left ++ text) right := by
  have hdelete : b.deleteSelected = b := by
    rw [Buffer.deleteSelected, h.selection]
  rw [Buffer.type, hdelete]
  exact h.insert text

end Buffer.Between

namespace CodeEditor

variable {α κ : Type} {e : CodeEditor α} {left right : Text}

/-- A single character with nothing selected steps over its like, or is inserted with its partner. -/
theorem autoClose?_single (c next : Char) :
    autoClose? [c] [next] [] =
      if isClosing c = true ∧ next = c then some ⟨[], 1⟩
      else (partner? c).map fun closer => ⟨[c, closer], -1⟩ := by
  by_cases hover : isClosing c = true ∧ next = c
  · rw [if_pos hover]
    simp [autoClose?, isClosingText, hover]
  · rw [if_neg hover]
    simp only [not_and] at hover
    simp +contextual [autoClose?, isClosingText, closingPair?, hover, Function.comp_def]

/-- A key that deals with what it closes leaves the cursor behind the typed character. -/
theorem between_closeKey? (h : e.buffer.Between left right) {c : Char} {e' : CodeEditor α}
    (hclosed : e.closeKey? [c] = some e') : e'.buffer.Between (left ++ [c]) (aheadAfter right c) := by
  obtain ⟨edit, hedit, rfl⟩ := Option.map_eq_some_iff.1 hclosed
  rw [h.selected, autoClose?_single] at hedit
  simp only [h.selected, List.isEmpty_nil, if_true]
  unfold aheadAfter
  by_cases hclosing : isClosing c = true
  · simp only [hclosing, true_and, h.next_eq_iff hclosing] at hedit ⊢
    by_cases hhead : right.head? = some c
    · rw [if_pos hhead] at hedit ⊢
      obtain ⟨rest, rfl⟩ := List.head?_eq_some_iff.1 hhead
      cases hedit
      exact h.forward
    · rw [if_neg hhead] at hedit ⊢
      obtain ⟨closer, hcloser, rfl⟩ := Option.map_eq_some_iff.1 hedit
      rw [hcloser]
      exact Buffer.Between.back (by simpa using h.insert [c, closer])
  · rw [if_neg fun hover => hclosing hover.1] at hedit ⊢
    obtain ⟨closer, hcloser, rfl⟩ := Option.map_eq_some_iff.1 hedit
    rw [hcloser]
    exact Buffer.Between.back (by simpa using h.insert [c, closer])

/-- A key that deals with nothing neither steps over a character nor opens a pair. -/
theorem aheadAfter_of_closeKey? (h : e.buffer.Between left right) {c : Char}
    (hplain : e.closeKey? [c] = none) : aheadAfter right c = right := by
  have hedit := Option.map_eq_none_iff.1 hplain
  rw [h.selected, autoClose?_single] at hedit
  unfold aheadAfter
  split at hedit
  · cases hedit
  · rename_i hover
    rw [Option.map_eq_none_iff.1 hedit]
    apply if_neg
    rintro ⟨hclosing, hhead⟩
    exact hover ⟨hclosing, (h.next_eq_iff hclosing).2 hhead⟩

variable [Matching α κ]

/-- A key leaves its character left of the cursor, and right of it what follows from the pairs. -/
theorem between_step (h : e.buffer.Between left right) (c : Char) :
    (e.step (.key [c])).1.buffer.Between (left ++ [c]) (aheadAfter right c) := by
  have hact : (e.act (.key [c])).1.buffer.Between (left ++ [c]) (aheadAfter right c) := by
    dsimp only [act]
    cases hclosed : e.closeKey? [c] with
    | some e' => exact between_closeKey? h hclosed
    | none =>
      rw [aheadAfter_of_closeKey? h hclosed]
      exact h.type [c]
  dsimp only [CodeEditor.step]
  split
  · exact ⟨hact.before, hact.after, hact.selection⟩
  · exact hact

/-! ## Typing a word -/

/-- A key for each character of a word. -/
def keys (word : Text) : List Step := word.map fun c => .key [c]

/-- Keys leave their characters left of the cursor, by induction over the word. -/
theorem between_after (h : e.buffer.Between left right) (word : Text) :
    (e.after (keys word)).buffer.Between (left ++ word) (word.foldl aheadAfter right) := by
  induction word generalizing e left right with
  | nil =>
    rw [List.append_nil]
    exact h
  | cons c rest ih =>
    have hrest := ih (between_step h c)
    rw [List.append_assoc] at hrest
    exact hrest

/-- What a typed character makes of the closing characters that are due, the innermost first. The one that is due
next closes; else an opening character makes its partner due; a closing character in any other place is a fault. -/
def nest (due : Text) (c : Char) : Option Text :=
  if due.head? = some c then some due.tail
  else match partner? c with
    | some closer => some (closer :: due)
    | none => if isClosing c then none else some due

/-- Every opening character is closed by its partner, the innermost first, and nothing else is closed. -/
def WellNested (word : Text) : Prop := word.foldlM nest [] = some []

instance (word : Text) : Decidable (WellNested word) :=
  inferInstanceAs (Decidable (word.foldlM nest [] = some []))

/-- The text right of the cursor begins with what is due, and goes on doing so. -/
theorem aheadAfter_of_nest {due due' : Text} {c : Char} (hdue : ∀ d ∈ due, isClosing d = true)
    (hright : right.head? ≠ some '"') (h : nest due c = some due') :
    aheadAfter (due ++ right) c = due' ++ right ∧ ∀ d ∈ due', isClosing d = true := by
  unfold nest at h
  split at h
  · rename_i hhead
    obtain ⟨rest, rfl⟩ := List.head?_eq_some_iff.1 hhead
    obtain rfl := Option.some.inj h
    have hc : isClosing c = true := hdue c List.mem_cons_self
    exact ⟨if_pos ⟨hc, rfl⟩, fun d hd => hdue d (List.mem_cons_of_mem c hd)⟩
  · rename_i hhead
    cases hopens : partner? c with
    | some closer =>
      simp only [hopens] at h
      obtain rfl := Option.some.inj h
      have hfresh : ¬(isClosing c = true ∧ (due ++ right).head? = some c) := by
        rintro ⟨hclosing, hnext⟩
        obtain rfl := eq_quote_of_isClosing hclosing hopens
        cases due with
        | nil => exact hright hnext
        | cons d rest => exact hhead hnext
      refine ⟨?_, ?_⟩
      · rw [aheadAfter, if_neg hfresh, hopens]
        rfl
      · intro d hd
        rcases List.mem_cons.1 hd with rfl | hd
        · exact isClosing_of_partner? hopens
        · exact hdue d hd
    | none =>
      simp only [hopens] at h
      split at h
      · cases h
      · rename_i hclosing
        obtain rfl := Option.some.inj h
        refine ⟨?_, hdue⟩
        rw [aheadAfter, if_neg fun hover => hclosing hover.1, hopens]

/-- A word leaves what is due right of the cursor, by induction over its characters. -/
theorem foldl_aheadAfter_of_nest {word due due' : Text} (hdue : ∀ d ∈ due, isClosing d = true)
    (hright : right.head? ≠ some '"') (h : word.foldlM nest due = some due') :
    word.foldl aheadAfter (due ++ right) = due' ++ right := by
  induction word generalizing due with
  | nil =>
    obtain rfl := Option.some.inj h
    rfl
  | cons c rest ih =>
    rw [List.foldlM_cons] at h
    obtain ⟨between, hfirst, hrest⟩ := Option.bind_eq_some_iff.1 h
    obtain ⟨hahead, hclosing⟩ := aheadAfter_of_nest hdue hright hfirst
    rw [List.foldl_cons, hahead]
    exact ih hclosing hrest

/-- Characters that are typed one after another with nothing selected stand left of the cursor, in order and without
anything in between. Each in its turn changes the text right of the cursor as `aheadAfter` says. If they are well
nested, and no quote stands right of the cursor at first, the text right of it is in the end what it was. -/
theorem typed_in_order (e : CodeEditor α) (hselection : e.buffer.selection = none) (word : Text) :
    (e.after (keys word)).buffer.before = e.buffer.before ++ word ∧
    (e.after (keys word)).buffer.after = word.foldl aheadAfter e.buffer.after ∧
    (e.after (keys word)).buffer.selection = none ∧
    (WellNested word → e.buffer.after.head? ≠ some '"' →
      (e.after (keys word)).source = e.buffer.before ++ word ++ e.buffer.after ∧
      (e.after (keys word)).buffer.cursor = (e.buffer.before ++ word).length) := by
  have hbetween : e.buffer.Between e.buffer.before e.buffer.after := ⟨rfl, rfl, hselection⟩
  have htyped := between_after hbetween word
  refine ⟨htyped.before, htyped.after, htyped.selection, ?_⟩
  intro hnested hquote
  have hahead : word.foldl aheadAfter e.buffer.after = e.buffer.after :=
    foldl_aheadAfter_of_nest (by simp) hquote hnested
  rw [hahead] at htyped
  refine ⟨htyped.text, ?_⟩
  rw [Buffer.cursor, htyped.before]

/-- An editor in front of a closing bracket. -/
def atBracket : CodeEditor Pattern := { ofTour with buffer := ⟨"f(".toList, ") \"x\"".toList, none, false⟩ }

/-- Strings with brackets in them, inside brackets. -/
theorem typed_in_order_quotes :
    atBracket.buffer.selection = none ∧
    WellNested "\x7b\"[(\"b\")]\" \"\"\x7d".toList ∧
    atBracket.buffer.after.head? ≠ some '"' ∧
    (atBracket.after (keys "\x7b\"[(\"b\")]\" \"\"\x7d".toList)).source =
      "f(\x7b\"[(\"b\")]\" \"\"\x7d) \"x\"".toList := by
  have hselection : atBracket.buffer.selection = none := rfl
  have hnested : WellNested "\x7b\"[(\"b\")]\" \"\"\x7d".toList := by decide
  have hquote : atBracket.buffer.after.head? ≠ some '"' := by decide
  obtain ⟨-, -, -, hkept⟩ := typed_in_order atBracket hselection "\x7b\"[(\"b\")]\" \"\"\x7d".toList
  exact ⟨hselection, hnested, hquote, (hkept hnested hquote).1⟩

end CodeEditor

end GuidedTour.Editor
