import GuidedTour.Proofs.Outcome.Literal

/-!
# The grammar of printed values

Which texts spell a value (`SpellsValue`): a name with its insides in parentheses, where the insides of a
tuple are values again and those of a closure are anything that keeps its brackets balanced (`Nests`). The
reader of values and the grammar agree (`readValue_eq_ok_iff`); the proof is by induction on the fuel of the
reader, for values and for the items of a tuple at once.
-/

set_option autoImplicit false

namespace GuidedTour.Outcome

/-! ## The insides of closures -/

/-- The insides of a closure lead from one depth of brackets to another. Literals are passed over, brackets
are counted without regard to their kind, and the depth never falls below zero. -/
inductive Nests : Nat → Text → Nat → Prop where
  | nil (depth : Nat) : Nests depth [] depth
  | literal {depth depth' : Nat} {literal : Text} {text : CodeText} {inner : Text}
      (literal_text : SpellsString literal text) (more : Nests depth inner depth') : Nests depth (literal ++ inner) depth'
  | opening {depth depth' : Nat} {c : Char} {inner : Text} (c_opens : opens c = true)
      (more : Nests (depth + 1) inner depth') : Nests depth (c :: inner) depth'
  | closing {depth depth' : Nat} {c : Char} {inner : Text} (c_closes : closes c = true)
      (more : Nests depth inner depth') : Nests (depth + 1) (c :: inner) depth'
  | other {depth depth' : Nat} {c : Char} {inner : Text} (quote : c ≠ '"') (c_opens : opens c = false)
      (c_closes : closes c = false) (more : Nests depth inner depth') : Nests depth (c :: inner) depth'

/-- No bracket is a quote. -/
theorem opens_ne {c : Char} (h : opens c = true) : c ≠ '"' := by
  rintro rfl
  cases h

/-- A closing bracket is no quote and no opening bracket. -/
theorem closes_ne {c : Char} (h : closes c = true) : c ≠ '"' ∧ opens c = false := by
  unfold closes at h
  simp only [Bool.or_eq_true, beq_iff_eq] at h
  rcases h with (rfl | rfl) | rfl <;> exact ⟨by decide, rfl⟩

/-- A string inside a closure is read and passed over. -/
theorem skipInside_quote (depth : Nat) (left : Text) (position : Nat) :
    (skipInside depth ('"' :: left) position).ending =
      (stringBody left (position + 1)).ending >>= fun read =>
        (skipInside depth read.2.rest read.2.position).ending := by
  rw [skipInside, if_pos rfl]
  split
  · rename_i positions e he
    rw [he]
    rfl
  · rename_i positions text cursor he
    rw [he]
    rfl

/-- What leads from one depth to another is skipped, whatever follows it. -/
theorem skipInside_append {depth depth' : Nat} {inner : Text} (h : Nests depth inner depth')
    (rest : Text) (position : Nat) :
    (skipInside depth (inner ++ rest) position).ending =
      (skipInside depth' rest (position + inner.length)).ending := by
  induction h generalizing position with
  | nil depth => rfl
  | @literal depth depth' literal text inner hliteral hmore ih =>
    -- A literal is read as a string, whatever brackets it holds.
    obtain ⟨body, hbody, rfl⟩ := hliteral
    have htext : '"' :: body ++ ['"'] ++ inner ++ rest = '"' :: (body ++ '"' :: (inner ++ rest)) := by
      simp
    have hread : (stringBody (body ++ '"' :: (inner ++ rest)) (position + 1)).ending =
        .ok (text, ⟨inner ++ rest, position + 1 + body.length + 1⟩) :=
      stringBody_eq_ok_iff.2 ⟨body, hbody, rfl, rfl⟩
    have hlength : position + 1 + body.length + 1 + inner.length =
        position + ('"' :: body ++ ['"'] ++ inner).length := by
      simp
      omega
    rw [htext, skipInside_quote, hread, ← hlength]
    exact ih _
  | @opening depth depth' c inner hopens hmore ih =>
    rw [List.cons_append, skipInside, if_neg (opens_ne hopens), if_pos hopens, Course.ending_passing, ih,
      List.length_cons, Nat.add_right_comm, Nat.add_assoc]
  | @closing depth depth' c inner hcloses hmore ih =>
    obtain ⟨hquote, hopens⟩ := closes_ne hcloses
    rw [List.cons_append, skipInside, if_neg hquote, if_neg (by simp [hopens]), if_pos hcloses,
      if_neg (Nat.succ_ne_zero depth), Nat.add_sub_cancel, Course.ending_passing, ih, List.length_cons,
      Nat.add_right_comm, Nat.add_assoc]
  | @other depth depth' c inner hquote hopens hcloses hmore ih =>
    rw [List.cons_append, skipInside, if_neg hquote, if_neg (by simp [hopens]),
      if_neg (by simp [hcloses]), Course.ending_passing, ih, List.length_cons, Nat.add_right_comm, Nat.add_assoc]

/-- What is skipped leads to depth zero, and a closing bracket follows it. -/
theorem nests_of_skipInside {depth : Nat} {rest : Text} {position : Nat} {next : Cursor}
    (h : (skipInside depth rest position).ending = .ok next) :
    ∃ inner c left, Nests depth inner 0 ∧ closes c = true ∧ next.rest = c :: left ∧
      rest = inner ++ next.rest ∧ next.position = position + inner.length := by
  fun_induction skipInside depth rest position with
  | case1 => cases h
  | case2 => cases h
  | case3 depth position left positions text cursor hread ih =>
    obtain ⟨inner, c, left', hinner, hcloses, hnext, hrest, hposition⟩ := ih h
    obtain ⟨body, hbody, hleft, hafter⟩ := stringBody_eq_ok_iff.1 (congrArg Course.ending hread)
    refine ⟨'"' :: body ++ ['"'] ++ inner, c, left', .literal ⟨body, hbody, rfl⟩ hinner, hcloses, hnext,
      ?_, ?_⟩
    · rw [hleft, hrest]
      simp
    · rw [hposition, hafter]
      simp
      omega
  | case4 depth position c left hquote hopens ih =>
    obtain ⟨inner, d, left', hinner, hcloses, hnext, hrest, hposition⟩ := ih h
    refine ⟨c :: inner, d, left', .opening hopens hinner, hcloses, hnext, ?_, ?_⟩
    · rw [hrest]
      rfl
    · rw [hposition, List.length_cons]
      omega
  | case5 position c left hquote hopens hcloses =>
    cases h
    exact ⟨[], c, left, .nil 0, hcloses, rfl, rfl, rfl⟩
  | case6 depth position c left hquote hopens hcloses hdepth ih =>
    obtain ⟨inner, d, left', hinner, hd, hnext, hrest, hposition⟩ := ih h
    obtain ⟨depth, rfl⟩ := Nat.exists_eq_succ_of_ne_zero hdepth
    refine ⟨c :: inner, d, left', .closing hcloses hinner, hd, hnext, ?_, ?_⟩
    · rw [hrest]
      rfl
    · rw [hposition, List.length_cons]
      omega
  | case7 depth position c left hquote hopens hcloses ih =>
    obtain ⟨inner, d, left', hinner, hd, hnext, hrest, hposition⟩ := ih h
    refine ⟨c :: inner, d, left', .other hquote (by simpa using hopens) (by simpa using hcloses) hinner,
      hd, hnext, ?_, ?_⟩
    · rw [hrest]
      rfl
    · rw [hposition, List.length_cons]
      omega

/-- Up to a closing parenthesis the insides of a closure are skipped and nothing else. -/
theorem skipInside_eq_ok_iff {cursor next : Cursor} {left : Text} (hnext : next.rest = ')' :: left) :
    (skipInside 0 cursor.rest cursor.position).ending = .ok next ↔
      ∃ inner, Nests 0 inner 0 ∧ cursor.Passes inner next := by
  constructor
  · intro h
    obtain ⟨inner, c, left', hinner, -, -, hrest, hposition⟩ := nests_of_skipInside h
    exact ⟨inner, hinner, hrest, hposition⟩
  · rintro ⟨inner, hinner, hrest, hposition⟩
    obtain ⟨rest, position⟩ := next
    cases hnext
    cases hposition
    have hopens : opens ')' = false := rfl
    rw [hrest, skipInside_append hinner, skipInside, if_neg (by decide), if_neg (by simp [hopens]),
      if_pos rfl]
    rfl

/-! ## Values -/

mutual

/-- A text spells a value: a word by itself, or a name with its insides in parentheses. -/
inductive SpellsValue : Text → Value → Prop where
  | runtimeInvocation : SpellsValue "RuntimeInvocation".toList .runtimeInvocation
  | called {name inside : Text} {value : Value} (inside_value : SpellsInside name inside value) :
      SpellsValue (name ++ '(' :: inside ++ [')']) value

/-- A name and the insides of its parentheses spell a value. -/
inductive SpellsInside : Text → Text → Value → Prop where
  | integer {spelling : Text} (isInteger : IsInteger spelling) :
      SpellsInside "Integer".toList spelling (.integer spelling)
  | float {spelling : Text} {number : Double} (spelling_number : SpellsFloat spelling number) :
      SpellsInside "Float".toList spelling (.float number)
  | boolean (truth : Bool) : SpellsInside "Boolean".toList (truthWord truth) (.boolean truth)
  | string {literal : Text} {text : CodeText} (literal_text : SpellsString literal text) :
      SpellsInside "String".toList literal (.string text)
  | tuple {texts : List Text} {items : List Value} (texts_items : SpellsItems texts items) :
      SpellsInside "Tuple".toList ('[' :: Text.join [',', ' '] texts ++ [']']) (.tuple items)
  | closure {inner : Text} (nests : Nests 0 inner 0) : SpellsInside "Closure".toList inner .closure

/-- Some texts spell some values, each its own. -/
inductive SpellsItems : List Text → List Value → Prop where
  | nil : SpellsItems [] []
  | cons {text : Text} {value : Value} {texts : List Text} {values : List Value}
      (first : SpellsValue text value) (more : SpellsItems texts values) :
      SpellsItems (text :: texts) (value :: values)

end

/-- The items of a tuple, from the first one on or behind an earlier one. -/
def listed : Bool → List Text → Text
  | true, texts => Text.join [',', ' '] texts
  | false, texts => texts.flatMap ([',', ' '] ++ ·)

/-- No items are listed as nothing. -/
theorem listed_nil (isFirst : Bool) : listed isFirst [] = [] := by
  cases isFirst <;> rfl

/-- A first text is joined to the others by separators in front of those. -/
theorem join_cons (separator text : Text) (texts : List Text) :
    Text.join separator (text :: texts) = text ++ texts.flatMap (separator ++ ·) := by
  unfold Text.join
  induction texts generalizing text with
  | nil => simp [List.intercalate]
  | cons next texts ih => rw [List.intercalate_cons_cons, ih, List.flatMap_cons, List.append_assoc,
      List.append_assoc]

/-- An item is listed behind its separator, and the others behind it. -/
theorem listed_cons (isFirst : Bool) (text : Text) (texts : List Text) :
    listed isFirst (text :: texts) =
      (if isFirst then [] else [',', ' ']) ++ text ++ listed false texts := by
  cases isFirst with
  | true => exact join_cons [',', ' '] text texts
  | false => rfl

/-- What stands before parentheses is a name, and not that of the value without any. -/
theorem SpellsInside.isName {name inside : Text} {value : Value} (h : SpellsInside name inside value) :
    IsName name ∧ name ≠ "RuntimeInvocation".toList := by
  cases h <;> exact ⟨isName_of_all (by decide) rfl, by decide⟩

/-- No value with parentheses is the one without any. -/
theorem SpellsInside.ne_word {name inside : Text} {value : Value} (h : SpellsInside name inside value) :
    value ≠ .runtimeInvocation := by
  rintro rfl
  cases h

/-- A value begins with a letter. -/
theorem SpellsValue.exists_letter {text : Text} {value : Value} (h : SpellsValue text value) :
    ∃ c more, text = c :: more ∧ c.isAlpha = true := by
  cases h with
  | runtimeInvocation => exact ⟨'R', "untimeInvocation".toList, by decide, rfl⟩
  | @called name inside value h =>
    obtain ⟨⟨hne, hletters⟩, -⟩ := h.isName
    obtain ⟨c, more, rfl⟩ := List.exists_cons_of_ne_nil hne
    exact ⟨c, more ++ '(' :: inside ++ [')'], rfl, hletters c List.mem_cons_self⟩

/-- No letter is a closing bracket. -/
theorem ne_bracket {c : Char} (h : c.isAlpha = true) : c ≠ ']' := by
  rintro rfl
  cases h

/-- No value is spelled by nothing. -/
theorem SpellsValue.ne_nil {text : Text} {value : Value} (h : SpellsValue text value) : text ≠ [] := by
  obtain ⟨c, more, rfl, -⟩ := h.exists_letter
  exact List.cons_ne_nil c more

/-! ## The readers of values -/

/-- What a form takes of the text that is left lies between the place before it and the place behind it. -/
theorem Cursor.lexical_eq_ok_iff {α : Type} {cursor next : Cursor} {form : Text → Option (α × Text)}
    {reason : Reason} {a : α} {P : Text → Prop}
    (hform : form cursor.rest = some (a, next.rest) ↔
      ∃ spelling, P spelling ∧ cursor.rest = spelling ++ next.rest) :
    (cursor.lexical form reason).ending = .ok (a, next) ↔ ∃ spelling, P spelling ∧ cursor.Passes spelling next := by
  have hupTo {spelling : Text} (h : cursor.rest = spelling ++ next.rest) :
      (cursor.upTo next.rest).position = cursor.position + spelling.length := by
    show cursor.position + (cursor.rest.length - next.rest.length) = cursor.position + spelling.length
    rw [h, List.length_append, Nat.add_sub_cancel]
  unfold lexical
  constructor
  · intro h
    split at h
    · rename_i a' rest hread
      cases h
      obtain ⟨spelling, hP, hrest⟩ := hform.1 hread
      exact ⟨spelling, hP, hrest, hupTo hrest⟩
    · cases h
  · rintro ⟨spelling, hP, hrest, hposition⟩
    rw [hform.2 ⟨spelling, hP, hrest⟩]
    obtain ⟨rest, position⟩ := next
    simp only at hposition hupTo ⊢
    rw [hposition, ← hupTo hrest]
    rfl

/-- A form that takes one spelling reads that spelling and nothing else. -/
theorem Cursor.lexical_spelling_eq_ok_iff {α : Type} {cursor next : Cursor}
    {form : Text → Option (α × Text)} {reason : Reason} {a : α} {spelling : Text} {P : Prop}
    (hform : form cursor.rest = some (a, next.rest) ↔ P ∧ cursor.rest = spelling ++ next.rest) :
    (cursor.lexical form reason).ending = .ok (a, next) ↔ P ∧ cursor.Passes spelling next := by
  have hspelling : form cursor.rest = some (a, next.rest) ↔
      ∃ text, (text = spelling ∧ P) ∧ cursor.rest = text ++ next.rest := by
    rw [hform]
    constructor
    · rintro ⟨hP, hrest⟩
      exact ⟨spelling, ⟨rfl, hP⟩, hrest⟩
    · rintro ⟨_, ⟨rfl, hP⟩, hrest⟩
      exact ⟨hP, hrest⟩
  rw [lexical_eq_ok_iff hspelling]
  constructor
  · rintro ⟨_, ⟨rfl, hP⟩, hpasses⟩
    exact ⟨hP, hpasses⟩
  · rintro ⟨hP, hpasses⟩
    exact ⟨spelling, ⟨rfl, hP⟩, hpasses⟩

/-- A name is read as far as letters go. -/
theorem lexical_name_eq_ok_iff {cursor next : Cursor} {reason : Reason} {name : Text} :
    (cursor.lexical name? reason).ending = .ok (name, next) ↔
      (IsName name ∧ Halts Char.isAlpha next.rest) ∧ cursor.Passes name next := by
  refine Cursor.lexical_spelling_eq_ok_iff ?_
  rw [name?_eq_some_iff, and_assoc]
  exact and_congr_right fun _ => and_comm

/-- Up to a closing parenthesis an integer is read and nothing else. -/
theorem lexical_integer_eq_ok_iff {cursor next : Cursor} {reason : Reason} {left spelling : Text}
    (hnext : next.rest = ')' :: left) :
    (cursor.lexical integer? reason).ending = .ok (spelling, next) ↔
      IsInteger spelling ∧ cursor.Passes spelling next := by
  refine Cursor.lexical_spelling_eq_ok_iff ?_
  rw [hnext]
  exact integer?_eq_some_iff

/-- Up to a closing parenthesis a float is read and nothing else. -/
theorem lexical_float_eq_ok_iff {cursor next : Cursor} {reason : Reason} {left : Text} {number : Double}
    (hnext : next.rest = ')' :: left) :
    (cursor.lexical float? reason).ending = .ok (number, next) ↔
      ∃ spelling, SpellsFloat spelling number ∧ cursor.Passes spelling next := by
  refine Cursor.lexical_eq_ok_iff ?_
  rw [hnext]
  exact float?_eq_some_iff

/-- A truth is read by its word. -/
theorem lexical_boolean_eq_ok_iff {cursor next : Cursor} {reason : Reason} {truth : Bool} :
    (cursor.lexical boolean? reason).ending = .ok (truth, next) ↔ cursor.Passes (truthWord truth) next := by
  have hform : boolean? cursor.rest = some (truth, next.rest) ↔
      True ∧ cursor.rest = truthWord truth ++ next.rest := by
    rw [boolean?_eq_some_iff, true_and]
  rw [Cursor.lexical_spelling_eq_ok_iff hform, true_and]

/-- A value made of what a reader comes to is read exactly where that is. -/
theorem bind_value_eq_ok_iff {α : Type} {course : Course (α × Cursor)} {f : α → Value}
    {value : Value} {next : Cursor} :
    Course.ending (do let (a, cursor) ← course; return (f a, cursor)) = .ok (value, next) ↔
      ∃ a, course.ending = .ok (a, next) ∧ f a = value := by
  rw [Course.bind_eq_ok_iff]
  constructor
  · rintro ⟨⟨a, cursor⟩, hx, he⟩
    cases he
    exact ⟨a, hx, rfl⟩
  · rintro ⟨a, hx, rfl⟩
    exact ⟨(a, next), hx, rfl⟩

/-- With this much fuel, the reader of items takes the items of a tuple and the closing bracket, and nothing
else. -/
def ReadsItems (fuel : Nat) : Prop :=
  ∀ (isFirst : Bool) (cursor next : Cursor) (values : List Value), cursor.rest.length < fuel →
    ((readItems fuel isFirst cursor).ending = .ok (values, next) ↔
      ∃ texts, SpellsItems texts values ∧ cursor.Passes (listed isFirst texts ++ [']']) next)

/-- With this much fuel, the reader of values takes a value and nothing else. The value that is a word by
itself ends where no letter follows. -/
def ReadsValues (fuel : Nat) : Prop :=
  ∀ (cursor next : Cursor) (value : Value), cursor.rest.length ≤ fuel →
    ((readValue fuel cursor).ending = .ok (value, next) ↔
      ∃ text, SpellsValue text value ∧ (value = .runtimeInvocation → Halts Char.isAlpha next.rest) ∧
        cursor.Passes text next)

/-! ### One equation for each name -/

section

variable (fuel : Nat) (cursor : Cursor)

/-- The name of integers stands before an integer. -/
theorem readInside_integer :
    readInside fuel "Integer".toList cursor = do
      let (ds, cursor) ← cursor.lexical integer? .expectedInteger
      return (.integer ds, cursor) := by
  rw [readInside, if_pos rfl]

/-- The name of floats stands before a float. -/
theorem readInside_float :
    readInside fuel "Float".toList cursor = do
      let (number, cursor) ← cursor.lexical float? .expectedFloat
      return (.float number, cursor) := by
  rw [readInside, if_neg (by decide), if_pos rfl]

/-- The name of truths stands before a truth. -/
theorem readInside_boolean :
    readInside fuel "Boolean".toList cursor = do
      let (truth, cursor) ← cursor.lexical boolean? .expectedBoolean
      return (.boolean truth, cursor) := by
  rw [readInside, if_neg (by decide), if_neg (by decide), if_pos rfl]

/-- The name of strings stands before a string. -/
theorem readInside_string :
    readInside fuel "String".toList cursor = do
      let (text, cursor) ← readString cursor
      return (.string text, cursor) := by
  rw [readInside, if_neg (by decide), if_neg (by decide), if_neg (by decide), if_pos rfl]

/-- The name of tuples stands before items in brackets. -/
theorem readInside_tuple :
    readInside fuel "Tuple".toList cursor = do
      let cursor ← cursor.expect ['[']
      let (values, cursor) ← readItems fuel true cursor
      return (.tuple values, cursor) := by
  rw [readInside, if_neg (by decide), if_neg (by decide), if_neg (by decide), if_neg (by decide), if_pos rfl]

/-- The name of closures stands before anything with balanced brackets. -/
theorem readInside_closure :
    readInside fuel "Closure".toList cursor = do
      let cursor ← skipInside 0 cursor.rest cursor.position
      return (.closure, cursor) := by
  rw [readInside, if_neg (by decide), if_neg (by decide), if_neg (by decide), if_neg (by decide),
    if_neg (by decide), if_pos rfl]

end

/-- Up to a closing parenthesis the insides that belong to a name are read and nothing else. -/
theorem readInside_eq_ok_iff {fuel : Nat} (hitems : ReadsItems fuel) {name left : Text}
    {cursor next : Cursor} {value : Value} (hlen : cursor.rest.length ≤ fuel)
    (hnext : next.rest = ')' :: left) :
    (readInside fuel name cursor).ending = .ok (value, next) ↔
      ∃ inside, SpellsInside name inside value ∧ cursor.Passes inside next := by
  constructor
  · intro h
    unfold readInside at h
    split at h
    · rename_i hname
      obtain ⟨spelling, hread, rfl⟩ := bind_value_eq_ok_iff.1 h
      obtain ⟨hinteger, hpasses⟩ := (lexical_integer_eq_ok_iff hnext).1 hread
      exact ⟨spelling, hname ▸ .integer hinteger, hpasses⟩
    split at h
    · rename_i hname
      obtain ⟨number, hread, rfl⟩ := bind_value_eq_ok_iff.1 h
      obtain ⟨spelling, hspelling, hpasses⟩ := (lexical_float_eq_ok_iff hnext).1 hread
      exact ⟨spelling, hname ▸ .float hspelling, hpasses⟩
    split at h
    · rename_i hname
      obtain ⟨truth, hread, rfl⟩ := bind_value_eq_ok_iff.1 h
      exact ⟨truthWord truth, hname ▸ .boolean truth, lexical_boolean_eq_ok_iff.1 hread⟩
    split at h
    · rename_i hname
      obtain ⟨text, hread, rfl⟩ := bind_value_eq_ok_iff.1 h
      obtain ⟨literal, hliteral, hpasses⟩ := readString_eq_ok_iff.1 hread
      exact ⟨literal, hname ▸ .string hliteral, hpasses⟩
    split at h
    · rename_i hname
      obtain ⟨inside, hinside, hmore⟩ := Course.bind_eq_ok_iff.1 h
      obtain ⟨values, hread, rfl⟩ := bind_value_eq_ok_iff.1 hmore
      have hopening := Cursor.expect_eq_ok_iff.1 hinside
      have hless : inside.rest.length < fuel :=
        Nat.lt_of_lt_of_le (hopening.length_lt (List.cons_ne_nil _ _)) hlen
      obtain ⟨texts, htexts, hpasses⟩ := (hitems true inside next values hless).1 hread
      exact ⟨'[' :: Text.join [',', ' '] texts ++ [']'], hname ▸ .tuple htexts, hopening.append hpasses⟩
    split at h
    · rename_i hname
      obtain ⟨end', hskip, he⟩ := Course.bind_eq_ok_iff.1 h
      cases he
      obtain ⟨inner, hinner, hpasses⟩ := (skipInside_eq_ok_iff hnext).1 hskip
      exact ⟨inner, hname ▸ .closure hinner, hpasses⟩
    · cases h
  · rintro ⟨inside, hinside, hpasses⟩
    cases hinside with
    | integer hinteger =>
      rw [readInside_integer]
      exact bind_value_eq_ok_iff.2 ⟨_, (lexical_integer_eq_ok_iff hnext).2 ⟨hinteger, hpasses⟩, rfl⟩
    | float hspelling =>
      rw [readInside_float]
      exact bind_value_eq_ok_iff.2 ⟨_, (lexical_float_eq_ok_iff hnext).2 ⟨_, hspelling, hpasses⟩, rfl⟩
    | boolean truth =>
      rw [readInside_boolean]
      exact bind_value_eq_ok_iff.2 ⟨truth, lexical_boolean_eq_ok_iff.2 hpasses, rfl⟩
    | string hliteral =>
      rw [readInside_string]
      exact bind_value_eq_ok_iff.2 ⟨_, readString_eq_ok_iff.2 ⟨_, hliteral, hpasses⟩, rfl⟩
    | @tuple texts items htexts =>
      rw [readInside_tuple]
      obtain ⟨opened, hopening, hlisted⟩ := @Cursor.Passes.split _ _ ['['] _ hpasses
      have hless : opened.rest.length < fuel :=
        Nat.lt_of_lt_of_le (hopening.length_lt (List.cons_ne_nil _ _)) hlen
      refine Course.bind_eq_ok_iff.2 ⟨opened, Cursor.expect_eq_ok_iff.2 hopening, ?_⟩
      refine bind_value_eq_ok_iff.2 ⟨items, ?_, rfl⟩
      exact (hitems true opened next items hless).2 ⟨texts, htexts, hlisted⟩
    | closure hnests =>
      rw [readInside_closure]
      exact Course.bind_eq_ok_iff.2 ⟨next, (skipInside_eq_ok_iff hnext).2 ⟨inside, hnests, hpasses⟩, rfl⟩

/-- A name with its insides in parentheses is passed in four parts. -/
theorem Cursor.passes_called_iff {cursor next : Cursor} {name inside : Text} :
    cursor.Passes (name ++ '(' :: inside ++ [')']) next ↔
      ∃ named opened behind, cursor.Passes name named ∧ named.Passes ['('] opened ∧
        opened.Passes inside behind ∧ behind.Passes [')'] next := by
  have htext : name ++ '(' :: inside ++ [')'] = name ++ (['('] ++ (inside ++ [')'])) := by simp
  rw [htext]
  constructor
  · intro h
    obtain ⟨named, hnamed, h⟩ := h.split
    obtain ⟨opened, hopening, h⟩ := h.split
    obtain ⟨behind, hinside, hclosing⟩ := h.split
    exact ⟨named, opened, behind, hnamed, hopening, hinside, hclosing⟩
  · rintro ⟨named, opened, behind, hnamed, hopening, hinside, hclosing⟩
    exact hnamed.append (hopening.append (hinside.append hclosing))

/-- Behind a name and a parenthesis there is fuel for what is left. -/
theorem length_opened {fuel : Nat} {cursor named opened : Cursor} {name : Text}
    (hlen : cursor.rest.length ≤ fuel + 1) (hnamed : cursor.Passes name named)
    (hopening : named.Passes ['('] opened) : opened.rest.length ≤ fuel := by
  have hnamed_le := hnamed.length_le
  have hopened_lt := hopening.length_lt (List.cons_ne_nil _ _)
  omega

/-- With fuel for the items of a tuple there is fuel for a value one character longer. -/
theorem ReadsItems.readsValues {fuel : Nat} (hitems : ReadsItems fuel) : ReadsValues (fuel + 1) := by
  intro cursor next value hlen
  rw [readValue]
  constructor
  · intro h
    obtain ⟨⟨name, named⟩, hread, hmore⟩ := Course.bind_eq_ok_iff.1 h
    obtain ⟨⟨hname, hstop⟩, hnamed⟩ := lexical_name_eq_ok_iff.1 hread
    simp only at hmore
    split at hmore
    · rename_i hword
      cases hmore
      exact ⟨name, hword ▸ .runtimeInvocation, fun _ => hstop, hnamed⟩
    · obtain ⟨opened, hopen, hmore⟩ := Course.bind_eq_ok_iff.1 hmore
      obtain ⟨⟨value', behind⟩, hinside, hmore⟩ := Course.bind_eq_ok_iff.1 hmore
      obtain ⟨closed, hclose, he⟩ := Course.bind_eq_ok_iff.1 hmore
      cases he
      have hopening := Cursor.expect_eq_ok_iff.1 hopen
      have hclosing := Cursor.expect_eq_ok_iff.1 hclose
      have hless := length_opened hlen hnamed hopening
      obtain ⟨inside, hspells, hpasses⟩ := (readInside_eq_ok_iff hitems hless hclosing.1).1 hinside
      refine ⟨name ++ '(' :: inside ++ [')'], .called hspells, fun he => absurd he hspells.ne_word, ?_⟩
      exact Cursor.passes_called_iff.2 ⟨named, opened, behind, hnamed, hopening, hpasses, hclosing⟩
  · rintro ⟨text, hspells, hhalts, hpasses⟩
    cases hspells with
    | runtimeInvocation =>
      -- The name ends the value, so it must not go on.
      have hname : IsName "RuntimeInvocation".toList := isName_of_all (by decide) rfl
      refine Course.bind_eq_ok_iff.2 ⟨(_, next), lexical_name_eq_ok_iff.2 ⟨⟨hname, hhalts rfl⟩, hpasses⟩, ?_⟩
      exact congrArg Course.ending (if_pos rfl)
    | @called name inside value hinside =>
      obtain ⟨hname, hword⟩ := hinside.isName
      obtain ⟨named, opened, behind, hnamed, hopening, hpasses, hclosing⟩ :=
        Cursor.passes_called_iff.1 hpasses
      have hstop : Halts Char.isAlpha named.rest := by
        rw [hopening.1]
        exact halts_cons rfl
      have hless := length_opened hlen hnamed hopening
      refine Course.bind_eq_ok_iff.2 ⟨(name, named), lexical_name_eq_ok_iff.2 ⟨⟨hname, hstop⟩, hnamed⟩, ?_⟩
      simp only
      rw [if_neg hword]
      refine Course.bind_eq_ok_iff.2 ⟨opened, Cursor.expect_eq_ok_iff.2 hopening, ?_⟩
      refine Course.bind_eq_ok_iff.2 ⟨(value, behind), ?_, ?_⟩
      · exact (readInside_eq_ok_iff hitems hless hclosing.1).2 ⟨inside, hinside, hpasses⟩
      · exact Course.bind_eq_ok_iff.2 ⟨next, Cursor.expect_eq_ok_iff.2 hclosing, rfl⟩

/-- Nothing lies between a place and itself only. -/
theorem Cursor.passes_nil_iff {cursor next : Cursor} : cursor.Passes [] next ↔ next = cursor := by
  obtain ⟨rest, position⟩ := cursor
  obtain ⟨left, position'⟩ := next
  unfold Passes
  constructor
  · rintro ⟨hrest, hposition⟩
    cases hrest
    cases hposition
    rfl
  · intro h
    cases h
    exact ⟨rfl, rfl⟩

/-- The separator that stands before an item is read and nothing else. -/
theorem readSeparator_eq_ok_iff {isFirst : Bool} {cursor next : Cursor} :
    (readSeparator isFirst cursor).ending = .ok next ↔
      cursor.Passes (if isFirst then [] else [',', ' ']) next := by
  cases isFirst with
  | true =>
    show Except.ok cursor = Except.ok next ↔ cursor.Passes [] next
    rw [Cursor.passes_nil_iff, Except.ok.injEq, eq_comm]
  | false => exact Cursor.expect_eq_ok_iff

/-- Where no bracket closes the tuple, an item is read and then the others. -/
theorem readItems_succ {fuel : Nat} {isFirst : Bool} {cursor : Cursor}
    (h : cursor.accept? [']'] = none) :
    readItems (fuel + 1) isFirst cursor = do
      let cursor ← readSeparator isFirst cursor
      let (first, cursor) ← readValue fuel cursor
      let (more, cursor) ← readItems fuel false cursor
      return (first :: more, cursor) := by
  rw [readItems, h]

/-- Behind a separator there is fuel for an item. -/
theorem length_start {fuel : Nat} {cursor start : Cursor} {text : Text}
    (hlen : cursor.rest.length < fuel + 1) (h : cursor.Passes text start) : start.rest.length ≤ fuel :=
  Nat.le_of_lt_succ (Nat.lt_of_le_of_lt h.length_le hlen)

/-- Behind an item there is fuel for the others. -/
theorem length_behind {fuel : Nat} {start behind : Cursor} {text : Text} {value : Value}
    (hless : start.rest.length ≤ fuel) (hvalue : SpellsValue text value) (h : start.Passes text behind) :
    behind.rest.length < fuel :=
  Nat.lt_of_lt_of_le (h.length_lt hvalue.ne_nil) hless

/-- No letter follows an item of a tuple. -/
theorem halts_listed (texts : List Text) (rest : Text) :
    Halts Char.isAlpha (listed false texts ++ [']'] ++ rest) := by
  cases texts with
  | nil => exact halts_cons rfl
  | cons text texts => exact halts_cons rfl

/-- Where the closing bracket is next there are no items, since an item begins with a letter or a comma. -/
theorem readItems_ended_iff {fuel : Nat} {isFirst : Bool} {cursor closed next : Cursor} {values : List Value}
    (haccept : cursor.accept? [']'] = some closed) :
    (readItems (fuel + 1) isFirst cursor).ending = .ok (values, next) ↔
      ∃ texts, SpellsItems texts values ∧ cursor.Passes (listed isFirst texts ++ [']']) next := by
  rw [readItems, haccept]
  have hclosed := Cursor.accept?_eq_some_iff.1 haccept
  constructor
  · intro h
    cases h
    exact ⟨[], .nil, by rw [listed_nil]; exact hclosed⟩
  · rintro ⟨texts, htexts, hpasses⟩
    cases htexts with
    | nil =>
      rw [listed_nil, List.nil_append, ← Cursor.accept?_eq_some_iff, haccept] at hpasses
      cases hpasses
      rfl
    | @cons text value texts values hvalue hmore =>
      obtain ⟨c, more, rfl, hc⟩ := hvalue.exists_letter
      have hrest := hpasses.1
      rw [hclosed.1, listed_cons] at hrest
      cases isFirst with
      | true => exact absurd (List.cons.inj hrest).1.symm (ne_bracket hc)
      | false => cases hrest

/-- Where no closing bracket is next one item is read with the fuel that is left, and so are the items behind it. -/
theorem ReadsItems.item {fuel : Nat} (hvalues : ReadsValues fuel) (hitems : ReadsItems fuel) {isFirst : Bool}
    {cursor next : Cursor} {values : List Value} (hlen : cursor.rest.length < fuel + 1)
    (haccept : cursor.accept? [']'] = none) :
    (readItems (fuel + 1) isFirst cursor).ending = .ok (values, next) ↔
      ∃ texts, SpellsItems texts values ∧ cursor.Passes (listed isFirst texts ++ [']']) next := by
  rw [readItems_succ haccept]
  constructor
  · intro h
    obtain ⟨start, hstart, h⟩ := Course.bind_eq_ok_iff.1 h
    obtain ⟨⟨value, behind⟩, hfirst, h⟩ := Course.bind_eq_ok_iff.1 h
    obtain ⟨⟨more, closed⟩, hmore, he⟩ := Course.bind_eq_ok_iff.1 h
    cases he
    have hseparator := readSeparator_eq_ok_iff.1 hstart
    have hless := length_start hlen hseparator
    obtain ⟨text, hvalue, -, hpasses⟩ := (hvalues start behind value hless).1 hfirst
    have hbehind := length_behind hless hvalue hpasses
    obtain ⟨texts, htexts, hlisted⟩ := (hitems false behind next more hbehind).1 hmore
    refine ⟨text :: texts, .cons hvalue htexts, ?_⟩
    rw [listed_cons, List.append_assoc, List.append_assoc]
    exact hseparator.append (hpasses.append hlisted)
  · rintro ⟨texts, htexts, hpasses⟩
    cases htexts with
    | nil =>
      rw [listed_nil, List.nil_append, ← Cursor.accept?_eq_some_iff, haccept] at hpasses
      cases hpasses
    | @cons text value texts more hvalue hmore =>
      rw [listed_cons, List.append_assoc, List.append_assoc] at hpasses
      obtain ⟨start, hseparator, hpasses⟩ := hpasses.split
      obtain ⟨behind, hpasses, hlisted⟩ := hpasses.split
      have hless := length_start hlen hseparator
      have hbehind := length_behind hless hvalue hpasses
      have hhalts : Halts Char.isAlpha behind.rest := by
        rw [hlisted.1]
        exact halts_listed texts next.rest
      refine Course.bind_eq_ok_iff.2 ⟨start, readSeparator_eq_ok_iff.2 hseparator, ?_⟩
      refine Course.bind_eq_ok_iff.2 ⟨(value, behind), ?_, ?_⟩
      · exact (hvalues start behind value hless).2 ⟨text, hvalue, fun _ => hhalts, hpasses⟩
      · exact Course.bind_eq_ok_iff.2
          ⟨(more, next), (hitems false behind next more hbehind).2 ⟨texts, hmore, hlisted⟩, rfl⟩

/-- With fuel for a value and the items behind it there is fuel for items one character longer. -/
theorem ReadsItems.succ {fuel : Nat} (hvalues : ReadsValues fuel) (hitems : ReadsItems fuel) :
    ReadsItems (fuel + 1) := by
  intro isFirst cursor next values hlen
  cases haccept : cursor.accept? [']'] with
  | some closed => exact readItems_ended_iff haccept
  | none => exact hitems.item hvalues hlen haccept

/-- Without fuel there is no text, and no value in it. -/
theorem readsValues_zero : ReadsValues 0 := by
  intro cursor next value hlen
  have hnil : cursor.rest = [] := List.length_eq_zero_iff.1 (Nat.le_zero.1 hlen)
  rw [readValue]
  constructor
  · intro h
    cases h
  · rintro ⟨text, hvalue, -, hpasses⟩
    obtain ⟨c, more, rfl, -⟩ := hvalue.exists_letter
    have hrest := hpasses.1
    rw [hnil] at hrest
    cases hrest

/-- Values and items are read with any fuel: the insides of a value have less text than the value. -/
theorem readsValues_readsItems (fuel : Nat) : ReadsValues fuel ∧ ReadsItems fuel := by
  -- Values take one unit more than the items inside them, and items one more than the values among them; the
  -- bounds on the length (at most the fuel, and less than the fuel) make both inductions one.
  induction fuel with
  | zero => exact ⟨readsValues_zero, fun _ _ _ _ hlen => absurd hlen (Nat.not_lt_zero _)⟩
  | succ fuel ih => exact ⟨ih.2.readsValues, ih.2.succ ih.1⟩

/-- The reader of values takes a value and nothing else. -/
theorem readValue_eq_ok_iff {fuel : Nat} {cursor next : Cursor} {value : Value}
    (hlen : cursor.rest.length ≤ fuel) :
    (readValue fuel cursor).ending = .ok (value, next) ↔
      ∃ text, SpellsValue text value ∧ (value = .runtimeInvocation → Halts Char.isAlpha next.rest) ∧
        cursor.Passes text next :=
  (readsValues_readsItems fuel).1 cursor next value hlen

end GuidedTour.Outcome
