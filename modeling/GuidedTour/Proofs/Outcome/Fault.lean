import GuidedTour.Proofs.Outcome.Result

/-!
# Codes past the last one

The readers of a printed result give up in two ways: at a place, with a reason, or with a code that names
no character. The second happens for the results that break off inside a string literal at an escape with
such a code (`ResultBreaksOff`), and for no others (`Interpreter.resultOf_eq_fault_iff`). What stands before
the literal has been read in full: the earlier items of a tuple, or the insides of a closure up to there.
-/

set_option autoImplicit false

namespace GuidedTour

namespace Outcome

/-! ## Literals -/

/-- The body of a literal breaks off: it goes on with an escape for a code past the last one. -/
def BodyBreaksOff (code : Nat) (rest : Text) : Prop :=
  ∃ body text digits left, SpellsBody body text ∧ IsCode digits code ∧ lastCode < code ∧
    rest = body ++ codeEscape digits ++ left

/-- A literal breaks off: its body does. -/
def StringBreaksOff (code : Nat) (literal : Text) : Prop :=
  ∃ rest, BodyBreaksOff code rest ∧ literal = '"' :: rest

/-- A body breaks off behind a piece if it does so without the piece. -/
theorem bodyBreaksOff_cons {piece rest : Text} {p : CodePoint} {code : Nat} (h : SpellsChar piece p)
    (hrest : BodyBreaksOff code rest) : BodyBreaksOff code (piece ++ rest) := by
  obtain ⟨body, text, digits, left, hbody, hcode, hlast, rfl⟩ := hrest
  refine ⟨piece ++ body, p :: text, digits, left, .cons h hbody, hcode, hlast, ?_⟩
  simp only [List.append_assoc]

/-- A string that is given up with a code breaks off at that code. -/
theorem bodyBreaksOff_of_stringBody {rest : Text} {position code : Nat}
    (h : (stringBody rest position).ending = .error (.noSuchCharacter code)) : BodyBreaksOff code rest := by
  fun_induction stringBody rest position with
  | case1 => cases h
  | case2 => cases h
  | case3 => cases h
  | case4 => cases h
  | case5 position rest code' left hb hp =>
    cases h
    obtain ⟨digits, hcode, hrest⟩ := braced?_eq_some_iff.1 hb
    refine ⟨[], [], digits, left, .nil, hcode, CodePoint.ofNat?_eq_none_iff.1 hp, ?_⟩
    simp [codeEscape, hrest]
  | case6 position rest code' left hb p hp ih =>
    obtain ⟨digits, hcode, hrest⟩ := braced?_eq_some_iff.1 hb
    cases CodePoint.ofNat?_eq_some_iff.1 hp
    have hpiece : SpellsChar (codeEscape digits) p := .code hcode
    have htext : '\\' :: 'u' :: rest = codeEscape digits ++ left := by
      simp [codeEscape, hrest]
    rw [htext]
    exact bodyBreaksOff_cons hpiece (ih (Course.map_eq_error_iff.1 h))
  | case7 => cases h
  | case8 position letter rest _ c hc ih =>
    exact bodyBreaksOff_cons (.escape (escaped?_eq_some_iff.1 hc)) (ih (Course.map_eq_error_iff.1 h))
  | case9 position c rest hquote hlone hu hletter ih =>
    have hbackslash : c ≠ '\\' := ne_backslash hlone hletter
    exact bodyBreaksOff_cons (.plain hquote hbackslash) (ih (Course.map_eq_error_iff.1 h))

/-- A string is given up with a code exactly where it breaks off at that code. -/
theorem stringBody_eq_noSuchCharacter_iff {rest : Text} {position code : Nat} :
    (stringBody rest position).ending = .error (.noSuchCharacter code) ↔ BodyBreaksOff code rest := by
  constructor
  · exact bodyBreaksOff_of_stringBody
  · rintro ⟨body, text, digits, left, hbody, hcode, hlast, rfl⟩
    have htext : codeEscape digits ++ left = '\\' :: 'u' :: ('{' :: digits ++ '}' :: left) := by
      simp [codeEscape]
    have hbraced : braced? ('{' :: digits ++ '}' :: left) = some (code, left) :=
      braced?_eq_some_iff.2 ⟨digits, hcode, rfl⟩
    rw [List.append_assoc, stringBody_body hbody, htext, stringBody]
    split
    · rename_i hnone
      rw [hbraced] at hnone
      cases hnone
    · rename_i code' left' hsome
      rw [hbraced] at hsome
      cases hsome
      rw [CodePoint.ofNat?_eq_none_iff.2 hlast]
      rfl

/-- A text that is missing is no code past the last one. -/
theorem expect_ne_noSuchCharacter {cursor : Cursor} {text : Text} {code : Nat} :
    (cursor.expect text).ending ≠ .error (.noSuchCharacter code) := by
  unfold Cursor.expect Cursor.fail
  intro h
  split at h <;> cases h

/-- A lexical form that is missing is no code past the last one. -/
theorem lexical_ne_noSuchCharacter {α : Type} {cursor : Cursor} {form : Text → Option (α × Text)}
    {reason : Reason} {code : Nat} : (cursor.lexical form reason).ending ≠ .error (.noSuchCharacter code) := by
  unfold Cursor.lexical Cursor.fail
  intro h
  split at h <;> cases h

/-- A literal is given up with a code exactly where it breaks off at that code. -/
theorem readString_eq_noSuchCharacter_iff {cursor : Cursor} {code : Nat} :
    (readString cursor).ending = .error (.noSuchCharacter code) ↔ StringBreaksOff code cursor.rest := by
  unfold readString
  rw [Course.bind_eq_error_iff]
  constructor
  · rintro (h | ⟨inside, hinside, hbody⟩)
    · exact absurd h expect_ne_noSuchCharacter
    · have hopening := Cursor.expect_eq_ok_iff.1 hinside
      exact ⟨inside.rest, stringBody_eq_noSuchCharacter_iff.1 hbody, hopening.1⟩
  · rintro ⟨rest, hbody, hrest⟩
    refine .inr ⟨⟨rest, cursor.position + 1⟩, Cursor.expect_eq_ok_iff.2 ⟨hrest, rfl⟩, ?_⟩
    exact stringBody_eq_noSuchCharacter_iff.2 hbody

/-! ## Closures -/

/-- The insides of a closure break off: they lead to some depth, and there a literal breaks off. -/
def NestsBreaksOff (code : Nat) (depth : Nat) (rest : Text) : Prop :=
  ∃ inner depth' literal, Nests depth inner depth' ∧ StringBreaksOff code literal ∧ rest = inner ++ literal

/-- The insides of a closure that are given up with a code break off at that code. -/
theorem nestsBreaksOff_of_skipInside {depth position code : Nat} {rest : Text}
    (h : (skipInside depth rest position).ending = .error (.noSuchCharacter code)) :
    NestsBreaksOff code depth rest := by
  fun_induction skipInside depth rest position with
  | case1 => cases h
  | case2 depth position left positions e hread =>
    cases h
    have hbody := stringBody_eq_noSuchCharacter_iff.1 (congrArg Course.ending hread)
    exact ⟨[], depth, '"' :: left, .nil depth, ⟨left, hbody, rfl⟩, rfl⟩
  | case3 depth position left positions text cursor hread ih =>
    obtain ⟨inner, depth', literal, hinner, hliteral, hrest⟩ := ih h
    obtain ⟨body, hbody, hleft, -⟩ := stringBody_eq_ok_iff.1 (congrArg Course.ending hread)
    refine ⟨'"' :: body ++ ['"'] ++ inner, depth', literal, .literal ⟨body, hbody, rfl⟩ hinner, hliteral, ?_⟩
    rw [hleft, hrest]
    simp
  | case4 depth position c left hquote hopens ih =>
    obtain ⟨inner, depth', literal, hinner, hliteral, hrest⟩ := ih h
    exact ⟨c :: inner, depth', literal, .opening hopens hinner, hliteral, congrArg _ hrest⟩
  | case5 => cases h
  | case6 depth position c left hquote hopens hcloses hdepth ih =>
    obtain ⟨inner, depth', literal, hinner, hliteral, hrest⟩ := ih h
    obtain ⟨depth, rfl⟩ := Nat.exists_eq_succ_of_ne_zero hdepth
    exact ⟨c :: inner, depth', literal, .closing hcloses hinner, hliteral, congrArg _ hrest⟩
  | case7 depth position c left hquote hopens hcloses ih =>
    obtain ⟨inner, depth', literal, hinner, hliteral, hrest⟩ := ih h
    exact ⟨c :: inner, depth', literal, .other hquote (by simpa using hopens) (by simpa using hcloses) hinner,
      hliteral, congrArg _ hrest⟩

/-- The insides of a closure are given up with a code exactly where they break off at that code. -/
theorem skipInside_eq_noSuchCharacter_iff {depth position code : Nat} {rest : Text} :
    (skipInside depth rest position).ending = .error (.noSuchCharacter code) ↔ NestsBreaksOff code depth rest := by
  constructor
  · exact nestsBreaksOff_of_skipInside
  · rintro ⟨inner, depth', literal, hinner, ⟨left, hbody, rfl⟩, rfl⟩
    rw [skipInside_append hinner, skipInside_quote, stringBody_eq_noSuchCharacter_iff.2 hbody]
    rfl

/-! ## Values -/

mutual

/-- The text of a value breaks off in one of its literals. -/
inductive ValueBreaksOff (code : Nat) : Text → Prop where
  | called {name rest : Text} (inside : InsideBreaksOff code name rest) :
      ValueBreaksOff code (name ++ '(' :: rest)

/-- The insides of a value break off. Those of a tuple do so behind some items that are complete. -/
inductive InsideBreaksOff (code : Nat) : Text → Text → Prop where
  | string {literal : Text} (breaksOff : StringBreaksOff code literal) :
      InsideBreaksOff code "String".toList literal
  | closure {rest : Text} (breaksOff : NestsBreaksOff code 0 rest) :
      InsideBreaksOff code "Closure".toList rest
  | tuple {texts : List Text} {items : List Value} {rest : Text} (texts_items : SpellsItems texts items)
      (breaksOff : ValueBreaksOff code rest) :
      InsideBreaksOff code "Tuple".toList ('[' :: texts.flatMap (· ++ [',', ' ']) ++ rest)

end

/-- The items of a tuple break off behind some that are complete. -/
def ItemsBreakOff (code : Nat) (isFirst : Bool) (rest : Text) : Prop :=
  ∃ texts items value, SpellsItems texts items ∧ ValueBreaksOff code value ∧
    rest = (if isFirst then [] else [',', ' ']) ++ texts.flatMap (· ++ [',', ' ']) ++ value

/-- What stands before parentheses that break off is a name, and not that of the value without any. -/
theorem InsideBreaksOff.isName {code : Nat} {name rest : Text} (h : InsideBreaksOff code name rest) :
    IsName name ∧ name ≠ "RuntimeInvocation".toList := by
  cases h <;> exact ⟨isName_of_all (by decide) rfl, by decide⟩

/-- A value that breaks off begins with a letter. -/
theorem ValueBreaksOff.exists_letter {code : Nat} {text : Text} (h : ValueBreaksOff code text) :
    ∃ c more, text = c :: more ∧ c.isAlpha = true := by
  obtain ⟨h⟩ := h
  obtain ⟨⟨hne, hletters⟩, -⟩ := h.isName
  obtain ⟨c, more, rfl⟩ := List.exists_cons_of_ne_nil hne
  exact ⟨c, _, rfl, hletters c List.mem_cons_self⟩

/-- With this much fuel, the reader of items gives up with a code exactly where the items break off. -/
def ItemsFault (fuel : Nat) : Prop :=
  ∀ (code : Nat) (isFirst : Bool) (cursor : Cursor), cursor.rest.length < fuel →
    ((readItems fuel isFirst cursor).ending = .error (.noSuchCharacter code) ↔
      ItemsBreakOff code isFirst cursor.rest)

/-- With this much fuel, the reader of values gives up with a code exactly where the value breaks off. -/
def ValuesFault (fuel : Nat) : Prop :=
  ∀ (code : Nat) (cursor : Cursor), cursor.rest.length ≤ fuel →
    ((readValue fuel cursor).ending = .error (.noSuchCharacter code) ↔ ValueBreaksOff code cursor.rest)

/-- A value made of what a reader comes to is given up exactly where that is. -/
theorem bind_value_eq_error_iff {α : Type} {course : Course (α × Cursor)} {f : α → Value}
    {e : ReadError} :
    Course.ending (do let (a, cursor) ← course; return (f a, cursor)) = .error e ↔ course.ending = .error e := by
  rw [Course.bind_eq_error_iff]
  constructor
  · rintro (h | ⟨⟨a, cursor⟩, -, h⟩)
    · exact h
    · cases h
  · exact .inl

/-- The insides that belong to a name are given up with a code exactly where they break off at that code. -/
theorem readInside_eq_noSuchCharacter_iff {fuel code : Nat} (hitems : ItemsFault fuel) {name : Text}
    {cursor : Cursor} (hlen : cursor.rest.length ≤ fuel) :
    (readInside fuel name cursor).ending = .error (.noSuchCharacter code) ↔
      InsideBreaksOff code name cursor.rest := by
  have hless {opened : Cursor} (h : cursor.Passes ['['] opened) : opened.rest.length < fuel :=
    Nat.lt_of_lt_of_le (h.length_lt (List.cons_ne_nil _ _)) hlen
  constructor
  · intro h
    unfold readInside at h
    split at h
    · exact absurd (bind_value_eq_error_iff.1 h) lexical_ne_noSuchCharacter
    split at h
    · exact absurd (bind_value_eq_error_iff.1 h) lexical_ne_noSuchCharacter
    split at h
    · exact absurd (bind_value_eq_error_iff.1 h) lexical_ne_noSuchCharacter
    split at h
    · rename_i hname
      exact hname ▸ .string (readString_eq_noSuchCharacter_iff.1 (bind_value_eq_error_iff.1 h))
    split at h
    · rename_i hname
      obtain h | ⟨opened, hopen, h⟩ := Course.bind_eq_error_iff.1 h
      · exact absurd h expect_ne_noSuchCharacter
      · have hopening := Cursor.expect_eq_ok_iff.1 hopen
        obtain ⟨texts, items, rest, htexts, hrest, he⟩ :=
          (hitems code true opened (hless hopening)).1 (bind_value_eq_error_iff.1 h)
        have htext : cursor.rest = '[' :: texts.flatMap (· ++ [',', ' ']) ++ rest := by
          rw [hopening.1, he]
          rfl
        rw [hname, htext]
        exact .tuple htexts hrest
    split at h
    · rename_i hname
      obtain h | ⟨end', -, h⟩ := Course.bind_eq_error_iff.1 h
      · exact hname ▸ .closure (skipInside_eq_noSuchCharacter_iff.1 h)
      · cases h
    · cases h
  · intro h
    generalize hrest : cursor.rest = rest at h
    cases h with
    | string hliteral =>
      rw [readInside_string]
      exact bind_value_eq_error_iff.2 (readString_eq_noSuchCharacter_iff.2 (hrest ▸ hliteral))
    | closure hnests =>
      rw [readInside_closure]
      exact Course.bind_eq_error_iff.2 (.inl (skipInside_eq_noSuchCharacter_iff.2 (hrest ▸ hnests)))
    | @tuple texts items rest htexts hbreaks =>
      rw [readInside_tuple]
      obtain ⟨opened, hopening, hbegins⟩ := @Cursor.exists_passes cursor ['['] _ hrest
      refine Course.bind_eq_error_iff.2 (.inr ⟨opened, Cursor.expect_eq_ok_iff.2 hopening, ?_⟩)
      refine bind_value_eq_error_iff.2 ((hitems code true opened (hless hopening)).2 ?_)
      exact ⟨texts, items, rest, htexts, hbreaks, hbegins⟩

/-- With fuel for the items of a tuple there is fuel for a value one character longer. -/
theorem ItemsFault.valuesFault {fuel : Nat} (hitems : ItemsFault fuel) : ValuesFault (fuel + 1) := by
  intro code cursor hlen
  rw [readValue]
  constructor
  · intro h
    obtain h | ⟨⟨name, named⟩, hread, h⟩ := Course.bind_eq_error_iff.1 h
    · exact absurd h lexical_ne_noSuchCharacter
    obtain ⟨-, hnamed⟩ := lexical_name_eq_ok_iff.1 hread
    simp only at h
    split at h
    · cases h
    obtain h | ⟨opened, hopen, h⟩ := Course.bind_eq_error_iff.1 h
    · exact absurd h expect_ne_noSuchCharacter
    have hopening := Cursor.expect_eq_ok_iff.1 hopen
    -- A code is met inside the parentheses or not at all.
    obtain h | ⟨⟨value, behind⟩, hinside, h⟩ := Course.bind_eq_error_iff.1 h
    · rw [hnamed.1, hopening.1]
      exact .called ((readInside_eq_noSuchCharacter_iff hitems (length_opened hlen hnamed hopening)).1 h)
    obtain h | ⟨closed, hclose, h⟩ := Course.bind_eq_error_iff.1 h
    · exact absurd h expect_ne_noSuchCharacter
    · cases h
  · intro h
    generalize hrest : cursor.rest = text at h
    obtain ⟨hinside⟩ := h
    rename_i name rest
    obtain ⟨hname, hword⟩ := hinside.isName
    obtain ⟨named, hnamed, hbracket⟩ := Cursor.exists_passes hrest
    obtain ⟨opened, hopening, hbegins⟩ := @Cursor.exists_passes named ['('] rest hbracket
    have hhalts : Halts Char.isAlpha named.rest := by
      rw [hbracket]
      exact halts_cons rfl
    refine Course.bind_eq_error_iff.2 (.inr ⟨(name, named), lexical_name_eq_ok_iff.2 ⟨⟨hname, hhalts⟩, hnamed⟩, ?_⟩)
    simp only
    rw [if_neg hword]
    refine Course.bind_eq_error_iff.2 (.inr ⟨opened, Cursor.expect_eq_ok_iff.2 hopening, ?_⟩)
    refine Course.bind_eq_error_iff.2 (.inl ?_)
    rw [readInside_eq_noSuchCharacter_iff hitems (length_opened hlen hnamed hopening), hbegins]
    exact hinside

/-- Where items break off there is no closing bracket next. -/
theorem ItemsBreakOff.accept?_eq_none {code : Nat} {isFirst : Bool} {cursor : Cursor}
    (h : ItemsBreakOff code isFirst cursor.rest) : cursor.accept? [']'] = none := by
  obtain ⟨texts, items, value, htexts, hvalue, hrest⟩ := h
  obtain ⟨c, more, rfl, hc⟩ := hvalue.exists_letter
  cases haccept : cursor.accept? [']'] with
  | none => rfl
  | some closed =>
    have hclosed := (Cursor.accept?_eq_some_iff.1 haccept).1
    rw [hrest] at hclosed
    cases isFirst with
    | false => cases hclosed
    | true =>
      cases htexts with
      | nil => exact absurd (List.cons.inj hclosed).1 (ne_bracket hc)
      | cons hfirst hmore =>
        obtain ⟨d, inner, rfl, hd⟩ := hfirst.exists_letter
        exact absurd (List.cons.inj hclosed).1 (ne_bracket hd)

/-- A separator that is missing is no code past the last one. -/
theorem readSeparator_ne_noSuchCharacter {isFirst : Bool} {cursor : Cursor} {code : Nat} :
    (readSeparator isFirst cursor).ending ≠ .error (.noSuchCharacter code) := by
  cases isFirst with
  | true => exact fun h => nomatch h
  | false => exact expect_ne_noSuchCharacter

/-- With fuel for a value and the items behind it there is fuel for items one character longer. -/
theorem ItemsFault.succ {fuel : Nat} (hreads : ReadsValues fuel) (hvalues : ValuesFault fuel)
    (hitems : ItemsFault fuel) : ItemsFault (fuel + 1) := by
  intro code isFirst cursor hlen
  constructor
  · intro h
    cases haccept : cursor.accept? [']'] with
    | some closed =>
      rw [readItems, haccept] at h
      cases h
    | none =>
      rw [readItems_succ haccept] at h
      obtain h | ⟨start, hread, h⟩ := Course.bind_eq_error_iff.1 h
      · exact absurd h readSeparator_ne_noSuchCharacter
      have hseparator := readSeparator_eq_ok_iff.1 hread
      have hless := length_start hlen hseparator
      -- Either this item breaks off, or it is complete and a later one does.
      obtain h | ⟨⟨value, behind⟩, hfirst, h⟩ := Course.bind_eq_error_iff.1 h
      · refine ⟨[], [], start.rest, .nil, (hvalues code start hless).1 h, ?_⟩
        rw [hseparator.1]
        simp
      obtain ⟨text, hvalue, -, hpasses⟩ := (hreads start behind value hless).1 hfirst
      obtain h | ⟨⟨more, closed⟩, -, h⟩ := Course.bind_eq_error_iff.1 h
      · obtain ⟨texts, items, rest, htexts, hrest, he⟩ :=
          (hitems code false behind (length_behind hless hvalue hpasses)).1 h
        refine ⟨text :: texts, value :: items, rest, .cons hvalue htexts, hrest, ?_⟩
        rw [hseparator.1, hpasses.1, he]
        simp
      · cases h
  · intro h
    rw [readItems_succ h.accept?_eq_none]
    obtain ⟨texts, items, rest, htexts, hrest, he⟩ := h
    rw [List.append_assoc] at he
    obtain ⟨start, hseparator, hbegins⟩ := Cursor.exists_passes he
    have hless := length_start hlen hseparator
    refine Course.bind_eq_error_iff.2 (.inr ⟨start, readSeparator_eq_ok_iff.2 hseparator, ?_⟩)
    cases htexts with
    | nil =>
      refine Course.bind_eq_error_iff.2 (.inl ((hvalues code start hless).2 ?_))
      rw [hbegins]
      exact hrest
    | @cons text value texts items hvalue hmore =>
      rw [List.flatMap_cons, List.append_assoc, List.append_assoc] at hbegins
      obtain ⟨behind, hpasses, hnext⟩ := Cursor.exists_passes hbegins
      have hhalts : Halts Char.isAlpha behind.rest := by
        rw [hnext]
        exact halts_cons rfl
      refine Course.bind_eq_error_iff.2 (.inr ⟨(value, behind), ?_, Course.bind_eq_error_iff.2 (.inl ?_)⟩)
      · exact (hreads start behind value hless).2 ⟨text, hvalue, fun _ => hhalts, hpasses⟩
      · refine (hitems code false behind (length_behind hless hvalue hpasses)).2 ?_
        exact ⟨texts, items, rest, hmore, hrest, by rw [hnext, List.append_assoc]; rfl⟩

/-- Without fuel there is no text, and no value that breaks off in it. -/
theorem valuesFault_zero : ValuesFault 0 := by
  intro code cursor hlen
  have hnil : cursor.rest = [] := List.length_eq_zero_iff.1 (Nat.le_zero.1 hlen)
  rw [readValue]
  constructor
  · intro h
    cases h
  · intro h
    obtain ⟨c, more, hrest, -⟩ := h.exists_letter
    rw [hnil] at hrest
    cases hrest

/-- Values and items are given up with a code exactly where they break off, with any fuel. -/
theorem valuesFault_itemsFault (fuel : Nat) : ValuesFault fuel ∧ ItemsFault fuel := by
  induction fuel with
  | zero => exact ⟨valuesFault_zero, fun _ _ _ hlen => absurd hlen (Nat.not_lt_zero _)⟩
  | succ fuel ih => exact ⟨ih.2.valuesFault, ih.2.succ (readsValues_readsItems fuel).1 ih.1⟩

/-! ## Results -/

/-- The text of a result breaks off in one of its literals. -/
inductive ResultBreaksOff (code : Nat) : Text → Prop where
  | value {rest : Text} (breaksOff : ValueBreaksOff code rest) :
      ResultBreaksOff code ("Ok".toList ++ '(' :: rest)
  | error {literal : Text} (breaksOff : StringBreaksOff code literal) :
      ResultBreaksOff code ("Err".toList ++ '(' :: literal)

/-- What stands behind a result is no code past the last one. -/
theorem readEnd_ne_noSuchCharacter {cursor : Cursor} {code : Nat} :
    (readEnd cursor).ending ≠ .error (.noSuchCharacter code) := by
  unfold readEnd Cursor.fail
  intro h
  obtain h | ⟨closed, -, h⟩ := Course.bind_eq_error_iff.1 h
  · exact expect_ne_noSuchCharacter h
  · split at h <;> cases h

/-- Behind the first verdict a code is met exactly where a value breaks off at it. -/
theorem readVerdict_ok_eq_noSuchCharacter_iff {fuel code : Nat} {opened : Cursor}
    (hlen : opened.rest.length ≤ fuel) :
    (readVerdict fuel "Ok".toList opened).ending = .error (.noSuchCharacter code) ↔
      ValueBreaksOff code opened.rest := by
  rw [← (valuesFault_itemsFault fuel).1 code opened hlen]
  unfold readVerdict
  rw [if_pos rfl, Course.bind_eq_error_iff]
  constructor
  · rintro (h | ⟨r, -, h⟩)
    · exact h
    · cases h
  · exact .inl

/-- Behind the second verdict a code is met exactly where a literal breaks off at it. -/
theorem readVerdict_err_eq_noSuchCharacter_iff {fuel code : Nat} {opened : Cursor} :
    (readVerdict fuel "Err".toList opened).ending = .error (.noSuchCharacter code) ↔
      StringBreaksOff code opened.rest := by
  rw [← readString_eq_noSuchCharacter_iff]
  unfold readVerdict
  rw [if_neg (by decide), Course.bind_eq_error_iff]
  constructor
  · rintro (h | ⟨r, -, h⟩)
    · exact h
    · cases h
  · exact .inl

/-- A result is given up with the code that is met behind its verdict. -/
theorem ofText_eq_noSuchCharacter_of_verdict {verdict rest : Text} {code : Nat}
    (hknown : verdict = "Ok".toList ∨ verdict = "Err".toList)
    (hread : (readVerdict (verdict ++ '(' :: rest).length verdict ⟨rest, verdict.length + 1⟩).ending =
      .error (.noSuchCharacter code)) :
    ofText (verdict ++ '(' :: rest) = .error (.noSuchCharacter code) := by
  rw [ofText_verdict hknown, courseBehind, Course.ending_bind, hread]
  rfl

/-- A result is given up with a code exactly where it breaks off at that code. -/
theorem ofText_eq_noSuchCharacter_iff {text : Text} {code : Nat} :
    ofText text = .error (.noSuchCharacter code) ↔ ResultBreaksOff code text := by
  constructor
  · intro h
    obtain h | ⟨⟨verdict, named⟩, hread, h⟩ := Course.bind_eq_error_iff.1 h
    · exact absurd h lexical_ne_noSuchCharacter
    obtain ⟨-, hnamed⟩ := lexical_name_eq_ok_iff.1 hread
    simp only at h
    split at h
    · cases h
    rename_i hverdict
    obtain h | ⟨opened, hopen, h⟩ := Course.bind_eq_error_iff.1 h
    · exact absurd h expect_ne_noSuchCharacter
    have hopening := Cursor.expect_eq_ok_iff.1 hopen
    have htext : text = verdict ++ '(' :: opened.rest := by
      have hrest : text = verdict ++ named.rest := hnamed.1
      rw [hrest, hopening.1]
      rfl
    obtain h | ⟨⟨outcome, behind⟩, -, h⟩ := Course.bind_eq_error_iff.1 h
    · rw [htext]
      by_cases hok : verdict = "Ok".toList
      · subst hok
        have hless : opened.rest.length ≤ text.length := by
          rw [htext]
          simp
          omega
        exact .value ((readVerdict_ok_eq_noSuchCharacter_iff hless).1 h)
      · have herr : verdict = "Err".toList := Decidable.byContradiction fun herr => hverdict ⟨hok, herr⟩
        subst herr
        exact .error (readVerdict_err_eq_noSuchCharacter_iff.1 h)
    obtain h | ⟨⟨⟩, -, h⟩ := Course.bind_eq_error_iff.1 h
    · exact absurd h readEnd_ne_noSuchCharacter
    · cases h
  · intro h
    cases h with
    | @value rest hvalue =>
      refine ofText_eq_noSuchCharacter_of_verdict (.inl rfl) ?_
      refine (readVerdict_ok_eq_noSuchCharacter_iff ?_).2 hvalue
      simp
      omega
    | @error literal hliteral =>
      refine ofText_eq_noSuchCharacter_of_verdict (.inr rfl) ?_
      exact readVerdict_err_eq_noSuchCharacter_iff.2 hliteral

end Outcome

/-- An interpreter fails beyond its own errors exactly on the outputs that break off, and in no other way. -/
theorem Interpreter.resultOf_eq_fault_iff {output : Text} {fault : Fault} :
    resultOf output = .error (.fault fault) ↔
      ∃ code, fault = .noSuchCharacter code ∧ Outcome.ResultBreaksOff code (Text.strip output) := by
  have hread (code : Nat) : Outcome.read output = .error (.noSuchCharacter code) ↔
      Outcome.ResultBreaksOff code (Text.strip output) := Outcome.ofText_eq_noSuchCharacter_iff
  simp only [← hread]
  unfold resultOf
  cases Outcome.read output with
  | ok outcome =>
    cases outcome with
    | value value => simp
    | error report => simp
  | error e =>
    cases e with
    | unreadable reason position => simp
    | noSuchCharacter code => simp [eq_comm]

end GuidedTour
