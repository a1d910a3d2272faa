import GuidedTour.Proofs.Outcome.Positions
import GuidedTour.Proofs.Outcome.PrefixFree

/-!
# Results that end in a backslash

How a reading changes when its text goes on with a backslash. No name, number or bracket takes the backslash in, so each
reader comes to what it came to before, with the backslash left behind it, or gives up for the same reason at the same
place, unless the text ended inside a string or a closure (`ReadError.withBackslash`, `ofText_backslash`). It follows
which texts lead a reader past their end: those that end in a backslash inside an open string, and no others
(`Dangles`, `ofText_eq_unknownEscape_iff`).
-/

set_option autoImplicit false

namespace GuidedTour

namespace Outcome

/-! ## Lexical forms before a backslash -/

section

variable {p : Char → Bool}

/-- A run of characters other than backslashes does not go on with one. -/
theorem takeWhile_backslash (h : p '\\' = false) (text : Text) : (text ++ ['\\']).takeWhile p = text.takeWhile p := by
  induction text with
  | nil => exact List.takeWhile_cons_of_neg (by simp [h])
  | cons c text ih => rw [List.cons_append, List.takeWhile_cons, List.takeWhile_cons, ih]

/-- Behind a run of characters other than backslashes a backslash is left. -/
theorem dropWhile_backslash (h : p '\\' = false) (text : Text) :
    (text ++ ['\\']).dropWhile p = text.dropWhile p ++ ['\\'] := by
  induction text with
  | nil => exact List.dropWhile_cons_of_neg (by simp [h])
  | cons c text ih =>
    rw [List.cons_append, List.dropWhile_cons, List.dropWhile_cons, ih]
    split <;> rfl

end

/-- A word without backslashes begins a text that goes on with one exactly if it did before. -/
theorem isPrefixOf_backslash {word : Text} (h : '\\' ∉ word) (text : Text) :
    word.isPrefixOf (text ++ ['\\']) = word.isPrefixOf text := by
  induction word generalizing text with
  | nil => simp
  | cons c word ih =>
    obtain ⟨hc, hword⟩ := List.ne_and_not_mem_of_not_mem_cons h
    cases text with
    | nil => simp [List.isPrefixOf, Ne.symm hc]
    | cons d text => rw [List.cons_append, List.isPrefixOf, List.isPrefixOf, ih hword]

/-- Behind the word that a text begins with a backslash is left. -/
theorem drop_backslash {word text : Text} (h : word.isPrefixOf text = true) :
    (text ++ ['\\']).drop word.length = text.drop word.length ++ ['\\'] :=
  List.drop_append_of_le_length (List.isPrefixOf_iff_prefix.1 h).length_le

/-- A lexical form leaves a backslash behind it as it is. -/
def LeavesBackslash {α : Type} (form : Text → Option (α × Text)) : Prop :=
  ∀ text, form (text ++ ['\\']) = (form text).map (Prod.map id (· ++ ['\\']))

/-- The reader of names leaves a backslash. -/
theorem leavesBackslash_name : LeavesBackslash name? := by
  intro text
  unfold name?
  rw [takeWhile_backslash rfl, dropWhile_backslash rfl]
  split <;> rfl

/-- Digits do not go on with a backslash. -/
theorem digits_backslash (text : Text) : digits (text ++ ['\\']) = ((digits text).1, (digits text).2 ++ ['\\']) := by
  unfold digits
  rw [takeWhile_backslash rfl, dropWhile_backslash rfl]

/-- A sign does not go on with a backslash. -/
theorem sign_backslash (text : Text) : sign (text ++ ['\\']) = ((sign text).1, (sign text).2 ++ ['\\']) := by
  unfold sign
  split
  · rename_i rest htext
    cases text with
    | nil => cases htext
    | cons c text =>
      cases htext
      rfl
  · rename_i hminus
    split
    · rename_i rest
      exact absurd rfl (hminus (rest ++ ['\\']))
    · rfl

/-- The reader of integers leaves a backslash. -/
theorem leavesBackslash_integer : LeavesBackslash integer? := by
  intro text
  unfold integer?
  simp only [sign_backslash, digits_backslash]
  split <;> rfl

/-- A fraction does not go on with a backslash. -/
theorem fractionDigits_backslash (text : Text) :
    fractionDigits (text ++ ['\\']) = ((fractionDigits text).1, (fractionDigits text).2 ++ ['\\']) := by
  cases text with
  | nil => rfl
  | cons c text =>
    by_cases hc : c = '.'
    · subst hc
      rw [List.cons_append, fractionDigits, fractionDigits, digits_backslash]
      split <;> rfl
    · rw [List.cons_append, fractionDigits, fractionDigits]
      · rfl
      · exact fun _ h => hc (List.cons.inj h).1
      · exact fun _ h => hc (List.cons.inj h).1

/-- A power of ten does not go on with a backslash. -/
theorem power_backslash (text : Text) : power (text ++ ['\\']) = ((power text).1, (power text).2 ++ ['\\']) := by
  cases text with
  | nil => rfl
  | cons c text =>
    by_cases hc : c = 'e'
    · subst hc
      rw [List.cons_append, power, power]
      simp only [sign_backslash, digits_backslash]
      split <;> rfl
    · rw [List.cons_append, power, power]
      · rfl
      · exact fun _ h => hc (List.cons.inj h).1
      · exact fun _ h => hc (List.cons.inj h).1

/-- The reader of floats leaves a backslash. -/
theorem leavesBackslash_float : LeavesBackslash float? := by
  intro text
  unfold float?
  simp only [sign_backslash, digits_backslash, fractionDigits_backslash, power_backslash,
    @isPrefixOf_backslash ['i', 'n', 'f'] (by decide), @isPrefixOf_backslash ['N', 'a', 'N'] (by decide)]
  split
  · rename_i hword
    exact congrArg (fun rest => some (_, rest)) (drop_backslash hword)
  split
  · rename_i hword
    exact congrArg (fun rest => some (_, rest)) (drop_backslash hword)
  split <;> rfl

/-- The reader of truths leaves a backslash. -/
theorem leavesBackslash_boolean : LeavesBackslash boolean? := by
  intro text
  unfold boolean?
  simp only [isPrefixOf_backslash (show '\\' ∉ "true".toList by decide),
    isPrefixOf_backslash (show '\\' ∉ "false".toList by decide)]
  split
  · rename_i hword
    exact congrArg (fun rest => some (true, rest)) (drop_backslash hword)
  split
  · rename_i hword
    exact congrArg (fun rest => some (false, rest)) (drop_backslash hword)
  · rfl

/-- The reader of codes leaves a backslash. -/
theorem leavesBackslash_braced : LeavesBackslash braced? := by
  intro text
  cases text with
  | nil => rfl
  | cons c body =>
    by_cases hc : c = '{'
    · subst hc
      rw [List.cons_append, braced?, braced?]
      simp only [takeWhile_backslash (p := isHex) rfl, dropWhile_backslash (p := isHex) rfl]
      cases body.dropWhile isHex with
      | nil => rfl
      | cons d left =>
        by_cases hd : d = '}'
        · subst hd
          show (Text.natIn? 16 _).map _ = ((Text.natIn? 16 _).map _).map _
          rw [Option.map_map]
          rfl
        · rw [List.cons_append]
          split
          · rename_i h
            exact absurd (List.cons.inj h).1 hd
          · split
            · rename_i h
              exact absurd (List.cons.inj h).1 hd
            · rfl
    · rw [List.cons_append, braced?, braced?]
      · rfl
      · exact fun _ h => hc (List.cons.inj h).1
      · exact fun _ h => hc (List.cons.inj h).1

/-! ## Readings that go on with a backslash -/

/-- What a reader gives up with if the text goes on with a backslash: an open string ends behind the place for one more
character, a pending backslash is a whole escape, and an open closure ends one character later. -/
def ReadError.withBackslash : ReadError → ReadError
  | .unreadable .unterminatedString position => .unreadable (.unknownEscape none) (position + 2)
  | .unreadable (.unknownEscape none) position => .unreadable .unterminatedString position
  | .unreadable .unterminatedClosure position => .unreadable .unterminatedClosure (position + 1)
  | e => e

/-- The same place in the text that goes on with a backslash. -/
def Cursor.withBackslash (cursor : Cursor) : Cursor := ⟨cursor.rest ++ ['\\'], cursor.position⟩

/-- What has been read, with its place in the text that goes on with a backslash. -/
def withBackslash {α : Type} : α × Cursor → α × Cursor := Prod.map id Cursor.withBackslash

/-- What a reader comes to if the text goes on with a backslash. -/
def goesOn {α : Type} (place : α → α) : Except ReadError α → Except ReadError α
  | .ok a => .ok (place a)
  | .error e => .error e.withBackslash

section

variable {α β : Type} {place : α → α} {placeNext : β → β} {course course' : Course α}

/-- Two courses go on if the first does, and the second from what the first comes to. -/
theorem goesOn_bind {next next' : α → Course β} (hfirst : course'.ending = goesOn place course.ending)
    (h : ∀ a, course.ending = .ok a → (next' (place a)).ending = goesOn placeNext (next a).ending) :
    (course' >>= next').ending = goesOn placeNext (course >>= next).ending := by
  rw [Course.ending_bind, Course.ending_bind, hfirst]
  cases hending : course.ending with
  | ok a => exact h a hending
  | error e => rfl

/-- Two courses that fail go on to fail if the first goes on, and the second from what the first comes to. -/
theorem goesOn_bind_error {next next' : α → Course β} (hfirst : course'.ending = goesOn place course.ending)
    (h : ∀ a e, course.ending = .ok a → (next a).ending = .error e →
      (next' (place a)).ending = .error e.withBackslash)
    {e : ReadError} (herror : (course >>= next).ending = .error e) :
    (course' >>= next').ending = .error e.withBackslash := by
  rw [Course.ending_bind, hfirst]
  obtain hending | ⟨a, hending, hnext⟩ := Course.bind_eq_error_iff.1 herror
  · rw [hending]
    rfl
  · rw [hending]
    exact h a e hending hnext

/-- What is made of something that was read goes on as that does. -/
theorem goesOn_made {f : α → β} (hfirst : course'.ending = goesOn place course.ending)
    (h : ∀ a, f (place a) = placeNext (f a)) :
    (course' >>= fun a => pure (f a)).ending = goesOn placeNext (course >>= fun a => pure (f a)).ending :=
  goesOn_bind hfirst fun a _ => congrArg Except.ok (h a)

/-- A course whose result is changed goes on as it did. -/
theorem goesOn_map {f : α → β} (hfirst : course'.ending = goesOn place course.ending)
    (h : ∀ a, f (place a) = placeNext (f a)) : (f <$> course').ending = goesOn placeNext (f <$> course).ending := by
  rw [Course.ending_map, Course.ending_map, hfirst]
  cases course.ending with
  | ok a => exact congrArg Except.ok (h a)
  | error e => rfl

end

/-- A word without backslashes is accepted as before. -/
theorem accept?_withBackslash {word : Text} (h : '\\' ∉ word) (cursor : Cursor) :
    cursor.withBackslash.accept? word = (cursor.accept? word).map Cursor.withBackslash := by
  unfold Cursor.accept? Cursor.withBackslash
  simp only [isPrefixOf_backslash h]
  split
  · rename_i hword
    exact congrArg (fun rest => some (Cursor.mk rest _)) (drop_backslash hword)
  · rfl

/-- A reason that does not change when the text goes on. -/
def Reason.Stays (reason : Reason) : Prop :=
  ∀ position, (ReadError.unreadable reason position).withBackslash = .unreadable reason position

/-- A reader that gives up for a reason that stays gives up as before. -/
theorem fail_withBackslash {α : Type} {place : α → α} {reason : Reason} (h : reason.Stays) (cursor : Cursor) :
    (cursor.withBackslash.fail reason : Course α).ending = goesOn place (cursor.fail reason).ending :=
  congrArg Except.error (h cursor.position).symm

/-- A word without backslashes is expected as before. -/
theorem expect_withBackslash {word : Text} (h : '\\' ∉ word) (cursor : Cursor) :
    (cursor.withBackslash.expect word).ending = goesOn Cursor.withBackslash (cursor.expect word).ending := by
  unfold Cursor.expect
  rw [accept?_withBackslash h]
  cases cursor.accept? word with
  | none => exact fail_withBackslash (fun _ => rfl) cursor
  | some next => rfl

/-- A lexical form that leaves a backslash is read as before. -/
theorem lexical_withBackslash {α : Type} {form : Text → Option (α × Text)} (hform : LeavesBackslash form)
    {reason : Reason} (hreason : reason.Stays) (cursor : Cursor) :
    (cursor.withBackslash.lexical form reason).ending = goesOn withBackslash (cursor.lexical form reason).ending := by
  unfold Cursor.lexical
  rw [show cursor.withBackslash.rest = cursor.rest ++ ['\\'] from rfl, hform cursor.rest]
  cases form cursor.rest with
  | none => exact fail_withBackslash hreason cursor
  | some r =>
    have hlength : (cursor.rest ++ ['\\']).length - (r.2 ++ ['\\']).length = cursor.rest.length - r.2.length := by
      simp
    exact congrArg (fun taken => Except.ok (r.1, Cursor.mk (r.2 ++ ['\\']) (cursor.position + taken))) hlength

/-! ## Strings and closures that go on -/

/-- A string that goes on with a backslash is read as before, or is open behind it. -/
theorem stringBody_withBackslash (rest : Text) (position : Nat) :
    (stringBody (rest ++ ['\\']) position).ending = goesOn withBackslash (stringBody rest position).ending := by
  fun_induction stringBody rest position with
  | case1 position =>
    rw [List.nil_append, stringBody]
    rfl
  | case2 position rest =>
    rw [List.cons_append, stringBody]
    rfl
  | case3 position =>
    -- The two backslashes are an escape, and the string is open behind them.
    rw [List.singleton_append, stringBody, stringBody]
    · rfl
    · exact fun h => by cases h
  | case4 position rest hb =>
    rw [List.cons_append, List.cons_append, stringBody]
    split
    · rfl
    · rename_i hsome
      rw [leavesBackslash_braced, hb] at hsome
      cases hsome
  | case5 position rest code left hb hp =>
    rw [List.cons_append, List.cons_append, stringBody]
    split
    · rename_i hnone
      rw [leavesBackslash_braced, hb] at hnone
      cases hnone
    · rename_i hsome
      rw [leavesBackslash_braced, hb] at hsome
      cases hsome
      rw [id, hp]
      rfl
  | case6 position rest code left hb p hp ih =>
    have hlength : (rest ++ ['\\']).length - (left ++ ['\\']).length = rest.length - left.length := by simp
    rw [List.cons_append, List.cons_append, stringBody]
    split
    · rename_i hnone
      rw [leavesBackslash_braced, hb] at hnone
      cases hnone
    · rename_i hsome
      rw [leavesBackslash_braced, hb] at hsome
      cases hsome
      rw [id, hp, hlength]
      exact goesOn_map ih fun _ => rfl
  | case7 position letter rest hu hc =>
    rw [List.cons_append, List.cons_append, stringBody]
    · rw [hc]
      rfl
    · exact hu
  | case8 position letter rest hu c hc ih =>
    rw [List.cons_append, List.cons_append, stringBody]
    · rw [hc]
      exact goesOn_map ih fun _ => rfl
    · exact hu
  | case9 position c rest hquote hlone hu hletter ih =>
    have hbackslash : c ≠ '\\' := ne_backslash hlone hletter
    rw [List.cons_append, stringBody]
    · exact goesOn_map ih fun _ => rfl
    · exact hquote
    · exact fun h _ => hbackslash h
    · exact fun _ h _ => hbackslash h
    · exact fun _ _ h _ => hbackslash h

/-- A literal that goes on with a backslash is read as before, or is open behind it. -/
theorem readString_withBackslash (cursor : Cursor) :
    (readString cursor.withBackslash).ending = goesOn withBackslash (readString cursor).ending :=
  goesOn_bind (expect_withBackslash (by decide) cursor) fun inside _ =>
    stringBody_withBackslash inside.rest inside.position

/-- The insides of a closure that go on with a backslash are skipped as before, or are open behind it. -/
theorem skipInside_withBackslash (depth : Nat) (rest : Text) (position : Nat) :
    (skipInside depth (rest ++ ['\\']) position).ending =
      goesOn Cursor.withBackslash (skipInside depth rest position).ending := by
  fun_induction skipInside depth rest position with
  | case1 depth position =>
    rw [List.nil_append, skipInside, if_neg (by decide), if_neg (by decide), if_neg (by decide), skipInside]
    rfl
  | case2 depth position left positions e hread =>
    rw [List.cons_append, skipInside_quote, stringBody_withBackslash, hread]
    rfl
  | case3 depth position left positions inner cursor hread ih =>
    rw [List.cons_append, skipInside_quote, stringBody_withBackslash, hread]
    exact ih
  | case4 depth position c left hquote hopens ih =>
    rw [List.cons_append, skipInside, if_neg hquote, if_pos hopens]
    exact ih
  | case5 position c left hquote hopens hcloses =>
    rw [List.cons_append, skipInside, if_neg hquote, if_neg hopens, if_pos hcloses, if_pos rfl]
    rfl
  | case6 depth position c left hquote hopens hcloses hdepth ih =>
    rw [List.cons_append, skipInside, if_neg hquote, if_neg hopens, if_pos hcloses, if_neg hdepth]
    exact ih
  | case7 depth position c left hquote hopens hcloses ih =>
    rw [List.cons_append, skipInside, if_neg hquote, if_neg hopens, if_neg hcloses]
    exact ih

/-! ## Values that go on -/

/-- What stands between parentheses is read as before if the items of a tuple are. -/
theorem readInside_withBackslash {fuel : Nat}
    (hitems : ∀ (isFirst : Bool) (cursor : Cursor), cursor.rest.length < fuel →
      (readItems (fuel + 1) isFirst cursor.withBackslash).ending =
        goesOn withBackslash (readItems fuel isFirst cursor).ending)
    (name : Text) {cursor : Cursor} (hlen : cursor.rest.length < fuel) :
    (readInside (fuel + 1) name cursor.withBackslash).ending =
      goesOn withBackslash (readInside fuel name cursor).ending := by
  unfold readInside
  split
  · exact goesOn_made (lexical_withBackslash leavesBackslash_integer (fun _ => rfl) cursor) fun _ => rfl
  split
  · exact goesOn_made (lexical_withBackslash leavesBackslash_float (fun _ => rfl) cursor) fun _ => rfl
  split
  · exact goesOn_made (lexical_withBackslash leavesBackslash_boolean (fun _ => rfl) cursor) fun _ => rfl
  split
  · exact goesOn_made (readString_withBackslash cursor) fun _ => rfl
  split
  · refine goesOn_bind (expect_withBackslash (by decide) cursor) fun opened hopened => ?_
    have hless := (Cursor.expect_eq_ok_iff.1 hopened).length_le
    exact goesOn_made (hitems true opened (by omega)) fun _ => rfl
  split
  · exact goesOn_made (skipInside_withBackslash 0 cursor.rest cursor.position) fun _ => rfl
  · exact fail_withBackslash (fun _ => rfl) cursor

/-- What stands before an item is read as before. -/
theorem readSeparator_withBackslash (isFirst : Bool) (cursor : Cursor) :
    (readSeparator isFirst cursor.withBackslash).ending =
      goesOn Cursor.withBackslash (readSeparator isFirst cursor).ending := by
  cases isFirst with
  | true => rfl
  | false => exact expect_withBackslash (by decide) cursor

/-- No more is left behind a separator than before it. -/
theorem readSeparator_length_le {isFirst : Bool} {cursor next : Cursor}
    (h : (readSeparator isFirst cursor).ending = .ok next) : next.rest.length ≤ cursor.rest.length :=
  (readSeparator_eq_ok_iff.1 h).length_le

/-- Less is left behind a value than before it. -/
theorem readValue_length_lt {fuel : Nat} {cursor next : Cursor} {value : Value} (hlen : cursor.rest.length ≤ fuel)
    (h : (readValue fuel cursor).ending = .ok (value, next)) : next.rest.length < cursor.rest.length := by
  obtain ⟨text, hvalue, -, hpasses⟩ := (readValue_eq_ok_iff hlen).1 h
  exact hpasses.length_lt hvalue.ne_nil

/-- Where a bracket closes the tuple, there are no more items. -/
theorem readItems_accepted {fuel : Nat} {isFirst : Bool} {cursor closed : Cursor}
    (h : cursor.accept? [']'] = some closed) : (readItems fuel isFirst cursor).ending = .ok ([], closed) := by
  rw [readItems.eq_def]
  dsimp only
  rw [h]
  rfl

/-- Values and items that go on with a backslash, read with the fuel for one more character. -/
theorem readValue_readItems_withBackslash (fuel : Nat) :
    (∀ cursor : Cursor, cursor.rest.length ≤ fuel → (readValue (fuel + 1) cursor.withBackslash).ending =
      goesOn withBackslash (readValue fuel cursor).ending) ∧
    ∀ (isFirst : Bool) (cursor : Cursor), cursor.rest.length < fuel →
      (readItems (fuel + 1) isFirst cursor.withBackslash).ending =
        goesOn withBackslash (readItems fuel isFirst cursor).ending := by
  -- A first item is read where its tuple's items begin, with less fuel; so items need some to spare.
  induction fuel with
  | zero =>
    refine ⟨fun cursor hlen => ?_, fun _ _ hlen => absurd hlen (Nat.not_lt_zero _)⟩
    obtain ⟨rest, position⟩ := cursor
    cases List.length_eq_zero_iff.1 (Nat.le_zero.1 hlen)
    rw [readValue, readValue]
    rfl
  | succ fuel ih =>
    refine ⟨fun cursor hlen => ?_, fun isFirst cursor hlen => ?_⟩
    · rw [readValue, readValue]
      refine goesOn_bind (lexical_withBackslash leavesBackslash_name (fun _ => rfl) cursor) fun read hnamed => ?_
      obtain ⟨name, named⟩ := read
      obtain ⟨⟨⟨hne, -⟩, -⟩, hname⟩ := lexical_name_eq_ok_iff.1 hnamed
      have hless := hname.length_lt hne
      dsimp only [withBackslash, Prod.map, id]
      split
      · rfl
      refine goesOn_bind (expect_withBackslash (by decide) named) fun opened hopened => ?_
      have hopening := (Cursor.expect_eq_ok_iff.1 hopened).length_lt (List.cons_ne_nil _ _)
      refine goesOn_bind (readInside_withBackslash ih.2 name (by omega)) fun read _ => ?_
      exact goesOn_made (expect_withBackslash (by decide) read.2) fun _ => rfl
    · have haccepts := @accept?_withBackslash [']'] (by decide) cursor
      cases haccept : cursor.accept? [']'] with
      | some closed =>
        rw [haccept] at haccepts
        rw [readItems_accepted haccept, readItems_accepted haccepts]
        rfl
      | none =>
        rw [haccept] at haccepts
        rw [readItems_succ haccept, readItems_succ haccepts]
        refine goesOn_bind (readSeparator_withBackslash isFirst cursor) fun start hstart => ?_
        have hle := readSeparator_length_le hstart
        refine goesOn_bind (ih.1 start (by omega)) fun read hfirst => ?_
        have hless := readValue_length_lt (by omega) hfirst
        exact goesOn_made (ih.2 false read.2 (by omega)) fun _ => rfl

/-! ## Results that go on -/

/-- What a verdict stands around is read as before, with the fuel for one more character. -/
theorem readVerdict_withBackslash {fuel : Nat} (verdict : Text) {cursor : Cursor} (hlen : cursor.rest.length ≤ fuel) :
    (readVerdict (fuel + 1) verdict cursor.withBackslash).ending =
      goesOn withBackslash (readVerdict fuel verdict cursor).ending := by
  unfold readVerdict
  split
  · exact goesOn_made ((readValue_readItems_withBackslash fuel).1 cursor hlen) fun _ => rfl
  · exact goesOn_made (readString_withBackslash cursor) fun _ => rfl

/-- What is not the end of a result is not when it goes on. -/
theorem readEnd_withBackslash {cursor : Cursor} {e : ReadError} (h : (readEnd cursor).ending = .error e) :
    (readEnd cursor.withBackslash).ending = .error e.withBackslash := by
  refine goesOn_bind_error (expect_withBackslash (by decide) cursor) (fun closed e _ h => ?_) h
  -- There was trailing text, and there is all the more of it.
  have hrest : closed.withBackslash.rest.isEmpty = false := by simp [Cursor.withBackslash]
  rw [hrest]
  split at h
  · cases h
  · cases h
    rfl

/-- A text that is no result goes on with a backslash to another that is none. -/
theorem ofText_backslash {text : Text} {e : ReadError} (h : ofText text = .error e) :
    ofText (text ++ ['\\']) = .error e.withBackslash := by
  have hfuel : (text ++ ['\\']).length = text.length + 1 := List.length_append
  rw [ofText, courseOf] at h ⊢
  rw [hfuel]
  refine goesOn_bind_error (lexical_withBackslash leavesBackslash_name (fun _ => rfl) ⟨text, 0⟩)
    (fun read e hnamed h => ?_) h
  obtain ⟨verdict, named⟩ := read
  dsimp only [withBackslash, Prod.map, id] at h ⊢
  have hname := (lexical_name_eq_ok_iff.1 hnamed).2.length_le
  split at h
  · rename_i hunknown
    rw [if_pos hunknown]
    cases h
    rfl
  rename_i hknown
  rw [if_neg hknown]
  refine goesOn_bind_error (expect_withBackslash (by decide) named) (fun opened e hopened h => ?_) h
  have hopening := (Cursor.expect_eq_ok_iff.1 hopened).length_le
  refine goesOn_bind_error (readVerdict_withBackslash verdict (hopening.trans hname)) (fun read e _ h => ?_) h
  obtain hend | ⟨_, -, h⟩ := Course.bind_eq_error_iff.1 h
  · exact Course.bind_eq_error_iff.2 (.inl (readEnd_withBackslash hend))
  · cases h

/-- A text that ends in a backslash inside an open string. -/
def Dangles (text : Text) : Prop :=
  ∃ before, text = before ++ ['\\'] ∧ ofText before = .error (.unreadable .unterminatedString before.length)

/-- A text that dangles misses a character one place behind its end. -/
theorem ofText_of_dangles {text : Text} (h : Dangles text) :
    ofText text = .error (.unreadable (.unknownEscape none) (text.length + 1)) := by
  obtain ⟨before, rfl, hbefore⟩ := h
  rw [ofText_backslash hbefore, List.length_append]
  rfl

/-- What a text without its last backslash is unreadable for, if with it a character is missing. -/
theorem withBackslash_eq_unknownEscape {e : ReadError} {position : Nat}
    (h : e.withBackslash = .unreadable (.unknownEscape none) position) :
    ∃ before, e = .unreadable .unterminatedString before ∧ position = before + 2 := by
  cases e with
  | noSuchCharacter code => cases h
  | unreadable reason before =>
    cases reason with
    | unterminatedString =>
      cases h
      exact ⟨before, rfl, rfl⟩
    | unknownEscape escape => cases escape <;> cases h
    | _ => cases h

/-- A reader misses a character behind a backslash exactly in the texts that end in one inside an open string. -/
theorem ofText_eq_unknownEscape_iff {text : Text} {position : Nat} :
    ofText text = .error (.unreadable (.unknownEscape none) position) ↔
      Dangles text ∧ position = text.length + 1 := by
  constructor
  · intro h
    obtain ⟨-, hreported⟩ := (follows_courseOf text).reported _ _ h
    obtain ⟨-, hreason⟩ | ⟨hposition, -, before, hbefore⟩ := hreported
    · exact absurd rfl hreason
    subst hbefore
    refine ⟨⟨before, rfl, ?_⟩, hposition⟩
    cases hread : ofText before with
    | ok outcome =>
      -- Behind a result the backslash is trailing text, and no escape.
      have htrailing := (ofText_eq_ok_iff.1 hread).ofText_trailing (List.cons_ne_nil '\\' [])
      cases htrailing.symm.trans h
    | error e =>
      have hgoes : e.withBackslash = .unreadable (.unknownEscape none) position :=
        Except.error.inj ((ofText_backslash hread).symm.trans h)
      obtain ⟨unclosed, rfl, hunclosed⟩ := withBackslash_eq_unknownEscape hgoes
      rw [List.length_append, List.length_singleton] at hposition
      rw [show unclosed = before.length by omega]
  · rintro ⟨hdangles, rfl⟩
    exact ofText_of_dangles hdangles

/-- A report dangles that is cut off behind the backslash of an escape. -/
theorem dangles_report {body : Text} {report : CodeText} (h : SpellsBody body report) :
    Dangles ("Err".toList ++ '(' :: '"' :: body ++ ['\\']) := by
  refine ⟨_, rfl, ?_⟩
  have hopening : Cursor.Passes ⟨'"' :: body, "Err".toList.length + 1⟩ ['"'] ⟨body, "Err".toList.length + 2⟩ :=
    ⟨rfl, rfl⟩
  have hbody : (stringBody body ("Err".toList.length + 2)).ending =
      .error (.unreadable .unterminatedString ("Err".toList.length + 2 + body.length)) := by
    have hread := stringBody_body h [] ("Err".toList.length + 2)
    rw [List.append_nil, stringBody] at hread
    exact hread
  have hstring : (readString ⟨'"' :: body, "Err".toList.length + 1⟩).ending =
      .error (.unreadable .unterminatedString ("Err".toList.length + 2 + body.length)) :=
    Course.bind_eq_error_iff.2 (.inr ⟨_, Cursor.expect_eq_ok_iff.2 hopening, hbody⟩)
  have hlength : ("Err".toList ++ '(' :: '"' :: body).length = "Err".toList.length + 2 + body.length := by
    simp
    omega
  rw [ofText_verdict (.inr rfl), hlength]
  refine Course.bind_eq_error_iff.2 (.inl ?_)
  exact Course.bind_eq_error_iff.2 (.inl hstring)

/-- The reader stays within the text exactly if the text does not dangle. -/
theorem courseOf_positions_le_iff {text : Text} :
    (∀ p ∈ (courseOf text).positions, p ≤ text.length) ↔ ¬Dangles text := by
  have hfollows := follows_courseOf text
  constructor
  · intro hle hdangles
    obtain ⟨hlast, -⟩ := hfollows.reported _ _ (ofText_of_dangles hdangles)
    -- The position that is reported is the last one, and it is none of the start.
    have hmem : text.length + 1 ∈ 0 :: (courseOf text).positions := hlast ▸ List.getLastD_mem_cons
    obtain hzero | hmem := List.mem_cons.1 hmem
    · cases hzero
    · exact Nat.not_succ_le_self _ (hle _ hmem)
  · intro hnot p hp
    obtain hle | ⟨-, hresult⟩ := hfollows.position_le p hp
    · exact hle
    · exact absurd (ofText_eq_unknownEscape_iff.1 hresult).1 hnot

end Outcome

namespace Interpreter

open Outcome

/-- An output that is unreadable at a place is one that the reader gives up there. -/
theorem ofText_of_resultOf {output shown : Text} {reason : Reason} {position : Nat}
    (h : resultOf output = .error (.refused (.unreadable reason position shown))) :
    ofText (Text.strip output) = .error (.unreadable reason position) ∧ shown = Text.strip output := by
  unfold resultOf at h
  rw [show Outcome.read output = ofText (Text.strip output) from rfl] at h
  split at h
  all_goals cases h
  rename_i hread
  exact ⟨hread, rfl⟩

/-- The reader of an output stays within the text, and so does the position that an unreadable output is reported
with, if the text does not end in a backslash inside an open string. There the reader ends one behind the text, where
it reports an unknown escape. -/
theorem position_le_length_iff (output : Text) :
    (courseOf (Text.strip output)).ending = Outcome.read output ∧
      ((∀ p ∈ (courseOf (Text.strip output)).positions, p ≤ (Text.strip output).length) ↔
        ¬Dangles (Text.strip output)) ∧
      (∀ reason p shown, resultOf output = .error (.refused (.unreadable reason p shown)) →
        p = (courseOf (Text.strip output)).last 0 ∧ shown = Text.strip output ∧
          (p ≤ (Text.strip output).length ↔ ¬Dangles (Text.strip output))) ∧
      (Dangles (Text.strip output) →
        (∀ p ∈ (courseOf (Text.strip output)).positions, p ≤ (Text.strip output).length + 1) ∧
          resultOf output = .error
            (.refused (.unreadable (.unknownEscape none) ((Text.strip output).length + 1) (Text.strip output)))) := by
  have hfollows := follows_courseOf (Text.strip output)
  refine ⟨rfl, courseOf_positions_le_iff, fun reason p shown h => ?_, fun hdangles => ⟨fun p hp => ?_, ?_⟩⟩
  · obtain ⟨hread, hshown⟩ := ofText_of_resultOf h
    obtain ⟨hlast, hplace⟩ := hfollows.reported reason p hread
    refine ⟨hlast, hshown, ?_⟩
    obtain ⟨hle, hreason⟩ | ⟨hpast, rfl, -⟩ := hplace
    · refine iff_of_true hle fun hdangles => hreason ?_
      cases hread.symm.trans (ofText_of_dangles hdangles)
      rfl
    · exact iff_of_false (by omega) (not_not_intro (ofText_eq_unknownEscape_iff.1 hread).1)
  · obtain hle | ⟨hpast, -⟩ := hfollows.position_le p hp
    · exact Nat.le_succ_of_le hle
    · exact Nat.le_of_eq hpast
  · exact resultOf_unreadable (ofText_of_dangles hdangles)

/-- A report that is cut off behind a backslash, after six characters. -/
theorem not_position_le_backslash :
    let output := "Err(\"\\".toList
    (Text.strip output).length = 6 ∧
      ¬(∀ p ∈ (courseOf (Text.strip output)).positions, p ≤ (Text.strip output).length) ∧
      resultOf output = .error (.refused (.unreadable (.unknownEscape none) 7 (Text.strip output))) := by
  intro output
  have hdangles : Dangles (Text.strip output) := dangles_report .nil
  refine ⟨rfl, fun hle => courseOf_positions_le_iff.1 hle hdangles, ?_⟩
  exact resultOf_unreadable (ofText_of_dangles hdangles)

end Interpreter

end GuidedTour
