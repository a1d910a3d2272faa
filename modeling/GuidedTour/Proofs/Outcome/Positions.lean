import GuidedTour.Proofs.Outcome.Result

/-!
# The positions of a reader

The positions that the readers of a printed result come to stay within the text, with one exception: behind a
backslash that is the last character of the text, inside a string, there is room counted for a character that is not
there. `Course.Follows` says so of a course, and that the course ends at its last position; it holds of single steps
and is kept by sequencing (`Course.Follows.bind`), and so it holds of each reader in turn and of results as a whole
(`follows_courseOf`).
-/

set_option autoImplicit false

namespace GuidedTour.Outcome

/-! ## Places and courses -/

/-- The place at a position of a text. -/
def Cursor.At (text : Text) (position : Nat) (cursor : Cursor) : Prop :=
  (∃ before, Cursor.Passes ⟨text, 0⟩ before cursor) ∧ cursor.position = position

/-- What is read and what is left make up the text. -/
theorem Cursor.At.position_add_length {text : Text} {position : Nat} {cursor : Cursor} (h : cursor.At text position) :
    position + cursor.rest.length = text.length := by
  obtain ⟨⟨before, hrest, hposition⟩, rfl⟩ := h
  have htext : text = before ++ cursor.rest := hrest
  rw [hposition, htext, List.length_append, Nat.zero_add]

/-- No place lies past the text. -/
theorem Cursor.At.position_le {text : Text} {position : Nat} {cursor : Cursor} (h : cursor.At text position) :
    position ≤ text.length := h.position_add_length ▸ Nat.le_add_right position cursor.rest.length

/-- What lies behind a place of the text ends at a place of it. -/
theorem Cursor.At.passes {text piece : Text} {position : Nat} {cursor next : Cursor} (h : cursor.At text position)
    (hpasses : cursor.Passes piece next) : next.At text next.position := by
  obtain ⟨⟨before, hbefore⟩, -⟩ := h
  exact ⟨⟨before ++ piece, hbefore.append hpasses⟩, rfl⟩

/-- Behind the start of what is left there is a place of the text. -/
theorem Cursor.At.behind {text rest : Text} {p position : Nat} (piece : Text)
    (h : Cursor.At text p ⟨piece ++ rest, position⟩) :
    Cursor.At text (position + piece.length) ⟨rest, position + piece.length⟩ :=
  h.passes ⟨rfl, rfl⟩

/-- The place at which an end of what is left is left is a place of the text. -/
theorem Cursor.At.upTo {text rest : Text} {position : Nat} {cursor : Cursor} (h : cursor.At text position)
    (hrest : rest <:+ cursor.rest) : (cursor.upTo rest).At text (cursor.upTo rest).position := by
  obtain ⟨piece, hpiece⟩ := hrest
  have hpasses : cursor.Passes piece (cursor.upTo rest) := by
    refine ⟨hpiece.symm, ?_⟩
    show cursor.position + (cursor.rest.length - rest.length) = cursor.position + piece.length
    rw [← hpiece, List.length_append, Nat.add_sub_cancel]
  exact h.passes hpasses

namespace Course

/-- A course from a start follows a text: it ends with a result as told of its last position, or at its last position
with a reason. No position lies past the text but the one behind a backslash at the very end, where the reader gives
up. -/
structure Follows {α : Type} (text : Text) (start : Nat) (told : Nat → α → Prop) (course : Course α) : Prop where
  tells : ∀ a, course.ending = .ok a → told (course.last start) a
  position_le : ∀ p ∈ course.positions,
    p ≤ text.length ∨ p = text.length + 1 ∧ course.ending = .error (.unreadable (.unknownEscape none) p)
  reported : ∀ reason p, course.ending = .error (.unreadable reason p) → p = course.last start ∧
    (p ≤ text.length ∧ reason ≠ .unknownEscape none ∨
      p = text.length + 1 ∧ reason = .unknownEscape none ∧ ∃ before, text = before ++ ['\\'])

variable {α β : Type} {text : Text} {start : Nat} {told : Nat → α → Prop} {toldNext : Nat → β → Prop}

/-- What lies behind some positions leads on from the last of them. -/
theorem last_passing (start : Nat) (positions : List Nat) (course : Course α) :
    (course.passing positions).last start = course.last (positions.getLastD start) := by
  unfold last passing
  rw [List.getLastD_eq_getLast?, List.getLastD_eq_getLast?, List.getLastD_eq_getLast?, List.getLast?_append]
  cases course.positions.getLast? <;> rfl

/-- A course behind positions of the text follows it if the course itself does from the last of them. -/
theorem Follows.passing {course : Course α} {positions : List Nat} (hle : ∀ p ∈ positions, p ≤ text.length)
    (h : course.Follows text (positions.getLastD start) told) : (course.passing positions).Follows text start told := by
  have hlast := last_passing start positions course
  refine ⟨fun a ha => hlast ▸ h.tells a ha, fun p hp => ?_, fun reason p herror => hlast ▸ h.reported reason p herror⟩
  rcases List.mem_append.1 hp with hp | hp
  · exact .inl (hle p hp)
  · exact h.position_le p hp

/-- A course behind one position of the text follows it if the course itself does from there. -/
theorem Follows.step {course : Course α} {p : Nat} (hle : p ≤ text.length) (h : course.Follows text p told) :
    (course.passing [p]).Follows text start told :=
  @Follows.passing _ text start told course [p] (by simpa using hle) h

/-- A course and what comes behind it follow the text together. -/
theorem Follows.bind {course : Course α} {next : α → Course β} (h : course.Follows text start told)
    (hnext : ∀ p a, course.ending = .ok a → told p a → (next a).Follows text p toldNext) :
    (course >>= next).Follows text start toldNext := by
  obtain ⟨positions, ending⟩ := course
  cases ending with
  | error e =>
    refine ⟨fun _ hok => (by cases hok), fun p hp => ?_, fun reason p herror => ?_⟩
    · refine (h.position_le p hp).imp_right fun hpast => ⟨hpast.1, ?_⟩
      cases hpast.2
      rfl
    · cases herror
      exact h.reported reason p rfl
  | ok a =>
    refine (hnext _ a rfl (h.tells a rfl)).passing fun p hp => ?_
    obtain hle | ⟨-, herror⟩ := h.position_le p hp
    · exact hle
    · cases herror

/-- A course whose result is changed follows the text as before. -/
theorem Follows.map {course : Course α} {f : α → β} (h : course.Follows text start told)
    (hf : ∀ p a, told p a → toldNext p (f a)) : (f <$> course).Follows text start toldNext := by
  obtain ⟨positions, ending⟩ := course
  cases ending with
  | error e =>
    refine ⟨fun _ hok => (by cases hok), fun p hp => ?_, fun reason p herror => ?_⟩
    · refine (h.position_le p hp).imp_right fun hpast => ⟨hpast.1, ?_⟩
      cases hpast.2
      rfl
    · cases herror
      exact h.reported reason p rfl
  | ok a =>
    refine ⟨fun b hb => ?_, fun p hp => ?_, fun _ _ herror => by cases herror⟩
    · cases hb
      exact hf _ a (h.tells a rfl)
    · refine (h.position_le p hp).imp_right fun hpast => ?_
      cases hpast.2

/-- Nothing is read, and the reader is where it was. -/
theorem follows_pure {a : α} (h : told start a) : (pure a : Course α).Follows text start told := by
  refine ⟨fun b hb => ?_, fun p hp => absurd hp List.not_mem_nil, fun _ _ herror => by cases herror⟩
  cases hb
  exact h

/-- A step leads to a position of the text. -/
theorem follows_reach {a : α} {p : Nat} (hp : p ≤ text.length) (h : told p a) :
    (reach p a).Follows text start told :=
  (show (pure a : Course α).Follows text p told from follows_pure h).step hp

/-- The reader gives up where it is, and nothing is missing behind a backslash. -/
theorem follows_unreadable {reason : Reason} (hstart : start ≤ text.length) (hreason : reason ≠ .unknownEscape none) :
    (stop (.unreadable reason start) : Course α).Follows text start told := by
  refine ⟨fun _ hok => (by cases hok), fun p hp => absurd hp List.not_mem_nil, fun reason p herror => ?_⟩
  cases herror
  exact ⟨rfl, .inl ⟨hstart, hreason⟩⟩

/-- A code past the last one is given up without a position. -/
theorem follows_noSuchCharacter {code : Nat} : (stop (.noSuchCharacter code) : Course α).Follows text start told :=
  ⟨fun _ hok => (by cases hok), fun _ hp => absurd hp List.not_mem_nil, fun _ _ herror => by cases herror⟩

/-- The reader gives up at a place of the text. -/
theorem follows_fail {cursor : Cursor} {reason : Reason} {p : Nat} (hcursor : cursor.At text p)
    (hreason : reason ≠ .unknownEscape none) : (cursor.fail reason : Course α).Follows text p told := by
  obtain ⟨-, rfl⟩ := id hcursor
  exact follows_unreadable hcursor.position_le hreason

end Course

open Course

/-! ## Single steps -/

/-- What was read ends at a position of the text. -/
abbrev ReadAt {α : Type} (text : Text) (p : Nat) (read : α × Cursor) : Prop := read.2.At text p

/-- A text that is expected is read from one place of the text to another. -/
theorem follows_expect {cursor : Cursor} {text word : Text} {p : Nat} (hcursor : cursor.At text p) :
    (cursor.expect word).Follows text p (fun p next => next.At text p) := by
  unfold Cursor.expect
  cases haccept : cursor.accept? word with
  | none => exact follows_fail hcursor (by simp)
  | some next =>
    have hnext := hcursor.passes (Cursor.accept?_eq_some_iff.1 haccept)
    exact follows_reach hnext.position_le hnext

/-- A lexical form takes a text from the start of what is left. -/
def IsLexical {α : Type} (form : Text → Option (α × Text)) : Prop :=
  ∀ text a rest, form text = some (a, rest) → rest <:+ text

/-- A lexical form is read from one place of the text to another. -/
theorem follows_lexical {α : Type} {cursor : Cursor} {form : Text → Option (α × Text)} {reason : Reason}
    {text : Text} {p : Nat} (hcursor : cursor.At text p) (hform : IsLexical form)
    (hreason : reason ≠ .unknownEscape none) :
    (cursor.lexical form reason).Follows text p (ReadAt text) := by
  unfold Cursor.lexical
  split
  · rename_i a rest hread
    have hnext := hcursor.upTo (hform cursor.rest a rest hread)
    exact follows_reach hnext.position_le hnext
  · exact follows_fail hcursor hreason

/-- A name is taken from the start of a text. -/
theorem isLexical_name : IsLexical name? := fun _ name _ h => ⟨name, (name?_eq_some_iff.1 h).2.1.symm⟩

/-- An integer is taken from the start of a text. -/
theorem isLexical_integer : IsLexical integer? := by
  intro text spelling rest h
  obtain ⟨negative, -, htext⟩ := exists_sign text
  unfold integer? at h
  simp only at h
  split at h
  · cases h
  · cases h
    exact (List.dropWhile_suffix Char.isDigit).trans ⟨_, htext.symm⟩

/-- A float is taken from the start of a text. -/
theorem isLexical_float : IsLexical float? := by
  intro text number rest h
  obtain ⟨spelling, -, rfl⟩ := exists_float h
  exact List.suffix_append spelling rest

/-- A truth is taken from the start of a text. -/
theorem isLexical_boolean : IsLexical boolean? := fun _ truth _ h =>
  ⟨truthWord truth, (boolean?_eq_some_iff.1 h).symm⟩

/-! ## Strings and closures -/

/-- A code in braces is taken from the start of a text. -/
theorem braced?_suffix {text rest : Text} {code : Nat} (h : braced? text = some (code, rest)) : rest <:+ text := by
  obtain ⟨digits, -, rfl⟩ := braced?_eq_some_iff.1 h
  exact ⟨'{' :: digits ++ ['}'], by simp⟩

/-- The reader of strings follows the text, a backslash at its end included. -/
theorem follows_body {text rest : Text} {position : Nat} (hat : Cursor.At text position ⟨rest, position⟩) :
    (stringBody rest position).Follows text position (ReadAt text) := by
  fun_induction stringBody rest position with
  | case1 position => exact follows_unreadable hat.position_le (by simp)
  | case2 position rest =>
    have hbehind := hat.behind ['"']
    exact follows_reach hbehind.position_le hbehind
  | case3 position =>
    -- The second step is past the end, where the reader reports it.
    have hlength : position + 1 = text.length := hat.position_add_length
    obtain ⟨⟨before, htext, -⟩, -⟩ := hat
    refine ⟨fun _ hok => (by cases hok), fun p hp => ?_, fun reason p herror => ?_⟩
    · simp only [passing, stop, List.append_nil, List.mem_cons, List.not_mem_nil, or_false] at hp
      rcases hp with rfl | rfl
      · exact .inl (by omega)
      · exact .inr ⟨by omega, rfl⟩
    · cases herror
      exact ⟨rfl, .inr ⟨by omega, rfl, before, htext⟩⟩
  | case4 position rest hb =>
    have hbehind := hat.behind ['\\', 'u']
    refine .passing ?_ (follows_unreadable hbehind.position_le (by simp))
    simpa using ⟨(hat.behind ['\\']).position_le, hbehind.position_le⟩
  | case5 position rest code left hb hp =>
    have hbehind := hat.behind ['\\', 'u']
    have hleft := hbehind.upTo (braced?_suffix hb)
    refine .passing ?_ follows_noSuchCharacter
    simpa using ⟨(hat.behind ['\\']).position_le, hbehind.position_le, hleft.position_le⟩
  | case6 position rest code left hb p hp ih =>
    have hbehind := hat.behind ['\\', 'u']
    have hleft := hbehind.upTo (braced?_suffix hb)
    refine .passing ?_ ((ih hleft).map fun _ _ hread => hread)
    simpa using ⟨(hat.behind ['\\']).position_le, hbehind.position_le, hleft.position_le⟩
  | case7 position letter rest hu hc =>
    have hbehind := hat.behind ['\\', letter]
    refine .passing ?_ (follows_unreadable hbehind.position_le (by simp))
    simpa using ⟨(hat.behind ['\\']).position_le, hbehind.position_le⟩
  | case8 position letter rest hu c hc ih =>
    have hbehind := hat.behind ['\\', letter]
    refine .passing ?_ ((ih hbehind).map fun _ _ hread => hread)
    simpa using ⟨(hat.behind ['\\']).position_le, hbehind.position_le⟩
  | case9 position c rest hquote hlone hu hletter ih =>
    have hbehind := hat.behind [c]
    exact .step hbehind.position_le ((ih hbehind).map fun _ _ hread => hread)

/-- The reader of literals follows the text. -/
theorem follows_string {text : Text} {cursor : Cursor} {p : Nat} (hcursor : cursor.At text p) :
    (readString cursor).Follows text p (ReadAt text) := by
  refine (follows_expect hcursor).bind fun p inside _ hinside => ?_
  obtain ⟨-, rfl⟩ := id hinside
  exact follows_body hinside

/-- The reader of closures follows the text, through the strings inside. -/
theorem follows_skip {depth : Nat} {text rest : Text} {position : Nat}
    (hat : Cursor.At text position ⟨rest, position⟩) :
    (skipInside depth rest position).Follows text position (fun p next => next.At text p) := by
  fun_induction skipInside depth rest position with
  | case1 depth position => exact follows_unreadable hat.position_le (by simp)
  | case2 depth position left positions e hread =>
    have hbehind := hat.behind ['"']
    have hbody : Follows text (position + 1) (ReadAt text) ⟨positions, .error e⟩ := hread ▸ follows_body hbehind
    have hall : Follows text (position + 1) (fun p next => next.At text p) (⟨positions, .error e⟩ >>=
        fun read : CodeText × Cursor => skipInside depth read.2.rest read.2.position) :=
      hbody.bind fun _ _ hok _ => by cases hok
    exact hall.step hbehind.position_le
  | case3 depth position left positions inner cursor hread ih =>
    have hbehind := hat.behind ['"']
    have hbody : Follows text (position + 1) (ReadAt text) ⟨positions, .ok (inner, cursor)⟩ :=
      hread ▸ follows_body hbehind
    have hall : Follows text (position + 1) (fun p next => next.At text p) (⟨positions, .ok (inner, cursor)⟩ >>=
        fun read : CodeText × Cursor => skipInside depth read.2.rest read.2.position) := by
      refine hbody.bind fun p read hok hread => ?_
      cases hok
      obtain ⟨-, rfl⟩ := id hread
      exact ih hread
    exact hall.step hbehind.position_le
  | case4 depth position c left hquote hopens ih =>
    have hbehind := hat.behind [c]
    exact (ih hbehind).step hbehind.position_le
  | case5 position c left hquote hopens hcloses => exact follows_pure hat
  | case6 depth position c left hquote hopens hcloses hdepth ih =>
    have hbehind := hat.behind [c]
    exact (ih hbehind).step hbehind.position_le
  | case7 depth position c left hquote hopens hcloses ih =>
    have hbehind := hat.behind [c]
    exact (ih hbehind).step hbehind.position_le

/-! ## Values -/

/-- What a reader has made of something it has read follows the text as that does. -/
theorem follows_made {α β : Type} {text : Text} {p : Nat} {course : Course (α × Cursor)} {f : α → β}
    (h : course.Follows text p (ReadAt text)) :
    Follows text p (ReadAt text) (do let (a, cursor) ← course; return (f a, cursor)) :=
  h.bind fun _ _ _ hread => follows_pure hread

/-- The reader of what stands between parentheses follows the text if the reader of items does. -/
theorem follows_inside {fuel : Nat} {text name : Text}
    (hitems : ∀ (isFirst : Bool) (cursor : Cursor) (p : Nat), cursor.At text p →
      (readItems fuel isFirst cursor).Follows text p (ReadAt text))
    {cursor : Cursor} {p : Nat} (hcursor : cursor.At text p) :
    (readInside fuel name cursor).Follows text p (ReadAt text) := by
  unfold readInside
  split
  · exact follows_made (follows_lexical hcursor isLexical_integer (by simp))
  split
  · exact follows_made (follows_lexical hcursor isLexical_float (by simp))
  split
  · exact follows_made (follows_lexical hcursor isLexical_boolean (by simp))
  split
  · exact follows_made (follows_string hcursor)
  split
  · refine (follows_expect hcursor).bind fun p opened _ hopened => ?_
    exact follows_made (hitems true opened p hopened)
  split
  · obtain ⟨-, rfl⟩ := id hcursor
    exact (follows_skip hcursor).bind fun _ _ _ hnext => follows_pure hnext
  · exact follows_fail hcursor (by simp)

/-- What stands before an item is read from one place of the text to another. -/
theorem follows_separator {isFirst : Bool} {cursor : Cursor} {text : Text} {p : Nat} (hcursor : cursor.At text p) :
    (readSeparator isFirst cursor).Follows text p (fun p next => next.At text p) := by
  cases isFirst with
  | true => exact follows_pure hcursor
  | false => exact follows_expect hcursor

/-- The bracket that closes a tuple leads from one place of the text to another. -/
theorem follows_closed {cursor closed : Cursor} {text : Text} {p : Nat} (hcursor : cursor.At text p)
    (h : cursor.accept? [']'] = some closed) :
    (reach closed.position (([] : List Value), closed)).Follows text p (ReadAt text) := by
  have hclosed := hcursor.passes (Cursor.accept?_eq_some_iff.1 h)
  exact follows_reach hclosed.position_le hclosed

/-- The readers of values and of the items of a tuple follow the text, with any fuel. -/
theorem follows_value_items (fuel : Nat) (text : Text) :
    (∀ (cursor : Cursor) (p : Nat), cursor.At text p → (readValue fuel cursor).Follows text p (ReadAt text)) ∧
    ∀ (isFirst : Bool) (cursor : Cursor) (p : Nat), cursor.At text p →
      (readItems fuel isFirst cursor).Follows text p (ReadAt text) := by
  induction fuel with
  | zero =>
    refine ⟨fun cursor p hcursor => ?_, fun isFirst cursor p hcursor => ?_⟩
    · rw [readValue]
      exact follows_fail hcursor (by simp)
    · rw [readItems]
      cases haccept : cursor.accept? [']'] with
      | some closed => exact follows_closed hcursor haccept
      | none =>
        refine follows_fail hcursor ?_
        cases isFirst <;> simp
  | succ fuel ih =>
    refine ⟨fun cursor p hcursor => ?_, fun isFirst cursor p hcursor => ?_⟩
    · rw [readValue]
      refine (follows_lexical hcursor isLexical_name (by simp)).bind fun p read _ hnamed => ?_
      obtain ⟨name, named⟩ := read
      dsimp only
      split
      · exact follows_pure hnamed
      · refine (follows_expect hnamed).bind fun p opened _ hopened => ?_
        refine (follows_inside ih.2 hopened).bind fun p read _ hbehind => ?_
        exact (follows_expect hbehind).bind fun p closed _ hclosed => follows_pure hclosed
    · cases haccept : cursor.accept? [']'] with
      | some closed =>
        rw [readItems, haccept]
        exact follows_closed hcursor haccept
      | none =>
        rw [readItems_succ haccept]
        refine (follows_separator hcursor).bind fun p start _ hstart => ?_
        refine (ih.1 start p hstart).bind fun p read _ hbehind => ?_
        exact follows_made (ih.2 false read.2 p hbehind)

/-! ## Results -/

/-- The reader of what a verdict stands around follows the text. -/
theorem follows_verdict {fuel : Nat} {verdict : Text} {cursor : Cursor} {text : Text} {p : Nat}
    (hcursor : cursor.At text p) : (readVerdict fuel verdict cursor).Follows text p (ReadAt text) := by
  unfold readVerdict
  split
  · exact follows_made ((follows_value_items fuel text).1 cursor p hcursor)
  · exact follows_made (follows_string hcursor)

/-- The reader of the end of a result follows the text. -/
theorem follows_end {cursor : Cursor} {text : Text} {p : Nat} (hcursor : cursor.At text p) :
    (readEnd cursor).Follows text p (fun _ _ => True) := by
  refine (follows_expect hcursor).bind fun p closed _ hclosed => ?_
  split
  · exact follows_pure trivial
  · exact follows_fail hclosed (by simp)

/-- The course of reading a result follows its text. -/
theorem follows_courseOf (text : Text) : (courseOf text).Follows text 0 (fun _ _ => True) := by
  have hstart : Cursor.At text 0 ⟨text, 0⟩ := ⟨⟨[], rfl, rfl⟩, rfl⟩
  refine (follows_lexical hstart isLexical_name (by simp)).bind fun p read _ hnamed => ?_
  obtain ⟨verdict, named⟩ := read
  dsimp only
  split
  · exact follows_fail hnamed (by simp)
  refine (follows_expect hnamed).bind fun p opened _ hopened => ?_
  refine (follows_verdict hopened).bind fun p read _ hbehind => ?_
  exact (follows_end hbehind).bind fun _ _ _ _ => follows_pure trivial

end GuidedTour.Outcome
