import GuidedTour.Proofs.Outcome.Spelling

/-!
# String literals

What a string literal is, told of texts alone: the pieces that spell one code point each (`SpellsChar`),
the bodies made of such pieces (`SpellsBody`), and a body between two quotes (`SpellsString`). The reader
of strings takes a literal and nothing else (`readString_eq_ok_iff`).
-/

set_option autoImplicit false

namespace GuidedTour.Outcome

/-! ## Places -/

/-- A text lies between one place and a later one. -/
def Cursor.Passes (cursor : Cursor) (text : Text) (next : Cursor) : Prop :=
  cursor.rest = text ++ next.rest ∧ next.position = cursor.position + text.length

namespace Cursor

/-- What lies between a place and a later one, and between that and a third, lies between the two ends. -/
theorem Passes.append {first second third : Cursor} {text more : Text} (h : first.Passes text second)
    (hmore : second.Passes more third) : first.Passes (text ++ more) third := by
  refine ⟨?_, ?_⟩
  · rw [h.1, hmore.1, List.append_assoc]
  · rw [hmore.2, h.2, List.length_append, Nat.add_assoc]

/-- Between the two parts of a text that is passed there is a place. -/
theorem Passes.split {first third : Cursor} {text more : Text} (h : first.Passes (text ++ more) third) :
    ∃ second, first.Passes text second ∧ second.Passes more third := by
  obtain ⟨hrest, hposition⟩ := h
  refine ⟨⟨more ++ third.rest, first.position + text.length⟩, ⟨?_, rfl⟩, rfl, ?_⟩
  · rw [hrest, List.append_assoc]
  · rw [hposition, List.length_append, Nat.add_assoc]

/-- Behind a text that the rest begins with there is a place. -/
theorem exists_passes {cursor : Cursor} {text more : Text} (h : cursor.rest = text ++ more) :
    ∃ next, cursor.Passes text next ∧ next.rest = more :=
  ⟨⟨more, cursor.position + text.length⟩, ⟨h, rfl⟩, rfl⟩

/-- No more is left behind a text than before it. -/
theorem Passes.length_le {first second : Cursor} {text : Text} (h : first.Passes text second) :
    second.rest.length ≤ first.rest.length := by
  rw [h.1, List.length_append]
  omega

/-- Less is left behind a text that is not empty than before it. -/
theorem Passes.length_lt {first second : Cursor} {text : Text} (h : first.Passes text second)
    (hne : text ≠ []) : second.rest.length < first.rest.length := by
  have hpos : 0 < text.length := List.length_pos_iff.2 hne
  rw [h.1, List.length_append]
  omega

/-- A text is accepted exactly where it lies between the place and the next one. -/
theorem accept?_eq_some_iff {cursor next : Cursor} {text : Text} :
    cursor.accept? text = some next ↔ cursor.Passes text next := by
  obtain ⟨rest, position⟩ := cursor
  obtain ⟨left, position'⟩ := next
  unfold accept? Passes
  constructor
  · intro h
    split at h
    · rename_i hstarts
      cases h
      exact ⟨eq_append_drop hstarts, rfl⟩
    · cases h
  · rintro ⟨hrest, hposition⟩
    simp only at hrest hposition ⊢
    rw [hrest, hposition, if_pos (List.isPrefixOf_iff_prefix.2 (List.prefix_append _ _)),
      List.drop_left]

/-- A text that is expected is read exactly where it lies between the place and the next one. -/
theorem expect_eq_ok_iff {cursor next : Cursor} {text : Text} :
    (cursor.expect text).ending = .ok next ↔ cursor.Passes text next := by
  rw [← accept?_eq_some_iff, expect]
  cases cursor.accept? text with
  | none => simp [fail]
  | some next => simp

end Cursor

/-! ## Pieces and bodies -/

/-- The letters that may follow a backslash, each with the character it stands for. -/
def escapes : List (Char × Char) :=
  [('n', '\n'), ('t', '\t'), ('r', '\r'), ('0', '\x00'), ('\\', '\\'), ('"', '"'), ('\'', '\'')]

/-- The escapes by a letter are those of the table. -/
theorem escaped?_eq_some_iff {letter c : Char} :
    escaped? letter = some c ↔ (letter, c) ∈ escapes := by
  constructor
  · intro h
    unfold escaped? at h
    split at h <;> cases h <;> decide
  · intro h
    simp only [escapes, List.mem_cons, Prod.mk.injEq, List.not_mem_nil, or_false] at h
    rcases h with ⟨rfl, rfl⟩ | ⟨rfl, rfl⟩ | ⟨rfl, rfl⟩ | ⟨rfl, rfl⟩ | ⟨rfl, rfl⟩ | ⟨rfl, rfl⟩ |
      ⟨rfl, rfl⟩ <;> rfl

/-- An escape by code: a backslash, the letter `u`, and the digits of the code in braces. -/
def codeEscape (digits : Text) : Text := '\\' :: 'u' :: '{' :: digits ++ ['}']

/-- A piece of a literal spells a code point: a character by itself or by the letter of an escape, and any code point, a
surrogate too, by its number. -/
inductive SpellsChar : Text → CodePoint → Prop where
  | plain {c : Char} (quote : c ≠ '"') (backslash : c ≠ '\\') : SpellsChar [c] (.ofChar c)
  | escape {letter c : Char} (escape : (letter, c) ∈ escapes) : SpellsChar ['\\', letter] (.ofChar c)
  | code {digits : Text} {p : CodePoint} (digits_code : IsCode digits p.code) : SpellsChar (codeEscape digits) p

/-- The body of a literal spells a text, piece by piece. -/
inductive SpellsBody : Text → CodeText → Prop where
  | nil : SpellsBody [] []
  | cons {piece body : Text} {text : CodeText} {p : CodePoint} (first : SpellsChar piece p)
      (more : SpellsBody body text) : SpellsBody (piece ++ body) (p :: text)

/-- A text without quotes and backslashes spells itself. -/
theorem spellsBody_coded {text : Text} (h : ∀ c ∈ text, c ≠ '"' ∧ c ≠ '\\') : SpellsBody text (Text.coded text) := by
  induction text with
  | nil => exact .nil
  | cons c text ih =>
    obtain ⟨⟨hquote, hbackslash⟩, hmore⟩ := List.forall_mem_cons.1 h
    exact .cons (.plain hquote hbackslash) (ih hmore)

/-- A literal is a body between two quotes. -/
def SpellsString (literal : Text) (text : CodeText) : Prop :=
  ∃ body, SpellsBody body text ∧ literal = '"' :: body ++ ['"']

/-- A piece is read as the code point it spells, whatever follows it. -/
theorem stringBody_piece {piece : Text} {p : CodePoint} (h : SpellsChar piece p) (rest : Text)
    (position : Nat) :
    (stringBody (piece ++ rest) position).ending =
      prepend p <$> (stringBody rest (position + piece.length)).ending := by
  cases h with
  | plain quote backslash =>
    rw [List.singleton_append, stringBody]
    · rfl
    · exact fun h => quote h
    · exact fun h _ => backslash h
    · exact fun _ h _ => backslash h
    · exact fun _ _ h _ => backslash h
  | @escape letter c hescape =>
    -- No escape by letter is taken for an escape by code.
    have hletter : letter ≠ 'u' := by
      rintro rfl
      revert hescape
      simp [escapes]
    rw [List.cons_append, List.singleton_append, stringBody]
    · rw [escaped?_eq_some_iff.2 hescape]
      rfl
    · exact fun h => hletter h
  | @code digits _ hcode =>
    -- The reader looks at the digits and their braces before it looks the code up.
    have hbraced : braced? ('{' :: digits ++ '}' :: rest) = some (p.code, rest) :=
      braced?_eq_some_iff.2 ⟨digits, hcode, rfl⟩
    have htext : codeEscape digits ++ rest = '\\' :: 'u' :: ('{' :: digits ++ '}' :: rest) := by
      simp [codeEscape]
    rw [htext, stringBody]
    split
    · rename_i hnone
      rw [hbraced] at hnone
      cases hnone
    · rename_i code left hsome
      rw [hbraced] at hsome
      cases hsome
      have hposition : position + 2 + (('{' :: digits ++ '}' :: rest).length - rest.length) =
          position + (codeEscape digits).length := by
        simp [codeEscape]
        omega
      rw [CodePoint.ofNat?_eq_some_iff.2 rfl, ← hposition]
      rfl

/-- A body is read as the text it spells, whatever follows it. -/
theorem stringBody_body {body : Text} {text : CodeText} (h : SpellsBody body text) (rest : Text)
    (position : Nat) :
    (stringBody (body ++ rest) position).ending =
      (fun read => (text ++ read.1, read.2)) <$> (stringBody rest (position + body.length)).ending := by
  induction h generalizing position with
  | nil =>
    simp only [List.nil_append, List.length_nil, Nat.add_zero]
    cases (stringBody rest position).ending with
    | error e => rfl
    | ok r => rfl
  | @cons piece body text p first more ih =>
    rw [List.append_assoc, stringBody_piece first, ih, List.length_append, ← Nat.add_assoc]
    cases (stringBody rest (position + piece.length + body.length)).ending with
    | error e => rfl
    | ok r => rfl

/-- A character that is read by neither kind of escape is no backslash. -/
theorem ne_backslash {c : Char} {rest : Text} (hlone : c = '\\' → rest = [] → False)
    (hletter : ∀ letter left, c = '\\' → rest = letter :: left → False) : c ≠ '\\' := by
  intro hc
  cases rest with
  | nil => exact hlone hc rfl
  | cons letter left => exact hletter letter left hc rfl

/-- A text that is read as a string is a body and a closing quote. -/
theorem spellsBody_of_stringBody {rest : Text} {text : CodeText} {position : Nat} {next : Cursor}
    (h : (stringBody rest position).ending = .ok (text, next)) :
    ∃ body, SpellsBody body text ∧ rest = body ++ '"' :: next.rest ∧
      next.position = position + body.length + 1 := by
  fun_induction stringBody rest position generalizing text next with
  | case1 => cases h
  | case2 =>
    cases h
    exact ⟨[], .nil, rfl, rfl⟩
  | case3 => cases h
  | case4 => cases h
  | case5 => cases h
  | case6 position rest code left hb p hp ih =>
    obtain ⟨⟨more, cursor⟩, hmore, he⟩ := Course.map_eq_ok_iff.1 h
    cases he
    obtain ⟨body, hbody, hleft, hposition⟩ := ih hmore
    obtain ⟨digits, hcode, hrest⟩ := braced?_eq_some_iff.1 hb
    cases CodePoint.ofNat?_eq_some_iff.1 hp
    refine ⟨codeEscape digits ++ body, .cons (.code hcode) hbody, ?_, ?_⟩
    · simp [codeEscape, hrest, hleft]
    · rw [hposition, hrest, List.length_append]
      simp [codeEscape]
      omega
  | case7 => cases h
  | case8 position letter rest _ c hc ih =>
    obtain ⟨⟨more, cursor⟩, hmore, he⟩ := Course.map_eq_ok_iff.1 h
    cases he
    obtain ⟨body, hbody, hrest, hposition⟩ := ih hmore
    refine ⟨['\\', letter] ++ body, .cons (.escape (escaped?_eq_some_iff.1 hc)) hbody, ?_, ?_⟩
    · rw [hrest]
      rfl
    · rw [hposition, List.length_append]
      simp
      omega
  | case9 position c rest hquote hlone hu hletter ih =>
    obtain ⟨⟨more, cursor⟩, hmore, he⟩ := Course.map_eq_ok_iff.1 h
    cases he
    obtain ⟨body, hbody, hrest, hposition⟩ := ih hmore
    have hbackslash : c ≠ '\\' := ne_backslash hlone hletter
    refine ⟨[c] ++ body, .cons (.plain hquote hbackslash) hbody, ?_, ?_⟩
    · rw [hrest]
      rfl
    · rw [hposition, List.length_append]
      simp
      omega

/-- A text is read as a string exactly if it is a body that spells the string and a closing quote. -/
theorem stringBody_eq_ok_iff {rest : Text} {text : CodeText} {position : Nat} {next : Cursor} :
    (stringBody rest position).ending = .ok (text, next) ↔
      ∃ body, SpellsBody body text ∧ rest = body ++ '"' :: next.rest ∧
        next.position = position + body.length + 1 := by
  constructor
  · exact spellsBody_of_stringBody
  · rintro ⟨body, hbody, rfl, hposition⟩
    obtain ⟨left, position'⟩ := next
    cases hposition
    rw [stringBody_body hbody, stringBody]
    show Except.ok (text ++ [], _) = _
    rw [List.append_nil]

/-- The reader of strings takes a literal and nothing else. -/
theorem readString_eq_ok_iff {cursor next : Cursor} {text : CodeText} :
    (readString cursor).ending = .ok (text, next) ↔
      ∃ literal, SpellsString literal text ∧ cursor.Passes literal next := by
  unfold readString
  rw [Course.bind_eq_ok_iff]
  constructor
  · rintro ⟨inside, hinside, hbody⟩
    obtain ⟨hrest, hposition⟩ := Cursor.expect_eq_ok_iff.1 hinside
    obtain ⟨body, hspells, hbody, hend⟩ := stringBody_eq_ok_iff.1 hbody
    refine ⟨'"' :: body ++ ['"'], ⟨body, hspells, rfl⟩, ?_, ?_⟩
    · rw [hrest, hbody]
      simp
    · rw [hend, hposition]
      simp
      omega
  · rintro ⟨literal, ⟨body, hspells, rfl⟩, hrest, hposition⟩
    refine ⟨⟨body ++ '"' :: next.rest, cursor.position + 1⟩, ?_, ?_⟩
    · rw [Cursor.expect_eq_ok_iff]
      refine ⟨?_, rfl⟩
      rw [hrest]
      simp
    · rw [stringBody_eq_ok_iff]
      refine ⟨body, hspells, rfl, ?_⟩
      rw [hposition]
      simp
      omega

end GuidedTour.Outcome
