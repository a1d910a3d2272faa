import Mathlib
import GuidedTour.Yaml.Token.Block
import GuidedTour.Yaml.Token.Plain
import GuidedTour.Yaml.Token.Property
import GuidedTour.Yaml.Token.Quoted

/-!
# What a step through the characters can fail with

A step through the characters of a text fails because the text is no document, because of what stops the text, or
at a spelling that asks for too much (`Yaml.Misspelt`): an escape of eight digits past the last character, or a
version with too many digits. Nothing else is ever thrown, which is proved for each kind of token by way of one
triple for each step (`Lex.Safe`).

All steps keep to the text: what is left is an end of it, and what stops it stays the same (`Cursor.Within`).
-/

set_option autoImplicit false
set_option mvcgen.warning false

open Std.Do

namespace GuidedTour

/-! ## Digits -/

namespace Text

/-- A digit is below its base. -/
theorem lt_of_digitIn? {base : Nat} {c : Char} {n : Nat} (h : digitIn? base c = some n) : n < base := by
  unfold digitIn? at h
  have hfilter := Option.mem_filter_iff.1 h
  simpa using hfilter.2

/-- Digits behind a number keep it below its successor, shifted by as many places. -/
theorem lt_of_foldlM_digitIn? {base : Nat} {digits : Text} {n m : Nat}
    (h : digits.foldlM (fun n c => (digitIn? base c).map (n * base + ·)) n = some m) :
    m < (n + 1) * base ^ digits.length := by
  induction digits generalizing n with
  | nil =>
    cases h
    simp
  | cons c more ih =>
    rw [List.foldlM_cons] at h
    obtain ⟨k, hk, hmore⟩ := Option.bind_eq_some_iff.1 h
    obtain ⟨d, hd, rfl⟩ := Option.map_eq_some_iff.1 hk
    have hlt := lt_of_digitIn? hd
    have hnext : n * base + d + 1 ≤ (n + 1) * base := by
      rw [Nat.add_mul, Nat.one_mul]
      omega
    calc m < (n * base + d + 1) * base ^ more.length := ih hmore
      _ ≤ (n + 1) * base * base ^ more.length := Nat.mul_le_mul_right _ hnext
      _ = (n + 1) * base ^ (c :: more).length := by rw [List.length_cons, Nat.pow_succ', Nat.mul_assoc]

/-- A number of some digits is below the power of its base. -/
theorem lt_of_natIn? {base : Nat} {digits : Text} {n : Nat} (h : natIn? base digits = some n) :
    n < base ^ digits.length := by
  cases digits with
  | nil => cases h
  | cons c more =>
    have hlt := lt_of_foldlM_digitIn? h
    rwa [Nat.zero_add, Nat.one_mul] at hlt

end Text

namespace Yaml

/-! ## Failures and places -/

/-- A spelling in a text that asks for what no reader can take. -/
inductive Misspelt (text : Text) : Fault → Prop where
  /-- An escape of a code that is past the last character. -/
  | pastLast {digits : Text} {code : Nat} : '\\' :: 'U' :: digits <:+: text → digits.length = 8 →
      Text.natIn? 16 digits = some code → 0x10ffff < code → Misspelt text .illFormed
  /-- An escape of a code that does not fit into a machine word. -/
  | tooLarge {digits : Text} {code : Nat} : '\\' :: 'U' :: digits <:+: text → digits.length = 8 →
      Text.natIn? 16 digits = some code → 2 ^ 31 ≤ code → Misspelt text .tooLarge
  /-- A version with too many digits. -/
  | version {between digits : Text} : "YAML".toList ++ between ++ digits <:+: text →
      (∀ c ∈ between, c = ' ' ∨ c = '.' ∨ c.isDigit = true) → (∀ c ∈ digits, c.isDigit = true) →
      Text.digitLimit < digits.length → Misspelt text .illFormed

/-- What reading a text can fail with. -/
inductive Warranted (incoming : Incoming) : Error → Prop where
  /-- The text is no document. -/
  | invalid : Warranted incoming .invalid
  /-- The text does not come in any further. -/
  | stopped {error : Error} : incoming.stop = some error → Warranted incoming error
  /-- The text asks for what no reader can take. -/
  | misspelt {fault : Fault} : Misspelt incoming.text fault → Warranted incoming (.fault fault)

variable {incoming : Incoming}

namespace Cursor

/-- A place in a text: what is left is an end of it, and the same stops it. -/
structure Within (incoming : Incoming) (c : Cursor) : Prop where
  rest : c.rest <:+ incoming.text
  stop : c.stop = incoming.stop

/-- Reading begins in the text. -/
theorem within_start (incoming : Incoming) : (start incoming).Within incoming := ⟨List.suffix_rfl, rfl⟩

/-- The next place has one character less in front of it. -/
theorem rest_next (c : Cursor) : c.next.rest = c.rest.drop 1 := by
  unfold next
  split
  · rename_i hrest
    rw [hrest]
    rfl
  · rename_i hrest
    rw [hrest]
    dsimp only
    split <;> rfl

/-- The character that comes next stands in front of what the next place has. -/
theorem rest_eq_cons {c : Cursor} {ch : Char} (h : c.rest.head? = some ch) : c.rest = ch :: c.next.rest := by
  obtain ⟨rest, hrest⟩ := List.head?_eq_some_iff.1 h
  rw [rest_next, hrest, List.drop_one, List.tail_cons]

/-- Some places on, as many characters are gone. -/
theorem rest_skip (c : Cursor) (n : Nat) : (c.skip n).rest = c.rest.drop n := by
  induction n generalizing c with
  | zero => rfl
  | succ n ih =>
    have hmore := ih c.next
    rw [rest_next, List.drop_drop, Nat.add_comm] at hmore
    exact hmore

/-- Moving on does not change what stops the text. -/
theorem stop_next (c : Cursor) : c.next.stop = c.stop := by
  unfold next
  split
  · rfl
  · dsimp only
    split <;> rfl

/-- The next place is in the text. -/
theorem Within.next {c : Cursor} (h : c.Within incoming) : c.next.Within incoming := by
  constructor
  · rw [rest_next]
    exact (List.drop_suffix 1 c.rest).trans h.rest
  · rw [stop_next, h.stop]

/-- Each place further on is in the text. -/
theorem Within.skip {c : Cursor} (h : c.Within incoming) (n : Nat) : (c.skip n).Within incoming := by
  induction n generalizing c with
  | zero => exact h
  | succ n ih => exact ih h.next

/-- A place in a version: behind its keyword and some spaces, points and digits. -/
structure InVersion (incoming : Incoming) (c : Cursor) : Prop where
  within : c.Within incoming
  version : ∃ between, (∀ ch ∈ between, ch = ' ' ∨ ch = '.' ∨ ch.isDigit = true) ∧
    "YAML".toList ++ between ++ c.rest <:+ incoming.text

/-- Passing spaces, points and digits stays in the version. -/
theorem InVersion.past {c c' : Cursor} (h : c.InVersion incoming) (h' : c'.Within incoming) {passed : Text}
    (hpassed : passed ++ c'.rest = c.rest) (hall : ∀ ch ∈ passed, ch = ' ' ∨ ch = '.' ∨ ch.isDigit = true) :
    c'.InVersion incoming := by
  obtain ⟨between, hbetween, htext⟩ := h.version
  refine ⟨h', between ++ passed, ?_, ?_⟩
  · intro ch hch
    rcases List.mem_append.1 hch with hch | hch
    · exact hbetween ch hch
    · exact hall ch hch
  · rw [← List.append_assoc, List.append_assoc, hpassed]
    exact htext

end Cursor

/-! ## Steps through the characters -/

/-- Throwing has to meet what is said of the error alone. -/
@[spec high]
theorem throw_spec {σ α : Type} (error : Error) {Q : PostCond α (.arg σ (.except Error .pure))} :
    ⦃fun _ => Q.2.1 error⦄ (throw error : StateT σ (Except Error) α) ⦃Q⦄ := by
  intro s h
  exact h

/-- A result has to meet what is said of results. -/
@[spec]
theorem ok_spec {α : Type} (a : α) {Q : PostCond α (.except Error .pure)} :
    ⦃Q.1 a⦄ (Except.ok a : Except Error α) ⦃Q⦄ :=
  id

/-- A failure has to meet what is said of errors. -/
@[spec]
theorem error_spec {α : Type} (error : Error) {Q : PostCond α (.except Error .pure)} :
    ⦃Q.2.1 error⦄ (Except.error error : Except Error α) ⦃Q⦄ :=
  id

/-- A triple tells with what a run can fail. -/
theorem error_of_run {σ α : Type} {step : StateT σ (Except Error) α} {P : σ → Prop} {R : α → σ → Prop}
    {E : Error → Prop} (h : ⦃fun s => ⌜P s⌝⦄ step ⦃post⟨fun a s => ⌜R a s⌝, fun error => ⌜E error⌝⟩⦄)
    {s : σ} (hs : P s) {error : Error} (hrun : step.run s = .error error) : E error := by
  have hstep := h s hs
  change (wp⟦step.run s⟧ _).down at hstep
  rw [hrun] at hstep
  exact hstep

/-- Giving up is warranted by any text, in whatever state. -/
@[spec]
theorem invalid_spec {σ α : Type} {P : α → Assertion (.arg σ (.except Error .pure))} :
    ⦃fun _ => ⌜True⌝⦄ (invalid : StateT σ (Except Error) α)
    ⦃post⟨P, fun error => ⌜Warranted incoming error⌝⟩⦄ := by
  mvcgen [invalid]
  exact .invalid

namespace Lex

/-- A step keeps to the text and fails only with what the text warrants. -/
abbrev Safe {α : Type} (incoming : Incoming) (step : Lex α) : Prop :=
  ⦃fun c => ⌜c.Within incoming⌝⦄ step
  ⦃post⟨fun _ c => ⌜c.Within incoming⌝, fun error => ⌜Warranted incoming error⌝⟩⦄

/-- Demanding a condition is safe: it only gives up. -/
@[spec]
theorem safe_demand (condition : Bool) : Safe incoming (demand condition) := by
  mvcgen [demand]

/-- Waiting for characters is safe: the error is the one that stops the text. -/
@[spec]
theorem safe_await (distance : Nat) : Safe incoming (await distance) := by
  mvcgen [await]
  rename_i c h error hstop hempty
  rw [h.stop] at hstop
  exact .stopped hstop

/-- Counting what is left is safe. -/
@[spec]
theorem safe_fuel : Safe incoming fuel := by
  mvcgen [fuel]

/-- Looking at the column is safe. -/
@[spec]
theorem safe_column : Safe incoming column := by
  mvcgen [column]

/-- Looking at the next character is safe. -/
@[spec]
theorem safe_peek : Safe incoming peek := by
  mvcgen [peek]

/-- Asking for the next character is safe. -/
@[spec]
theorem safe_sees (ch : Char) : Safe incoming (sees ch) := by
  mvcgen [sees]

/-- Looking ahead is safe. -/
@[spec]
theorem safe_peekAt (distance : Nat) : Safe incoming (peekAt distance) := by
  mvcgen [peekAt]

/-- Looking ahead at a hexadecimal digit is safe. -/
@[spec]
theorem safe_hexDigit (distance : Nat) : Safe incoming (hexDigit distance) := by
  mvcgen [hexDigit]

/-- Passing characters is safe: the place stays in the text. -/
@[spec]
theorem safe_skip (n : Nat) : Safe incoming (skip n) := by
  mvcgen [skip]
  rename_i c h moved
  exact h.skip n

/-- Passing one character is safe. -/
@[spec]
theorem safe_next : Safe incoming next := by
  mvcgen [next]

/-! What some steps do, told of the place where they begin. -/

/-- Waiting for characters moves nothing. -/
theorem await_spec {c₀ : Cursor} (h : c₀.Within incoming) (distance : Nat) :
    ⦃fun c => ⌜c = c₀⌝⦄ await distance
    ⦃post⟨fun _ c => ⌜c = c₀⌝, fun error => ⌜Warranted incoming error⌝⟩⦄ := by
  mvcgen [await, -safe_await]
  rename_i c hc error hstop hempty
  rw [hc, h.stop] at hstop
  exact .stopped hstop

/-- Passing a character moves on by one place. -/
theorem next_spec {c₀ : Cursor} (h : c₀.Within incoming) :
    ⦃fun c => ⌜c = c₀⌝⦄ next
    ⦃post⟨fun _ c => ⌜c = c₀.next⌝, fun error => ⌜Warranted incoming error⌝⟩⦄ := by
  mvcgen [next, skip, await_spec, -safe_next, -safe_skip, -safe_await]
  · exact h.next
  · rename_i c hc moved
    exact congrArg Cursor.next hc

/-- Characters that are passed over stand in front of what is left. -/
theorem takeWhile_spec {c₀ : Cursor} (h : c₀.Within incoming) (p : Char → Bool) :
    ⦃fun c => ⌜c = c₀⌝⦄ takeWhile p
    ⦃post⟨fun text c => ⌜c.Within incoming ∧ text ++ c.rest = c₀.rest ∧ ∀ ch ∈ text, p ch = true⌝,
      fun error => ⌜Warranted incoming error⌝⟩⦄ := by
  mvcgen [takeWhile, skip, await_spec, -safe_skip, -safe_await]
  case vc1 c hc _ _ =>
    subst hc
    exact h.skip _
  case vc2 c hc text _ _ c' hc' =>
    subst hc hc'
    have hprefix : c.rest.takeWhile p ++ c.rest.drop (c.rest.takeWhile p).length = c.rest :=
      List.prefix_iff_eq_append.1 (List.takeWhile_prefix p)
    rw [← Cursor.rest_skip] at hprefix
    exact ⟨h.skip _, hprefix, fun ch hch => List.mem_takeWhile_imp hch⟩

/-- What is passed as spaces are spaces. -/
theorem skipSpaces_spec {c₀ : Cursor} (h : c₀.Within incoming) :
    ⦃fun c => ⌜c = c₀⌝⦄ skipSpaces
    ⦃post⟨fun _ c => ⌜c.Within incoming ∧ ∃ spaces, spaces ++ c.rest = c₀.rest ∧ ∀ ch ∈ spaces, ch = ' '⌝,
      fun error => ⌜Warranted incoming error⌝⟩⦄ := by
  mvcgen [skipSpaces, skipWhile, takeWhile_spec]
  case vc1 hc => exact hc ▸ h
  case vc2 hc spaces c hspaces =>
    subst hc
    exact ⟨hspaces.1, spaces, hspaces.2.1, fun ch hch => beq_iff_eq.1 (hspaces.2.2 ch hch)⟩

/-- Taking the characters of a class is safe. -/
@[spec]
theorem safe_takeWhile (p : Char → Bool) : Safe incoming (takeWhile p) := by
  mvcgen [takeWhile]

/-- Passing the characters of a class is safe. -/
@[spec]
theorem safe_skipWhile (p : Char → Bool) : Safe incoming (skipWhile p) := by
  mvcgen [skipWhile]

/-- Passing spaces is safe. -/
@[spec]
theorem safe_skipSpaces : Safe incoming skipSpaces := by
  mvcgen [skipSpaces]

/-- Passing the rest of a line is safe. -/
@[spec]
theorem safe_skipLine : Safe incoming skipLine := by
  mvcgen [skipLine]

/-- Passing a comment is safe. -/
@[spec]
theorem safe_skipComment : Safe incoming skipComment := by
  mvcgen [skipComment]

/-- Passing a line break is safe. -/
@[spec]
theorem safe_lineBreak? : Safe incoming lineBreak? := by
  mvcgen [lineBreak?]

/-- Finishing a line is safe. -/
@[spec]
theorem safe_finishLine : Safe incoming finishLine := by
  mvcgen [finishLine]

/-- Asking for a mark of three characters is safe. -/
@[spec]
theorem safe_seesMark (marks : List Char) : Safe incoming (seesMark marks) := by
  mvcgen [seesMark]

/-- Asking for a separator of documents is safe. -/
@[spec]
theorem safe_seesSeparator : Safe incoming seesSeparator := by
  mvcgen [seesSeparator]

/-! ## Block scalars -/

/-- Reading how the end of a block scalar is cut is safe. -/
@[spec]
theorem safe_chomping? : Safe incoming chomping? := by
  mvcgen [chomping?]

/-- Reading the indentation that a header gives is safe. -/
@[spec]
theorem safe_increment? : Safe incoming increment? := by
  mvcgen [increment?]

/-- Reading the header of a block scalar is safe. -/
@[spec]
theorem safe_blockHeader : Safe incoming blockHeader := by
  mvcgen [blockHeader]

/-- Finding the indentation of a block scalar is safe, by induction over the lines in front. -/
@[spec]
theorem safe_blockIndentation (fuel deepest : Nat) : Safe incoming (blockIndentation fuel deepest) := by
  induction fuel generalizing deepest with
  | zero => mvcgen [blockIndentation]
  | succ fuel ih => mvcgen [blockIndentation, ih]

/-- Passing the indentation of a line is safe. -/
@[spec]
theorem safe_skipIndent (indent : Nat) : Safe incoming (skipIndent indent) := by
  mvcgen [skipIndent]

/-- Reading empty lines of a block scalar is safe, by induction over them. -/
@[spec]
theorem safe_blockBreaks (indent fuel : Nat) : Safe incoming (blockBreaks indent fuel) := by
  induction fuel with
  | zero => mvcgen [blockBreaks]
  | succ fuel ih => mvcgen [blockBreaks, ih]

/-- Asking for a further line of a block scalar is safe. -/
@[spec]
theorem safe_seesBlockLine (indent : Nat) : Safe incoming (seesBlockLine indent) := by
  mvcgen [seesBlockLine]

/-- Asking for a line of text that begins with no blank is safe. -/
@[spec]
theorem safe_seesText : Safe incoming seesText := by
  mvcgen [seesText]

/-- Reading the lines of a block scalar is safe, by induction over them. -/
@[spec]
theorem safe_blockLines (folded : Bool) (indent fuel : Nat) (breaks : Text) :
    Safe incoming (blockLines folded indent fuel breaks) := by
  induction fuel generalizing breaks with
  | zero => mvcgen [blockLines]
  | succ fuel ih => mvcgen [blockLines, ih]

/-- Reading a block scalar is safe. -/
@[spec]
theorem safe_block (folded : Bool) (parent : Int) : Safe incoming (block folded parent) := by
  mvcgen [block]

/-! ## Plain scalars -/

/-- Reading a plain scalar as far as its next blank is safe. -/
@[spec]
theorem safe_plainPart (inFlow : Bool) : Safe incoming (plainPart inFlow) := by
  mvcgen [plainPart]

/-- Reading the breaks inside a plain scalar is safe, by induction over them. -/
@[spec]
theorem safe_plainBreaks (fuel : Nat) : Safe incoming (plainBreaks fuel) := by
  induction fuel with
  | zero => mvcgen [plainBreaks]
  | succ fuel ih => mvcgen [plainBreaks, ih]

/-- Reading what separates the parts of a plain scalar is safe. -/
@[spec]
theorem safe_plainBetween : Safe incoming plainBetween := by
  mvcgen [plainBetween]

/-- Reading the parts of a plain scalar is safe, by induction over them. -/
@[spec]
theorem safe_plainParts (inFlow : Bool) (indent : Int) (fuel : Nat) (before : Text) :
    Safe incoming (plainParts inFlow indent fuel before) := by
  induction fuel generalizing before with
  | zero => mvcgen [plainParts]
  | succ fuel ih => mvcgen [plainParts, ih]

/-- Reading a plain scalar is safe. -/
@[spec]
theorem safe_plain (inFlow : Bool) (parent : Int) : Safe incoming (plain inFlow parent) := by
  mvcgen [plain]

/-! ## Directives, anchors and tags -/

/-- Reading a name is safe. -/
@[spec]
theorem safe_name : Safe incoming name := by
  mvcgen [name]

/-- Reading bytes behind percent signs is safe, by induction over them. -/
@[spec]
theorem safe_percentBytes (fuel : Nat) : Safe incoming (percentBytes fuel) := by
  induction fuel with
  | zero => mvcgen [percentBytes]
  | succ fuel ih => mvcgen [percentBytes, ih]

/-- Reading the pieces of an address is safe, by induction over them. -/
@[spec]
theorem safe_addressPieces (fuel : Nat) : Safe incoming (addressPieces fuel) := by
  induction fuel with
  | zero => mvcgen [addressPieces]
  | succ fuel ih => mvcgen [addressPieces, ih]

/-- Reading an address is safe. -/
@[spec]
theorem safe_address : Safe incoming address := by
  mvcgen [address]

/-- Reading a tag handle is safe. -/
@[spec]
theorem safe_handle : Safe incoming handle := by
  mvcgen [handle]

/-- A name that is read stood in front of what is left. -/
theorem name_spec {c₀ : Cursor} (h : c₀.Within incoming) :
    ⦃fun c => ⌜c = c₀⌝⦄ name
    ⦃post⟨fun name c => ⌜c.Within incoming ∧ name ++ c.rest = c₀.rest⌝,
      fun error => ⌜Warranted incoming error⌝⟩⦄ := by
  mvcgen [name, takeWhile_spec, demand, -safe_name, -safe_takeWhile, -safe_demand]
  case vc1 hc => exact hc ▸ h
  case vc2 hc _ _ hname _ => exact ⟨hname.1, hc ▸ hname.2.1⟩

/-- A number in a version has too many digits, or it is passed over. -/
theorem versionNumber_spec :
    ⦃fun c => ⌜c.InVersion incoming⌝⦄ versionNumber
    ⦃post⟨fun _ c => ⌜c.InVersion incoming⌝, fun error => ⌜Warranted incoming error⌝⟩⦄ := by
  mvcgen [versionNumber, takeWhile_spec, demand, -safe_takeWhile, -safe_demand]
  case vc1 h => exact h.within
  case vc2 c h digits c' hdigits _ hmany =>
    obtain ⟨between, hbetween, htext⟩ := h.version
    rw [← hdigits.2.1] at htext
    have hstands : "YAML".toList ++ between ++ digits <:+: "YAML".toList ++ between ++ (digits ++ c'.rest) := by
      rw [← List.append_assoc]
      exact (List.prefix_append _ _).isInfix
    exact .misspelt (.version (hstands.trans htext.isInfix) hbetween hdigits.2.2 hmany)
  case vc3 c h digits c' hdigits _ _ =>
    exact h.past hdigits.1 hdigits.2.1 fun ch hch => .inr (.inr (hdigits.2.2 ch hch))

/-- Reading a directive is safe: only a version with too many digits fails in a way of its own. -/
@[spec]
theorem safe_directive : Safe incoming directive := by
  mvcgen [directive, next_spec, name_spec, skipSpaces_spec, versionNumber_spec, demand, sees, peek, -safe_next,
    -safe_name, -safe_skipSpaces, -safe_demand, -safe_sees, -safe_peek]
  case vc2 h _ _ hnext => exact hnext ▸ h.next
  case vc3 hname _ _ _ => exact hname.1
  case vc4 h _ _ hnext _ _ hname _ _ hyaml _ c hspaces =>
    obtain ⟨hc, spaces, hrest, hall⟩ := hspaces
    -- The keyword and the spaces are what comes behind the percent sign.
    refine ⟨hc, spaces, fun ch hch => .inl (hall ch hch), ?_⟩
    rw [List.append_assoc, hrest, show "YAML".toList = _ from hyaml.symm, hname.2, hnext]
    exact h.next.rest
  case vc5 h _ => exact h.within
  case vc6 c h hpoint _ _ hnext =>
    have hpassed := Cursor.rest_eq_cons (beq_iff_eq.1 hpoint)
    subst hnext
    exact h.past h.within.next hpassed.symm fun ch hch => .inr (.inl (List.mem_singleton.1 hch))
  case vc7 h _ => exact h.within
  case vc8 hname _ _ _ _ => exact hname.1
  case vc9 hspaces => exact hspaces.1
  case vc11 hspaces => exact hspaces.1
  case vc13 hname _ _ _ _ => exact hname.1

/-- Reading the name of an anchor is safe. -/
@[spec]
theorem safe_anchorName : Safe incoming anchorName := by
  mvcgen [anchorName]

/-- Asking whether a tag has a handle is safe. -/
@[spec]
theorem safe_hasHandle : Safe incoming hasHandle := by
  mvcgen [hasHandle]

/-- Reading a tag is safe. -/
@[spec]
theorem safe_tag : Safe incoming tag := by
  mvcgen [tag]

/-! ## Quoted scalars -/

/-- Reading line breaks between quotes is safe, by induction over them. -/
@[spec]
theorem safe_quotedBreaks (fuel : Nat) : Safe incoming (quotedBreaks fuel) := by
  induction fuel with
  | zero => mvcgen [quotedBreaks]
  | succ fuel ih => mvcgen [quotedBreaks, ih]

/-- Reading blanks between quotes is safe. -/
@[spec]
theorem safe_quotedBlanks : Safe incoming quotedBlanks := by
  mvcgen [quotedBlanks]

/-- A hexadecimal digit is looked at where it stands, and the place does not move. -/
theorem hexDigit_spec {c₀ : Cursor} (h : c₀.Within incoming) (distance : Nat) :
    ⦃fun c => ⌜c = c₀⌝⦄ hexDigit distance
    ⦃post⟨fun digit c => ⌜c = c₀ ∧ c₀.rest[distance]? = some digit⌝,
      fun error => ⌜Warranted incoming error⌝⟩⦄ := by
  mvcgen [hexDigit, peekAt, await_spec, -safe_hexDigit, -safe_peekAt, -safe_await]
  · rename_i c hc
    exact hc ▸ h
  · rename_i c hc waited c' hc' digit hdigit hhex
    rw [hc', hc] at hdigit
    exact ⟨hc'.trans hc, hdigit⟩

/-- The digits of an escape stand next to each other. -/
theorem hexDigits_spec {c₀ : Cursor} (h : c₀.Within incoming) (first width : Nat) :
    ⦃fun c => ⌜c = c₀⌝⦄ (List.range' first width).mapM hexDigit
    ⦃post⟨fun digits c => ⌜c = c₀ ∧ digits.length = width ∧ digits <+: c₀.rest.drop first⌝,
      fun error => ⌜Warranted incoming error⌝⟩⦄ := by
  induction width generalizing first with
  | zero =>
    rw [List.range'_zero, List.mapM_nil]
    mvcgen
    rename_i c hc
    exact ⟨hc, rfl, List.nil_prefix⟩
  | succ width ih =>
    rw [List.range'_succ, List.mapM_cons]
    mvcgen [hexDigit_spec, ih, -safe_hexDigit]
    case vc1 c hc => exact hc ▸ h
    case vc2 c₁ hc₁ digit c hdigit => exact hdigit.1.trans hc₁
    case vc3 c₁ hc₁ digit c hdigit digits c' hdigits =>
      subst hc₁
      -- The first digit is what stands in front of the place from which the others are read.
      obtain ⟨hlt, hget⟩ := List.getElem?_eq_some_iff.1 hdigit.2
      refine ⟨hdigits.1, congrArg (· + 1) hdigits.2.1, ?_⟩
      rw [List.drop_eq_getElem_cons hlt, hget]
      exact (List.prefix_cons_inj digit).2 hdigits.2.2

/-- Only eight digits spell a code past the last character. -/
theorem codedCharacter_spec {letter : Char} {digits : Text} (hwidth : escapeWidth? letter = some digits.length)
    (htext : '\\' :: letter :: digits <:+: incoming.text) :
    ⦃⌜True⌝⦄ codedCharacter digits ⦃post⟨fun _ => ⌜True⌝, fun error => ⌜Warranted incoming error⌝⟩⦄ := by
  have height {code : Nat} (hcode : Text.natIn? 16 digits = some code) (hpast : 0x10ffff < code) :
      letter = 'U' ∧ digits.length = 8 := by
    have hlt := Text.lt_of_natIn? hcode
    unfold escapeWidth? at hwidth
    split at hwidth
    · rw [← Option.some.inj hwidth] at hlt
      omega
    · rw [← Option.some.inj hwidth] at hlt
      omega
    · exact ⟨rfl, (Option.some.inj hwidth).symm⟩
    · cases hwidth
  mvcgen [codedCharacter]
  case vc1 => exact .invalid
  case vc2 code hcode hlarge =>
    have hpast : 0x10ffff < code := Nat.lt_of_lt_of_le (by decide) hlarge
    obtain ⟨rfl, hlength⟩ := height hcode hpast
    exact .misspelt (.tooLarge htext hlength hcode hlarge)
  case vc3 code hcode _ hpast =>
    obtain ⟨rfl, hlength⟩ := height hcode hpast
    exact .misspelt (.pastLast htext hlength hcode hpast)

/-- Behind a backslash, reading an escape is safe: a code that it asks for stands there in eight digits. -/
theorem escape_spec :
    ⦃fun c => ⌜c.Within incoming ∧ '\\' :: c.rest <:+ incoming.text⌝⦄ escape
    ⦃post⟨fun _ c => ⌜c.Within incoming⌝, fun error => ⌜Warranted incoming error⌝⟩⦄ := by
  simp only [escape, List.range_eq_range']
  mvcgen [peek, next_spec, hexDigits_spec, codedCharacter_spec, -safe_peek, -safe_next]
  case vc1 h _ _ _ _ _ _ => exact h.1
  case vc2 h _ _ _ _ _ _ _ _ hnext => exact hnext ▸ h.1.next
  case vc3 h _ _ _ _ _ => exact h.1
  case vc4 h _ _ _ _ _ _ _ hnext => exact hnext ▸ h.1.next
  case vc6 hwidth _ _ _ _ _ _ hdigits => exact hwidth.trans (congrArg some hdigits.2.1.symm)
  case vc7 c h letter hletter _ _ _ _ c' hnext digits _ hdigits =>
    have htext : '\\' :: letter :: c'.rest <:+ incoming.text := by
      rw [hnext, ← Cursor.rest_eq_cons hletter]
      exact h.2
    have hdigits' : '\\' :: letter :: digits <+: '\\' :: letter :: c'.rest :=
      (List.prefix_cons_inj _).2 ((List.prefix_cons_inj _).2 hdigits.2.2)
    exact hdigits'.isInfix.trans htext.isInfix
  case vc8 h _ _ _ _ _ _ _ hnext _ _ hdigits _ =>
    rw [hdigits.1, hnext]
    exact h.1.next
  case vc9 h _ _ _ _ => exact h.1

/-- Reading what stands between quotes is safe, by induction over its pieces. -/
@[spec]
theorem safe_quotedBody (isDouble : Bool) (fuel : Nat) : Safe incoming (quotedBody isDouble fuel) := by
  induction fuel with
  | zero => mvcgen [quotedBody]
  | succ fuel ih =>
    mvcgen [quotedBody, peek, next_spec, escape_spec, ih, -safe_peek, -safe_next]
    -- The backslash has just been passed when an escape is read.
    case vc5 c h ch hhead _ hbackslash _ c' hnext =>
      have hrest : '\\' :: c'.rest = c.rest := by
        rw [hnext, Cursor.rest_eq_cons hhead, beq_iff_eq.1 hbackslash]
      exact ⟨hnext ▸ h.next, hrest ▸ h.rest⟩
    case vc8 h _ _ _ _ _ _ _ hnext => exact hnext ▸ h.next
    case vc13 h _ _ _ _ _ _ _ _ h' _ _ hnext => exact hnext ▸ h'.next

/-- Reading a quoted scalar is safe. -/
@[spec]
theorem safe_quoted (isDouble : Bool) : Safe incoming (quoted isDouble) := by
  mvcgen [quoted]

end Lex

end Yaml

end GuidedTour
