import GuidedTour.Token.Stream
import Mathlib.Data.List.Chain
import Mathlib.Data.List.DropRight

/-!
# The tokens tile the text

The tokens of a text lie end to end from its first character to its last one, say what stands between
their ends, and carry the line and the column at which they start (`stream_tiles_source`). What is left
over by all rules comes in whole stretches, so no two of them are neighbours.

The pieces of a text are followed together with the stretch `done` that lies before them. A token is placed
by counting from its predecessor, and `Position.after_start` says that this agrees with counting from the
beginning of the text.
-/

set_option autoImplicit false

namespace GuidedTour

/-! ## Places -/

namespace Position

/-- The place behind a stretch of text at the beginning of a source, counted from the stretch itself: its
length, its line feeds, and what follows the last of them. -/
def behind (done : Text) : Position :=
  ⟨done.length, 1 + Text.lineFeeds done, 1 + (done.rtakeWhile (· ≠ '\n')).length⟩

/-- Following two stretches of text is following the one and then the other. -/
theorem after_append (p : Position) (a b : Text) : p.after (a ++ b) = (p.after a).after b :=
  List.foldl_append

/-- Following a text moves the offset by its length. -/
theorem offset_after (p : Position) (text : Text) : (p.after text).offset = p.offset + text.length := by
  induction text generalizing p with
  | nil => rfl
  | cons c rest ih =>
    have hstep : (p.step c).offset = p.offset + 1 := by
      unfold step
      split <;> rfl
    have hrest : ((p.step c).after rest).offset = (p.step c).offset + rest.length := ih (p.step c)
    show ((p.step c).after rest).offset = p.offset + (rest.length + 1)
    omega

/-- One more character moves the place as `step` does. -/
theorem behind_concat (done : Text) (c : Char) : behind (done ++ [c]) = (behind done).step c := by
  by_cases hc : c = '\n'
  · simp [behind, step, hc, Text.lineFeeds]
    omega
  · simp [behind, step, hc, Text.lineFeeds]
    omega

/-- Following a text character by character ends at the place behind it. -/
theorem after_start (done : Text) : start.after done = behind done := by
  induction done using List.reverseRecOn with
  | nil => rfl
  | append_singleton done c ih =>
    rw [after_append, ih, behind_concat]
    rfl

/-- The place behind two stretches is reached from the place behind the first. -/
theorem behind_append (done text : Text) : behind (done ++ text) = (behind done).after text := by
  rw [← after_start, after_append, after_start]

end Position

/-! ## Pieces -/

section

variable {α κ : Type} [Matching α κ]

namespace Piece

/-- Not both of two pieces are gaps. -/
def Apart : Piece → Piece → Prop
  | gap _, gap _ => False
  | _, _ => True

/-- A gap that takes one more character in front stays apart from what follows it. -/
theorem isChain_consGap {c : Char} {pieces : List Piece} (h : pieces.IsChain Apart) :
    (consGap c pieces).IsChain Apart := by
  cases pieces with
  | nil => exact .singleton _
  | cons piece more =>
    cases piece with
    | matched cls text => exact .cons_cons trivial h
    | gap text =>
      cases more with
      | nil => exact .singleton _
      | cons next more =>
        obtain ⟨hnext, hmore⟩ := List.isChain_cons_cons.mp h
        exact .cons_cons (by cases next <;> exact hnext) hmore

/-- A match in front of pieces leaves gaps apart. -/
theorem isChain_matched {cls : TokenClass} {text : Text} {pieces : List Piece}
    (h : pieces.IsChain Apart) : (matched cls text :: pieces).IsChain Apart := by
  cases pieces with
  | nil => exact .singleton _
  | cons piece more => exact .cons_cons trivial h

/-- No two neighbouring pieces of a text are gaps. -/
theorem isChain_ofText (rules : List (Rule α)) (before : κ) (source : Text) :
    (ofText rules before source).IsChain Apart := by
  fun_induction ofText rules before source with
  | case1 => exact .nil
  | case2 before c rest h ih => exact isChain_consGap ih
  | case3 before c rest cls n h ih => exact isChain_matched ih

/-- What holds of every gap and of every match of a rule holds of every piece of a text. -/
theorem forall_mem_ofText {P : Piece → Prop} {rules : List (Rule α)}
    (hgap : ∀ c text, P (gap (c :: text)))
    (hmatched : ∀ before text cls n, Rule.first? rules before text = some (cls, n) →
      P (matched cls (text.take n)))
    (before : κ) (source : Text) : ∀ piece ∈ ofText rules before source, P piece := by
  fun_induction ofText rules before source with
  | case1 => simp
  | case2 before c rest h ih =>
    intro piece hp
    unfold consGap at hp
    split at hp
    · rename_i text more heq
      rcases List.mem_cons.mp hp with rfl | hp
      · exact hgap c text
      · exact ih piece (heq ▸ List.mem_cons_of_mem _ hp)
    · rcases List.mem_cons.mp hp with rfl | hp
      · exact hgap c []
      · exact ih piece hp
  | case3 before c rest cls n h ih =>
    intro piece hp
    rcases List.mem_cons.mp hp with rfl | hp
    · exact hmatched before (c :: rest) cls n h
    · exact ih piece hp

/-- No piece of a text is empty. -/
theorem text_ne_nil {rules : List (Rule α)} {before : κ} {source : Text} {piece : Piece}
    (h : piece ∈ ofText rules before source) : piece.text ≠ [] := by
  refine forall_mem_ofText (P := fun piece => piece.text ≠ []) ?_ ?_ before source piece h
  · intro c more
    exact List.cons_ne_nil c more
  · intro before ahead cls n hn he
    have hpos := Rule.first?_pos hn
    have hle := Rule.first?_le hn
    have hlen : (ahead.take n).length = 0 := congrArg List.length he
    rw [List.length_take] at hlen
    omega

/-- If no rule has the class of what is left over, only gaps have it. -/
theorem exists_gap {rules : List (Rule α)} (hrules : ∀ rule ∈ rules, rule.cls ≠ .unclassified)
    {before : κ} {source : Text} {piece : Piece} (h : piece ∈ ofText rules before source)
    (hcls : piece.cls = .unclassified) : ∃ text, piece = gap text := by
  refine forall_mem_ofText (P := fun piece => piece.cls = .unclassified → ∃ text, piece = gap text)
    (fun c text _ => ⟨c :: text, rfl⟩) ?_ before source piece h hcls
  intro before text cls n hn hc
  obtain ⟨⟨rule, hmem, hr⟩, -⟩ := Rule.first?_spec hn
  exact absurd (hr.trans hc) (hrules rule hmem)

end Piece

end

/-! ## The first rule that matches -/

/-- The class of a match is the class of one of the rules, whose pattern matches as much. -/
theorem Rule.mem_of_first? {rules : List (Rule Pattern)} {before : Option Char} {text : Text} {cls : TokenClass}
    {n : Nat} (h : first? rules before text = some (cls, n)) :
    ∃ rule ∈ rules, rule.cls = cls ∧ rule.pattern.length? before text = some n := by
  rw [first?_eq_findSome?] at h
  obtain ⟨rule, hmem, hr⟩ := List.exists_of_findSome?_eq_some h
  obtain ⟨k, hk, he⟩ := Option.map_eq_some_iff.mp hr
  obtain ⟨rfl, rfl⟩ := Prod.mk.inj he
  exact ⟨rule, hmem, rfl, hk⟩

/-- Nothing is found where no pattern matches. -/
theorem Rule.first?_eq_none_iff {rules : List (Rule Pattern)} {before : Option Char} {text : Text} :
    first? rules before text = none ↔ ∀ rule ∈ rules, rule.pattern.length? before text = none := by
  rw [first?_eq_findSome?]
  simp only [List.findSome?_eq_none_iff, Option.map_eq_none_iff]

/-- A rule that matches is the first one if none before it does. -/
theorem Rule.first?_of_earlier {earlier : List (Rule Pattern)} (later : List (Rule Pattern)) {rule : Rule Pattern}
    {before : Option Char} {text : Text} {n : Nat} (hearlier : first? earlier before text = none)
    (h : rule.pattern.length? before text = some n) :
    first? (earlier ++ rule :: later) before text = some (rule.cls, n) := by
  rw [first?_eq_findSome?] at hearlier ⊢
  rw [List.findSome?_append, hearlier, List.findSome?_cons, h]
  rfl

/-! ## Tokens -/

namespace Token

/-- Tokens that lie end to end from an offset to the end of a source. None is empty, and each says what
stands between its ends. -/
def TilesFrom (source : Text) : Nat → List Token → Prop
  | p, [] => p = source.length
  | p, token :: more =>
    token.start = p ∧ p < token.stop ∧ token.value = source.extract p token.stop ∧
      TilesFrom source token.stop more

/-- Tokens that tile a source. -/
structure Tiling (source : Text) (tokens : List Token) : Prop where
  /-- No token is empty. -/
  nonempty : ∀ token ∈ tokens, token.start < token.stop
  /-- The first token starts at the beginning of the source. -/
  first : ∀ token ∈ tokens.head?, token.start = 0
  /-- Each token starts where the one before it ends. -/
  abut : tokens.IsChain fun a b => b.start = a.stop
  /-- The last token ends at the end of the source. -/
  last : ∀ token ∈ tokens.getLast?, token.stop = source.length
  /-- Only the empty source has no tokens. -/
  covers : tokens = [] → source = []
  /-- Each token says what stands between its ends. -/
  value : ∀ token ∈ tokens, token.value = source.extract token.start token.stop

/-- The line and the column of a token are those of its start: one more than the line feeds before it, and
one more than the characters between the last of them and the token. -/
structure Placed (source : Text) (token : Token) : Prop where
  line : token.line = 1 + Text.lineFeeds (source.take token.start)
  column : token.column = 1 + ((source.take token.start).rtakeWhile (· ≠ '\n')).length

/-- No two neighbouring tokens are both left over by the rules. -/
def Separated (tokens : List Token) : Prop :=
  tokens.IsChain fun a b => ¬(a.cls = .unclassified ∧ b.cls = .unclassified)

/-- What stands between two places is taken behind the first. -/
theorem extract_add (source : Text) (p n : Nat) :
    source.extract p (p + n) = (source.drop p).take n := by
  rw [List.extract_eq_take_drop, Nat.add_sub_cancel_left]

/-- A stretch between two others is what stands between its ends. -/
theorem extract_append (done text rest : Text) :
    (done ++ (text ++ rest)).extract done.length (done.length + text.length) = text := by
  rw [extract_add, List.drop_left, List.take_left]

/-- Pieces that are placed behind a stretch of text tile what follows it. -/
theorem tilesFrom_place (done : Text) (pieces : List Piece) (h : ∀ piece ∈ pieces, piece.text ≠ []) :
    TilesFrom (done ++ pieces.flatMap Piece.text) done.length
      (place (Position.behind done) pieces) := by
  induction pieces generalizing done with
  | nil => simp [place, TilesFrom]
  | cons piece more ih =>
    have hpos : 0 < piece.text.length := List.length_pos_iff.mpr (h piece List.mem_cons_self)
    have hrest := ih (done ++ piece.text) fun next hn => h next (List.mem_cons_of_mem _ hn)
    rw [Position.behind_append, List.length_append, List.append_assoc] at hrest
    rw [List.flatMap_cons, place]
    refine ⟨rfl, ?_, ?_, hrest⟩
    · show done.length < done.length + piece.text.length
      omega
    · exact (extract_append done piece.text (more.flatMap Piece.text)).symm

/-- A token that is placed behind a stretch of text has the line and the column of its start. -/
theorem placed_place (done : Text) (pieces : List Piece) :
    ∀ token ∈ place (Position.behind done) pieces,
      Placed (done ++ pieces.flatMap Piece.text) token := by
  induction pieces generalizing done with
  | nil => simp [place]
  | cons piece more ih =>
    intro token ht
    rw [List.flatMap_cons]
    rcases List.mem_cons.mp ht with rfl | ht
    · have htake : (done ++ (piece.text ++ more.flatMap Piece.text)).take
          (located (Position.behind done) piece.cls piece.text).start = done := List.take_left
      exact ⟨by rw [htake]; rfl, by rw [htake]; rfl⟩
    · rw [← Position.behind_append] at ht
      rw [← List.append_assoc]
      exact ih (done ++ piece.text) token ht

/-- The tokens of a text have the lines and the columns of their starts. -/
theorem placed_stream {α κ : Type} [Matching α κ] (rules : List (Rule α)) (source : Text) :
    ∀ token ∈ stream rules source, Placed source token := by
  have h := placed_place [] (Piece.ofText rules (Matching.start α) source)
  rw [List.nil_append, Piece.flatMap_text_ofText] at h
  exact h

/-- Placing pieces keeps their classes. -/
theorem map_cls_place (p : Position) (pieces : List Piece) :
    (place p pieces).map cls = pieces.map Piece.cls := by
  induction pieces generalizing p with
  | nil => rfl
  | cons piece more ih => exact congrArg (piece.cls :: ·) (ih _)

/-- The tokens of some pieces are left over where the pieces are gaps, and gaps are apart. -/
theorem separated_place (p : Position) {pieces : List Piece} (happart : pieces.IsChain Piece.Apart)
    (hgap : ∀ piece ∈ pieces, piece.cls = .unclassified → ∃ text, piece = .gap text) :
    Separated (place p pieces) := by
  have hpieces : pieces.IsChain fun a b => ¬(a.cls = .unclassified ∧ b.cls = .unclassified) := by
    refine List.IsChain.imp_of_mem_imp ?_ happart
    rintro a b ha hb hab ⟨hca, hcb⟩
    obtain ⟨s, rfl⟩ := hgap a ha hca
    obtain ⟨t, rfl⟩ := hgap b hb hcb
    exact hab
  rw [Separated, ← List.isChain_map (R := fun a b => ¬(a = .unclassified ∧ b = .unclassified)) cls,
    map_cls_place, List.isChain_map]
  exact hpieces

/-- Tokens that lie end to end from an offset, told of the list as a whole. -/
theorem tilesFrom_iff (source : Text) (p : Nat) (tokens : List Token) :
    TilesFrom source p tokens ↔
      (∀ token ∈ tokens, token.start < token.stop ∧
        token.value = source.extract token.start token.stop) ∧
      (∀ token ∈ tokens.head?, token.start = p) ∧
      (tokens.IsChain fun a b => b.start = a.stop) ∧
      (tokens.getLast?.map stop).getD p = source.length := by
  induction tokens generalizing p with
  | nil => simp [TilesFrom]
  | cons token more ih =>
    rw [TilesFrom, ih]
    cases more with
    | nil =>
      constructor
      · rintro ⟨rfl, hlt, hvalue, -, -, -, hlast⟩
        simp_all
      · rintro ⟨hall, hfirst, -, hlast⟩
        simp_all
    | cons next more =>
      rw [List.isChain_cons_cons, List.getLast?_cons_cons]
      have hlast (q : Nat) : ((next :: more).getLast?.map stop).getD q =
          ((next :: more).getLast?.map stop).getD p := by
        simp [List.getLast?_cons]
      rw [hlast token.stop]
      constructor
      · rintro ⟨rfl, hlt, hvalue, hall, hfirst, hchain, hend⟩
        refine ⟨?_, by simp, ⟨hfirst next rfl, hchain⟩, hend⟩
        intro t ht
        rcases List.mem_cons.mp ht with rfl | ht
        · exact ⟨hlt, hvalue⟩
        · exact hall t ht
      · rintro ⟨hall, hfirst, ⟨habut, hchain⟩, hend⟩
        obtain ⟨hlt, hvalue⟩ := hall token List.mem_cons_self
        have hp : token.start = p := hfirst token rfl
        rw [hp] at hlt hvalue
        refine ⟨hp, hlt, hvalue, fun t ht => hall t (List.mem_cons_of_mem _ ht), ?_, hchain, hend⟩
        intro t ht
        obtain rfl : next = t := Option.some.inj ht
        exact habut

/-- To tile a source is to lie end to end from its beginning. -/
theorem tiling_iff_tilesFrom (source : Text) (tokens : List Token) :
    Tiling source tokens ↔ TilesFrom source 0 tokens := by
  rw [tilesFrom_iff]
  constructor
  · intro h
    refine ⟨fun token ht => ⟨h.nonempty token ht, h.value token ht⟩, h.first, h.abut, ?_⟩
    cases hl : tokens.getLast? with
    | none => simp [h.covers (List.getLast?_eq_none_iff.mp hl)]
    | some token => exact h.last token hl
  · rintro ⟨hall, hfirst, habut, hend⟩
    refine ⟨fun token ht => (hall token ht).1, hfirst, habut, ?_, ?_,
      fun token ht => (hall token ht).2⟩
    · intro token ht
      rw [Option.mem_def.mp ht] at hend
      exact hend
    · rintro rfl
      exact List.length_eq_zero_iff.mp hend.symm

/-- The tokens of a text by any rules tile it and say it, and each carries the line and the column of its
start. Where no rule has the class of what is left over, that comes in whole stretches. -/
theorem stream_tiles_source {α κ : Type} [Matching α κ] (rules : List (Rule α)) (source : Text) :
    Tiling source (stream rules source) ∧
    (stream rules source).flatMap value = source ∧
    (∀ token ∈ stream rules source, Placed source token) ∧
    ((∀ rule ∈ rules, rule.cls ≠ .unclassified) → Separated (stream rules source)) := by
  refine ⟨?_, flatMap_value_stream rules source, placed_stream rules source, ?_⟩
  · have htiles := tilesFrom_place [] (Piece.ofText rules (Matching.start α) source)
      fun _ => Piece.text_ne_nil
    rw [List.nil_append, Piece.flatMap_text_ofText] at htiles
    exact (tiling_iff_tilesFrom source _).mpr htiles
  · intro hrules
    exact separated_place _ (Piece.isChain_ofText rules (Matching.start α) source) fun _ =>
      Piece.exists_gap hrules

end Token

end GuidedTour
