import GuidedTour.Proofs.Token.Tiling
import GuidedTour.Token.Span

/-!
# Addresses of offsets

The address of an offset is the line it is on and the width of what stands before it on that line. The span
of a token is told from the token's own line and column, and comes to the addresses of the two offsets between
which the token lies (`Token.span_eq`). An address belongs to one offset only (`Token.addressAt_inj`), so an
editor that is given the two addresses marks exactly the characters of the token.

The same address is told without lines, from the last line feed before the offset and the UTF-16 code units behind it
(`Token.index`). The spans of all tokens lie end to end (`Token.spans_tile_text`).
-/

set_option autoImplicit false

namespace GuidedTour

/-! ## Lines -/

namespace Text

/-- The line feeds of two texts, one behind the other, are counted together. -/
theorem lineFeeds_append (a b : Text) : lineFeeds (a ++ b) = lineFeeds a + lineFeeds b := List.count_append

/-- A text without line feeds is one in which none occurs. -/
theorem lineFeeds_eq_zero_iff {text : Text} : lineFeeds text = 0 ↔ '\n' ∉ text := List.count_eq_zero

/-- A text without line feeds is its own last line. -/
theorem lastLine_of_notMem {text : Text} (h : '\n' ∉ text) : lastLine text = text := by
  cases text with
  | nil => rfl
  | cons c rest =>
    rw [List.mem_cons, not_or] at h
    rw [lastLine, if_neg (Ne.symm h.1), if_neg h.2]

/-- What follows the last line feed of two texts, one behind the other. -/
theorem lastLine_append (a b : Text) :
    lastLine (a ++ b) = if '\n' ∈ b then lastLine b else lastLine a ++ b := by
  induction a with
  | nil =>
    split
    · rfl
    · rename_i h
      exact lastLine_of_notMem h
  | cons c a ih =>
    rw [List.cons_append, lastLine, ih]
    by_cases hb : '\n' ∈ b
    · simp [hb]
    · by_cases hc : c = '\n'
      · simp [hb, hc, lastLine]
      · by_cases ha : '\n' ∈ a
        · simp [hb, hc, ha, lastLine]
        · simp [hb, hc, ha, lastLine]

/-- The last line is what stands at the end without a line feed. -/
theorem lastLine_eq_rtakeWhile (text : Text) : text.rtakeWhile (· ≠ '\n') = lastLine text := by
  induction text using List.reverseRecOn with
  | nil => rfl
  | append_singleton text c ih =>
    rw [lastLine_append]
    by_cases hc : c = '\n'
    · simp [hc, lastLine]
    · simp [hc, Ne.symm hc, ← ih]

/-- A character that is no line feed joins the first line. -/
theorem lines_cons_of_ne {c : Char} (hc : c ≠ '\n') (text : Text) :
    ∃ first more, lines text = first :: more ∧ lines (c :: text) = (c :: first) :: more := by
  obtain ⟨first, more, h⟩ := List.exists_cons_of_ne_nil (split_ne_nil '\n' text)
  refine ⟨first, more, h, ?_⟩
  rw [lines, split, if_neg hc, h, consFirst]

/-- A line feed ends an empty first line. -/
theorem lines_cons_lineFeed (text : Text) : lines ('\n' :: text) = [] :: lines text := by
  rw [lines, split, if_pos rfl]
  rfl

/-- Another character in front adds no line feed. -/
theorem lineFeeds_cons_of_ne {c : Char} (hc : c ≠ '\n') (text : Text) :
    lineFeeds (c :: text) = lineFeeds text := List.count_cons_of_ne hc

/-- A text has one line more than line feeds. -/
theorem length_lines (text : Text) : (lines text).length = 1 + lineFeeds text := by
  induction text with
  | nil => rfl
  | cons c rest ih =>
    by_cases hc : c = '\n'
    · subst hc
      rw [lines_cons_lineFeed, List.length_cons, ih, lineFeeds, lineFeeds, List.count_cons_self]
      omega
    · obtain ⟨first, more, hrest, hlines⟩ := lines_cons_of_ne hc rest
      rw [lineFeeds_cons_of_ne hc, ← ih, hlines, hrest]
      rfl

/-- The line on which one text stops and another one goes on. -/
theorem getD_lines (a b : Text) :
    (lines (a ++ b)).getD (lineFeeds a) [] = lastLine a ++ b.takeWhile (· ≠ '\n') := by
  induction a with
  | nil =>
    show (lines b).getD 0 [] = b.takeWhile (· ≠ '\n')
    induction b with
    | nil => rfl
    | cons c rest ih =>
      by_cases hc : c = '\n'
      · subst hc
        rfl
      · obtain ⟨first, more, hrest, hlines⟩ := lines_cons_of_ne hc rest
        rw [hrest] at ih
        rw [hlines, List.takeWhile_cons_of_pos (by simpa using hc), ← ih]
        rfl
  | cons c a ih =>
    by_cases hc : c = '\n'
    · subst hc
      rw [List.cons_append, lines_cons_lineFeed, lineFeeds, List.count_cons_self, List.getD_cons_succ,
        lastLine, if_pos rfl]
      exact ih
    · obtain ⟨first, more, hrest, hlines⟩ := lines_cons_of_ne hc (a ++ b)
      rw [List.cons_append, hlines, lineFeeds_cons_of_ne hc, lastLine, if_neg hc]
      rw [hrest] at ih
      by_cases ha : '\n' ∈ a
      · -- The line lies behind the first one, which alone takes the character.
        obtain ⟨n, hn⟩ := Nat.exists_eq_succ_of_ne_zero (mt lineFeeds_eq_zero_iff.1 (not_not.2 ha))
        rw [hn, List.getD_cons_succ] at ih ⊢
        rw [if_pos ha]
        exact ih
      · have hzero := lineFeeds_eq_zero_iff.2 ha
        rw [hzero, List.getD_cons_zero, lastLine_of_notMem ha] at ih
        rw [hzero, List.getD_cons_zero, if_neg ha, ih]
        rfl

end Text

namespace Token

/-- The widths of two texts, one behind the other, add up. -/
theorem columns_append (wide : Bool) (a b : Text) :
    columns wide (a ++ b) = columns wide a + columns wide b := by
  unfold columns
  split
  · rw [List.length_append, List.countP_append]
    omega
  · exact List.length_append

/-- A text is at least as wide as it is long. -/
theorem le_columns (wide : Bool) (text : Text) : text.length ≤ columns wide text := by
  unfold columns
  split <;> omega

/-- The address of an offset of a source: its line, and the width of what stands before it there. -/
def addressAt (wide : Bool) (source : Text) (offset : Nat) : Text :=
  address (1 + Text.lineFeeds (source.take offset)) (columns wide (Text.lastLine (source.take offset)))

/-- The span of a token that is placed in a source, and says what stands there, is told by the addresses of its
ends. -/
theorem span_of_placed {wide : Bool} {source : Text} {token : Token} (hplaced : Placed source token)
    (hle : token.start ≤ token.stop) (hvalue : token.value = source.extract token.start token.stop) :
    token.span wide (Text.lines source) =
      (addressAt wide source token.start, addressAt wide source token.stop) := by
  have hlines := Text.getD_lines (source.take token.start) (source.drop token.start)
  rw [List.take_append_drop] at hlines
  have hstop : source.take token.stop = source.take token.start ++ token.value := by
    rw [hvalue, List.extract_eq_take_drop, ← List.take_add, Nat.add_sub_cancel' hle]
  have hline : token.line - 1 = Text.lineFeeds (source.take token.start) := by
    rw [hplaced.line, Nat.add_sub_cancel_left]
  have hcolumn : token.column - 1 = (Text.lastLine (source.take token.start)).length := by
    rw [hplaced.column, Nat.add_sub_cancel_left, Text.lastLine_eq_rtakeWhile]
  have hbefore : ((Text.lines source).getD (token.line - 1) []).take (token.column - 1) =
      Text.lastLine (source.take token.start) := by
    rw [hline, hcolumn, hlines, List.take_left]
  dsimp only [span, addressAt]
  rw [hbefore, hstop, Text.lineFeeds_append, Text.lastLine_append, Text.length_lines, ← hplaced.line]
  by_cases hfeed : '\n' ∈ token.value
  · have hpos : Text.lineFeeds token.value ≠ 0 := mt Text.lineFeeds_eq_zero_iff.1 (not_not.2 hfeed)
    have hlast : token.line + (1 + Text.lineFeeds token.value) - 1 =
        1 + (Text.lineFeeds (source.take token.start) + Text.lineFeeds token.value) := by
      rw [hplaced.line]
      omega
    rw [if_neg (by omega), if_pos hfeed, hlast]
  · have hzero := Text.lineFeeds_eq_zero_iff.2 hfeed
    rw [hzero, if_pos rfl, if_neg hfeed, columns_append, Nat.add_zero, ← hplaced.line]

/-! ## Offsets of tokens -/

section

variable {α κ : Type} [Matching α κ]

/-- The tokens of a text lie end to end from its beginning. -/
theorem tilesFrom_stream (rules : List (Rule α)) (source : Text) : TilesFrom source 0 (stream rules source) := by
  have h := tilesFrom_place [] (Piece.ofText rules (Matching.start α) source) fun _ => Piece.text_ne_nil
  rw [List.nil_append, Piece.flatMap_text_ofText] at h
  exact h

/-- Tokens that lie end to end from an offset lie behind it and within the source. -/
theorem TilesFrom.bounds {source : Text} {p : Nat} {tokens : List Token} (h : TilesFrom source p tokens) :
    p ≤ source.length ∧
      ∀ token ∈ tokens, p ≤ token.start ∧ token.start < token.stop ∧ token.stop ≤ source.length := by
  induction tokens generalizing p with
  | nil => exact ⟨Nat.le_of_eq h, fun token ht => absurd ht List.not_mem_nil⟩
  | cons token more ih =>
    obtain ⟨hstart, hlt, -, hmore⟩ := h
    obtain ⟨hle, hrest⟩ := ih hmore
    refine ⟨by omega, ?_⟩
    intro other hother
    rcases List.mem_cons.1 hother with rfl | hother
    · exact ⟨by omega, by omega, hle⟩
    · obtain ⟨hbehind, hothers⟩ := hrest other hother
      exact ⟨by omega, hothers⟩

/-- Every character behind the offset lies in a token, and in no two. -/
theorem TilesFrom.existsUnique {source : Text} {p : Nat} {tokens : List Token}
    (h : TilesFrom source p tokens) {offset : Nat} (hp : p ≤ offset) (hlt : offset < source.length) :
    ∃ token ∈ tokens, (token.start ≤ offset ∧ offset < token.stop) ∧
      ∀ other ∈ tokens, other.start ≤ offset → offset < other.stop → other = token := by
  induction tokens generalizing p with
  | nil =>
    have hend : p = source.length := h
    omega
  | cons token more ih =>
    obtain ⟨hstart, hnonempty, -, hmore⟩ := h
    by_cases hin : offset < token.stop
    · refine ⟨token, List.mem_cons_self, ⟨by omega, hin⟩, ?_⟩
      intro other hother hfrom _
      rcases List.mem_cons.1 hother with rfl | hother
      · rfl
      · have hbehind := (hmore.bounds.2 other hother).1
        omega
    · obtain ⟨found, hfound, hspan, honly⟩ := ih hmore (by omega)
      refine ⟨found, List.mem_cons_of_mem token hfound, hspan, ?_⟩
      intro other hother hfrom hto
      rcases List.mem_cons.1 hother with rfl | hother
      · omega
      · exact honly other hother hfrom hto

/-- The span of every token of a text is told by the addresses of its ends. -/
theorem span_eq {wide : Bool} {rules : List (Rule α)} {source : Text} {token : Token}
    (h : token ∈ stream rules source) :
    token.span wide (Text.lines source) =
      (addressAt wide source token.start, addressAt wide source token.stop) := by
  have htiles := tilesFrom_stream rules source
  have hvalue := ((tilesFrom_iff source 0 _).1 htiles).1 token h
  exact span_of_placed (placed_stream rules source token h) (Nat.le_of_lt hvalue.1) hvalue.2

/-! ## Spans of all tokens -/

/-- The UTF-16 code units of a character: one up to U+FFFF, and beyond it a pair of surrogates. -/
def codeUnits (c : Char) : List Nat :=
  if c.toNat ≤ 0xffff then [c.toNat]
  else [0xd800 + (c.toNat - 0x10000) / 0x400, 0xdc00 + (c.toNat - 0x10000) % 0x400]

/-- Wide columns count the code units of a text, the others its characters. -/
theorem columns_eq_length (text : Text) :
    columns true text = (text.flatMap codeUnits).length ∧ columns false text = text.length := by
  refine ⟨?_, rfl⟩
  induction text with
  | nil => rfl
  | cons c rest ih =>
    have hunits : columns true [c] = (codeUnits c).length := by
      by_cases hc : c.toNat ≤ 0xffff
      · simp [columns, codeUnits, hc]
      · simp [columns, codeUnits, hc, Nat.lt_of_not_le hc]
    rw [← List.singleton_append, columns_append, ih, hunits, List.flatMap_append, List.length_append]
    simp

/-- The index of an offset: its line, and the width of what stands between the last line feed before it and the
offset, in UTF-16 code units if columns are wide and in characters otherwise. -/
def index (wide : Bool) (source : Text) (offset : Nat) : Text :=
  let line := (source.take offset).rtakeWhile (· ≠ '\n')
  address (1 + (source.take offset).count '\n') (if wide then (line.flatMap codeUnits).length else line.length)

/-- The index of the beginning of a text. -/
theorem index_zero (wide : Bool) (source : Text) : index wide source 0 = ['1', '.', '0'] := by
  have hwidth : (if wide then (([] : Text).flatMap codeUnits).length else ([] : Text).length) = 0 := by
    cases wide <;> rfl
  simp only [index, List.take_zero, List.rtakeWhile_nil, hwidth]
  rfl

/-- The address of an offset is its index. -/
theorem addressAt_eq_index (wide : Bool) (source : Text) (offset : Nat) :
    addressAt wide source offset = index wide source offset := by
  obtain ⟨hwide, hplain⟩ := columns_eq_length (Text.lastLine (source.take offset))
  rw [addressAt, index, Text.lastLine_eq_rtakeWhile]
  cases wide with
  | false => rw [hplain]; rfl
  | true => rw [hwide]; rfl

/-- The line of a placed token is one of the lines of the source. -/
theorem Placed.line_bounds {source : Text} {token : Token} (h : Placed source token) :
    0 < token.line ∧ token.line ≤ (Text.lines source).length ∧ 0 < token.column := by
  have hfeeds : Text.lineFeeds source =
      Text.lineFeeds (source.take token.start) + Text.lineFeeds (source.drop token.start) := by
    rw [← Text.lineFeeds_append, List.take_append_drop]
  rw [Text.length_lines, h.line, h.column]
  omega

/-- The spans of the tokens of a text are told by the indices of their ends. -/
theorem map_span_stream (wide : Bool) (rules : List (Rule α)) (source : Text) :
    (stream rules source).map (span wide (Text.lines source)) =
      (stream rules source).map fun token =>
        (index wide source token.start, index wide source token.stop) := by
  apply List.map_congr_left
  intro token htoken
  rw [span_eq htoken, addressAt_eq_index, addressAt_eq_index]

/-- The spans of the tokens of a text are told by the indices of their ends, and each is looked up on a line that
the text has. So they lie end to end: the first begins at 1.0, each begins at the index at which the one before it
ends, and the last ends at the index of the end of the text. -/
theorem spans_tile_text (wide : Bool) (rules : List (Rule α)) (source : Text) :
    (stream rules source).map (span wide (Text.lines source)) =
      (stream rules source).map (fun token =>
        (index wide source token.start, index wide source token.stop)) ∧
    (∀ token ∈ stream rules source,
      0 < token.line ∧ token.line ≤ (Text.lines source).length ∧ 0 < token.column) ∧
    ((stream rules source).map (span wide (Text.lines source))).IsChain (fun a b => b.1 = a.2) ∧
    (∀ first ∈ ((stream rules source).map (span wide (Text.lines source))).head?,
      first.1 = ['1', '.', '0']) ∧
    (∀ last ∈ ((stream rules source).map (span wide (Text.lines source))).getLast?,
      last.2 = index wide source source.length) := by
  have htiling : Tiling source (stream rules source) :=
    (tiling_iff_tilesFrom source _).2 (tilesFrom_stream rules source)
  have hspans := map_span_stream wide rules source
  refine ⟨hspans, fun token htoken => (placed_stream rules source token htoken).line_bounds, ?_, ?_, ?_⟩
  · rw [hspans, List.isChain_map]
    apply htiling.abut.imp
    intro a b habut
    rw [habut]
  · intro first hfirst
    rw [hspans, List.head?_map] at hfirst
    obtain ⟨token, htoken, rfl⟩ := Option.map_eq_some_iff.1 hfirst
    simp only [htiling.first token htoken, index_zero]
  · intro last hlast
    rw [hspans, List.getLast?_map] at hlast
    obtain ⟨token, htoken, rfl⟩ := Option.map_eq_some_iff.1 hlast
    simp only [htiling.last token htoken]

end

/-- Columns are wide behind a character beyond U+FFFF, until the next line feed. -/
example : [0, 1, 2, 3].map (index true "😀\n😀".toList) =
    ["1.0", "1.2", "2.0", "2.2"].map String.toList := by decide

/-! ## Offsets of addresses -/

/-- Numbers that are written alike are equal. -/
theorem ofNat_inj {n m : Nat} (h : Text.ofNat n = Text.ofNat m) : n = m := by
  have hn : Nat.ofDigitChars 10 (Text.ofNat n) 0 = n := Nat.ofDigitChars_ten_toDigits
  rw [h] at hn
  exact hn.symm.trans Nat.ofDigitChars_ten_toDigits

/-- No number is written with a point. -/
theorem point_notMem_ofNat (n : Nat) : '.' ∉ Text.ofNat n := by
  intro h
  have hdigit := Nat.isDigit_of_mem_toDigits (by decide) (by decide) h
  exact absurd hdigit (by decide)

/-- The digits of numbers are free of points, so an address has one line and one column. -/
theorem address_inj {line line' column column' : Nat} (h : address line column = address line' column') :
    line = line' ∧ column = column' := by
  obtain ⟨hline, -, hcolumn⟩ := (List.append_cons_inj_of_notMem (point_notMem_ofNat line)
    (point_notMem_ofNat column)).1 h
  exact ⟨ofNat_inj hline, ofNat_inj hcolumn⟩

/-- Of two offsets the later one has an address of its own: either a line feed lies between them, or the width
of what does counts. -/
theorem addressAt_ne_of_lt {wide : Bool} {source : Text} {a b : Nat} (hab : a < b)
    (hb : b ≤ source.length) : addressAt wide source a ≠ addressAt wide source b := by
  intro h
  obtain ⟨hline, hcolumn⟩ := address_inj h
  have hbetween : source.take b = source.take a ++ (source.drop a).take (b - a) := by
    rw [← List.take_add, Nat.add_sub_cancel' (Nat.le_of_lt hab)]
  have hlength : ((source.drop a).take (b - a)).length = b - a := by
    rw [List.length_take, List.length_drop]
    omega
  rw [hbetween, Text.lineFeeds_append] at hline
  have hfeed : '\n' ∉ (source.drop a).take (b - a) := Text.lineFeeds_eq_zero_iff.1 (by omega)
  rw [hbetween, Text.lastLine_append, if_neg hfeed, columns_append] at hcolumn
  have hwidth := le_columns wide ((source.drop a).take (b - a))
  omega

/-- An address belongs to one offset of a source. -/
theorem addressAt_inj {wide : Bool} {source : Text} {a b : Nat} (ha : a ≤ source.length)
    (hb : b ≤ source.length) (h : addressAt wide source a = addressAt wide source b) : a = b := by
  rcases Nat.lt_trichotomy a b with hlt | heq | hlt
  · exact absurd h (addressAt_ne_of_lt hlt hb)
  · exact heq
  · exact absurd h.symm (addressAt_ne_of_lt hlt ha)

end Token

end GuidedTour
