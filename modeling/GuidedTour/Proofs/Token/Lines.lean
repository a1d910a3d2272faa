import GuidedTour.Token.Listing
import GuidedTour.Proofs.Token.Scan
import GuidedTour.Proofs.Token.Surroundings

/-!
# Tokens of neighbouring lines

Where no double quote is left over in a text, the classed tokens of further lines below it are what they are by
themselves, moved below the text, and its own are what they are by themselves (`Token.classified_stream_lines`). So an
edit in a line can change the tokens of the lines around it only if it leaves a quote open there.

No match but a string contains a line feed, and a line feed is no part of a word. So a match does not depend on what
follows a line feed behind it (`Pattern.length?_append_lineFeed`). A string that is closed in a text is closed in every
longer one, and a string that is not closed leaves its quote over.
-/

set_option autoImplicit false

namespace GuidedTour

/-! ## Matches before a line feed -/

/-- An expression that matches no line feed does not look past one. -/
theorem Expression.lengths_append_lineFeed {e : Expression} (h : ∀ set ∈ e.sets, set.has '\n' = false)
    (last : Option Char) (stretch more : Text) :
    e.lengths last (stretch ++ '\n' :: more) = e.lengths last stretch := by
  have hwithin : ∀ n ∈ e.lengths last (stretch ++ '\n' :: more), n ≤ stretch.length := by
    intro n hn
    have htakes := (takes_lengths (P := (· ≠ '\n')) e (fun set hset c hc hfeed => ?_) _ _ n hn).2
    · by_contra hlong
      obtain ⟨k, rfl⟩ := Nat.exists_eq_add_of_lt (Nat.lt_of_not_le hlong)
      refine htakes '\n' ?_ rfl
      rw [Nat.add_assoc, List.take_length_add_append, List.take_succ_cons]
      exact List.mem_append_right _ List.mem_cons_self
    · rw [hfeed, h set hset] at hc
      cases hc
  have hedge : Pattern.wordAhead ('\n' :: more) = false := by
    show Text.isWordChar '\n' = false
    decide
  have hsame : (e.lengths last (stretch ++ '\n' :: more)).filter (· ≤ stretch.length) = e.lengths last stretch :=
    filter_lengths fun _ => ⟨rfl, hedge⟩
  rwa [List.filter_eq_self.2 fun n hn => decide_eq_true (hwithin n hn)] at hsame

namespace Pattern

variable {pattern : Pattern} {last : Option Char}

/-- A string that is closed in a text is closed in a longer one. -/
theorem untilQuote?_append {text : Text} {n : Nat} (h : untilQuote? text = some n) (more : Text) :
    untilQuote? (text ++ more) = some n := by
  fun_induction untilQuote? text generalizing n with
  | case1 => cases h
  | case2 rest => exact h
  | case3 => cases h
  | case4 rest => cases h
  | case5 c rest hc ih =>
    obtain ⟨k, hk, rfl⟩ := Option.map_eq_some_iff.1 h
    simp [untilQuote?, hc, ih hk]
  | case6 c rest hquote hsingle hback ih =>
    obtain ⟨k, hk, rfl⟩ := Option.map_eq_some_iff.1 h
    have hplain : c ≠ '\\' := by
      rintro rfl
      cases rest with
      | nil => exact hsingle rfl rfl
      | cons d rest => exact hback d rest rfl rfl
    rw [List.cons_append, untilQuote?, ih hk]
    · rfl
    · exact hquote
    · exact fun hback => absurd hback hplain
    · exact fun _ _ hback => absurd hback hplain

/-- No pattern begins with a line feed. -/
theorem not_mem_heads (pattern : Pattern) : '\n' ∉ pattern.heads := by
  cases pattern <;> decide

/-- A match does not depend on what follows a line feed behind it, unless it is a string that is not closed before. -/
theorem length?_append_lineFeed {c : Char} {rest : Text}
    (h : pattern = quotedString → c = '"' → pattern.length? last (c :: rest) ≠ none) (more : Text) :
    pattern.length? last (c :: rest ++ '\n' :: more) = pattern.length? last (c :: rest) := by
  by_cases hstring : pattern = quotedString
  · subst hstring
    by_cases hquote : c = '"'
    · subst hquote
      obtain ⟨n, hn⟩ := Option.ne_none_iff_exists'.1 (h rfl rfl)
      obtain ⟨k, hk, rfl⟩ := Option.map_eq_some_iff.1 hn
      rw [hn]
      exact congrArg (Option.map (· + 1)) (untilQuote?_append hk _)
    · have hnone (text : Text) : quotedString.length? last (c :: text) = none := by
        cases hlength : quotedString.length? last (c :: text) with
        | none => rfl
        | some n => exact absurd (List.mem_singleton.1 (head_mem hlength)) hquote
      rw [List.cons_append, hnone, hnone]
  · have hsets : ∀ pattern : Pattern, pattern ≠ quotedString → ∀ set ∈ pattern.regular.sets, set.has '\n' = false := by
      intro pattern
      cases pattern <;> decide
    rw [length?_eq, length?_eq, Expression.length?, Expression.length?,
      Expression.lengths_append_lineFeed (hsets pattern hstring)]

/-- A match depends on what stands before it only through whether that is part of a word. -/
theorem length?_before (pattern : Pattern) {last' : Option Char} (h : wordBefore last = wordBefore last') (text : Text) :
    pattern.length? last text = pattern.length? last' text := by
  cases pattern <;> simp only [length?, wholeWord?, number?, sign?, h]

end Pattern

namespace Rule

variable {rules : List (Rule Pattern)} {last : Option Char}

/-- The first match depends on the text through the matches of the rules only. -/
theorem first?_congr {last' : Option Char} {text text' : Text}
    (h : ∀ rule ∈ rules, rule.pattern.length? last text = rule.pattern.length? last' text') :
    first? rules last text = first? rules last' text' := by
  induction rules with
  | nil => rfl
  | cons rule more ih =>
    have hmore := ih fun other hother => h other (List.mem_cons_of_mem rule hother)
    rw [first?_eq_findSome?, first?_eq_findSome?] at hmore ⊢
    rw [List.findSome?_cons, List.findSome?_cons, h rule List.mem_cons_self, hmore]

/-- The first match does not depend on what follows a line feed behind it, unless a quote is left over. -/
theorem first?_append_lineFeed {c : Char} {rest : Text} (h : c = '"' → first? rules last (c :: rest) ≠ none)
    (more : Text) : first? rules last (c :: rest ++ '\n' :: more) = first? rules last (c :: rest) := by
  refine first?_congr fun rule _ => Pattern.length?_append_lineFeed (fun hstring hquote hnone => ?_) more
  refine h hquote ?_
  subst hquote
  rw [first?_eq_none_iff]
  intro other _
  cases hlength : other.pattern.length? last ('"' :: rest) with
  | none => rfl
  | some n =>
    have honly : ∀ pattern : Pattern, '"' ∈ pattern.heads → pattern = .quotedString := by
      intro pattern
      cases pattern <;> decide
    rw [honly _ (Pattern.head_mem hlength), ← hstring, hnone] at hlength
    cases hlength

/-- The character before a place matters only by whether it is of a word. -/
theorem first?_before {last' : Option Char} (h : Pattern.wordBefore last = Pattern.wordBefore last') (text : Text) :
    first? rules last text = first? rules last' text :=
  first?_congr fun rule _ => rule.pattern.length?_before h text

end Rule

/-! ## Pieces of two texts -/

namespace Piece

variable {rules : List (Rule Pattern)}

/-- What is left over in some pieces, put together. -/
def leftOver : List Piece → Text
  | [] => []
  | matched _ _ :: pieces => leftOver pieces
  | gap text :: pieces => text ++ leftOver pieces

/-- Putting a piece in front puts what it leaves over in front. -/
theorem leftOver_joined (piece : Piece) (pieces : List Piece) :
    leftOver (joined piece pieces) = leftOver [piece] ++ leftOver pieces := by
  cases piece with
  | matched cls text => rw [joined_matched]; rfl
  | gap text =>
    cases pieces with
    | nil => simp [joined, leftOver]
    | cons next more => cases next <;> simp [joined, leftOver]

/-- Puts some pieces in front of others. Gaps that meet become one. -/
def beside (pieces others : List Piece) : List Piece := pieces.foldr joined others

/-- What two lists of pieces leave over is what both do. -/
theorem leftOver_beside (pieces others : List Piece) :
    leftOver (beside pieces others) = leftOver pieces ++ leftOver others := by
  induction pieces with
  | nil => rfl
  | cons piece more ih =>
    calc leftOver (joined piece (beside more others))
        = leftOver [piece] ++ (leftOver more ++ leftOver others) := by rw [leftOver_joined, ih]
      _ = leftOver (piece :: more) ++ leftOver others := by cases piece <;> simp [leftOver]

/-- A character that is left over may be put in front before or after others are put behind. -/
theorem beside_consGap (c : Char) (pieces others : List Piece) :
    beside (consGap c pieces) others = consGap c (beside pieces others) := by
  cases pieces with
  | nil => exact (consGap_eq_joined c _).symm
  | cons piece more =>
    cases piece with
    | matched cls text => exact (consGap_eq_joined c (beside (matched cls text :: more) others)).symm
    | gap text => exact joined_gap_cons c text _

/-- The pieces of a text depend on what stands before it only through whether that is part of a word. -/
theorem ofText_before {last last' : Option Char} (h : Pattern.wordBefore last = Pattern.wordBefore last')
    (source : Text) : ofText rules last source = ofText rules last' source := by
  cases source with
  | nil => rw [ofText, ofText]
  | cons c rest =>
    have hsame : Rule.first? rules last (c :: rest) = Rule.first? rules last' (c :: rest) :=
      Rule.first?_before h (c :: rest)
    cases hfirst : Rule.first? rules last (c :: rest) with
    | none => rw [ofText_of_none hfirst, ofText_of_none (hsame.symm.trans hfirst)]
    | some found =>
      -- The match is some text, and what stands behind it depends on that text alone.
      have hne := Rule.take_ne_nil hfirst
      rw [ofText_of_first? hfirst, ofText_of_first? (hsame.symm.trans hfirst), Pattern.behind_of_ne_nil hne,
        Pattern.behind_of_ne_nil hne]

/-- The pieces of a text above another are their own, with the line feed between them left over, if no quote is left
over above. -/
theorem ofText_append_lineFeed {last : Option Char} {above : Text}
    (h : '"' ∉ leftOver (ofText rules last above)) (below : Text) :
    ofText rules last (above ++ '\n' :: below) =
      beside (ofText rules last above) (consGap '\n' (ofText rules none below)) := by
  fun_induction ofText rules last above with
  | case1 last =>
    rw [List.nil_append, ofText_of_none (Rule.first?_eq_none_of_head fun rule _ => rule.pattern.not_mem_heads),
      ofText_before (show Pattern.wordBefore (some '\n') = Pattern.wordBefore none by decide)]
    rfl
  | case2 last c rest hnone ih =>
    rw [consGap_eq_joined, leftOver_joined, List.mem_append, not_or] at h
    obtain ⟨hquote, hrest⟩ := h
    rw [Pattern.behind_singleton] at ih hrest ⊢
    have hfirst := (Rule.first?_append_lineFeed (fun hc => absurd (by rw [hc]; decide) hquote) below).trans hnone
    rw [beside_consGap, ← ih hrest]
    exact ofText_of_none hfirst
  | case3 last c rest cls n hsome ih =>
    have hfirst := (Rule.first?_append_lineFeed (fun _ => by rw [hsome]; simp) below).trans hsome
    have hle := Rule.first?_le hsome
    rw [ofText_of_first? hfirst, List.take_append_of_le_length hle, List.drop_append_of_le_length hle, ih h]
    exact (joined_matched _ _ _).symm

end Piece

/-! ## Tokens moved below a text -/

namespace Position

/-- A place that is further down by some characters and some lines. -/
def moved (characters lines : Nat) (p : Position) : Position := ⟨p.offset + characters, p.line + lines, p.column⟩

/-- Going on from a place further down is going on, then moving down. -/
theorem moved_after (characters lines : Nat) (p : Position) (text : Text) :
    (p.moved characters lines).after text = (p.after text).moved characters lines := by
  induction text generalizing p with
  | nil => rfl
  | cons c rest ih =>
    have hstep : (p.moved characters lines).step c = (p.step c).moved characters lines := by
      unfold step moved
      split <;> simp [Nat.add_right_comm]
    show ((p.moved characters lines).step c).after rest = ((p.step c).after rest).moved characters lines
    rw [hstep, ih]

end Position

namespace Token

variable {rules : List (Rule Pattern)}

/-- A token that is further down by some characters and some lines. -/
def moved (characters lines : Nat) (token : Token) : Token :=
  { token with start := token.start + characters, stop := token.stop + characters, line := token.line + lines }

/-- Pieces placed further down are the tokens moved down. -/
theorem place_moved (characters lines : Nat) (p : Position) (pieces : List Piece) :
    place (p.moved characters lines) pieces = (place p pieces).map (moved characters lines) := by
  induction pieces generalizing p with
  | nil => rfl
  | cons piece more ih =>
    rw [place, place, List.map_cons, Position.moved_after, ih]
    refine congrArg (· :: _) ?_
    simp [located, moved, Position.moved, Nat.add_right_comm]

/-- The classified tokens of pieces are those of the first and those of the others behind it. -/
theorem classified_place_cons (p : Position) (piece : Piece) (pieces : List Piece) :
    classified (place p (piece :: pieces)) =
      classified (place p [piece]) ++ classified (place (p.after piece.text) pieces) :=
  List.filter_append [located p piece.cls piece.text] _

/-- A gap is no classed token, wherever it ends. -/
theorem classified_place_joined (p : Position) (piece : Piece) (pieces : List Piece) :
    classified (place p (Piece.joined piece pieces)) =
      classified (place p [piece]) ++ classified (place (p.after piece.text) pieces) := by
  cases piece with
  | matched cls text => rw [Piece.joined_matched, classified_place_cons]
  | gap text =>
    cases pieces with
    | nil => rfl
    | cons next more =>
      cases next with
      | matched cls word => exact classified_place_cons p _ _
      | gap further =>
        show classified (place (p.after (text ++ further)) more) =
          classified (place ((p.after text).after further) more)
        rw [Position.after_append]

/-- The classified tokens of two lists of pieces are those of both, the second behind the text of the first. -/
theorem classified_place_beside (p : Position) (pieces others : List Piece) :
    classified (place p (Piece.beside pieces others)) =
      classified (place p pieces) ++ classified (place (p.after (pieces.flatMap Piece.text)) others) := by
  induction pieces generalizing p with
  | nil => rfl
  | cons piece more ih =>
    calc classified (place p (Piece.joined piece (Piece.beside more others)))
        = classified (place p [piece]) ++ classified (place (p.after piece.text) (Piece.beside more others)) :=
          classified_place_joined p piece _
      _ = classified (place p [piece]) ++ (classified (place (p.after piece.text) more) ++
            classified (place ((p.after piece.text).after (more.flatMap Piece.text)) others)) := by rw [ih]
      _ = classified (place p (piece :: more)) ++
            classified (place (p.after ((piece :: more).flatMap Piece.text)) others) := by
          rw [classified_place_cons p piece more, List.append_assoc, List.flatMap_cons, Position.after_append]

/-! ## Tokens of two texts -/

/-- A token of a text below another: it begins behind the text and the line feed between them. -/
def movedBelow (above : Text) : Token → Token := moved (above.length + 1) (1 + Text.lineFeeds above)

/-- If no quote is left over above a line feed, the classified tokens are those above, then those below, moved. -/
theorem classified_stream_of_notMem {above : Text} (h : '"' ∉ Piece.leftOver (Piece.ofText rules none above))
    (below : Text) : classified (stream rules (above ++ '\n' :: below)) =
      classified (stream rules above) ++ (classified (stream rules below)).map (movedBelow above) := by
  have hplace : (Position.start.after above).after ['\n'] =
      Position.start.moved (above.length + 1) (1 + Text.lineFeeds above) := by
    rw [Position.after_start]
    simp [Position.after, Position.behind, Position.step, Position.moved, Position.start, Nat.add_comm]
  have hmoved (tokens : List Token) : classified (tokens.map (movedBelow above)) =
      (classified tokens).map (movedBelow above) := List.filter_map
  have hbelow : classified (place (Position.start.after above) (Piece.consGap '\n' (Piece.ofText rules none below))) =
      (classified (stream rules below)).map (movedBelow above) := by
    rw [Piece.consGap_eq_joined, classified_place_joined, stream_eq, ← hmoved, movedBelow, ← place_moved, ← hplace]
    rfl
  rw [stream_eq, Piece.ofText_append_lineFeed h, classified_place_beside, Piece.flatMap_text_ofText, hbelow]
  rfl

/-- No double quote is left over in a text. -/
def Closed (rules : List (Rule Pattern)) (source : Text) : Prop :=
  ∀ token ∈ stream rules source, token.cls = .unclassified → '"' ∉ token.value

/-- A character that no token left over holds is not in what the pieces leave over. -/
theorem notMem_leftOver {c : Char} {p : Position} {pieces : List Piece}
    (h : ∀ token ∈ place p pieces, token.cls = .unclassified → c ∉ token.value) : c ∉ Piece.leftOver pieces := by
  induction pieces generalizing p with
  | nil => exact List.not_mem_nil
  | cons piece more ih =>
    have hmore : c ∉ Piece.leftOver more := ih fun token htoken => h token (List.mem_cons_of_mem _ htoken)
    cases piece with
    | matched cls text => exact hmore
    | gap text =>
      rw [Piece.leftOver, List.mem_append, not_or]
      exact ⟨h _ List.mem_cons_self rfl, hmore⟩

/-- Above a line feed the classed tokens of a text in which no double quote is left over are its own, and below it they
are those of the other text, moved. So where this holds of a line as well, other lines do not depend on the line but for
being moved. -/
theorem classified_stream_lines (rules : List (Rule Pattern)) (above : Text) (h : Closed rules above) :
    (∀ below, classified (stream rules (above ++ '\n' :: below)) =
      classified (stream rules above) ++ (classified (stream rules below)).map (movedBelow above)) ∧
    ∀ line, Closed rules line → ∀ below, classified (stream rules ((above ++ '\n' :: line) ++ '\n' :: below)) =
      classified (stream rules above) ++ (classified (stream rules line)).map (movedBelow above) ++
        (classified (stream rules below)).map (movedBelow (above ++ '\n' :: line)) := by
  have habove : '"' ∉ Piece.leftOver (Piece.ofText rules none above) := notMem_leftOver h
  refine ⟨classified_stream_of_notMem habove, fun line hline below => ?_⟩
  have hboth : '"' ∉ Piece.leftOver (Piece.ofText rules none (above ++ '\n' :: line)) := by
    rw [Piece.ofText_append_lineFeed habove, Piece.leftOver_beside, Piece.consGap_eq_joined, Piece.leftOver_joined]
    simp only [List.mem_append, not_or]
    exact ⟨habove, by decide, notMem_leftOver hline⟩
  rw [classified_stream_of_notMem hboth, classified_stream_of_notMem habove]

/-- Below `"T"` a truth value is found where it is by itself, but in the second line. -/
theorem classified_stream_lines_string :
    let above : Text := ['"', 'T', '"']
    Closed Rule.standard above ∧
      classified (stream Rule.standard (above ++ '\n' :: ['T'])) =
        [⟨.stringLiteral, above, 0, 3, 1, 1⟩, ⟨.booleanLiteral, ['T'], 4, 5, 2, 1⟩] := by
  intro above
  have hstring : Rule.first? Rule.standard none above = some (.stringLiteral, above.length) := by decide
  have htruth : Rule.first? Rule.standard none ['T'] = some (.booleanLiteral, 1) := by decide
  have habove : stream Rule.standard above = [⟨.stringLiteral, above, 0, 3, 1, 1⟩] := by
    rw [stream_eq, Piece.ofText_whole hstring]
    rfl
  have hbelow : stream Rule.standard ['T'] = [⟨.booleanLiteral, ['T'], 0, 1, 1, 1⟩] := by
    rw [stream_eq, Piece.ofText_whole htruth]
    rfl
  have hclosed : Closed Rule.standard above := by
    intro token htoken hcls
    rw [habove, List.mem_singleton] at htoken
    rw [htoken] at hcls
    cases hcls
  refine ⟨hclosed, ?_⟩
  rw [(classified_stream_lines Rule.standard above hclosed).1, habove, hbelow]
  rfl

end Token

end GuidedTour
