import GuidedTour.Token.Basic
import GuidedTour.Token.Rule

/-!
# The tokens of a program text

The text is first cut into pieces: at each place the rule that is found takes its piece, and characters that no rule
matches are gathered into gaps. Then each piece is given its place. The pieces
together are the text (`Piece.flatMap_text_ofText`), and so are the values of the tokens (`Token.flatMap_value_stream`).
-/

set_option autoImplicit false

namespace GuidedTour

/-- A piece of a program text: matched by a rule of the class, or left over by all rules. -/
inductive Piece where
  | matched (cls : TokenClass) (text : Text)
  | gap (text : Text)
deriving DecidableEq, Repr, Inhabited

namespace Piece

/-- What a piece says. -/
def text : Piece → Text
  | matched _ text => text
  | gap text => text

/-- The class of the token of a piece. -/
def cls : Piece → TokenClass
  | matched cls _ => cls
  | gap _ => .unclassified

/-- Puts a character that no rule matches in front of some pieces. It joins a gap that follows. -/
def consGap (c : Char) : List Piece → List Piece
  | gap text :: more => gap (c :: text) :: more
  | pieces => gap [c] :: pieces

section

variable {α κ : Type} [Matching α κ]

/-- The pieces of a text by some rules, given the context that it stands in. -/
def ofText (rules : List (Rule α)) (before : κ) : Text → List Piece
  | [] => []
  | c :: rest =>
    match _h : Rule.first? rules before (c :: rest) with
    | none => consGap c (ofText rules (Matching.behind α before [c]) rest)
    | some (cls, n) =>
      matched cls ((c :: rest).take n)
        :: ofText rules (Matching.behind α before ((c :: rest).take n)) ((c :: rest).drop n)
termination_by text => text.length
decreasing_by
  · simp
  · have := Rule.first?_pos _h
    simp only [List.length_drop, List.length_cons]; omega

/-- A character in front of some pieces stands in front of their text. -/
theorem flatMap_text_consGap (c : Char) (pieces : List Piece) :
    (consGap c pieces).flatMap text = c :: pieces.flatMap text := by
  unfold consGap
  split <;> simp [text]

/-- The pieces of a text are the text. -/
theorem flatMap_text_ofText (rules : List (Rule α)) (before : κ) (source : Text) :
    (ofText rules before source).flatMap text = source := by
  fun_induction ofText rules before source with
  | case1 => rfl
  | case2 before c rest h ih => rw [flatMap_text_consGap, ih]
  | case3 before c rest cls n h ih =>
    rw [List.flatMap_cons, ih]
    exact List.take_append_drop n (c :: rest)

end

end Piece

namespace Token

/-- The tokens of some pieces that begin at a place. -/
def place (p : Position) : List Piece → List Token
  | [] => []
  | piece :: more => Token.located p piece.cls piece.text :: place (p.after piece.text) more

/-- The tokens of a program text by some rules, from left to right. -/
def stream {α κ : Type} [Matching α κ] (rules : List (Rule α)) (source : Text) : List Token :=
  place Position.start (Piece.ofText rules (Matching.start α) source)

/-- By rules of program text, the pieces are made with no character before the text. -/
theorem stream_eq (rules : List (Rule Pattern)) (source : Text) :
    stream rules source = place Position.start (Piece.ofText rules none source) := rfl

/-- The tokens of some pieces say what the pieces say. -/
theorem flatMap_value_place (p : Position) (pieces : List Piece) :
    (place p pieces).flatMap value = pieces.flatMap Piece.text := by
  induction pieces generalizing p with
  | nil => rfl
  | cons piece more ih => simp [place, Token.located, ih]

/-- The tokens of a text say the text. -/
theorem flatMap_value_stream {α κ : Type} [Matching α κ] (rules : List (Rule α)) (source : Text) :
    (stream rules source).flatMap value = source := by
  rw [stream, flatMap_value_place, Piece.flatMap_text_ofText]

end Token

end GuidedTour
