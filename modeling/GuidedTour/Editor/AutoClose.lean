import GuidedTour.Text.Basic

/-!
# Automatic closing

An opening bracket or quote that is typed brings its partner with it, a selection is put between the two,
and a closing one that is typed in front of itself is stepped over.
-/

set_option autoImplicit false

namespace GuidedTour.Editor

/-- The opening characters with their partners. -/
def closingPairs : List (Char × Char) := [('(', ')'), ('{', '}'), ('[', ']'), ('"', '"')]

/-- The partner of an opening character. -/
def partner? (c : Char) : Option Char := closingPairs.lookup c

/-- Whether a character is the partner of an opening one. -/
def isClosing (c : Char) : Bool := closingPairs.any (·.2 == c)

/-- The partner of what was typed, if that is one opening character. -/
def closingPair? : Text → Option Text
  | [c] => (partner? c).map fun closer => [closer]
  | _ => none

/-- Whether what was typed is one closing character. -/
def isClosingText : Text → Bool
  | [c] => isClosing c
  | _ => false

/-- An edit in place of a typed character: the text that replaces the selection, and where the cursor goes
from the end of it. -/
structure AutoClose where
  text : Text
  shift : Int
deriving DecidableEq, Repr, Inhabited

/-- The edit for what was typed, given the character behind the cursor and the selected text. With nothing
the character is typed as usual. -/
def autoClose? (typed next selected : Text) : Option AutoClose :=
  if typed.isEmpty then none
  else if selected.isEmpty && isClosingText typed && next == typed then some ⟨[], 1⟩
  else
    (closingPair? typed).map fun closer =>
      if selected.isEmpty then ⟨typed ++ closer, -1⟩ else ⟨typed ++ selected ++ closer, 0⟩

end GuidedTour.Editor
