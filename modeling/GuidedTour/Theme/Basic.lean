import GuidedTour.Theme.Palette
import GuidedTour.Token.Rule

/-!
# Themes

A theme gives colours to token classes. It is kept in the order of the labels and each class occurs at
most once, so that two themes with the same colours are equal. `colour?_ofPairs` says that a theme made
from a list of pairs answers with the last colour the list gives to a class.
-/

set_option autoImplicit false

namespace GuidedTour

/-- The colours of some classes, ascending by label. -/
abbrev Theme := List (TokenClass × Colour)

namespace Theme

/-- The last colour that a list of pairs gives to a class. -/
def lastColour? (pairs : List (TokenClass × Colour)) (cls : TokenClass) : Option Colour :=
  pairs.reverse.lookup cls

/-- The theme of a list of pairs, in which a later pair overrides an earlier one. -/
def ofPairs (pairs : List (TokenClass × Colour)) : Theme :=
  TokenClass.byLabel.filterMap fun cls => (lastColour? pairs cls).map (cls, ·)

/-- The colour of a class in a theme. -/
def colour? (theme : Theme) (cls : TokenClass) : Option Colour := theme.lookup cls

/-- The classes that the tokens of some rules can have and that a theme leaves without a colour. -/
def missing {α : Type} (theme : Theme) (rules : List (Rule α)) : List TokenClass :=
  (Rule.produced rules).filter fun cls => (theme.colour? cls).isNone

/-- The theme of the tour. -/
def standard : Theme := ofPairs
  [(.leftParen, "#FFC0CB"), (.rightParen, "#FFC0CB"), (.leftBrace, "#ADD8E6"),
   (.rightBrace, "#ADD8E6"), (.pipe, "#98FB98"), (.pipeStar, "#98FB98"), (.colon, "#FFD700"),
   (.identifier, "#7B68EE"), (.stringLiteral, "#FFA07A"), (.booleanLiteral, "#FF69B4"),
   (.integerLiteral, "#FF4500"), (.floatLiteral, "#DAA520"), (.keyword, "#00CED1"),
   (.unclassified, Shade.text.colour)]

/-- A theme without the colours of some classes. -/
def without (theme : Theme) (classes : List TokenClass) : Theme :=
  theme.filter fun pair => pair.1 ∉ classes

/-- A theme that leaves tokens without a colour, with their classes. -/
structure Incomplete where
  classes : List TokenClass
deriving DecidableEq, Repr

/-- The report of an incomplete theme. -/
def Incomplete.message (e : Incomplete) : Text :=
  "No colour for token classes: ".toList ++ TokenClass.names e.classes

/-- Whether a theme colours every token under both orders of the rules. -/
def checkTotal (theme : Theme) : Except Incomplete Unit :=
  [Rule.standard, Rule.legacy].forM fun rules =>
    let classes := theme.missing rules
    if classes.isEmpty then .ok () else .error ⟨classes⟩

/-- Looking up a class among those that got a colour is asking for its colour. -/
theorem lookup_filterMap (classes : List TokenClass) (f : TokenClass → Option Colour)
    (cls : TokenClass) (h : cls ∈ classes) :
    (classes.filterMap fun c => (f c).map (c, ·)).lookup cls = f cls := by
  induction classes with
  | nil => simp at h
  | cons c more ih =>
    by_cases hc : cls = c
    · subst hc
      cases hf : f cls with
      | some colour => simp [hf]
      | none =>
        by_cases hm : cls ∈ more
        · simp [hf, ih hm]
        · simp only [List.filterMap_cons, hf, Option.map_none]
          rw [List.lookup_eq_none_iff]
          intro p hp
          simp only [List.mem_filterMap, Option.map_eq_some_iff] at hp
          obtain ⟨d, hd, _, _, rfl⟩ := hp
          exact bne_iff_ne.2 fun he => hm (he ▸ hd)
    · have hm : cls ∈ more := by simpa [hc] using h
      cases hf : f c with
      | none => simp [hf, ih hm]
      | some colour =>
        have hb : (cls == c) = false := by simpa using hc
        simp [hf, List.lookup_cons, hb, ih hm]

/-- A theme made from pairs answers with the last colour that they give to a class. -/
theorem colour?_ofPairs (pairs : List (TokenClass × Colour)) (cls : TokenClass) :
    (ofPairs pairs).colour? cls = lastColour? pairs cls :=
  lookup_filterMap _ _ _ (TokenClass.mem_byLabel cls)

end Theme

end GuidedTour
