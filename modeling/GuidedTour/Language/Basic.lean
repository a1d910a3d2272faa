import GuidedTour.Theme.Basic
import GuidedTour.Token.Stream

/-!
# Languages

A language is what an editor needs to colour program text: the rules that cut it into tokens and the
theme that colours their classes, under an identifier. The rules may be made of patterns of any kind.
-/

set_option autoImplicit false

namespace GuidedTour

/-- The rules and colours that are known under an identifier. -/
structure Language (α : Type) where
  id : Text
  rules : List (Rule α)
  theme : Theme
deriving DecidableEq, Repr, Inhabited

namespace Language

variable {α κ : Type}

/-- The identifier of the language that the tour is about. -/
def tourId : Text := "blockpipe".toList

/-- The rules as an editor takes them: patterns with labels, in order. -/
def grammar (language : Language α) : List (α × String) :=
  language.rules.map fun rule => (rule.pattern, rule.cls.label)

/-- The theme as an editor takes it: labels with colours. -/
def colours (language : Language α) : List (String × Colour) :=
  language.theme.map fun pair => (pair.1.label, pair.2)

/-- The colour of a class. -/
def colour? (language : Language α) (cls : TokenClass) : Option Colour := language.theme.colour? cls

/-- The tokens of a program text. -/
def tokens [Matching α κ] (language : Language α) (source : Text) : List Token := Token.stream language.rules source

end Language

end GuidedTour
