import GuidedTour.Text.Basic

/-!
# Tokens of YAML text

The tokens that stand between the characters of a document and its nodes.
-/

set_option autoImplicit false

namespace GuidedTour.Yaml

/-- A line in front of a document that speaks about it. -/
inductive Directive where
  | version (major : Nat)
  | tagHandle (handle address : Text)
  | other
deriving DecidableEq, Repr, Inhabited

/-- A token. The end of the text is no token. -/
inductive Token where
  | directive (directive : Directive)
  | documentStart | documentEnd
  | blockSequenceStart | blockMappingStart | blockEnd
  | flowSequenceStart | flowSequenceEnd | flowMappingStart | flowMappingEnd
  | blockEntry | flowEntry | key | value
  | alias (name : Text)
  | anchor (name : Text)
  | tag (handle : Option Text) (suffix : Text)
  /-- A scalar, and whether it stands without quotes or indicators. -/
  | scalar (text : Text) (isPlain : Bool)
deriving DecidableEq, Repr, Inhabited

end GuidedTour.Yaml
