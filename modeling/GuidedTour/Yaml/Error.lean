/-!
# What is wrong with a YAML document

The ways in which bytes fail to be a document, or a document fails to have a value.
-/

set_option autoImplicit false

namespace GuidedTour.Yaml

/-- What a document asks for that cannot be built. -/
inductive Fault where
  /-- A scalar does not have the form that its tag demands. -/
  | illFormed
  /-- A scalar is none of the words that its tag knows. -/
  | unknownWord
  /-- A scalar is empty where its tag demands a first character. -/
  | noFirstCharacter
  /-- A scalar does not look like a moment although its tag demands one. -/
  | noMoment
  /-- A mapping that stands for its default value is to be read as a moment. -/
  | momentOfMapping
  /-- A number is too large to be taken over. -/
  | tooLarge
  /-- A scalar is defined by itself. -/
  | endless
deriving DecidableEq, Repr, Inhabited

/-- Why there is no value for some bytes. -/
inductive Error where
  /-- They are no document. -/
  | invalid
  /-- They are not UTF-8. -/
  | notUtf8
  /-- The document asks for what cannot be built. -/
  | fault (fault : Fault)
deriving DecidableEq, Repr, Inhabited

end GuidedTour.Yaml
