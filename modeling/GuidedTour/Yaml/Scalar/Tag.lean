import GuidedTour.Yaml.Scalar.Moment
import GuidedTour.Yaml.Scalar.Number

/-!
# Tags

A tag says what a node is to be read as. A plain scalar without a tag gets the one that its form implies:
a truth word, a number, a moment, nothing, or else a text.
-/

set_option autoImplicit false

namespace GuidedTour.Yaml

/-- What a node is to be read as. `unknown` is for all tags that nothing can be built for. -/
inductive Tag where
  | null | truth | integer | float | binary | moment | text
  | sequence | mapping | set | orderedMap | pairs
  | merge | value | unknown
deriving DecidableEq, Repr, Inhabited

namespace Tag

/-- What the addresses of the known tags begin with. -/
def family : Text := "tag:yaml.org,2002:".toList

/-- The tag of an address. -/
def ofAddress (address : Text) : Tag :=
  if family.isPrefixOf address then
    match String.ofList (address.drop family.length) with
    | "null" => null
    | "bool" => truth
    | "int" => integer
    | "float" => float
    | "binary" => binary
    | "timestamp" => moment
    | "str" => text
    | "seq" => sequence
    | "map" => mapping
    | "set" => set
    | "omap" => orderedMap
    | "pairs" => pairs
    | "merge" => merge
    | "value" => value
    | _ => unknown
  else unknown

/-- The words for nothing. -/
def nullWords : List String := ["~", "null", "Null", "NULL"]

/-- The words for the truths. -/
def truthWords : List String :=
  ["yes", "Yes", "YES", "no", "No", "NO", "true", "True", "TRUE", "false", "False", "FALSE",
   "on", "On", "ON", "off", "Off", "OFF"]

/-- A text without one line feed at its end. The forms are compared up to it. -/
def chopped (t : Text) : Text := if t.getLast? = some '\n' then t.dropLast else t

/-- The tag that the form of a scalar implies. -/
def implied (t : Text) : Tag :=
  let form := chopped t
  let word := String.ofList form
  if t.isEmpty then null
  else if form.isEmpty then text
  else if truthWords.contains word then truth
  else if isFloatForm form then float
  else if isIntegerForm form then integer
  else if word = "<<" then merge
  else if nullWords.contains word then null
  else if isMomentForm form then moment
  else if word = "=" then value
  else if word = "!" ∨ word = "&" ∨ word = "*" then unknown
  else text

end Tag

end GuidedTour.Yaml
