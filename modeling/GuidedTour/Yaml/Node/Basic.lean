import GuidedTour.Yaml.Scalar.Tag

/-!
# Nodes of a YAML document

The nodes of a document are numbered, and collections refer to their parts by number. An alias is another
reference to the same node, so that a collection may even contain itself.
-/

set_option autoImplicit false

namespace GuidedTour.Yaml

/-- What a node consists of. -/
inductive Body where
  | scalar (text : Text)
  | sequence (items : List Nat)
  | mapping (pairs : List (Nat × Nat))
deriving DecidableEq, Repr, Inhabited

/-- A node with what it is to be read as. -/
structure Node where
  tag : Tag
  body : Body
deriving DecidableEq, Repr, Inhabited

/-- The nodes of a document by number. -/
abbrev Nodes := Array Node

namespace Nodes

/-- The node of a number. -/
def node (nodes : Nodes) (n : Nat) : Node := nodes.getD n default

/-- The pairs of a node that is a mapping. -/
def pairs? (nodes : Nodes) (n : Nat) : Option (List (Nat × Nat)) :=
  match (nodes.node n).body with
  | .mapping pairs => some pairs
  | _ => none

/-- The nodes with other pairs in one of them. -/
def setPairs (nodes : Nodes) (n : Nat) (pairs : List (Nat × Nat)) : Nodes :=
  nodes.modify n fun node => { node with body := .mapping pairs }

/-- The nodes with another tag on one of them. -/
def setTag (nodes : Nodes) (n : Nat) (tag : Tag) : Nodes :=
  nodes.modify n fun node => { node with tag }

end Nodes

end GuidedTour.Yaml
