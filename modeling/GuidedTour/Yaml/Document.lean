import GuidedTour.Data.Value
import GuidedTour.Yaml.Node.Graph
import GuidedTour.Yaml.Node.Merge
import GuidedTour.Yaml.Scalar.Binary

/-!
# The value of a YAML document

The nodes of a document are built from the outermost one on, collections in the order in which they are
come upon and each of them once. A key must be a scalar. When all is built the document is unfolded into a
value, as deep as its reader looks; collections further down keep their kind and lose their parts, so that
a collection that contains itself has a value too.
-/

set_option autoImplicit false

namespace GuidedTour.Yaml

/-- What a node was built into: a scalar, or a collection known by the number of its node. -/
inductive Part where
  | scalar (scalar : Data.Scalar)
  | list (n : Nat)
  | mapping (n : Nat)
  | set
deriving DecidableEq, Repr, Inhabited

/-- What is in a collection. Of lists of pairs only the number of pairs is kept. -/
inductive Contents where
  | items (items : List Part)
  | entries (entries : List (Data.Scalar × Part))
  | pairs (count : Nat)
deriving Repr, Inhabited

/-- A key of a mapping while it is built. Of a float that is no number also the node that made it is told,
unless it is the one value that such scalars share. -/
structure Key where
  scalar : Data.Scalar
  maker : Option Nat
deriving DecidableEq, Repr, Inhabited

/-- Whether two keys of a mapping are the same. A float that is no number is the same as itself alone. -/
def Key.same (a b : Key) : Bool :=
  if a.scalar == .float .nan && b.scalar == .float .nan then a.maker == b.maker
  else a.scalar.sameKey b.scalar

/-- The state of building: the nodes, what they were built into, the collections that are still to be
filled in the order in which they were come upon, and the contents of those that are filled. -/
structure Builder where
  nodes : Nodes
  parts : Array (Option Part)
  waiting : List Nat
  contents : Array (Option Contents)
deriving Inhabited

/-- A step of building. -/
abbrev Build (α : Type) := StateT Builder (Except Error) α

namespace Build

/-- The text of a scalar node. A mapping with the key for a default value stands for that value. -/
def scalarText (nodes : Nodes) : Nat → Nat → Except Error Text
  | 0, _ => .error (.fault .endless)
  | fuel + 1, n =>
    match (nodes.node n).body with
    | .scalar text => .ok text
    | .sequence _ => .error .invalid
    | .mapping pairs =>
      match pairs.find? fun pair => (nodes.node pair.1).tag == .value with
      | some (_, value) => scalarText nodes fuel value
      | none => .error .invalid

/-- Whether a truth word is one of the true ones, in any case. -/
def truthOf (text : Text) : Except Error Bool :=
  let word := String.ofList (text.map Char.toLower)
  if ["yes", "true", "on"].contains word then .ok true
  else if ["no", "false", "off"].contains word then .ok false
  else .error (.fault .unknownWord)

/-- The scalar that a text stands for under a tag of scalars. -/
def scalarOf (tag : Tag) (text : Text) : Except Error Data.Scalar :=
  match tag with
  | .null => .ok .null
  | .truth => (truthOf text).map .truth
  | .integer => (integerOf text).map .integer
  | .float => (floatOf text).map .float
  | .binary => (bytesOf text).map .bytes
  | .moment => momentOf text
  | .text => .ok (.text text)
  | _ => .error .invalid

/-- The key that a node was built into. -/
def keyOf (nodes : Nodes) (n : Nat) (scalar : Data.Scalar) : Key :=
  match scalarText nodes (nodes.size + 1) n with
  | .ok text => ⟨scalar, if spellsNan text then none else some n⟩
  | .error _ => ⟨scalar, some n⟩

/-- Notes a collection that is to be filled. -/
def await (n : Nat) (part : Part) : Build Part := do
  modify fun s => { s with waiting := s.waiting ++ [n] }
  return part

/-- Builds a node, if that has not been done. -/
def part (n : Nat) : Build Part := do
  let s ← get
  match s.parts.getD n none with
  | some part => return part
  | none =>
    let tag := (s.nodes.node n).tag
    let part ←
      match tag with
      | .sequence => await n (.list n)
      | .orderedMap => await n (.list n)
      | .pairs => await n (.list n)
      | .mapping => await n (.mapping n)
      | .set => await n .set
      | .merge => throw .invalid
      | .value => throw .invalid
      | .unknown => throw .invalid
      | _ => do
        let text ← scalarText s.nodes (s.nodes.size + 1) n
        if tag == .moment && (s.nodes.pairs? n).isSome then throw (.fault .momentOfMapping)
        pure (Part.scalar (← scalarOf tag text))
    modify fun s => { s with parts := s.parts.setIfInBounds n (some part) }
    return part

/-- The entries of a settled mapping. -/
def entries : List (Nat × Nat) → List (Key × Part) → Build (List (Key × Part))
  | [], built => return built
  | (key, value) :: more, built => do
    match ← part key with
    | .scalar scalar =>
      let key := keyOf (← get).nodes key scalar
      entries more (Data.put Key.same built key (← part value))
    | _ => throw .invalid

/-- The contents of a mapping: its pairs are settled, then built. -/
def mappingContents (n : Nat) : Build Contents := do
  let s ← get
  match s.nodes.pairs? n with
  | none => throw .invalid
  | some _ =>
    let nodes ← s.nodes.settle (s.nodes.mergeCount + 1) n
    set { s with nodes }
    let entries ← entries ((nodes.pairs? n).getD []) []
    return .entries (entries.map fun entry => (entry.1.scalar, entry.2))

/-- The contents of a list of pairs: each item is a mapping of one pair. -/
def pairContents (items : List Nat) : Build Contents := do
  items.forM fun item => do
    match (← get).nodes.pairs? item with
    | some [(key, value)] =>
      let _ ← part key
      let _ ← part value
    | _ => throw .invalid
  return .pairs items.length

/-- The contents of a collection. -/
def contentsOf (n : Nat) : Build Contents := do
  let node := (← get).nodes.node n
  match node.tag, node.body with
  | .sequence, .sequence items => return .items (← items.mapM part)
  | .orderedMap, .sequence items => pairContents items
  | .pairs, .sequence items => pairContents items
  | .mapping, _ => mappingContents n
  | .set, _ => mappingContents n
  | _, _ => throw .invalid

/-- Fills the collections that are waiting. Each node waits at most once, so the fuel lasts. -/
def fill : Nat → Build Unit
  | 0 => return
  | fuel + 1 => do
    match (← get).waiting with
    | [] => return
    | n :: waiting =>
      modify fun s => { s with waiting }
      let contents ← contentsOf n
      modify fun s => { s with contents := s.contents.setIfInBounds n (some contents) }
      fill fuel

/-- Builds a whole document. -/
def document (root : Nat) : Build Part := do
  let root ← part root
  fill ((← get).nodes.size + 1)
  return root

end Build

/-- The value of a part, unfolded to a depth. -/
def unfold (contents : Array (Option Contents)) : Nat → Part → Data.Value
  | _, .scalar scalar => .scalar scalar
  | _, .set => .set
  | 0, .list _ => .list []
  | 0, .mapping _ => .mapping []
  | depth + 1, .list n =>
    match contents.getD n none with
    | some (.items items) => .list (items.map (unfold contents depth))
    | some (.pairs count) => .list (List.replicate count .tuple)
    | _ => .list []
  | depth + 1, .mapping n =>
    match contents.getD n none with
    | some (.entries entries) =>
      .mapping (entries.map fun entry => (entry.1, unfold contents depth entry.2))
    | _ => .mapping []

/-- The value of some bytes, unfolded to a depth. Bytes without a document have the value nothing. -/
def valueOf (depth : Nat) (bytes : Text.Bytes) : Except Error Data.Value := do
  match ← graphOf (.ofBytes bytes) with
  | none => return .scalar .null
  | some (nodes, root) =>
    let start : Builder :=
      ⟨nodes, Array.replicate nodes.size none, [], Array.replicate nodes.size none⟩
    let (root, built) ← (Build.document root).run start
    return unfold built.contents depth root

end GuidedTour.Yaml
