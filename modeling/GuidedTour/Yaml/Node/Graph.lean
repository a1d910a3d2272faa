import GuidedTour.Yaml.Node.Basic
import GuidedTour.Yaml.Token.Stream

/-!
# The nodes of a token sequence

Tokens are read by the grammar of YAML from left to right: a document is directives and a node, a node is
an alias or properties with content, and the content of collections is nodes again. Where content may be
missing there is an empty plain scalar. Anchors name nodes from their beginning on, and a second anchor of
one name is refused. A text holds at most one document; what begins another is read as far as its
directives.

Nodes in nodes are read by calls in calls, as deep as the text has them: a bound on the depth, which a machine
with a stack has, is no part of the reader.
-/

set_option autoImplicit false

namespace GuidedTour.Yaml

/-- The state of reading nodes: that of fetching tokens, the nodes so far, the named nodes, and the
addresses of tag handles. -/
structure Reader where
  scanner : Scanner
  nodes : Nodes
  anchors : List (Text × Nat)
  handles : List (Text × Text)
deriving Inhabited

/-- A step of reading nodes. -/
abbrev Read (α : Type) := StateT Reader (Except Error) α

namespace Read

/-- The next token; none is at the end of the text. What is wrong with the text as far as it settles the
token comes up here. -/
def peek : Read (Option Token) := do
  let s ← get
  let (_, scanner) ← Scan.settle s.scanner
  set { s with scanner }
  return scanner.tokens.head?

/-- Passes the next token. -/
def pass : Read Unit := modify fun s => { s with scanner := s.scanner.taken }

/-- Whether the next token is one of some. -/
def sees (tokens : List Token) : Read Bool := do
  return (← peek).any (tokens.contains ·)

/-- Passes the next token if it is a given one, and says whether it was. -/
def accept (token : Token) : Read Bool := do
  if ← sees [token] then
    pass
    return true
  else return false

/-- Whether an entry of a flow collection can follow. In front of every entry but the first a comma is
passed. -/
def entryFollows (isFirst : Bool) : Read Bool := if isFirst then return true else accept .flowEntry

/-- Adds a node and gives its number. -/
def add (node : Node) : Read Nat := do
  let s ← get
  set { s with nodes := s.nodes.push node }
  return s.nodes.size

/-- Gives a node its parts. -/
def setBody (n : Nat) (body : Body) : Read Unit :=
  modify fun s => { s with nodes := s.nodes.modify n fun node => { node with body } }

/-- The empty scalar that stands for missing content. -/
def empty : Read Nat := add ⟨.null, .scalar []⟩

/-! ## Properties -/

/-- The address of a tag behind its handle. -/
def address (handle : Option Text) (suffix : Text) : Read Text := do
  match handle with
  | none => return suffix
  | some handle =>
    match (← get).handles.lookup handle with
    | some front => return front ++ suffix
    | none => invalid

/-- The anchor and the tag address in front of a node, in either order. -/
def properties : Read (Option Text × Option Text) := do
  match ← peek with
  | some (.anchor name) =>
    pass
    match ← peek with
    | some (.tag handle suffix) =>
      pass
      return (some name, some (← address handle suffix))
    | _ => return (some name, none)
  | some (.tag handle suffix) =>
    pass
    match ← peek with
    | some (.anchor name) =>
      pass
      return (some name, some (← address handle suffix))
    | _ => return (none, some (← address handle suffix))
  | _ => return (none, none)

/-- Gives a node its name. Names are given once. -/
def nameNode (anchor : Option Text) (n : Nat) : Read Unit := do
  match anchor with
  | none => return
  | some name =>
    if ((← get).anchors.lookup name).isSome then invalid
    else modify fun s => { s with anchors := (name, n) :: s.anchors }

/-- What a scalar is to be read as: by its tag, or by its form if it is plain or has the tag that says
nothing, or else as a text. -/
def scalarTag (tag : Option Text) (isPlain : Bool) (text : Text) : Tag :=
  match tag with
  | none => if isPlain then .implied text else .text
  | some ['!'] => .implied text
  | some address => .ofAddress address

/-- What a collection is to be read as: by its tag, or by its kind. -/
def collectionTag (tag : Option Text) (standard : Tag) : Tag :=
  match tag with
  | none => standard
  | some ['!'] => standard
  | some address => .ofAddress address

/-! ## Nodes -/

mutual

/-- A node. In block context its content may be a block collection, and behind the indicators of a mapping
also a sequence without indentation of its own. -/
def node (inBlock unindented : Bool) : Nat → Read Nat
  | 0 => invalid
  | fuel + 1 => do
    match ← peek with
    | some (.alias name) =>
      pass
      match (← get).anchors.lookup name with
      | some n => return n
      | none => invalid
    | _ =>
      let (anchor, tag) ← properties
      let opened (standard : Tag) (body : Body) : Read Nat := do
        let n ← add ⟨collectionTag tag standard, body⟩
        nameNode anchor n
        return n
      match ← peek with
      | some .blockEntry =>
        if unindented then
          let n ← opened .sequence (.sequence [])
          setBody n (.sequence (← unindentedItems fuel))
          return n
        else bare anchor tag
      | some (.scalar text isPlain) =>
        pass
        let n ← add ⟨scalarTag tag isPlain text, .scalar text⟩
        nameNode anchor n
        return n
      | some .flowSequenceStart =>
        pass
        let n ← opened .sequence (.sequence [])
        setBody n (.sequence (← flowItems true fuel))
        return n
      | some .flowMappingStart =>
        pass
        let n ← opened .mapping (.mapping [])
        setBody n (.mapping (← flowPairs true fuel))
        return n
      | some .blockSequenceStart =>
        if inBlock then
          pass
          let n ← opened .sequence (.sequence [])
          setBody n (.sequence (← blockItems fuel))
          return n
        else bare anchor tag
      | some .blockMappingStart =>
        if inBlock then
          pass
          let n ← opened .mapping (.mapping [])
          setBody n (.mapping (← blockPairs fuel))
          return n
        else bare anchor tag
      | _ => bare anchor tag

/-- A node that has properties and no content. Without properties there is no node. -/
def bare (anchor tag : Option Text) : Read Nat := do
  if anchor.isNone && tag.isNone then invalid
  else
    let n ← add ⟨scalarTag tag true [], .scalar []⟩
    nameNode anchor n
    return n

/-- A node, or the empty scalar if one of some tokens is next. -/
def nodeUnless (stops : List Token) (inBlock unindented : Bool) : Nat → Read Nat
  | 0 => invalid
  | fuel + 1 => do
    if ← sees stops then empty else node inBlock unindented fuel

/-- The items of a block sequence up to behind its end. -/
def blockItems : Nat → Read (List Nat)
  | 0 => invalid
  | fuel + 1 => do
    if ← accept .blockEntry then
      let item ← nodeUnless [.blockEntry, .blockEnd] true false fuel
      return item :: (← blockItems fuel)
    else if ← accept .blockEnd then return []
    else invalid

/-- The items of a sequence without indentation of its own. -/
def unindentedItems : Nat → Read (List Nat)
  | 0 => invalid
  | fuel + 1 => do
    if ← accept .blockEntry then
      let item ← nodeUnless [.blockEntry, .key, .value, .blockEnd] true false fuel
      return item :: (← unindentedItems fuel)
    else return []

/-- The pairs of a block mapping up to behind its end. Key or value may be missing. -/
def blockPairs : Nat → Read (List (Nat × Nat))
  | 0 => invalid
  | fuel + 1 => do
    let stops : List Token := [.key, .value, .blockEnd]
    if ← accept .key then
      let key ← nodeUnless stops true true fuel
      let value ← if ← accept .value then nodeUnless stops true true fuel else empty
      return (key, value) :: (← blockPairs fuel)
    else if ← accept .blockEnd then return []
    else invalid

/-- The items of a flow sequence up to behind its end. A key makes an item a mapping of one pair. -/
def flowItems (isFirst : Bool) : Nat → Read (List Nat)
  | 0 => invalid
  | fuel + 1 => do
    if ← accept .flowSequenceEnd then return []
    else if !(← entryFollows isFirst) then invalid
    else if ← accept .key then
      let n ← add ⟨.mapping, .mapping []⟩
      let stops : List Token := [.flowEntry, .flowSequenceEnd]
      let key ← nodeUnless (.value :: stops) false false fuel
      let value ← if ← accept .value then nodeUnless stops false false fuel else empty
      setBody n (.mapping [(key, value)])
      return n :: (← flowItems false fuel)
    else if ← accept .flowSequenceEnd then return []
    else
      let item ← node false false fuel
      return item :: (← flowItems false fuel)

/-- The pairs of a flow mapping up to behind its end. Without an indicator a node is a key. -/
def flowPairs (isFirst : Bool) : Nat → Read (List (Nat × Nat))
  | 0 => invalid
  | fuel + 1 => do
    if ← accept .flowMappingEnd then return []
    else if !(← entryFollows isFirst) then invalid
    else if ← accept .key then
      let stops : List Token := [.flowEntry, .flowMappingEnd]
      let key ← nodeUnless (.value :: stops) false false fuel
      let value ← if ← accept .value then nodeUnless stops false false fuel else empty
      return (key, value) :: (← flowPairs false fuel)
    else if ← accept .flowMappingEnd then return []
    else
      let key ← node false false fuel
      let value ← empty
      return (key, value) :: (← flowPairs false fuel)

end

/-! ## Documents -/

/-- The tag handles that need no directive. -/
def standardHandles : List (Text × Text) := [(['!'], ['!']), (['!', '!'], Tag.family)]

/-- The directives in front of a document. Only documents of version one are read, the version is given
once, and each handle is given once. -/
def directives (versioned : Bool) : Nat → Read Unit
  | 0 => invalid
  | fuel + 1 => do
    match ← peek with
    | some (.directive (.version major)) =>
      pass
      if versioned || major ≠ 1 then invalid else directives true fuel
    | some (.directive (.tagHandle handle address)) =>
      pass
      if ((← get).handles.lookup handle).isSome then invalid
      else
        modify fun s => { s with handles := (handle, address) :: s.handles }
        directives versioned fuel
    | some (.directive .other) =>
      pass
      directives versioned fuel
    | _ => modify fun s => { s with handles := s.handles ++ standardHandles }

/-- Passes the marks of the end of a document. -/
def documentEnds : Nat → Read Unit
  | 0 => return
  | fuel + 1 => do
    if ← accept .documentEnd then documentEnds fuel else return

/-- Whether a directive is next. -/
def seesDirective : Read Bool := do
  match ← peek with
  | some (.directive _) => return true
  | _ => return false

/-- The node of the one document of a text, if there is one. -/
def document (fuel : Nat) : Read (Option Nat) := do
  if (← peek).isNone then return none
  let root ←
    if (← seesDirective) || (← sees [.documentStart]) then do
      directives false fuel
      if !(← accept .documentStart) then invalid
      if (← peek).isNone || (← seesDirective) || (← sees [.documentStart, .documentEnd]) then empty
      else node true false fuel
    else do
      modify fun s => { s with handles := standardHandles }
      node true false fuel
  documentEnds fuel
  if (← peek).isNone then return some root
  else
    modify fun s => { s with handles := [] }
    directives false fuel
    invalid

end Read

/-- The document of a text: the nodes and the number of the outermost one, or nothing if the text holds no
document. A character makes at most four tokens and a token four steps of depth, so the fuel lasts. -/
def graphOf (incoming : Incoming) : Except Error (Option (Nodes × Nat)) := do
  let start : Reader := ⟨.start incoming, #[], [], []⟩
  let (root, reader) ← (Read.document (16 * incoming.text.length + 16)).run start
  return root.map (reader.nodes, ·)

end GuidedTour.Yaml
