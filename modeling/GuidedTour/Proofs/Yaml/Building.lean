import Mathlib
import GuidedTour.Proofs.Yaml.Reading
import GuidedTour.Yaml.Document

/-!
# What building the value of a document can fail with

The nodes of a document are built into values. That fails because the nodes make no value, or at a node that does
not fit its tag (`Yaml.Misfit`): a scalar that its tag cannot be read from, or a mapping under a tag of scalars.
Merge keys and default values are settled first. That touches no scalar and only makes texts of the keys for default
values (`Nodes.Settled`), so a node that does not fit can be pointed at in the document as it was written.
-/

set_option autoImplicit false
set_option mvcgen.warning false

open Std.Do

namespace GuidedTour.Yaml

/-! ## Nodes that do not fit -/

/-- Whether a node under a tag is built as a scalar. The key for a default value is, once it has become a text. -/
def Tag.isOfScalars : Tag → Bool
  | .sequence | .mapping | .set | .orderedMap | .pairs | .merge | .unknown => false
  | _ => true

/-- Seven tags are not of scalars; all others are. -/
theorem Tag.isOfScalars_of_ne {tag : Tag} (hsequence : tag ≠ .sequence) (horderedMap : tag ≠ .orderedMap)
    (hpairs : tag ≠ .pairs) (hmapping : tag ≠ .mapping) (hset : tag ≠ .set) (hmerge : tag ≠ .merge)
    (hunknown : tag ≠ .unknown) : tag.isOfScalars = true := by
  cases tag <;> first | rfl | contradiction

/-- A node of a document that cannot be built under its tag. -/
inductive Misfit (nodes : Nodes) : Fault → Prop where
  /-- A scalar that its tag cannot be read from. -/
  | scalar {n : Nat} {text : Text} {fault : Fault} : (nodes.node n).body = .scalar text →
      Build.scalarOf (nodes.node n).tag text = .error (.fault fault) → Misfit nodes fault
  /-- A mapping under a tag of scalars. -/
  | mapping {n : Nat} {pairs : List (Nat × Nat)} {fault : Fault} : (nodes.node n).body = .mapping pairs →
      (nodes.node n).tag.isOfScalars = true → Misfit nodes fault

/-- What building a document can fail with. -/
inductive Unbuilt (nodes : Nodes) : Error → Prop where
  /-- The nodes make no value. -/
  | invalid : Unbuilt nodes .invalid
  /-- A node does not fit its tag. -/
  | misfit {fault : Fault} : Misfit nodes fault → Unbuilt nodes (.fault fault)

/-! ## Settled nodes -/

namespace Nodes

/-- Changing a node changes that node alone. -/
theorem node_modify (nodes : Nodes) (n m : Nat) (f : Node → Node) :
    Nodes.node (nodes.modify n f) m = nodes.node m ∨
      (n = m ∧ Nodes.node (nodes.modify n f) m = f (nodes.node m)) := by
  unfold node
  simp only [Array.getD_eq_getD_getElem?, Array.getElem?_modify]
  split
  · rename_i heq
    cases nodes[m]? with
    | none => exact .inl rfl
    | some node => exact .inr ⟨heq, rfl⟩
  · exact .inl rfl

/-- Nodes that come of others by settling: no scalar and no sequence is touched, mappings stay mappings, and only
keys for default values get another tag. -/
structure Settled (nodes settled : Nodes) : Prop where
  tag : ∀ n, (settled.node n).tag = (nodes.node n).tag ∨
    ((nodes.node n).tag = .value ∧ (settled.node n).tag = .text)
  body : ∀ n, (settled.node n).body = (nodes.node n).body ∨
    ((nodes.pairs? n).isSome ∧ (settled.pairs? n).isSome)

variable {nodes settled more : Nodes}

/-- Nodes that nothing was done to are settled. -/
theorem Settled.refl (nodes : Nodes) : Settled nodes nodes := ⟨fun _ => .inl rfl, fun _ => .inl rfl⟩

/-- The pairs of a node depend on its body alone. -/
theorem pairs?_congr {n : Nat} (h : (settled.node n).body = (nodes.node n).body) :
    settled.pairs? n = nodes.pairs? n := by
  unfold pairs?
  rw [h]

/-- Settling twice is settling. -/
theorem Settled.trans (h : Settled nodes settled) (h' : Settled settled more) : Settled nodes more := by
  constructor
  · intro n
    rcases h'.tag n with htag | ⟨hvalue, htext⟩
    · rw [htag]
      exact h.tag n
    · rcases h.tag n with hsame | ⟨-, hdone⟩
      · exact .inr ⟨hsame ▸ hvalue, htext⟩
      · rw [hvalue] at hdone
        cases hdone
  · intro n
    rcases h'.body n with hsame | ⟨hbefore, hafter⟩
    · rcases h.body n with hsame' | ⟨hbefore, hafter⟩
      · exact .inl (hsame.trans hsame')
      · exact .inr ⟨hbefore, (pairs?_congr hsame).symm ▸ hafter⟩
    · rcases h.body n with hsame' | ⟨hbefore', -⟩
      · exact .inr ⟨pairs?_congr hsame' ▸ hbefore, hafter⟩
      · exact .inr ⟨hbefore', hafter⟩

/-- A mapping stays one. -/
theorem Settled.isSome_pairs? (h : Settled nodes settled) {n : Nat} (hn : (nodes.pairs? n).isSome) :
    (settled.pairs? n).isSome := by
  rcases h.body n with hsame | ⟨-, hafter⟩
  · rw [pairs?_congr hsame]
    exact hn
  · exact hafter

/-- Giving a mapping other pairs is settling. -/
theorem settled_setPairs {n : Nat} (hn : (nodes.pairs? n).isSome) (pairs : List (Nat × Nat)) :
    Settled nodes (nodes.setPairs n pairs) := by
  have hnode := fun m => node_modify nodes n m fun node => { node with body := .mapping pairs }
  constructor
  · intro m
    rcases hnode m with hsame | ⟨-, hset⟩
    · exact .inl (congrArg Node.tag hsame)
    · exact .inl (congrArg Node.tag hset :)
  · intro m
    rcases hnode m with hsame | ⟨rfl, hset⟩
    · exact .inl (congrArg Node.body hsame)
    · refine .inr ⟨hn, ?_⟩
      unfold pairs? setPairs
      rw [hset]
      rfl

/-- Making a key for a default value a text is settling. -/
theorem settled_setTag {n : Nat} (hn : (nodes.node n).tag = .value) :
    Settled nodes (nodes.setTag n .text) := by
  have hnode := fun m => node_modify nodes n m fun node => { node with tag := .text }
  constructor
  · intro m
    rcases hnode m with hsame | ⟨rfl, hset⟩
    · exact .inl (congrArg Node.tag hsame)
    · exact .inr ⟨hn, congrArg Node.tag hset⟩
  · intro m
    rcases hnode m with hsame | ⟨rfl, hset⟩
    · exact .inl (congrArg Node.body hsame)
    · exact .inl (congrArg Node.body hset :)

/-- A node with a pair is a mapping. -/
theorem isSome_pairs?_of_getElem? {n i : Nat} {pair : Nat × Nat}
    (h : ((nodes.pairs? n).getD [])[i]? = some pair) : (nodes.pairs? n).isSome := by
  cases hpairs : nodes.pairs? n with
  | none =>
    rw [hpairs] at h
    cases h
  | some pairs => rfl

/-- Settling a mapping fails only on nodes that make no value. -/
@[spec]
theorem settle_spec (depth : Nat) (nodes : Nodes) (n : Nat) :
    ⦃⌜True⌝⦄ settle depth nodes n
    ⦃post⟨fun settled => ⌜Settled nodes settled⌝, fun error => ⌜error = .invalid⌝⟩⦄ := by
  induction depth generalizing nodes n with
  | zero =>
    mvcgen [settle]
    exact .refl nodes
  | succ depth ih =>
    mvcgen [settle, ih]
    -- Behind both loops pairs are put in front of the mapping only if it is one.
    invariants
    · post⟨fun ⟨_, found, _, front⟩ => ⌜Settled nodes found ∧ (front = [] ∨ (found.pairs? n).isSome)⌝,
        fun error => ⌜error = .invalid⌝⟩
    · post⟨fun ⟨_, found, _⟩ => ⌜Settled nodes found ∧ (found.pairs? n).isSome⌝,
        fun error => ⌜error = .invalid⌝⟩
    case vc2 found _ key value hpair _ nodes' _ _ h _ h' =>
      have hn := isSome_pairs?_of_getElem? hpair
      have hset : Settled found.1 nodes' := settled_setPairs hn _
      exact ⟨(h.1.trans hset).trans h', .inr ((hset.trans h').isSome_pairs? hn)⟩
    case vc3 => exact id
    case vc4 h _ h' => exact ⟨h.1.trans h', h'.isSome_pairs? h.2⟩
    case vc5 => exact id
    case vc7 found _ key value hpair _ nodes' _ _ h =>
      have hn := isSome_pairs?_of_getElem? hpair
      have hset : Settled found.1 nodes' := settled_setPairs hn _
      exact ⟨h.1.trans hset, hset.isSome_pairs? hn⟩
    case vc8 h => exact ⟨h.1, .inr h.2⟩
    case vc11 found _ key value hpair _ htag h =>
      have hset : Settled found.1 (found.1.setTag key .text) := settled_setTag (beq_iff_eq.1 htag)
      exact ⟨h.1.trans hset, .inr (hset.isSome_pairs? (isSome_pairs?_of_getElem? hpair))⟩
    case vc13 => exact ⟨.refl nodes, .inl trivial⟩
    case vc14 h => exact h.1
    case vc15 hfront h =>
      have hn := h.2.resolve_left (fun hnil => hfront (List.isEmpty_iff.2 hnil))
      exact h.1.trans (settled_setPairs hn _)

end Nodes

/-! ## Scalars -/

/-- A reading of a scalar never says that the bytes are not UTF-8. -/
abbrev Decoded {α : Type} (reading : Except Error α) : Prop :=
  ⦃⌜True⌝⦄ reading ⦃post⟨fun _ => ⌜True⌝, fun error => ⌜error ≠ .notUtf8⌝⟩⦄

/-- Changing what is read does not change how reading fails. -/
@[spec]
theorem decoded_map {α β : Type} (f : α → β) {reading : Except Error α} (h : Decoded reading) :
    Decoded (reading.map f) := by
  cases reading with
  | ok a => exact fun _ => trivial
  | error error => exact h

/-- Readings one after the other fail as one of them does. -/
@[spec]
theorem decoded_mapM {α β : Type} {read : α → Except Error β} (h : ∀ a, Decoded (read a)) (list : List α) :
    Decoded (list.mapM read) := by
  induction list with
  | nil =>
    rw [List.mapM_nil]
    mvcgen
  | cons a more ih =>
    rw [List.mapM_cons]
    mvcgen [h, ih]

/-- Reading an integer in a base does not fail at UTF-8. -/
@[spec]
theorem decoded_readInteger (base : Nat) (text : Text) : Decoded (readInteger base text) := by
  mvcgen [readInteger]

/-- Reading an integer in any of its forms does not fail at UTF-8. -/
@[spec]
theorem decoded_integerOf (text : Text) : Decoded (integerOf text) := by
  mvcgen [integerOf]

/-- Reading a float does not fail at UTF-8. -/
@[spec]
theorem decoded_readFloat (text : Text) : Decoded (readFloat text) := by
  mvcgen [readFloat]

/-- Summing up sexagesimal parts does not fail at UTF-8, by induction over them. -/
@[spec]
theorem decoded_sexagesimal (parts : List Double) (base : Nat) (sum : Double) :
    Decoded (sexagesimal parts base sum) := by
  fun_induction sexagesimal parts base sum with
  | case1 => mvcgen
  | case2 => mvcgen
  | case3 sum part more base weight ih => exact ih

/-- Reading a float in any of its forms does not fail at UTF-8. -/
@[spec]
theorem decoded_floatOf (text : Text) : Decoded (floatOf text) := by
  mvcgen [floatOf]

/-- Reading a date or a time does not fail at UTF-8. -/
@[spec]
theorem decoded_momentOf (text : Text) : Decoded (momentOf text) := by
  mvcgen [momentOf]

/-- Reading bytes in base 64 does not fail at UTF-8. -/
@[spec]
theorem decoded_bytesOf (text : Text) : Decoded (bytesOf text) := by
  mvcgen [bytesOf]

namespace Build

/-- Reading a truth word does not fail at UTF-8. -/
@[spec]
theorem decoded_truthOf (text : Text) : Decoded (truthOf text) := by
  mvcgen [truthOf]

/-- Under no tag does reading a scalar fail at UTF-8. -/
theorem decoded_scalarOf (tag : Tag) (text : Text) : Decoded (scalarOf tag text) := by
  unfold scalarOf
  split <;> mvcgen

/-- Looking for the text of a node does not fail at UTF-8, by induction over the default values. -/
theorem decoded_scalarText (nodes : Nodes) (fuel n : Nat) : Decoded (scalarText nodes fuel n) := by
  fun_induction scalarText nodes fuel n with
  | case1 => mvcgen
  | case2 => mvcgen
  | case3 => mvcgen
  | case4 fuel n pairs hbody pair value hfind ih => exact ih
  | case5 => mvcgen

variable {nodes : Nodes}

/-- A reading whose faults are those of a node that does not fit fails as building may. -/
theorem unbuilt_of_decoded {α : Type} {reading : Except Error α} (h : Decoded reading)
    (hfault : ∀ fault, reading = .error (.fault fault) → Misfit nodes fault) :
    ⦃⌜True⌝⦄ reading ⦃post⟨fun a => ⌜reading = .ok a⌝, fun error => ⌜Unbuilt nodes error⌝⟩⦄ := by
  cases hreading : reading with
  | ok a => exact fun _ => rfl
  | error error =>
    intro _
    cases error with
    | invalid => exact Unbuilt.invalid
    | notUtf8 =>
      rw [hreading] at h
      exact absurd rfl (h trivial)
    | fault fault => exact Unbuilt.misfit (hfault fault hreading)

/-- Reading a scalar by its tag fails only if the scalar does not fit. -/
theorem scalarOf_spec {tag : Tag} {text : Text}
    (h : ∀ fault, scalarOf tag text = .error (.fault fault) → Misfit nodes fault) :
    ⦃⌜True⌝⦄ scalarOf tag text ⦃post⟨fun _ => ⌜True⌝, fun error => ⌜Unbuilt nodes error⌝⟩⦄ := by
  have hread := unbuilt_of_decoded (decoded_scalarOf tag text) h
  mvcgen [hread]

/-- The text that a node stands for is its own, unless it is a mapping. -/
theorem scalarText_spec {settled : Nodes} {fuel n : Nat}
    (h : (settled.pairs? n).isSome → ∀ fault, Misfit nodes fault) :
    ⦃⌜True⌝⦄ scalarText settled (fuel + 1) n
    ⦃post⟨fun text => ⌜(settled.node n).body = .scalar text ∨ (settled.pairs? n).isSome⌝,
      fun error => ⌜Unbuilt nodes error⌝⟩⦄ := by
  cases hbody : (settled.node n).body with
  | scalar text =>
    simp only [scalarText, hbody]
    mvcgen
    exact .inl trivial
  | sequence items =>
    simp only [scalarText, hbody]
    mvcgen
    exact .invalid
  | mapping pairs =>
    have hn : (settled.pairs? n).isSome := by
      unfold Nodes.pairs?
      rw [hbody]
      rfl
    have hread := unbuilt_of_decoded (decoded_scalarText settled (fuel + 1) n) fun fault _ => h hn fault
    mvcgen [hread]
    intro _
    exact .inr hn

/-! ## Parts and collections -/

/-- A state of building in which the nodes come of those of the document by settling. -/
def BuildsOn (nodes : Nodes) (s : Builder) : Prop := Nodes.Settled nodes s.nodes

/-- A step of building keeps the nodes settled and fails only at a node that does not fit, or because the nodes
make no value. -/
abbrev Safe {α : Type} (nodes : Nodes) (step : Build α) : Prop :=
  ⦃fun s => ⌜BuildsOn nodes s⌝⦄ step
  ⦃post⟨fun _ s => ⌜BuildsOn nodes s⌝, fun error => ⌜Unbuilt nodes error⌝⟩⦄

/-- A mapping that is come upon under a tag of scalars is one in the document. -/
theorem BuildsOn.misfit_mapping {s : Builder} (h : BuildsOn nodes s) {n : Nat}
    (hn : (s.nodes.pairs? n).isSome) (htag : (s.nodes.node n).tag.isOfScalars = true) (fault : Fault) :
    Misfit nodes fault := by
  -- No other node has become a mapping, and a key for a default value, whose tag may change, is one of scalars.
  have hbefore : (nodes.pairs? n).isSome := by
    rcases h.body n with hsame | ⟨hbefore, -⟩
    · rw [← Nodes.pairs?_congr hsame]
      exact hn
    · exact hbefore
  have htag' : (nodes.node n).tag.isOfScalars = true := by
    rcases h.tag n with hsame | ⟨hvalue, -⟩
    · rw [← hsame]
      exact htag
    · rw [hvalue]
      rfl
  cases hbody : (nodes.node n).body with
  | mapping pairs => exact .mapping hbody htag'
  | scalar text =>
    rw [Nodes.pairs?, hbody] at hbefore
    cases hbefore
  | sequence items =>
    rw [Nodes.pairs?, hbody] at hbefore
    cases hbefore

/-- A scalar that its tag cannot be read from is one in the document. -/
theorem BuildsOn.misfit_scalar {s : Builder} (h : BuildsOn nodes s) {n : Nat} {text : Text}
    (hbody : (s.nodes.node n).body = .scalar text) {fault : Fault}
    (hfault : scalarOf (s.nodes.node n).tag text = .error (.fault fault)) : Misfit nodes fault := by
  have hbody' : (nodes.node n).body = .scalar text := by
    rcases h.body n with hsame | ⟨-, hafter⟩
    · rw [← hsame]
      exact hbody
    · rw [Nodes.pairs?, hbody] at hafter
      cases hafter
  rcases h.tag n with hsame | ⟨-, htext⟩
  · rw [hsame] at hfault
    exact .scalar hbody' hfault
  · rw [htext] at hfault
    cases hfault

/-- Noting a collection for later is safe. -/
@[spec]
theorem safe_await (n : Nat) (part : Part) : Safe nodes (await n part) := by
  mvcgen [await]

/-- Building a node is safe. -/
@[spec]
theorem safe_part (n : Nat) : Safe nodes (part n) := by
  mvcgen [part, scalarText_spec, scalarOf_spec]
  -- Three tags are refused. Under all others but those of collections a node is read as a scalar.
  case vc7 => exact .invalid
  case vc8 => exact .invalid
  case vc9 => exact .invalid
  case vc10 s h _ _ _ _ hsequence horderedMap hpairs hmapping hset hmerge _ hunknown htag =>
    subst htag
    intro hn
    exact h.misfit_mapping hn
      (Tag.isOfScalars_of_ne hsequence horderedMap hpairs hmapping hset hmerge hunknown)
  case vc11 s h _ _ _ _ hsequence horderedMap hpairs hmapping hset hmerge _ hunknown htag _ _ hmoment _ =>
    subst htag
    have hn : (s.nodes.pairs? n).isSome := (Bool.and_eq_true_iff.1 hmoment).2
    exact .misfit (h.misfit_mapping hn
      (Tag.isOfScalars_of_ne hsequence horderedMap hpairs hmapping hset hmerge hunknown) _)
  case vc12 s h _ _ _ _ hsequence horderedMap hpairs hmapping hset hmerge _ hunknown htag _ _ _ htext =>
    subst htag
    intro fault hfault
    rcases htext with hbody | hn
    · exact h.misfit_scalar hbody hfault
    · exact h.misfit_mapping hn
        (Tag.isOfScalars_of_ne hsequence horderedMap hpairs hmapping hset hmerge hunknown) fault

/-- Building the entries of a mapping is safe, by induction over its pairs. -/
@[spec]
theorem safe_entries (pairs : List (Nat × Nat)) (built : List (Key × Part)) : Safe nodes (entries pairs built) := by
  induction pairs generalizing built with
  | nil => mvcgen [entries]
  | cons pair more ih =>
    mvcgen [entries, ih]
    exact .invalid

/-- Building the contents of a mapping is safe. -/
@[spec]
theorem safe_mappingContents (n : Nat) : Safe nodes (mappingContents n) := by
  mvcgen [mappingContents]
  case vc1 => exact .invalid
  case vc2 h _ _ _ hsettled => exact h.trans hsettled
  case vc3 =>
    rintro rfl
    exact .invalid

/-- Building the items of a sequence is safe, by induction over them. -/
@[spec]
theorem safe_mapM_part (items : List Nat) : Safe nodes (items.mapM part) := by
  induction items with
  | nil =>
    rw [List.mapM_nil]
    mvcgen
  | cons item more ih =>
    rw [List.mapM_cons]
    mvcgen [ih]

/-- A safe step is safe for each item of a list. -/
@[spec]
theorem safe_forM {step : Nat → Build PUnit} (h : ∀ n, Safe nodes (step n)) (items : List Nat) :
    Safe nodes (items.forM step) := by
  induction items with
  | nil =>
    show Safe nodes (pure PUnit.unit)
    mvcgen
  | cons item more ih =>
    show Safe nodes (do step item; more.forM step)
    mvcgen [h, ih]

/-- Building the contents of a list of pairs is safe. -/
@[spec]
theorem safe_pairContents (items : List Nat) : Safe nodes (pairContents items) := by
  mvcgen [pairContents]
  exact .invalid

/-- Building the contents of a collection is safe. -/
@[spec]
theorem safe_contentsOf (n : Nat) : Safe nodes (contentsOf n) := by
  mvcgen [contentsOf]
  exact .invalid

/-- Filling the collections that wait is safe, by induction over the fuel. -/
@[spec]
theorem safe_fill (fuel : Nat) : Safe nodes (fill fuel) := by
  induction fuel with
  | zero => mvcgen [fill]
  | succ fuel ih => mvcgen [fill, ih]

/-- Building a document is safe. -/
@[spec]
theorem safe_document (root : Nat) : Safe nodes (document root) := by
  mvcgen [document]

end Build

/-! ## Values of bytes -/

/-- Reading the value of some bytes fails with what their text warrants, or else the text is read into nodes that
are not built. -/
theorem valueOf_error {depth : Nat} {bytes : Text.Bytes} {error : Error}
    (h : valueOf depth bytes = .error error) :
    Warranted (.ofBytes bytes) error ∨
      ∃ nodes root, graphOf (.ofBytes bytes) = .ok (some (nodes, root)) ∧ Unbuilt nodes error := by
  unfold valueOf at h
  cases hgraph : graphOf (.ofBytes bytes) with
  | error error' =>
    rw [hgraph] at h
    cases h
    exact .inl (warranted_of_graphOf hgraph)
  | ok graph =>
    rw [hgraph] at h
    cases graph with
    | none => cases h
    | some graph =>
      obtain ⟨nodes, root⟩ := graph
      refine .inr ⟨nodes, root, rfl, ?_⟩
      have hstart : Build.BuildsOn nodes
          ⟨nodes, Array.replicate nodes.size none, [], Array.replicate nodes.size none⟩ := Nodes.Settled.refl nodes
      cases hrun : (Build.document root).run
          ⟨nodes, Array.replicate nodes.size none, [], Array.replicate nodes.size none⟩ with
      | error error' =>
        simp only [bind, Except.bind, hrun] at h
        cases h
        exact error_of_run (Build.safe_document root) hstart hrun
      | ok result =>
        simp only [bind, Except.bind, hrun] at h
        cases h

end GuidedTour.Yaml
