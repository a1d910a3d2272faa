import GuidedTour.Yaml.Node.Basic

/-!
# Merge keys

A merge key brings the pairs of other mappings in front of those of its own mapping, so that its own pairs
override them; of several mappings the first overrides the others. The key for a default value becomes an
ordinary text. Both are settled before the pairs of a mapping are read, and settled mappings stay so.
-/

set_option autoImplicit false

namespace GuidedTour.Yaml.Nodes

/-- The number of merge keys in all nodes, which bounds how deep mappings are merged into each other. -/
def mergeCount (nodes : Nodes) : Nat :=
  nodes.foldl (fun count node =>
    match node.body with
    | .mapping pairs => count + pairs.countP fun pair => (nodes.node pair.1).tag == .merge
    | _ => count) 0

/-- The nodes with a mapping settled. The pairs are gone through once: a merge key is taken out and the
mappings it names are settled in turn and kept for the front. -/
def settle : Nat → Nodes → Nat → Except Error Nodes
  | 0, nodes, _ => .ok nodes
  | depth + 1, nodes, n => do
    let count := ((nodes.pairs? n).getD []).length
    let (nodes, _, front) ← (List.range count).foldlM (fun (state : Nodes × Nat × List (Nat × Nat)) _ =>
      let (nodes, index, front) := state
      let pairs := (nodes.pairs? n).getD []
      match pairs[index]? with
      | none => .ok state
      | some (key, value) =>
        if (nodes.node key).tag == .merge then
          let nodes := nodes.setPairs n (pairs.eraseIdx index)
          match (nodes.node value).body with
          | .mapping _ => do
            let nodes ← settle depth nodes value
            return (nodes, index, front ++ (nodes.pairs? value).getD [])
          | .sequence items => do
            let (nodes, groups) ← items.foldlM (fun (state : Nodes × List (List (Nat × Nat))) item =>
              match (nodes.node item).body with
              | .mapping _ => do
                let nodes ← settle depth state.1 item
                return (nodes, (nodes.pairs? item).getD [] :: state.2)
              | _ => .error Error.invalid) (nodes, [])
            return (nodes, index, front ++ groups.flatten)
          | .scalar _ => .error Error.invalid
        else if (nodes.node key).tag == .value then
          .ok (nodes.setTag key .text, index + 1, front)
        else .ok (nodes, index + 1, front)) (nodes, 0, [])
    if front.isEmpty then return nodes
    else return nodes.setPairs n (front ++ (nodes.pairs? n).getD [])

end GuidedTour.Yaml.Nodes
