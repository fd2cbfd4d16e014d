import ActivityScript.Yaml.Fault
import ActivityScript.Yaml.Graph

/-!
# Merging

A merge key brings the pairs of another mapping, or of a sequence of mappings, before the own pairs
of its mapping; of a sequence the last mapping comes first. What is brought in has its own merges
done before. A merge key is taken out before what it names is looked at, so that every merge comes
to an end even where mappings merge each other.
-/

namespace ActivityScript.Yaml

/-- A change of nodes. -/
abbrev Merger (α : Type) := StateT Nodes (Except Fault) α

/-- Takes the first merge key out of a mapping and gives what it names. -/
def takeMerge? (id : NodeId) : Merger (Option NodeId) := do
  let nodes ← get
  let pairs := (nodes.pairs? id).getD []
  let isMerge (pair : NodeId × NodeId) : Bool := nodes.kindAt pair.1 = .merge
  match pairs.find? isMerge with
  | none => return none
  | some (_, source) =>
    set (nodes.setContent id (.mapping (pairs.eraseP isMerge)))
    return some source

/-- Ends the merges of a mapping: `merged` comes before its own pairs, and default keys become
texts. -/
def endMerges (merged : NodePairs) (id : NodeId) : Merger Unit := do
  let pairs := ((← get).pairs? id).getD []
  for (key, _) in pairs do
    if (← get).kindAt key = .default then
      modify fun nodes => nodes.setKind key .text
  modify fun nodes => nodes.setContent id (.mapping (merged ++ pairs))

/-- Does the merges of a mapping, of which those in `merged` are done. Every merge key takes at most
one unit of `fuel`. -/
def mergeMapping (merged : NodePairs) (id : NodeId) : (fuel : Nat) → Merger Unit
  | 0 => throw .malformed
  | fuel + 1 => do
    match ← takeMerge? id with
    | none => endMerges merged id
    | some source =>
      let pairsOf (id : NodeId) : Merger NodePairs := do
        if ((← get).pairs? id).isNone then throw .malformed
        mergeMapping [] id fuel
        return ((← get).pairs? id).getD []
      let brought ←
        match (← get).items? source with
        | some items => do pure (← items.mapM pairsOf).reverse.flatten
        | none => pairsOf source
      mergeMapping (merged ++ brought) id fuel

/-- The number of pairs of a node. -/
def Node.pairCount (node : Node) : Nat :=
  match node.content with
  | .mapping pairs => pairs.length
  | _ => 0

/-- The nodes after the merges of one of them, which is a mapping. -/
def Nodes.merged (nodes : Nodes) (id : NodeId) : Except Fault Nodes := do
  let count := nodes.foldl (fun count node => count + node.pairCount) 0
  let (_, nodes) ← (mergeMapping [] id (count + 1)).run nodes
  return nodes

end ActivityScript.Yaml
