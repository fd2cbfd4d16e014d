import ActivityScript.Yaml.Merging
import ActivityScript.Yaml.ScalarValue

/-!
# Evaluation

Every node of a document is evaluated once. Scalars have their values at once. A collection has to
wait for its turn, and then what it holds is evaluated, so a document is evaluated level by level
from its root down. Of several faults the one that is met first in this order counts.

The keys of a mapping are single values, each with its last value. Its merges are done when its turn
comes.
-/

namespace ActivityScript.Yaml

open Settings (Value)

/-- What is known of the value of a node: a single value, or a collection of nodes. -/
inductive Outline where
  | single (value : Value)
  | list (items : List NodeId)
  | pairs (pairs : NodePairs)
  | mapping (pairs : List (Value × NodeId))
  | set (items : List Value)

/-- The state of an evaluation. -/
structure Evaluation where
  nodes : Nodes
  /-- The outlines by the numbers of the nodes. -/
  outlines : Array (Option Outline)
  /-- The collections that have been met, in order. -/
  collections : Array NodeId

/-- A part of an evaluation. -/
abbrev Evaluator (α : Type) := StateT Evaluation (Except Fault) α

namespace Evaluator

/-- The outline of a node, if it has been met. -/
def outline? (id : NodeId) : Evaluator (Option Outline) := do
  return (← get).outlines.getD id none

/-- Gives a node its outline. -/
def setOutline (id : NodeId) (outline : Outline) : Evaluator Unit :=
  modify fun state => { state with outlines := state.outlines.setIfInBounds id (some outline) }

/-- The text of a node that must be a scalar. A mapping with a default key has the text of its
default value; `fuel` bounds the number of such mappings. -/
def textOf (nodes : Nodes) (id : NodeId) : (fuel : Nat) → Except Fault String
  | 0 => .error .malformed
  | fuel + 1 =>
    match nodes[id]? with
    | some ⟨_, .scalar text⟩ => .ok text
    | some ⟨_, .mapping pairs⟩ =>
      match pairs.find? fun pair => nodes.kindAt pair.1 = .default with
      | some (_, value) => textOf nodes value fuel
      | none => .error .malformed
    | _ => .error .malformed

/-- The value of a node that must be a scalar. -/
def singleValue (nodes : Nodes) (id : NodeId) (kind : Kind) : Except Fault Value := do
  if [.merge, .default, .unknown].contains kind then throw .malformed
  let text ← textOf nodes id (nodes.size + 1)
  if kind = .timestamp ∧ (nodes.pairs? id).isSome then throw .mappedTimestamp
  valueOfKind text kind

/-- Whether nodes of a kind are collections. -/
def isCollection : Kind → Bool
  | .sequence | .mapping | .set | .pairs => true
  | _ => false

/-- Meets a node: evaluates a scalar, and lets a collection wait. -/
def meet (id : NodeId) : Evaluator Unit := do
  if (← outline? id).isSome then return
  let nodes := (← get).nodes
  let kind := nodes.kindAt id
  if isCollection kind then
    setOutline id (.list [])
    modify fun state => { state with collections := state.collections.push id }
  else
    let value ← singleValue nodes id kind
    setOutline id (.single value)

/-- The value of a key, which must be single. -/
def keyValue (id : NodeId) : Evaluator Value := do
  meet id
  match ← outline? id with
  | some (.single value) => return value
  | _ => throw .malformed

/-- The keys of a mapping with its values. -/
def mappingPairs (id : NodeId) : Evaluator (List (Value × NodeId)) := do
  let state ← get
  if (state.nodes.pairs? id).isNone then throw .malformed
  let nodes ← state.nodes.merged id
  set { state with nodes := nodes }
  let pairs ← ((nodes.pairs? id).getD []).mapM fun (key, value) => do
    let key ← keyValue key
    meet value
    return (key, value)
  return Value.collapsed pairs

/-- The only pair of a node, which must be a mapping. -/
def onlyPair (id : NodeId) : Evaluator (NodeId × NodeId) := do
  match (← get).nodes.pairs? id with
  | some [(key, value)] =>
    meet key
    meet value
    return (key, value)
  | _ => throw .malformed

/-- The items of a node, which must be a sequence. -/
def sequenceItems (id : NodeId) : Evaluator (List NodeId) := do
  match (← get).nodes.items? id with
  | some items => return items
  | none => throw .malformed

/-- Evaluates a collection when its turn comes. -/
def visit (id : NodeId) : Evaluator Unit := do
  match (← get).nodes.kindAt id with
  | .mapping => setOutline id (.mapping (← mappingPairs id))
  | .set => setOutline id (.set ((← mappingPairs id).map (·.1)))
  | .pairs =>
    let pairs ← (← sequenceItems id).mapM onlyPair
    setOutline id (.pairs pairs)
  | _ =>
    let items ← sequenceItems id
    items.forM meet
    setOutline id (.list items)

/-- Evaluates the collections that wait, of which the first is the one at `turn`; `fuel` bounds
their number. -/
def visitFrom (turn : Nat) : (fuel : Nat) → Evaluator Unit
  | 0 => return
  | fuel + 1 => do
    match (← get).collections[turn]? with
    | none => return
    | some id =>
      visit id
      visitFrom (turn + 1) fuel

end Evaluator

/-- The outlines of the nodes that can be reached from a root. -/
def Nodes.outlines (nodes : Nodes) (root : NodeId) : Except Fault (Array (Option Outline)) := do
  let evaluator : Evaluator Unit := do
    Evaluator.meet root
    Evaluator.visitFrom 0 nodes.size
  let (_, state) ← evaluator.run ⟨nodes, Array.replicate nodes.size none, #[]⟩
  return state.outlines

end ActivityScript.Yaml
