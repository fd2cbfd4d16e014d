import ActivityScript.Yaml.Document
import ActivityScript.Yaml.Evaluation

/-!
# From nodes to values

A value is a tree. Where nodes hold themselves, the tree ends at a node that comes up again on the
way down to it. The way to a value of the root mapping begins at that value and not at the root: so
a value that holds the whole document shows it once.
-/

namespace ActivityScript.Yaml

open Settings (Value)

/-- The value of a node that is inside of the collections `around`. They grow with every step down,
so the number of nodes bounds the depth. -/
def unfolded (outlines : Array (Option Outline)) :
    (fuel : Nat) → (around : List NodeId) → NodeId → Value
  | 0, _, _ => .null
  | fuel + 1, around, id =>
    let inner (id' : NodeId) : Value := unfolded outlines fuel (id :: around) id'
    match outlines.getD id none with
    | none => .null
    | some (.single value) => value
    | some (.set items) => .set items
    | some (.list items) =>
      if around.contains id then .enclosing true else .list (items.map inner)
    | some (.pairs pairs) =>
      if around.contains id then .enclosing true
      else .list (pairs.map fun (first, second) => .pair (inner first) (inner second))
    | some (.mapping pairs) =>
      if around.contains id then .enclosing false
      else .mapping (pairs.map fun (key, value) => (key, inner value))

/-- The value of a document. -/
def Document.value (document : Document) : Except Fault Value := do
  let outlines ← document.nodes.outlines document.root
  let whole := unfolded outlines (document.nodes.size + 1) []
  match outlines.getD document.root none with
  | some (.mapping pairs) => return .mapping (pairs.map fun (key, value) => (key, whole value))
  | _ => return whole document.root

/-- The value of a text with at most one document; without a document it is nothing. -/
def read (text : List Char) : Except Fault Value := do
  match ← document text with
  | none => return .null
  | some document => document.value

end ActivityScript.Yaml
