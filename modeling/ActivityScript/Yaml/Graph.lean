import ActivityScript.Yaml.Kind

/-!
# Nodes

The nodes of a document have numbers, by which sequences and mappings name what they hold. A
reference to an anchor is just the number of the node with that anchor. So several nodes can hold
the same node, and a node can hold itself.
-/

namespace ActivityScript.Yaml

/-- The number of a node. -/
abbrev NodeId := Nat

/-- Keys and values of a mapping. -/
abbrev NodePairs := List (NodeId × NodeId)

/-- What a node holds. -/
inductive Content where
  | scalar (text : String)
  | sequence (items : List NodeId)
  | mapping (pairs : NodePairs)
  deriving DecidableEq, Repr

/-- A node of a document. -/
structure Node where
  kind : Kind
  content : Content
  deriving DecidableEq, Repr

/-- Nodes by their numbers. -/
abbrev Nodes := Array Node

namespace Nodes

/-- The kind of a node. -/
def kindAt (nodes : Nodes) (id : NodeId) : Kind :=
  match nodes[id]? with
  | some node => node.kind
  | none => .unknown

/-- The keys and values of a node that is a mapping. -/
def pairs? (nodes : Nodes) (id : NodeId) : Option NodePairs :=
  match nodes[id]? with
  | some ⟨_, .mapping pairs⟩ => some pairs
  | _ => none

/-- The items of a node that is a sequence. -/
def items? (nodes : Nodes) (id : NodeId) : Option (List NodeId) :=
  match nodes[id]? with
  | some ⟨_, .sequence items⟩ => some items
  | _ => none

/-- The nodes in which one has another content. -/
def setContent (nodes : Nodes) (id : NodeId) (content : Content) : Nodes :=
  nodes.modify id fun node => { node with content := content }

/-- The nodes in which one has another kind. -/
def setKind (nodes : Nodes) (id : NodeId) (kind : Kind) : Nodes :=
  nodes.modify id fun node => { node with kind := kind }

end Nodes

end ActivityScript.Yaml
