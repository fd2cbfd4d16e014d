import ActivityScript.Script.Registry

/-!
# Programs as trees

A program is a list of nodes. Parsing gives assignments and calls whose arguments are literals and
references; other trees, with calls inside calls or with `empty` nodes, can be built by hand and
have a meaning too. A call knows the registered entry it refers to.
-/

namespace ActivityScript.Script

/-- A node of a program over functions `φ`. -/
inductive Node (φ : Type) where
  /-- Binds a name to the value of a node. -/
  | assignment (location : Location) (name : String) (value : Node φ)
  /-- Calls a function with the values of its arguments. -/
  | call (location : Location) (name : String) (target : Entry φ) (arguments : List (Node φ))
  /-- A text. -/
  | literal (location : Location) (text : String)
  /-- The value bound to a name. -/
  | reference (location : Location) (name : String)
  /-- Nothing; it has no value. -/
  | empty (location : Location)

/-- The kinds of node. -/
inductive NodeKind where
  | assignment
  | call
  | literal
  | reference
  | empty
  deriving DecidableEq, Repr

/-- The label of a kind of node. -/
def NodeKind.label : NodeKind → String
  | .assignment => "Assignment"
  | .call => "Call"
  | .literal => "StringLiteral"
  | .reference => "Identifier"
  | .empty => "Empty"

namespace Node

variable {φ : Type}

/-- The kind of a node. -/
def kind : Node φ → NodeKind
  | .assignment .. => .assignment
  | .call .. => .call
  | .literal .. => .literal
  | .reference .. => .reference
  | .empty _ => .empty

/-- Where a node starts. -/
def location : Node φ → Location
  | .assignment l _ _ | .call l _ _ _ | .literal l _ | .reference l _ | .empty l => l

variable {ψ : Type} (place : Location → Location) (retarget : Entry φ → Entry ψ)

mutual

/-- A tree at other places, with other targets of its calls. -/
def map : Node φ → Node ψ
  | .assignment l name value => .assignment (place l) name (map value)
  | .call l name target arguments => .call (place l) name (retarget target) (mapAll arguments)
  | .literal l text => .literal (place l) text
  | .reference l name => .reference (place l) name
  | .empty l => .empty (place l)

/-- Trees at other places, with other targets of their calls. -/
def mapAll : List (Node φ) → List (Node ψ)
  | [] => []
  | node :: nodes => map node :: mapAll nodes

end

theorem mapAll_eq_map (nodes : List (Node φ)) :
    mapAll place retarget nodes = nodes.map (map place retarget) := by
  induction nodes with
  | nil => rw [mapAll, List.map_nil]
  | cons node nodes ih => rw [mapAll, List.map_cons, ih]

end Node

end ActivityScript.Script
