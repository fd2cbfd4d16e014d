import ActivityScript.Script.Node

/-!
# Outlines

The outline of a program has one line for each node, in the order of the text, each indented below
the node it belongs to. Assignments and calls are shown with their locations, literals in quotation
marks. An empty node has no outline.
-/

namespace ActivityScript.Script

variable {φ : Type}

/-- A node that has no outline, by its kind. -/
structure OutlineFault where
  kind : NodeKind
  deriving DecidableEq, Repr

/-- A fault in words. -/
def OutlineFault.message (fault : OutlineFault) : String :=
  "No visitor for " ++ fault.kind.label

/-- A line of an outline, `depth` levels below the top. -/
def indented (depth : Nat) (line : String) : String :=
  String.ofList (List.replicate (2 * depth) ' ') ++ line

mutual

/-- The lines of a node `depth` levels below the top. -/
def Node.outline (depth : Nat) : Node φ → Except OutlineFault (List String)
  | .assignment location name value => do
    let lines ← value.outline (depth + 1)
    return indented depth ("Assignment " ++ name ++ " @ " ++ location.text) :: lines
  | .call location name _ arguments => do
    let lines ← outlineAll (depth + 1) arguments
    return indented depth ("Call " ++ name ++ " @ " ++ location.text) :: lines
  | .literal _ text => return [indented depth ("StringLiteral " ++ Text.quoted text)]
  | .reference _ name => return [indented depth ("Identifier " ++ name)]
  | .empty _ => throw ⟨.empty⟩

/-- The lines of nodes one after the other. -/
def outlineAll (depth : Nat) : List (Node φ) → Except OutlineFault (List String)
  | [] => return []
  | node :: nodes => do
    let lines ← node.outline depth
    let more ← outlineAll depth nodes
    return lines ++ more

end

/-- The outline of a program. -/
def outline (program : List (Node φ)) : Except OutlineFault String := do
  let lines ← outlineAll 0 program
  return "\n".intercalate lines

end ActivityScript.Script
