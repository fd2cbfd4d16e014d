import ActivityScript.Script.Lexer
import ActivityScript.Script.Parser
import ActivityScript.Script.Scope
import ActivityScript.Text.Number

/-!
# Running programs

A function takes the values of its arguments and a state, and gives a text or a failure together
with the state after it; the state survives failures. Statements run in order, the arguments of a
call from left to right before the call itself. The first fault ends the run and leaves the scope
and the state as they were reached.

A function refuses a call to tell the script that something went wrong; this becomes a problem at
the call. Every other failure is a crash, which passes through unchanged.
-/

namespace ActivityScript.Script

/-- Failures of functions that are not meant for the script. -/
inductive Crash where
  /-- The function was given the wrong number of arguments. -/
  | wrongCount (expected given : Nat)
  /-- A command without words. -/
  | noCommand
  /-- A text that should have been a number. -/
  | number (fault : Text.NumberFault)
  /-- A record for a log that is not open. -/
  | logNotOpen (path : String)
  /-- Anything else. -/
  | broken (message : String)
  deriving DecidableEq, Repr

/-- A crash in words. -/
def Crash.message : Crash → String
  | .wrongCount expected given =>
    if given < expected then
      "not enough values to unpack (expected " ++ toString expected ++ ", got "
        ++ toString given ++ ")"
    else "too many values to unpack (expected " ++ toString expected ++ ")"
  | .noCommand => "list index out of range"
  | .number fault => fault.text
  | .logNotOpen path => "activity log " ++ path ++ " is not open"
  | .broken message => message

/-- How a function can fail. -/
inductive Failure where
  /-- A failure that the script is told about. -/
  | refused (message : String)
  | crashed (crash : Crash)
  deriving DecidableEq, Repr

/-- Steps over a state `σ` that may fail with `ε` and keep the state if they do. -/
abbrev Step (σ ε α : Type) := ExceptT ε (StateM σ) α

/-- A function that scripts can call. -/
abbrev Native (σ : Type) := List String → Step σ Failure String

/-- Why a script did not run to its end. -/
inductive Fault where
  | script (diagnostic : Diagnostic)
  | encoding (fault : Text.Utf8.Fault)
  /-- A node that has no value stood where a value was needed. -/
  | notEvaluable (kind : NodeKind)
  | crashed (crash : Crash)
  deriving DecidableEq, Repr

/-- A fault of reading as a fault of running. -/
def ReadFault.toFault : ReadFault → Fault
  | .script diagnostic => .script diagnostic
  | .encoding fault => .encoding fault

/-- The words for a node that has no value. -/
def notEvaluableMessage (kind : NodeKind) : String := "Cannot evaluate " ++ kind.label

/-- A fault in words. -/
def Fault.text : Fault → String
  | .script diagnostic => diagnostic.report.text
  | .encoding fault => fault.text
  | .notEvaluable kind => notEvaluableMessage kind
  | .crashed crash => crash.message

/-- A failure of the function called at `location`, as a fault. -/
def Failure.toFault (location : Location) : Failure → Fault
  | .refused message => .script ⟨.activityFailed message, location⟩
  | .crashed crash => .crashed crash

variable {σ : Type}

/-- Calls a function from a call at `location`. -/
def invoke (location : Location) (function : Native σ) (arguments : List String) :
    Step σ Fault String :=
  (function arguments).adapt (Failure.toFault location)

mutual

/-- The value of a node. -/
def evaluate (scope : Scope) : Node (Native σ) → Step σ Fault String
  | .literal _ text => return text
  | .reference location name =>
    match scope.get? name with
    | some value => return value
    | none => throw (.script ⟨.undefinedVariable, location⟩)
  | .call location _ target arguments => do
    let values ← evaluateAll scope arguments
    invoke location target.body values
  | .assignment .. => throw (.notEvaluable .assignment)
  | .empty _ => throw (.notEvaluable .empty)

/-- The values of nodes, from left to right. -/
def evaluateAll (scope : Scope) : List (Node (Native σ)) → Step σ Fault (List String)
  | [] => return []
  | node :: nodes => do
    let value ← evaluate scope node
    let values ← evaluateAll scope nodes
    return value :: values

end

/-- The scope after a statement. -/
def runStatement (scope : Scope) : Node (Native σ) → Step σ Fault Scope
  | .assignment _ name value => do
    let value ← evaluate scope value
    return scope.set name value
  | node => do
    let _ ← evaluate scope node
    return scope

/-- What a run leaves: the scope and the state it reached, and the fault that ended it early. -/
structure Run (σ : Type) where
  fault? : Option Fault
  scope : Scope
  state : σ

/-- Runs statements from a scope and a state. -/
def runFrom (scope : Scope) (state : σ) : List (Node (Native σ)) → Run σ
  | [] => ⟨none, scope, state⟩
  | node :: nodes =>
    match (runStatement scope node).run.run state with
    | (.ok scope, state) => runFrom scope state nodes
    | (.error fault, state) => ⟨some fault, scope, state⟩

/-- Runs a program from an empty scope. -/
def run (program : List (Node (Native σ))) (state : σ) : Run σ :=
  runFrom Scope.empty state program

/-- The program of a source. -/
def read {φ : Type} (registry : Registry φ) (source : Source) (file : Option String) :
    Except ReadFault (List (Node φ)) := do
  let tokens ← tokenize source file
  (parse registry tokens).mapError .script

/-- Reads and runs a source. Nothing runs unless all of it can be read, and then the scope is left
as `scope`. -/
def execute (registry : Registry (Native σ)) (source : Source) (file : Option String)
    (scope : Scope) (state : σ) : Run σ :=
  match read registry source file with
  | .ok program => run program state
  | .error fault => ⟨some fault.toFault, scope, state⟩

end ActivityScript.Script
