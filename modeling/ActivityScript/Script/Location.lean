/-!
# Locations

A place in a script: line and column, counted from zero, and the name of the file, if it has one.
Readers see both numbers counted from one.
-/

namespace ActivityScript.Script

/-- A place in a script. -/
structure Location where
  line : Nat
  column : Nat
  file : Option String
  deriving DecidableEq, Repr

/-- Line and column as readers count them. -/
def Location.position (l : Location) : String :=
  toString (l.line + 1) ++ ":" ++ toString (l.column + 1)

/-- A location in a report; an empty file name counts as none. -/
def Location.text (l : Location) : String :=
  match l.file with
  | none => l.position
  | some file => if file.isEmpty then l.position else file ++ ":" ++ l.position

end ActivityScript.Script
