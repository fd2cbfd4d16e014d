import ActivityScript.Association

/-!
# Scopes

The names that a program has bound so far, each with its value, in the order of their first binding.
-/

namespace ActivityScript.Script

/-- Names with their values. -/
structure Scope where
  bindings : List (String × String)
  deriving DecidableEq, Repr

namespace Scope

/-- A scope without names. -/
def empty : Scope := ⟨[]⟩

/-- The value of a name. -/
def get? (scope : Scope) (name : String) : Option String :=
  scope.bindings.lookup name

/-- Whether a name is bound. -/
def contains (scope : Scope) (name : String) : Bool :=
  (scope.get? name).isSome

/-- A scope in which `name` has a value: a bound name keeps its place, a new one comes last. -/
def set (scope : Scope) (name value : String) : Scope :=
  ⟨Association.put name value scope.bindings⟩

end Scope

end ActivityScript.Script
