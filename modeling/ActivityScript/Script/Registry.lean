import ActivityScript.Script.Diagnostic
import ActivityScript.Text.Blank

/-!
# Registered functions

A function is registered under a name with a list of parameters. A parameter whose name begins with
an asterisk stands for any number of arguments, none included; a function has at most one of these.
The parameters give the arity, by which calls are resolved. Entries keep the order in which they
were registered and are never replaced.

`φ` is whatever a function is: the registry only stores it.
-/

namespace ActivityScript.Script

/-- How many arguments a function takes: `required` of them, or more if `rest` holds. -/
structure Arity where
  required : Nat
  rest : Bool
  deriving DecidableEq, Repr

/-- Whether a call with `count` arguments fits an arity. -/
def Arity.admits (arity : Arity) (count : Nat) : Bool :=
  count = arity.required || (arity.required < count && arity.rest)

/-- Whether a parameter stands for any number of arguments. -/
def isRest (parameter : String) : Bool :=
  parameter.toList.head? = some '*'

/-- The arity after further parameters, unless more than one stands for any number of arguments. -/
def Arity.extend (arity : Arity) : List String → Option Arity
  | [] => some arity
  | parameter :: parameters =>
    if isRest parameter then
      if arity.rest then none
      else Arity.extend { arity with rest := true } parameters
    else Arity.extend { arity with required := arity.required + 1 } parameters

/-- The arity that a list of parameters declares. -/
def Arity.ofParameters? (parameters : List String) : Option Arity :=
  Arity.extend ⟨0, false⟩ parameters

/-- A registered function. -/
structure Entry (φ : Type) where
  name : String
  parameters : List String
  arity : Arity
  body : φ

/-- A parameter in a usage line. -/
def usageOfParameter (parameter : String) : String :=
  if isRest parameter then
    "[" ++ String.ofList parameter.toList.tail ++ ", ...]"
  else "<" ++ parameter ++ ">"

/-- The parameters of an entry in a usage line. -/
def Entry.usage {φ : Type} (entry : Entry φ) : String :=
  " ".intercalate (entry.parameters.map usageOfParameter)

/-- A function that is to be registered. -/
structure Registration (φ : Type) where
  name : String
  parameters : List String
  body : φ

/-- Registered functions, in the order of their registration. -/
structure Registry (φ : Type) where
  entries : List (Entry φ)

namespace Registry

variable {φ : Type}

/-- A registry without functions. -/
def empty : Registry φ := ⟨[]⟩

/-- The entry with a name. -/
def find? (registry : Registry φ) (name : String) : Option (Entry φ) :=
  registry.entries.find? fun entry => entry.name = name

/-- The number of registered functions. -/
def size (registry : Registry φ) : Nat := registry.entries.length

/-- Why a function cannot be registered. -/
inductive Fault where
  /-- The name is taken. -/
  | duplicate (name : String)
  /-- More than one parameter stands for any number of arguments. -/
  | severalRests (name : String)
  deriving DecidableEq, Repr

/-- A fault in words. -/
def Fault.message : Fault → String
  | .duplicate name => "function " ++ Text.quoted name ++ " registered twice"
  | .severalRests name =>
    "multiple \"*\" argument types not allowed in " ++ Text.quoted name

/-- A registry with one more function, and its entry. -/
def register (registry : Registry φ) (name : String) (parameters : List String) (body : φ) :
    Except Fault (Entry φ × Registry φ) :=
  if (registry.find? name).isSome then .error (.duplicate name)
  else
    match Arity.ofParameters? parameters with
    | none => .error (.severalRests name)
    | some arity =>
      let entry : Entry φ := ⟨name, parameters, arity, body⟩
      .ok (entry, ⟨registry.entries ++ [entry]⟩)

/-- Tries to register a function. The registry stays as it is if that fails. -/
def attempt (registry : Registry φ) (registration : Registration φ) :
    Except Fault (Entry φ) × Registry φ :=
  match registry.register registration.name registration.parameters registration.body with
  | .ok (entry, extended) => (.ok entry, extended)
  | .error fault => (.error fault, registry)

/-- The registry after attempts to register functions, one after the other. -/
def afterAll (registry : Registry φ) (registrations : List (Registration φ)) : Registry φ :=
  registrations.foldl (fun registry registration => (registry.attempt registration).2) registry

/-- The entry that a call with `count` arguments refers to. -/
def resolve (registry : Registry φ) (location : Location) (name : String) (count : Nat) :
    Except Diagnostic (Entry φ) :=
  match registry.find? name with
  | none => .error ⟨.functionNotFound, location⟩
  | some entry =>
    if count < entry.arity.required then
      .error ⟨.missingArguments entry.arity.required, location⟩
    else if entry.arity.required < count && !entry.arity.rest then
      .error ⟨.tooManyArguments entry.arity.required, location⟩
    else .ok entry

/-- A call resolves to the entry of its name if that entry admits its number of arguments. -/
theorem resolve_eq_ok_iff {registry : Registry φ} {location : Location} {name : String}
    {count : Nat} {entry : Entry φ} :
    registry.resolve location name count = .ok entry ↔
      registry.find? name = some entry ∧ entry.arity.admits count := by
  unfold resolve
  cases registry.find? name with
  | none => simp
  | some found =>
    simp only [Option.some.injEq, Arity.admits, Bool.or_eq_true, Bool.and_eq_true,
      decide_eq_true_eq]
    split
    · next hlt =>
      refine ⟨nofun, ?_⟩
      rintro ⟨rfl, heq | ⟨hgt, -⟩⟩ <;> omega
    · next hge =>
      split
      · next hmany =>
        simp only [Bool.not_eq_true'] at hmany
        refine ⟨nofun, ?_⟩
        rintro ⟨rfl, heq | ⟨-, hrest⟩⟩
        · omega
        · exact absurd hmany.2 (by simp [hrest])
      · next hfew =>
        simp only [Bool.not_eq_true', not_and, Bool.not_eq_false] at hfew
        refine ⟨fun h => ?_, fun h => by rw [h.1]⟩
        obtain rfl := Except.ok.inj h
        refine ⟨rfl, ?_⟩
        rcases Nat.lt_or_ge found.arity.required count with hgt | hle
        · exact .inr ⟨hgt, hfew hgt⟩
        · exact .inl (by omega)

/-- An entry in a list of functions; blanks at the end of the line are removed. -/
def lineOfEntry (entry : Entry φ) : String :=
  String.ofList (Text.trimmedEnd ("    " ++ entry.name ++ " " ++ entry.usage).toList)

/-- A list of all functions, one a line, under a title. -/
def listing (registry : Registry φ) : String :=
  "\n".intercalate ("Registered functions:" :: registry.entries.map lineOfEntry)

end Registry

end ActivityScript.Script
