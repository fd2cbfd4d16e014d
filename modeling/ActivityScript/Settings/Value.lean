import ActivityScript.Decimal.Shortest
import ActivityScript.Settings.Calendar
import ActivityScript.Text.Number
import ActivityScript.Text.Quoted

/-!
# Values

What a settings file can hold. A value becomes a text in one of two ways: on its own, where a text
stands for itself, or quoted, as it stands inside lists and mappings. A list or mapping that comes
up again inside of itself is only hinted at. Very long integers cannot be written at all.
-/

namespace ActivityScript.Settings

/-- A value. -/
inductive Value where
  | null
  | truth (value : Bool)
  | integer (value : Int)
  | real (value : Decimal.Double)
  | text (value : String)
  | bytes (value : List UInt8)
  | date (value : Date)
  | moment (value : Moment)
  | list (items : List Value)
  | mapping (pairs : List (Value × Value))
  | set (items : List Value)
  | pair (first second : Value)
  /-- A list or mapping that this value is inside of. -/
  | enclosing (isList : Bool)

namespace Value

mutual

/-- A value as it stands inside of others. -/
def quoted : Value → String
  | .null => "None"
  | .truth value => if value then "True" else "False"
  | .integer value => toString value
  | .real value => value.text
  | .text value => Text.quoted value
  | .bytes value => Text.quotedBytes value
  | .date value => value.quoted
  | .moment value => value.quoted
  | .list items => "[" ++ ", ".intercalate (quotedItems items) ++ "]"
  | .mapping pairs => "\x7b" ++ ", ".intercalate (quotedPairs pairs) ++ "\x7d"
  | .set [] => "set()"
  | .set (item :: items) =>
    "\x7b" ++ ", ".intercalate (item.quoted :: quotedItems items) ++ "\x7d"
  | .pair first second => "(" ++ first.quoted ++ ", " ++ second.quoted ++ ")"
  | .enclosing isList => if isList then "[...]" else "\x7b...\x7d"

/-- Values as they stand inside of others. -/
def quotedItems : List Value → List String
  | [] => []
  | item :: items => item.quoted :: quotedItems items

/-- Keys with their values. -/
def quotedPairs : List (Value × Value) → List String
  | [] => []
  | (key, value) :: pairs => (key.quoted ++ ": " ++ value.quoted) :: quotedPairs pairs

end

mutual

/-- Whether a value has a text: no integer in it has too many digits. -/
def isWritable : Value → Bool
  | .integer value => value.natAbs < Nat.pow 10 Text.maxDigits
  | .list items => areWritable items
  | .mapping pairs => arePairsWritable pairs
  | .set items => areWritable items
  | .pair first second => first.isWritable && second.isWritable
  | _ => true

/-- Whether all values have texts. -/
def areWritable : List Value → Bool
  | [] => true
  | item :: items => item.isWritable && areWritable items

/-- Whether all keys and values have texts. -/
def arePairsWritable : List (Value × Value) → Bool
  | [] => true
  | (key, value) :: pairs => key.isWritable && value.isWritable && arePairsWritable pairs

end

/-- A value as a text of its own. -/
def asText : Value → String
  | .text value => value
  | .date value => value.text
  | .moment value => value.text
  | value => value.quoted

/-- The number that a value equals: truth values are one and zero. -/
def asInteger? : Value → Option Int
  | .truth value => some (if value then 1 else 0)
  | .integer value => some value
  | .real value => value.toInt?
  | _ => none

/-- Whether two values are the same key. -/
def sameKey (a b : Value) : Bool :=
  match a.asInteger?, b.asInteger? with
  | some m, some n => m = n
  | some _, none | none, some _ => false
  | none, none =>
    match a, b with
    | .null, .null => true
    | .real x, .real y => x = y
    | .text s, .text t => s = t
    | .bytes s, .bytes t => s = t
    | .date x, .date y => x = y
    | .moment x, .moment y => x.isZoned = y.isZoned && x.instant = y.instant
    | _, _ => false

/-- Pairs in which `key` has a value: a known key keeps its place, a new one comes last. -/
def insertPair {α : Type} (key : Value) (value : α) : List (Value × α) → List (Value × α)
  | [] => [(key, value)]
  | (k, old) :: rest =>
    if k.sameKey key then (k, value) :: rest else (k, old) :: insertPair key value rest

/-- Pairs in which every key stands once, with its last value. -/
def collapsed {α : Type} (pairs : List (Value × α)) : List (Value × α) :=
  pairs.foldl (fun found pair => insertPair pair.1 pair.2 found) []

end Value

end ActivityScript.Settings
