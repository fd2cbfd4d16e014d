/-!
# Association lists

Lists of keys with their values, as scopes and file systems keep them. The value of a key is what
`List.lookup` finds. A key that is given a value keeps its place in the list, and a new key comes
last.
-/

namespace ActivityScript.Association

variable {κ α : Type} [DecidableEq κ]

/-- Entries in which `key` has a value: a key that was there keeps its place, a new one comes
last. -/
def put (key : κ) (value : α) : List (κ × α) → List (κ × α)
  | [] => [(key, value)]
  | (other, old) :: rest =>
    if other = key then (other, value) :: rest else (other, old) :: put key value rest

end ActivityScript.Association
