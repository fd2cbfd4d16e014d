import ActivityScript.Settings.Value

/-!
# The order of keys

Numbers are ordered by size, whatever their kind, texts by their characters, bytes by their values,
and days and times by when they are. Keys that are not of one such family have no order, nor have
times of which only some are known in universal time.
-/

namespace ActivityScript.Settings

/-- The size of a number. -/
inductive Size where
  | finite (num : Int) (den : Nat)
  | infinite (negative : Bool)
  /-- The size of what is no number. -/
  | undefined
  deriving DecidableEq, Repr

/-- The order of sizes; nothing is less or greater than what is no number. -/
def Size.less : Size → Size → Bool
  | .undefined, _ | _, .undefined => false
  | .infinite a, .infinite b => a && !b
  | .infinite a, .finite .. => a
  | .finite .., .infinite b => !b
  | .finite n d, .finite n' d' => n * d' < n' * d

/-- The size of a value that is a number. -/
def Value.size? : Value → Option Size
  | .truth value => some (.finite (if value then 1 else 0) 1)
  | .integer value => some (.finite value 1)
  | .real .nan => some .undefined
  | .real (.infinite negative) => some (.infinite negative)
  | .real (.finite negative mantissa exponent) =>
    let (num, den) := Decimal.Double.fraction mantissa exponent
    some (.finite (Decimal.Double.signed negative num) den)
  | _ => none

/-- The kind of a value, as it is named in faults. -/
def kindName : Value → String
  | .null => "NoneType"
  | .truth _ => "bool"
  | .integer _ => "int"
  | .real _ => "float"
  | .text _ => "str"
  | .bytes _ => "bytes"
  | .date _ => "datetime.date"
  | .moment _ => "datetime.datetime"
  | .list _ => "list"
  | .mapping _ => "dict"
  | .set _ => "set"
  | .pair _ _ => "tuple"
  | .enclosing isList => if isList then "list" else "dict"

/-- Why two keys have no order. -/
inductive KeyClash where
  | kinds (left right : String)
  /-- A day and a time. -/
  | dayAndTime
  /-- Times of which only one is known in universal time. -/
  | zones
  deriving DecidableEq, Repr

/-- A clash in words. -/
def KeyClash.text : KeyClash → String
  | .kinds left right =>
    "'<' not supported between instances of " ++ Text.quoted left ++ " and "
      ++ Text.quoted right
  | .dayAndTime => "can't compare datetime.datetime to datetime.date"
  | .zones => "can't compare offset-naive and offset-aware datetimes"

/-- Whether a key comes before another. -/
def comesBefore (a b : Value) : Except KeyClash Bool :=
  match a, b with
  | .text s, .text t => .ok (s < t)
  | .bytes s, .bytes t => .ok (s < t)
  | .date x, .date y => .ok (x.ordinal < y.ordinal)
  | .moment x, .moment y =>
    if x.isZoned = y.isZoned then .ok (x.instant < y.instant) else .error .zones
  | .date _, .moment _ | .moment _, .date _ => .error .dayAndTime
  | a, b =>
    match a.size?, b.size? with
    | some x, some y => .ok (x.less y)
    | _, _ => .error (.kinds (kindName a) (kindName b))

/-- The first clash between neighbours. -/
def clash? : List Value → Option KeyClash
  | a :: b :: rest =>
    match comesBefore b a with
    | .error clash => some clash
    | .ok _ => clash? (b :: rest)
  | _ => none

/-- Keys in order. If neighbours do not clash, no two keys do. -/
def sortedKeys (keys : List Value) : Except KeyClash (List Value) :=
  match clash? keys with
  | some clash => .error clash
  | none => .ok (keys.mergeSort fun a b => !((comesBefore b a).toOption.getD false))

end ActivityScript.Settings
