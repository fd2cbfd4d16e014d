import ActivityScript.Decimal.Reading
import ActivityScript.Settings.Value
import ActivityScript.Text.Base64
import ActivityScript.Yaml.Fault
import ActivityScript.Yaml.Kind

/-!
# Values of scalars

What the text of a scalar stands for, as its kind says. A tag can give a scalar a kind that its text
does not have; then there is a fault, unless the text happens to be read all the same.
-/

namespace ActivityScript.Yaml

open Settings (Value)

/-- A text without underscores. -/
def withoutUnderscores (text : List Char) : List Char := text.filter (· ≠ '_')

/-- The integer that a text writes in a base. -/
def integerIn (base : Nat) (text : List Char) : Except Fault Int :=
  (Text.readInteger base text).mapError .number

/-- The integer that parts in base sixty write after `total`. -/
def sexagesimal (total : Int) : List (List Char) → Except Fault Int
  | [] => .ok total
  | part :: parts => do sexagesimal (60 * total + (← integerIn 10 part)) parts

/-- A whole number. -/
def integerValue (text : String) : Except Fault Value := do
  let chars := withoutUnderscores text.toList
  let body := Text.unsigned chars
  let size ←
    match body with
    | [] => throw .emptyNumber
    | ['0'] => pure 0
    | '0' :: 'b' :: digits => integerIn 2 digits
    | '0' :: 'x' :: digits => integerIn 16 digits
    | '0' :: _ => integerIn 8 body
    | _ =>
      if body.contains ':' then sexagesimal 0 (Text.pieces ':' body) else integerIn 10 body
  return .integer (if Text.isNegative chars then -size else size)

/-- The number with a point that a text writes. -/
def realOf (text : List Char) : Except Fault Decimal.Double :=
  match Decimal.real? text with
  | some size => .ok size
  | none => .error (.real (String.ofList text))

/-- The sum of parts in base sixty, of which the last comes first, with `total`; the first of them
counts `weight`. -/
def sexagesimalReal (weight : Nat) (total : Decimal.Double) :
    List Decimal.Double → Except Fault Decimal.Double
  | [] => .ok total
  | part :: parts =>
    match Decimal.Double.nearest false weight 1 with
    | .infinite _ => .error .realOverflow
    | factor => sexagesimalReal (60 * weight) (total.add (part.mul factor)) parts

/-- A number with a point. -/
def realValue (text : String) : Except Fault Value := do
  let chars := (withoutUnderscores text.toList).map Char.toLower
  let body := Text.unsigned chars
  let word := String.ofList body
  if chars = [] then throw .emptyNumber
  let size ←
    if word = ".inf" then pure (.infinite false)
    else if word = ".nan" then pure .nan
    else if body.contains ':' then do
      let parts ← (Text.pieces ':' body).mapM realOf
      sexagesimalReal 1 (.nearest false 0 1) parts.reverse
    else realOf body
  return .real (if Text.isNegative chars then size.neg else size)

/-- A truth value. -/
def truthValue (text : String) : Except Fault Value :=
  let word := String.ofList (text.toList.map Char.toLower)
  if ["yes", "true", "on"].contains word then .ok (.truth true)
  else if ["no", "false", "off"].contains word then .ok (.truth false)
  else .error (.truth word)

/-- Bytes, which are written with ASCII characters. -/
def binaryValue (text : String) : Except Fault Value :=
  let chars := text.toList
  if chars.any fun c => 0x80 ≤ c.toNat then .error .malformed
  else
    match Text.Base64.decode? chars with
    | some bytes => .ok (.bytes bytes)
    | none => .error .malformed

/-- A date or time. One line break at the end makes no difference. -/
def timestampValue (text : String) : Except Fault Value :=
  match stamp? (Text.dropFinal '\n' text.toList) with
  | none => .error .timestamp
  | some ⟨year, month, day, none⟩ =>
    ((Settings.Date.of year month day).map .date).mapError .calendar
  | some ⟨year, month, day, some (hour, minute, second, micros, offset)⟩ =>
    ((Settings.Moment.of year month day hour minute second micros offset).map .moment).mapError
      .calendar

/-- The value of a text of a kind. The other kinds are not read from texts. -/
def valueOfKind (text : String) : Kind → Except Fault Value
  | .null => .ok .null
  | .truth => truthValue text
  | .integer => integerValue text
  | .real => realValue text
  | .binary => binaryValue text
  | .timestamp => timestampValue text
  | .text => .ok (.text text)
  | _ => .error .malformed

end ActivityScript.Yaml
