import ActivityScript.Decimal.Double

/-!
# The shortest decimal of a number

A number is written with the fewest digits that read back as the same number, and of those with the
digits nearest to it. All decimals strictly between the midpoints to its two neighbours read back as
the number; the midpoints themselves do if its mantissa is even. For each count of digits it is
enough to look at the two decimals around the number.
-/

namespace ActivityScript.Decimal

/-- The numeral `digits * 10 ^ exponent`. -/
structure Numeral where
  digits : Nat
  exponent : Int
  deriving DecidableEq, Repr

/-- A numeral as a quotient. -/
def Numeral.fraction (numeral : Numeral) : Nat × Nat :=
  if 0 ≤ numeral.exponent then (numeral.digits * Nat.pow 10 numeral.exponent.toNat, 1)
  else (numeral.digits, Nat.pow 10 (-numeral.exponent).toNat)

/-- Whether a numeral reads back as `mantissa * 2 ^ exponent`. -/
def readsBack (mantissa : Nat) (exponent : Int) (numeral : Numeral) : Bool :=
  let (n, d) := numeral.fraction
  let lower :=
    if mantissa = Double.leastNormal ∧ Double.minExponent < exponent then 4 * mantissa - 1
    else 4 * mantissa - 2
  let (ln, ld) := Double.fraction lower (exponent - 2)
  let (un, ud) := Double.fraction (4 * mantissa + 2) (exponent - 2)
  if mantissa % 2 = 0 then ln * d ≤ n * ld ∧ n * ud ≤ un * d
  else ln * d < n * ld ∧ n * ud < un * d

/-- The exponent of the first digit of a positive quotient, looked for among small ones. -/
def leadingExponent (num den : Nat) : Int :=
  if den ≤ num then ((Nat.toDigits 10 (num / den)).length : Int) - 1
  else
    match (List.range 400).find? fun k => den ≤ num * Nat.pow 10 k with
    | some k => -(k : Int)
    | none => -400

/-- The best numeral with its last digit at `place`, if one of them reads back. -/
def bestAt (mantissa : Nat) (exponent : Int) (place : Int) : Option Numeral :=
  let (n, d) := Double.fraction mantissa exponent
  let (gn, gd) := Numeral.fraction ⟨1, place⟩
  let below := n * gd / (d * gn)
  let rest := n * gd % (d * gn)
  let low : Numeral := ⟨below, place⟩
  let high : Numeral := ⟨below + 1, place⟩
  let nearLow := 2 * rest < d * gn ∨ (2 * rest = d * gn ∧ below % 2 = 0)
  match readsBack mantissa exponent low, readsBack mantissa exponent high with
  | true, true => some (if nearLow then low else high)
  | true, false => some low
  | false, true => some high
  | false, false => none

/-- The shortest numeral of a positive number. Seventeen digits are always enough. -/
def shortest (mantissa : Nat) (exponent : Int) : Numeral :=
  let (n, d) := Double.fraction mantissa exponent
  let lead := leadingExponent n d
  match (List.range 17).findSome? fun (k : Nat) => bestAt mantissa exponent (lead - k) with
  | some numeral => numeral
  | none => ⟨0, 0⟩

/-- Digits without the zeros at their end. -/
def trimZeros (digits : List Char) : List Char :=
  (digits.reverse.dropWhile (· = '0')).reverse

/-- Digits of which the first stands at `lead`, with a point and at least one digit after it.
Exponents from -4 to 15 are written positionally, others after an `e` with a sign and at least two
digits. -/
def layOut (digits : List Char) (lead : Int) : List Char :=
  let zeros (n : Nat) := List.replicate n '0'
  if -4 ≤ lead ∧ lead < 0 then '0' :: '.' :: zeros (-lead - 1).toNat ++ digits
  else if 0 ≤ lead ∧ lead < 16 then
    let whole := lead.toNat + 1
    let front := digits.take whole
    let back := digits.drop whole
    front ++ zeros (whole - front.length) ++ '.' :: (if back = [] then ['0'] else back)
  else
    let sign := if lead < 0 then '-' else '+'
    let power := Nat.toDigits 10 lead.natAbs
    let point := if digits.tail = [] then [] else '.' :: digits.tail
    digits.take 1 ++ point ++ 'e' :: sign :: zeros (2 - power.length) ++ power

/-- A number as a text. -/
def Double.text : Double → String
  | .nan => "nan"
  | .infinite negative => if negative then "-inf" else "inf"
  | .finite negative mantissa exponent =>
    let sign := if negative then "-" else ""
    if mantissa = 0 then sign ++ "0.0"
    else
      let numeral := shortest mantissa exponent
      let digits := Nat.toDigits 10 numeral.digits
      let lead := numeral.exponent + digits.length - 1
      sign ++ String.ofList (layOut (trimZeros digits) lead)

end ActivityScript.Decimal
