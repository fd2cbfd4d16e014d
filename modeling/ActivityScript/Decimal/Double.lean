/-!
# Binary floating-point numbers

Numbers with 53 significant bits. Each fraction has a nearest one among them, the even one of two
that are equally near; fractions that are too large have none. Everything is computed with natural
numbers.
-/

namespace ActivityScript.Decimal

/-- A number of the form `mantissa * 2 ^ exponent` with at most 53 bits, or one of the values that
stand outside of them. -/
inductive Double where
  | finite (negative : Bool) (mantissa : Nat) (exponent : Int)
  | infinite (negative : Bool)
  | nan
  deriving DecidableEq, Repr

namespace Double

/-- The least exponent. -/
def minExponent : Int := -1074

/-- The greatest exponent. -/
def maxExponent : Int := 971

/-- The least mantissa with 53 bits, `2 ^ 52`. -/
def leastNormal : Nat := 4503599627370496

/-- Numerator and denominator of `num / den / 2 ^ exponent`. -/
def scaled (num den : Nat) (exponent : Int) : Nat × Nat :=
  if 0 ≤ exponent then (num, den * Nat.pow 2 exponent.toNat)
  else (num * Nat.pow 2 (-exponent).toNat, den)

/-- The natural number nearest to a quotient, the even one of two that are equally near. -/
def roundedQuotient (num den : Nat) : Nat :=
  let quotient := num / den
  let rest := num % den
  if 2 * rest < den then quotient
  else if den < 2 * rest then quotient + 1
  else quotient + quotient % 2

/-- The exponent of the greatest power of two that does not exceed a positive quotient. -/
def floorLog2 (num den : Nat) : Int :=
  let guess : Int := (num.log2 : Int) - den.log2
  let (n, d) := scaled num den guess
  if d ≤ n then guess else guess - 1

/-- The number nearest to a quotient. -/
def nearest (negative : Bool) (num den : Nat) : Double :=
  if num = 0 then .finite negative 0 minExponent
  else
    let exponent := max (floorLog2 num den - 52) minExponent
    let (n, d) := scaled num den exponent
    let rounded := roundedQuotient n d
    let (mantissa, exponent) :=
      if rounded = 2 * leastNormal then (leastNormal, exponent + 1) else (rounded, exponent)
    if maxExponent < exponent then .infinite negative
    else .finite negative mantissa exponent

/-- The number nearest to `digits * 10 ^ exponent`. Exponents far out of range are not computed. -/
def ofDecimal (negative : Bool) (digits : Nat) (exponent : Int) : Double :=
  let magnitude : Int := (Nat.toDigits 10 digits).length + exponent
  if digits = 0 ∨ magnitude < -400 then .finite negative 0 minExponent
  else if 400 < magnitude then .infinite negative
  else if 0 ≤ exponent then nearest negative (digits * Nat.pow 10 exponent.toNat) 1
  else nearest negative digits (Nat.pow 10 (-exponent).toNat)

/-- The size of a finite number as a quotient. -/
def fraction (mantissa : Nat) (exponent : Int) : Nat × Nat :=
  if 0 ≤ exponent then (mantissa * Nat.pow 2 exponent.toNat, 1)
  else (mantissa, Nat.pow 2 (-exponent).toNat)

/-- The numerator of a fraction with its sign. -/
def signed (negative : Bool) (num : Nat) : Int := if negative then -(num : Int) else num

/-- The sum of two numbers. A sum of zero is negative only if both numbers are. -/
def add : Double → Double → Double
  | .finite s m e, .finite s' m' e' =>
    let (n, d) := fraction m e
    let (n', d') := fraction m' e'
    let total := signed s (n * d') + signed s' (n' * d)
    if total = 0 then .finite (s && s') 0 minExponent
    else nearest (total < 0) total.natAbs (d * d')
  | .nan, _ | _, .nan => .nan
  | .infinite s, .infinite s' => if s = s' then .infinite s else .nan
  | .infinite s, .finite .. | .finite .., .infinite s => .infinite s

/-- The product of two numbers. -/
def mul : Double → Double → Double
  | .finite s m e, .finite s' m' e' =>
    let (n, d) := fraction m e
    let (n', d') := fraction m' e'
    nearest (s != s') (n * n') (d * d')
  | .nan, _ | _, .nan => .nan
  | .infinite s, .infinite s' => .infinite (s != s')
  | .infinite s, .finite s' m _ | .finite s m _, .infinite s' =>
    if m = 0 then .nan else .infinite (s != s')

/-- A number with the opposite sign. -/
def neg : Double → Double
  | .finite negative mantissa exponent => .finite (!negative) mantissa exponent
  | .infinite negative => .infinite (!negative)
  | .nan => .nan

/-- The integer that a number equals, if it does. -/
def toInt? : Double → Option Int
  | .finite negative mantissa exponent =>
    let (n, d) := fraction mantissa exponent
    if n % d = 0 then some (signed negative (n / d)) else none
  | _ => none

end Double

end ActivityScript.Decimal
