import ActivityScript.Decimal.Double
import ActivityScript.Text.Number

/-!
# Reading numbers with a point

Such a number has digits, a point, digits and an exponent, all of them optional but for one digit,
or it is a word for what is infinite or no number. It may have a sign and blanks around it. The
digits may be those of any script.
-/

namespace ActivityScript.Decimal

/-- Whether a character is a decimal digit. -/
def isDecimal (c : Char) : Bool := (Text.digitValue? c).isSome

/-- The exponent that the end of a number writes. -/
def exponent? : List Char → Option Int
  | [] => some 0
  | e :: cs => do
    if e ≠ 'e' ∧ e ≠ 'E' then none
    let size ← Text.decimal? (Text.unsigned cs)
    return Double.signed (Text.isNegative cs) size

/-- The number that digits with a point and an exponent write. -/
def unsignedReal? (text : List Char) : Option Double := do
  let whole := text.takeWhile isDecimal
  let rest := text.dropWhile isDecimal
  let (fraction, rest) :=
    match rest with
    | '.' :: cs => (cs.takeWhile isDecimal, cs.dropWhile isDecimal)
    | _ => ([], rest)
  let digits ← Text.decimal? (whole ++ fraction)
  let exponent ← exponent? rest
  return .ofDecimal false digits (exponent - fraction.length)

/-- The number that a text writes. -/
def real? (text : List Char) : Option Double :=
  let trimmed := Text.withoutNumberBlanks text
  let body := Text.unsigned trimmed
  let word := String.ofList (body.map Char.toLower)
  let size? :=
    if word = "inf" ∨ word = "infinity" then some (.infinite false)
    else if word = "nan" then some .nan
    else unsignedReal? body
  size?.map fun size => if Text.isNegative trimmed then size.neg else size

end ActivityScript.Decimal
