import ActivityScript.Text.Blank
import ActivityScript.Text.Digit
import ActivityScript.Text.Quoted

/-!
# Reading numbers

A decimal number is a non-empty run of decimal digits, of any script and mixed freely. Very long
runs are refused, whatever follows them. An integer has a base and may have a sign, the mark of its
base, and blanks around it.
-/

namespace ActivityScript.Text

/-- Why a text is no number. -/
inductive NumberFault where
  /-- The text does not write a number in this base. -/
  | unreadable (base : Nat) (text : List Char)
  /-- The text begins with more digits than are accepted. -/
  | tooManyDigits (count : Nat)
  deriving DecidableEq, Repr

/-- The most digits a number may have. -/
def maxDigits : Nat := 4300

/-- A fault in words; at most 200 characters of the quoted text are shown. -/
def NumberFault.text : NumberFault → String
  | .unreadable base text =>
    "invalid literal for int() with base " ++ toString base ++ ": "
      ++ String.ofList ((quotedChars text).take 200)
  | .tooManyDigits count =>
    "Exceeds the limit (" ++ toString maxDigits ++ " digits) for integer string conversion: "
      ++ "value has " ++ toString count
      ++ " digits; use sys.set_int_max_str_digits() to increase the limit"

/-- The fault of an integer with more digits than are written. -/
def tooLongToWrite : String :=
  "Exceeds the limit (" ++ toString maxDigits ++ " digits) for integer string conversion; "
    ++ "use sys.set_int_max_str_digits() to increase the limit"

/-- The number that a text writes in decimal digits. -/
def readNumber (text : List Char) : Except NumberFault Nat :=
  let digits := text.takeWhile fun c => (digitValue? c).isSome
  if maxDigits < digits.length then .error (.tooManyDigits digits.length)
  else
    match decimal? text with
    | some n => .ok n
    | none => .error (.unreadable 10 text)

/-- The value of a digit in bases up to sixteen. -/
def digitIn? (base : Nat) (c : Char) : Option Nat :=
  let value? :=
    match digitValue? c with
    | some value => some value
    | none =>
      if 'a' ≤ c ∧ c ≤ 'f' then some (c.toNat - 87)
      else if 'A' ≤ c ∧ c ≤ 'F' then some (c.toNat - 55)
      else none
  value?.filter (· < base)

/-- The letter in the mark of a base, which comes after a zero. -/
def baseLetter? (base : Nat) : Option Char :=
  [(2, 'b'), (8, 'o'), (16, 'x')].lookup base

/-- A text without the mark of a base at its beginning. -/
def withoutBaseMark (base : Nat) : List Char → List Char
  | '0' :: c :: cs => if some c.toLower = baseLetter? base then cs else '0' :: c :: cs
  | cs => cs

/-- A text without a sign at its beginning. -/
def unsigned : List Char → List Char
  | '+' :: cs => cs
  | '-' :: cs => cs
  | cs => cs

/-- Whether a text has a minus sign. -/
def isNegative (text : List Char) : Bool := text.head? = some '-'

/-- The integer that a text writes in a base. Only the number of decimal digits is limited. -/
def readInteger (base : Nat) (text : List Char) : Except NumberFault Int :=
  let trimmed := withoutNumberBlanks text
  let digits := withoutBaseMark base (unsigned trimmed)
  let values := digits.map (digitIn? base)
  let count := (values.takeWhile Option.isSome).length
  if base = 10 ∧ maxDigits < count then .error (.tooManyDigits count)
  else if digits = [] ∨ count < digits.length then .error (.unreadable base text)
  else
    let size := values.foldl (fun n digit? => base * n + digit?.getD 0) 0
    .ok (if isNegative trimmed then -(size : Int) else size)

end ActivityScript.Text
