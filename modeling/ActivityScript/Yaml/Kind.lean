import ActivityScript.Text.Lines
import ActivityScript.Text.Number
import ActivityScript.Yaml.Character

/-!
# Kinds of nodes

What a plain scalar is can be seen from how it is written: a truth value, a whole number in base
two, eight, ten, sixteen or sixty, a number with a point, a date, a time, or nothing at all.
Underscores may part the digits of numbers. Everything else is a text. A tag names the kind of a
node outright, whatever the node looks like.
-/

namespace ActivityScript.Yaml

/-- The kinds of nodes. -/
inductive Kind where
  | null
  | truth
  | integer
  | real
  | binary
  | timestamp
  | text
  | sequence
  | mapping
  | set
  /-- A sequence of single pairs. -/
  | pairs
  /-- The key that merges another mapping. -/
  | merge
  /-- The key of a default value. -/
  | default
  /-- A kind that is not known. -/
  | unknown
  deriving DecidableEq, Repr

/-- The words for true. -/
def trueWords : List String := ["yes", "Yes", "YES", "true", "True", "TRUE", "on", "On", "ON"]

/-- The words for false. -/
def falseWords : List String := ["no", "No", "NO", "false", "False", "FALSE", "off", "Off", "OFF"]

/-- The words for nothing. -/
def nullWords : List String := ["", "~", "null", "Null", "NULL"]

/-- Whether a character is an underscore or one of which `digit` holds. -/
def orUnderscore (digit : Char → Bool) (c : Char) : Bool := c = '_' || digit c

/-- Whether a text has a first character of which `first` holds and goes on with ones of which
`next` holds. -/
def shaped (first next : Char → Bool) : List Char → Bool
  | [] => false
  | c :: cs => first c && cs.all next

/-- Whether a character is a digit other than zero. -/
def isLeadingDigit (c : Char) : Bool := c.isDigit && c ≠ '0'

/-- Whether a text is a number below sixty in one or two digits. -/
def isSixtieth : List Char → Bool
  | [a] => a.isDigit
  | [a, b] => '0' ≤ a && a ≤ '5' && b.isDigit
  | _ => false

/-- Whether a text is a number in base sixty whose first part begins as `first` says. -/
def isSexagesimal (first : Char → Bool) (text : List Char) : Bool :=
  match Text.pieces ':' text with
  | lead :: part :: parts =>
    shaped first (orUnderscore Char.isDigit) lead && (part :: parts).all isSixtieth
  | _ => false

/-- Whether a text is a whole number without a sign. -/
def isUnsignedInteger (text : List Char) : Bool :=
  match text with
  | ['0'] => true
  | '0' :: 'b' :: cs => cs ≠ [] && cs.all (orUnderscore fun c => c = '0' || c = '1')
  | '0' :: 'x' :: cs => cs ≠ [] && cs.all (orUnderscore fun c => (Text.hexValue? c).isSome)
  | '0' :: cs => cs.all (orUnderscore fun c => '0' ≤ c && c ≤ '7')
  | _ =>
    shaped isLeadingDigit (orUnderscore Char.isDigit) text || isSexagesimal isLeadingDigit text

/-- Whether a text is empty or an exponent with a sign. -/
def isExponent : List Char → Bool
  | [] => true
  | e :: s :: ds =>
    (e = 'e' || e = 'E') && (s = '+' || s = '-') && ds ≠ [] && ds.all Char.isDigit
  | _ => false

/-- Whether a text has digits, from the first on if `strict`, and then perhaps an exponent. -/
def isFraction (strict : Bool) (text : List Char) : Bool :=
  let digits := text.takeWhile (orUnderscore Char.isDigit)
  (!strict || digits.head?.any Char.isDigit)
    && isExponent (text.dropWhile (orUnderscore Char.isDigit))

/-- Whether a text is a number with a point. -/
def isReal (text : List Char) : Bool :=
  let body := Text.unsigned text
  let whole := body.takeWhile (· ≠ '.')
  match body.dropWhile (· ≠ '.') with
  | '.' :: after =>
    let word := String.ofList after
    if whole = [] then
      (body = text && isFraction true after)
        || word = "inf" || word = "Inf" || word = "INF"
        || (body = text && (word = "nan" || word = "NaN" || word = "NAN"))
    else
      (shaped Char.isDigit (orUnderscore Char.isDigit) whole && isFraction false after)
        || (isSexagesimal Char.isDigit whole && after.all (orUnderscore Char.isDigit))
  | _ => false

/-- The number that `least` to `most` digits write at the beginning of a text, and the text after
them. -/
def takeDigits (least most : Nat) (text : List Char) : Option (Nat × List Char) :=
  let digits := (text.take most).takeWhile Char.isDigit
  if digits.length < least then none
  else some (digitsValue digits, text.drop digits.length)

/-- A text without a character at its beginning. -/
def skipChar (c : Char) : List Char → Option (List Char)
  | [] => none
  | d :: ds => if d = c then some ds else none

/-- The parts of a date or time, as they are written. -/
structure Stamp where
  year : Nat
  month : Nat
  day : Nat
  /-- Hour, minute, second, microseconds and distance from universal time in minutes. -/
  time? : Option (Nat × Nat × Nat × Nat × Option Int)
  deriving DecidableEq, Repr

/-- The microseconds that the digits of a fraction write. -/
def microsOf (digits : List Char) : Nat :=
  let six := digits.take 6
  digitsValue (six ++ List.replicate (6 - six.length) '0')

/-- A distance from universal time at the end of a text. -/
def zone? (text : List Char) : Option (Option Int) :=
  match text.dropWhile fun c => c = ' ' || c = '\t' with
  | [] => if text = [] then some none else none
  | ['Z'] => some (some 0)
  | sign :: rest => do
    if sign ≠ '+' ∧ sign ≠ '-' then none
    let (hours, rest) ← takeDigits 1 2 rest
    let minutes ←
      match rest with
      | [] => some 0
      | ':' :: rest => do
        let (minutes, rest) ← takeDigits 2 2 rest
        if rest = [] then some minutes else none
      | _ => none
    let total : Int := 60 * hours + minutes
    some (some (if sign = '-' then -total else total))

/-- A time of a day after its date. -/
def time? (text : List Char) : Option (Nat × Nat × Nat × Nat × Option Int) := do
  let rest ←
    match text with
    | 'T' :: cs | 't' :: cs => some cs
    | _ =>
      let rest := text.dropWhile fun c => c = ' ' || c = '\t'
      if rest.length < text.length then some rest else none
  let (hour, rest) ← takeDigits 1 2 rest
  let (minute, rest) ← takeDigits 2 2 (← skipChar ':' rest)
  let (second, rest) ← takeDigits 2 2 (← skipChar ':' rest)
  let (micros, rest) :=
    match rest with
    | '.' :: cs => (microsOf (cs.takeWhile Char.isDigit), cs.dropWhile Char.isDigit)
    | _ => (0, rest)
  let offset ← zone? rest
  some (hour, minute, second, micros, offset)

/-- The date or time that a text writes. -/
def stamp? (text : List Char) : Option Stamp := do
  let (year, rest) ← takeDigits 4 4 text
  let (month, rest) ← takeDigits 1 2 (← skipChar '-' rest)
  let (day, rest) ← takeDigits 1 2 (← skipChar '-' rest)
  if rest = [] then some ⟨year, month, day, none⟩
  else do
    let time ← time? rest
    some ⟨year, month, day, some time⟩

/-- Whether a text is a date or a time; a date alone has two digits for month and day. -/
def isStamp (text : List Char) : Bool :=
  (stamp? text).any fun stamp => stamp.time?.isSome || text.length = 10

/-- The kind of a plain scalar. One line break at its end makes no difference. -/
def kindOf (text : String) : Kind :=
  let chars := Text.dropFinal '\n' text.toList
  let word := String.ofList chars
  if text = "\n" then .text
  else if nullWords.contains word then .null
  else if trueWords.contains word || falseWords.contains word then .truth
  else if isUnsignedInteger (Text.unsigned chars) then .integer
  else if isReal chars then .real
  else if isStamp chars then .timestamp
  else if word = "<<" then .merge
  else if word = "=" then .default
  else .text

/-- The kinds that have tags. -/
def taggedKinds : List (String × Kind) :=
  [("null", .null), ("bool", .truth), ("int", .integer), ("float", .real), ("binary", .binary),
   ("timestamp", .timestamp), ("str", .text), ("seq", .sequence), ("map", .mapping),
   ("set", .set), ("omap", .pairs), ("pairs", .pairs), ("merge", .merge), ("value", .default)]

/-- The beginning of the tags that are known. -/
def tagLead : String := "tag:yaml.org,2002:"

/-- The kind that a tag names. -/
def kindOfTag (tag : String) : Kind :=
  ((taggedKinds.map fun (name, kind) => (tagLead ++ name, kind)).lookup tag).getD .unknown

/-- The kind of a node with a tag. Without a tag, or with a lone exclamation mark, it is the one
that the node has by itself. -/
def taggedKind (tag : Option String) (own : Kind) : Kind :=
  match tag with
  | none | some "!" => own
  | some tag => kindOfTag tag

/-- The kind of a scalar. A lone exclamation mark asks for the kind of a plain one. -/
def scalarKind (tag : Option String) (text : String) (plain : Bool) : Kind :=
  taggedKind tag (if plain || tag.isSome then kindOf text else .text)

end ActivityScript.Yaml
