import ActivityScript.Text.Digit
import ActivityScript.Text.Lines
import ActivityScript.Text.Quoted

/-!
# Numeric addresses

An address of the fourth version is four decimal numbers divided by points, without leading zeros.
One of the sixth version is eight groups of at most four hexadecimal digits divided by colons; two
colons stand for one or more groups of zeros, once at most, the last two groups may be written as an
address of the fourth version, and a zone may follow after a percent sign.

Each address has one text: groups in lower case without leading zeros, and two colons for the
longest run of two or more groups of zeros, the first of several.
-/

namespace ActivityScript.Address

open Text (asciiDigit? hexValue? readDigits)

/-- A numeric address. -/
inductive Ip where
  | v4 (a b c d : Nat)
  | v6 (groups : List Nat) (zone : Option String)
  deriving DecidableEq, Repr

/-- The number of groups in an address of the sixth version. -/
def groupCount : Nat := 8

/-- A number below 256 in at most three digits, without leading zeros. -/
def octet? (text : List Char) : Option Nat :=
  if text = [] ∨ 3 < text.length then none
  else if text.head? = some '0' ∧ text ≠ ['0'] then none
  else (readDigits 10 asciiDigit? 0 text).filter (· ≤ 255)

/-- An address of the fourth version as its four numbers. -/
def octets? (text : List Char) : Option (Nat × Nat × Nat × Nat) :=
  match (Text.pieces '.' text).mapM octet? with
  | some [a, b, c, d] => some (a, b, c, d)
  | _ => none

/-- A group of one to four hexadecimal digits. -/
def group? (text : List Char) : Option Nat :=
  if text = [] ∨ 4 < text.length then none else readDigits 16 hexValue? 0 text

/-- A group as a text, without leading zeros. -/
def groupText (n : Nat) : List Char := Nat.toDigits 16 n

/-- The parts between colons, with an address of the fourth version at the end as two groups. -/
def expandLast (parts : List (List Char)) : Option (List (List Char)) :=
  match parts.getLast? with
  | none => some parts
  | some last =>
    if last.contains '.' then
      (octets? last).map fun (a, b, c, d) =>
        parts.dropLast ++ [groupText (256 * a + b), groupText (256 * c + d)]
    else some parts

/-- Divides parts at the first empty one that is not the last. -/
def splitGap : List (List Char) → Option (List (List Char) × List (List Char))
  | [] => none
  | part :: parts =>
    if part = [] ∧ parts ≠ [] then some ([], parts)
    else (splitGap parts).map fun (before, after) => (part :: before, after)

/-- The groups on one side of two colons; nothing at all is no group. -/
def sideGroups (parts : List (List Char)) : Option (List Nat) :=
  if parts = [[]] then some [] else parts.mapM group?

/-- The groups that the parts between colons write. -/
def groups? : List (List Char) → Option (List Nat)
  | [] => none
  | first :: rest =>
    match splitGap rest with
    | none => ((first :: rest).mapM group?).filter (·.length = groupCount)
    | some (before, after) => do
      let high ← sideGroups (first :: before)
      let low ← sideGroups after
      let found := high.length + low.length
      if found < groupCount then
        some (high ++ List.replicate (groupCount - found) 0 ++ low)
      else none

/-- An address and the zone after its percent sign; a zone is not empty and has no percent sign. -/
def splitZone (text : List Char) : Option (List Char × Option String) :=
  let address := text.takeWhile (· ≠ '%')
  match text.dropWhile (· ≠ '%') with
  | [] => some (address, none)
  | _ :: zone =>
    if zone = [] ∨ zone.contains '%' then none
    else some (address, some (String.ofList zone))

/-- An address of the sixth version. -/
def v6? (text : List Char) : Option Ip := do
  if text.contains '/' then none
  let (address, zone) ← splitZone text
  let parts ← expandLast (Text.pieces ':' address)
  let groups ← groups? parts
  some (.v6 groups zone)

namespace Ip

/-- The address that a text writes. -/
def read? (text : String) : Option Ip :=
  match octets? text.toList with
  | some (a, b, c, d) => some (.v4 a b c d)
  | none => v6? text.toList

/-- The words for a text that writes no address. -/
def faultText (text : String) : String :=
  Text.quoted text ++ " does not appear to be an IPv4 or IPv6 address"

/-- Start and length of the longest run of zeros, the first of several; `index` is the position of
the list in a longer one. -/
def longestZeros (index : Nat) : List Nat → Nat × Nat
  | [] => (index, 0)
  | group :: groups =>
    let here := ((group :: groups).takeWhile (· = 0)).length
    let later := longestZeros (index + 1) groups
    if here < later.2 then later else (index, here)

/-- Groups with colons between them. -/
def colonText (groups : List Nat) : String :=
  ":".intercalate (groups.map fun group => String.ofList (groupText group))

/-- Groups in their shortest form. -/
def groupsText (groups : List Nat) : String :=
  let (start, length) := longestZeros 0 groups
  if 1 < length then
    colonText (groups.take start) ++ "::" ++ colonText (groups.drop (start + length))
  else colonText groups

/-- The text of an address. -/
def text : Ip → String
  | .v4 a b c d => ".".intercalate ([a, b, c, d].map toString)
  | .v6 groups none => groupsText groups
  | .v6 groups (some zone) => groupsText groups ++ "%" ++ zone

end Ip

end ActivityScript.Address
