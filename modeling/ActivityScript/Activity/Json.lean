import ActivityScript.Text.Quoted

/-!
# JSON

Values are written on one line and in ASCII only: every other character is an escape of its UTF-16
units. Commas and colons are followed by a blank.
-/

namespace ActivityScript.Activity

/-- A JSON value of the kinds that records have. -/
inductive Json where
  | number (value : Int)
  | text (value : String)
  | array (items : List Json)
  | object (fields : List (String × Json))

namespace Json

/-- A UTF-16 unit as an escape. -/
def unitEscape (unit : Nat) : List Char := '\\' :: 'u' :: Text.hexDigits unit 4

/-- A character between quotation marks. -/
def escape (c : Char) : List Char :=
  if c = '\x22' then ['\\', '\x22']
  else if c = '\\' then ['\\', '\\']
  else if c = '\n' then ['\\', 'n']
  else if c = '\r' then ['\\', 'r']
  else if c = '\t' then ['\\', 't']
  else if c = '\x0c' then ['\\', 'f']
  else if c = '\x08' then ['\\', 'b']
  else if 0x20 ≤ c.toNat ∧ c.toNat < 0x7f then [c]
  else if c.toNat < 0x10000 then unitEscape c.toNat
  else
    let offset := c.toNat - 0x10000
    unitEscape (0xd800 + offset / 0x400) ++ unitEscape (0xdc00 + offset % 0x400)

/-- A text between quotation marks. -/
def writeText (text : String) : List Char :=
  '\x22' :: text.toList.flatMap escape ++ ['\x22']

mutual

/-- A value as a text. -/
def write : Json → List Char
  | .number value => (toString value).toList
  | .text value => writeText value
  | .array items => '[' :: writeItems items ++ [']']
  | .object fields => '\x7b' :: writeFields fields ++ ['\x7d']

/-- Items with commas between them. -/
def writeItems : List Json → List Char
  | [] => []
  | [item] => item.write
  | item :: items => item.write ++ [',', ' '] ++ writeItems items

/-- Fields with commas between them. -/
def writeFields : List (String × Json) → List Char
  | [] => []
  | [(key, value)] => writeText key ++ [':', ' '] ++ value.write
  | (key, value) :: fields =>
    writeText key ++ [':', ' '] ++ value.write ++ [',', ' '] ++ writeFields fields

end

end Json

end ActivityScript.Activity
