import ActivityScript.Text.Printable

/-!
# Quoted text

A text is shown between quotation marks, on one line, whatever it holds. The marks are apostrophes,
unless the text has an apostrophe and no double quotation mark. The mark in use and the backslash
are escaped by a backslash; line feed, carriage return and tab have short escapes; every other
unprintable character is written by its code point in two, four or eight hexadecimal digits. Bytes
are shown as the ASCII characters that they stand for, and all others in hexadecimal digits.
-/

namespace ActivityScript.Text

/-- The last `width` hexadecimal digits of `n`, in lower case. -/
def hexDigits (n : Nat) : (width : Nat) → List Char
  | 0 => []
  | width + 1 => hexDigits (n / 16) width ++ [Nat.digitChar (n % 16)]

/-- The quotation mark for a text. -/
def quoteMark (text : List Char) : Char :=
  if text.contains '\x27' && !text.contains '\x22' then '\x22' else '\x27'

/-- A character as it stands between quotation marks `mark`. -/
def escaped (mark c : Char) : List Char :=
  if c = mark || c = '\\' then ['\\', c]
  else if c = '\n' then ['\\', 'n']
  else if c = '\r' then ['\\', 'r']
  else if c = '\t' then ['\\', 't']
  else if isPrintable c then [c]
  else if c.toNat < 0x100 then '\\' :: 'x' :: hexDigits c.toNat 2
  else if c.toNat < 0x10000 then '\\' :: 'u' :: hexDigits c.toNat 4
  else '\\' :: 'U' :: hexDigits c.toNat 8

/-- A text between its quotation marks. -/
def quotedChars (text : List Char) : List Char :=
  quoteMark text :: text.flatMap (escaped (quoteMark text)) ++ [quoteMark text]

/-- A text between its quotation marks. -/
def quoted (text : String) : String :=
  String.ofList (quotedChars text.toList)

/-- A byte as it stands between quotation marks `mark`. -/
def escapedByte (mark : Char) (byte : UInt8) : List Char :=
  if byte < 0x80 then escaped mark (Char.ofNat byte.toNat)
  else '\\' :: 'x' :: hexDigits byte.toNat 2

/-- Bytes between their quotation marks. -/
def quotedBytes (bytes : List UInt8) : String :=
  let mark := quoteMark (bytes.map fun byte => Char.ofNat byte.toNat)
  String.ofList ('b' :: mark :: bytes.flatMap (escapedByte mark) ++ [mark])

end ActivityScript.Text
