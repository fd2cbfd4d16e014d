import ActivityScript.Text.Ranges

/-!
# Blank characters

The characters that are removed from the end of a line of help text: the separators, and the control
characters that move the point of writing. Around a number the separators of files and records,
which are control characters too, are not removed.
-/

namespace ActivityScript.Text

/-- The blank characters. -/
def blanks : List (Nat × Nat) :=
  [(0x9, 0xD), (0x1C, 0x20), (0x85, 0x85), (0xA0, 0xA0), (0x1680, 0x1680), (0x2000, 0x200A),
   (0x2028, 0x2029), (0x202F, 0x202F), (0x205F, 0x205F), (0x3000, 0x3000)]

/-- Whether a character is blank. -/
def isBlank (c : Char) : Bool := inRanges c.toNat blanks

/-- A text without the blank characters at its end. -/
def trimmedEnd (text : List Char) : List Char :=
  (text.reverse.dropWhile isBlank).reverse

/-- Whether a character may stand around a number. -/
def isNumberBlank (c : Char) : Bool := isBlank c && !inRanges c.toNat [(0x1C, 0x1F)]

/-- A text without the blank characters that may stand around a number. -/
def withoutNumberBlanks (text : List Char) : List Char :=
  ((text.dropWhile isNumberBlank).reverse.dropWhile isNumberBlank).reverse

end ActivityScript.Text
