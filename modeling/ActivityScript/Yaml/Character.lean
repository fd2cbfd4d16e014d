import ActivityScript.Text.Ranges

/-!
# Characters of documents

Line breaks are the line feed and three characters beyond ASCII; carriage returns are gone before a
document is read. Only a blank is indentation. A tab parts words but never begins a token.
-/

namespace ActivityScript.Yaml

/-- The characters that a document may hold. -/
def allowed : List (Nat × Nat) :=
  [(0x9, 0xA), (0xD, 0xD), (0x20, 0x7E), (0x85, 0x85), (0xA0, 0xD7FF), (0xE000, 0xFFFD),
   (0x10000, 0x10FFFF)]

/-- Whether a document may hold a character. -/
def isAllowed (c : Char) : Bool := Text.inRanges c.toNat allowed

/-- Whether a character ends a line. -/
def isBreak (c : Char) : Bool :=
  c = '\n' || c = '\x85' || c = '\u2028' || c = '\u2029'

/-- A line break as it stands in a scalar. -/
def breakText (c : Char) : Char := if c = '\x85' then '\n' else c

/-- Whether a character parts words. -/
def isSpace (c : Char) : Bool := c = ' ' || c = '\t' || isBreak c

/-- Whether a text is at its end or begins with a character that parts words. -/
def atSpace : List Char → Bool
  | [] => true
  | c :: _ => isSpace c

/-- Whether a text is at its end or begins with a blank or a line break. -/
def atGap : List Char → Bool
  | [] => true
  | c :: _ => c = ' ' || isBreak c

/-- Whether a text begins with the mark between documents: three times `c`, and nothing joined to
them. -/
def atMark (c : Char) : List Char → Bool
  | a :: b :: d :: rest => a = c && b = c && d = c && atSpace rest
  | _ => false

/-- Whether a text begins with one of the two marks between documents. -/
def atSeparator (text : List Char) : Bool := atMark '-' text || atMark '.' text

/-- Whether a character can stand in a name. -/
def isNameChar (c : Char) : Bool := c.isAlphanum || c = '-' || c = '_'

/-- The number that ASCII digits write. -/
def digitsValue (digits : List Char) : Nat :=
  digits.foldl (fun n c => 10 * n + (c.toNat - 48)) 0

/-- The mark of byte order, which takes no room on its line. -/
def byteOrderMark : Char := '\ufeff'

/-- A position in a document. -/
structure Position where
  index : Nat
  line : Nat
  column : Nat
  deriving DecidableEq, Repr

/-- The position after a character. -/
def Position.after (position : Position) (c : Char) : Position :=
  if isBreak c then ⟨position.index + 1, position.line + 1, 0⟩
  else if c = byteOrderMark then { position with index := position.index + 1 }
  else { position with index := position.index + 1, column := position.column + 1 }

/-- The position after the part of `text` that was read when `rest` is left of it. -/
def Position.upTo (position : Position) (text rest : List Char) : Position :=
  (text.take (text.length - rest.length)).foldl Position.after position

end ActivityScript.Yaml
