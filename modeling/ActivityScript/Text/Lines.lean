/-!
# Lines

A text is cut into lines at its line feeds, and at nothing else: a form feed, a next-line character
or a line separator stays inside its line, and so does a lone carriage return. `terminated` keeps
the line feed at the end of each line, as a stream hands it out, and `separated` leaves it out, as a
text at hand is cut. `unterminated` removes what a line still has at its end: one line feed, then
one carriage return. All three are stated for any alphabet, because texts are cut by characters and
files by bytes.

`Text.pieces` is the other common way of cutting: it also counts what follows the last line feed,
even when nothing does.

A text is a sequence of Unicode scalar values everywhere in this library. A lone surrogate, as a
command line or an escape in a document can have it, is no scalar value; texts with one are outside
of what is modelled.
-/

namespace ActivityScript.Text

variable {α : Type} [DecidableEq α]

/-- The lines of a sequence, each with its terminator `nl`; only the last may lack one. A terminator
at the very end starts no further line, so the empty sequence has no lines. -/
def terminated (nl : α) : List α → List (List α)
  | [] => []
  | a :: as =>
    if a = nl then [a] :: terminated nl as
    else
      match terminated nl as with
      | [] => [[a]]
      | l :: ls => (a :: l) :: ls

/-- The lines of a sequence without their terminators `nl`. A terminator at the very end starts no
further line, so the empty sequence has no lines. -/
def separated (nl : α) : List α → List (List α)
  | [] => []
  | a :: as =>
    if a = nl then [] :: separated nl as
    else
      match separated nl as with
      | [] => [[a]]
      | l :: ls => (a :: l) :: ls

/-- A sequence without its last element, if that is `a`. -/
def dropFinal (a : α) : List α → List α
  | [] => []
  | [b] => if b = a then [] else [b]
  | b :: c :: as => b :: dropFinal a (c :: as)

/-- A line without its terminator: one `nl` at the end is removed, then one `cr`. -/
def unterminated (nl cr : α) (line : List α) : List α :=
  dropFinal cr (dropFinal nl line)

/-- The pieces of a sequence between the separators `nl`; there is always at least one. -/
def pieces (nl : α) : List α → List (List α)
  | [] => [[]]
  | a :: as =>
    if a = nl then [] :: pieces nl as
    else
      match pieces nl as with
      | [] => [[a]]
      | l :: ls => (a :: l) :: ls

/-- The lines of a text at hand as a reader of scripts sees them: cut at line feeds, and without a
carriage return at the end. -/
def physicalLines (text : List Char) : List (List Char) :=
  (separated '\n' text).map (unterminated '\n' '\r')

/-- The lines of a text that arrives line by line, as a reader of scripts sees them: each is cut off
after its line feed, and the terminator is removed when the line has arrived. -/
def streamedLines (text : List Char) : List (List Char) :=
  (terminated '\n' text).map (unterminated '\n' '\r')

/-- A text in which every carriage return, alone or before a line feed, has become a line feed. -/
def unifiedNewlines : List Char → List Char
  | [] => []
  | '\r' :: '\n' :: cs => '\n' :: unifiedNewlines cs
  | c :: cs => (if c = '\r' then '\n' else c) :: unifiedNewlines cs

end ActivityScript.Text
