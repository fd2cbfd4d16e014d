import ActivityScript.Script.Lexer

/-!
# Several readings of one source

A `Reader` hands out the tokens of a source one at a time to any number of readings. Its readings
share the number of the current line, which the first advance of a reading sets to zero and the
advance after an end of line increases. They also share the lines of a stream: a line that one of
them has fetched is gone for the others. A source at hand starts anew for each reading.
-/

namespace ActivityScript.Script

/-- A source with the state that its readings share: the number of the current line, and the lines
of a stream that nobody has fetched yet. -/
structure Reader where
  source : Source
  file : Option String
  line : Nat
  unread : List Line

/-- A reader of a source of which nothing has been read. -/
def Reader.ofSource (source : Source) (file : Option String) : Reader :=
  ⟨source, file, 0, source.lines⟩

/-- Where a reading stands. `own` are the lines it has still to fetch, if the source is at hand. -/
inductive Reading where
  /-- Never advanced. -/
  | fresh
  /-- Inside a line, whose rest starts at `column`. -/
  | inside (column : Nat) (rest : List Char) (own : List Line)
  /-- After the end of a line. -/
  | between (own : List Line)
  /-- After the end of the input, or after a fault. -/
  | finished

/-- What an advance gives: a token, a fault, or nothing once the reading is finished. -/
abbrev Advance := Option (Except ReadFault Token)

/-- The next token of a reading inside a line. -/
def Reader.scanOn (reader : Reader) (column : Nat) (rest : List Char) (own : List Line) :
    Advance × Reading :=
  match scan column rest with
  | .lexeme found lexeme next rest =>
    (some (.ok ⟨lexeme, ⟨reader.line, found, reader.file⟩⟩), .inside next rest own)
  | .lineEnd found => (some (.ok ⟨.endOfLine, ⟨reader.line, found, reader.file⟩⟩), .between own)
  | .fault found problem =>
    (some (.error (.script ⟨problem, ⟨reader.line, found, reader.file⟩⟩)), .finished)

/-- The first token of the line at the head of `lines`; `own` are the lines after it that the
reading keeps for itself. Without a line the input ends. -/
def Reader.enter (reader : Reader) (lines own : List Line) : Advance × Reading :=
  match lines with
  | [] => (some (.ok ⟨.endOfInput, ⟨reader.line, 0, reader.file⟩⟩), .finished)
  | .error fault :: _ => (some (.error (.encoding fault)), .finished)
  | .ok cs :: _ => reader.scanOn 0 cs own

/-- Fetches a line, from the lines shared by all readings if the source is a stream and otherwise
from the reading's own, and gives its first token. -/
def Reader.fetch (reader : Reader) (own : List Line) : Advance × Reader × Reading :=
  if reader.source.isStream then
    let (result, reading) := reader.enter reader.unread []
    (result, { reader with unread := reader.unread.tail }, reading)
  else
    let (result, reading) := reader.enter own own.tail
    (result, reader, reading)

/-- The next token of a reading. -/
def Reader.advance (reader : Reader) : Reading → Advance × Reader × Reading
  | .fresh => { reader with line := 0 }.fetch reader.source.lines
  | .inside column rest own =>
    let (result, reading) := reader.scanOn column rest own
    (result, reader, reading)
  | .between own => { reader with line := reader.line + 1 }.fetch own
  | .finished => (none, reader, .finished)

/-- All tokens of a new reading. -/
def Reader.tokenize (reader : Reader) : Except ReadFault (List Token) × Reader :=
  let lines := if reader.source.isStream then reader.unread else reader.source.lines
  let lexing := lexLines reader.file 0 lines
  (lexing.tokens?,
    { reader with
      line := lexing.line
      unread := if reader.source.isStream then lexing.unread else reader.unread })

end ActivityScript.Script
