import ActivityScript.Text.Lines
import ActivityScript.Text.Utf8

/-!
# Sources

A script is read from a text or from bytes, either at hand as a whole or arriving line by line. The
lines of every kind of source end at line feeds, and one carriage return before the end is dropped.
What differs is where the cut is made, before a line feed in a text at hand and after it in a
stream, and when bytes are decoded: at once for bytes at hand, each line when it is reached for a
stream of bytes. A line that cannot be decoded is a fault in the place of the line.

A text file is a stream of text whose line ends were unified while it was read.
-/

namespace ActivityScript.Script

/-- Where a script is read from. -/
inductive Source where
  /-- A text at hand. -/
  | text (content : String)
  /-- Bytes at hand. -/
  | bytes (content : List UInt8)
  /-- A text that arrives line by line. -/
  | textStream (content : String)
  /-- Bytes that arrive line by line. -/
  | byteStream (content : List UInt8)
  deriving DecidableEq, Repr

/-- A text file: before its lines arrive, every carriage return, alone or before a line feed, has
become a line feed. -/
def Source.textFile (content : String) : Source :=
  .textStream (String.ofList (Text.unifiedNewlines content.toList))

/-- A line of a script without its terminator, or the reason why it has no text. -/
abbrev Line := Except Text.Utf8.Fault (List Char)

/-- A line of bytes, decoded with its terminator, which is then removed. -/
def Line.ofBytes (bytes : List UInt8) : Line :=
  (Text.Utf8.decode bytes).map (Text.unterminated '\n' '\r')

/-- The lines of a source, in order. Bytes at hand that cannot be decoded are one faulty line. -/
def Source.lines : Source → List Line
  | .text s => (Text.physicalLines s.toList).map .ok
  | .textStream s => (Text.streamedLines s.toList).map .ok
  | .bytes bs =>
    match Text.Utf8.decode bs with
    | .ok cs => (Text.physicalLines cs).map .ok
    | .error fault => [.error fault]
  | .byteStream bs => (Text.terminated 10 bs).map Line.ofBytes

/-- Whether a source is read only once, whoever reads it. -/
def Source.isStream : Source → Bool
  | .text _ | .bytes _ => false
  | .textStream _ | .byteStream _ => true

end ActivityScript.Script
