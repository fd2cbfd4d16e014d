import ActivityScript.Script.Diagnostic
import ActivityScript.Text.Lines
import ActivityScript.Text.Utf8

/-!
# Excerpts

A report is shown to people as three lines: the message, the line of the source that is at fault,
and a caret below the column. Question marks stand for a line that cannot be found. A script given
on the command line has no path and is shown under a name of its own.
-/

namespace ActivityScript.Script

/-- What stands for a line that cannot be found. -/
def missingLine : String := "???"

/-- The name under which a script without a file is shown. -/
def inlineName : String := "<cmd>"

/-- A report with the line of the source that it is about, if there is one. -/
def Report.excerpt (report : Report) (path : String) (line? : Option (List Char)) : String :=
  let lead := path ++ ":" ++ report.location.position ++ " | "
  let shown := match line? with
    | some line => String.ofList line
    | none => missingLine
  let indent := String.ofList (List.replicate (lead.length + report.location.column) ' ')
  "error: " ++ report.message ++ "\n" ++ lead ++ shown ++ "\n" ++ indent ++ "^"

/-- Line number `n` of a script at hand: the text between two line feeds, without one carriage
return at its end. -/
def lineOfText? (text : List Char) (n : Nat) : Option (List Char) :=
  (Text.pieces '\n' text)[n]?.map (Text.dropFinal '\r')

/-- Line number `n` of the content of a file; what is no character is replaced. -/
def lineOfBytes? (content : List UInt8) (n : Nat) : Option (List Char) :=
  (Text.terminated 10 content)[n]?.map fun line =>
    Text.Utf8.decodeLossy (Text.unterminated 10 13 line)

/-- A report about a script given on the command line. -/
def Report.excerptOfText (report : Report) (text : String) : String :=
  report.excerpt inlineName (lineOfText? text.toList report.location.line)

end ActivityScript.Script
