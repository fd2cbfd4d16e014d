import ActivityScript.Host.Files
import ActivityScript.Script.Excerpt

/-!
# Excerpts of files

The line at fault is looked up in the file when the report is shown. A file that cannot be read any
more is shown like a line that cannot be found.
-/

namespace ActivityScript.Script

/-- Line number `n` of the file at a path, if there is one. -/
def lineOfFile (files : Host.FileSystem) (path : String) (n : Nat) :
    Except Host.FileFault (Option (List Char)) := do
  let content ← Host.request path (files.contentAt path)
  return lineOfBytes? content n

/-- A report about the script in a file. Only a path that never reaches the host is a fault. -/
def Report.excerptOfFile (report : Report) (files : Host.FileSystem) (path : String) :
    Except Host.FileFault String :=
  match lineOfFile files path report.location.line with
  | .ok line? => .ok (report.excerpt path line?)
  | .error (.refused _ _) => .ok (report.excerpt path none)
  | .error .nullInPath => .error .nullInPath

end ActivityScript.Script
