import ActivityScript.Activity.Json
import ActivityScript.Host.World

/-!
# Activity records

Each activity that changed something outside of the script is described by a record. In a log a
record also has the time and the identity of the program, and takes one line.
-/

namespace ActivityScript.Activity

/-- What a script did. -/
inductive Event where
  /-- A file or directory was created, modified or deleted. -/
  | file (path : String) (descriptor : String)
  /-- A program was started. -/
  | launch (name : String) (commandLine : List String) (pid : Int)
  /-- A message was sent. -/
  | network (source destination : String) (sent : Nat) (protocol : String)
  deriving DecidableEq, Repr

/-- An event as JSON. -/
def Event.toJson : Event → Json
  | .file path descriptor =>
    .object [("type", .text "file"), ("path", .text path),
      ("activity_descriptor", .text descriptor)]
  | .launch name commandLine pid =>
    .object [("type", .text "process"), ("name", .text name),
      ("command_line", .array (commandLine.map .text)), ("pid", .number pid)]
  | .network source destination sent protocol =>
    .object [("type", .text "network"), ("src", .text source), ("dest", .text destination),
      ("sent", .number sent), ("protocol", .text protocol)]

/-- An identity as JSON. -/
def identityJson (identity : Host.Identity) : Json :=
  .object [("pid", .number identity.pid), ("exe", .text identity.executable),
    ("args", .array (identity.arguments.map .text)), ("user", .text identity.user)]

/-- An activity with its time and the identity of the program. -/
structure Record where
  timestamp : Int
  identity : Host.Identity
  activity : Event
  deriving DecidableEq, Repr

/-- A record as JSON. -/
def Record.toJson (record : Record) : Json :=
  .object [("timestamp", .number record.timestamp), ("env", identityJson record.identity),
    ("activity", record.activity.toJson)]

/-- A record as a line of a log. -/
def Record.line (record : Record) : List Char := record.toJson.write ++ ['\n']

end ActivityScript.Activity
