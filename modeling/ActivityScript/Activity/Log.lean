import ActivityScript.Activity.Record
import ActivityScript.Script.Evaluation

/-!
# Activity logs

A log is a file that records are appended to while it is open. Opening it keeps what the file holds,
and creates a missing file. The identity in its records is that of the moment when the log was set
up.
-/

namespace ActivityScript.Activity

open Host

/-- A log, open if it has a handle. -/
structure Log where
  path : String
  identity : Identity
  handle? : Option Handle
  deriving DecidableEq, Repr

namespace Log

/-- A log at a path, not yet open. -/
def ofPath (path : String) (identity : Identity) : Log :=
  ⟨Path.normal path, identity, none⟩

/-- Whether a log is open. -/
def isOpen (log : Log) : Bool := log.handle?.isSome

/-- Opens a log; an open log stays as it is. -/
def openOn (log : Log) (files : FileSystem) : Except FileFault (Log × FileSystem) :=
  match log.handle? with
  | some _ => .ok (log, files)
  | none => do
    let (handle, files) ← request log.path (files.openAppend log.path)
    return ({ log with handle? := some handle }, files)

/-- Closes a log. -/
def close (log : Log) : Log := { log with handle? := none }

/-- The record of an activity at a time. -/
def record (log : Log) (now : Instant) (activity : Event) : Record :=
  ⟨now.seconds, log.identity, activity⟩

/-- Appends the record of an activity. -/
def append (log : Log) (now : Instant) (activity : Event) (files : FileSystem) :
    Except Script.Crash FileSystem :=
  match log.handle? with
  | none => .error (.logNotOpen log.path)
  | some handle =>
    .ok (files.appendTo handle (Text.Utf8.encode (log.record now activity).line))

/-- Appends the records of several activities. -/
def appendAll (log : Log) (now : Instant) (files : FileSystem) :
    List Event → Except Script.Crash FileSystem
  | [] => .ok files
  | activity :: activities => do
    let files ← log.append now activity files
    log.appendAll now files activities

/-- Opens a log, appends the records of several activities and closes it. -/
def within (log : Log) (now : Instant) (activities : List Event) (files : FileSystem) :
    Except FileFault (Except Script.Crash Unit × Log × FileSystem) := do
  let (log, files) ← log.openOn files
  match log.appendAll now files activities with
  | .ok files => return (.ok (), log.close, files)
  | .error crash => return (.error crash, log.close, files)

end Log

end ActivityScript.Activity
