import ActivityScript.Activity.Log
import ActivityScript.Address.Endpoint
import ActivityScript.Address.Ip

/-!
# The functions of scripts

What scripts can do: create, modify and delete files, start programs, send messages, join and print
texts. A function that changes something outside of the script records it after everything else
succeeded. What the host refuses, the script is told in the words of the host.
-/

namespace ActivityScript.Activity

open Host
open Script (Native Registration Registry Step Failure Crash)

/-- Where records go. -/
inductive Sink where
  | discard
  | collect (activities : List Event)
  | log (log : Log)
  deriving DecidableEq, Repr

/-- The state of the functions. -/
structure Session where
  world : World
  sink : Sink

/-- The result of a function that has nothing to tell. -/
def done : String := "ok"

namespace Session

/-- Records an activity. -/
def record (session : Session) (activity : Event) : Except Crash Session :=
  match session.sink with
  | .discard => .ok session
  | .collect activities => .ok { session with sink := .collect (activities ++ [activity]) }
  | .log log => do
    let files ← log.append session.world.now activity session.world.files
    return { session with world := { session.world with files := files } }

end Session

/-- A function of a session, which keeps the session when it crashes. -/
abbrev Action (α : Type) := Step Session Failure α

/-- Tells the script that a call failed. -/
def refuse {α : Type} (message : String) : Action α := throw (.refused message)

/-- Fails in a way that the script is not told about. -/
def crash {α : Type} (crash : Crash) : Action α := throw (.crashed crash)

/-- Records an activity, the last step of a function. -/
def record (activity : Event) : Action String := do
  match (← get).record activity with
  | .ok session => set session; return done
  | .error fault => crash fault

/-- Changes the files, unless the host refuses. -/
def changeFiles (path : String) (change : FileSystem → Except Errno FileSystem) :
    Action Unit := do
  let session ← get
  match request path (change session.world.files) with
  | .ok files => set { session with world := { session.world with files := files } }
  | .error fault => refuse fault.text

/-- Creates an empty file, or empties a file, or creates a directory. -/
def createFile : Native Session
  | [kind, path] => do
    if kind = "file" then changeFiles path fun files => files.overwrite path []
    else if kind = "dir" then changeFiles path fun files => files.makeDirectory path
    else refuse ("invalid file type: " ++ kind)
    record (.file path "create")
  | arguments => crash (.wrongCount 2 arguments.length)

/-- Replaces the content of a file. -/
def modifyFile : Native Session
  | [path, content] => do
    changeFiles path fun files => files.overwrite path (Text.Utf8.encode content.toList)
    record (.file path "modify")
  | arguments => crash (.wrongCount 2 arguments.length)

/-- The format bits of a file mode. -/
def formatOfMode (mode : Nat) : Nat := mode &&& 0o170000

/-- The kind of file that a mode stands for, in words. -/
def describeMode (mode : Nat) : String :=
  let format := formatOfMode mode
  if format = 0o120000 then "symlink"
  else if format = 0o010000 then "fifo"
  else if format = 0o140000 then "socket"
  else if format = 0o060000 then "block device"
  else if format = 0o020000 then "character device"
  else "mode " ++ String.ofList (Nat.toDigits 8 format)

/-- The format bits of an item. -/
def modeOfItem : Item → Nat
  | .file _ _ => 0o100000
  | .directory => 0o040000
  | .link _ => 0o120000
  | .fifo => 0o010000
  | .socket => 0o140000
  | .device => 0o020000

/-- Deletes what a path leads to, if it is a regular file or an empty directory. The path is
followed to see what it is, but it is the entry of that name that is removed. -/
def deleteFile : Native Session
  | [path] => do
    match request path ((← get).world.files.locate path) with
    | .error fault => refuse fault.text
    | .ok (_, .directory) => changeFiles path fun files => files.removeDirectory path
    | .ok (_, .file _ _) => changeFiles path fun files => files.removeFile path
    | .ok (_, item) =>
      refuse ("unable to delete file type: " ++ describeMode (modeOfItem item))
    record (.file path "delete")
  | arguments => crash (.wrongCount 1 arguments.length)

/-- Starts a program and does not wait for it. -/
def spawn : Native Session := fun command => do
  let session ← get
  let (result, launcher) := session.world.launcher.launch command
  set { session with world := { session.world with launcher := launcher } }
  match result with
  | .error refusal => refuse refusal.text
  | .ok pid =>
    match command with
    | [] => crash .noCommand
    | name :: _ => record (.launch name command pid)

/-- Holds a conversation over the network. -/
def converse (opening : NetworkCall) (rest : List NetworkCall) : Action Unit := do
  let session ← get
  let (refusal?, network) := session.world.network.converse opening rest
  set { session with world := { session.world with network := network } }
  match refusal? with
  | some refusal => refuse refusal.text
  | none => return ()

/-- The failure of a function that was given a text that is no endpoint. -/
def failureOfEndpoint : Address.EndpointFault → Failure
  | .malformed text => .refused ("invalid socket address syntax: " ++ text)
  | .port fault => .crashed (.number fault)

/-- The endpoint that a destination writes. -/
def endpoint (destination : String) : Action Address.Endpoint :=
  match Address.Endpoint.read destination with
  | .ok endpoint => return endpoint
  | .error fault => throw (failureOfEndpoint fault)

/-- The name of a connection or a socket as a text. -/
def nameText (name : String × Nat) : String :=
  (Address.Endpoint.mk name.1 name.2).text

/-- Sends bytes over a connection. -/
def sendOverConnection (destination : String) (payload : List UInt8) : Action String := do
  let target ← endpoint destination
  converse (.connect target.host target.port) [.sendAll payload, .socketName]
  let source := nameText (← get).world.network.connectionName
  record (.network source destination payload.length "tcp")

/-- Sends bytes in a single packet to a numeric address. -/
def sendPacket (destination : String) (payload : List UInt8) : Action String := do
  let target ← endpoint destination
  match Address.Ip.read? target.host with
  | none => refuse (Address.Ip.faultText target.host)
  | some ip =>
    converse .socket
      [.bind "0.0.0.0" 0, .sendTo payload ip.text target.port, .socketName]
    let source := nameText (← get).world.network.socketName
    record (.network source (Address.Endpoint.mk ip.text target.port).text payload.length "udp")

/-- Sends a message. -/
def transmit : Native Session
  | [protocol, destination, message] => do
    let payload := Text.Utf8.encode message.toList
    if protocol = "tcp" then sendOverConnection destination payload
    else if protocol = "udp" then sendPacket destination payload
    else refuse ("invalid network protocol: " ++ protocol)
  | arguments => crash (.wrongCount 3 arguments.length)

/-- Joins texts. -/
def join : Native Session := fun arguments => return String.join arguments

/-- Prints texts, each on a line. -/
def print : Native Session := fun arguments => do
  let session ← get
  let lines := String.join (arguments.map (· ++ "\n"))
  set { session with world := { session.world with printed := session.world.printed ++ lines } }
  return done

/-- The functions of scripts, with their names and parameters. -/
def registrations : List (Registration (Native Session)) :=
  [⟨"file.create", ["type", "path"], createFile⟩,
    ⟨"file.modify", ["path", "new contents"], modifyFile⟩,
    ⟨"file.delete", ["path"], deleteFile⟩,
    ⟨"process.spawn", ["cmd", "*args"], spawn⟩,
    ⟨"network.transmit", ["protocol", "dest", "message"], transmit⟩,
    ⟨"join", ["*args"], join⟩,
    ⟨"print", ["message"], print⟩]

/-- The functions of scripts, registered one after the other. -/
def natives : Registry (Native Session) := Registry.empty.afterAll registrations

end ActivityScript.Activity
