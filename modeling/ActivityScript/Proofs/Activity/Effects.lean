import ActivityScript.Activity.Natives
import ActivityScript.Proofs.Host.Conversations
import ActivityScript.Proofs.Host.Frames
import ActivityScript.Proofs.Script.Invocations

/-!
# Effects of functions

What the functions of scripts do to a session. An activity is a chain of steps that can fail, with
the record of an event at its end (`Effect`). The steps before the record change at most the files
that a path leads to, the network and the launcher. `Describes` says what the event of a call is.
All other functions leave files, log and time alone (`effect_of_mem`).

A transmission is followed further, because its calls on the network can be told apart: it holds the
conversation of one `Delivery`, and what it comes to is what the network answers
(`transmission_of_transmit`). Both protocols are such a conversation with a record after it
(`converseAndRecord`).
-/

namespace ActivityScript.Activity

open Host
open Address (Endpoint Ip)
open Script (Failure Native run_bind_of_ok run_bind_of_error)
open Text (Utf8.encode)

/-- A session with these files that collects its events, in a world that refuses nothing. -/
def Session.holding (files : FileSystem) : Session := ⟨.quiet files, .collect []⟩

/-! ## What records tell -/

/-- The functions that change something outside of the script and record it. -/
def activityNames : List String :=
  ["file.create", "file.modify", "file.delete", "process.spawn", "network.transmit"]

/-- What the record of a call tells, given the session before the call. -/
inductive Describes (before : Session) : String → List String → Event → Prop where
  | create {kind path : String} :
      Describes before "file.create" [kind, path] (.file path "create")
  | modify {path content : String} :
      Describes before "file.modify" [path, content] (.file path "modify")
  | delete {path : String} :
      Describes before "file.delete" [path] (.file path "delete")
  /-- A program is known by the number that the launcher gives it. -/
  | spawn {name : String} {arguments : List String} {pid : Int} {launcher : Launcher} :
      before.world.launcher.launch (name :: arguments) = (.ok pid, launcher) →
      Describes before "process.spawn" (name :: arguments) (.launch name (name :: arguments) pid)
  | tcp {destination message : String} :
      Describes before "network.transmit" ["tcp", destination, message]
        (.network (nameText before.world.network.connectionName) destination
          (Utf8.encode message.toList).length "tcp")
  /-- The destination of a packet is told in normal form. -/
  | udp {destination message : String} {target : Endpoint} {ip : Ip} :
      Endpoint.read destination = .ok target →
      Ip.read? target.host = some ip →
      Describes before "network.transmit" ["udp", destination, message]
        (.network (nameText before.world.network.socketName)
          (Endpoint.mk ip.text target.port).text
          (Utf8.encode message.toList).length "udp")

/-- The path that a call of a file activity is given. -/
def filePath? : String → List String → Option String
  | "file.create", [_, path] => some path
  | "file.modify", [path, _] => some path
  | "file.delete", [path] => some path
  | _, _ => none

/-! ## What functions do -/

section Effects

variable {session : Session} {name path : String} {arguments : List String} {event : Event}

/-- A session with other files. -/
def Session.withFiles (session : Session) (files : FileSystem) : Session :=
  { session with world := { session.world with files := files } }

/-- Nothing that the log depends on is different. -/
structure Undisturbed (before after : Session) : Prop where
  sink : after.sink = before.sink
  files : after.world.files = before.world.files
  now : after.world.now = before.world.now

/-- What a call of an activity comes to. It fails and leaves the files alone, or it records an event
that describes it, as its last step and after it has changed at most the file that its path leads
to. -/
inductive Effect (before : Session) (name : String) (arguments : List String) :
    Except Failure String × Session → Prop where
  | failed {failure : Failure} {after : Session} :
      Undisturbed before after → Effect before name arguments (.error failure, after)
  | recorded {middle : Session} {event : Event} :
      Describes before name arguments event →
      middle.sink = before.sink → middle.world.now = before.world.now →
      (middle.world.files = before.world.files ∨
        ∃ path, filePath? name arguments = some path ∧
          before.world.files.Spares path middle.world.files) →
      Effect before name arguments ((record event).run.run middle)

/-- To ask for the session changes nothing and always succeeds. Most functions begin with this
step. -/
theorem run_get (session : Session) :
    (get : Action Session).run.run session = (.ok session, session) :=
  rfl

/-- A record that the sink takes ends a call with success, in the session after the record. All
activities return the same text if they succeed. -/
theorem run_record {after : Session} (h : session.record event = .ok after) :
    (record event).run.run session = (.ok done, after) := by
  rw [record, run_bind_of_ok (run_get session), h]
  rfl

/-- A call that ends with a record and succeeds has made this record. The converse is
`run_record`. -/
theorem of_run_record {after : Session} {text : String}
    (h : (record event).run.run session = (.ok text, after)) :
    text = done ∧ session.record event = .ok after := by
  rw [record, run_bind_of_ok (run_get session)] at h
  cases hrecord : session.record event with
  | error crash =>
    rw [hrecord] at h
    cases h
  | ok recorded =>
    rw [hrecord] at h
    cases h
    exact ⟨rfl, rfl⟩

/-- What a change of files comes to: the changed files if the host makes the change, and otherwise a
refusal with the text of the fault, after which nothing is different. -/
theorem run_changeFiles (path : String) (change : FileSystem → Except Errno FileSystem)
    (session : Session) :
    (changeFiles path change).run.run session
      = match request path (change session.world.files) with
        | .ok files => (.ok (), session.withFiles files)
        | .error fault => (.error (.refused fault.text), session) := by
  rw [changeFiles, run_bind_of_ok (run_get session)]
  cases request path (change session.world.files) <;> rfl

/-- A change of files is refused, or it is made and then recorded. The change must spare what its
path does not lead to, which is where the operations on files come in. -/
theorem Effect.changeFiles {change : FileSystem → Except Errno FileSystem}
    (hdescribes : Describes session name arguments event)
    (hpath : filePath? name arguments = some path)
    (hchange : ∀ files, change session.world.files = .ok files →
      session.world.files.Spares path files) :
    Effect session name arguments
      ((changeFiles path change >>= fun _ => record event).run.run session) := by
  have hrun := run_changeFiles path change session
  cases hrequest : request path (change session.world.files) with
  | error fault =>
    rw [hrequest] at hrun
    rw [run_bind_of_error hrun]
    exact .failed ⟨rfl, rfl, rfl⟩
  | ok files =>
    rw [hrequest] at hrun
    rw [run_bind_of_ok hrun]
    have hspares := hchange files (request_eq_ok_iff.1 hrequest).2
    exact .recorded hdescribes rfl rfl (.inr ⟨path, hpath, hspares⟩)

/-- Creating a file or a directory changes what its path leads to, and is recorded. An unknown kind
and a wrong number of arguments fail before anything happens. -/
theorem effect_createFile (arguments : List String) (session : Session) :
    Effect session "file.create" arguments ((createFile arguments).run.run session) := by
  match arguments with
  | [kind, path] =>
    simp only [createFile]
    split
    · exact .changeFiles .create rfl fun files h => .overwrite h
    · split
      · exact .changeFiles .create rfl fun files h => .makeDirectory h
      · exact .failed ⟨rfl, rfl, rfl⟩
  | [] | [_] | _ :: _ :: _ :: _ => exact .failed ⟨rfl, rfl, rfl⟩

/-- Modifying a file overwrites what its path leads to, and is recorded. It does not matter whether
the file was there. -/
theorem effect_modifyFile (arguments : List String) (session : Session) :
    Effect session "file.modify" arguments ((modifyFile arguments).run.run session) := by
  match arguments with
  | [path, content] => exact .changeFiles .modify rfl fun files h => .overwrite h
  | [] | [_] | _ :: _ :: _ :: _ => exact .failed ⟨rfl, rfl, rfl⟩

/-- Deleting looks at what the path leads to, removes a directory or a file, and records it.
Anything else is refused before anything happens. -/
theorem effect_deleteFile (arguments : List String) (session : Session) :
    Effect session "file.delete" arguments ((deleteFile arguments).run.run session) := by
  match arguments with
  | [path] =>
    rw [deleteFile, run_bind_of_ok (run_get session)]
    split
    · exact .failed ⟨rfl, rfl, rfl⟩
    · exact .changeFiles .delete rfl fun files h => .removeDirectory h
    · exact .changeFiles .delete rfl fun files h => .removeFile h
    · exact .failed ⟨rfl, rfl, rfl⟩
  | [] | _ :: _ :: _ => exact .failed ⟨rfl, rfl, rfl⟩

/-- Spawning calls the launcher and records the number that it gives. Files, log and time are left
alone; a refused launch is known to the launcher only. -/
theorem effect_spawn (arguments : List String) (session : Session) :
    Effect session "process.spawn" arguments ((spawn arguments).run.run session) := by
  rw [spawn, run_bind_of_ok (run_get session)]
  cases hlaunch : session.world.launcher.launch arguments with
  | mk result launcher =>
    cases result with
    | error refusal => exact .failed ⟨rfl, rfl, rfl⟩
    | ok pid =>
      cases arguments with
      | nil => exact .failed ⟨rfl, rfl, rfl⟩
      | cons name arguments => exact .recorded (.spawn hlaunch) rfl rfl (.inl rfl)

/-! ## Transmissions -/

/-- A session with another network. -/
def Session.withNetwork (session : Session) (network : Network) : Session :=
  { session with world := { session.world with network := network } }

/-- What a conversation comes to in a session: the network has been called in any case, and its
refusal, if there is one, ends the call. -/
theorem run_converse (opening : NetworkCall) (rest : List NetworkCall) (session : Session) :
    (converse opening rest).run.run session
      = match session.world.network.converse opening rest with
        | (none, network) => (.ok (), session.withNetwork network)
        | (some refusal, network) =>
          (.error (.refused refusal.text), session.withNetwork network) := by
  rw [converse, run_bind_of_ok (run_get session)]
  cases session.world.network.converse opening rest with
  | mk refusal? network => cases refusal? <;> rfl

/-- A destination that can be read is read, and nothing is different afterwards. What is read may
still not be an address. -/
theorem run_endpoint_of_ok {destination : String} {target : Endpoint}
    (h : Endpoint.read destination = .ok target) :
    (endpoint destination).run.run session = (.ok target, session) := by
  rw [endpoint, h]
  rfl

/-- A destination that cannot be read ends the call before the network is called. The failure says
whether the text or the port was at fault. -/
theorem run_endpoint_of_error {destination : String} {fault : Address.EndpointFault}
    (h : Endpoint.read destination = .error fault) :
    (endpoint destination).run.run session = (.error (failureOfEndpoint fault), session) := by
  rw [endpoint, h]
  rfl

/-- A conversation and the record of it. -/
def converseAndRecord (opening : NetworkCall) (rest : List NetworkCall)
    (eventOf : Session → Event) : Action String :=
  converse opening rest >>= fun _ => get >>= fun held => record (eventOf held)

/-- What a conversation with a record comes to: it is refused and ends there, or the record is made
in the session that has held it. -/
theorem run_converseAndRecord (opening : NetworkCall) (rest : List NetworkCall)
    (eventOf : Session → Event) (session : Session) :
    (converseAndRecord opening rest eventOf).run.run session
      = match session.world.network.converse opening rest with
        | (some refusal, network) => (.error (.refused refusal.text), session.withNetwork network)
        | (none, network) => (record (eventOf (session.withNetwork network))).run.run
            (session.withNetwork network) := by
  have hrun := run_converse opening rest session
  cases hheld : session.world.network.converse opening rest with
  | mk refusal? network =>
    rw [hheld] at hrun
    cases refusal? with
    | some refusal => exact run_bind_of_error hrun
    | none => exact (run_bind_of_ok hrun).trans (run_bind_of_ok (run_get _))

/-! ### Protocols -/

variable {protocol destination message : String} {target : Endpoint} {ip : Ip}
  {payload : List UInt8}

/-- The record of a transmission over a connection. -/
def connectionEvent (destination : String) (payload : List UInt8) (session : Session) : Event :=
  .network (nameText session.world.network.connectionName) destination payload.length "tcp"

/-- The record of a packet; its destination is told in normal form. -/
def packetEvent (ip : Ip) (port : Nat) (payload : List UInt8) (session : Session) : Event :=
  .network (nameText session.world.network.socketName) (Endpoint.mk ip.text port).text
    payload.length "udp"

/-- A transmission over a connection is one conversation with the host and the port that its
destination names, and the record of it. -/
theorem transmit_tcp (h : Endpoint.read destination = .ok target) (session : Session) :
    (transmit ["tcp", destination, message]).run.run session
      = (converseAndRecord (.connect target.host target.port)
          [.sendAll (Utf8.encode message.toList), .socketName]
          (connectionEvent destination (Utf8.encode message.toList))).run.run session :=
  run_bind_of_ok (run_endpoint_of_ok h)

/-- A transmission of a packet is one conversation with the numeric address that the host of its
destination writes, and the record of it. -/
theorem transmit_udp (h : Endpoint.read destination = .ok target)
    (hip : Ip.read? target.host = some ip) (session : Session) :
    (transmit ["udp", destination, message]).run.run session
      = (converseAndRecord .socket
          [.bind "0.0.0.0" 0, .sendTo (Utf8.encode message.toList) ip.text target.port, .socketName]
          (packetEvent ip target.port (Utf8.encode message.toList))).run.run session := by
  refine (run_bind_of_ok (run_endpoint_of_ok h)).trans ?_
  rw [hip]
  rfl

/-- The protocol is unknown, the destination is no endpoint, or a packet is to be sent to a host
that is no numeric address. -/
def Rejected (protocol destination : String) : Prop :=
  (protocol ≠ "tcp" ∧ protocol ≠ "udp") ∨ (∀ target, Endpoint.read destination ≠ .ok target) ∨
    protocol = "udp" ∧
      ∃ target, Endpoint.read destination = .ok target ∧ Ip.read? target.host = none

/-- A transmission that is rejected fails before it has done anything: the protocol and the
destination are looked at before the network is called. -/
theorem run_transmit_of_rejected (h : Rejected protocol destination) (message : String)
    (session : Session) :
    ∃ failure, (transmit [protocol, destination, message]).run.run session
      = (.error failure, session) := by
  rw [transmit]
  rcases h with ⟨htcp, hudp⟩ | hmalformed | ⟨rfl, target, hread, hip⟩
  · rw [if_neg htcp, if_neg hudp]
    exact ⟨_, rfl⟩
  · cases hread : Endpoint.read destination with
    | ok target => exact absurd hread (hmalformed target)
    | error fault =>
      split
      · exact ⟨_, run_bind_of_error (run_endpoint_of_error hread)⟩
      · split
        · exact ⟨_, run_bind_of_error (run_endpoint_of_error hread)⟩
        · exact ⟨_, rfl⟩
  · refine ⟨.refused (Ip.faultText target.host),
      (run_bind_of_ok (run_endpoint_of_ok hread)).trans ?_⟩
    rw [hip]
    rfl

/-- A transmission that is not rejected has a destination to go to, by one of the two protocols. For
a packet, the host of the destination writes an address. -/
theorem exists_target_of_not_rejected (h : ¬Rejected protocol destination) :
    ∃ target, Endpoint.read destination = .ok target ∧
      (protocol = "tcp" ∨ protocol = "udp" ∧ ∃ ip, Ip.read? target.host = some ip) := by
  cases hread : Endpoint.read destination with
  | error fault => exact absurd (.inr (.inl (by simp [hread]))) h
  | ok target =>
    refine ⟨target, rfl, ?_⟩
    by_cases htcp : protocol = "tcp"
    · exact .inl htcp
    · by_cases hudp : protocol = "udp"
      · refine .inr ⟨hudp, Option.ne_none_iff_exists'.1 fun hip => h ?_⟩
        exact .inr (.inr ⟨hudp, target, hread, hip⟩)
      · exact absurd (.inl ⟨htcp, hudp⟩) h

/-! ### Deliveries -/

/-- A conversation that sends a payload: an opening, calls that send nothing, and the call that
sends it, after which only the own name is asked for. -/
structure Delivery (payload : List UInt8) where
  opening : NetworkCall
  steps : List NetworkCall
  send : NetworkCall
  opening_silent : opening.payload? = none
  steps_silent : ∀ call ∈ steps, call.payload? = none
  sends : send.payload? = some payload

/-- The calls of a delivery after its opening. -/
def Delivery.rest (delivery : Delivery payload) : List NetworkCall :=
  delivery.steps ++ [delivery.send, .socketName]

/-- The delivery of bytes over a connection. -/
def Delivery.tcp (payload : List UInt8) (host : String) (port : Nat) : Delivery payload where
  opening := .connect host port
  steps := []
  send := .sendAll payload
  opening_silent := rfl
  steps_silent := fun _ hmem => absurd hmem List.not_mem_nil
  sends := rfl

/-- The delivery of a single packet. -/
def Delivery.udp (payload : List UInt8) (host : String) (port : Nat) : Delivery payload where
  opening := .socket
  steps := [.bind "0.0.0.0" 0]
  send := .sendTo payload host port
  opening_silent := rfl
  steps_silent := by simp [NetworkCall.payload?]
  sends := rfl

/-- What a transmission comes to: it fails before it calls the network, or its conversation is
refused, or its conversation is held and recorded. -/
inductive Transmission (before : Session) (arguments : List String) (payload : List UInt8) :
    Except Failure String × Session → Prop where
  | failed {failure : Failure} : Transmission before arguments payload (.error failure, before)
  | refused {delivery : Delivery payload} {refusal : Refusal} {network : Network} :
      before.world.network.converse delivery.opening delivery.rest = (some refusal, network) →
      Transmission before arguments payload
        (.error (.refused refusal.text), before.withNetwork network)
  | recorded {delivery : Delivery payload} {network : Network} {event : Event} :
      before.world.network.converse delivery.opening delivery.rest = (none, network) →
      Describes before "network.transmit" arguments event →
      Transmission before arguments payload
        ((record event).run.run (before.withNetwork network))

/-- A delivery is refused, or it is made and then recorded. The record may ask the network for its
own names, which no call changes. -/
theorem Transmission.converse (delivery : Delivery payload) (eventOf : Session → Event)
    (hdescribes : ∀ calls, Describes session "network.transmit" arguments
      (eventOf (session.withNetwork (session.world.network.given calls)))) :
    Transmission session arguments payload
      ((converseAndRecord delivery.opening delivery.rest eventOf).run.run session) := by
  rw [run_converseAndRecord]
  obtain ⟨calls, hcalls⟩ :=
    session.world.network.exists_given_eq_converse delivery.opening delivery.rest
  cases hheld : session.world.network.converse delivery.opening delivery.rest with
  | mk refusal? network =>
    rw [hheld] at hcalls
    cases hcalls
    cases refusal? with
    | some refusal => exact .refused hheld
    | none => exact .recorded hheld (hdescribes calls)

/-- A transmission is a delivery by the protocol that it names, unless it is rejected. The two
protocols differ in their calls and in which destination is recorded. -/
theorem transmission_of_transmit (protocol destination message : String) (session : Session) :
    Transmission session [protocol, destination, message] (Utf8.encode message.toList)
      ((transmit [protocol, destination, message]).run.run session) := by
  by_cases hrejected : Rejected protocol destination
  · obtain ⟨failure, hfails⟩ := run_transmit_of_rejected hrejected message session
    rw [hfails]
    exact .failed
  · obtain ⟨target, hread, rfl | ⟨rfl, ip, hip⟩⟩ := exists_target_of_not_rejected hrejected
    · rw [transmit_tcp hread]
      exact .converse (.tcp _ target.host target.port)
        (connectionEvent destination (Utf8.encode message.toList)) fun _ => .tcp
    · rw [transmit_udp hread hip]
      exact .converse (.udp _ ip.text target.port)
        (packetEvent ip target.port (Utf8.encode message.toList)) fun _ => .udp hread hip

/-- Transmitting calls the network and is recorded if it was not refused. Of the files it changes
none, so that only the record can be seen in them. -/
theorem effect_transmit (arguments : List String) (session : Session) :
    Effect session "network.transmit" arguments ((transmit arguments).run.run session) := by
  match arguments with
  | [protocol, destination, message] =>
    have htransmission := transmission_of_transmit protocol destination message session
    generalize (transmit [protocol, destination, message]).run.run session = outcome
      at htransmission ⊢
    cases htransmission with
    | failed => exact .failed ⟨rfl, rfl, rfl⟩
    | refused => exact .failed ⟨rfl, rfl, rfl⟩
    | recorded _ hdescribes => exact .recorded hdescribes rfl rfl (.inl rfl)
  | [] | [_] | [_, _] | _ :: _ :: _ :: _ :: _ => exact .failed ⟨rfl, rfl, rfl⟩

/-! ## All functions -/

/-- What the registrations come to: every function is there under its name, and takes as many
arguments as it has parameters, or more if its last parameter stands for any number of them. -/
theorem natives_entries : natives.entries =
    [⟨"file.create", ["type", "path"], ⟨2, false⟩, createFile⟩,
      ⟨"file.modify", ["path", "new contents"], ⟨2, false⟩, modifyFile⟩,
      ⟨"file.delete", ["path"], ⟨1, false⟩, deleteFile⟩,
      ⟨"process.spawn", ["cmd", "*args"], ⟨1, true⟩, spawn⟩,
      ⟨"network.transmit", ["protocol", "dest", "message"], ⟨3, false⟩, transmit⟩,
      ⟨"join", ["*args"], ⟨0, true⟩, join⟩,
      ⟨"print", ["message"], ⟨1, false⟩, print⟩] :=
  rfl

/-- Every function is an activity, or it leaves everything alone that the log depends on. -/
theorem effect_of_mem {entry : Script.Entry (Native Session)} (h : entry ∈ natives.entries) :
    (entry.name ∈ activityNames ∧ ∀ arguments session,
      Effect session entry.name arguments ((entry.body arguments).run.run session)) ∨
    entry.name ∉ activityNames ∧ ∀ arguments session,
      Undisturbed session ((entry.body arguments).run.run session).2 := by
  simp only [natives_entries, List.mem_cons, List.not_mem_nil, or_false] at h
  rcases h with rfl | rfl | rfl | rfl | rfl | rfl | rfl
  · exact .inl ⟨by simp [activityNames], effect_createFile⟩
  · exact .inl ⟨by simp [activityNames], effect_modifyFile⟩
  · exact .inl ⟨by simp [activityNames], effect_deleteFile⟩
  · exact .inl ⟨by simp [activityNames], effect_spawn⟩
  · exact .inl ⟨by simp [activityNames], effect_transmit⟩
  · exact .inr ⟨by simp [activityNames], fun _ _ => ⟨rfl, rfl, rfl⟩⟩
  · exact .inr ⟨by simp [activityNames], fun _ _ => ⟨rfl, rfl, rfl⟩⟩

end Effects

end ActivityScript.Activity
