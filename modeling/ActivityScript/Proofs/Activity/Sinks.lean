import ActivityScript.Proofs.Activity.Effects
import ActivityScript.Proofs.Activity.RecordLines

/-!
# What records leave behind

A record goes to the sink of its session, and a sink takes it unless it is a log that is not open
(`Sink.Accepts`). `Gains` says what a session has after records of events that it did not have
before: a sink that collects has the events, and the file of a log has bytes at its end that are
read as the records of these events. Nothing else is different. It is said of the events and not of
how they are recorded, so that what is proved of transmissions and of file activities says what is
found in the log (`gains_of_record`).
-/

namespace ActivityScript.Activity

open Host

variable {session before after : Session} {event : Event} {events : List Event}

/-- Whether a sink takes records: a log does as long as it is open. -/
def Sink.Accepts : Sink → Prop
  | .discard | .collect _ => True
  | .log target => target.isOpen

/-- What a sink appends records to: a file, if it is a log that is open on one. -/
def Sink.handle : Sink → Handle
  | .discard | .collect _ => .sink
  | .log target => target.handle?.getD .sink

/-- The bytes that a sink appends for a record. -/
def Sink.bytes (now : Instant) (event : Event) : Sink → List UInt8
  | .discard | .collect _ => []
  | .log target => recordLine target now event

/-- A session has become another one by records of events. If its sink collects, these events have
been added to the others. If it is a log, it is open, and bytes have been appended to its file that
are read as the records of these events, at the time of the session and with the identity of the
log. Nothing else has changed. -/
def Gains (before : Session) (events : List Event) (after : Session) : Prop :=
  match before.sink with
  | .discard => after = before
  | .collect earlier => after = { before with sink := .collect (earlier ++ events) }
  | .log log => ∃ handle, log.handle? = some handle ∧
      after = before.withFiles (before.world.files.appendTo handle
        (events.flatMap (recordLine log before.world.now))) ∧
      ReadsAs (events.flatMap (recordLine log before.world.now))
        (events.map fun event => ⟨before.world.now.seconds, log.identity, event⟩)

/-! ## Records that are taken -/

/-- A sink that takes records takes this one, and the next: a log that is open stays open, and
everything else takes records always. -/
theorem exists_record_eq_ok (h : session.sink.Accepts) (event : Event) :
    ∃ after, session.record event = .ok after ∧ after.sink.Accepts := by
  obtain ⟨world, sink⟩ := session
  cases sink with
  | discard | collect => exact ⟨_, rfl, trivial⟩
  | log log =>
    obtain ⟨handle, hhandle⟩ := Option.isSome_iff_exists.1 h
    let files := world.files.appendTo handle (recordLine log world.now event)
    refine ⟨Session.withFiles ⟨world, .log log⟩ files, ?_, h⟩
    simp only [Session.record, Log.append, hhandle]
    rfl

/-- By a record, a session gains its event. This is the only place where it is looked at how sinks
take records; all else is said by `Gains`. -/
theorem gains_of_record (h : session.record event = .ok after) : Gains session [event] after := by
  obtain ⟨world, sink⟩ := session
  cases sink with
  | discard | collect => cases h; rfl
  | log log =>
    simp only [Session.record, Log.append] at h
    cases hhandle : log.handle? with
    | none => rw [hhandle] at h; cases h
    | some handle =>
      rw [hhandle] at h
      cases h
      refine ⟨handle, hhandle, ?_, readsAs_recordLine log world.now [event]⟩
      rw [List.flatMap_singleton]
      rfl

/-- Without a record, a session gains nothing. That it has gained no event says that no bytes were
appended and that the log is open. -/
theorem gains_nil (h : session.sink.Accepts) : Gains session [] session := by
  obtain ⟨world, sink⟩ := session
  cases sink with
  | discard => rfl
  | collect earlier =>
    exact congrArg (fun events => Session.mk world (.collect events)) (List.append_nil earlier).symm
  | log log =>
    obtain ⟨handle, hhandle⟩ := Option.isSome_iff_exists.1 h
    refine ⟨handle, hhandle, ?_, readsAs_recordLine log world.now []⟩
    rw [List.flatMap_nil, FileSystem.appendTo_nil]
    rfl

/-- Records leave the network as it is. So what a transmission has done to the network can be seen
in the session after its record. -/
theorem Gains.network_eq (h : Gains before events after) :
    after.world.network = before.world.network := by
  obtain ⟨world, sink⟩ := before
  cases sink with
  | discard | collect => cases h; rfl
  | log log =>
    obtain ⟨handle, -, rfl, -⟩ := h
    rfl

/-- A record is appended to the files, and nothing else happens to them. Further records will be
appended alike, since neither the handle nor the identity nor the time has changed. -/
theorem Gains.appended (h : Gains before [event] after) :
    after.world.files = before.world.files.appendTo before.sink.handle
      (before.sink.bytes before.world.now event) ∧
    after.sink.handle = before.sink.handle ∧
    ∀ next, after.sink.bytes after.world.now next = before.sink.bytes before.world.now next := by
  obtain ⟨world, sink⟩ := before
  cases sink with
  | discard | collect => cases h; exact ⟨rfl, rfl, fun _ => rfl⟩
  | log log =>
    obtain ⟨handle, hhandle, rfl, -⟩ := h
    refine ⟨?_, rfl, fun _ => rfl⟩
    rw [List.flatMap_singleton, Sink.handle, hhandle]
    rfl

end ActivityScript.Activity
