import ActivityScript.Proofs.Activity.Sinks

/-!
# The log is the history

A log holds one line for each activity that a script has carried out, and nothing else:
`log_eq_history` says that the log file is what it was before, followed by the lines of the calls
that have succeeded, and that these lines are read as the records of these calls.

A call that fails has not come to its record, and one that succeeds has added its line. The only
other way to change the log file is through a path that leads to it (`FileSystem.Spares`). What one
call does to the log (`Logging.call`) adds up to what an execution does (`Faithful.call`).
-/

namespace ActivityScript.Activity

open Host
open Script (Invocation Native)
open Text (Utf8.decode separated)

/-! ## What the log holds -/

section Logging

variable {log : Log} {place : Place} {number : Nat} {now : Instant} {content : List UInt8}
  {session after : Session} {entry : Script.Entry (Native Session)}

/-- Whether a call leaves a record: it is one of an activity that has succeeded. -/
def isRecorded (call : Invocation Session) : Bool :=
  decide (call.entry.name ∈ activityNames) &&
    match call.result with
    | .ok text => decide (text = done)
    | .error _ => false

/-- A call of a file activity is not given a path that leads to a place. -/
def Avoids (place : Place) (call : Invocation Session) : Prop :=
  ∀ path ∈ filePath? call.entry.name call.arguments, ¬call.before.world.files.LeadsTo path place

instance (place : Place) (call : Invocation Session) : Decidable (Avoids place call) :=
  inferInstanceAs (Decidable (∀ path ∈ filePath? call.entry.name call.arguments,
    ¬call.before.world.files.LeadsTo path place))

/-- A session with an open log. The log is the regular file at a place and holds `content`. -/
structure Logging (log : Log) (place : Place) (number : Nat) (now : Instant)
    (content : List UInt8) (session : Session) : Prop where
  handle : log.handle? = some (.file number)
  sink : session.sink = .log log
  time : session.world.now = now
  file : session.world.files.get? place = some (.file number content)

/-- The log holds what it held if nothing is different that it depends on: neither the sink, nor the
files, nor the time. -/
theorem Logging.undisturbed (h : Logging log place number now content session)
    (hafter : Undisturbed session after) : Logging log place number now content after where
  handle := h.handle
  sink := hafter.sink.trans h.sink
  time := hafter.now.trans h.time
  file := by rw [hafter.files, h.file]

/-- A record makes the log longer by its line, and always succeeds, since the log is open. The file
keeps its place and its number. -/
theorem Logging.record (h : Logging log place number now content session) (event : Event) :
    ∃ after, (record event).run.run session = (.ok done, after) ∧
      Logging log place number now (content ++ recordLine log now event) after := by
  obtain ⟨world, sink⟩ := session
  obtain ⟨hhandle, hsink, htime, hfile⟩ := h
  cases hsink
  cases htime
  have haccepts : (Session.mk world (.log log)).sink.Accepts :=
    Option.isSome_iff_exists.2 ⟨_, hhandle⟩
  obtain ⟨after, hrecord, -⟩ := exists_record_eq_ok haccepts event
  obtain ⟨handle, hfound, rfl, -⟩ := gains_of_record hrecord
  cases hhandle.symm.trans hfound
  refine ⟨_, run_record hrecord, hhandle, rfl, rfl, ?_⟩
  rw [List.flatMap_singleton]
  exact FileSystem.get?_append hfile _

/-- A call that is recorded makes the log longer by a line that describes it, and any other call
leaves the log as it is. -/
theorem Logging.call (h : Logging log place number now content session)
    (hentry : entry ∈ natives.entries) (arguments : List String)
    (havoids : Avoids place (entry.invocation arguments session)) :
    (isRecorded (entry.invocation arguments session) = false ∧
      Logging log place number now content (entry.invocation arguments session).after) ∨
    isRecorded (entry.invocation arguments session) = true ∧
      ∃ event, Describes session entry.name arguments event ∧
        Logging log place number now (content ++ recordLine log now event)
          (entry.invocation arguments session).after := by
  rcases effect_of_mem hentry with ⟨hname, heffect⟩ | ⟨hname, hundisturbed⟩
  · have heffect := heffect arguments session
    -- The call is what its function comes to, so the cases of the outcome are those of the call.
    unfold Script.Entry.invocation at havoids ⊢
    generalize (entry.body arguments).run.run session = outcome at heffect havoids ⊢
    cases heffect with
    | failed hafter => exact .inl ⟨by simp [isRecorded], h.undisturbed hafter⟩
    | @recorded middle event hdescribes hsink htime hfiles =>
      have hmiddle : Logging log place number now content middle := by
        refine ⟨h.handle, hsink.trans h.sink, htime.trans h.time, ?_⟩
        rcases hfiles with hfiles | ⟨path, hpath, hspares⟩
        · rw [hfiles, h.file]
        · exact hspares place number content h.file (havoids path hpath)
      obtain ⟨after, hrecord, hafter⟩ := hmiddle.record event
      rw [hrecord]
      exact .inr ⟨by simp [isRecorded, hname], event, hdescribes, hafter⟩
  · -- A function that is no activity may well return the text of a success.
    refine .inl ⟨?_, h.undisturbed (hundisturbed arguments session)⟩
    have hdecide : decide (entry.name ∈ activityNames) = false := decide_eq_false hname
    rw [isRecorded]
    exact (congrArg (· && _) hdecide).trans (Bool.false_and _)

/-- The log holds what it held at first, and one line after the other for the calls that are
recorded. -/
def Faithful (log : Log) (place : Place) (number : Nat) (now : Instant) (content : List UInt8)
    (traced : Script.Traced Session) : Prop :=
  ∃ events,
    List.Forall₂ (fun call event => Describes call.before call.entry.name call.arguments event)
      (traced.calls.filter isRecorded) events ∧
    Logging log place number now (content ++ events.flatMap (recordLine log now)) traced.state

/-- One more call keeps the log faithful: its line is added if it is recorded, and nothing is added
otherwise. This is the step of the induction over an execution. -/
theorem Faithful.call {traced : Script.Traced Session}
    (h : Faithful log place number now content traced) (hentry : entry ∈ natives.entries)
    (arguments : List String) (havoids : Avoids place (entry.invocation arguments traced.state)) :
    Faithful log place number now content (traced.call entry arguments) := by
  obtain ⟨events, hevents, hlogging⟩ := h
  have hcalls : (traced.call entry arguments).calls
      = traced.calls ++ [entry.invocation arguments traced.state] := rfl
  rw [Faithful, hcalls, List.filter_append]
  rcases hlogging.call hentry arguments havoids with
    ⟨hsilent, hafter⟩ | ⟨hrecorded, event, hdescribes, hafter⟩
  · rw [List.filter_cons_of_neg (by rw [hsilent]; exact Bool.false_ne_true), List.filter_nil,
      List.append_nil]
    exact ⟨events, hevents, hafter⟩
  · rw [List.filter_cons_of_pos hrecorded, List.filter_nil]
    refine ⟨events ++ [event], List.rel_append hevents (.cons hdescribes .nil), ?_⟩
    rw [List.flatMap_append, List.flatMap_singleton, ← List.append_assoc]
    exact hafter

end Logging

end ActivityScript.Activity
