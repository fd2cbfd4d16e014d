import ActivityScript.Proofs.Activity.Sinks
import ActivityScript.Proofs.Address.Ports
import ActivityScript.Proofs.Script.Crashes

/-!
# What functions refuse

The functions of scripts are to tell the script about everything that goes wrong. They do, with one
exception: the port of a destination is read as a number outside of what is told.
`refuses_or_returns` says that a call with as many arguments as its function takes returns a text or
refuses, unless it is a transmission to a port that has digits only and is no number
(`MeetsUnreadablePort`); that one crashes, and with it the script. `transmit_crashes` shows such a
call.

A chain of steps is safe if each step is (`Safe.bind`), and a step keeps a sink that takes records
as such a sink, so that the last step of an activity is safe as well (`Safe.record`).
-/

namespace ActivityScript.Activity

open Host
open Address (Endpoint UnreadablePort exists_port_fault_iff)
open Script (Failure Native run_bind_of_ok run_bind_of_error)

/-! ## Safe steps -/

section Safety

variable {α β : Type} {session : Session}

/-- An outcome that is no crash, with a sink that takes further records. -/
def Told : Except Failure α × Session → Prop
  | (.ok _, after) | (.error (.refused _), after) => after.sink.Accepts
  | (.error (.crashed _), _) => False

/-- An outcome that is told leaves a sink that takes further records, whether the call has returned
or refused. -/
theorem Told.accepts {outcome : Except Failure α × Session} (h : Told outcome) :
    outcome.2.sink.Accepts := by
  obtain ⟨(_ | _) | _, after⟩ := outcome
  · exact h
  · exact absurd h id
  · exact h

/-- An outcome that is told is no crash, whatever the crash would have been. This is what scripts
are to rely on. -/
theorem Told.ne_crashed {outcome : Except Failure α × Session} (h : Told outcome)
    (crash : Script.Crash) : outcome.1 ≠ .error (.crashed crash) := by
  obtain ⟨result, after⟩ := outcome
  rintro rfl
  exact h

/-- Steps that return or refuse if the sink takes records. -/
def Safe (steps : Action α) : Prop :=
  ∀ session : Session, session.sink.Accepts → Told (steps.run.run session)

/-- To refuse is safe: nothing is done to the sink, and the script is told. -/
theorem Safe.refuse (message : String) : Safe (refuse message : Action α) := fun _ h => h

/-- To ask for the session is safe, since nothing can go wrong with it and nothing is changed. -/
theorem Safe.get : Safe (get : Action Session) := fun _ h => h

/-- Two steps one after the other are safe if both are. The second is only asked to be safe for a
sink that takes records, which the first leaves. -/
theorem Safe.bind {first : Action α} {second : α → Action β} (h : Safe first)
    (h' : ∀ value, Safe (second value)) : Safe (first >>= second) := by
  intro session haccepts
  have hfirst := h session haccepts
  cases hrun : first.run.run session with
  | mk result middle =>
    rw [hrun] at hfirst
    cases result with
    | ok value =>
      rw [run_bind_of_ok hrun]
      exact h' value middle hfirst
    | error failure =>
      rw [run_bind_of_error hrun]
      cases failure with
      | refused message => exact hfirst
      | crashed crash => exact absurd hfirst id

/-- A record is safe if the sink takes records. A log that is not open would crash, but then the
sink does not take records. -/
theorem Safe.record (event : Event) : Safe (record event) := by
  intro session haccepts
  obtain ⟨after, hrecord, hafter⟩ := exists_record_eq_ok haccepts event
  rw [run_record hrecord]
  exact hafter

/-- A change of files is safe, whatever the host answers: its refusals are told with the text of the
fault. -/
theorem Safe.changeFiles (path : String) (change : FileSystem → Except Errno FileSystem) :
    Safe (changeFiles path change) := by
  intro session haccepts
  rw [run_changeFiles]
  split <;> exact haccepts

/-- A conversation is safe, whatever the network answers: its refusals are told, and the sink is not
touched. -/
theorem Safe.converse (opening : NetworkCall) (rest : List NetworkCall) :
    Safe (converse opening rest) := by
  intro session haccepts
  rw [run_converse]
  split <;> exact haccepts

end Safety

/-! ## Functions -/

section Functions

variable {session : Session} {destination : String}

/-- Creating a file is safe, for every kind: a change with a record, or the refusal of a kind that
is not known. -/
theorem safe_createFile (kind path : String) : Safe (createFile [kind, path]) := by
  simp only [createFile]
  split
  · exact .bind (.changeFiles _ _) fun _ => .record _
  · split
    · exact .bind (.changeFiles _ _) fun _ => .record _
    · exact .bind (.refuse _) fun _ => .record _

/-- Modifying a file is safe: it is a change of files with a record after it, and both steps are
safe. -/
theorem safe_modifyFile (path content : String) : Safe (modifyFile [path, content]) :=
  .bind (.changeFiles _ _) fun _ => .record _

/-- Deleting is safe: what is no file and no directory is refused, and so is what the host does not
find. -/
theorem safe_deleteFile (path : String) : Safe (deleteFile [path]) := by
  rw [deleteFile]
  refine .bind .get fun session => ?_
  split
  · exact .bind (.refuse _) fun _ => .record _
  · exact .bind (.changeFiles _ _) fun _ => .record _
  · exact .bind (.changeFiles _ _) fun _ => .record _
  · exact .bind (.refuse _) fun _ => .record _

/-- A command with a first word is launched and recorded, or refused. Without a first word there
would be no program to record. -/
theorem safe_spawn (name : String) (arguments : List String) :
    Safe (spawn (name :: arguments)) := by
  intro session haccepts
  rw [spawn, run_bind_of_ok (run_get session)]
  cases session.world.launcher.launch (name :: arguments) with
  | mk result launcher =>
    cases result with
    | error refusal => exact haccepts
    | ok pid => exact Safe.record _ ⟨{ session.world with launcher := launcher }, _⟩ haccepts

/-- Joining texts is safe for any number of arguments. It touches nothing of the session. -/
theorem safe_join (arguments : List String) : Safe (join arguments) := fun _ h => h

/-- Printing is safe, also with a number of arguments that it is not called with. It writes to the
output and touches nothing else. -/
theorem safe_print (arguments : List String) : Safe (print arguments) := fun _ h => h

/-- A destination is an endpoint, or malformed, which is told, or its port is unreadable. The last
is the only step of any function that can crash with a sink that takes records. -/
theorem Safe.endpoint (h : ¬UnreadablePort destination) : Safe (endpoint destination) := by
  intro session haccepts
  cases hread : Endpoint.read destination with
  | ok target =>
    rw [run_endpoint_of_ok hread]
    exact haccepts
  | error fault =>
    cases fault with
    | malformed text =>
      rw [run_endpoint_of_error hread]
      exact haccepts
    | port fault => exact absurd (exists_port_fault_iff.1 ⟨fault, hread⟩) h

/-- A call that is given an unreadable port before it has done anything. -/
inductive MeetsUnreadablePort : String → List String → Prop where
  | transmit {protocol destination message : String} :
      protocol = "tcp" ∨ protocol = "udp" → UnreadablePort destination →
      MeetsUnreadablePort "network.transmit" [protocol, destination, message]

/-- Only transmissions meet unreadable ports, since no other function is given a destination. -/
theorem MeetsUnreadablePort.name_eq {name : String} {arguments : List String}
    (h : MeetsUnreadablePort name arguments) : name = "network.transmit" := by
  cases h
  rfl

/-- A transmission is safe unless it meets an unreadable port. The host of a packet may be no
address, but that is told. -/
theorem safe_transmit (protocol destination message : String)
    (h : ¬MeetsUnreadablePort "network.transmit" [protocol, destination, message]) :
    Safe (transmit [protocol, destination, message]) := by
  rw [transmit]
  split
  · next htcp =>
    have hport : ¬UnreadablePort destination := fun hport => h (.transmit (.inl htcp) hport)
    exact .bind (.endpoint hport) fun target =>
      .bind (.converse _ _) fun _ => .bind .get fun _ => .record _
  · split
    · next hudp =>
      have hport : ¬UnreadablePort destination := fun hport => h (.transmit (.inr hudp) hport)
      refine .bind (.endpoint hport) fun target => ?_
      split
      · exact .refuse _
      · exact .bind (.converse _ _) fun _ => .bind .get fun _ => .record _
    · exact .refuse _

/-- A transmission to an unreadable port crashes and changes nothing: the port is read before the
network is called and before anything is recorded. -/
theorem run_transmit_of_unreadablePort {arguments : List String}
    (h : MeetsUnreadablePort "network.transmit" arguments) (session : Session) :
    ∃ fault,
      (transmit arguments).run.run session = (.error (.crashed (.number fault)), session) := by
  cases h with
  | transmit hprotocol hport =>
    obtain ⟨fault, hread⟩ := exists_port_fault_iff.2 hport
    refine ⟨fault, ?_⟩
    rcases hprotocol with rfl | rfl
    · exact run_bind_of_error (run_endpoint_of_error hread)
    · exact run_bind_of_error (run_endpoint_of_error hread)

end Functions

/-! ## Calls -/

section Calls

variable {session : Session} {entry : Script.Entry (Native Session)} {arguments : List String}

/-- What a call that the registry admits comes to: it is safe, or it meets an unreadable port, and
then it crashes and changes nothing. Each function is looked at with the arguments it can be
given. -/
theorem call_cases (hadmits : natives.Admits entry arguments.length) :
    (¬MeetsUnreadablePort entry.name arguments ∧ Safe (entry.body arguments)) ∨
    MeetsUnreadablePort entry.name arguments ∧ ∀ session, ∃ fault,
      (entry.body arguments).run.run session = (.error (.crashed (.number fault)), session) := by
  have hother : entry.name ≠ "network.transmit" → ¬MeetsUnreadablePort entry.name arguments :=
    fun hname hport => hname hport.name_eq
  obtain ⟨hfind, hcount⟩ := hadmits
  have hentry := List.mem_of_find?_eq_some hfind
  simp only [natives_entries, List.mem_cons, List.not_mem_nil, or_false] at hentry
  rcases hentry with rfl | rfl | rfl | rfl | rfl | rfl | rfl
  · obtain ⟨kind, path, rfl⟩ := List.length_eq_two.1 (by simpa using hcount)
    exact .inl ⟨hother (by decide), safe_createFile kind path⟩
  · obtain ⟨path, content, rfl⟩ := List.length_eq_two.1 (by simpa using hcount)
    exact .inl ⟨hother (by decide), safe_modifyFile path content⟩
  · obtain ⟨path, rfl⟩ := List.length_eq_one_iff.1 (by simpa using hcount)
    exact .inl ⟨hother (by decide), safe_deleteFile path⟩
  · cases arguments with
    | nil => simp at hcount
    | cons name arguments => exact .inl ⟨hother (by decide), safe_spawn name arguments⟩
  · obtain ⟨protocol, destination, message, rfl⟩ :=
      List.length_eq_three.1 (by simpa using hcount)
    by_cases hport : MeetsUnreadablePort "network.transmit" [protocol, destination, message]
    · exact .inr ⟨hport, run_transmit_of_unreadablePort hport⟩
    · exact .inl ⟨hport, safe_transmit protocol destination message hport⟩
  · exact .inl ⟨hother (by decide), safe_join arguments⟩
  · exact .inl ⟨hother (by decide), safe_print arguments⟩

/-- A call leaves a sink that takes records, also when it crashes. So what holds of the first call
of a script holds of the next one. -/
theorem accepts_call (hadmits : natives.Admits entry arguments.length)
    (h : session.sink.Accepts) : (entry.invocation arguments session).after.sink.Accepts := by
  unfold Script.Entry.invocation
  rcases call_cases hadmits with ⟨-, hsafe⟩ | ⟨-, hcrash⟩
  · exact (hsafe session h).accepts
  · obtain ⟨fault, hrun⟩ := hcrash session
    rw [hrun]
    exact h

/-- A call crashes if and only if it meets an unreadable port, in whatever world it is made. The
sink must take records, as it does in an execution. -/
theorem crashed_iff (hadmits : natives.Admits entry arguments.length)
    (h : session.sink.Accepts) :
    (∃ crash, (entry.invocation arguments session).result = .error (.crashed crash)) ↔
      MeetsUnreadablePort entry.name arguments := by
  unfold Script.Entry.invocation
  rcases call_cases hadmits with ⟨hport, hsafe⟩ | ⟨hport, hcrash⟩
  · constructor
    · rintro ⟨crash, hresult⟩
      exact absurd hresult ((hsafe session h).ne_crashed crash)
    · exact fun hmeets => absurd hmeets hport
  · obtain ⟨fault, hrun⟩ := hcrash session
    exact ⟨fun _ => hport, fun _ => ⟨.number fault, by rw [hrun]⟩⟩

/-- The calls of an execution crash if and only if they meet an unreadable port. That the sink takes
records is kept by every call, so it holds when each call is made. -/
theorem crashed_iff_of_mem_history (source : Script.Source) (file : Option String)
    (h : session.sink.Accepts) :
    ∀ call ∈ Script.history natives source file session,
      (∃ crash, call.result = .error (.crashed crash)) ↔
        MeetsUnreadablePort call.entry.name call.arguments := by
  have hkeeps : natives.Keeps fun traced => traced.state.sink.Accepts ∧
      ∀ call ∈ traced.calls, (∃ crash, call.result = .error (.crashed crash)) ↔
        MeetsUnreadablePort call.entry.name call.arguments := by
    rintro entry arguments hadmits traced ⟨haccepts, hcalls⟩
    refine ⟨accepts_call hadmits haccepts, fun call hmem => ?_⟩
    rcases List.mem_append.1 hmem with hmem | hmem
    · exact hcalls call hmem
    · rw [List.mem_singleton.1 hmem]
      exact crashed_iff hadmits haccepts
  exact (hkeeps.execute source file Script.Scope.empty
    ⟨h, fun call hmem => absurd hmem List.not_mem_nil⟩).2

/-- **Functions return or refuse, unless a port is unreadable.** With a sink that takes records, a
call with as many arguments as its function takes returns a text or refuses, in every world. The
one exception is a transmission to an unreadable port, which always crashes. So a script is executed
to its end or told what it did wrong if and only if none of its calls meets an unreadable port. -/
theorem refuses_or_returns (session : Session) (h : session.sink.Accepts) :
    (∀ entry arguments, natives.Admits entry arguments.length →
      match ((entry.body arguments).run.run session).1 with
      | .ok _ | .error (.refused _) => ¬MeetsUnreadablePort entry.name arguments
      | .error (.crashed crash) =>
        MeetsUnreadablePort entry.name arguments ∧ ∃ fault, crash = .number fault) ∧
    ∀ s file scope,
      ((Script.execute natives (.text s) file scope session).fault? = none ∨
        ∃ diagnostic, (Script.execute natives (.text s) file scope session).fault?
          = some (.script diagnostic)) ↔
      ∀ call ∈ Script.history natives (.text s) file session,
        ¬MeetsUnreadablePort call.entry.name call.arguments := by
  constructor
  · intro entry arguments hadmits
    rcases call_cases hadmits with ⟨hport, hsafe⟩ | ⟨hport, hcrash⟩
    · split
      · exact hport
      · exact hport
      · next crash hresult => exact absurd hresult ((hsafe session h).ne_crashed crash)
    · obtain ⟨fault, hrun⟩ := hcrash session
      rw [hrun]
      exact ⟨hport, fault, rfl⟩
  · intro s file scope
    have hhistory := crashed_iff_of_mem_history (.text s) file h
    rw [Script.fault_of_history]
    constructor
    · intro hcalls call hmem hport
      obtain ⟨crash, hcrash⟩ := (hhistory call hmem).2 hport
      exact hcalls call hmem crash hcrash
    · intro hcalls call hmem crash hcrash
      exact hcalls call hmem ((hhistory call hmem).1 ⟨crash, hcrash⟩)

/-- A port beyond the largest one is refused, so it is no unreadable one, neither for the call nor
for a script. -/
theorem refuses_or_returns_largePort :
    ∃ (session : Session) (entry : Script.Entry (Native Session)),
      session.sink.Accepts ∧ natives.Admits entry ["tcp", "host:70000", "x"].length ∧
      ((entry.body ["tcp", "host:70000", "x"]).run.run session).1
        = .error (.refused "invalid socket address syntax: host:70000") ∧
      ¬MeetsUnreadablePort entry.name ["tcp", "host:70000", "x"] ∧
      ∀ call ∈ Script.history natives (.text "network.transmit :tcp \"host:70000\" :x") none
          session,
        ¬MeetsUnreadablePort call.entry.name call.arguments := by
  let session : Session := .holding .fresh
  let entry : Script.Entry (Native Session) :=
    ⟨"network.transmit", ["protocol", "dest", "message"], ⟨3, false⟩, transmit⟩
  have hadmits : natives.Admits entry ["tcp", "host:70000", "x"].length := ⟨rfl, .inl rfl⟩
  have hresult : ((entry.body ["tcp", "host:70000", "x"]).run.run session).1
      = .error (.refused "invalid socket address syntax: host:70000") := by
    decide +kernel
  have htold : (Script.execute natives (.text "network.transmit :tcp \"host:70000\" :x") none
      .empty session).fault?
      = some (.script
        ⟨.activityFailed "invalid socket address syntax: host:70000", ⟨0, 0, none⟩⟩) := by
    decide +kernel
  obtain ⟨hcalls, hscripts⟩ := refuses_or_returns session trivial
  have hport := hcalls entry ["tcp", "host:70000", "x"] hadmits
  rw [hresult] at hport
  exact ⟨session, entry, trivial, hadmits, hresult, hport,
    (hscripts _ none .empty).1 (.inr ⟨_, htold⟩)⟩

/-- A superscript is a digit, but not of a number: a transmission to such a port crashes although
the network is in order and the sink takes records, and the script crashes with it. -/
theorem transmit_crashes :
    ∃ (session : Session) (entry : Script.Entry (Native Session)),
      session.sink.Accepts ∧ natives.Admits entry ["tcp", "host:²", "x"].length ∧
      ((entry.body ["tcp", "host:²", "x"]).run.run session).1
        = .error (.crashed (.number (.unreadable 10 ['²']))) ∧
      (Script.execute natives (.text "network.transmit :tcp \"host:²\" :x") none .empty
        session).fault? = some (.crashed (.number (.unreadable 10 ['²']))) := by
  let session : Session := .holding .fresh
  let entry : Script.Entry (Native Session) :=
    ⟨"network.transmit", ["protocol", "dest", "message"], ⟨3, false⟩, transmit⟩
  refine ⟨session, entry, trivial, ⟨rfl, .inl rfl⟩, ?_, ?_⟩
  · decide +kernel
  · decide +kernel

end Calls

end ActivityScript.Activity
