import ActivityScript.Proofs.Activity.FileChanges
import Mathlib.Data.List.Induction
import Mathlib.Logic.Function.Basic

/-!
# Lifetimes of logs

Any number of logs at one path are opened, appended to and closed in any order (`Logs.run`). Which
of them are open is a matter of the calls alone (`isOpenAfter`), and so is what they accept
(`accepted`). `log_file_eq_accepted` says that the file holds what it held at first, followed by
lines that are read as what was accepted, and what is answered to a call that comes at the wrong
time. `record_lines_lossless` says of the lines themselves that nothing is lost in them.

All of it follows from how the state after some calls is tied to these calls (`Tracks`), which one
more call preserves (`Tracks.step`).
-/

namespace ActivityScript.Activity

open Host
open Text (Utf8.decode Utf8.encode separated)

/-! ## Calls of logs -/

/-- What can be asked of a log. -/
inductive LogCall where
  | opening
  | appending (now : Instant) (event : Event)
  | closing
  deriving DecidableEq

/-- What a log answers. -/
inductive LogAnswer where
  | done
  | refused (fault : FileFault)
  | crashed (crash : Script.Crash)

/-- Files, and logs with a number each. -/
structure Logs where
  files : FileSystem
  log : Nat → Log

namespace Logs

/-- Logs at one path, none of which has been opened. -/
def ofPath (path : String) (identity : Nat → Identity) (files : FileSystem) : Logs :=
  ⟨files, fun i => Log.ofPath path (identity i)⟩

/-- A call of one of the logs. -/
def step (state : Logs) (i : Nat) : LogCall → LogAnswer × Logs
  | .opening =>
    match (state.log i).openOn state.files with
    | .ok (log, files) => (.done, ⟨files, Function.update state.log i log⟩)
    | .error fault => (.refused fault, state)
  | .appending now event =>
    match (state.log i).append now event state.files with
    | .ok files => (.done, ⟨files, state.log⟩)
    | .error crash => (.crashed crash, state)
  | .closing => (.done, ⟨state.files, Function.update state.log i (state.log i).close⟩)

/-- One call after the other. -/
def run (state : Logs) (calls : List (Nat × LogCall)) : Logs :=
  calls.foldl (fun state call => (state.step call.1 call.2).2) state

end Logs

/-! ## What calls come to -/

/-- Whether a call opens or closes a log: `true` if it opens it. -/
def opens? (i : Nat) : Nat × LogCall → Option Bool
  | (j, .opening) => if j = i then some true else none
  | (j, .closing) => if j = i then some false else none
  | (_, .appending ..) => none

/-- Whether a log is open after some calls: of those that open or close it, the last opens it. -/
def isOpenAfter (i : Nat) (calls : List (Nat × LogCall)) : Bool :=
  ((calls.filterMap (opens? i)).getLast?).getD false

/-- What a call appends after some others: nothing unless its log is open. -/
def acceptedBy (past : List (Nat × LogCall)) : Nat × LogCall → List (Nat × Instant × Event)
  | (i, .appending now event) => if isOpenAfter i past then [(i, now, event)] else []
  | _ => []

/-- What is appended by calls after some others, each with the number of its log. -/
def accepted (past : List (Nat × LogCall)) : List (Nat × LogCall) → List (Nat × Instant × Event)
  | [] => []
  | call :: calls => acceptedBy past call ++ accepted (past ++ [call]) calls

/-- The record of something that is appended. It has the identity of its log. -/
def acceptedRecord (identity : Nat → Identity) : Nat × Instant × Event → Record
  | (i, now, event) => ⟨now.seconds, identity i, event⟩

/-- The line of something that is appended. -/
def acceptedLine (identity : Nat → Identity) (entry : Nat × Instant × Event) : List UInt8 :=
  Utf8.encode (acceptedRecord identity entry).line

/-- The lines of what is appended are read as the records of it. They may come from several logs,
and each has the identity of its own. -/
theorem readsAs_acceptedLine (identity : Nat → Identity) (entries : List (Nat × Instant × Event)) :
    ReadsAs (entries.flatMap (acceptedLine identity)) (entries.map (acceptedRecord identity)) := by
  have hlines := readsAs_lines (entries.map (acceptedRecord identity))
  rwa [List.flatMap_map] at hlines

section Calls

variable {i j : Nat} {calls past more : List (Nat × LogCall)}

/-- One more call opens or closes a log, or leaves it as it was. The three kinds of calls are looked
at in the lemmas that follow. -/
theorem isOpenAfter_concat (i : Nat) (calls : List (Nat × LogCall)) (call : Nat × LogCall) :
    isOpenAfter i (calls ++ [call]) = (opens? i call).getD (isOpenAfter i calls) := by
  rw [isOpenAfter, List.filterMap_append]
  cases hopens : opens? i call with
  | none => simp [hopens, isOpenAfter]
  | some isOpen => simp [hopens]

/-- A log is open after it was opened, and opening it does nothing to the others. Nothing is said of
whether opening could fail. -/
theorem isOpenAfter_opening (i j : Nat) (calls : List (Nat × LogCall)) :
    isOpenAfter i (calls ++ [(j, .opening)]) = if j = i then true else isOpenAfter i calls := by
  rw [isOpenAfter_concat, opens?]
  split <;> rfl

/-- A log is not open after it was closed, and closing it does nothing to the others. -/
theorem isOpenAfter_closing (i j : Nat) (calls : List (Nat × LogCall)) :
    isOpenAfter i (calls ++ [(j, .closing)]) = if j = i then false else isOpenAfter i calls := by
  rw [isOpenAfter_concat, opens?]
  split <;> rfl

/-- Appending neither opens nor closes a log, whether it succeeds or not. -/
theorem isOpenAfter_appending (i j : Nat) (calls : List (Nat × LogCall)) (now : Instant)
    (event : Event) :
    isOpenAfter i (calls ++ [(j, .appending now event)]) = isOpenAfter i calls :=
  isOpenAfter_concat i calls _

/-- A log that is open has been opened. So the file is there, since opening makes it if it is
missing. -/
theorem mem_of_isOpenAfter (h : isOpenAfter i calls = true) : (i, .opening) ∈ calls := by
  induction calls using List.reverseRecOn with
  | nil => cases h
  | append_singleton calls call ih =>
    obtain ⟨j, call⟩ := call
    cases call with
    | opening =>
      rw [isOpenAfter_opening] at h
      split at h
      · next hji => simp [hji]
      · exact List.mem_append_left _ (ih h)
    | appending now event =>
      rw [isOpenAfter_appending] at h
      exact List.mem_append_left _ (ih h)
    | closing =>
      rw [isOpenAfter_closing] at h
      split at h
      · cases h
      · exact List.mem_append_left _ (ih h)

/-- What is accepted by calls in two parts is what the first part accepts and then what the second
accepts after it. Nothing that was accepted is taken back. -/
theorem accepted_append (past calls more : List (Nat × LogCall)) :
    accepted past (calls ++ more) = accepted past calls ++ accepted (past ++ calls) more := by
  induction calls generalizing past with
  | nil => simp [accepted]
  | cons call calls ih => simp [accepted, ih]

/-- One more call adds what it appends, and that depends on which logs are open after the calls
before it. -/
theorem accepted_concat (calls : List (Nat × LogCall)) (call : Nat × LogCall) :
    accepted [] (calls ++ [call]) = accepted [] calls ++ acceptedBy calls call := by
  simp [accepted_append, accepted]

/-- Opening a log appends nothing, so what was accepted before is all that was accepted. -/
theorem accepted_opening (i : Nat) (calls : List (Nat × LogCall)) :
    accepted [] (calls ++ [(i, .opening)]) = accepted [] calls :=
  (accepted_concat calls _).trans (List.append_nil _)

end Calls

/-! ## What calls leave behind -/

section Tracks

variable {path name : String} {identity : Nat → Identity} {directory : Place} {number i : Nat}
  {initial : List UInt8} {calls : List (Nat × LogCall)} {state : Logs} {now : Instant}
  {event : Event}

/-- The state after calls of logs at a path. The file is there with what it held at first and the
lines of what was accepted, or nothing has been opened yet and the file is missing. -/
structure Tracks (path : String) (identity : Nat → Identity) (directory : Place) (name : String)
    (number : Nat) (initial : List UInt8) (calls : List (Nat × LogCall)) (state : Logs) :
    Prop where
  no_null : '\x00' ∉ path.toList
  opens : state.files.Opens path directory name
  log : ∀ i, state.log i
    = ⟨path, identity i, if isOpenAfter i calls then some (.file number) else none⟩
  file : state.files.get? (directory ++ [name])
      = some (.file number (initial ++ (accepted [] calls).flatMap (acceptedLine identity))) ∨
    state.files.get? (directory ++ [name]) = none ∧ state.files.unused = number ∧ initial = [] ∧
      accepted [] calls = [] ∧ ∀ i, (i, .opening) ∉ calls

namespace Tracks

section

variable (h : Tracks path identity directory name number initial calls state)

include h

/-- Whether a log is open can be told from the calls alone. The state has a handle for it exactly
then. -/
theorem isOpen_eq (i : Nat) :
    (state.log i).isOpen = isOpenAfter i calls := by
  rw [h.log, Log.isOpen]
  cases isOpenAfter i calls <;> rfl

/-- A file that is missing has not been opened. So after a log was opened, the file is there with
what it held and what was accepted. -/
theorem file_of_mem (hmem : (i, .opening) ∈ calls) :
    state.files.get? (directory ++ [name])
      = some (.file number (initial ++ (accepted [] calls).flatMap (acceptedLine identity))) :=
  h.file.resolve_right fun hmissing => hmissing.2.2.2.2 i hmem

/-- A call that neither opens nor appends anything leaves the file as it is, and a missing file is
still missing. -/
theorem file_concat (i : Nat) {call : LogCall} (hcall : call ≠ .opening)
    (haccepted : acceptedBy calls (i, call) = []) :
    state.files.get? (directory ++ [name]) = some (.file number
      (initial ++ (accepted [] (calls ++ [(i, call)])).flatMap (acceptedLine identity))) ∨
    state.files.get? (directory ++ [name]) = none ∧ state.files.unused = number ∧ initial = [] ∧
      accepted [] (calls ++ [(i, call)]) = [] ∧ ∀ j, (j, .opening) ∉ calls ++ [(i, call)] := by
  rw [accepted_concat, haccepted, List.append_nil]
  refine h.file.imp_right fun ⟨hmissing, hunused, hinitial, hnone, hopening⟩ =>
    ⟨hmissing, hunused, hinitial, hnone, fun j hmem => ?_⟩
  rcases List.mem_append.1 hmem with hmem | hmem
  · exact hopening j hmem
  · cases List.mem_singleton.1 hmem
    exact hcall rfl

/-- What the path holds is what it held at first and the lines of what was accepted. A missing file
counts as an empty one. -/
theorem held_eq :
    state.files.held path = initial ++ (accepted [] calls).flatMap (acceptedLine identity) := by
  rcases h.file with hfile | ⟨hmissing, -, hinitial, haccepted, -⟩
  · rw [FileSystem.held, FileSystem.contentAt_of_opens h.opens hfile]
    rfl
  · rw [FileSystem.held_of_opens_none h.opens hmissing, hinitial, haccepted]
    rfl

/-! ### Answers -/

/-- To open a log that is open changes nothing and succeeds. In particular, the file is not opened a
second time. -/
theorem step_opening_of_isOpen (hopen : isOpenAfter i calls = true) :
    state.step i .opening = (.done, state) := by
  have hlog := h.log i
  rw [if_pos hopen] at hlog
  simp only [Logs.step, Log.openOn, hlog]
  rw [← hlog, Function.update_eq_self]

/-- A log that is not open opens the file that is there, or makes it. It gets a handle of the same
number as all other logs at this path. -/
theorem step_opening_of_not_isOpen (hopen : isOpenAfter i calls = false) :
    ∃ files, state.step i .opening
        = (.done, ⟨files, Function.update state.log i ⟨path, identity i, some (.file number)⟩⟩) ∧
      state.files.ChangesFiles files ∧
      files.get? (directory ++ [name])
        = some (.file number (initial ++ (accepted [] calls).flatMap (acceptedLine identity))) := by
  have hlog := h.log i
  rw [hopen] at hlog
  have hstep : ∀ files, state.files.openAppend path = .ok (.file number, files) →
      state.step i .opening = (.done,
        ⟨files, Function.update state.log i ⟨path, identity i, some (.file number)⟩⟩) := by
    intro files hfiles
    have hrequest := request_eq_ok_iff.2 ⟨h.no_null, hfiles⟩
    simp only [Logs.step, Log.openOn, hlog]
    simp [hrequest, bind, Except.bind, pure, Except.pure]
  rcases h.file with hfile | ⟨hmissing, rfl, rfl, haccepted, -⟩
  · refine ⟨state.files, hstep _ (FileSystem.openAppend_of_file h.opens hfile), ⟨rfl, ?_⟩, hfile⟩
    exact fun place => .inl rfl
  · refine ⟨_, hstep _ (FileSystem.openAppend_of_none h.opens hmissing), ?_, ?_⟩
    · rw [← FileSystem.rewritten_of_none hmissing]
      exact FileSystem.changesFiles_rewritten state.files (directory ++ [name]) []
    · rw [haccepted]
      exact FileSystem.get?_addFile_self hmissing

/-- To append to a log that is open adds its line to the file, and always succeeds. -/
theorem step_appending_of_isOpen (hopen : isOpenAfter i calls = true) :
    state.step i (.appending now event) = (.done,
      ⟨state.files.append number (acceptedLine identity (i, now, event)), state.log⟩) := by
  have hlog := h.log i
  rw [if_pos hopen] at hlog
  simp only [Logs.step, Log.append, hlog]
  rfl

/-- To append to a log that is not open is an error that names the path, and it changes nothing. -/
theorem step_appending_of_not_isOpen (hopen : isOpenAfter i calls = false) :
    state.step i (.appending now event) = (.crashed (.logNotOpen path), state) := by
  have hlog := h.log i
  rw [hopen] at hlog
  simp only [Logs.step, Log.append, hlog]
  rfl

/-- To close a log that is not open changes nothing and succeeds, however often it is done. -/
theorem step_closing_of_not_isOpen (hopen : isOpenAfter i calls = false) :
    state.step i .closing = (.done, state) := by
  have hlog := h.log i
  rw [hopen] at hlog
  have hclose : (state.log i).close = state.log i := by rw [hlog]; rfl
  rw [Logs.step, hclose, Function.update_eq_self]

/-- Nothing but appending to a log that is not open fails. Opening cannot fail, because the path
could be opened at first and no call is in its way. -/
theorem step_answer {call : LogCall}
    (hcall : ∀ now event, call = .appending now event → isOpenAfter i calls = true) :
    (state.step i call).1 = .done := by
  cases call with
  | opening =>
    cases hopen : isOpenAfter i calls with
    | true => rw [h.step_opening_of_isOpen hopen]
    | false =>
      obtain ⟨files, hstep, -⟩ := h.step_opening_of_not_isOpen hopen
      rw [hstep]
  | appending now event => rw [h.step_appending_of_isOpen (hcall now event rfl)]
  | closing => rfl

/-! ### One more call -/

/-- One more call keeps the state tied to the calls. There is one case for each kind of call and for
whether its log is open. -/
theorem step (i : Nat) (call : LogCall) :
    Tracks path identity directory name number initial (calls ++ [(i, call)])
      (state.step i call).2 := by
  cases call with
  | opening =>
    cases hopen : isOpenAfter i calls with
    | true =>
      rw [h.step_opening_of_isOpen hopen]
      refine ⟨h.no_null, h.opens, fun j => ?_, .inl ?_⟩
      · have hsame : isOpenAfter j (calls ++ [(i, .opening)]) = isOpenAfter j calls := by
          rw [isOpenAfter_opening]
          split
          · next hij => rw [← hij, hopen]
          · rfl
        rw [hsame]
        exact h.log j
      · rw [accepted_opening]
        exact h.file_of_mem (mem_of_isOpenAfter hopen)
    | false =>
      obtain ⟨files, hstep, hchanges, hfile⟩ := h.step_opening_of_not_isOpen hopen
      rw [hstep]
      refine ⟨h.no_null, h.opens.of_changesFiles hchanges, fun j => ?_, .inl ?_⟩
      · rw [isOpenAfter_opening]
        by_cases hij : i = j
        · subst hij
          simp
        · simp [Function.update_of_ne (Ne.symm hij), if_neg hij, h.log j]
      · rw [accepted_opening]
        exact hfile
  | appending now event =>
    cases hopen : isOpenAfter i calls with
    | true =>
      rw [h.step_appending_of_isOpen hopen]
      have hchanges := FileSystem.changesFiles_appendTo state.files (.file number)
        (acceptedLine identity (i, now, event))
      refine ⟨h.no_null, h.opens.of_changesFiles hchanges, fun j => ?_, .inl ?_⟩
      · rw [isOpenAfter_appending]
        exact h.log j
      · rw [accepted_concat, acceptedBy, if_pos hopen, List.flatMap_append, List.flatMap_singleton,
          ← List.append_assoc]
        exact FileSystem.get?_append (h.file_of_mem (mem_of_isOpenAfter hopen)) _
    | false =>
      rw [h.step_appending_of_not_isOpen hopen]
      refine ⟨h.no_null, h.opens, fun j => ?_, h.file_concat i (by simp) ?_⟩
      · rw [isOpenAfter_appending]
        exact h.log j
      · rw [acceptedBy, hopen]
        rfl
  | closing =>
    refine ⟨h.no_null, h.opens, fun j => ?_, h.file_concat i (by simp) rfl⟩
    rw [isOpenAfter_closing, Logs.step]
    by_cases hij : i = j
    · subst hij
      simp [Log.close, h.log i]
    · simp [Function.update_of_ne (Ne.symm hij), if_neg hij, h.log j]

end

/-- Any number of further calls keep the state tied to the calls. This is the induction over
`Tracks.step`. -/
theorem run (h : Tracks path identity directory name number initial calls state)
    (more : List (Nat × LogCall)) :
    Tracks path identity directory name number initial (calls ++ more) (state.run more) := by
  induction more generalizing calls state with
  | nil => rwa [List.append_nil]
  | cons call more ih =>
    have hstep := ih (h.step call.1 call.2)
    rwa [List.append_assoc] at hstep

end Tracks

/-- Logs that have not been called are as the file is: none is open, nothing was accepted, and the
file holds what it held at first or is missing. -/
theorem exists_tracks {files opened : FileSystem} (identity : Nat → Identity)
    (h : request (Path.normal path) (files.openAppend (Path.normal path))
      = .ok (.file number, opened)) :
    ∃ directory name, Tracks (Path.normal path) identity directory name number
      (files.held (Path.normal path)) [] (Logs.ofPath path identity files) := by
  obtain ⟨hnull, hopen⟩ := request_eq_ok_iff.1 h
  obtain ⟨directory, name, hopens, hfile⟩ := FileSystem.exists_opens_of_openAppend hopen
  refine ⟨directory, name, hnull, hopens, fun _ => rfl, ?_⟩
  rcases hfile with ⟨hmissing, hunused⟩ | ⟨content, hget⟩
  · exact .inr ⟨hmissing, hunused, FileSystem.held_of_opens_none hopens hmissing, rfl,
      fun _ => List.not_mem_nil⟩
  · left
    rw [FileSystem.held, FileSystem.contentAt_of_opens hopens hget]
    exact hget.trans (by simp [accepted, Except.toOption])

/-- **Lifetimes of logs.** Any number of logs at one path are opened, appended to and closed in any
order. The path can be opened and leads to a regular file or to nothing. Then the file holds what it
held at first, followed by one line for each call that came while its log was open. What follows is
a text of whole lines, and these are read as the records of these calls, in order, each with the
time of its call, the identity of its log and its event. The file is there once a log has been
opened. A log is open if it was opened after it was last closed. To append to a log that is not open
is an error and changes nothing, nor does it change anything to open an open log or to close a
closed one. All other calls succeed. Whatever is called next, the bytes that are there stay where
they are. -/
theorem log_file_eq_accepted (path : String) (identity : Nat → Identity)
    (files opened : FileSystem) (number : Nat)
    (hopens : request (Path.normal path) (files.openAppend (Path.normal path))
      = .ok (.file number, opened))
    (calls : List (Nat × LogCall)) (state : Logs)
    (hstate : (Logs.ofPath path identity files).run calls = state) :
    state.files.held (Path.normal path)
      = files.held (Path.normal path) ++ (accepted [] calls).flatMap (acceptedLine identity) ∧
    (∃ text, Utf8.decode ((accepted [] calls).flatMap (acceptedLine identity)) = .ok text ∧
      (text = [] ∨ text.getLast? = some '\n') ∧
      (separated '\n' text).mapM Record.read?
        = some ((accepted [] calls).map (acceptedRecord identity))) ∧
    (∀ i, (i, .opening) ∈ calls → state.files.contentAt (Path.normal path)
      = .ok (state.files.held (Path.normal path))) ∧
    (∀ i, (state.log i).isOpen = isOpenAfter i calls ∧ (state.log i).identity = identity i) ∧
    (∀ i now event, isOpenAfter i calls = false →
      state.step i (.appending now event)
        = (.crashed (.logNotOpen (Path.normal path)), state)) ∧
    (∀ i, isOpenAfter i calls = true → state.step i .opening = (.done, state)) ∧
    (∀ i, isOpenAfter i calls = false → state.step i .closing = (.done, state)) ∧
    (∀ i call, (∀ now event, call = .appending now event → isOpenAfter i calls = true) →
      (state.step i call).1 = .done) ∧
    ∀ more, state.files.held (Path.normal path)
      <+: (state.run more).files.held (Path.normal path) := by
  obtain ⟨directory, name, hstart⟩ := exists_tracks identity hopens
  have h := hstart.run calls
  rw [hstate, List.nil_append] at h
  refine ⟨h.held_eq, readsAs_acceptedLine identity _, fun i hmem => ?_,
    fun i => ⟨h.isOpen_eq i, by rw [h.log i]⟩,
    fun i now event hopen => h.step_appending_of_not_isOpen hopen,
    fun i hopen => h.step_opening_of_isOpen hopen,
    fun i hopen => h.step_closing_of_not_isOpen hopen, fun i call hcall => ?_, fun more => ?_⟩
  · rw [h.held_eq]
    exact FileSystem.contentAt_of_opens h.opens (h.file_of_mem hmem)
  · exact h.step_answer hcall
  · rw [h.held_eq, (h.run more).held_eq, accepted_append, List.flatMap_append, ← List.append_assoc]
    exact List.prefix_append _ _

/-- The file is missing at first. One log is opened twice and closed, and another one is opened
after it. What the first is given before it is opened and after it is closed is not in the file, and
the two lines of it are read as the rest. -/
theorem log_file_eq_accepted_missing :
    let files : FileSystem := ⟨[], [], 0⟩
    let identity : Nat → Identity := fun i => ⟨i, "runner", [], "root"⟩
    let event : Event := .file "/a" "create"
    let calls : List (Nat × LogCall) :=
      [(0, .appending ⟨5, 0⟩ event), (0, .opening), (0, .opening), (0, .appending ⟨6, 0⟩ event),
        (0, .closing), (1, .opening), (0, .appending ⟨7, 0⟩ event), (1, .appending ⟨8, 0⟩ event)]
    let state := (Logs.ofPath "log" identity files).run calls
    request (Path.normal "log") (files.openAppend (Path.normal "log"))
        = .ok (.file 0, files.addFile ["log"] []) ∧
      (∃ text, Utf8.decode (state.files.held (Path.normal "log")) = .ok text ∧
        (separated '\n' text).mapM Record.read?
          = some [⟨6, identity 0, event⟩, ⟨8, identity 1, event⟩]) ∧
      state.step 0 (.appending ⟨9, 0⟩ event)
        = (.crashed (.logNotOpen (Path.normal "log")), state) := by
  intro files identity event calls state
  have hopens : request (Path.normal "log") (files.openAppend (Path.normal "log"))
      = .ok (.file 0, files.addFile ["log"] []) := by
    decide +kernel
  have hempty : files.held (Path.normal "log") = [] := by
    decide +kernel
  have haccepted : (accepted [] calls).map (acceptedRecord identity)
      = [⟨6, identity 0, event⟩, ⟨8, identity 1, event⟩] := by
    decide
  obtain ⟨hheld, ⟨text, hdecode, -, hread⟩, -, -, hclosed, -⟩ :=
    log_file_eq_accepted "log" identity files _ 0 hopens calls state rfl
  rw [hempty, List.nil_append] at hheld
  exact ⟨hopens, ⟨text, hheld ▸ hdecode, hread.trans (congrArg some haccepted)⟩,
    hclosed 0 ⟨9, 0⟩ event (by decide)⟩

/-! ## Lines without loss -/

/-- **Lines of records lose nothing.** A record is written as one line in ASCII, with its only line
feed at the end, and both its JSON value and the record itself are read back from this line. So
different records have different lines, and a sequence of lines is read back as the records in it.
In particular, a file that was empty or missing holds exactly what logs have accepted since, if it
is decoded, cut at its line feeds and read line by line. -/
theorem record_lines_lossless :
    (∀ record : Record,
      (∀ c ∈ record.line, c.toNat < 0x80) ∧
      (∃ text, record.line = text ++ ['\n'] ∧ '\n' ∉ text) ∧
      Json.read record.line = some record.toJson ∧
      Record.read? record.line = some record) ∧
    (∀ first second : Record, first ≠ second → first.line ≠ second.line) ∧
    (∀ records : List Record,
      (separated '\n' (records.flatMap Record.line)).mapM Record.read? = some records) ∧
    ∀ (path : String) (identity : Nat → Identity) (files opened : FileSystem) (number : Nat)
      (calls : List (Nat × LogCall)),
      request (Path.normal path) (files.openAppend (Path.normal path))
        = .ok (.file number, opened) →
      files.held (Path.normal path) = [] →
      ∃ text, Utf8.decode (((Logs.ofPath path identity files).run calls).files.held
          (Path.normal path)) = .ok text ∧
        (separated '\n' text).mapM Record.read?
          = some ((accepted [] calls).map (acceptedRecord identity)) := by
  refine ⟨fun record => ⟨fun c hc => Record.ascii_of_mem_line hc,
    ⟨record.toJson.write, rfl, record.newline_notMem_write⟩, record.read_line, record.read?_line⟩,
    fun first second hne hline => hne (Record.line_injective hline),
    Record.mapM_read?_separated, ?_⟩
  intro path identity files opened number calls hopens hempty
  obtain ⟨directory, name, hstart⟩ := exists_tracks identity hopens
  obtain ⟨text, hdecode, -, hread⟩ := readsAs_acceptedLine identity (accepted [] calls)
  have hheld := (hstart.run calls).held_eq
  rw [hempty, List.nil_append, List.nil_append] at hheld
  exact ⟨text, hheld ▸ hdecode, hread⟩

/-- Line feeds, quotation marks, backslashes, control characters and characters beyond the first
plane are in the texts of two records that two logs append to an empty file. -/
theorem record_lines_lossless_escapes :
    let files : FileSystem := ⟨[(["log"], .file 0 [])], [], 1⟩
    let identity : Nat → Identity := fun i => ⟨i, "runner", ["-v", "\x22\\"], "root"⟩
    let first : Event := .file "a\n\x22\\😀" "create"
    let second : Event := .launch "sh" ["\x7f\x01", "\r\n"] (-1)
    let calls : List (Nat × LogCall) :=
      [(0, .opening), (0, .appending ⟨65, 1⟩ first), (1, .opening), (1, .appending ⟨-15, 1⟩ second)]
    request (Path.normal "log") (files.openAppend (Path.normal "log")) = .ok (.file 0, files) ∧
      files.held (Path.normal "log") = [] ∧
      ∃ text, Utf8.decode (((Logs.ofPath "log" identity files).run calls).files.held
          (Path.normal "log")) = .ok text ∧
        (separated '\n' text).mapM Record.read?
          = some [⟨6, identity 0, first⟩, ⟨-1, identity 1, second⟩] := by
  intro files identity first second calls
  have hopens : request (Path.normal "log") (files.openAppend (Path.normal "log"))
      = .ok (.file 0, files) := by
    decide +kernel
  have hempty : files.held (Path.normal "log") = [] := by
    decide +kernel
  have haccepted : (accepted [] calls).map (acceptedRecord identity)
      = [⟨6, identity 0, first⟩, ⟨-1, identity 1, second⟩] := by
    decide
  obtain ⟨text, hdecode, hread⟩ :=
    record_lines_lossless.2.2.2 "log" identity files files 0 calls hopens hempty
  exact ⟨hopens, hempty, text, hdecode, hread.trans (congrArg some haccepted)⟩

end Tracks

end ActivityScript.Activity
