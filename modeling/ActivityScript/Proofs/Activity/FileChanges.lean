import ActivityScript.Proofs.Activity.Refusals
import ActivityScript.Proofs.Host.Writing

/-!
# What file activities change

Creating, modifying and deleting a file is a change of files that the host makes, followed by the
record of it (`changeAndRecord`). If the host refuses, nothing has happened; otherwise the call
leaves the changed files and a record behind (`Leaves`). The record is kept apart from the change,
because the sink may be a log that is itself one of the files.

`file_activities_touch_one_entry` says what the changes are. A file that is created or modified is
the one that the path leads to. A directory that is created and an entry that is deleted stand where
the path names them. Everything else stays as it is.
-/

namespace ActivityScript.Activity

open Host
open Script (Failure Native run_bind_of_ok run_bind_of_error)
open Text (Utf8.encode)

variable {session after : Session} {path content : String} {event : Event} {files : FileSystem}
  {change : FileSystem → Except Errno FileSystem}

/-! ## Records -/

/-- A call leaves other files and the record of an event behind: with these files, the session has
gained the event. The record may itself be in the files, if the sink is a log; otherwise they are
the files after the call. -/
structure Leaves (before : Session) (event : Event) (files : FileSystem) (after : Session) :
    Prop where
  gains : Gains (before.withFiles files) [event] after
  files_eq : before.sink.handle = .sink → after.world.files = files

/-- The record is appended to the files that the call leaves, and further records will be appended
alike. This holds for every kind of sink (`Gains.appended`). -/
theorem Leaves.appended {before : Session} (h : Leaves before event files after) :
    after.world.files
      = files.appendTo before.sink.handle (before.sink.bytes before.world.now event) ∧
    after.sink.handle = before.sink.handle ∧
    ∀ next, after.sink.bytes after.world.now next = before.sink.bytes before.world.now next :=
  h.gains.appended

/-- A record leaves the changed files and its event behind. If the sink appends to no file, the
files after the record are those before it. -/
theorem leaves_of_record (h : (session.withFiles files).record event = .ok after) :
    Leaves session event files after := by
  refine ⟨gains_of_record h, fun hhandle => ?_⟩
  have hfiles := (gains_of_record h).appended.1
  rwa [show (session.withFiles files).sink.handle = .sink from hhandle] at hfiles

/-! ## Changes of files -/

/-- A change of files that the host makes, and the record of it. -/
def changeAndRecord (path : String) (change : FileSystem → Except Errno FileSystem)
    (event : Event) : Action String :=
  changeFiles path change >>= fun _ => record event

/-- A change that the host makes is recorded, if the sink takes records and the path has no null
character. Nothing else could still go wrong. -/
theorem run_changeAndRecord_of_ok (haccepts : session.sink.Accepts) (hnull : '\x00' ∉ path.toList)
    (change : FileSystem → Except Errno FileSystem)
    (hchange : change session.world.files = .ok files) (event : Event) :
    ∃ after, (changeAndRecord path change event).run.run session = (.ok done, after) ∧
      Leaves session event files after ∧ after.sink.Accepts := by
  have hsink : (session.withFiles files).sink.Accepts := haccepts
  obtain ⟨after, hrecord, haccepts'⟩ := exists_record_eq_ok hsink event
  refine ⟨after, ?_, leaves_of_record hrecord, haccepts'⟩
  have hrun := run_changeFiles path change session
  rw [request_eq_ok_iff.2 ⟨hnull, hchange⟩] at hrun
  rw [changeAndRecord, run_bind_of_ok hrun, run_record hrecord]

/-- A change that the host refuses ends the call with the text of the fault, and the session is as
it was. No record is made. -/
theorem run_changeAndRecord_of_error {fault : FileFault}
    (hrequest : request path (change session.world.files) = .error fault) (event : Event) :
    (changeAndRecord path change event).run.run session
      = (.error (.refused fault.text), session) := by
  have hrun := run_changeFiles path change session
  rw [hrequest] at hrun
  exact run_bind_of_error hrun

/-- A change of files is refused, and then nothing has happened, or it is made and recorded. There
is no third case if the sink takes records. -/
theorem run_changeAndRecord_cases (haccepts : session.sink.Accepts) (path : String)
    (change : FileSystem → Except Errno FileSystem) (event : Event) :
    (∃ message, (changeAndRecord path change event).run.run session
      = (.error (.refused message), session)) ∨
    ∃ files after, '\x00' ∉ path.toList ∧ change session.world.files = .ok files ∧
      Leaves session event files after ∧
      (changeAndRecord path change event).run.run session = (.ok done, after) := by
  cases hrequest : request path (change session.world.files) with
  | error fault => exact .inl ⟨_, run_changeAndRecord_of_error hrequest event⟩
  | ok files =>
    obtain ⟨hnull, hchange⟩ := request_eq_ok_iff.1 hrequest
    obtain ⟨after, hrun, hleaves, -⟩ :=
      run_changeAndRecord_of_ok haccepts hnull change hchange event
    exact .inr ⟨files, after, hnull, hchange, hleaves, hrun⟩

/-- A call that succeeds has made its change and left the record of it behind. The path had no null
character, since no host would have been asked. -/
theorem exists_leaves_of_run (haccepts : session.sink.Accepts)
    (change : FileSystem → Except Errno FileSystem) {result : String}
    (h : (changeAndRecord path change event).run.run session = (.ok result, after)) :
    '\x00' ∉ path.toList ∧
      ∃ files, change session.world.files = .ok files ∧ Leaves session event files after := by
  rcases run_changeAndRecord_cases haccepts path change event with
    ⟨message, hrefused⟩ | ⟨files, found, hnull, hchange, hleaves, hrun⟩
  · rw [hrefused] at h
    cases h
  · rw [hrun] at h
    cases h
    exact ⟨hnull, files, hchange, hleaves⟩

/-- A call that fails has left the session as it was: the change is the first step that can fail,
and the record after it does not. -/
theorem eq_of_run_changeAndRecord_error (haccepts : session.sink.Accepts)
    (change : FileSystem → Except Errno FileSystem) {failure : Failure}
    (h : (changeAndRecord path change event).run.run session = (.error failure, after)) :
    after = session := by
  rcases run_changeAndRecord_cases haccepts path change event with
    ⟨message, hrefused⟩ | ⟨files, found, -, -, -, hrun⟩
  · rw [hrefused] at h
    cases h
    rfl
  · rw [hrun] at h
    cases h

/-- To create a file is to overwrite what the path leads to with nothing, and to record it as a
creation. -/
theorem createFile_file (path : String) :
    createFile ["file", path]
      = changeAndRecord path (·.overwrite path []) (.file path "create") := rfl

/-- To create a directory is to make one where the path names it, and to record it as a creation. -/
theorem createFile_dir (path : String) :
    createFile ["dir", path]
      = changeAndRecord path (·.makeDirectory path) (.file path "create") := rfl

/-- To modify a file is to overwrite what the path leads to with the encoding of a text, and to
record it as a modification. -/
theorem modifyFile_eq (path content : String) :
    modifyFile [path, content]
      = changeAndRecord path (·.overwrite path (Utf8.encode content.toList))
        (.file path "modify") := rfl

/-! ## Deletions -/

/-- What can be deleted at the place that a path names: a regular file, a directory that holds
nothing, and a link if it leads to a regular file. -/
def Removable (files : FileSystem) (path : String) (place : Place) : Item → Prop
  | .file _ _ => True
  | .directory => files.isBare place
  | .link _ => files.LeadsToFile path
  | .fifo | .socket | .device => False

/-- A deletion is refused, and then nothing has happened, or what the path names is taken away and
this is recorded. It was a file, an empty directory, or a link to a file. -/
theorem run_deleteFile_cases (haccepts : session.sink.Accepts) (path : String) :
    (∃ message, (deleteFile [path]).run.run session = (.error (.refused message), session)) ∨
    ∃ place item after, session.world.files.Names path place ∧
      session.world.files.get? place = some item ∧
      Removable session.world.files path place item ∧
      Leaves session (.file path "delete") (session.world.files.erase place) after ∧
      (deleteFile [path]).run.run session = (.ok done, after) := by
  rw [deleteFile, run_bind_of_ok (run_get session)]
  split
  · exact .inl ⟨_, rfl⟩
  · refine (run_changeAndRecord_cases haccepts path (·.removeDirectory path)
      (.file path "delete")).imp_right ?_
    rintro ⟨files, after, -, hremove, hleaves, hrun⟩
    obtain ⟨place, hnames, hget, hbare, rfl⟩ := FileSystem.removeDirectory_cases hremove
    exact ⟨place, .directory, after, hnames, hget, hbare, hleaves, hrun⟩
  · next found number content hrequest =>
    refine (run_changeAndRecord_cases haccepts path (·.removeFile path)
      (.file path "delete")).imp_right ?_
    rintro ⟨files, after, -, hremove, hleaves, hrun⟩
    obtain ⟨-, hlocate⟩ := request_eq_ok_iff.1 hrequest
    obtain ⟨place, item, hnames, hget, -, hkind, rfl⟩ := FileSystem.removeFile_cases hremove
    refine ⟨place, item, after, hnames, hget, ?_, hleaves, hrun⟩
    rcases hkind with ⟨target, rfl⟩ | hitem
    · exact ⟨found, number, content, hlocate⟩
    · rw [hlocate] at hitem
      cases hitem
      trivial
  · exact .inl ⟨_, rfl⟩

/-! ## One entry or nothing -/

/-- A call succeeds in a session. -/
def Succeeds (call : Action String) (session : Session) : Prop :=
  ∃ result after, call.run.run session = (.ok result, after)

/-- Nothing is different except at one place. -/
def OnlyAt (place : Place) (files after : FileSystem) : Prop :=
  ∀ other, other ≠ place → after.get? other = files.get? other

/-- A call has written to a path: what it has written is found there, and nothing is different
except at the place that the path leads to. -/
def Writes (before : Session) (event : Event) (path : String) (place : Place)
    (content : List UInt8) (after : Session) : Prop :=
  ∃ files, Leaves before event files after ∧ files.contentAt path = .ok content ∧
    OnlyAt place before.world.files files

/-- A change of files succeeds if the host makes it and the path has no null character. The record
does not stand in the way. -/
theorem succeeds_changeAndRecord_iff (haccepts : session.sink.Accepts)
    (change : FileSystem → Except Errno FileSystem) :
    Succeeds (changeAndRecord path change event) session ↔
      '\x00' ∉ path.toList ∧ ∃ files, change session.world.files = .ok files := by
  constructor
  · rintro ⟨result, after, hrun⟩
    obtain ⟨hnull, files, hchange, -⟩ := exists_leaves_of_run haccepts change hrun
    exact ⟨hnull, files, hchange⟩
  · rintro ⟨hnull, files, hchange⟩
    obtain ⟨after, hrun, -⟩ := run_changeAndRecord_of_ok haccepts hnull change hchange event
    exact ⟨done, after, hrun⟩

/-- Writing succeeds for the paths that can be opened, whatever is written. So files are created and
modified for the same paths. -/
theorem succeeds_overwrite_iff (haccepts : session.sink.Accepts) (bytes : List UInt8) :
    Succeeds (changeAndRecord path (·.overwrite path bytes) event) session ↔
      '\x00' ∉ path.toList ∧ ∃ directory name, session.world.files.Opens path directory name := by
  rw [succeeds_changeAndRecord_iff haccepts (·.overwrite path bytes)]
  refine and_congr_right fun _ => ⟨?_, ?_⟩
  · rintro ⟨files, hchange⟩
    obtain ⟨directory, name, hopens, -⟩ := FileSystem.exists_opens_of_overwrite hchange
    exact ⟨directory, name, hopens⟩
  · rintro ⟨directory, name, hopens⟩
    exact ⟨_, FileSystem.overwrite_of_opens hopens bytes⟩

/-- A writing that has succeeded is found: the path leads to what was written, and no place but the
one that it leads to is different. -/
theorem writes_of_run (haccepts : session.sink.Accepts) {directory : Place} {name result : String}
    {slash : Bool} {bytes : List UInt8}
    (harrive : session.world.files.arrive (fun _ => true) path
      = .ok (.entry directory name slash))
    (htakes : session.world.files.TakesContent (directory ++ [name]))
    (h : (changeAndRecord path (·.overwrite path bytes) event).run.run session
      = (.ok result, after)) :
    Writes session event path (directory ++ [name]) bytes after := by
  obtain ⟨-, files, hchange, hleaves⟩ := exists_leaves_of_run haccepts (·.overwrite path bytes) h
  obtain ⟨directory', name', hopens, rfl⟩ := FileSystem.exists_opens_of_overwrite hchange
  have heq := hopens.arrive
  rw [harrive] at heq
  cases heq
  exact ⟨_, hleaves, FileSystem.contentAt_rewritten hopens htakes bytes,
    fun other hother => FileSystem.get?_rewritten_of_ne hother⟩

/-- A call that fails has done nothing. All three activities are changes with a record
(`eq_of_run_changeAndRecord_error`), or fail at their arguments. -/
theorem unchanged_of_error (haccepts : session.sink.Accepts) {function : Native Session}
    (hmem : function ∈ [createFile, modifyFile, deleteFile]) {arguments : List String}
    {failure : Failure} (h : (function arguments).run.run session = (.error failure, after)) :
    after = session := by
  simp only [List.mem_cons, List.not_mem_nil, or_false] at hmem
  rcases hmem with rfl | rfl | rfl
  · unfold createFile at h
    split at h
    · next kind path =>
      split at h
      · exact eq_of_run_changeAndRecord_error haccepts (·.overwrite path []) h
      · split at h
        · exact eq_of_run_changeAndRecord_error haccepts (·.makeDirectory path) h
        · cases h; rfl
    · cases h; rfl
  · unfold modifyFile at h
    split at h
    · next path content =>
      exact eq_of_run_changeAndRecord_error haccepts
        (·.overwrite path (Utf8.encode content.toList)) h
    · cases h; rfl
  · by_cases hone : ∃ path, arguments = [path]
    · obtain ⟨path, rfl⟩ := hone
      rcases run_deleteFile_cases haccepts path with
        ⟨message, hrefused⟩ | ⟨_, _, _, -, -, -, -, hrun⟩
      · rw [hrefused] at h
        cases h
        rfl
      · rw [hrun] at h
        cases h
    · unfold deleteFile at h
      split at h
      · next path => exact absurd ⟨path, rfl⟩ hone
      · cases h; rfl

/-- Whether a request to write is refused, and why, does not depend on what is written. What is
written only matters to the files afterwards. -/
theorem request_overwrite_eq (files : FileSystem) (path : String) (bytes : List UInt8) :
    request path (files.overwrite path bytes)
      = (request path (files.writable path)).map fun found => files.rewritten found.1 bytes := by
  rw [FileSystem.overwrite_eq]
  unfold request
  split
  · rfl
  · cases files.writable path <;> rfl

/-- What a file is created with does not matter if it is then modified. The record of the creation
stays, and is found in the file of the log and nowhere else. -/
theorem create_modify_eq (haccepts : session.sink.Accepts) (path content : String) :
    ((createFile ["file", path] >>= fun _ => modifyFile [path, content]).run.run session).1
      = ((modifyFile [path, content]).run.run session).1 ∧
    FileSystem.SameBut session.sink.handle
      ((modifyFile [path, content]).run.run session).2.world.files
      ((createFile ["file", path] >>= fun _ =>
        modifyFile [path, content]).run.run session).2.world.files ∧
    (session.sink.handle = .sink →
      ((createFile ["file", path] >>= fun _ =>
        modifyFile [path, content]).run.run session).2.world.files
      = ((modifyFile [path, content]).run.run session).2.world.files) := by
  rw [createFile_file, modifyFile_eq]
  cases hrequest : request path (session.world.files.writable path) with
  | error fault =>
    have hrefused : ∀ bytes event, (changeAndRecord path (·.overwrite path bytes) event).run.run
        session = (.error (.refused fault.text), session) := by
      intro bytes event
      refine run_changeAndRecord_of_error ?_ event
      rw [request_overwrite_eq, hrequest]
      rfl
    rw [run_bind_of_error (hrefused _ _), hrefused]
    exact ⟨rfl, fun _ => .inl rfl, fun _ => rfl⟩
  | ok found =>
    obtain ⟨hnull, hwritable⟩ := request_eq_ok_iff.1 hrequest
    obtain ⟨directory, name, hopens, -, -⟩ := FileSystem.writable_eq_ok_iff.1 hwritable
    obtain ⟨created, hcreate, hcreated, haccepts'⟩ := run_changeAndRecord_of_ok haccepts hnull
      (·.overwrite path []) (FileSystem.overwrite_of_opens hopens []) (.file path "create")
    obtain ⟨hfiles, hhandle, hbytes⟩ := hcreated.appended
    -- The record of the creation does not stand in the way of the modification.
    have hopens' : created.world.files.Opens path directory name := by
      rw [hfiles]
      exact (hopens.of_changesFiles (FileSystem.changesFiles_rewritten _ _ _)).of_changesFiles
        (FileSystem.changesFiles_appendTo _ _ _)
    obtain ⟨both, hboth, hleft, -⟩ := run_changeAndRecord_of_ok haccepts' hnull
      (·.overwrite path (Utf8.encode content.toList)) (FileSystem.overwrite_of_opens hopens' _)
      (.file path "modify")
    obtain ⟨alone, halone, hleft', -⟩ := run_changeAndRecord_of_ok haccepts hnull
      (·.overwrite path (Utf8.encode content.toList)) (FileSystem.overwrite_of_opens hopens _)
      (.file path "modify")
    have hfilesBoth := hleft.appended.1
    have hfilesAlone := hleft'.appended.1
    rw [hfiles, hhandle, hbytes] at hfilesBoth
    rw [← FileSystem.rewritten_rewritten _ _ []] at hfilesAlone
    rw [run_bind_of_ok hcreate, hboth, halone]
    refine ⟨rfl, ?_, fun hsink => ?_⟩
    · rw [hfilesBoth, hfilesAlone]
      exact (FileSystem.sameBut_rewritten_appendTo _ _ _ _ _).appendTo _
    · rw [hfilesBoth, hfilesAlone, hsink]
      rfl

/-- A directory that was created stands where the path names it and where nothing was before. It is
empty, if everything was in a directory before. -/
theorem makes_of_run (haccepts : session.sink.Accepts) {result : String}
    (h : (createFile ["dir", path]).run.run session = (.ok result, after)) :
    ∃ place files, session.world.files.Names path place ∧
      Leaves session (.file path "create") files after ∧
      session.world.files.get? place = none ∧ files.get? place = some .directory ∧
      OnlyAt place session.world.files files ∧
      (session.world.files.IsTree → files.isBare place) := by
  rw [createFile_dir] at h
  obtain ⟨-, files, hmake, hleaves⟩ := exists_leaves_of_run haccepts (·.makeDirectory path) h
  obtain ⟨place, hnames, hget, rfl⟩ := FileSystem.makeDirectory_cases hmake
  exact ⟨place, _, hnames, hleaves, hget, FileSystem.get?_set_self hnames.ne_nil,
    fun other hother => FileSystem.get?_set_of_ne hother, fun htree => htree.isBare_set hget⟩

/-- A deletion that has succeeded has taken away what the path names, and only what can be removed.
The rest of the files is as it was, but for the record. -/
theorem removes_of_run (haccepts : session.sink.Accepts) {result : String}
    (h : (deleteFile [path]).run.run session = (.ok result, after)) :
    ∃ place item, session.world.files.Names path place ∧
      session.world.files.get? place = some item ∧
      Removable session.world.files path place item ∧
      Leaves session (.file path "delete") (session.world.files.erase place) after := by
  rcases run_deleteFile_cases haccepts path with
    ⟨message, hrefused⟩ | ⟨place, item, found, hnames, hget, hremovable, hleaves, hrun⟩
  · rw [hrefused] at h
    cases h
  · rw [hrun] at h
    cases h
    exact ⟨place, item, hnames, hget, hremovable, hleaves⟩

/-- **File activities touch one entry or nothing.** The sink takes records. A call that fails leaves
the session as it was. Files are created and modified for the same paths. If a path leads to a
regular file or to nothing in a directory, both succeed unless it holds a null character, ends in a
slash or has too long a last name; what was written is then found, and no other place is different.
Creating a file before it is modified makes no difference, except for the record of it. A directory
is created empty, an entry is deleted, and no other place is different. -/
theorem file_activities_touch_one_entry (session : Session) (haccepts : session.sink.Accepts) :
    (∀ function ∈ [createFile, modifyFile, deleteFile], ∀ arguments failure after,
      (function arguments).run.run session = (.error failure, after) → after = session) ∧
    (∀ path content, Succeeds (createFile ["file", path]) session ↔
      Succeeds (modifyFile [path, content]) session) ∧
    (∀ path content directory name slash,
      session.world.files.arrive (fun _ => true) path = .ok (.entry directory name slash) →
      session.world.files.TakesContent (directory ++ [name]) →
      (Succeeds (modifyFile [path, content]) session ↔
        '\x00' ∉ path.toList ∧ slash = false ∧ ¬isTooLong name) ∧
      (∀ result after, (createFile ["file", path]).run.run session = (.ok result, after) →
        Writes session (.file path "create") path (directory ++ [name]) [] after) ∧
      ∀ result after, (modifyFile [path, content]).run.run session = (.ok result, after) →
        Writes session (.file path "modify") path (directory ++ [name])
          (Utf8.encode content.toList) after) ∧
    (∀ path content,
      ((createFile ["file", path] >>= fun _ => modifyFile [path, content]).run.run session).1
        = ((modifyFile [path, content]).run.run session).1 ∧
      FileSystem.SameBut session.sink.handle
        ((modifyFile [path, content]).run.run session).2.world.files
        ((createFile ["file", path] >>= fun _ =>
          modifyFile [path, content]).run.run session).2.world.files ∧
      (session.sink.handle = .sink →
        ((createFile ["file", path] >>= fun _ =>
          modifyFile [path, content]).run.run session).2.world.files
        = ((modifyFile [path, content]).run.run session).2.world.files)) ∧
    (∀ path result after, (createFile ["dir", path]).run.run session = (.ok result, after) →
      ∃ place files, session.world.files.Names path place ∧
        Leaves session (.file path "create") files after ∧
        session.world.files.get? place = none ∧ files.get? place = some .directory ∧
        OnlyAt place session.world.files files ∧
        (session.world.files.IsTree → files.isBare place)) ∧
    (∀ path result after, (deleteFile [path]).run.run session = (.ok result, after) →
      ∃ place item files, session.world.files.Names path place ∧
        Leaves session (.file path "delete") files after ∧
        session.world.files.get? place = some item ∧ files.get? place = none ∧
        OnlyAt place session.world.files files) := by
  refine ⟨fun function hmem arguments failure after h => unchanged_of_error haccepts hmem h,
    fun path content => ?_, fun path content directory name slash harrive htakes => ?_,
    create_modify_eq haccepts, fun path result after h => makes_of_run haccepts h,
    fun path result after h => ?_⟩
  · rw [createFile_file, modifyFile_eq, succeeds_overwrite_iff haccepts,
      succeeds_overwrite_iff haccepts]
  · refine ⟨?_, fun result after h => writes_of_run haccepts harrive htakes h,
      fun result after h => writes_of_run haccepts harrive htakes h⟩
    rw [modifyFile_eq, succeeds_overwrite_iff haccepts,
      FileSystem.opens_iff_of_takesContent harrive htakes]
  · obtain ⟨place, item, hnames, hget, -, hleaves⟩ := removes_of_run haccepts h
    exact ⟨place, item, _, hnames, hleaves, hget, FileSystem.get?_erase_self hnames.ne_nil,
      fun other hother => FileSystem.get?_erase_of_ne hother⟩

/-- A link to a missing file is written through: the file is made, and the link stays. -/
theorem file_activities_touch_one_entry_dangling :
    let files : FileSystem := ⟨[(["d"], .directory), (["l"], .link "d/f")], [], 0⟩
    (Session.holding files).sink.Accepts ∧
      files.arrive (fun _ => true) "l" = .ok (.entry ["d"] "f" false) ∧
      files.TakesContent (["d"] ++ ["f"]) ∧
      ∃ result after,
        (modifyFile ["l", "é"]).run.run (Session.holding files) = (.ok result, after) ∧
        Writes (Session.holding files) (.file "l" "modify") "l" (["d"] ++ ["f"]) [0xC3, 0xA9]
          after := by
  intro files
  have harrive : files.arrive (fun _ => true) "l" = .ok (.entry ["d"] "f" false) := by
    decide +kernel
  have htakes : files.TakesContent (["d"] ++ ["f"]) := .inl (by decide +kernel)
  obtain ⟨-, -, hwrites, -⟩ := file_activities_touch_one_entry (Session.holding files) trivial
  obtain ⟨hsucceeds, -, hmodify⟩ := hwrites "l" "é" ["d"] "f" false harrive htakes
  obtain ⟨result, after, hrun⟩ := hsucceeds.2 ⟨by decide, rfl, by decide +kernel⟩
  exact ⟨trivial, harrive, htakes, result, after, hrun, hmodify result after hrun⟩

end ActivityScript.Activity
