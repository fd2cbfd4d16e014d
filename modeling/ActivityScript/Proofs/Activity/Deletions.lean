import ActivityScript.Proofs.Activity.FileChanges

/-!
# What can be deleted

A path is followed to see what kind of file it leads to, and the entry that it names is removed.
The two are the same unless the entry is a link. `deleted_is_removable` says what follows: beside
regular files and directories that hold nothing, links are deleted that lead to a regular file
(`link_deleted` shows one). Any other link and every other kind of file is refused and stays where
it is.
-/

namespace ActivityScript.Activity

open Host
open Script (run_bind_of_ok)

variable {session : Session} {path : String} {place : Place} {item : Item}

/-- A path that names something that cannot be removed is refused, and nothing has happened. A
deletion that succeeds has removed what can be removed, and a path names one place only. -/
theorem refused_of_not_removable (haccepts : session.sink.Accepts)
    (hnames : session.world.files.Names path place)
    (hget : session.world.files.get? place = some item)
    (hremovable : ¬Removable session.world.files path place item) :
    ∃ message, (deleteFile [path]).run.run session = (.error (.refused message), session) := by
  rcases run_deleteFile_cases haccepts path with
    hrefused | ⟨place', item', after, hnames', hget', hremovable', -, -⟩
  · exact hrefused
  · obtain rfl := hnames.eq hnames'
    rw [hget] at hget'
    cases hget'
    exact absurd hremovable' hremovable

/-- A path that leads to a directory is deleted by removing a directory. Whether it holds something
is found out by the host. -/
theorem run_deleteFile_of_directory (hnull : '\x00' ∉ path.toList)
    (hlocate : session.world.files.locate path = .ok (place, .directory)) :
    (deleteFile [path]).run.run session
      = (changeAndRecord path (·.removeDirectory path) (.file path "delete")).run.run session := by
  rw [deleteFile, run_bind_of_ok (run_get session), request_eq_ok_iff.2 ⟨hnull, hlocate⟩]
  rfl

/-- A path that leads to a regular file is deleted by removing what it names. That may be the file,
or a link that leads to it. -/
theorem run_deleteFile_of_file (hnull : '\x00' ∉ path.toList) {number : Nat}
    {content : List UInt8}
    (hlocate : session.world.files.locate path = .ok (place, .file number content)) :
    (deleteFile [path]).run.run session
      = (changeAndRecord path (·.removeFile path) (.file path "delete")).run.run session := by
  rw [deleteFile, run_bind_of_ok (run_get session), request_eq_ok_iff.2 ⟨hnull, hlocate⟩]
  rfl

/-- The entry that a path names can be deleted if its kind can be, its name is not too long, and a
slash follows only if it is a directory. Nothing else is asked of it. -/
theorem succeeds_deleteFile_iff (haccepts : session.sink.Accepts) {directory : Place}
    {name : String} {slash : Bool}
    (harrive : session.world.files.arrive (fun _ => false) path
      = .ok (.entry directory name slash))
    (hget : session.world.files.get? (directory ++ [name]) = some item) :
    Succeeds (deleteFile [path]) session ↔
      '\x00' ∉ path.toList ∧ ¬isTooLong name ∧
        Removable session.world.files path (directory ++ [name]) item ∧
        (slash = true → item = .directory) := by
  constructor
  · rintro ⟨result, after, hrun⟩
    obtain ⟨place, item', hnames, hget', hremovable, -⟩ := removes_of_run haccepts hrun
    obtain rfl := hnames.eq ⟨directory, name, slash, harrive, rfl⟩
    rw [hget] at hget'
    cases hget'
    rw [deleteFile, run_bind_of_ok (run_get session)] at hrun
    split at hrun
    · cases hrun
    · obtain ⟨hnull, files, hremove, -⟩ :=
        exists_leaves_of_run haccepts (·.removeDirectory path) hrun
      obtain ⟨hshort, hdirectory, -⟩ :=
        (FileSystem.removeDirectory_eq_ok_iff harrive hget).1 hremove
      exact ⟨hnull, hshort, hremovable, fun _ => hdirectory⟩
    · obtain ⟨hnull, files, hremove, -⟩ := exists_leaves_of_run haccepts (·.removeFile path) hrun
      obtain ⟨hshort, -, hslash, -⟩ := (FileSystem.removeFile_eq_ok_iff harrive hget).1 hremove
      exact ⟨hnull, hshort, hremovable, fun h => absurd (hslash.symm.trans h) (by decide)⟩
    · cases hrun
  · rintro ⟨hnull, hshort, hremovable, hslash⟩
    have hchild : session.world.files.child? directory name = .ok (some item) := by
      rw [FileSystem.child?, if_neg hshort, hget]
    have hfile {found : Place} {number : Nat} {content : List UInt8}
        (hlocate : session.world.files.locate path = .ok (found, .file number content))
        (hkind : item ≠ .directory) : Succeeds (deleteFile [path]) session := by
      have hremove := (FileSystem.removeFile_eq_ok_iff harrive hget).2
        ⟨hshort, hkind, by simpa [hkind] using hslash, rfl⟩
      rw [Succeeds, run_deleteFile_of_file hnull hlocate]
      exact (succeeds_changeAndRecord_iff haccepts _).2 ⟨hnull, _, hremove⟩
    cases item with
    | fifo | socket | device => exact hremovable.elim
    | directory =>
      have hlocate := FileSystem.locate_of_arrive harrive hchild (by simp) hslash
      have hremove := (FileSystem.removeDirectory_eq_ok_iff harrive hget).2
        ⟨hshort, rfl, hremovable, rfl⟩
      rw [Succeeds, run_deleteFile_of_directory hnull hlocate]
      exact (succeeds_changeAndRecord_iff haccepts _).2 ⟨hnull, _, hremove⟩
    | file number content =>
      exact hfile (FileSystem.locate_of_arrive harrive hchild (by simp) hslash) (by simp)
    | link target =>
      -- The link is followed to the file, and then removed itself.
      obtain ⟨found, number, content, hlocate⟩ := hremovable
      exact hfile hlocate (by simp)

/-- **What is deleted is a regular file, a directory that holds nothing, or a link to a regular
file.** The sink takes records. A call that succeeds has removed the entry that its path names,
which was one of the three. A path that names anything else is refused and nothing has happened. No
link to a regular file is safe from it: it is deleted as readily as the file would be. -/
theorem deleted_is_removable (session : Session) (haccepts : session.sink.Accepts)
    (path : String) :
    (∀ result after, (deleteFile [path]).run.run session = (.ok result, after) →
      ∃ place item, session.world.files.Names path place ∧
        session.world.files.get? place = some item ∧
        Removable session.world.files path place item ∧
        Leaves session (.file path "delete") (session.world.files.erase place) after) ∧
    (∀ place item, session.world.files.Names path place →
      session.world.files.get? place = some item →
      ¬Removable session.world.files path place item →
      ∃ message, (deleteFile [path]).run.run session = (.error (.refused message), session)) ∧
    (∀ directory name slash item,
      session.world.files.arrive (fun _ => false) path = .ok (.entry directory name slash) →
      session.world.files.get? (directory ++ [name]) = some item →
      (Succeeds (deleteFile [path]) session ↔
        '\x00' ∉ path.toList ∧ ¬isTooLong name ∧
          Removable session.world.files path (directory ++ [name]) item ∧
          (slash = true → item = .directory))) := by
  refine ⟨fun result after h => removes_of_run haccepts h, ?_, ?_⟩
  · intro place item hnames hget hremovable
    exact refused_of_not_removable haccepts hnames hget hremovable
  · intro directory name slash item harrive hget
    exact succeeds_deleteFile_iff haccepts harrive hget

/-- A link to a fifo is refused, and so is the fifo itself. -/
theorem deleted_is_removable_fifo :
    let files : FileSystem := ⟨[(["p"], .fifo), (["l"], .link "p")], [], 0⟩
    (Session.holding files).sink.Accepts ∧
      files.Names "p" ["p"] ∧ files.Names "l" ["l"] ∧
      (∃ message, (deleteFile ["p"]).run.run (Session.holding files)
        = (.error (.refused message), Session.holding files)) ∧
      ∃ message, (deleteFile ["l"]).run.run (Session.holding files)
        = (.error (.refused message), Session.holding files) := by
  intro files
  have hfifo : files.Names "p" ["p"] := ⟨[], "p", false, by decide +kernel, rfl⟩
  have hlink : files.Names "l" ["l"] := ⟨[], "l", false, by decide +kernel, rfl⟩
  have hlocate : files.locate "l" = .ok (["p"], .fifo) := by decide +kernel
  obtain ⟨-, hrefuses, -⟩ := deleted_is_removable (Session.holding files) trivial "p"
  obtain ⟨-, hrefuses', -⟩ := deleted_is_removable (Session.holding files) trivial "l"
  refine ⟨trivial, hfifo, hlink, hrefuses ["p"] .fifo hfifo rfl id,
    hrefuses' ["l"] (.link "p") hlink rfl ?_⟩
  rintro ⟨place, number, content, hfile⟩
  have heq := hlocate.symm.trans hfile
  cases heq

/-- A link to a regular file is deleted, and the file stays. -/
theorem link_deleted :
    let files : FileSystem := ⟨[(["a"], .file 0 [120]), (["b"], .link "a")], [], 1⟩
    (Session.holding files).sink.Accepts ∧ files.Names "b" ["b"] ∧
      files.get? ["b"] = some (.link "a") ∧
      ((deleteFile ["b"]).run.run (Session.holding files)).1 = .ok done ∧
      ((deleteFile ["b"]).run.run (Session.holding files)).2.world.files.entries
        = [(["a"], .file 0 [120])] := by
  intro files
  refine ⟨trivial, ⟨[], "b", false, ?_, rfl⟩, ?_, ?_, ?_⟩
  · decide +kernel
  · decide +kernel
  · decide +kernel
  · decide +kernel

end ActivityScript.Activity
