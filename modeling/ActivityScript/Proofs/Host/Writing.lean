import ActivityScript.Proofs.Host.NewFiles

/-!
# Writing to files

Writing to a path changes the one place that the path leads to (`overwrite_eq`,
`writable_eq_ok_iff`). If a file is there, or nothing, the path then finds what was written
(`contentAt_rewritten`), and of two writings the second counts (`rewritten_rewritten`). If something
is appended to a file between the two, it is found in that file and nowhere else
(`sameBut_rewritten_appendTo`). Opening a file to append to it keeps what it holds
(`openAppend_of_file`), and a missing file is made (`openAppend_of_none`).

In a file system where everything is in a directory, a directory that is made is empty
(`IsTree.isBare_set`).
-/

namespace ActivityScript.Host.FileSystem

variable {files after : FileSystem} {place other directory : Place} {path name : String}
  {item : Item} {content : List UInt8} {handle : Handle}

/-! ## Items that are put twice -/

/-- Of two items that are put at a place one after the other, only the second is left. The file
systems are the same, not only the items in them. -/
theorem set_set (files : FileSystem) (place : Place) (first second : Item) :
    (files.set place first).set place second = files.set place second := by
  rw [set, set, set, Association.put_put]

/-! ## Places that are written to -/

/-- A file holds a content, and a missing one is made. Anything else stays as it is. -/
def rewritten (files : FileSystem) (place : Place) (content : List UInt8) : FileSystem :=
  match files.get? place with
  | none => files.addFile place content
  | some (.file number _) => files.set place (.file number content)
  | some _ => files

/-- A regular file is at a place, or nothing. -/
def TakesContent (files : FileSystem) (place : Place) : Prop :=
  files.get? place = none ∨ ∃ number old, files.get? place = some (.file number old)

/-- The root does not take a content, since it is neither a file nor missing. So a place that does
has a last name. -/
theorem TakesContent.ne_nil (h : files.TakesContent place) : place ≠ [] := by
  rintro rfl
  rcases h with h | ⟨number, old, h⟩ <;> cases h

/-- Where nothing is, writing makes a file. It gets the first number that is not used. -/
theorem rewritten_of_none (h : files.get? place = none) :
    files.rewritten place content = files.addFile place content := by
  rw [rewritten, h]

/-- Where anything but a file is, writing changes no item: what is written to a device or a named
pipe is not kept. -/
theorem rewritten_eq_self (h : ¬files.TakesContent place) :
    files.rewritten place content = files := by
  unfold rewritten
  split
  · next hget => exact absurd (.inl hget) h
  · next number old hget => exact absurd (.inr ⟨number, old, hget⟩) h
  · rfl

/-- The number that the file at a place has, or will have when it is made. -/
def numberAt (files : FileSystem) (place : Place) : Nat :=
  match files.get? place with
  | some (.file number _) => number
  | _ => files.unused

/-- What was written is at its place. A file keeps its number, so that a log that is open on it goes
on in the same file. -/
theorem get?_rewritten_self (h : files.TakesContent place) (content : List UInt8) :
    (files.rewritten place content).get? place = some (.file (files.numberAt place) content) := by
  unfold rewritten numberAt
  rcases id h with hget | ⟨number, old, hget⟩
  · rw [hget]
    exact get?_addFile_self hget
  · rw [hget]
    exact get?_set_self h.ne_nil

/-- Every other place is left alone, whatever is at the place that is written to. Together with
`get?_rewritten_self` this says what is at every place. -/
theorem get?_rewritten_of_ne (h : other ≠ place) :
    (files.rewritten place content).get? other = files.get? other := by
  unfold rewritten
  split
  · exact get?_addFile_of_ne h
  · exact get?_set_of_ne h
  · rfl

/-- Of two writings at a place the second counts, whatever is at the place: a file, nothing, or
something that keeps no content. -/
theorem rewritten_rewritten (files : FileSystem) (place : Place) (first second : List UInt8) :
    (files.rewritten place first).rewritten place second = files.rewritten place second := by
  by_cases h : files.TakesContent place
  · rcases id h with hget | ⟨number, old, hget⟩
    · rw [rewritten_of_none hget, rewritten, get?_addFile_self hget, rewritten_of_none hget]
      simp only [addFile, set, Association.put_put]
    · have hfirst : files.rewritten place first = files.set place (.file number first) := by
        rw [rewritten, hget]
      rw [hfirst, rewritten, get?_set_self h.ne_nil, rewritten, hget]
      exact set_set files place _ _
  · rw [rewritten_eq_self h]

/-! ## Files that are appended to -/

/-- The same is at all places, except in the file that a handle appends to. -/
def SameBut (handle : Handle) (files after : FileSystem) : Prop :=
  ∀ place, after.get? place = files.get? place ∨
    ∃ number content content', handle = .file number ∧
      files.get? place = some (.file number content) ∧
      after.get? place = some (.file number content')

/-- What is appended is found in the file that the handle appends to, and at no other place. A sink
takes it and keeps nothing. -/
theorem sameBut_appendTo (files : FileSystem) (handle : Handle) (more : List UInt8) :
    SameBut handle files (files.appendTo handle more) := by
  intro place
  cases handle with
  | sink => exact .inl rfl
  | file number =>
    rw [appendTo, get?_append_eq]
    cases hget : files.get? place with
    | none => exact .inl rfl
    | some item =>
      cases item with
      | directory | link | fifo | socket | device => exact .inl rfl
      | file n old =>
        by_cases hnumber : n = number
        · subst hnumber
          exact .inr ⟨n, old, old ++ more, rfl, rfl, by simp [Item.extended]⟩
        · exact .inl (by simp [Item.extended, hnumber])

/-- File systems that differ in the file of a handle only still do so when the same is appended to
both. -/
theorem SameBut.appendTo (h : SameBut handle files after) (more : List UInt8) :
    SameBut handle (files.appendTo handle more) (after.appendTo handle more) := by
  intro place
  cases handle with
  | sink => exact h place
  | file number =>
    rw [FileSystem.appendTo, FileSystem.appendTo, get?_append_eq, get?_append_eq]
    rcases h place with heq | ⟨n, content, content', hhandle, hget, hafter⟩
    · exact .inl (by rw [heq])
    · cases hhandle
      rw [hget, hafter]
      exact .inr ⟨number, content ++ more, content' ++ more, rfl, by simp [Item.extended],
        by simp [Item.extended]⟩

/-! ## Changes of files alone -/

/-- Items are as they were, except for files that are made or hold something else. -/
structure ChangesFiles (files after : FileSystem) : Prop where
  start_eq : after.start = files.start
  get?_cases : ∀ place, after.get? place = files.get? place ∨
    files.TakesContent place ∧ ∃ number content, after.get? place = some (.file number content)

/-- Writing changes files only: it makes one, or gives one another content. Directories, links and
everything else stay as they are. -/
theorem changesFiles_rewritten (files : FileSystem) (place : Place) (content : List UInt8) :
    files.ChangesFiles (files.rewritten place content) where
  start_eq := by
    unfold rewritten
    split <;> rfl
  get?_cases := by
    intro other
    by_cases hother : other = place
    · subst hother
      by_cases h : files.TakesContent other
      · exact .inr ⟨h, _, content, get?_rewritten_self h content⟩
      · exact .inl (by rw [rewritten_eq_self h])
    · exact .inl (get?_rewritten_of_ne hother)

/-- Appending changes files only, and makes none. So paths lead where they did before
(`ChangesFiles.extends`). -/
theorem changesFiles_appendTo (files : FileSystem) (handle : Handle) (more : List UInt8) :
    files.ChangesFiles (files.appendTo handle more) where
  start_eq := by cases handle <;> rfl
  get?_cases := by
    intro place
    rcases sameBut_appendTo files handle more place with heq | ⟨n, old, content, -, hget, hafter⟩
    · exact .inl heq
    · exact .inr ⟨.inr ⟨n, old, hget⟩, n, content, hafter⟩

/-- No path goes through a file, so a change of files leaves the ways that were there. A path that
was not there may lead to a new file. -/
theorem ChangesFiles.extends (h : files.ChangesFiles after) : files.Extends after where
  start_eq := h.start_eq
  isDirectory := by
    intro place hdirectory
    rcases h.get?_cases place with heq | ⟨hget | ⟨number, old, hget⟩, -⟩
    · rwa [isDirectory, heq]
    · simp [isDirectory, hget] at hdirectory
    · simp [isDirectory, hget, Item.isDirectory] at hdirectory
  isSome := by
    intro place hsome
    rcases h.get?_cases place with heq | ⟨-, number, content, hafter⟩
    · rwa [heq]
    · rw [hafter]
      rfl
  link_iff := by
    intro place target
    rcases h.get?_cases place with heq | ⟨hget | ⟨number, old, hget⟩, n, content, hafter⟩
    · rw [heq]
    · simp [hget, hafter]
    · simp [hget, hafter]

/-! ## Paths that can be written to -/

/-- A path leads to a name that can be opened for writing. -/
structure Opens (files : FileSystem) (path : String) (directory : Place) (name : String) :
    Prop where
  arrive : files.arrive (fun _ => true) path = .ok (.entry directory name false)
  short : ¬isTooLong name
  ne_directory : files.get? (directory ++ [name]) ≠ some .directory
  ne_socket : files.get? (directory ++ [name]) ≠ some .socket

/-- A path that can be written to can be written to after files have changed, and leads to the same
name. This holds of a log that is opened again. -/
theorem Opens.of_changesFiles (h : files.Opens path directory name)
    (hchanges : files.ChangesFiles after) : after.Opens path directory name where
  arrive := arrive_of_extends hchanges.extends h.arrive
  short := h.short
  ne_directory := by
    rcases hchanges.get?_cases (directory ++ [name]) with heq | ⟨-, number, content, hafter⟩
    · rw [heq]
      exact h.ne_directory
    · simp [hafter]
  ne_socket := by
    rcases hchanges.get?_cases (directory ++ [name]) with heq | ⟨-, number, content, hafter⟩
    · rw [heq]
      exact h.ne_socket
    · simp [hafter]

/-- What is opened for writing is what the path leads to, if it leads to a name that can be opened.
That links before a slash are not followed makes no difference (`arrive_of_no_slash`). -/
theorem writable_eq_ok_iff {item? : Option Item} :
    files.writable path = .ok (place, item?) ↔
      ∃ directory name, files.Opens path directory name ∧ place = directory ++ [name] ∧
        item? = files.get? (directory ++ [name]) := by
  constructor
  · intro h
    obtain ⟨directory, name, hplace, hchild, harrive, hdirectory, hsocket⟩ := writable_cases h
    have hget := get?_of_child? hchild
    have hsettled : files.Settled (.entry directory name false) := (fits_of_arrive harrive).2 rfl
    have hshort : ¬isTooLong name := by
      intro hlong
      rw [child?, if_pos hlong] at hchild
      cases hchild
    exact ⟨directory, name, ⟨arrive_of_settled hsettled harrive, hshort, hget ▸ hdirectory,
      hget ▸ hsocket⟩, hplace, hget.symm⟩
  · rintro ⟨directory, name, ⟨harrive, hshort, hdirectory, hsocket⟩, rfl, rfl⟩
    have hchild : files.child? directory name = .ok (files.get? (directory ++ [name])) := by
      rw [child?, if_neg hshort]
    rw [writable, arrive_of_no_slash harrive]
    simp only [bind, Except.bind, hchild, Bool.false_eq_true, if_false]
    cases hget : files.get? (directory ++ [name]) with
    | none => rfl
    | some item =>
      cases item with
      | directory => exact absurd hget hdirectory
      | socket => exact absurd hget hsocket
      | file | link | fifo | device => rfl

/-- Writing is opening and then rewriting the place that was found. It fails if and only if the path
cannot be opened for writing. -/
theorem overwrite_eq (files : FileSystem) (path : String) (content : List UInt8) :
    files.overwrite path content
      = (files.writable path).map fun found => files.rewritten found.1 content := by
  rw [overwrite]
  cases hwritable : files.writable path with
  | error errno => rfl
  | ok found =>
    obtain ⟨place, item?⟩ := found
    obtain ⟨directory, name, -, rfl, rfl⟩ := writable_eq_ok_iff.1 hwritable
    simp only [bind, Except.bind, Except.map, rewritten]
    cases files.get? (directory ++ [name]) with
    | none => rfl
    | some item => cases item <;> rfl

/-- To write to a path that can be opened changes the place that the path leads to, and always
succeeds. -/
theorem overwrite_of_opens (h : files.Opens path directory name) (content : List UInt8) :
    files.overwrite path content = .ok (files.rewritten (directory ++ [name]) content) := by
  rw [overwrite_eq, writable_eq_ok_iff.2 ⟨directory, name, h, rfl, rfl⟩]
  rfl

/-- A path that was written to can be opened, and what has changed is the place that it leads to.
The converse is `overwrite_of_opens`. -/
theorem exists_opens_of_overwrite (h : files.overwrite path content = .ok after) :
    ∃ directory name, files.Opens path directory name ∧
      after = files.rewritten (directory ++ [name]) content := by
  rw [overwrite_eq] at h
  cases hwritable : files.writable path with
  | error errno => rw [hwritable] at h; cases h
  | ok found =>
    obtain ⟨place, item?⟩ := found
    obtain ⟨directory, name, hopens, rfl, -⟩ := writable_eq_ok_iff.1 hwritable
    rw [hwritable] at h
    cases h
    exact ⟨directory, name, hopens, rfl⟩

/-- A path that leads to a file or to nothing can be written to unless a slash stands at its end or
its last name is too long. There is nothing else that could be in the way. -/
theorem opens_iff_of_takesContent {slash : Bool}
    (harrive : files.arrive (fun _ => true) path = .ok (.entry directory name slash))
    (htakes : files.TakesContent (directory ++ [name])) :
    (∃ directory name, files.Opens path directory name) ↔ slash = false ∧ ¬isTooLong name := by
  constructor
  · rintro ⟨directory', name', hopens⟩
    have heq := hopens.arrive
    rw [harrive] at heq
    cases heq
    exact ⟨rfl, hopens.short⟩
  · rintro ⟨rfl, hshort⟩
    refine ⟨directory, name, harrive, hshort, ?_, ?_⟩
    · rcases htakes with hget | ⟨number, old, hget⟩ <;> simp [hget]
    · rcases htakes with hget | ⟨number, old, hget⟩ <;> simp [hget]

/-- A path that can be opened and leads to a file finds what this file holds. Reading follows the
same links as writing. -/
theorem contentAt_of_opens (h : files.Opens path directory name) {number : Nat}
    (hget : files.get? (directory ++ [name]) = some (.file number content)) :
    files.contentAt path = .ok content := by
  rw [contentAt, locate, h.arrive]
  simp only [bind, Except.bind, child?, if_neg h.short, hget]
  rfl

/-- What was written is found, if there was a file or nothing. The path leads to the same place as
before, since no path goes through a file. -/
theorem contentAt_rewritten (h : files.Opens path directory name)
    (htakes : files.TakesContent (directory ++ [name])) (content : List UInt8) :
    (files.rewritten (directory ++ [name]) content).contentAt path = .ok content :=
  contentAt_of_opens
    (h.of_changesFiles (changesFiles_rewritten files (directory ++ [name]) content))
    (get?_rewritten_self htakes content)

/-! ## Opening to append -/

/-- What a path holds; nothing if it leads to nothing. -/
def held (files : FileSystem) (path : String) : List UInt8 :=
  (files.contentAt path).toOption.getD []

/-- A path that can be opened and leads to nothing holds nothing. This is where a log that is opened
for the first time starts. -/
theorem held_of_opens_none (h : files.Opens path directory name)
    (hget : files.get? (directory ++ [name]) = none) : files.held path = [] := by
  rw [held, contentAt, locate, h.arrive]
  simp only [bind, Except.bind, child?, if_neg h.short, hget]
  rfl

/-- To open a missing file for appending makes it. It is empty and has the number that its handle
has. -/
theorem openAppend_of_none (h : files.Opens path directory name)
    (hget : files.get? (directory ++ [name]) = none) :
    files.openAppend path
      = .ok (.file files.unused, files.addFile (directory ++ [name]) []) := by
  rw [openAppend, writable_eq_ok_iff.2 ⟨directory, name, h, rfl, rfl⟩, hget]
  rfl

/-- To open a file for appending gives a handle of its number and changes nothing. What it holds
stays. -/
theorem openAppend_of_file (h : files.Opens path directory name) {number : Nat}
    (hget : files.get? (directory ++ [name]) = some (.file number content)) :
    files.openAppend path = .ok (.file number, files) := by
  rw [openAppend, writable_eq_ok_iff.2 ⟨directory, name, h, rfl, rfl⟩, hget]
  rfl

/-- What is opened to append to a file is the file that the path leads to, or nothing was there. In
both cases the number of the handle is known. -/
theorem exists_opens_of_openAppend {number : Nat}
    (h : files.openAppend path = .ok (.file number, after)) :
    ∃ directory name, files.Opens path directory name ∧
      (files.get? (directory ++ [name]) = none ∧ files.unused = number ∨
        ∃ content, files.get? (directory ++ [name]) = some (.file number content)) := by
  obtain ⟨⟨place, item?⟩, hwritable, hopened⟩ := exists_of_bind_eq_ok h
  obtain ⟨directory, name, hopens, rfl, rfl⟩ := writable_eq_ok_iff.1 hwritable
  refine ⟨directory, name, hopens, ?_⟩
  cases hget : files.get? (directory ++ [name]) with
  | none =>
    rw [hget] at hopened
    cases hopened
    exact .inl ⟨rfl, rfl⟩
  | some item =>
    rw [hget] at hopened
    cases item with
    | file n content =>
      cases hopened
      exact .inr ⟨content, rfl⟩
    | directory | link | fifo | socket | device => cases hopened

/-! ## Something appended between two writings -/

/-- The number that a file has, or will have when it is made, is not changed by appending. Appending
uses up no number. -/
theorem numberAt_appendTo (files : FileSystem) (handle : Handle) (more : List UInt8)
    (place : Place) : (files.appendTo handle more).numberAt place = files.numberAt place := by
  have hunused : (files.appendTo handle more).unused = files.unused := by cases handle <;> rfl
  rcases sameBut_appendTo files handle more place with heq | ⟨n, old, content, -, hget, hafter⟩
  · rw [numberAt, numberAt, heq, hunused]
  · rw [numberAt, numberAt, hget, hafter]

/-- Whether a place takes a content does not change when something is appended, since appending
makes no file and removes none. -/
theorem takesContent_appendTo_iff {more : List UInt8} :
    (files.appendTo handle more).TakesContent place ↔ files.TakesContent place := by
  rcases (changesFiles_appendTo files handle more).get?_cases place with
    heq | ⟨htakes, number, content, hafter⟩
  · rw [TakesContent, TakesContent, heq]
  · exact iff_of_true (.inr ⟨number, content, hafter⟩) htakes

/-- What is appended to a file is overwritten there, and stays in any other file. So a writing after
a record differs from the writing alone in the file of the log only. -/
theorem sameBut_rewritten_appendTo (files : FileSystem) (handle : Handle) (more : List UInt8)
    (place : Place) (content : List UInt8) :
    SameBut handle (files.rewritten place content)
      ((files.appendTo handle more).rewritten place content) := by
  intro other
  by_cases hother : other = place
  · subst hother
    by_cases htakes : files.TakesContent other
    · have htakes' : (files.appendTo handle more).TakesContent other :=
        takesContent_appendTo_iff.2 htakes
      rw [get?_rewritten_self htakes, get?_rewritten_self htakes', numberAt_appendTo]
      exact .inl rfl
    · have htakes' : ¬(files.appendTo handle more).TakesContent other :=
        fun h => htakes (takesContent_appendTo_iff.1 h)
      rw [rewritten_eq_self htakes, rewritten_eq_self htakes']
      exact sameBut_appendTo files handle more other
  · rw [get?_rewritten_of_ne hother, get?_rewritten_of_ne hother]
    exact sameBut_appendTo files handle more other

/-! ## Trees -/

/-- Everything is in a directory. -/
def IsTree (files : FileSystem) : Prop :=
  ∀ entry ∈ files.entries, files.isDirectory entry.1.dropLast

instance (files : FileSystem) : Decidable files.IsTree :=
  inferInstanceAs (Decidable (∀ entry ∈ files.entries, files.isDirectory entry.1.dropLast))

/-- Nothing is below a place where nothing was, since everything below it would be in a directory
there. So a directory that was made can be removed again. -/
theorem IsTree.isBare_set (htree : files.IsTree) (hget : files.get? place = none) :
    (files.set place item).isBare place := by
  have hne := ne_nil_of_get?_eq_none hget
  rw [isBare, List.all_eq_true]
  intro entry hentry
  simp only [ne_eq, decide_not, Bool.not_eq_eq_eq_not, Bool.not_true, decide_eq_false_iff_not]
  intro hparent
  rcases Association.fst_eq_or_mem_of_mem_put hentry with hkey | hmem
  · rw [hkey] at hparent
    have hlength := congrArg List.length hparent
    have hpos := List.length_pos_iff.2 hne
    simp only [List.length_dropLast] at hlength
    omega
  · have hdirectory := htree entry hmem
    rw [hparent, isDirectory, hget] at hdirectory
    cases hdirectory

end ActivityScript.Host.FileSystem
