import ActivityScript.Host.Files
import ActivityScript.Proofs.Basic
import ActivityScript.Proofs.Host.Walks

/-!
# What file operations leave alone

Each operation on files changes the item at one place. A path leads to a place if all links on the
way are followed (`FileSystem.locate`). Operations that do not follow a last link still arrive where
the path leads, unless they find the link itself (`arrive_of_settled`). So every operation that
succeeds spares the regular files that its path does not lead to (`FileSystem.Spares`).
-/

namespace ActivityScript.Host

/-- An item after something was appended to the file with a number. -/
def Item.extended (number : Nat) (more : List UInt8) : Item → Item
  | .file n content => if n = number then .file n (content ++ more) else .file n content
  | item => item

namespace FileSystem

variable {files after : FileSystem} {place other directory : Place} {item : Item}
  {path name : String} {content : List UInt8} {number : Nat}

/-! ## Items at places -/

/-- What is put at a place is found there. The root is no place to put something at: it is a
directory always. -/
theorem get?_set_self (h : place ≠ []) : (files.set place item).get? place = some item := by
  rw [get?, if_neg h, set, Association.lookup_put, if_pos rfl]

/-- What is put at a place changes no other place. All frame lemmas about operations on files go
back to this one and to `get?_erase_of_ne`. -/
theorem get?_set_of_ne (h : other ≠ place) :
    (files.set place item).get? other = files.get? other := by
  rw [get?, get?, set, Association.lookup_put, if_neg h]

/-- A new file changes no other place than its own. That the next number is used up cannot be seen
at any place. -/
theorem get?_addFile_of_ne (h : other ≠ place) :
    (files.addFile place content).get? other = files.get? other :=
  get?_set_of_ne h

/-- What is taken away from a place is taken away from no other one. Items below a directory that is
removed would stay, which is why it must hold nothing. -/
theorem get?_erase_of_ne (h : other ≠ place) :
    (files.erase place).get? other = files.get? other := by
  rw [get?, get?, erase, Association.lookup_filter_of_ne h]

/-- Nothing is found where something was taken away. The root, which is always there, is
excluded. -/
theorem get?_erase_self (h : place ≠ []) : (files.erase place).get? place = none := by
  rw [get?, if_neg h, erase, List.lookup_eq_none_iff]
  intro entry hentry
  have hkey : entry.1 ≠ place := by simpa using (List.mem_filter.1 hentry).2
  simpa using fun heq : place = entry.1 => hkey heq.symm

/-- Something appended to the file with a number changes items and no places. A handle knows its
file by the number, wherever the file stands. -/
theorem entries_append (files : FileSystem) (number : Nat) (more : List UInt8) :
    (files.append number more).entries
      = files.entries.map fun entry => (entry.1, Item.extended number more entry.2) := by
  refine List.map_congr_left fun entry _ => ?_
  obtain ⟨key, item⟩ := entry
  cases item with
  | file n content =>
    simp only [Item.extended]
    split <;> rfl
  | directory | link | fifo | socket | device => rfl

/-- To append nothing changes nothing, neither at a place nor in the order of the entries. So a sink
that gets no record leaves its file alone. -/
theorem appendTo_nil (files : FileSystem) (handle : Handle) : files.appendTo handle [] = files := by
  cases handle with
  | sink => rfl
  | file number =>
    have hitem : Item.extended number [] = id := by
      funext item
      cases item <;> simp [Item.extended]
    have hentries : (files.append number []).entries = files.entries := by
      rw [entries_append, hitem]
      exact List.map_id files.entries
    exact congrArg (fun entries => { files with entries := entries }) hentries

/-- Every item stays where it is when something is appended to the file with a number. Files with
this number hold more, and everything else is as it was. -/
theorem get?_append_eq (files : FileSystem) (number : Nat) (more : List UInt8) (place : Place) :
    (files.append number more).get? place
      = (files.get? place).map (Item.extended number more) := by
  rw [get?, get?, entries_append, Association.lookup_map]
  split <;> rfl

/-- A file grows by what is appended to its number. What it held stays in front, so no record is
lost. -/
theorem get?_append (h : files.get? place = some (.file number content)) (more : List UInt8) :
    (files.append number more).get? place = some (.file number (content ++ more)) := by
  rw [get?_append_eq, h, Option.map_some, Item.extended, if_pos rfl]

/-! ## Where paths lead -/

/-- A path leads to a place if it is followed through all of its links. -/
def LeadsTo (files : FileSystem) (path : String) (place : Place) : Prop :=
  ∃ item, files.locate path = .ok (place, item)

instance (files : FileSystem) (path : String) (place : Place) :
    Decidable (files.LeadsTo path place) :=
  match h : files.locate path with
  | .ok (found, item) =>
    if heq : found = place then .isTrue ⟨item, heq ▸ h⟩
    else .isFalse fun ⟨other, hother⟩ => heq (by rw [h] at hother; cases hother; rfl)
  | .error errno => .isFalse fun ⟨other, hother⟩ => by rw [h] at hother; cases hother

/-- A path leads to a regular file. -/
def LeadsToFile (files : FileSystem) (path : String) : Prop :=
  ∃ place number content, files.locate path = .ok (place, .file number content)

section Walks

variable {follow : Bool → Bool}
  {onLink onLink' : Place → String → List String → Except Errno Arrival} {arrival : Arrival}

/-- An arrival that is not at a link. -/
def Settled (files : FileSystem) : Arrival → Prop
  | .entry directory name _ => ∀ target, files.get? (directory ++ [name]) ≠ some (.link target)
  | .top | .here _ | .above _ => True

/-- A last name that is no link is arrived at whether links are followed or not. If it was arrived
at through a link, that link was followed in any case. -/
theorem arriveAt_of_settled (hsettled : files.Settled arrival)
    (honLink : ∀ place target rest, onLink place target rest = .ok arrival →
      onLink' place target rest = .ok arrival) {slash : Bool}
    (h : files.arriveAt follow onLink place name slash = .ok arrival) :
    files.arriveAt (fun _ => true) onLink' place name slash = .ok arrival := by
  unfold arriveAt at h ⊢
  by_cases hdot : name = "."
  · rwa [if_pos hdot] at h ⊢
  · by_cases hdots : name = ".."
    · rwa [if_neg hdot, if_pos hdots] at h ⊢
    · rw [if_neg hdot, if_neg hdots] at h ⊢
      cases hget : files.get? (place ++ [name]) with
      | none => rwa [hget] at h
      | some item =>
        rw [hget] at h
        cases item with
        | file | directory | fifo | socket | device => exact h
        | link target =>
          simp only at h
          split at h
          · exact honLink _ _ _ h
          · cases h
            exact absurd hget (hsettled target)

/-- A walk that ends at something else than a link ends there if all links are followed, since it
has met no link that it did not follow. -/
theorem walk_of_settled (hsettled : files.Settled arrival) {links : Nat} {names : List String}
    (h : files.walk follow links place names = .ok arrival) :
    files.walk (fun _ => true) links place names = .ok arrival := by
  induction links generalizing place names with
  | zero =>
    exact walkNames_mono (.refl files)
      (fun _ _ _ => arriveAt_of_settled hsettled fun _ _ _ hlink => hlink)
      (fun _ _ _ hlink => hlink) h
  | succ links ih =>
    exact walkNames_mono (.refl files)
      (fun _ _ _ => arriveAt_of_settled hsettled fun _ _ _ hlink => ih hlink)
      (fun _ _ _ hlink => ih hlink) h

/-- Whether a last link is followed or not, a path that is arrived at something else is arrived at
the same. So operations that do not follow a last link can be asked where their path leads. -/
theorem arrive_of_settled (hsettled : files.Settled arrival)
    (h : files.arrive follow path = .ok arrival) :
    files.arrive (fun _ => true) path = .ok arrival :=
  arrive_mono rfl (walk_of_settled hsettled) h

end Walks

/-- What is found under a name in a directory is the item at that place. The name may still be too
long to be looked for. -/
theorem get?_of_child? {item? : Option Item} (h : files.child? directory name = .ok item?) :
    files.get? (directory ++ [name]) = item? := by
  unfold child? at h
  split at h
  · cases h
  · cases h
    rfl

/-- A path leads to what it is arrived at, unless that is a link. If a slash stands after its last
name, it must be a directory. -/
theorem locate_of_arrive {follow : Bool → Bool} {slash : Bool}
    (harrive : files.arrive follow path = .ok (.entry directory name slash))
    (hchild : files.child? directory name = .ok (some item))
    (hlink : ∀ target, item ≠ .link target) (hslash : slash = true → item = .directory) :
    files.locate path = .ok (directory ++ [name], item) := by
  have hget := get?_of_child? hchild
  have hsettled : files.Settled (.entry directory name slash) := by
    intro target heq
    rw [hget] at heq
    exact hlink target (Option.some.inj heq)
  rw [locate, arrive_of_settled hsettled harrive]
  simp only [bind, Except.bind, hchild]
  cases slash with
  | false => rfl
  | true => rw [hslash rfl]; rfl

/-- A path names a place if its last name is not followed. -/
def Names (files : FileSystem) (path : String) (place : Place) : Prop :=
  ∃ directory name slash,
    files.arrive (fun _ => false) path = .ok (.entry directory name slash) ∧
      place = directory ++ [name]

/-- A path never names the root, since a place that is named has a last name. -/
theorem Names.ne_nil (h : files.Names path place) : place ≠ [] := by
  obtain ⟨directory, name, slash, -, rfl⟩ := h
  exact List.append_ne_nil_of_right_ne_nil _ (List.cons_ne_nil _ _)

/-- A path names one place at most, the one at which it arrives. So the place that an operation has
changed can be spoken of. -/
theorem Names.eq {place' : Place} (h : files.Names path place) (h' : files.Names path place') :
    place = place' := by
  obtain ⟨directory, name, slash, harrive, rfl⟩ := h
  obtain ⟨directory', name', slash', harrive', rfl⟩ := h'
  rw [harrive] at harrive'
  cases harrive'
  rfl

/-! ## Operations -/

/-- What a path leads to for writing is what it is arrived at, and neither a directory nor a socket.
A slash at the end would have been refused. -/
theorem writable_cases {item? : Option Item} (h : files.writable path = .ok (place, item?)) :
    ∃ directory name, place = directory ++ [name] ∧ files.child? directory name = .ok item? ∧
      files.arrive (fun slash => !slash) path = .ok (.entry directory name false) ∧
      item? ≠ some .directory ∧ item? ≠ some .socket := by
  obtain ⟨arrival, harrive, h⟩ := exists_of_bind_eq_ok h
  cases arrival with
  | top | here | above => cases h
  | entry directory name slash =>
    cases slash with
    | true => cases h
    | false =>
      obtain ⟨found, hchild, h⟩ := exists_of_bind_eq_ok h
      split at h
      · cases h
      · cases h
      · next hdirectory hsocket =>
        cases h
        exact ⟨directory, name, rfl, hchild, harrive, hdirectory, hsocket⟩

/-- Writing makes a file where nothing is, or changes the content of the file that the path leads
to, or changes nothing. The last is what devices and named pipes do. -/
theorem overwrite_cases (h : files.overwrite path content = .ok after) :
    (∃ place, files.get? place = none ∧ after = files.addFile place content) ∨
    (∃ place number old, files.get? place = some (.file number old) ∧ files.LeadsTo path place ∧
      after = files.set place (.file number content)) ∨
    after = files := by
  obtain ⟨⟨place, item?⟩, hwritable, h⟩ := exists_of_bind_eq_ok h
  obtain ⟨directory, name, rfl, hchild, harrive, -, -⟩ := writable_cases hwritable
  cases item? with
  | none =>
    cases h
    exact .inl ⟨_, get?_of_child? hchild, rfl⟩
  | some item =>
    cases item with
    | file number old =>
      cases h
      have hlocate := locate_of_arrive harrive hchild (by simp) (by simp)
      exact .inr (.inl ⟨_, number, old, get?_of_child? hchild, ⟨_, hlocate⟩, rfl⟩)
    | directory | link | fifo | socket | device =>
      cases h
      exact .inr (.inr rfl)

/-- A directory is made where nothing is, at the place that the path names. A link at its end is not
followed, but is in the way. -/
theorem makeDirectory_cases (h : files.makeDirectory path = .ok after) :
    ∃ place, files.Names path place ∧ files.get? place = none ∧
      after = files.set place .directory := by
  obtain ⟨arrival, harrive, h⟩ := exists_of_bind_eq_ok h
  cases arrival with
  | top | here | above => cases h
  | entry directory name slash =>
    obtain ⟨item?, hchild, h⟩ := exists_of_bind_eq_ok h
    cases item? with
    | some item => cases h
    | none =>
      cases h
      exact ⟨_, ⟨_, _, _, harrive, rfl⟩, get?_of_child? hchild, rfl⟩

/-- When a directory is removed, and what is left: the name must not be too long, and at the place
is a directory that holds nothing. A slash at the end does not matter. -/
theorem removeDirectory_eq_ok_iff {slash : Bool}
    (harrive : files.arrive (fun _ => false) path = .ok (.entry directory name slash))
    (hget : files.get? (directory ++ [name]) = some item) :
    files.removeDirectory path = .ok after ↔
      ¬isTooLong name ∧ item = .directory ∧ files.isBare (directory ++ [name]) ∧
        after = files.erase (directory ++ [name]) := by
  rw [removeDirectory, harrive]
  simp only [bind, Except.bind, child?, hget]
  by_cases hlong : isTooLong name
  · simp [hlong]
  · cases item with
    | directory =>
      by_cases hbare : files.isBare (directory ++ [name]) <;>
        simp [hlong, hbare, pure, Except.pure, throw, throwThe, MonadExceptOf.throw, eq_comm]
    | file | link | fifo | socket | device => simp [hlong, throw, throwThe, MonadExceptOf.throw]

/-- When a file is removed, and what is left: the name must not be too long and not end in a slash,
and at the place is anything but a directory. -/
theorem removeFile_eq_ok_iff {slash : Bool}
    (harrive : files.arrive (fun _ => false) path = .ok (.entry directory name slash))
    (hget : files.get? (directory ++ [name]) = some item) :
    files.removeFile path = .ok after ↔
      ¬isTooLong name ∧ item ≠ .directory ∧ slash = false ∧
        after = files.erase (directory ++ [name]) := by
  rw [removeFile, harrive]
  simp only [bind, Except.bind, child?, hget]
  by_cases hlong : isTooLong name
  · simp [hlong]
  · cases item with
    | directory => simp [hlong, throw, throwThe, MonadExceptOf.throw]
    | file | link | fifo | socket | device =>
      cases slash <;> simp [hlong, pure, Except.pure, throw, throwThe, MonadExceptOf.throw, eq_comm]

/-- A directory that is removed is named by the path and holds nothing. It is taken away, and
nothing else is. -/
theorem removeDirectory_cases (h : files.removeDirectory path = .ok after) :
    ∃ place, files.Names path place ∧ files.get? place = some .directory ∧ files.isBare place ∧
      after = files.erase place := by
  obtain ⟨arrival, harrive, hrest⟩ := exists_of_bind_eq_ok h
  cases arrival with
  | top | here | above => cases hrest
  | entry directory name slash =>
    obtain ⟨item?, hchild, hrest⟩ := exists_of_bind_eq_ok hrest
    cases item? with
    | none => cases hrest
    | some item =>
      have hget := get?_of_child? hchild
      obtain ⟨-, rfl, hbare, hafter⟩ := (removeDirectory_eq_ok_iff harrive hget).1 h
      exact ⟨_, ⟨_, _, _, harrive, rfl⟩, hget, hbare, hafter⟩

/-- A file that is removed is a link, or what the path leads to. In both cases it is what the path
names, so what a link leads to is not removed. -/
theorem removeFile_cases (h : files.removeFile path = .ok after) :
    ∃ place item, files.Names path place ∧ files.get? place = some item ∧ item ≠ .directory ∧
      ((∃ target, item = .link target) ∨ files.locate path = .ok (place, item)) ∧
      after = files.erase place := by
  obtain ⟨arrival, harrive, hrest⟩ := exists_of_bind_eq_ok h
  cases arrival with
  | top | here | above => cases hrest
  | entry directory name slash =>
    obtain ⟨item?, hchild, hrest⟩ := exists_of_bind_eq_ok hrest
    cases item? with
    | none => cases hrest
    | some item =>
      have hget := get?_of_child? hchild
      obtain ⟨-, hkind, rfl, hafter⟩ := (removeFile_eq_ok_iff harrive hget).1 h
      refine ⟨_, item, ⟨_, _, _, harrive, rfl⟩, hget, hkind, ?_, hafter⟩
      by_cases hlink : ∃ target, item = .link target
      · exact .inl hlink
      · exact .inr (locate_of_arrive harrive hchild (fun target heq => hlink ⟨target, heq⟩)
          (by simp))

/-- All regular files stay as they are, except one that the path leads to. -/
def Spares (files : FileSystem) (path : String) (after : FileSystem) : Prop :=
  ∀ place number content, files.get? place = some (.file number content) →
    ¬files.LeadsTo path place → after.get? place = some (.file number content)

/-- Writing spares every file but the one that its path leads to. A file that it makes stands where
no other one was. -/
theorem Spares.overwrite (h : files.overwrite path content = .ok after) :
    files.Spares path after := by
  intro kept number old hkept hleads
  rcases overwrite_cases h with ⟨place, hget, rfl⟩ | ⟨place, _, _, -, hplace, rfl⟩ | rfl
  · have hne : kept ≠ place := fun heq => by simp [heq, hget] at hkept
    rw [get?_addFile_of_ne hne, hkept]
  · have hne : kept ≠ place := fun heq => hleads (heq ▸ hplace)
    rw [get?_set_of_ne hne, hkept]
  · exact hkept

/-- Making a directory spares every file, also one that its path would lead to, since a directory is
made where nothing was. -/
theorem Spares.makeDirectory (h : files.makeDirectory path = .ok after) :
    files.Spares path after := by
  intro kept number old hkept _
  obtain ⟨place, -, hget, rfl⟩ := makeDirectory_cases h
  have hne : kept ≠ place := fun heq => by simp [heq, hget] at hkept
  rw [get?_set_of_ne hne, hkept]

/-- Removing a directory spares every file: what is taken away is a directory, and it holds
nothing. -/
theorem Spares.removeDirectory (h : files.removeDirectory path = .ok after) :
    files.Spares path after := by
  intro kept number old hkept _
  obtain ⟨place, -, hget, -, rfl⟩ := removeDirectory_cases h
  have hne : kept ≠ place := fun heq => by simp [heq, hget] at hkept
  rw [get?_erase_of_ne hne, hkept]

/-- Removing a file spares every file but the one that its path leads to. If a link is removed, the
path may lead to a file, and that file is spared as well. -/
theorem Spares.removeFile (h : files.removeFile path = .ok after) : files.Spares path after := by
  intro kept number old hkept hleads
  obtain ⟨place, item, -, hget, -, hplace, rfl⟩ := removeFile_cases h
  have hne : kept ≠ place := by
    rintro rfl
    rcases hplace with ⟨target, rfl⟩ | hplace
    · rw [hkept] at hget
      cases hget
    · exact hleads ⟨item, hplace⟩
  rw [get?_erase_of_ne hne, hkept]

end FileSystem

/-! ## Requests -/

section Requests

variable {α : Type} {path : String} {answer : Except Errno α}

/-- A request succeeds if its path has no null character and the host succeeds. The answer is not
even asked for otherwise. -/
theorem request_eq_ok_iff {a : α} :
    request path answer = .ok a ↔ '\x00' ∉ path.toList ∧ answer = .ok a := by
  unfold request
  split
  · next hnull => exact iff_of_false (by simp) fun h => h.1 (by simpa using hnull)
  · next hnull =>
    cases answer with
    | error errno => exact iff_of_false (fun h => by cases h) fun h => by cases h.2
    | ok b =>
      exact ⟨fun h => ⟨by simpa using hnull, congrArg _ (Except.ok.inj h)⟩,
        fun h => congrArg _ (Except.ok.inj h.2)⟩

/-- A request is refused for a null character exactly if its path has one, whatever the host would
have answered. -/
theorem request_eq_nullInPath_iff :
    request path answer = .error .nullInPath ↔ '\x00' ∈ path.toList := by
  unfold request
  split
  · next hnull => simpa using hnull
  · next hnull =>
    refine iff_of_false (fun h => ?_) (by simpa using hnull)
    cases answer <;> cases h

end Requests

end ActivityScript.Host
