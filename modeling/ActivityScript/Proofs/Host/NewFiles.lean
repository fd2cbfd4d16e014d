import ActivityScript.Proofs.Host.Frames
import Mathlib.Tactic.SplitIfs

/-!
# What a new file changes

A file that is made where nothing was changes almost nothing for paths. No walk goes through it,
because it is neither a directory nor a link, so every path arrives where it did before
(`toOption_arrive_addFile`); only the reason of a failure may be another one. A path that now leads
to a file led to nothing before, and it finds what was put there (`contentAt_addFile`).

Opening a file for appending makes such a file at most (`touched_of_openAppend`).
-/

namespace ActivityScript.Host.FileSystem

variable {files after : FileSystem} {new place : Place} {path name : String}
  {content : List UInt8} {follow : Bool → Bool}

/-! ## Items -/

/-- Where nothing is, there is not the root, which is a directory always. So a place that something
is made at has a last name. -/
theorem ne_nil_of_get?_eq_none (h : files.get? new = none) : new ≠ [] := by
  rintro rfl
  cases h

/-- A new file is found where it was made, with the number that was not used before and with what it
was made to hold. -/
theorem get?_addFile_self (h : files.get? new = none) :
    (files.addFile new content).get? new = some (.file files.unused content) :=
  get?_set_self (ne_nil_of_get?_eq_none h)

/-- A new file is no directory, and was none when nothing was there. So exactly the places that were
directories are directories now. -/
theorem isDirectory_addFile (h : files.get? new = none) (place : Place) :
    (files.addFile new content).isDirectory place = files.isDirectory place := by
  rw [isDirectory, isDirectory]
  by_cases hplace : place = new
  · subst hplace
    rw [get?_addFile_self h, h]
    rfl
  · rw [get?_addFile_of_ne hplace]

/-! ## Walks -/

section Walks

variable {onLink onLink' : Place → String → List String → Except Errno Arrival}

/-- The last name of a walk is arrived at as before. Whether a file or nothing is there makes no
difference, since only links are followed. -/
theorem toOption_arriveAt_addFile (h : files.get? new = none)
    (honLink : ∀ place target rest,
      (onLink' place target rest).toOption = (onLink place target rest).toOption) (slash : Bool) :
    ((files.addFile new content).arriveAt follow onLink' place name slash).toOption
      = (files.arriveAt follow onLink place name slash).toOption := by
  unfold arriveAt
  by_cases hplace : place ++ [name] = new
  · subst hplace
    rw [get?_addFile_self h, h]
  · rw [get?_addFile_of_ne hplace]
    split
    · rfl
    · split
      · rfl
      · split
        · split
          · exact honLink _ _ _
          · rfl
        · rfl

/-- Names that are followed into a new file fail, as they did when there was none. The reason is
another one: a file is no directory, and nothing is not there. -/
theorem toOption_walkNames_addFile (h : files.get? new = none)
    (honLink : ∀ place target rest,
      (onLink' place target rest).toOption = (onLink place target rest).toOption)
    (place : Place) (names : List String) :
    ((files.addFile new content).walkNames follow onLink' place names).toOption
      = (files.walkNames follow onLink place names).toOption := by
  induction names generalizing place with
  | nil => rfl
  | cons name names ih =>
    rw [walkNames, walkNames, isDirectory_addFile h]
    split_ifs with hdirectory hempty hslash hdot hdots hlong
    · rfl
    · exact toOption_arriveAt_addFile h honLink _
    · exact toOption_arriveAt_addFile h honLink _
    · exact ih place
    · exact ih place.dropLast
    · rfl
    · by_cases hplace : place ++ [name] = new
      · -- The next name would be looked for in the new file, which is no directory.
        subst hplace
        have hfails : ((files.addFile (place ++ [name]) content).walkNames follow onLink'
            (place ++ [name]) names).toOption = none := by
          obtain ⟨next, rest, rfl⟩ := List.exists_cons_of_ne_nil hempty
          rw [walkNames, isDirectory_addFile h, if_pos (by simp [isDirectory, h])]
          rfl
        rw [get?_addFile_self h, h]
        exact hfails
      · rw [get?_addFile_of_ne hplace]
        cases files.get? (place ++ [name]) with
        | none => rfl
        | some item =>
          cases item with
          | link target => exact honLink _ _ _
          | file | directory | fifo | socket | device => exact ih (place ++ [name])

/-- A walk arrives where it did before, through however many links. The induction is on the links
that may still be followed. -/
theorem toOption_walk_addFile (h : files.get? new = none) (links : Nat) (place : Place)
    (names : List String) :
    ((files.addFile new content).walk follow links place names).toOption
      = (files.walk follow links place names).toOption := by
  induction links generalizing place names with
  | zero => exact toOption_walkNames_addFile h (fun _ _ _ => rfl) place names
  | succ links ih => exact toOption_walkNames_addFile h (fun _ _ _ => ih _ _) place names

/-- Every path arrives where it did before, and fails where it failed before. A path that is empty
or too long is refused without looking at any file. -/
theorem toOption_arrive_addFile (h : files.get? new = none) (path : String) :
    ((files.addFile new content).arrive follow path).toOption
      = (files.arrive follow path).toOption := by
  unfold arrive
  split
  · rfl
  · split
    · rfl
    · exact toOption_walk_addFile h _ _ _

end Walks

/-! ## Contents -/

/-- A path leads where it did before, unless it led to nothing and leads to the new file now. A path
with a slash at its end does not lead to a file. -/
theorem locate_addFile (h : files.get? new = none) (content : List UInt8) (path : String) :
    ((files.addFile new content).locate path).toOption = (files.locate path).toOption ∨
      (files.locate path).toOption = none ∧
        (files.addFile new content).locate path = .ok (new, .file files.unused content) := by
  have harrive : ((files.addFile new content).arrive (fun _ => true) path).toOption
      = (files.arrive (fun _ => true) path).toOption :=
    toOption_arrive_addFile h path
  unfold locate
  rcases cases_of_toOption_eq harrive with
    ⟨errno, errno', hafter, hbefore⟩ | ⟨arrival, hafter, hbefore⟩
  · rw [hafter, hbefore]
    exact .inl rfl
  · rw [hafter, hbefore]
    cases arrival with
    | top | here | above => exact .inl rfl
    | entry directory name slash =>
      simp only [bind, Except.bind, child?]
      split_ifs with hlong
      · exact .inl rfl
      · by_cases hplace : directory ++ [name] = new
        · subst hplace
          rw [get?_addFile_self h, h]
          cases slash with
          | true => exact .inl rfl
          | false => exact .inr ⟨rfl, rfl⟩
        · rw [get?_addFile_of_ne hplace]
          exact .inl rfl

/-- A file is found with what it held before, unless the path led to nothing and leads to the new
file now. Then it is found with what the new file holds. -/
theorem contentAt_addFile (h : files.get? new = none) (content : List UInt8) (path : String) :
    ((files.addFile new content).contentAt path).toOption = (files.contentAt path).toOption ∨
      (files.contentAt path).toOption = none ∧
        (files.addFile new content).contentAt path = .ok content := by
  unfold contentAt
  rcases locate_addFile h content path with heq | ⟨hbefore, hafter⟩
  · left
    rcases cases_of_toOption_eq heq with ⟨errno, errno', hafter, hbefore⟩ | ⟨found, hafter, hbefore⟩
    · rw [hafter, hbefore]
      rfl
    · rw [hafter, hbefore]
  · right
    rw [hafter]
    cases hlocate : files.locate path with
    | error errno => exact ⟨rfl, rfl⟩
    | ok found => rw [hlocate] at hbefore; cases hbefore

/-! ## Opening for appending -/

/-- The same files, or one more, which is empty and stands where nothing was. -/
def Touched (files after : FileSystem) : Prop :=
  after = files ∨ ∃ place, files.get? place = none ∧ after = files.addFile place []

/-- A file that is opened for appending keeps what it holds; a missing one is made. Anything else
that can be opened is not changed either. -/
theorem touched_of_openAppend {handle : Handle} (h : files.openAppend path = .ok (handle, after)) :
    Touched files after := by
  obtain ⟨⟨place, item?⟩, hwritable, h⟩ := exists_of_bind_eq_ok h
  obtain ⟨directory, name, rfl, hchild, -, -, -⟩ := writable_cases hwritable
  cases item? with
  | none =>
    cases h
    exact .inr ⟨_, get?_of_child? hchild, rfl⟩
  | some item => cases item <;> cases h <;> exact .inl rfl

/-- A touched file system finds no more than an empty file in addition. So an excerpt of a script is
the same before and after a log is opened, unless there was no script. -/
theorem Touched.contentAt (h : Touched files after) (path : String) :
    (after.contentAt path).toOption = (files.contentAt path).toOption ∨
      (files.contentAt path).toOption = none ∧ after.contentAt path = .ok [] := by
  rcases h with rfl | ⟨place, hplace, rfl⟩
  · exact .inl rfl
  · exact contentAt_addFile hplace [] path

end ActivityScript.Host.FileSystem
