import ActivityScript.Host.Walk

/-!
# What walks depend on and where they end

A walk that arrives somewhere asks only for directories, links and the presence of other items. It
arrives at the same name in every file system that still has them (`FileSystem.Extends`,
`arrive_of_extends`), whatever files hold.

The name that a walk arrives at is looked for in a directory. It is no link that the walk would have
followed, and a slash stands after it if the names to follow ended in a slash (`Fits`). Hence a walk
that follows all links and arrives without a slash has not met a slash before
(`arrive_of_no_slash`).
-/

namespace ActivityScript.Host.FileSystem

variable {files after : FileSystem} {place directory : Place} {path name target : String}
  {names rest : List String} {arrival : Arrival} {slash : Bool} {follow follow' : Bool → Bool}
  {onLink onLink' : Place → String → List String → Except Errno Arrival}

/-! ## File systems with the same ways -/

/-- All directories, links and items are still there, and there are no new links. -/
structure Extends (files after : FileSystem) : Prop where
  start_eq : after.start = files.start
  isDirectory : ∀ {place}, files.isDirectory place → after.isDirectory place
  isSome : ∀ {place}, (files.get? place).isSome → (after.get? place).isSome
  link_iff : ∀ {place target},
    after.get? place = some (.link target) ↔ files.get? place = some (.link target)

/-- A file system has its own directories, links and items. This is used where walks in one file
system are compared that treat links differently. -/
theorem Extends.refl (files : FileSystem) : files.Extends files :=
  ⟨rfl, id, id, Iff.rfl⟩

/-- The last name of a walk is arrived at alike in a file system that has what was there, if links
are followed alike. Only a link makes a difference to the last name, and there are no new ones. -/
theorem arriveAt_of_extends (hextends : files.Extends after)
    (honLink : ∀ place target rest, onLink place target rest = .ok arrival →
      onLink' place target rest = .ok arrival)
    (h : files.arriveAt follow onLink place name slash = .ok arrival) :
    after.arriveAt follow onLink' place name slash = .ok arrival := by
  unfold arriveAt at h ⊢
  by_cases hdot : name = "."
  · rwa [if_pos hdot] at h ⊢
  by_cases hdots : name = ".."
  · rwa [if_neg hdot, if_pos hdots] at h ⊢
  rw [if_neg hdot, if_neg hdots] at h ⊢
  split at h
  · next target hlink =>
    rw [hextends.link_iff.2 hlink]
    simp only
    split at h
    · next hfollow => rw [if_pos hfollow]; exact honLink _ _ _ h
    · next hfollow => rw [if_neg hfollow]; exact h
  · next hnotLink =>
    split
    · next target hlink => exact absurd (hextends.link_iff.1 hlink) (hnotLink target)
    · exact h

/-- Names are followed alike if the last of them is, and every link on the way. Both may be treated
by other rules afterwards, which is why the two hypotheses are there. -/
theorem walkNames_mono (hextends : files.Extends after)
    (hlast : ∀ place name slash, files.arriveAt follow onLink place name slash = .ok arrival →
      after.arriveAt follow' onLink' place name slash = .ok arrival)
    (honLink : ∀ place target rest, onLink place target rest = .ok arrival →
      onLink' place target rest = .ok arrival)
    (h : files.walkNames follow onLink place names = .ok arrival) :
    after.walkNames follow' onLink' place names = .ok arrival := by
  have hstays {place : Place} (hdirectory : ¬(!files.isDirectory place) = true) :
      ¬(!after.isDirectory place) = true := by
    have hbefore : files.isDirectory place := by simpa using hdirectory
    simpa using hextends.isDirectory hbefore
  fun_induction walkNames files follow onLink place names with
  | case1 => exact h
  | case2 => cases h
  | case3 place name hdirectory =>
    rw [walkNames, if_neg (hstays hdirectory), if_pos rfl]
    exact hlast _ _ _ h
  | case4 place name hdirectory hempty =>
    rw [walkNames, if_neg (hstays hdirectory), if_neg hempty, if_pos rfl]
    exact hlast _ _ _ h
  | case5 place names hdirectory hempty hslash ih =>
    rw [walkNames, if_neg (hstays hdirectory), if_neg hempty, if_neg hslash, if_pos rfl]
    exact ih h
  | case6 place names hdirectory hempty hslash hdot ih =>
    rw [walkNames, if_neg (hstays hdirectory), if_neg hempty, if_neg hslash, if_neg hdot,
      if_pos rfl]
    exact ih h
  | case7 => cases h
  | case8 => cases h
  | case9 place name names hdirectory hempty hslash hdot hdots hlong target hlink =>
    rw [walkNames, if_neg (hstays hdirectory), if_neg hempty, if_neg hslash, if_neg hdot,
      if_neg hdots, if_neg hlong, hextends.link_iff.2 hlink]
    exact honLink _ _ _ h
  | case10 place name names hdirectory hempty hslash hdot hdots hlong item hnotLink hget ih =>
    rw [walkNames, if_neg (hstays hdirectory), if_neg hempty, if_neg hslash, if_neg hdot,
      if_neg hdots, if_neg hlong]
    have hsome : (files.get? (place ++ [name])).isSome := by rw [hget]; rfl
    obtain ⟨found, hfound⟩ := Option.isSome_iff_exists.1 (hextends.isSome hsome)
    rw [hfound]
    cases found with
    | link target =>
      rw [hextends.link_iff.1 hfound] at hget
      exact absurd (Option.some.inj hget).symm (hnotLink target)
    | file | directory | fifo | socket | device => exact ih h

/-- A walk arrives at the same name in a file system that has what was there. The induction is on
the number of links that may still be followed. -/
theorem walk_of_extends (hextends : files.Extends after) {links : Nat}
    (h : files.walk follow links place names = .ok arrival) :
    after.walk follow links place names = .ok arrival := by
  induction links generalizing place names with
  | zero =>
    exact walkNames_mono hextends
      (fun _ _ _ => arriveAt_of_extends hextends fun _ _ _ hlink => hlink)
      (fun _ _ _ hlink => hlink) h
  | succ links ih =>
    exact walkNames_mono hextends
      (fun _ _ _ => arriveAt_of_extends hextends fun _ _ _ hlink => ih hlink)
      (fun _ _ _ hlink => ih hlink) h

/-- Paths are followed alike if their names are. A path that is empty or too long is refused before
any name is looked at. -/
theorem arrive_mono (hstart : after.start = files.start)
    (hwalk : ∀ {links place names}, files.walk follow links place names = .ok arrival →
      after.walk follow' links place names = .ok arrival)
    (h : files.arrive follow path = .ok arrival) : after.arrive follow' path = .ok arrival := by
  unfold arrive at h ⊢
  rw [hstart]
  split at h
  · cases h
  · next hempty =>
    split at h
    · cases h
    · next hlong =>
      rw [if_neg hempty, if_neg hlong]
      exact hwalk h

/-- A path that arrived somewhere still arrives there, whatever files were made or written to
meanwhile. A path that failed may arrive somewhere now. -/
theorem arrive_of_extends (hextends : files.Extends after)
    (h : files.arrive follow path = .ok arrival) : after.arrive follow path = .ok arrival :=
  arrive_mono hextends.start_eq (walk_of_extends hextends) h

/-! ## Where walks end -/

/-- Names that can only lead to a directory: there are none, or a slash stands after the last. -/
def EndInSlash (names : List String) : Prop :=
  names = [] ∨ names.getLast? = some "" ∧ names ≠ [""]

/-- A single name does not end in a slash: if it is empty, it stands for the path of the root and
not for what follows a slash. -/
theorem not_endInSlash_singleton (name : String) : ¬EndInSlash [name] := by
  rintro (h | ⟨hlast, hne⟩)
  · cases h
  · cases hlast
    exact hne rfl

/-- If names end in a slash, so do the names after the first, as long as there are any. This is how
the slash is carried along a walk. -/
theorem EndInSlash.getLast?_tail (h : EndInSlash (name :: names)) (hempty : names ≠ []) :
    names.getLast? = some "" := by
  rcases h with h | ⟨hlast, -⟩
  · cases h
  · rwa [List.getLast?_cons_of_ne_nil hempty] at hlast

/-- A link before a slash is replaced by names before a slash. So the slash is not lost when a link
is followed, and it is found where the walk ends. -/
theorem endInSlash_spliced (h : rest.getLast? = some "") : EndInSlash (spliced target rest) := by
  have hne : rest ≠ [] := by rintro rfl; cases h
  unfold spliced
  rw [if_neg hne]
  split
  · exact .inl rfl
  · next hroot =>
    refine .inr ⟨by rw [List.getLast?_append, h]; rfl, fun heq => hroot ?_⟩
    rcases List.append_eq_singleton_iff.1 heq with ⟨hnames, hrest⟩ | ⟨-, hrest⟩
    · exact ⟨hnames, hrest⟩
    · exact absurd hrest hne

/-- What is known of a name that names lead to. -/
def Fits (files : FileSystem) (follow : Bool → Bool) (names : List String) : Arrival → Prop
  | .entry directory name slash =>
    files.isDirectory directory ∧
    (follow slash → ∀ target, files.get? (directory ++ [name]) ≠ some (.link target)) ∧
    (EndInSlash names → slash)
  | .top | .here _ | .above _ => True

/-- What fits names fits other names that end in a slash only if these do. Only the slash at the end
of the names is looked at. -/
theorem Fits.of_imp {names' : List String} (h : files.Fits follow names arrival)
    (himp : EndInSlash names' → EndInSlash names) : files.Fits follow names' arrival := by
  cases arrival with
  | top | here | above => trivial
  | entry directory name slash => exact ⟨h.1, h.2.1, fun hslash => h.2.2 (himp hslash)⟩

/-- What the last name leads to fits the names that it is the last of, if what links lead to fits
the names that replace them. -/
theorem fits_of_arriveAt (hdirectory : files.isDirectory place)
    (honLink : ∀ place target rest, onLink place target rest = .ok arrival →
      files.Fits follow (spliced target rest) arrival)
    (hslash : EndInSlash names → slash)
    (h : files.arriveAt follow onLink place name slash = .ok arrival) :
    files.Fits follow names arrival := by
  unfold arriveAt at h
  split at h
  · cases h; trivial
  split at h
  · cases h; trivial
  split at h
  · next target hlink =>
    split at h
    · refine (honLink _ _ _ h).of_imp fun hends => endInSlash_spliced ?_
      rw [hslash hends]
      rfl
    · next hfollow =>
      cases h
      exact ⟨hdirectory, fun hfollows => absurd hfollows hfollow, hslash⟩
  · next hnotLink =>
    cases h
    exact ⟨hdirectory, fun _ => hnotLink, hslash⟩

/-- What names lead to fits them, if what links lead to fits the names that replace them. Every step
of the walk keeps the slash at the end. -/
theorem fits_of_walkNames
    (honLink : ∀ place target rest, onLink place target rest = .ok arrival →
      files.Fits follow (spliced target rest) arrival)
    (h : files.walkNames follow onLink place names = .ok arrival) :
    files.Fits follow names arrival := by
  fun_induction walkNames files follow onLink place names with
  | case1 => cases h; trivial
  | case2 => cases h
  | case3 place name hdirectory =>
    exact fits_of_arriveAt (by simpa using hdirectory) honLink
      (fun hends => absurd hends (not_endInSlash_singleton name)) h
  | case4 place name hdirectory =>
    exact fits_of_arriveAt (by simpa using hdirectory) honLink (fun _ => rfl) h
  | case5 place names _ hempty hslash ih =>
    exact (ih h).of_imp fun hends => .inr ⟨hends.getLast?_tail hempty, hslash⟩
  | case6 place names _ hempty hslash _ ih =>
    exact (ih h).of_imp fun hends => .inr ⟨hends.getLast?_tail hempty, hslash⟩
  | case7 => cases h
  | case8 => cases h
  | case9 place name names _ hempty =>
    exact (honLink _ _ _ h).of_imp fun hends => endInSlash_spliced (hends.getLast?_tail hempty)
  | case10 place name names _ hempty hslash _ _ _ _ _ _ ih =>
    exact (ih h).of_imp fun hends => .inr ⟨hends.getLast?_tail hempty, hslash⟩

/-- What names lead to fits them, whatever links are on the way: the target of a link takes its
place among the names, and one link less may be followed. -/
theorem fits_of_walk {links : Nat} (h : files.walk follow links place names = .ok arrival) :
    files.Fits follow names arrival := by
  induction links generalizing place names with
  | zero => exact fits_of_walkNames (fun _ _ _ hlink => by cases hlink) h
  | succ links ih => exact fits_of_walkNames (fun _ _ _ hlink => ih hlink) h

/-- A name is looked for in a directory, and a link that is to be followed is followed. So what is
found at the end is no such link. -/
theorem fits_of_arrive (h : files.arrive follow path = .ok (.entry directory name slash)) :
    files.isDirectory directory ∧
      (follow slash → ∀ target, files.get? (directory ++ [name]) ≠ some (.link target)) := by
  unfold arrive at h
  split at h
  · cases h
  · split at h
    · cases h
    · have hfits := fits_of_walk h
      exact ⟨hfits.1, hfits.2.1⟩

/-! ## Links before a slash -/

/-- A last name without a slash is arrived at whether links before a slash are followed or not. If a
slash stood after it, following a link would not lose it (`endInSlash_spliced`). -/
theorem arriveAt_of_no_slash
    (honLink : ∀ place target rest, onLink place target rest = .ok (.entry directory name false) →
      rest.getLast? ≠ some "" ∧ onLink' place target rest = .ok (.entry directory name false))
    {last : String}
    (h : files.arriveAt (fun _ => true) onLink place last slash
      = .ok (.entry directory name false)) :
    files.arriveAt (fun slash => !slash) onLink' place last slash
      = .ok (.entry directory name false) := by
  unfold arriveAt at h ⊢
  by_cases hdot : last = "."
  · rw [if_pos hdot] at h
    cases h
  by_cases hdots : last = ".."
  · rw [if_neg hdot, if_pos hdots] at h
    cases h
  rw [if_neg hdot, if_neg hdots] at h ⊢
  split at h
  · next target hlink =>
    cases slash with
    | true => exact absurd rfl (honLink _ _ _ h).1
    | false => exact (honLink _ _ _ h).2
  · exact h

/-- A walk that ends without a slash has met no link before a slash at its end, so it ends alike if
such links are not followed. -/
theorem walk_of_no_slash {links : Nat}
    (h : files.walk (fun _ => true) links place names = .ok (.entry directory name false)) :
    files.walk (fun slash => !slash) links place names = .ok (.entry directory name false) := by
  induction links generalizing place names with
  | zero =>
    exact walkNames_mono (.refl files)
      (fun _ _ _ => arriveAt_of_no_slash fun _ _ _ hlink => by cases hlink)
      (fun _ _ _ hlink => by cases hlink) h
  | succ links ih =>
    refine walkNames_mono (.refl files) (fun _ _ _ => arriveAt_of_no_slash ?_)
      (fun _ _ _ hlink => ih hlink) h
    intro place target rest hlink
    refine ⟨fun hrest => ?_, ih hlink⟩
    exact Bool.false_ne_true ((fits_of_walk hlink).2.2 (endInSlash_spliced hrest))

/-- A path that leads to a name without a slash does so if links before a slash are not followed.
Writing opens paths in the second way and is asked about in the first. -/
theorem arrive_of_no_slash
    (h : files.arrive (fun _ => true) path = .ok (.entry directory name false)) :
    files.arrive (fun slash => !slash) path = .ok (.entry directory name false) :=
  arrive_mono rfl walk_of_no_slash h

end ActivityScript.Host.FileSystem
