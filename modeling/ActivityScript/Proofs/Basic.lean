import ActivityScript.Association
import Mathlib.Data.List.Forall2

/-!
# Lists, results and association lists

Facts about lists, about `Option` and `Except` results, and about association lists that have
nothing to do with what the lists and results are about. Scopes and file systems are association
lists, so what is said here of `Association.put` holds of names that are bound and of items that are
put at places.
-/

namespace ActivityScript

/-! ## Lists -/

section Lists

variable {α β : Type}

/-- Two ways of cutting a list in three around one element: the first element stands before, at or
after the second, and in each case the parts of one cut are known from those of the other. -/
theorem append_cons_cases {left left' right right' : List α} {a b : α}
    (h : left ++ a :: right = left' ++ b :: right') :
    (∃ middle, left' = left ++ a :: middle ∧ right = middle ++ b :: right') ∨
    (left = left' ∧ a = b ∧ right = right') ∨
    ∃ middle, left = left' ++ b :: middle ∧ right' = middle ++ a :: right := by
  rcases List.append_eq_append_iff.1 h with ⟨middle, hleft, hright⟩ | ⟨middle, hleft, hright⟩
  · cases middle with
    | nil =>
      cases hright
      exact .inr (.inl ⟨by rw [hleft, List.append_nil], rfl, rfl⟩)
    | cons first middle =>
      cases hright
      exact .inl ⟨middle, hleft, rfl⟩
  · cases middle with
    | nil =>
      cases hright
      exact .inr (.inl ⟨by rw [hleft, List.append_nil], rfl, rfl⟩)
    | cons first middle =>
      cases hright
      exact .inr (.inr ⟨middle, hleft, rfl⟩)

/-- In lists that are related element by element, every element on the right has a partner on the
left: the one that stands at the same place. -/
theorem exists_mem_of_forall₂ {R : α → β → Prop} {left : List α} {right : List β}
    (h : List.Forall₂ R left right) : ∀ b ∈ right, ∃ a ∈ left, R a b := by
  induction h with
  | nil => exact fun b hb => absurd hb List.not_mem_nil
  | cons hab _ ih =>
    intro b hb
    rcases List.mem_cons.1 hb with rfl | hb
    · exact ⟨_, List.mem_cons_self, hab⟩
    · obtain ⟨a, ha, hrel⟩ := ih b hb
      exact ⟨a, List.mem_cons_of_mem _ ha, hrel⟩

/-- A list that starts with copies of `a`, followed by something else, says how many copies there
are and what follows them. So an indented line is known from its characters. -/
theorem eq_of_replicate_append_eq {a c c' : α} {cs cs' : List α} {m n : Nat}
    (hc : c ≠ a) (hc' : c' ≠ a)
    (heq : List.replicate m a ++ c :: cs = List.replicate n a ++ c' :: cs') :
    m = n ∧ c :: cs = c' :: cs' := by
  induction m generalizing n with
  | zero =>
    cases n with
    | zero => exact ⟨rfl, heq⟩
    | succ n => exact absurd (List.cons.inj heq).1 hc
  | succ m ih =>
    cases n with
    | zero => exact absurd (List.cons.inj heq).1.symm hc'
    | succ n =>
      obtain ⟨hcount, hrest⟩ := ih (List.cons.inj heq).2
      exact ⟨congrArg Nat.succ hcount, hrest⟩

end Lists

/-! ## Results of a whole list -/

section Values

variable {α β : Type} {f : α → Option β} {as : List α} {bs : List β}

/-- A list has values under `f` if each of its elements has one, and then its values are those of
its elements in the same order. This turns `mapM` into a relation to do induction on. -/
theorem mapM_eq_some_iff : as.mapM f = some bs ↔ List.Forall₂ (fun a b => f a = some b) as bs := by
  induction as generalizing bs with
  | nil => simp [eq_comm]
  | cons a as ih =>
    simp only [List.mapM_cons, List.forall₂_cons_left_iff, ← ih]
    cases hf : f a with
    | none => simp
    | some b =>
      cases hrest : as.mapM f with
      | none => simp
      | some rest => simp [eq_comm]

/-- If a list has values, then every element has a value, and every value is the value of some
element. Where the elements stand does not matter here. -/
theorem of_mapM_eq_some (h : as.mapM f = some bs) :
    (∀ a ∈ as, ∃ b, f a = some b) ∧ ∀ b ∈ bs, ∃ a, f a = some b := by
  induction mapM_eq_some_iff.1 h with
  | nil => exact ⟨fun a ha => absurd ha List.not_mem_nil, fun b hb => absurd hb List.not_mem_nil⟩
  | cons hab hrest ih =>
    obtain ⟨hleft, hright⟩ := ih (mapM_eq_some_iff.2 hrest)
    exact ⟨List.forall_mem_cons.2 ⟨⟨_, hab⟩, hleft⟩, List.forall_mem_cons.2 ⟨⟨_, hab⟩, hright⟩⟩

/-- What `f` reads back from each written element, it reads back from the written list. All that is
asked for is that `f` undoes `g` on the elements of the list. -/
theorem mapM_map_eq_some {g : β → α} (h : ∀ b ∈ bs, f (g b) = some b) :
    (bs.map g).mapM f = some bs := by
  rw [mapM_eq_some_iff, List.forall₂_map_left_iff, List.forall₂_same]
  exact h

end Values

/-! ## Success and failure -/

section Results

variable {ε α β : Type}

/-- Two computations one after the other succeed only if the first succeeds, and then the second
does on its value. Nothing is said of how a failure comes about. -/
theorem exists_of_bind_eq_ok {first : Except ε α} {second : α → Except ε β} {b : β}
    (h : first >>= second = .ok b) : ∃ a, first = .ok a ∧ second a = .ok b := by
  cases first with
  | error failure => cases h
  | ok a => exact ⟨a, rfl, h⟩

/-- Results that agree up to the reason of a failure: both fail, or both succeed with one value. The
reasons of two failures may well be different. -/
theorem cases_of_toOption_eq {first second : Except ε α} (h : first.toOption = second.toOption) :
    (∃ failure failure', first = .error failure ∧ second = .error failure') ∨
      ∃ value, first = .ok value ∧ second = .ok value := by
  cases first with
  | error failure =>
    cases second with
    | error failure' => exact .inl ⟨failure, failure', rfl, rfl⟩
    | ok value => cases h
  | ok value =>
    cases second with
    | error failure => cases h
    | ok value' => cases h; exact .inr ⟨value, rfl, rfl⟩

end Results

/-! ## Association lists -/

namespace Association

variable {κ α : Type} [DecidableEq κ] {key other : κ} {value : α} {entries : List (κ × α)}

/-- The keys are those there were, in the same order, with a new key at the end. A key that is there
already stays at its place and only gets another value. -/
theorem map_fst_put (key : κ) (value : α) (entries : List (κ × α)) :
    (put key value entries).map Prod.fst
      = if key ∈ entries.map Prod.fst then entries.map Prod.fst
        else entries.map Prod.fst ++ [key] := by
  induction entries with
  | nil => rfl
  | cons first rest ih =>
    obtain ⟨head, old⟩ := first
    rw [put]
    by_cases hhead : head = key
    · simp [hhead]
    · rw [if_neg hhead, List.map_cons, ih, List.map_cons]
      by_cases h : key ∈ rest.map Prod.fst
      · simp [h]
      · have hne : key ≠ head := fun heq => hhead heq.symm
        rw [if_neg h, if_neg (by simp only [List.mem_cons, not_or]; exact ⟨hne, h⟩)]
        rfl

/-- Of two values that a key is given one after the other, only the second is left. It stands where
the first stood, so that not even the order of the entries differs. -/
theorem put_put (key : κ) (first second : α) (entries : List (κ × α)) :
    put key second (put key first entries) = put key second entries := by
  induction entries with
  | nil => simp [put]
  | cons entry entries ih =>
    obtain ⟨head, old⟩ := entry
    by_cases hhead : head = key
    · simp [put, hhead]
    · simp [put, hhead, ih]

/-- No entries come in but one for the key that is given a value. What is said of all other entries
is therefore said of them before and after. -/
theorem fst_eq_or_mem_of_mem_put {entry : κ × α} (h : entry ∈ put key value entries) :
    entry.1 = key ∨ entry ∈ entries := by
  induction entries with
  | nil => simp_all [put]
  | cons first rest ih =>
    obtain ⟨head, old⟩ := first
    rw [put] at h
    split at h
    · next hhead =>
      rcases List.mem_cons.1 h with rfl | hmem
      · exact .inl hhead
      · exact .inr (List.mem_cons_of_mem _ hmem)
    · rcases List.mem_cons.1 h with rfl | hmem
      · exact .inr List.mem_cons_self
      · exact (ih hmem).imp_right (List.mem_cons_of_mem _)

-- The test by which `List.lookup` compares keys need not be the one that `put` uses.
variable [BEq κ] [LawfulBEq κ]

/-- The first entry is found under its own key, and only under that key. This is `List.lookup_cons`
with an equality in place of the test by which the keys are compared. -/
theorem lookup_cons_eq (key other : κ) (value : α) (entries : List (κ × α)) :
    ((key, value) :: entries).lookup other
      = if other = key then some value else entries.lookup other := by
  rw [List.lookup_cons]
  split
  · next hkey => rw [if_pos (eq_of_beq hkey)]
  · next hkey => rw [if_neg (ne_of_beq_false hkey)]

/-- A key that was given a value has that value, and all other keys have the values they had. It
does not matter whether the key was there before. -/
theorem lookup_put (key other : κ) (value : α) (entries : List (κ × α)) :
    (put key value entries).lookup other
      = if other = key then some value else entries.lookup other := by
  induction entries with
  | nil => rw [put, lookup_cons_eq]
  | cons first rest ih =>
    obtain ⟨head, old⟩ := first
    rw [put]
    by_cases hhead : head = key
    · rw [if_pos hhead, lookup_cons_eq, lookup_cons_eq, hhead]
      by_cases hother : other = key <;> simp [hother]
    · rw [if_neg hhead, lookup_cons_eq, lookup_cons_eq, ih]
      by_cases hother : other = head
      · simp [hother, hhead]
      · simp [hother]

/-- When all entries of a key are taken away, the other keys keep their values, since `List.lookup`
passes by the entries of that key anyway. -/
theorem lookup_filter_of_ne (h : other ≠ key) :
    (entries.filter fun entry => entry.1 ≠ key).lookup other = entries.lookup other := by
  induction entries with
  | nil => rfl
  | cons entry entries ih =>
    obtain ⟨head, old⟩ := entry
    rw [lookup_cons_eq]
    by_cases hhead : head = key
    · have hother : other ≠ head := fun heq => h (heq.trans hhead)
      rw [List.filter_cons_of_neg (by simp [hhead]), if_neg hother, ih]
    · rw [List.filter_cons_of_pos (by simp [hhead]), lookup_cons_eq, ih]

/-- A change to all values changes what each key has, and no key. A key that has no value has none
afterwards either. -/
theorem lookup_map (f : α → α) (entries : List (κ × α)) (key : κ) :
    (entries.map fun entry => (entry.1, f entry.2)).lookup key = (entries.lookup key).map f := by
  induction entries with
  | nil => rfl
  | cons entry entries ih =>
    rw [List.map_cons, lookup_cons_eq, ih, lookup_cons_eq]
    split <;> rfl

end Association

end ActivityScript
