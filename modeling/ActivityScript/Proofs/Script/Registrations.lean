import ActivityScript.Proofs.Script.Invocations
import Mathlib.Data.List.Nodup

/-!
# Registering functions

Functions are registered one after the other, and some of these attempts fail. Whatever they are,
the registry lists the entries that came about, in order, under distinct names and with the arities
that their parameters declare (`Sound`). An attempt only ever appends an entry (`entries_attempt`),
so a call that resolves to an entry does so for good. `registrations_accumulate` puts this together
with when an attempt fails (`Refuses`) and when a call does not resolve (`Rejects`).
-/

namespace ActivityScript.Script

variable {φ : Type}

/-! ## Arities -/

/-- Further parameters add to an arity what they stand for, unless two of all the parameters stand
for any number of arguments. -/
theorem Arity.extend_eq (arity : Arity) (parameters : List String) :
    arity.extend parameters
      = if arity.rest.toNat + parameters.countP isRest ≤ 1 then
          some ⟨arity.required + parameters.countP (!isRest ·), arity.rest || parameters.any isRest⟩
        else none := by
  -- A rest that the arity has already counts as a parameter that was passed before.
  induction parameters generalizing arity with
  | nil => simp [extend, Bool.toNat_le]
  | cons parameter parameters ih =>
    rw [extend]
    cases hparameter : isRest parameter with
    | false => simp [ih, hparameter, Nat.add_assoc, Nat.add_comm]
    | true =>
      cases hrest : arity.rest with
      | false => simp [ih, hparameter, Nat.add_comm]
      | true => simp [hparameter]

/-- Parameters have no arity exactly if two of them stand for any number of arguments. -/
theorem Arity.ofParameters?_eq_none_iff {parameters : List String} :
    ofParameters? parameters = none ↔ 2 ≤ parameters.countP isRest := by
  rw [ofParameters?, extend_eq]
  simp [Nat.succ_le_iff]

/-- An arity is that of parameters: it requires one argument for each parameter that stands for one,
and there is at most one other parameter, which is then the rest. -/
structure Arity.Declared (arity : Arity) (parameters : List String) : Prop where
  required : arity.required = parameters.countP (!isRest ·)
  length : arity.required + arity.rest.toNat = parameters.length

/-- The arity of parameters is the one that they declare: as many arguments as there are plain
parameters, and any number more if there is a parameter for the rest. -/
theorem Arity.declared_of_ofParameters? {arity : Arity} {parameters : List String}
    (h : ofParameters? parameters = some arity) : arity.Declared parameters := by
  rw [ofParameters?, extend_eq] at h
  split at h
  · next hrests =>
    cases h
    have hatMost : parameters.countP isRest ≤ 1 := by simpa using hrests
    have hany : (parameters.any isRest).toNat = parameters.countP isRest := by
      cases hany : parameters.any isRest with
      | false =>
        have hzero : parameters.countP isRest = 0 := List.countP_eq_zero.2 (by simpa using hany)
        exact hzero.symm
      | true => exact Nat.le_antisymm (List.countP_pos_iff.2 (List.any_eq_true.1 hany)) hatMost
    constructor
    · exact Nat.zero_add _
    · simp [hany, parameters.length_eq_countP_add_countP isRest, Nat.add_comm]
  · cases h

/-- The entry of a function whose arity is known. -/
def Registration.entryWith (registration : Registration φ) (arity : Arity) : Entry φ :=
  ⟨registration.name, registration.parameters, arity, registration.body⟩

namespace Registry

variable {registry other : Registry φ} {registration : Registration φ} {fault : Fault}
  {name : String} {entry : Entry φ} {location : Location} {count : Nat}

/-! ## One attempt -/

/-- Why a function cannot be registered: its name is taken, or else two of its parameters stand for
any number of arguments. -/
inductive Refuses (registry : Registry φ) (registration : Registration φ) : Fault → Prop where
  | taken {entry : Entry φ} : entry ∈ registry.entries → entry.name = registration.name →
      Refuses registry registration (.duplicate registration.name)
  | severalRests : (∀ entry ∈ registry.entries, entry.name ≠ registration.name) →
      2 ≤ registration.parameters.countP isRest →
      Refuses registry registration (.severalRests registration.name)

/-- Nothing is found under a name exactly if no entry has it. Arities do not matter to this. -/
theorem find?_eq_none_iff :
    registry.find? name = none ↔ ∀ entry ∈ registry.entries, entry.name ≠ name := by
  simp [find?]

/-- What an attempt can do: append an entry, or nothing. It appends one if the name is free and the
parameters have an arity. -/
theorem attempt_cases (registry : Registry φ) (registration : Registration φ) :
    (∃ arity : Arity, (∀ entry ∈ registry.entries, entry.name ≠ registration.name) ∧
      arity.Declared registration.parameters ∧ ¬2 ≤ registration.parameters.countP isRest ∧
      registry.attempt registration
        = (.ok (registration.entryWith arity),
            ⟨registry.entries ++ [registration.entryWith arity]⟩)) ∨
    ∃ fault, registry.Refuses registration fault ∧
      registry.attempt registration = (.error fault, registry) := by
  rw [attempt, register]
  cases hfind : registry.find? registration.name with
  | some entry =>
    have hentry := List.mem_of_find?_eq_some hfind
    exact .inr ⟨_, .taken hentry (name_of_find? hfind), rfl⟩
  | none =>
    have habsent := find?_eq_none_iff.1 hfind
    cases harity : Arity.ofParameters? registration.parameters with
    | none => exact .inr ⟨_, .severalRests habsent (Arity.ofParameters?_eq_none_iff.1 harity), rfl⟩
    | some arity =>
      refine .inl ⟨arity, habsent, Arity.declared_of_ofParameters? harity, fun hrests => ?_, rfl⟩
      cases harity.symm.trans (Arity.ofParameters?_eq_none_iff.2 hrests)

/-- An attempt fails exactly if the name is taken or two parameters stand for any number of
arguments. Both may be so, and then the name is reported. -/
theorem exists_attempt_error_iff :
    (∃ fault, (registry.attempt registration).1 = .error fault) ↔
      (∃ entry ∈ registry.entries, entry.name = registration.name) ∨
        2 ≤ registration.parameters.countP isRest := by
  rcases registry.attempt_cases registration with
    ⟨arity, habsent, -, hrests, hattempt⟩ | ⟨fault, hrefuses, hattempt⟩
  · rw [hattempt]
    constructor
    · rintro ⟨fault, hfault⟩
      cases hfault
    · rintro (⟨entry, hentry, hname⟩ | hmany)
      · exact absurd hname (habsent entry hentry)
      · exact absurd hmany hrests
  · rw [hattempt]
    refine ⟨fun _ => ?_, fun _ => ⟨fault, rfl⟩⟩
    cases hrefuses with
    | taken hentry hname => exact .inl ⟨_, hentry, hname⟩
    | severalRests _ hmany => exact .inr hmany

/-- An attempt that fails has a reason, and leaves the registry as it was. -/
theorem of_attempt_error (h : (registry.attempt registration).1 = .error fault) :
    registry.Refuses registration fault ∧ (registry.attempt registration).2 = registry := by
  rcases registry.attempt_cases registration with
    ⟨arity, -, -, -, hattempt⟩ | ⟨found, hrefuses, hattempt⟩
  · rw [hattempt] at h
    cases h
  · rw [hattempt] at h ⊢
    cases h
    exact ⟨hrefuses, rfl⟩

/-- An attempt appends the entry that comes about, if one does. It changes nothing of the entries
before. -/
theorem entries_attempt (registry : Registry φ) (registration : Registration φ) :
    (registry.attempt registration).2.entries
      = registry.entries ++ (registry.attempt registration).1.toOption.toList := by
  rcases registry.attempt_cases registration with
    ⟨arity, -, -, -, hattempt⟩ | ⟨fault, -, hattempt⟩
  · rw [hattempt]
    rfl
  · rw [hattempt]
    exact (List.append_nil _).symm

/-- Entries have distinct names and the arities that their parameters declare. -/
structure Sound (registry : Registry φ) : Prop where
  names : (registry.entries.map Entry.name).Nodup
  arities : ∀ entry ∈ registry.entries, entry.arity.Declared entry.parameters

/-- An attempt leaves the registry sound. The name of a new entry was free, and its arity is that of
its parameters. -/
theorem Sound.attempt (h : registry.Sound) (registration : Registration φ) :
    (registry.attempt registration).2.Sound := by
  rcases registry.attempt_cases registration with
    ⟨arity, habsent, hdeclared, -, hattempt⟩ | ⟨fault, -, hattempt⟩
  · rw [hattempt]
    constructor
    · have hfresh : registration.name ∉ registry.entries.map Entry.name := by
        simpa using habsent
      rw [List.map_append]
      exact h.names.append (List.nodup_singleton _) (List.disjoint_singleton.2 hfresh)
    · intro entry hentry
      rcases List.mem_append.1 hentry with hentry | hentry
      · exact h.arities entry hentry
      · rw [List.mem_singleton.1 hentry]
        exact hdeclared
  · rw [hattempt]
    exact h

/-- In a sound registry an entry is the one that is found under its name. No other entry has this
name. -/
theorem Sound.find?_of_mem (h : registry.Sound) (hentry : entry ∈ registry.entries)
    (hname : entry.name = name) : registry.find? name = some entry := by
  cases hfind : registry.find? name with
  | none => exact absurd hname (find?_eq_none_iff.1 hfind entry hentry)
  | some found =>
    have hsame : found.name = entry.name := (name_of_find? hfind).trans hname.symm
    rw [List.inj_on_of_nodup_map h.names (List.mem_of_find?_eq_some hfind) hentry hsame]

/-! ## Calls -/

/-- How a call that does not resolve is reported: there is no function of its name, or that function
takes more or fewer arguments. -/
inductive Rejects (registry : Registry φ) (location : Location) (name : String) (count : Nat) :
    Report → Prop where
  | absent : (∀ entry ∈ registry.entries, entry.name ≠ name) →
      Rejects registry location name count ⟨"E110", "function not found", location⟩
  | missing {entry : Entry φ} : entry ∈ registry.entries → entry.name = name →
      count < entry.arity.required →
      Rejects registry location name count
        ⟨"E111", "missing arguments, expected " ++ toString entry.arity.required, location⟩
  | tooMany {entry : Entry φ} : entry ∈ registry.entries → entry.name = name →
      entry.arity.required < count → entry.arity.rest = false →
      Rejects registry location name count
        ⟨"E112", "too many arguments, expected " ++ toString entry.arity.required, location⟩

/-- A call does not resolve exactly for one of three reasons, and what is reported tells which: no
such function, too few arguments, or too many. -/
theorem Sound.exists_resolve_error_iff (h : registry.Sound) {report : Report} :
    (∃ diagnostic, registry.resolve location name count = .error diagnostic ∧
      diagnostic.report = report) ↔ registry.Rejects location name count report := by
  constructor
  · rintro ⟨diagnostic, hresolve, rfl⟩
    rw [resolve] at hresolve
    cases hfind : registry.find? name with
    | none =>
      rw [hfind] at hresolve
      cases hresolve
      exact .absent (find?_eq_none_iff.1 hfind)
    | some entry =>
      have hentry := List.mem_of_find?_eq_some hfind
      have hname := name_of_find? hfind
      simp only [hfind] at hresolve
      split at hresolve
      · next hfew =>
        cases hresolve
        exact .missing hentry hname hfew
      · split at hresolve
        · next hmany =>
          cases hresolve
          simp only [Bool.and_eq_true, decide_eq_true_eq, Bool.not_eq_true'] at hmany
          exact .tooMany hentry hname hmany.1 hmany.2
        · cases hresolve
  · intro hrejects
    rw [resolve]
    cases hrejects with
    | absent habsent =>
      rw [find?_eq_none_iff.2 habsent]
      exact ⟨_, rfl, rfl⟩
    | missing hentry hname hfew =>
      rw [h.find?_of_mem hentry hname]
      simp only [hfew, if_true]
      exact ⟨_, rfl, rfl⟩
    | tooMany hentry hname hmany hrest =>
      rw [h.find?_of_mem hentry hname]
      simp only [hmany, hrest, Nat.not_lt_of_lt hmany, if_false]
      exact ⟨_, rfl, rfl⟩

/-- A call that resolves still does so when entries are appended, because the first entry of a name
is found. Where the call stands does not matter. -/
theorem resolve_of_prefix (h : registry.entries <+: other.entries)
    (hresolve : registry.resolve location name count = .ok entry) (elsewhere : Location) :
    other.resolve elsewhere name count = .ok entry := by
  obtain ⟨more, hmore⟩ := h
  obtain ⟨hfind, hadmits⟩ := resolve_eq_ok_iff.1 hresolve
  refine resolve_eq_ok_iff.2 ⟨?_, hadmits⟩
  rw [find?] at hfind ⊢
  rw [← hmore, List.find?_append, hfind]
  rfl

/-! ## Runs -/

/-- What attempts give, in order. -/
def outcomes (registry : Registry φ) : List (Registration φ) → List (Except Fault (Entry φ))
  | [] => []
  | registration :: registrations =>
    (registry.attempt registration).1
      :: (registry.attempt registration).2.outcomes registrations

/-- Attempts leave the registry sound, however many there are and whichever of them fail. -/
theorem Sound.afterAll (h : registry.Sound) (registrations : List (Registration φ)) :
    (registry.afterAll registrations).Sound := by
  induction registrations generalizing registry with
  | nil => exact h
  | cons registration registrations ih => exact ih (h.attempt registration)

/-- After attempts, the registry has the entries that came about, in order, after those it had
before. -/
theorem entries_afterAll (registry : Registry φ) (registrations : List (Registration φ)) :
    (registry.afterAll registrations).entries
      = registry.entries ++ (registry.outcomes registrations).filterMap Except.toOption := by
  induction registrations generalizing registry with
  | nil => exact (List.append_nil _).symm
  | cons registration registrations ih =>
    have hrest := ih (registry.attempt registration).2
    rw [entries_attempt, List.append_assoc] at hrest
    rw [outcomes, List.filterMap_cons]
    cases houtcome : (registry.attempt registration).1.toOption <;> rw [houtcome] at hrest <;>
      exact hrest

/-- An entry that comes about is that of its function: its name, its parameters and its body are
those that were registered. -/
theorem forall₂_outcomes (registry : Registry φ) (registrations : List (Registration φ)) :
    List.Forall₂ (fun registration outcome => ∀ entry, outcome = .ok entry →
        entry = registration.entryWith entry.arity)
      registrations (registry.outcomes registrations) := by
  induction registrations generalizing registry with
  | nil => exact .nil
  | cons registration registrations ih =>
    refine .cons (fun entry hentry => ?_) (ih _)
    rcases registry.attempt_cases registration with
      ⟨arity, -, -, -, hattempt⟩ | ⟨fault, -, hattempt⟩
    · rw [hattempt] at hentry
      cases hentry
      rfl
    · rw [hattempt] at hentry
      cases hentry

end Registry

/-- **Registrations accumulate.** After any attempts to register functions, the registry lists the
entries of those that succeeded, in order, under distinct names and with the arities that their
parameters declare. The next attempt fails exactly if the name is taken or two parameters stand for
any number of arguments, and then changes nothing. A call that resolves to an entry does so whatever
is registered later on. A call does not resolve exactly if there is no function of its name or that
function does not take so many arguments, and this is reported where the call stands. -/
theorem registrations_accumulate (registrations : List (Registration φ)) :
    (Registry.empty.afterAll registrations).entries
      = (Registry.empty.outcomes registrations).filterMap Except.toOption ∧
    List.Forall₂ (fun registration outcome => ∀ entry, outcome = .ok entry →
        entry = registration.entryWith entry.arity)
      registrations (Registry.empty.outcomes registrations) ∧
    ((Registry.empty.afterAll registrations).entries.map Entry.name).Nodup ∧
    (∀ entry ∈ (Registry.empty.afterAll registrations).entries,
      entry.arity.required = entry.parameters.countP (!isRest ·) ∧
      entry.arity.required + entry.arity.rest.toNat = entry.parameters.length) ∧
    (∀ registration : Registration φ,
      ((∃ fault,
          ((Registry.empty.afterAll registrations).attempt registration).1 = .error fault) ↔
        (∃ entry ∈ (Registry.empty.afterAll registrations).entries,
          entry.name = registration.name) ∨ 2 ≤ registration.parameters.countP isRest) ∧
      ∀ fault, ((Registry.empty.afterAll registrations).attempt registration).1 = .error fault →
        (Registry.empty.afterAll registrations).Refuses registration fault ∧
        ((Registry.empty.afterAll registrations).attempt registration).2
          = Registry.empty.afterAll registrations) ∧
    (∀ location name count entry,
      (Registry.empty.afterAll registrations).resolve location name count = .ok entry →
      ∀ more elsewhere,
        (Registry.empty.afterAll (registrations ++ more)).resolve elsewhere name count
          = .ok entry) ∧
    ∀ location name count report,
      (∃ diagnostic,
        (Registry.empty.afterAll registrations).resolve location name count = .error diagnostic ∧
        diagnostic.report = report) ↔
      (Registry.empty.afterAll registrations).Rejects location name count report := by
  have hempty : (Registry.empty : Registry φ).Sound := ⟨List.nodup_nil, List.forall_mem_nil _⟩
  have hsound := hempty.afterAll registrations
  refine ⟨Registry.empty.entries_afterAll registrations,
    Registry.empty.forall₂_outcomes registrations, hsound.names,
    fun entry hentry => ⟨(hsound.arities entry hentry).required,
      (hsound.arities entry hentry).length⟩,
    fun registration => ⟨Registry.exists_attempt_error_iff, fun fault => Registry.of_attempt_error⟩,
    fun location name count entry hresolve more elsewhere => ?_,
    fun location name count report => hsound.exists_resolve_error_iff⟩
  have hprefix : (Registry.empty.afterAll registrations).entries
      <+: (Registry.empty.afterAll (registrations ++ more)).entries := by
    rw [Registry.afterAll, Registry.afterAll, List.foldl_append]
    exact ⟨_, (Registry.entries_afterAll _ more).symm⟩
  exact Registry.resolve_of_prefix hprefix hresolve elsewhere

/-- Two of four attempts fail: one for its parameters, and one because the name is taken. -/
theorem registrations_accumulate_join :
    let registrations : List (Registration Unit) := [⟨"join", ["*args"], ()⟩,
      ⟨"bad", ["*a", "*b"], ()⟩, ⟨"join", ["a"], ()⟩, ⟨"print", ["message"], ()⟩]
    let registry := Registry.empty.afterAll registrations
    let location : Location := ⟨3, 7, none⟩
    registry.entries
        = [⟨"join", ["*args"], ⟨0, true⟩, ()⟩, ⟨"print", ["message"], ⟨1, false⟩, ()⟩] ∧
      (registry.attempt ⟨"print", ["*a", "*b"], ()⟩).2 = registry ∧
      registry.resolve location "join" 10 = .ok ⟨"join", ["*args"], ⟨0, true⟩, ()⟩ ∧
      (∀ more elsewhere,
        (Registry.empty.afterAll (registrations ++ more)).resolve elsewhere "join" 10
          = .ok ⟨"join", ["*args"], ⟨0, true⟩, ()⟩) ∧
      registry.resolve location "print" 2 = .error ⟨.tooManyArguments 1, location⟩ ∧
      registry.Rejects location "print" 2
        ⟨"E112", "too many arguments, expected 1", location⟩ := by
  intro registrations registry location
  obtain ⟨-, -, -, -, hattempt, hstable, hrejects⟩ := registrations_accumulate registrations
  have hjoin : registry.resolve location "join" 10
      = .ok ⟨"join", ["*args"], ⟨0, true⟩, ()⟩ := rfl
  have hprint : registry.resolve location "print" 2 = .error ⟨.tooManyArguments 1, location⟩ := rfl
  exact ⟨rfl, ((hattempt _).2 (.duplicate "print") rfl).2, hjoin, hstable _ _ _ _ hjoin, hprint,
    (hrejects _ _ _ _).1 ⟨_, hprint, rfl⟩⟩

end ActivityScript.Script
