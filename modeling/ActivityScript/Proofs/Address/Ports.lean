import ActivityScript.Address.Endpoint
import ActivityScript.Proofs.Text.Digits
import Mathlib.Data.List.TakeWhile

/-!
# Ports that are no numbers

A port is asked for digits before it is read as a number, and digits are more than what numbers are
made of: superscripts and digits in circles count, and so does a run that is too long to be read.
`UnreadablePort` is what slips through. `exists_port_fault_iff` says that reading an endpoint ends
with the fault of a number exactly for these texts; every other text is an endpoint or malformed.
-/

namespace ActivityScript.Address

open Text

variable {mark c : Char} {cs before after : List Char}

/-! ## The last mark -/

/-- A text without the mark is not cut. This is where the search for the last mark ends: there is
none in what follows it. -/
theorem splitAtLast_of_notMem (h : mark ∉ cs) : splitAtLast mark cs = none := by
  induction cs with
  | nil => rfl
  | cons c cs ih =>
    have hc : c ≠ mark := fun heq => h (heq ▸ List.mem_cons_self)
    rw [splitAtLast, ih fun hmem => h (List.mem_cons_of_mem _ hmem)]
    exact if_neg hc

/-- The text is cut at the last mark, whatever stands before it; there may be other marks. Nothing
of the text is lost but the mark itself. -/
theorem splitAtLast_append (h : mark ∉ after) :
    splitAtLast mark (before ++ mark :: after) = some (before, after) := by
  induction before with
  | nil =>
    rw [List.nil_append, splitAtLast, splitAtLast_of_notMem h]
    exact if_pos rfl
  | cons c before ih => rw [List.cons_append, splitAtLast, ih]

/-- Only a text without the mark is not cut. Together with `splitAtLast_of_notMem` this says when
there is something to cut at. -/
theorem notMem_of_splitAtLast (h : splitAtLast mark cs = none) : mark ∉ cs := by
  induction cs with
  | nil => exact List.not_mem_nil
  | cons c cs ih =>
    rw [splitAtLast] at h
    split at h
    · cases h
    · next hnone =>
      split at h
      · cases h
      · next hc =>
        intro hmem
        rcases List.mem_cons.1 hmem with heq | hmem
        · exact hc heq.symm
        · exact ih hnone hmem

/-- A text is cut in two at its last mark and nowhere else. So the port is what stands after the
last colon of a destination. -/
theorem splitAtLast_eq_some_iff :
    splitAtLast mark cs = some (before, after) ↔ cs = before ++ mark :: after ∧ mark ∉ after := by
  constructor
  · intro h
    induction cs generalizing before with
    | nil => cases h
    | cons c cs ih =>
      rw [splitAtLast] at h
      split at h
      · next front back hsome =>
        cases h
        obtain ⟨rfl, hmem⟩ := ih hsome
        exact ⟨rfl, hmem⟩
      · next hnone =>
        split at h
        · next hc =>
          cases h
          exact ⟨by rw [hc, List.nil_append], notMem_of_splitAtLast hnone⟩
        · cases h
  · rintro ⟨rfl, h⟩
    exact splitAtLast_append h

/-! ## Digits and numbers -/

/-- Some characters write no decimal number if one of them is no decimal digit. No characters at all
write none either, which is why they are excluded here. -/
theorem decimal?_eq_none_iff (h : cs ≠ []) :
    decimal? cs = none ↔ ∃ c ∈ cs, digitValue? c = none := by
  cases cs with
  | nil => exact absurd rfl h
  | cons c cs => exact readDigits_eq_none_iff

/-- A text is no number if one of its characters is no decimal digit, or if it is too long. The
length counts for decimal digits only, and all characters are such digits in the second case. -/
theorem exists_readNumber_fault_iff (h : cs ≠ []) :
    (∃ fault, readNumber cs = .error fault) ↔
      (∃ c ∈ cs, digitValue? c = none) ∨ maxDigits < cs.length := by
  rw [readNumber]
  split
  · next hmany =>
    have hle : (cs.takeWhile fun c => (digitValue? c).isSome).length ≤ cs.length :=
      (List.takeWhile_sublist _).length_le
    exact ⟨fun _ => .inr (Nat.lt_of_lt_of_le hmany hle), fun _ => ⟨_, rfl⟩⟩
  · next hfew =>
    rw [← decimal?_eq_none_iff h]
    split
    · next n hsome =>
      constructor
      · rintro ⟨fault, hfault⟩
        cases hfault
      rintro (hnone | hlong)
      · rw [hsome] at hnone
        cases hnone
      · -- All characters are decimal digits, so the run of them is the whole text.
        have hall : ∀ c ∈ cs, (digitValue? c).isSome = true := by
          intro c hc
          rw [Option.isSome_iff_ne_none]
          intro hnone
          rw [(decimal?_eq_none_iff h).2 ⟨c, hc, hnone⟩] at hsome
          cases hsome
        rw [List.takeWhile_eq_self_iff.2 hall] at hfew
        exact absurd hlong hfew
    · next hnone => exact ⟨fun _ => .inl hnone, fun _ => ⟨_, rfl⟩⟩

/-! ## Endpoints -/

/-- After the last colon of a destination, and behind a host, stand digits only, and they write no
number: one of them is no decimal digit, or there are too many of them. -/
def UnreadablePort (destination : String) : Prop :=
  ∃ host port, destination.toList = host ++ ':' :: port ∧ ':' ∉ port ∧ host ≠ [] ∧
    allDigits port ∧ ((∃ c ∈ port, digitValue? c = none) ∨ maxDigits < port.length)

/-- The digits of a port are only looked at when there is at least one: a text without a character
is not said to have digits only. -/
theorem ne_nil_of_allDigits (h : allDigits cs) : cs ≠ [] := by
  rintro rfl
  cases h

/-- Reading an endpoint ends with the fault of a number if the port is unreadable, and only then.
What is wrong with the host, or with a port that has other characters, is found before. -/
theorem exists_port_fault_iff {destination : String} :
    (∃ fault, Endpoint.read destination = .error (.port fault)) ↔ UnreadablePort destination := by
  constructor
  · rintro ⟨fault, h⟩
    unfold Endpoint.read at h
    split at h
    · cases h
    · next host port hsplit =>
      obtain ⟨htext, hcolon⟩ := splitAtLast_eq_some_iff.1 hsplit
      split at h
      · cases h
      · next hshape =>
        simp only [Bool.or_eq_true, List.isEmpty_iff, Bool.not_eq_true', not_or,
          Bool.not_eq_false] at hshape
        obtain ⟨hhost, hdigits⟩ := hshape
        split at h
        · next found hnumber =>
          have hfault := (exists_readNumber_fault_iff (ne_nil_of_allDigits hdigits)).1 ⟨_, hnumber⟩
          exact ⟨host, port, htext, hcolon, hhost, hdigits, hfault⟩
        · split at h <;> cases h
  · rintro ⟨host, port, htext, hcolon, hhost, hdigits, hor⟩
    obtain ⟨fault, hnumber⟩ := (exists_readNumber_fault_iff (ne_nil_of_allDigits hdigits)).2 hor
    refine ⟨fault, ?_⟩
    have hshape : (host.isEmpty || !allDigits port) = false := by simp [hhost, hdigits]
    rw [Endpoint.read, splitAtLast_eq_some_iff.2 ⟨htext, hcolon⟩]
    simp only [hshape, hnumber, Bool.false_eq_true, if_false]

end ActivityScript.Address
