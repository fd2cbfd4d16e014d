import ActivityScript.Proofs.Address.Ports
import ActivityScript.Proofs.Text.Decimals

/-!
# Endpoints that are written and read

An endpoint is written with brackets around a host that has a colon, and one pair of brackets is
removed when it is read, around any host. So a host comes back from its text unless it is empty or
has brackets of its own and no colon (`read_text_eq_ok_iff`).

Such hosts can be read, too. The text must have a host, but that is looked at before the brackets
are removed. `normal_form_stable_iff` says which of the texts that are accepted have no stable
normal form: those whose brackets hold nothing, or a second pair of brackets and no colon
(`Overbracketed`).
-/

namespace ActivityScript.Address

open Text (readNumber readNumber_toDigits)

variable {host inner : List Char} {number : Nat} {text : String} {endpoint : Endpoint}

/-! ## Brackets -/

/-- Brackets stand around a host. -/
def Bracketed (host : List Char) : Prop := host.head? = some '[' ∧ host.getLast? = some ']'

instance (host : List Char) : Decidable (Bracketed host) := inferInstanceAs (Decidable (_ ∧ _))

/-- A host has brackets around it if it is some inner text between them. One bracket alone is not
both its first and its last character. -/
theorem bracketed_iff : Bracketed host ↔ ∃ inner, host = '[' :: (inner ++ [']']) := by
  constructor
  · rintro ⟨hhead, hlast⟩
    obtain ⟨rest, rfl⟩ := List.head?_eq_some_iff.1 hhead
    obtain ⟨front, hfront⟩ := List.getLast?_eq_some_iff.1 hlast
    cases front with
    | nil => cases hfront
    | cons c inner =>
      obtain ⟨rfl, rfl⟩ := List.cons.inj hfront
      exact ⟨inner, rfl⟩
  · rintro ⟨inner, rfl⟩
    refine ⟨rfl, ?_⟩
    rw [← List.cons_append, List.getLast?_concat]

/-- One pair of brackets is removed, whatever stands between them. If that has brackets of its own,
they stay. -/
theorem unbracketed_brackets (inner : List Char) :
    unbracketed ('[' :: (inner ++ [']'])) = inner := by
  refine (if_pos (bracketed_iff.2 ⟨inner, rfl⟩)).trans ?_
  rw [List.tail_cons, List.dropLast_concat]

/-- A host without brackets around it is left as it is, also if it has a bracket on one side only or
brackets inside. -/
theorem unbracketed_of_not_bracketed (h : ¬Bracketed host) : unbracketed host = host :=
  if_neg h

/-- A host is left as it is only if it has no brackets around it, since removing them makes it
shorter. -/
theorem unbracketed_eq_self_iff : unbracketed host = host ↔ ¬Bracketed host := by
  refine ⟨fun heq hbrackets => ?_, unbracketed_of_not_bracketed⟩
  obtain ⟨inner, rfl⟩ := bracketed_iff.1 hbrackets
  rw [unbracketed_brackets] at heq
  have hlength := congrArg List.length heq
  simp at hlength
  omega

/-- Nothing is left of a host if there was nothing, or nothing but a pair of brackets. The latter is
a host when it is asked for one. -/
theorem unbracketed_eq_nil_iff : unbracketed host = [] ↔ host = [] ∨ host = ['[', ']'] := by
  by_cases hbrackets : Bracketed host
  · obtain ⟨inner, rfl⟩ := bracketed_iff.1 hbrackets
    rw [unbracketed_brackets]
    simp
  · rw [unbracketed_of_not_bracketed hbrackets]
    refine ⟨.inl, ?_⟩
    rintro (rfl | rfl)
    · rfl
    · exact absurd ⟨rfl, rfl⟩ hbrackets

/-- A host as it stands in the text of an endpoint. -/
def written (host : List Char) : List Char :=
  if ':' ∈ host then '[' :: (host ++ [']']) else host

/-- A host that is written as nothing is nothing. Brackets are put around a host with a colon only,
and that is not empty. -/
theorem written_eq_nil_iff : written host = [] ↔ host = [] := by
  unfold written
  split
  · next hcolon => simp [List.ne_nil_of_mem hcolon]
  · rfl

/-- Brackets stand around a host that writing does not put there and reading removes. -/
def LosesBrackets (host : List Char) : Prop := Bracketed host ∧ ':' ∉ host

instance (host : List Char) : Decidable (LosesBrackets host) := inferInstanceAs (Decidable (_ ∧ _))

/-- Reading removes the brackets that writing put around a host, and no others unless there is no
colon. So it is the hosts that lose brackets that do not come back. -/
theorem unbracketed_written_eq_self_iff :
    unbracketed (written host) = host ↔ ¬LosesBrackets host := by
  unfold written
  split
  · next hcolon => simp [unbracketed_brackets, LosesBrackets, hcolon]
  · next hcolon => simp [unbracketed_eq_self_iff, LosesBrackets, hcolon]

/-! ## Reading -/

namespace Endpoint

/-- What a text must be like to be accepted, and what is read from it: a host that is not empty, and
after the last colon digits that write a number in range. One pair of brackets around the host is
not part of it. -/
theorem read_eq_ok_iff :
    read text = .ok endpoint ↔
      ∃ host port, text.toList = host ++ ':' :: port ∧ ':' ∉ port ∧ host ≠ [] ∧ allDigits port ∧
        readNumber port = .ok endpoint.port ∧ endpoint.port ≤ maxPort ∧
        endpoint.host = String.ofList (unbracketed host) := by
  constructor
  · intro h
    unfold read at h
    split at h
    · cases h
    · next host port hsplit =>
      obtain ⟨htext, hcolon⟩ := splitAtLast_eq_some_iff.1 hsplit
      split at h
      · cases h
      · next hshape =>
        simp only [Bool.or_eq_true, List.isEmpty_iff, Bool.not_eq_true', not_or,
          Bool.not_eq_false] at hshape
        split at h
        · cases h
        · next number hnumber =>
          split at h
          · cases h
          · next hport =>
            cases h
            exact ⟨host, port, htext, hcolon, hshape.1, hshape.2, hnumber, Nat.not_lt.1 hport, rfl⟩
  · rintro ⟨host, port, htext, hcolon, hhost, hdigits, hnumber, hport, hname⟩
    have hshape : (host.isEmpty || !allDigits port) = false := by simp [hhost, hdigits]
    obtain ⟨name, number⟩ := endpoint
    subst hname
    rw [read, splitAtLast_eq_some_iff.2 ⟨htext, hcolon⟩]
    simp only [hshape, hnumber, Bool.false_eq_true, if_false, Nat.not_lt.2 hport]

/-- The text of an endpoint is its host, as it is written, a colon, and the digits of its port. What
is known of reading and of digits is put together here. -/
theorem toList_text (endpoint : Endpoint) :
    endpoint.text.toList
      = written endpoint.host.toList ++ ':' :: Nat.toDigits 10 endpoint.port := by
  rw [text, written]
  by_cases hcolon : ':' ∈ endpoint.host.toList
  · simp [hcolon]
  · simp [hcolon]

/-- The digits of a number are digits only, and there is at least one. So a written port passes the
test that is made before it is read. -/
theorem allDigits_toDigits (n : Nat) : allDigits (Nat.toDigits 10 n) := by
  simp only [allDigits, Bool.and_eq_true, Bool.not_eq_true', List.isEmpty_eq_false_iff,
    List.all_eq_true]
  exact ⟨Nat.toDigits_ne_nil, fun c hc => Text.isDigit_of_mem_toDigits hc⟩

/-- There is no colon among the digits of a number. So the last colon of the text of an endpoint is
the one before its port. -/
theorem notMem_toDigits (n : Nat) : ':' ∉ Nat.toDigits 10 n := by
  intro hmem
  have hdigit := Nat.isDigit_of_mem_toDigits (by decide) (by decide) hmem
  exact absurd hdigit (by decide)

/-- Every port is short enough to be read: it has at most five digits, and more than four thousand
would be needed to be too long. -/
theorem readNumber_port (h : number ≤ maxPort) :
    readNumber (Nat.toDigits 10 number) = .ok number := by
  have hfive : number < 10 ^ 5 := Nat.lt_of_le_of_lt h (by decide)
  exact readNumber_toDigits (hfive.trans_le (Nat.pow_le_pow_right (by decide) (by decide)))

/-- What is read back from the text of an endpoint: the port as it was, and the host without the
brackets that writing may have put around it or that were there before. -/
theorem read_text (hport : endpoint.port ≤ maxPort) (hhost : endpoint.host ≠ "") :
    read endpoint.text
      = .ok ⟨String.ofList (unbracketed (written endpoint.host.toList)), endpoint.port⟩ := by
  have hwritten : written endpoint.host.toList ≠ [] := by
    rw [ne_eq, written_eq_nil_iff, String.toList_eq_nil_iff]
    exact hhost
  exact read_eq_ok_iff.2 ⟨_, _, toList_text endpoint, notMem_toDigits _, hwritten,
    allDigits_toDigits _, readNumber_port hport, hport, rfl⟩

/-- The text of an endpoint without a host cannot be read. It begins with the colon, and there is no
second colon before which a host could stand. -/
theorem read_text_ne_ok {other : Endpoint} (hhost : endpoint.host = "") :
    read endpoint.text ≠ .ok other := by
  intro h
  obtain ⟨host, port, htext, hcolon, hne, -⟩ := read_eq_ok_iff.1 h
  rw [toList_text, hhost] at htext
  cases host with
  | nil => exact hne rfl
  | cons c host =>
    have hmem : ':' ∈ Nat.toDigits 10 endpoint.port := by
      have htail : Nat.toDigits 10 endpoint.port = host ++ ':' :: port := (List.cons.inj htext).2
      rw [htail]
      simp
    exact notMem_toDigits _ hmem

/-- An endpoint comes back from its text if it has a host that does not lose brackets. This is
`read_text_eq_ok_iff` in the words of this module. -/
theorem read_text_eq_ok_self_iff (hport : endpoint.port ≤ maxPort) :
    read endpoint.text = .ok endpoint ↔
      endpoint.host ≠ "" ∧ ¬LosesBrackets endpoint.host.toList := by
  by_cases hhost : endpoint.host = ""
  · simp [hhost, read_text_ne_ok hhost]
  · rw [read_text hport hhost, ← unbracketed_written_eq_self_iff]
    obtain ⟨name, number⟩ := endpoint
    simp [hhost, String.ext_iff]

/-- Writing an endpoint is undone by reading it, unless its host is empty or has brackets around it
and no colon. With a colon, writing puts a second pair of brackets around the host, and reading
removes this pair only. -/
theorem read_text_eq_ok_iff (host : String) (port : Nat) (hport : port ≤ maxPort) :
    read (mk host port).text = .ok ⟨host, port⟩ ↔
      host ≠ "" ∧ ¬(host.toList.head? = some '[' ∧ host.toList.getLast? = some ']' ∧
        ':' ∉ host.toList) := by
  rw [read_text_eq_ok_self_iff hport, LosesBrackets, Bracketed, and_assoc]

/-- Brackets inside a host with a colon are kept. -/
theorem read_text_eq_ok_iff_brackets :
    65535 ≤ maxPort ∧ read (mk "[é:1]" 65535).text = .ok ⟨"[é:1]", 65535⟩ := by
  have hport : 65535 ≤ maxPort := by decide
  exact ⟨hport, (read_text_eq_ok_iff "[é:1]" 65535 hport).2 (by decide)⟩

/-! ## Normal forms -/

/-- The host of a text stands in brackets, and between them is no colon, but nothing or a second
pair of brackets. -/
def Overbracketed (text : String) : Prop :=
  ∃ inner port, text.toList = ('[' :: (inner ++ [']'])) ++ ':' :: port ∧ ':' ∉ port ∧
    ':' ∉ inner ∧ (inner = [] ∨ Bracketed inner)

/-- A text has one last colon, so that the host before it and the port after it are known, whichever
way it is taken apart. -/
theorem eq_of_last_colon {host host' port port' : List Char}
    (heq : host ++ ':' :: port = host' ++ ':' :: port') (hcolon : ':' ∉ port)
    (hcolon' : ':' ∉ port') : host = host' ∧ port = port' := by
  have hsplit : splitAtLast ':' (host ++ ':' :: port) = some (host, port) :=
    splitAtLast_append hcolon
  rw [heq, splitAtLast_append hcolon'] at hsplit
  cases hsplit
  exact ⟨rfl, rfl⟩

/-- A text is overbracketed if the host that is read from it cannot be read again: it is empty, or
it loses brackets that were left when the first pair was removed. -/
theorem overbracketed_iff {host port : List Char} (htext : text.toList = host ++ ':' :: port)
    (hcolon : ':' ∉ port) (hhost : host ≠ []) :
    Overbracketed text ↔ unbracketed host = [] ∨ LosesBrackets (unbracketed host) := by
  constructor
  · rintro ⟨inner, port', htext', hcolon', hinner, hshape⟩
    obtain ⟨rfl, -⟩ := eq_of_last_colon (htext ▸ htext') hcolon hcolon'
    rw [unbracketed_brackets]
    exact hshape.imp_right fun hbrackets => ⟨hbrackets, hinner⟩
  · intro h
    have hbrackets : Bracketed host := by
      by_contra hnot
      rw [unbracketed_of_not_bracketed hnot] at h
      exact h.elim hhost fun hloses => hnot hloses.1
    obtain ⟨inner, rfl⟩ := bracketed_iff.1 hbrackets
    rw [unbracketed_brackets] at h
    refine ⟨inner, port, htext, hcolon, ?_, h.imp_right And.left⟩
    rcases h with rfl | hloses
    · exact List.not_mem_nil
    · exact hloses.2

/-- A text that is accepted has a port in range. It has a host and a stable normal form unless it is
overbracketed, and its host is empty only if there is nothing between the brackets. -/
theorem normal_form_stable_iff (h : read text = .ok endpoint) :
    endpoint.port ≤ maxPort ∧
    (endpoint.host = "" ↔ ∃ port, ':' ∉ port ∧ text.toList = '[' :: ']' :: ':' :: port) ∧
    (endpoint.host ≠ "" ∧ read endpoint.text = .ok endpoint ↔ ¬Overbracketed text) := by
  obtain ⟨host, port, htext, hcolon, hhost, -, -, hport, hname⟩ := read_eq_ok_iff.1 h
  have hchars : endpoint.host.toList = unbracketed host := by rw [hname, String.toList_ofList]
  refine ⟨hport, ?_, ?_⟩
  · rw [← String.toList_eq_nil_iff, hchars, unbracketed_eq_nil_iff, or_iff_right hhost]
    constructor
    · rintro rfl
      exact ⟨port, hcolon, htext⟩
    · rintro ⟨port', hcolon', htext'⟩
      exact (eq_of_last_colon (htext ▸ htext') hcolon hcolon').1
  · rw [read_text_eq_ok_self_iff hport, overbracketed_iff htext hcolon hhost, ← hchars,
      String.toList_eq_nil_iff, not_or, and_self_left]

/-- A second pair of brackets is stable around a host with a colon. -/
theorem normal_form_stable_iff_digits :
    read "[[::1]]:٣" = .ok ⟨"[::1]", 3⟩ ∧ read (mk "[::1]" 3).text = .ok ⟨"[::1]", 3⟩ := by
  have hread : read "[[::1]]:٣" = .ok ⟨"[::1]", 3⟩ := by decide +kernel
  have htext : "[[::1]]:٣".toList = "[[::1]]".toList ++ ':' :: "٣".toList := by decide
  refine ⟨hread, ((normal_form_stable_iff hread).2.2.2 ?_).2⟩
  rw [overbracketed_iff htext (by decide) (by decide)]
  decide

/-- The host is asked for before its brackets are removed, and brackets are removed around a host
without a colon. -/
theorem empty_brackets_accepted :
    read "[]:80" = .ok ⟨"", 80⟩ ∧ read (mk "" 80).text = .error (.malformed ":80") ∧
    read "[[a]]:80" = .ok ⟨"[a]", 80⟩ ∧ read (mk "[a]" 80).text = .ok ⟨"a", 80⟩ := by
  decide +kernel

end Endpoint

end ActivityScript.Address
