import ActivityScript.Text.Digit
import Mathlib.Data.Nat.Digits.Lemmas

/-!
# Digits of any base

`readDigits` reads a number from digits of any base, and it is not said which characters are digits.
So what holds of it holds of the ten digits of ASCII, of hexadecimal digits and of the decimal
digits of all scripts. A number is read from its own digits (`readDigits_toDigits`), a number with
few digits is small (`lt_of_readDigits`), and reading fails at a character that is no digit and at
nothing else (`readDigits_eq_none_iff`).
-/

namespace ActivityScript.Text

variable {c : Char} {cs : List Char} {n base : Nat} {digit? : Char → Option Nat}

/-! ## Numbers that are read -/

/-- Digits in two parts are read one part after the other; the second is read after the number that
the first writes. If the first part is no number, the whole is none. -/
theorem readDigits_append (base : Nat) (digit? : Char → Option Nat) (n : Nat)
    (cs more : List Char) :
    readDigits base digit? n (cs ++ more)
      = (readDigits base digit? n cs).bind fun m => readDigits base digit? m more := by
  induction cs generalizing n with
  | nil => rfl
  | cons c cs ih =>
    rw [List.cons_append, readDigits, readDigits]
    cases digit? c with
    | none => rfl
    | some d => exact ih _

/-- A number is read from its own digits in a base, if each digit of the base has its value. The
last digit is the rest by the base, and the digits before it write the quotient. -/
theorem readDigits_toDigits (hbase : 1 < base)
    (hdigit : ∀ d < base, digit? (Nat.digitChar d) = some d) (n : Nat) :
    readDigits base digit? 0 (Nat.toDigits base n) = some n := by
  induction n using Nat.strongRecOn with
  | ind n ih =>
    by_cases hn : n < base
    · simp only [Nat.toDigits_of_lt_base hn, readDigits, hdigit n hn, Nat.mul_zero, Nat.zero_add]
    · have hle : base ≤ n := Nat.not_lt.1 hn
      have hquotient : n / base < n := Nat.div_lt_self (by omega) hbase
      have hrest : n % base < base := Nat.mod_lt n (by omega)
      rw [Nat.toDigits_of_base_le hbase hle, readDigits_append, ih _ hquotient]
      simp only [Option.bind_some, readDigits, hdigit _ hrest, Nat.div_add_mod]

/-- A number with few digits is small: as many digits as follow, so many powers of the base. Zeros
in front count as digits, so the bound need not be met. -/
theorem lt_of_readDigits {m : Nat} (hdigit : ∀ c d, digit? c = some d → d < base)
    (h : readDigits base digit? n cs = some m) : m < (n + 1) * base ^ cs.length := by
  induction cs generalizing n with
  | nil =>
    cases h
    simp
  | cons c cs ih =>
    rw [readDigits] at h
    split at h
    · next d hd =>
      have hlt : base * n + d + 1 ≤ (n + 1) * base := by
        have := hdigit c d hd
        rw [Nat.add_mul, Nat.one_mul, Nat.mul_comm n]
        omega
      calc m < (base * n + d + 1) * base ^ cs.length := ih h
        _ ≤ (n + 1) * base * base ^ cs.length := Nat.mul_le_mul_right _ hlt
        _ = (n + 1) * base ^ (cs.length + 1) := by
          rw [Nat.pow_succ, Nat.mul_assoc, Nat.mul_comm base]
    · cases h

/-- Characters write no number if and only if one of them is no digit. No characters at all write
the number that was read before them. -/
theorem readDigits_eq_none_iff :
    readDigits base digit? n cs = none ↔ ∃ c ∈ cs, digit? c = none := by
  induction cs generalizing n with
  | nil => simp [readDigits]
  | cons c cs ih =>
    rw [readDigits]
    cases hdigit : digit? c with
    | none => simp [hdigit]
    | some d => simp [ih, hdigit]

/-- Characters that write a number are digits, every one of them. This is the other side of
`readDigits_eq_none_iff`. -/
theorem exists_digit_of_readDigits {m : Nat} (h : readDigits base digit? n cs = some m)
    (hc : c ∈ cs) : ∃ d, digit? c = some d := by
  refine Option.ne_none_iff_exists'.1 fun hnone => ?_
  rw [readDigits_eq_none_iff.2 ⟨c, hc, hnone⟩] at h
  cases h

/-! ## Digits of ASCII -/

/-- The ten digits of ASCII have their values. This is all that `readDigits_toDigits` asks for of
decimal digits in this reading. -/
theorem asciiDigit?_digitChar : ∀ d < 10, asciiDigit? (Nat.digitChar d) = some d := by
  decide

/-- Hexadecimal digits have their values, if the letters among them are small. This is how numbers
are written; capital letters are read as well. -/
theorem hexValue?_digitChar : ∀ d < 16, hexValue? (Nat.digitChar d) = some d := by
  decide

/-- A hexadecimal digit, with a small or a capital letter, is less than sixteen. So four of them
write a number of sixteen bits (`lt_of_readDigits`). -/
theorem hexValue?_lt {d : Nat} (h : hexValue? c = some d) : d < 16 := by
  unfold hexValue? at h
  split at h
  · next hrange =>
    cases h
    have : c.toNat ≤ 57 := hrange.2
    omega
  · split at h
    · next hrange =>
      cases h
      have : c.toNat ≤ 102 := hrange.2
      omega
    · split at h
      · next hrange =>
        cases h
        have : c.toNat ≤ 70 := hrange.2
        omega
      · cases h

/-- Every character of a written number is a digit of ASCII. The number is read from these
characters, and so they are digits. -/
theorem isSome_asciiDigit?_of_mem (h : c ∈ Nat.toDigits 10 n) : (asciiDigit? c).isSome := by
  have hread := readDigits_toDigits (by decide) asciiDigit?_digitChar n
  obtain ⟨d, hd⟩ := exists_digit_of_readDigits hread h
  rw [hd]
  rfl

/-- A number is written with a zero in front only if it is zero. The first digit of a larger number
is that of its quotient by ten, which is not zero. -/
theorem head?_toDigits_eq_zero_iff (n : Nat) :
    (Nat.toDigits 10 n).head? = some '0' ↔ n = 0 := by
  induction n using Nat.strongRecOn with
  | ind n ih =>
    by_cases hn : n < 10
    · rw [Nat.toDigits_of_lt_base hn, List.head?_singleton, Option.some_inj,
        Nat.digitChar_eq_zero]
    · rw [Nat.toDigits_of_base_le (by decide) (Nat.not_lt.1 hn),
        List.head?_append_of_ne_nil _ Nat.toDigits_ne_nil, ih (n / 10) (by omega)]
      omega

/-- No written number has a zero in front, unless that zero is all of it. Numbers with a zero in
front are refused where addresses are read. -/
theorem not_leadingZero_toDigits (n : Nat) :
    ¬((Nat.toDigits 10 n).head? = some '0' ∧ Nat.toDigits 10 n ≠ ['0']) := by
  rintro ⟨hhead, hne⟩
  rw [(head?_toDigits_eq_zero_iff n).1 hhead] at hne
  exact hne (Nat.toDigits_zero 10)

end ActivityScript.Text
