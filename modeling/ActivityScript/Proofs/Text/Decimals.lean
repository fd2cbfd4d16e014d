import ActivityScript.Proofs.Text.Digits
import ActivityScript.Text.Number
import Mathlib.Algebra.Group.Nat.Defs
import Mathlib.Data.List.TakeWhile

/-!
# Numbers that are written and read

A number is written with the ten digits of ASCII, which are the first of all the decimal digits that
are read. So every number that is not too long is read as itself (`readNumber_toDigits`), and a
number is known from its text (`toString_injective`). An integer is written as a natural number,
with a minus sign in front if it is negative.
-/

namespace ActivityScript.Text

variable {c : Char} {n : Nat}

/-! ## Numbers that are written -/

/-- The text of a natural number is the list of its digits. What is known of digits
(`readDigits_toDigits`) is known of the text by this. -/
theorem toList_toString (n : Nat) : (toString n).toList = Nat.toDigits 10 n := by
  simp [toString, Nat.repr]

/-- An integer that is not negative is written like a natural number. There is no sign in front of
it, not even for zero. -/
theorem toList_toString_ofNat (n : Nat) :
    (toString (Int.ofNat n)).toList = Nat.toDigits 10 n := by
  simp [toString, Int.repr, Nat.repr]

/-- A negative integer is written as a minus sign with the digits of its size after it. These digits
are never those of zero. -/
theorem toList_toString_negSucc (n : Nat) :
    (toString (Int.negSucc n)).toList = '-' :: Nat.toDigits 10 (n + 1) := by
  simp [toString, Int.repr, Nat.repr]

/-- The text of a natural number has no other characters than the ten digits of ASCII. So it ends
where any other character follows. -/
theorem isDigit_of_mem_toString (h : c ∈ (toString n).toList) : c.isDigit := by
  rw [toList_toString] at h
  exact Nat.isDigit_of_mem_toDigits (by decide) (by decide) h

/-- Different natural numbers have different texts, since the number is read back from its digits.
So a line or a column is known from what is shown of it. -/
theorem toString_injective {m n : Nat} (h : toString m = toString n) : m = n := by
  have hdigits := congrArg String.toList h
  rw [toList_toString, toList_toString] at hdigits
  rw [← Nat.ofDigitChars_ten_toDigits (n := m), hdigits, Nat.ofDigitChars_ten_toDigits]

/-! ## Numbers that are read -/

/-- The digits with which numbers are written have their values among the digits of all scripts. The
zero of ASCII is the first of all zeros. -/
theorem digitValue?_digitChar : ∀ d < 10, digitValue? (Nat.digitChar d) = some d := by
  decide

/-- Every character of a written number is a digit, in the sense that counts digits of all scripts.
The number is read from these characters, and so they are digits. -/
theorem isDigit_of_mem_toDigits (h : c ∈ Nat.toDigits 10 n) : isDigit c := by
  have hread := readDigits_toDigits (by decide) digitValue?_digitChar n
  obtain ⟨d, hd⟩ := exists_digit_of_readDigits hread h
  rw [isDigit, hd]
  rfl

/-- A written number, of whatever length, is a decimal number and has its own value. There is at
least one digit, without which nothing is a number. -/
theorem decimal?_toDigits (n : Nat) : decimal? (Nat.toDigits 10 n) = some n := by
  cases hwritten : Nat.toDigits 10 n with
  | nil => exact absurd hwritten Nat.toDigits_ne_nil
  | cons c cs => rw [decimal?, ← hwritten, readDigits_toDigits (by decide) digitValue?_digitChar]

/-- A written number is read as itself, unless it is longer than what is read as a number. The limit
counts digits, and a number below this power of ten has no more. -/
theorem readNumber_toDigits (h : n < 10 ^ maxDigits) : readNumber (Nat.toDigits 10 n) = .ok n := by
  have hshort : (Nat.toDigits 10 n).length ≤ maxDigits :=
    (Nat.length_toDigits_le_iff (by decide) (by decide)).2 h
  have hfew : ¬maxDigits <
      ((Nat.toDigits 10 n).takeWhile fun c => (digitValue? c).isSome).length :=
    Nat.not_lt.2 ((List.takeWhile_sublist _).length_le.trans hshort)
  simp only [readNumber, if_neg hfew, decimal?_toDigits]

end ActivityScript.Text
