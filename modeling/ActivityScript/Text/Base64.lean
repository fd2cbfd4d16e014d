/-!
# Base64

Bytes written with 64 characters, a group of four of them for three bytes. All other characters are
skipped. A padding character counts only after two or three characters of a group, and what follows
once the group is full is not read.
-/

namespace ActivityScript.Text.Base64

/-- The six bits that a character stands for. -/
def bits? (c : Char) : Option Nat :=
  if 'A' ≤ c ∧ c ≤ 'Z' then some (c.toNat - 65)
  else if 'a' ≤ c ∧ c ≤ 'z' then some (c.toNat - 71)
  else if '0' ≤ c ∧ c ≤ '9' then some (c.toNat + 4)
  else if c = '+' then some 62
  else if c = '/' then some 63
  else none

/-- The bytes that a text writes, from a place inside of a group on: `held` characters of it have
been read, of which the value `rest` has not become a byte yet, and `pads` padding characters since.
The text must not end inside of a group. -/
def decodeFrom (held rest pads : Nat) : List Char → Option (List UInt8)
  | [] => if held = 0 then some [] else none
  | c :: cs =>
    if c = '=' then
      if held < 2 then decodeFrom held rest pads cs
      else if 4 ≤ held + pads + 1 then some []
      else decodeFrom held rest (pads + 1) cs
    else
      match bits? c, held with
      | none, _ => decodeFrom held rest pads cs
      | some bits, 0 => decodeFrom 1 bits 0 cs
      | some bits, 1 =>
        (decodeFrom 2 (bits % 16) 0 cs).map (UInt8.ofNat (4 * rest + bits / 16) :: ·)
      | some bits, 2 => (decodeFrom 3 (bits % 4) 0 cs).map (UInt8.ofNat (16 * rest + bits / 4) :: ·)
      | some bits, _ => (decodeFrom 0 0 0 cs).map (UInt8.ofNat (64 * rest + bits) :: ·)

/-- The bytes that a text writes. -/
def decode? (text : List Char) : Option (List UInt8) := decodeFrom 0 0 0 text

end ActivityScript.Text.Base64
