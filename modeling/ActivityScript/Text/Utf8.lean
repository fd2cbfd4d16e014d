/-!
# UTF-8

A byte sequence is cut into `Piece`s: characters, and ill-formed parts that no character starts
with. An ill-formed part is maximal, which means that it is the longest beginning of a character
found at its place, or a single byte when no character begins there. `decode` accepts a sequence
without ill-formed parts and otherwise reports the first one, `decodeLossy` puts one replacement
character for each.

Characters are Unicode scalar values, so that every text has bytes and a surrogate is ill-formed.
-/

namespace ActivityScript.Text.Utf8

/-- The bytes of a text. -/
def encode (text : List Char) : List UInt8 :=
  text.flatMap String.utf8EncodeChar

/-- Why a part of a byte sequence is ill-formed. -/
inductive Reason where
  /-- The byte begins no character. -/
  | invalidStart
  /-- A byte that had to continue the character does not. -/
  | invalidContinuation
  /-- The sequence ends inside the character. -/
  | unexpectedEnd
  deriving DecidableEq, Repr

/-- The words for a reason. -/
def Reason.text : Reason → String
  | .invalidStart => "invalid start byte"
  | .invalidContinuation => "invalid continuation byte"
  | .unexpectedEnd => "unexpected end of data"

/-- A part of a byte sequence: a character with the number of bytes that write it, or an ill-formed
part with its bytes, of which `first` is the first. -/
inductive Piece where
  | char (c : Char) (width : Nat)
  | ill (reason : Reason) (first : UInt8) (width : Nat)
  deriving DecidableEq, Repr

/-- The number of bytes of a piece. -/
def Piece.width : Piece → Nat
  | .char _ w => w
  | .ill _ _ w => w

/-- Whether `b` is a byte that continues a character. -/
def isContinuation (b : UInt8) : Bool := 0x80 ≤ b && b ≤ 0xBF

/-- Whether `b` may follow the leading byte `lead` of a character of three bytes: overlong forms and
surrogates are excluded here. -/
def secondOfThree (lead b : UInt8) : Bool :=
  isContinuation b && (lead != 0xE0 || 0xA0 ≤ b) && (lead != 0xED || b ≤ 0x9F)

/-- Whether `b` may follow the leading byte `lead` of a character of four bytes: overlong forms and
values above the last code point are excluded here. -/
def secondOfFour (lead b : UInt8) : Bool :=
  isContinuation b && (lead != 0xF0 || 0x90 ≤ b) && (lead != 0xF4 || b ≤ 0x8F)

/-- The six value bits of a continuation byte. -/
def tailBits (b : UInt8) : Nat := b.toNat % 64

/-- The character written by a leading byte of two and one continuation byte. -/
def charOfTwo (a b : UInt8) : Char :=
  Char.ofNat (a.toNat % 32 * 64 + tailBits b)

/-- The character written by a leading byte of three and two continuation bytes. -/
def charOfThree (a b c : UInt8) : Char :=
  Char.ofNat (a.toNat % 16 * 4096 + tailBits b * 64 + tailBits c)

/-- The character written by a leading byte of four and three continuation bytes. -/
def charOfFour (a b c d : UInt8) : Char :=
  Char.ofNat (a.toNat % 8 * 262144 + tailBits b * 4096 + tailBits c * 64 + tailBits d)

/-- The piece that starts with byte `a` when the bytes `as` follow. -/
def pieceAt (a : UInt8) (as : List UInt8) : Piece :=
  if a ≤ 0x7F then .char (Char.ofNat a.toNat) 1
  else if a < 0xC2 || 0xF4 < a then .ill .invalidStart a 1
  else if a ≤ 0xDF then
    match as with
    | [] => .ill .unexpectedEnd a 1
    | b :: _ =>
      if isContinuation b then .char (charOfTwo a b) 2
      else .ill .invalidContinuation a 1
  else if a ≤ 0xEF then
    match as with
    | [] => .ill .unexpectedEnd a 1
    | b :: bs =>
      if secondOfThree a b then
        match bs with
        | [] => .ill .unexpectedEnd a 2
        | c :: _ =>
          if isContinuation c then .char (charOfThree a b c) 3
          else .ill .invalidContinuation a 2
      else .ill .invalidContinuation a 1
  else
    match as with
    | [] => .ill .unexpectedEnd a 1
    | b :: bs =>
      if secondOfFour a b then
        match bs with
        | [] => .ill .unexpectedEnd a 2
        | c :: cs =>
          if isContinuation c then
            match cs with
            | [] => .ill .unexpectedEnd a 3
            | d :: _ =>
              if isContinuation d then .char (charOfFour a b c d) 4
              else .ill .invalidContinuation a 3
          else .ill .invalidContinuation a 2
      else .ill .invalidContinuation a 1

/-- The pieces of a byte sequence after its first `skip` bytes, from left to right. -/
def piecesAfter : (skip : Nat) → List UInt8 → List Piece
  | _, [] => []
  | skip + 1, _ :: as => piecesAfter skip as
  | 0, a :: as => pieceAt a as :: piecesAfter ((pieceAt a as).width - 1) as

/-- The pieces of a byte sequence, from left to right. -/
def pieces (bytes : List UInt8) : List Piece :=
  piecesAfter 0 bytes

/-- The first ill-formed part of a byte sequence: where it starts, how many bytes it has, the first
of them, and what is wrong with it. -/
structure Fault where
  start : Nat
  width : Nat
  first : UInt8
  reason : Reason
  deriving DecidableEq, Repr

/-- The characters of pieces that start at byte `start`, or the first ill-formed part. -/
def collect (start : Nat) : List Piece → Except Fault (List Char)
  | [] => .ok []
  | .char c w :: ps =>
    match collect (start + w) ps with
    | .ok cs => .ok (c :: cs)
    | .error f => .error f
  | .ill r b w :: _ => .error ⟨start, w, b, r⟩

/-- The text of a byte sequence without ill-formed parts. -/
def decode (bytes : List UInt8) : Except Fault (List Char) :=
  collect 0 (pieces bytes)

/-- The character that stands for an ill-formed part. -/
def replacement : Char := '�'

/-- The text of any byte sequence, with one replacement character for each ill-formed part. -/
def decodeLossy (bytes : List UInt8) : List Char :=
  (pieces bytes).map fun
    | .char c _ => c
    | .ill _ _ _ => replacement

/-- The two lower-case hexadecimal digits of a byte. -/
def hexByte (b : UInt8) : String :=
  String.ofList [Nat.digitChar (b.toNat / 16), Nat.digitChar (b.toNat % 16)]

/-- The report of a fault: which bytes, where, and what is wrong with them. -/
def Fault.text (f : Fault) : String :=
  let what :=
    if f.width = 1 then
      "byte 0x" ++ hexByte f.first ++ " in position " ++ toString f.start
    else
      "bytes in position " ++ toString f.start ++ "-" ++ toString (f.start + f.width - 1)
  "'utf-8' codec can't decode " ++ what ++ ": " ++ f.reason.text

end ActivityScript.Text.Utf8
