import ActivityScript.Activity.Json
import ActivityScript.Proofs.Text.Decimals
import ActivityScript.Proofs.Text.Utf8

/-!
# Reading JSON

A JSON text is read in two passes. The first goes through its characters and finds the tokens
(`Reading.step`, `lex`). A text between quotation marks stands for UTF-16 units, which are put
together to characters at its end (`ofUnits`). The second goes through the tokens and keeps the
arrays and objects that are not yet complete on a stack (`readValue`, `resume`). Blanks between
tokens, capital hexadecimal digits and needless escapes are all read; a number that is no integer,
half of a surrogate pair and the literals without a value of their kind are not.

`read_write_append` says that a value comes back from its text. Each pass has its own invariant: the
characters of a value give its tokens and leave the rest to be read (`lex_write`), and the tokens of
a value are the value for whatever is on the stack (`readValue_tokens`).
-/

namespace ActivityScript.Activity.Json

open Text (asciiDigit? asciiDigit?_digitChar hexValue? hexValue?_digitChar isSome_asciiDigit?_of_mem
  not_leadingZero_toDigits readDigits readDigits_toDigits toList_toString_negSucc
  toList_toString_ofNat)

/-! ## Units -/

/-- The UTF-16 units of a character. -/
def units (c : Char) : List Nat :=
  if c.toNat < 0x10000 then [c.toNat]
  else [0xd800 + (c.toNat - 0x10000) / 0x400, 0xdc00 + (c.toNat - 0x10000) % 0x400]

/-- The characters of UTF-16 units. A unit of a pair must not stand alone. -/
def ofUnits : List Nat → Option (List Char)
  | [] => some []
  | unit :: rest =>
    if 0xd800 ≤ unit ∧ unit < 0xdc00 then
      match rest with
      | low :: rest =>
        if 0xdc00 ≤ low ∧ low < 0xe000 then
          (ofUnits rest).map
            (Char.ofNat (0x10000 + (unit - 0xd800) * 0x400 + (low - 0xdc00)) :: ·)
        else none
      | [] => none
    else if 0xdc00 ≤ unit ∧ unit < 0xe000 then none
    else (ofUnits rest).map (Char.ofNat unit :: ·)

/-- A unit that belongs to no pair is the number of a character by itself, and the units after it
are put together on their own. -/
theorem ofUnits_cons {unit : Nat} (h : unit < 0xd800 ∨ 0xe000 ≤ unit) (rest : List Nat) :
    ofUnits (unit :: rest) = (ofUnits rest).map (Char.ofNat unit :: ·) := by
  rw [ofUnits.eq_def]
  dsimp only
  rw [if_neg (by omega), if_neg (by omega)]

/-- Two units that belong to a pair, the first one of the high half and the second one of the low
half, are one character together. -/
theorem ofUnits_pair {high low : Nat} (hhigh : 0xd800 ≤ high ∧ high < 0xdc00)
    (hlow : 0xdc00 ≤ low ∧ low < 0xe000) (rest : List Nat) :
    ofUnits (high :: low :: rest) = (ofUnits rest).map
      (Char.ofNat (0x10000 + (high - 0xd800) * 0x400 + (low - 0xdc00)) :: ·) := by
  rw [ofUnits.eq_def]
  dsimp only
  rw [if_pos hhigh, if_pos hlow]

/-- A character comes back from its units, whatever units follow. It is never mistaken for half of a
pair, since no character is a surrogate. -/
theorem ofUnits_units_append (c : Char) (rest : List Nat) :
    ofUnits (units c ++ rest) = (ofUnits rest).map (c :: ·) := by
  have hrange := Text.Utf8.toNat_cases c
  rw [units]
  split
  · rw [List.singleton_append, ofUnits_cons (by omega), Char.ofNat_toNat]
  · have hvalue : 0x10000 + (0xd800 + (c.toNat - 0x10000) / 0x400 - 0xd800) * 0x400
        + (0xdc00 + (c.toNat - 0x10000) % 0x400 - 0xdc00) = c.toNat := by
      omega
    rw [List.cons_append, List.singleton_append, ofUnits_pair (by omega) (by omega), hvalue,
      Char.ofNat_toNat]

/-- A text comes back from the units of its characters. Other units may stand for no text at all, if
half of a pair is missing. -/
theorem ofUnits_flatMap_units (cs : List Char) : ofUnits (cs.flatMap units) = some cs := by
  induction cs with
  | nil => rfl
  | cons c cs ih => rw [List.flatMap_cons, ofUnits_units_append, ih, Option.map_some]

/-! ## Tokens -/

/-- A part of a JSON text. -/
inductive Token where
  | openArray
  | closeArray
  | openObject
  | closeObject
  | comma
  | colon
  | number (value : Int)
  | text (value : String)
  deriving DecidableEq

/-- A token of one character. -/
def mark? (c : Char) : Option Token :=
  if c = '[' then some .openArray
  else if c = ']' then some .closeArray
  else if c = '\x7b' then some .openObject
  else if c = '\x7d' then some .closeObject
  else if c = ',' then some .comma
  else if c = ':' then some .colon
  else none

/-- A number without leading zeros. -/
def natural? (digits : List Char) : Option Nat :=
  if digits = [] ∨ digits.head? = some '0' ∧ digits ≠ ['0'] then none
  else readDigits 10 asciiDigit? 0 digits

/-- A number with or without a minus sign. -/
def integer? : List Char → Option Int
  | [] => none
  | c :: digits =>
    if c = '-' then (natural? digits).map fun (n : Nat) => -(n : Int)
    else (natural? (c :: digits)).map Int.ofNat

/-- The character that a backslash and a character stand for. -/
def shortEscape? (c : Char) : Option Char :=
  if c = '\x22' ∨ c = '\\' ∨ c = '/' then some c
  else if c = 'n' then some '\n'
  else if c = 'r' then some '\r'
  else if c = 't' then some '\t'
  else if c = 'f' then some '\x0c'
  else if c = 'b' then some '\x08'
  else none

/-- What is being read: nothing, a number, or a text with the units that it has so far, perhaps
after a backslash or within a unit of which some digits are missing. -/
inductive Reading where
  | between
  | number (read : List Char)
  | text (units : List Nat)
  | escape (units : List Nat)
  | unit (units : List Nat) (value missing : Nat)

namespace Reading

/-- The first character of a token, or a blank. -/
def start (c : Char) : Option (List Token × Reading) :=
  if c = ' ' ∨ c = '\t' ∨ c = '\n' ∨ c = '\r' then some ([], .between)
  else if c = '\x22' then some ([], .text [])
  else if c = '-' ∨ (asciiDigit? c).isSome then some ([], .number [c])
  else (mark? c).map fun token => ([token], .between)

/-- The tokens that are complete with a character, and what is being read after it. -/
def step (reading : Reading) (c : Char) : Option (List Token × Reading) :=
  match reading with
  | .between => start c
  | .number read =>
    if (asciiDigit? c).isSome then some ([], .number (read ++ [c]))
    else do
      let value ← integer? read
      let (tokens, next) ← start c
      return (.number value :: tokens, next)
  | .text units =>
    if c = '\x22' then (ofUnits units).map fun text => ([.text (String.ofList text)], .between)
    else if c = '\\' then some ([], .escape units)
    else if c.toNat < 0x20 then none
    else some ([], .text (units ++ Json.units c))
  | .escape units =>
    if c = 'u' then some ([], .unit units 0 3)
    else (shortEscape? c).map fun char => ([], .text (units ++ Json.units char))
  | .unit units value missing =>
    (hexValue? c).map fun digit =>
      match missing with
      | 0 => ([], .text (units ++ [16 * value + digit]))
      | missing + 1 => ([], .unit units (16 * value + digit) missing)

end Reading

/-- The tokens of a text, of which a part has been read. -/
def lex : Reading → List Char → Option (List Token)
  | .between, [] => some []
  | .number read, [] => (integer? read).map fun value => [.number value]
  | _, [] => none
  | reading, c :: rest => do
    let (tokens, next) ← reading.step c
    let more ← lex next rest
    return tokens ++ more

/-! ## Values -/

/-- An array with the items that it has so far, or an object with its fields so far and the key of
the next one. -/
inductive Frame where
  | items (done : List Json)
  | fields (done : List (String × Json)) (key : String)

mutual

/-- Reads a value within the arrays and objects on a stack. -/
def readValue : List Frame → List Token → Option Json
  | stack, .number value :: rest => resume stack (.number value) rest
  | stack, .text value :: rest => resume stack (.text value) rest
  | stack, .openArray :: rest => readValue (.items [] :: stack) rest
  | .items [] :: stack, .closeArray :: rest => resume stack (.array []) rest
  | stack, .openObject :: rest => readField [] stack rest
  | _, _ => none

/-- Reads a field of an object that has some fields already. -/
def readField : List (String × Json) → List Frame → List Token → Option Json
  | done, stack, .text key :: .colon :: rest => readValue (.fields done key :: stack) rest
  | [], stack, .closeObject :: rest => resume stack (.object []) rest
  | _, _, _ => none

/-- Goes on after a value. -/
def resume : List Frame → Json → List Token → Option Json
  | [], value, [] => some value
  | .items done :: stack, value, .comma :: rest =>
    readValue (.items (done ++ [value]) :: stack) rest
  | .items done :: stack, value, .closeArray :: rest =>
    resume stack (.array (done ++ [value])) rest
  | .fields done key :: stack, value, .comma :: rest =>
    readField (done ++ [(key, value)]) stack rest
  | .fields done key :: stack, value, .closeObject :: rest =>
    resume stack (.object (done ++ [(key, value)])) rest
  | _, _, _ => none

end

/-- The value of a JSON text. -/
def read (text : List Char) : Option Json :=
  (lex .between text).bind (readValue [])

/-! ## Texts that are written and read -/

mutual

/-- The tokens of a value. -/
def tokens : Json → List Token
  | .number value => [.number value]
  | .text value => [.text value]
  | .array items => .openArray :: itemTokens items ++ [.closeArray]
  | .object fields => .openObject :: fieldTokens fields ++ [.closeObject]

/-- The tokens of items, with commas between them. -/
def itemTokens : List Json → List Token
  | [] => []
  | [item] => item.tokens
  | item :: items => item.tokens ++ .comma :: itemTokens items

/-- The tokens of fields, with commas between them. -/
def fieldTokens : List (String × Json) → List Token
  | [] => []
  | [(key, value)] => .text key :: .colon :: value.tokens
  | (key, value) :: fields =>
    .text key :: .colon :: value.tokens ++ .comma :: fieldTokens fields

end

/-- Items after the first are written behind a comma and a blank. The equation needs two items,
since nothing is written behind the last one. -/
theorem writeItems_cons_cons (item next : Json) (items : List Json) :
    writeItems (item :: next :: items)
      = item.write ++ ',' :: ' ' :: writeItems (next :: items) := by
  simp [writeItems]

/-- Fields after the first are written behind a comma and a blank, each with a colon and a blank
between its key and its value. -/
theorem writeFields_cons_cons (key : String) (value : Json) (next : String × Json)
    (fields : List (String × Json)) :
    writeFields ((key, value) :: next :: fields)
      = writeText key ++ ':' :: ' ' ::
        (value.write ++ ',' :: ' ' :: writeFields (next :: fields)) := by
  simp [writeFields]

/-- The tokens of items after the first stand behind a comma. This is the counterpart of
`writeItems_cons_cons`. -/
theorem itemTokens_cons_cons (item next : Json) (items : List Json) :
    itemTokens (item :: next :: items) = item.tokens ++ .comma :: itemTokens (next :: items) := by
  simp [itemTokens]

/-- The tokens of fields after the first stand behind a comma, each with a colon after its key. This
is the counterpart of `writeFields_cons_cons`. -/
theorem fieldTokens_cons_cons (key : String) (value : Json) (next : String × Json)
    (fields : List (String × Json)) :
    fieldTokens ((key, value) :: next :: fields)
      = .text key :: .colon :: (value.tokens ++ .comma :: fieldTokens (next :: fields)) := by
  simp [fieldTokens]

/-- A character is written by a short escape, as itself, or by the escapes of its units. It is
written as itself only if it is printable ASCII and would not be mistaken for the end of the text or
for an escape. -/
theorem escape_cases (c : Char) :
    (∃ d, d ≠ 'u' ∧ shortEscape? d = some c ∧ escape c = ['\\', d]) ∨
    (c ≠ '\x22' ∧ c ≠ '\\' ∧ (0x20 ≤ c.toNat ∧ c.toNat < 0x7f) ∧ escape c = [c]) ∨
    escape c = (units c).flatMap unitEscape := by
  by_cases hshort : c ∈ ['\x22', '\\', '\n', '\r', '\t', '\x0c', '\x08']
  · left
    simp only [List.mem_cons, List.not_mem_nil, or_false] at hshort
    rcases hshort with rfl | rfl | rfl | rfl | rfl | rfl | rfl <;>
      exact ⟨_, by decide, by decide, rfl⟩
  · right
    simp only [List.mem_cons, List.not_mem_nil, or_false, not_or] at hshort
    obtain ⟨hquote, hslash, hfeed, hreturn, htab, hform, hback⟩ := hshort
    have hescape : escape c = if 0x20 ≤ c.toNat ∧ c.toNat < 0x7f then [c]
        else (units c).flatMap unitEscape := by
      rw [escape, if_neg hquote, if_neg hslash, if_neg hfeed, if_neg hreturn, if_neg htab,
        if_neg hform, if_neg hback, units]
      split
      · rfl
      · split <;> simp
    by_cases hrange : 0x20 ≤ c.toNat ∧ c.toNat < 0x7f
    · exact .inl ⟨hquote, hslash, hrange, hescape.trans (if_pos hrange)⟩
    · exact .inr (hescape.trans (if_neg hrange))

section Lex

variable {reading next : Reading} {found : List Token} {c : Char} {rest : List Char}

/-- One character is read, and the tokens that are complete with it come before those of the rest.
All invariants of the first pass are chains of this step. -/
theorem lex_of_step (h : reading.step c = some (found, next)) (rest : List Char) :
    lex reading (c :: rest) = (lex next rest).map (found ++ ·) := by
  have hlex : lex reading (c :: rest) = (reading.step c).bind fun stepped =>
      (lex stepped.2 rest).bind fun more => some (stepped.1 ++ more) := by
    cases reading <;> rfl
  rw [hlex, h, Option.bind_some]
  cases lex next rest <;> rfl

/-- A character that completes no token only changes what is being read. Most characters are of this
kind: all of a text but its last quotation mark, and all of a number. -/
theorem lex_of_silent_step (h : reading.step c = some ([], next)) (rest : List Char) :
    lex reading (c :: rest) = lex next rest := by
  rw [lex_of_step h]
  cases lex next rest <;> rfl

/-- Digits of a unit are added to its value one after the other. As long as further digits are
missing, the text stays within the unit. -/
theorem lex_unit_hexDigits (units : List Nat) (value n width missing : Nat) (rest : List Char) :
    lex (.unit units value (width + missing)) (Text.hexDigits n width ++ rest)
      = lex (.unit units (value * 16 ^ width + n % 16 ^ width) missing) rest := by
  induction width generalizing n missing rest with
  | zero => simp [Text.hexDigits, Nat.mod_one]
  | succ width ih =>
    have hdigit : hexValue? (Nat.digitChar (n % 16)) = some (n % 16) :=
      hexValue?_digitChar _ (Nat.mod_lt _ (by decide))
    have hstep : Reading.step (.unit units (value * 16 ^ width + n / 16 % 16 ^ width)
        (missing + 1)) (Nat.digitChar (n % 16)) = some ([], .unit units
          (16 * (value * 16 ^ width + n / 16 % 16 ^ width) + n % 16) missing) := by
      rw [Reading.step, hdigit]
      rfl
    have hvalue : 16 * (value * 16 ^ width + n / 16 % 16 ^ width) + n % 16
        = value * 16 ^ (width + 1) + n % 16 ^ (width + 1) := by
      rw [Nat.pow_succ', Nat.mod_mul]
      ring
    rw [Text.hexDigits, List.append_assoc, Nat.add_right_comm, Nat.add_assoc, ih,
      List.singleton_append, lex_of_silent_step hstep, hvalue]

/-- A backslash in a text starts an escape. The units that the text has so far are kept. -/
theorem step_backslash (units : List Nat) :
    Reading.step (.text units) '\\' = some ([], .escape units) := rfl

/-- The escape of a unit is read as the unit: its four digits write a number of sixteen bits, and
the last of them completes it. -/
theorem lex_unitEscape {unit : Nat} (h : unit < 0x10000) (units : List Nat) (rest : List Char) :
    lex (.text units) (unitEscape unit ++ rest) = lex (.text (units ++ [unit])) rest := by
  have hdigit : hexValue? (Nat.digitChar (unit % 16)) = some (unit % 16) :=
    hexValue?_digitChar _ (Nat.mod_lt _ (by decide))
  have hstep : Reading.step (.unit units (unit / 16 % 16 ^ 3) 0) (Nat.digitChar (unit % 16))
      = some ([], .text (units ++ [unit])) := by
    have hvalue : 16 * (unit / 16 % 16 ^ 3) + unit % 16 = unit := by omega
    rw [Reading.step, hdigit, Option.map_some]
    dsimp only
    rw [hvalue]
  have hu : Reading.step (.escape units) 'u' = some ([], .unit units 0 3) := rfl
  rw [unitEscape, List.cons_append, List.cons_append, lex_of_silent_step (step_backslash units),
    lex_of_silent_step hu, Text.hexDigits, List.append_assoc,
    lex_unit_hexDigits units 0 (unit / 16) 3 0, Nat.zero_mul, Nat.zero_add,
    List.singleton_append, lex_of_silent_step hstep]

/-- A short escape is read as the character it stands for. The letter `u` is excluded, because it
announces the digits of a unit. -/
theorem lex_shortEscape {char : Char} (hc : c ≠ 'u') (h : shortEscape? c = some char)
    (units : List Nat) (rest : List Char) :
    lex (.text units) ('\\' :: c :: rest) = lex (.text (units ++ Json.units char)) rest := by
  have hstep : Reading.step (.escape units) c = some ([], .text (units ++ Json.units char)) := by
    rw [Reading.step, if_neg hc, h, Option.map_some]
  rw [lex_of_silent_step (step_backslash units), lex_of_silent_step hstep]

/-- A character is read as its units, however it is written. Each way of writing it (`escape_cases`)
is one way through `Reading.step`. -/
theorem lex_escape (c : Char) (units : List Nat) (rest : List Char) :
    lex (.text units) (escape c ++ rest) = lex (.text (units ++ Json.units c)) rest := by
  rcases escape_cases c with ⟨d, hd, hshort, hescape⟩ | ⟨hquote, hslash, hrange, hescape⟩ | hescape
  · rw [hescape]
    exact lex_shortEscape hd hshort units rest
  · have hstep : Reading.step (.text units) c = some ([], .text (units ++ Json.units c)) := by
      rw [Reading.step, if_neg hquote, if_neg hslash, if_neg (by omega)]
    rw [hescape, List.singleton_append, lex_of_silent_step hstep]
  · have hrange := Text.Utf8.toNat_cases c
    rw [hescape, Json.units]
    split
    · next hplane => rw [List.flatMap_singleton, lex_unitEscape hplane]
    · rw [List.flatMap_cons, List.flatMap_singleton, List.append_assoc,
        lex_unitEscape (by omega), lex_unitEscape (by omega), List.append_assoc,
        List.singleton_append]

/-- Characters that are written one after the other are read as their units one after the other.
They are put together to characters only at the end of the text. -/
theorem lex_flatMap_escape (cs : List Char) (units : List Nat) (rest : List Char) :
    lex (.text units) (cs.flatMap escape ++ rest)
      = lex (.text (units ++ cs.flatMap Json.units)) rest := by
  induction cs generalizing units with
  | nil => simp
  | cons c cs ih =>
    rw [List.flatMap_cons, List.append_assoc, lex_escape, ih, List.flatMap_cons, List.append_assoc]

/-- A text between quotation marks is one token. No character in it is written with a quotation mark
that could end it too early. -/
theorem lex_writeText (text : String) (rest : List Char) :
    lex .between (writeText text ++ rest) = (lex .between rest).map (.text text :: ·) := by
  have hopen : Reading.step .between '\x22' = some ([], .text []) := rfl
  have hclose : Reading.step (.text (text.toList.flatMap Json.units)) '\x22'
      = some ([.text text], .between) := by
    rw [Reading.step, if_pos rfl, ofUnits_flatMap_units, Option.map_some, String.ofList_toList]
  rw [writeText, List.cons_append, List.cons_append, List.append_assoc, lex_of_silent_step hopen,
    lex_flatMap_escape, List.nil_append, List.singleton_append, lex_of_step hclose]
  rfl

/-! ### Numbers -/

/-- No digit follows. -/
def Stops (rest : List Char) : Prop := ∀ c ∈ rest.head?, asciiDigit? c = none

/-- A natural number is read from its digits. There is no zero in front that would make it none
(`not_leadingZero_toDigits`). -/
theorem natural?_toDigits (n : Nat) : natural? (Nat.toDigits 10 n) = some n := by
  have hwritten : ¬(Nat.toDigits 10 n = [] ∨
      (Nat.toDigits 10 n).head? = some '0' ∧ Nat.toDigits 10 n ≠ ['0']) :=
    not_or.2 ⟨Nat.toDigits_ne_nil, not_leadingZero_toDigits n⟩
  rw [natural?, if_neg hwritten,
    readDigits_toDigits (by decide) asciiDigit?_digitChar]

/-- An integer is read from its text. The digits of a natural number do not begin with a minus sign,
so the two cases are told apart. -/
theorem integer?_toString (value : Int) : integer? (toString value).toList = some value := by
  cases value with
  | ofNat n =>
    rw [toList_toString_ofNat]
    cases hdigits : Nat.toDigits 10 n with
    | nil => exact absurd hdigits Nat.toDigits_ne_nil
    | cons c digits =>
      have hc : c ≠ '-' := by
        rintro rfl
        have hminus := isSome_asciiDigit?_of_mem (hdigits ▸ List.mem_cons_self)
        cases hminus
      rw [integer?, if_neg hc, ← hdigits, natural?_toDigits, Option.map_some]
  | negSucc n =>
    rw [toList_toString_negSucc, integer?, if_pos rfl, natural?_toDigits, Option.map_some]
    rfl

/-- A number starts with a minus sign or a digit, and digits follow. So it is known from its first
character that a number is being read. -/
theorem exists_toString_eq_cons (value : Int) :
    ∃ c digits, (toString value).toList = c :: digits ∧ (c = '-' ∨ (asciiDigit? c).isSome) ∧
      ∀ d ∈ digits, (asciiDigit? d).isSome := by
  cases value with
  | ofNat n =>
    rw [toList_toString_ofNat]
    have hne : Nat.toDigits 10 n ≠ [] := Nat.toDigits_ne_nil
    obtain ⟨c, digits, hdigits⟩ := List.exists_cons_of_ne_nil hne
    refine ⟨c, digits, hdigits, .inr (isSome_asciiDigit?_of_mem (hdigits ▸ List.mem_cons_self)), ?_⟩
    exact fun d hd => isSome_asciiDigit?_of_mem (hdigits ▸ List.mem_cons_of_mem c hd)
  | negSucc n =>
    rw [toList_toString_negSucc]
    exact ⟨'-', _, rfl, .inl rfl, fun d hd => isSome_asciiDigit?_of_mem hd⟩

/-- A minus sign or a digit starts a number. It is none of the characters that are blanks or begin a
text. -/
theorem start_of_number (h : c = '-' ∨ (asciiDigit? c).isSome) :
    Reading.start c = some ([], .number [c]) := by
  have hne : ∀ d, d ≠ '-' → asciiDigit? d = none → c ≠ d := by
    rintro d hd hnone rfl
    rcases h with h | h
    · exact hd h
    · rw [hnone] at h
      cases h
  rw [Reading.start, if_neg, if_neg (hne _ (by decide) (by decide)), if_pos h]
  simp only [not_or]
  exact ⟨hne _ (by decide) (by decide), hne _ (by decide) (by decide),
    hne _ (by decide) (by decide), hne _ (by decide) (by decide)⟩

/-- Digits are added to a number that is being read, and complete no token. Where the number ends is
known only from what follows it. -/
theorem lex_number_append {digits : List Char} (h : ∀ d ∈ digits, (asciiDigit? d).isSome)
    (read rest : List Char) :
    lex (.number read) (digits ++ rest) = lex (.number (read ++ digits)) rest := by
  induction digits generalizing read with
  | nil => simp
  | cons d digits ih =>
    have hstep : Reading.step (.number read) d = some ([], .number (read ++ [d])) :=
      if_pos (h d List.mem_cons_self)
    rw [List.cons_append, lex_of_silent_step hstep,
      ih fun d hd => h d (List.mem_cons_of_mem _ hd), List.append_assoc, List.singleton_append]

/-- A number ends where no digit follows. If there is a next character, it completes the number and
is read as if nothing had been before it. -/
theorem lex_number_of_stops {read : List Char} {value : Int} (hread : integer? read = some value)
    (hstops : Stops rest) :
    lex (.number read) rest = (lex .between rest).map (.number value :: ·) := by
  cases rest with
  | nil =>
    have hend : lex (.number read) [] = (integer? read).map fun value => [.number value] := rfl
    rw [hend, hread]
    rfl
  | cons c rest =>
    have hdigit : ¬(asciiDigit? c).isSome := by simp [hstops c rfl]
    cases hstart : Reading.start c with
    | none =>
      have hnumber : Reading.step (.number read) c = none := by
        rw [Reading.step, if_neg hdigit, hread, hstart]
        rfl
      have hbetween : Reading.step .between c = none := hstart
      rw [lex, lex, hnumber, hbetween]
      rfl
    | some found =>
      obtain ⟨tokens, next⟩ := found
      have hnumber : Reading.step (.number read) c = some (.number value :: tokens, next) := by
        rw [Reading.step, if_neg hdigit, hread, hstart]
        rfl
      have hbetween : Reading.step .between c = some (tokens, next) := hstart
      rw [lex_of_step hnumber, lex_of_step hbetween, Option.map_map]
      rfl

/-- The text of an integer is one token, if no digit follows it. In a written value, a comma, a
bracket or the end of the line follows. -/
theorem lex_toString (value : Int) (hstops : Stops rest) :
    lex .between ((toString value).toList ++ rest)
      = (lex .between rest).map (.number value :: ·) := by
  obtain ⟨c, digits, heq, hc, hdigits⟩ := exists_toString_eq_cons value
  have hread := integer?_toString value
  rw [heq] at hread
  have hstart : Reading.step .between c = some ([], .number [c]) := start_of_number hc
  rw [heq, List.cons_append, lex_of_silent_step hstart, lex_number_append hdigits,
    List.singleton_append, lex_number_of_stops hread hstops]

/-! ### Values -/

/-- A blank between tokens is passed over. There is one after each comma and each colon that is
written. -/
theorem lex_blank (rest : List Char) : lex .between (' ' :: rest) = lex .between rest :=
  lex_of_silent_step rfl rest

/-- A number ends before any character that is no digit. This is what is asked for in `lex_write`,
and all marks and blanks are such characters. -/
theorem stops_cons (h : asciiDigit? c = none) : Stops (c :: rest) := by
  intro d hd
  cases hd
  exact h

mutual

/-- The characters of a value give its tokens, and what follows is read on its own. This is the
invariant of the first pass, one case for each kind of value. -/
theorem lex_write : ∀ (value : Json) {rest : List Char}, Stops rest →
    lex .between (value.write ++ rest) = (lex .between rest).map (value.tokens ++ ·)
  | .number value, rest, hstops => by
    rw [write, tokens]
    exact lex_toString value hstops
  | .text value, rest, _ => by
    rw [write, tokens]
    exact lex_writeText value rest
  | .array items, rest, _ => by
    have hopen : Reading.step .between '[' = some ([.openArray], .between) := rfl
    have hclose : Reading.step .between ']' = some ([.closeArray], .between) := rfl
    rw [write, tokens, List.cons_append, List.cons_append, List.append_assoc, lex_of_step hopen,
      List.singleton_append, lex_writeItems items (stops_cons (by decide)), lex_of_step hclose,
      Option.map_map, Option.map_map]
    congr 1
    funext more
    simp
  | .object fields, rest, _ => by
    have hopen : Reading.step .between '\x7b' = some ([.openObject], .between) := rfl
    have hclose : Reading.step .between '\x7d' = some ([.closeObject], .between) := rfl
    rw [write, tokens, List.cons_append, List.cons_append, List.append_assoc, lex_of_step hopen,
      List.singleton_append, lex_writeFields fields (stops_cons (by decide)), lex_of_step hclose,
      Option.map_map, Option.map_map]
    congr 1
    funext more
    simp

/-- The characters of the items of an array give their tokens. An item is followed by a comma or by
the end of the array, so that a number in it ends there. -/
theorem lex_writeItems : ∀ (items : List Json) {rest : List Char}, Stops rest →
    lex .between (writeItems items ++ rest) = (lex .between rest).map (itemTokens items ++ ·)
  | [], rest, _ => by
    rw [writeItems, itemTokens, List.nil_append]
    cases lex .between rest <;> rfl
  | [item], rest, hstops => by
    rw [writeItems, itemTokens]
    exact lex_write item hstops
  | item :: next :: items, rest, hstops => by
    have hcomma : Reading.step .between ',' = some ([.comma], .between) := rfl
    rw [writeItems_cons_cons, itemTokens_cons_cons, List.append_assoc, List.cons_append,
      List.cons_append, lex_write item (stops_cons (by decide)), lex_of_step hcomma, lex_blank,
      lex_writeItems (next :: items) hstops, Option.map_map, Option.map_map]
    congr 1
    funext more
    simp

/-- The characters of the fields of an object give their tokens: the key, a colon, and the tokens of
the value (`lex_write`). -/
theorem lex_writeFields : ∀ (fields : List (String × Json)) {rest : List Char}, Stops rest →
    lex .between (writeFields fields ++ rest) = (lex .between rest).map (fieldTokens fields ++ ·)
  | [], rest, _ => by
    rw [writeFields, fieldTokens, List.nil_append]
    cases lex .between rest <;> rfl
  | [(key, value)], rest, hstops => by
    have hcolon : Reading.step .between ':' = some ([.colon], .between) := rfl
    rw [writeFields, fieldTokens, List.append_assoc, List.append_assoc, lex_writeText,
      List.cons_append, List.singleton_append, lex_of_step hcolon, lex_blank,
      lex_write value hstops, Option.map_map, Option.map_map]
    rfl
  | (key, value) :: next :: fields, rest, hstops => by
    have hcolon : Reading.step .between ':' = some ([.colon], .between) := rfl
    have hcomma : Reading.step .between ',' = some ([.comma], .between) := rfl
    simp only [writeFields_cons_cons, fieldTokens_cons_cons, List.append_assoc, List.cons_append]
    rw [lex_writeText, lex_of_step hcolon, lex_blank, lex_write value (stops_cons (by decide)),
      lex_of_step hcomma, lex_blank, lex_writeFields (next :: fields) hstops, Option.map_map,
      Option.map_map, Option.map_map, Option.map_map]
    rfl

end

end Lex

mutual

/-- The tokens of a value are the value, whatever it is part of. This is the invariant of the second
pass, for any stack and any tokens that follow. -/
theorem readValue_tokens : ∀ (value : Json) (stack : List Frame) (rest : List Token),
    readValue stack (value.tokens ++ rest) = resume stack value rest
  | .number value, stack, rest => by
    rw [tokens, List.singleton_append, readValue]
  | .text value, stack, rest => by
    rw [tokens, List.singleton_append, readValue]
  | .array [], stack, rest => by
    rw [tokens, itemTokens, List.cons_append, List.cons_append, readValue, List.nil_append,
      List.singleton_append, readValue]
  | .array (item :: items), stack, rest => by
    rw [tokens, List.cons_append, List.cons_append, readValue, List.append_assoc,
      List.singleton_append, readValue_itemTokens (item :: items) (List.cons_ne_nil _ _),
      List.nil_append]
  | .object [], stack, rest => by
    rw [tokens, fieldTokens, List.cons_append, List.cons_append, readValue, List.nil_append,
      List.singleton_append, readField]
  | .object (field :: fields), stack, rest => by
    rw [tokens, List.cons_append, List.cons_append, readValue, List.append_assoc,
      List.singleton_append, readField_fieldTokens (field :: fields) (List.cons_ne_nil _ _),
      List.nil_append]

/-- The tokens of items complete an array that has some items already. Without items, an empty array
is read in another way, which is why there must be one. -/
theorem readValue_itemTokens : ∀ (items : List Json), items ≠ [] →
    ∀ (done : List Json) (stack : List Frame) (rest : List Token),
      readValue (.items done :: stack) (itemTokens items ++ .closeArray :: rest)
        = resume stack (.array (done ++ items)) rest
  | [], hne, _, _, _ => absurd rfl hne
  | [item], _, done, stack, rest => by
    rw [itemTokens, readValue_tokens item, resume]
  | item :: next :: items, _, done, stack, rest => by
    rw [itemTokens_cons_cons, List.append_assoc, readValue_tokens item, List.cons_append, resume,
      readValue_itemTokens (next :: items) (List.cons_ne_nil _ _), List.append_assoc,
      List.singleton_append]

/-- The tokens of fields complete an object that has some fields already. Fields stay in their
order, and two with the same key are both kept. -/
theorem readField_fieldTokens : ∀ (fields : List (String × Json)), fields ≠ [] →
    ∀ (done : List (String × Json)) (stack : List Frame) (rest : List Token),
      readField done stack (fieldTokens fields ++ .closeObject :: rest)
        = resume stack (.object (done ++ fields)) rest
  | [], hne, _, _, _ => absurd rfl hne
  | [(key, value)], _, done, stack, rest => by
    rw [fieldTokens, List.cons_append, List.cons_append, readField, readValue_tokens value, resume]
  | (key, value) :: next :: fields, _, done, stack, rest => by
    rw [fieldTokens_cons_cons, List.cons_append, List.cons_append, readField, List.append_assoc,
      readValue_tokens value, List.cons_append, resume,
      readField_fieldTokens (next :: fields) (List.cons_ne_nil _ _), List.append_assoc,
      List.singleton_append]

end

/-- **Values come back from their texts**, also if blanks follow. The characters of a value are its
tokens (`lex_write`), and these are the value (`readValue_tokens`), with nothing left over. -/
theorem read_write_append {more : List Char} (hmore : lex .between more = some [])
    (hstops : Stops more) (value : Json) : read (value.write ++ more) = some value := by
  have htokens : lex .between (value.write ++ more) = some (value.tokens ++ []) := by
    rw [lex_write value hstops, hmore, Option.map_some]
  rw [read, htokens, Option.bind_some, readValue_tokens, resume]

example : (read "[1, ]".toList).isNone := by decide +kernel

example : (read "\x22\\ud83d\x22".toList).isNone := by decide +kernel

end ActivityScript.Activity.Json
