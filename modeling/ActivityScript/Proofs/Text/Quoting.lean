import ActivityScript.Proofs.Text.Digits
import ActivityScript.Text.Quoted

/-!
# Quoted text that is read

What stands between quotation marks can be read character by character: `takeChar` reads the first
one, however it is written, and leaves the rest (`takeChar_escaped`). So different texts have
different quoted forms (`quoted_injective`), whichever marks they stand between. All characters of a
quoted form are printable (`isPrintable_of_mem_quoted`), hence none of them ends a line.
-/

namespace ActivityScript.Text

variable {c mark : Char} {text : List Char}

/-! ## Printable characters -/

/-- The characters of ASCII from the blank to the tilde are printable. They lie between the first
two ranges of the table of those that are not. -/
theorem isPrintable_of_ascii (hlow : 0x20 ≤ c.toNat) (hhigh : c.toNat < 0x7f) :
    isPrintable c := by
  have htable : unprintable = (0x0, 0x1F) :: (0x7F, 0xA0) :: unprintable.drop 2 := rfl
  have hfirst : ¬c.toNat ≤ 0x1F := by omega
  rw [isPrintable, htable, inRanges, if_neg (Nat.not_lt_zero _), inRanges, if_pos hhigh]
  simp [hfirst]

/-- A line feed is not printable, since it is in the first range of the table. So printable
characters stand in one line. -/
theorem ne_of_isPrintable (h : isPrintable c) : c ≠ '\n' := by
  rintro rfl
  have htable : unprintable = (0x0, 0x1F) :: unprintable.drop 1 := rfl
  rw [isPrintable, htable, inRanges] at h
  simp at h

/-! ## Digits -/

/-- Every character of a hexadecimal number of fixed width is one of the sixteen digits, with small
letters. The zeros in front are among them. -/
theorem exists_digitChar_of_mem_hexDigits {n width : Nat} (h : c ∈ hexDigits n width) :
    ∃ d < 16, c = Nat.digitChar d := by
  induction width generalizing n with
  | zero => cases h
  | succ width ih =>
    rcases List.mem_append.1 h with hmem | hmem
    · exact ih hmem
    · exact ⟨n % 16, Nat.mod_lt _ (by decide), List.mem_singleton.1 hmem⟩

/-- A hexadecimal number of fixed width has as many digits as it was asked for. So whoever knows the
width knows where it ends. -/
theorem length_hexDigits (n width : Nat) : (hexDigits n width).length = width := by
  induction width generalizing n with
  | zero => rfl
  | succ width ih => rw [hexDigits, List.length_append, ih, List.length_singleton]

/-- The digits of a number are read as its last digits: those that do not fit into the width are
lost. A number below this power of sixteen comes back. -/
theorem readDigits_hexDigits (n width : Nat) :
    readDigits 16 hexValue? 0 (hexDigits n width) = some (n % 16 ^ width) := by
  induction width generalizing n with
  | zero => rw [hexDigits, readDigits, Nat.pow_zero, Nat.mod_one]
  | succ width ih =>
    have hdigit : hexValue? (Nat.digitChar (n % 16)) = some (n % 16) :=
      hexValue?_digitChar _ (Nat.mod_lt _ (by decide))
    have hvalue : 16 * (n / 16 % 16 ^ width) + n % 16 = n % 16 ^ (width + 1) := by
      rw [Nat.pow_succ', Nat.mod_mul, Nat.add_comm]
    rw [hexDigits, readDigits_append, ih]
    simp only [Option.bind_some, readDigits, hdigit, hvalue]

/-! ## Characters -/

/-- The number of digits that a letter after a backslash announces. -/
def escapeWidth? (letter : Char) : Option Nat :=
  if letter = 'x' then some 2
  else if letter = 'u' then some 4
  else if letter = 'U' then some 8
  else none

/-- The character that a letter after a backslash stands for, if it announces no digits. -/
def escapeMeaning (letter : Char) : Char :=
  if letter = 'n' then '\n'
  else if letter = 'r' then '\r'
  else if letter = 't' then '\t'
  else letter

/-- The first character of what stands between quotation marks, and what follows. -/
def takeChar : List Char → Option (Char × List Char)
  | [] => none
  | c :: rest =>
    if c = '\\' then
      match rest with
      | [] => none
      | letter :: rest =>
        match escapeWidth? letter with
        | some width =>
          (readDigits 16 hexValue? 0 (rest.take width)).map fun n =>
            (Char.ofNat n, rest.drop width)
        | none => some (escapeMeaning letter, rest)
    else some (c, rest)

/-- A quotation mark is an apostrophe or a double one. -/
def IsMark (mark : Char) : Prop := mark = '\x27' ∨ mark = '\x22'

/-- A text is put between apostrophes, or between double quotation marks if it holds the one and not
the other. In either case it is a mark. -/
theorem isMark_quoteMark (text : List Char) : IsMark (quoteMark text) := by
  unfold quoteMark
  split
  · exact .inr rfl
  · exact .inl rfl

/-- Both quotation marks are printable, since they are characters of ASCII that are no controls
(`isPrintable_of_ascii`). -/
theorem isPrintable_of_isMark (h : IsMark mark) : isPrintable mark := by
  rcases h with rfl | rfl <;> exact isPrintable_of_ascii (by decide) (by decide)

/-- A character is written by a letter after a backslash, as itself, or by its number. Whatever it
is written with is printable, and a letter after a backslash says how many digits follow. -/
theorem escaped_cases (hmark : IsMark mark) (c : Char) :
    (∃ letter, escapeWidth? letter = none ∧ escapeMeaning letter = c ∧ isPrintable letter ∧
      escaped mark c = ['\\', letter]) ∨
    (c ≠ '\\' ∧ isPrintable c ∧ escaped mark c = [c]) ∨
    ∃ letter width, escapeWidth? letter = some width ∧ c.toNat < 16 ^ width ∧
      isPrintable letter ∧ escaped mark c = '\\' :: letter :: hexDigits c.toNat width := by
  unfold escaped
  split
  · next hc =>
    left
    rcases (by simpa using hc : c = mark ∨ c = '\\') with rfl | rfl
    · refine ⟨c, ?_, ?_, isPrintable_of_isMark hmark, rfl⟩ <;> rcases hmark with rfl | rfl <;> rfl
    · exact ⟨'\\', rfl, rfl, isPrintable_of_ascii (by decide) (by decide), rfl⟩
  · next hc =>
    have hslash : c ≠ '\\' := by
      rintro rfl
      simp at hc
    split
    · next heq => exact .inl ⟨'n', rfl, heq.symm, isPrintable_of_ascii (by decide) (by decide), rfl⟩
    · split
      · next heq =>
        exact .inl ⟨'r', rfl, heq.symm, isPrintable_of_ascii (by decide) (by decide), rfl⟩
      · split
        · next heq =>
          exact .inl ⟨'t', rfl, heq.symm, isPrintable_of_ascii (by decide) (by decide), rfl⟩
        · split
          · next hprintable => exact .inr (.inl ⟨hslash, hprintable, rfl⟩)
          · right
            right
            split
            · next hlt =>
              exact ⟨'x', 2, rfl, hlt, isPrintable_of_ascii (by decide) (by decide), rfl⟩
            · split
              · next hlt =>
                exact ⟨'u', 4, rfl, hlt, isPrintable_of_ascii (by decide) (by decide), rfl⟩
              · exact ⟨'U', 8, rfl, c.val.toNat_lt, isPrintable_of_ascii (by decide) (by decide),
                  rfl⟩

/-- A character is read back, whatever follows it. The end of a number needs no mark, since the
letter before it says how many digits it has (`length_hexDigits`). -/
theorem takeChar_escaped (hmark : IsMark mark) (c : Char) (rest : List Char) :
    takeChar (escaped mark c ++ rest) = some (c, rest) := by
  rcases escaped_cases hmark c with
    ⟨letter, hwidth, hmeaning, -, heq⟩ | ⟨hslash, -, heq⟩ | ⟨letter, width, hwidth, hlt, -, heq⟩
  · simp only [heq, List.cons_append, List.nil_append, takeChar, if_true, hwidth, hmeaning]
  · simp only [heq, List.cons_append, List.nil_append, takeChar, if_neg hslash]
  · have htake : (hexDigits c.toNat width ++ rest).take width = hexDigits c.toNat width :=
      List.take_left' (length_hexDigits _ _)
    have hdrop : (hexDigits c.toNat width ++ rest).drop width = rest :=
      List.drop_left' (length_hexDigits _ _)
    simp only [heq, List.cons_append, takeChar, if_true, hwidth, htake, hdrop,
      readDigits_hexDigits, Nat.mod_eq_of_lt hlt, Option.map_some, Char.ofNat_toNat]

/-- Between the same marks different texts are written differently: their first characters are read
back from what is written (`takeChar_escaped`), and then the rest. -/
theorem flatMap_escaped_injective (hmark : IsMark mark) :
    Function.Injective (List.flatMap (escaped mark)) := by
  have hne (c : Char) (rest : List Char) : escaped mark c ++ rest ≠ [] := by
    intro hnil
    have hread := takeChar_escaped hmark c rest
    rw [hnil] at hread
    cases hread
  intro text other heq
  induction text generalizing other with
  | nil =>
    cases other with
    | nil => rfl
    | cons d other => exact absurd heq.symm (hne d _)
  | cons c text ih =>
    cases other with
    | nil => exact absurd heq (hne c _)
    | cons d other =>
      rw [List.flatMap_cons, List.flatMap_cons] at heq
      have hread := congrArg takeChar heq
      rw [takeChar_escaped hmark, takeChar_escaped hmark] at hread
      obtain ⟨rfl, hrest⟩ := Prod.mk.inj (Option.some.inj hread)
      rw [ih hrest]

/-! ## Quoted texts -/

/-- A text is known from the characters of its quoted form. The first of them is the mark, so that
two equal quoted forms have the same marks around them. -/
theorem quotedChars_injective : Function.Injective quotedChars := by
  intro text other heq
  obtain ⟨hmark, hrest⟩ := List.cons.inj heq
  rw [hmark] at hrest
  exact flatMap_escaped_injective (isMark_quoteMark other) (List.append_cancel_right hrest)

/-- A text is known from its quoted form. So what is shown of a literal says which literal it was,
whatever it holds. -/
theorem quoted_injective : Function.Injective quoted := by
  intro text other heq
  exact String.toList_injective (quotedChars_injective (String.ofList_injective heq))

/-- However a character is written between quotation marks, what is written is printable: a
backslash, a letter, digits, or the character itself if it is printable. -/
theorem isPrintable_of_mem_escaped {d : Char} (hmark : IsMark mark) (h : d ∈ escaped mark c) :
    isPrintable d := by
  have hslash : isPrintable '\\' := isPrintable_of_ascii (by decide) (by decide)
  rcases escaped_cases hmark c with
    ⟨letter, -, -, hletter, heq⟩ | ⟨-, hc, heq⟩ | ⟨letter, width, -, -, hletter, heq⟩
  · rw [heq, List.mem_cons, List.mem_singleton] at h
    rcases h with rfl | rfl
    · exact hslash
    · exact hletter
  · rw [heq, List.mem_singleton] at h
    rwa [h]
  · rw [heq, List.mem_cons, List.mem_cons] at h
    rcases h with rfl | rfl | hmem
    · exact hslash
    · exact hletter
    · obtain ⟨digit, hlt, rfl⟩ := exists_digitChar_of_mem_hexDigits hmem
      have hascii : ∀ e < 16, 0x20 ≤ (Nat.digitChar e).toNat ∧ (Nat.digitChar e).toNat < 0x7f := by
        decide
      exact isPrintable_of_ascii (hascii digit hlt).1 (hascii digit hlt).2

/-- Whatever a text holds, its quoted form is printable. This holds of the marks around it and of
everything between them (`isPrintable_of_mem_escaped`). -/
theorem isPrintable_of_mem_quoted {s : String} (h : c ∈ (quoted s).toList) : isPrintable c := by
  have hmark := isMark_quoteMark s.toList
  rw [quoted, String.toList_ofList, quotedChars] at h
  simp only [List.cons_append, List.mem_cons, List.mem_append, List.mem_flatMap, List.not_mem_nil,
    or_false] at h
  rcases h with rfl | ⟨d, -, hmem⟩ | rfl
  · exact isPrintable_of_isMark hmark
  · exact isPrintable_of_mem_escaped hmark hmem
  · exact isPrintable_of_isMark hmark

end ActivityScript.Text
