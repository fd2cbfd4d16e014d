import ActivityScript.Script.Lexer

/-!
# Steps of the scanner

What one scan finds at the beginning of a line that is known: separators are passed over, a name or
a shorthand ends where no character of names follows, a quoted text ends at its second mark, and a
number sign ends the line. Each `scan_*` lemma leaves the rest of the line arbitrary. `lexLine_of_*`
turn such a scan into a step of lexing, and `tokens?_lexLines_*` put the lines together, so that no
proof has to open these functions again.
-/

namespace ActivityScript.Script

variable {file : Option String} {line column found next : Nat} {lexeme : Lexeme} {problem : Problem}
  {c : Char} {cs rest word : List Char}

/-! ## Characters -/

/-- Separators are the blank and the tab. No other white space counts, neither a carriage return nor
a blank of another script. -/
theorem isSeparator_iff : isSeparator c ↔ c = ' ' ∨ c = '\t' := by
  simp [isSeparator]

/-- A name begins with a letter of ASCII or an underscore. Digits do not occur in names at all. -/
theorem isNameStart_iff : isNameStart c ↔ c.isAlpha ∨ c = '_' := by
  simp [isNameStart]

/-- A name continues with letters of ASCII, underscores and points. So the name of a function may
have a point in it, but not at its beginning. -/
theorem isNameChar_iff : isNameChar c ↔ c.isAlpha ∨ c = '_' ∨ c = '.' := by
  simp [isNameChar, isNameStart, or_assoc]

/-- The characters that begin names are none of those that the scanner asks for before: separators,
number signs, quotation marks and colons. -/
theorem ne_of_isNameStart (h : isNameStart c) :
    isSeparator c = false ∧ c ≠ '#' ∧ c ≠ '\x22' ∧ c ≠ ':' := by
  refine ⟨?_, ?_, ?_, ?_⟩
  · rw [Bool.eq_false_iff]
    intro hs
    rcases isSeparator_iff.1 hs with rfl | rfl <;> exact absurd h (by decide)
  all_goals
    rintro rfl
    exact absurd h (by decide)

/-- A separator continues no name, so a name always ends before a blank or a tab. -/
theorem isNameChar_of_isSeparator (h : isSeparator c) : isNameChar c = false := by
  rcases isSeparator_iff.1 h with rfl | rfl <;> decide

/-! ## One scan -/

/-- Separators are passed over, and the scan goes on behind them. Only the column tells that they
were there. -/
theorem scan_append_of_isSeparator (h : ∀ c ∈ cs, isSeparator c) :
    scan column (cs ++ rest) = scan (column + cs.length) rest := by
  induction cs generalizing column with
  | nil => rfl
  | cons c cs ih =>
    rw [List.cons_append, scan, if_pos (h c List.mem_cons_self),
      ih fun d hd => h d (List.mem_cons_of_mem _ hd), List.length_cons]
    congr 1
    omega

/-- Characters of names are taken as long as they last: exactly a word, if what follows does not
continue it. -/
theorem takeWhile_isNameChar (h : ∀ c ∈ word, isNameChar c)
    (hrest : ∀ c ∈ rest.head?, isNameChar c = false) :
    (word ++ rest).takeWhile isNameChar = word ∧ (word ++ rest).dropWhile isNameChar = rest := by
  rw [List.takeWhile_append_of_pos h, List.dropWhile_append_of_pos h]
  cases rest with
  | nil => simp
  | cons d rest => simp [hrest d rfl]

/-- A name is found up to the first character that does not continue it. It stands for itself, and
the next scan starts right behind it. -/
theorem scan_name (hc : isNameStart c) (hword : ∀ d ∈ word, isNameChar d)
    (hrest : ∀ d ∈ rest.head?, isNameChar d = false) :
    scan column (c :: word ++ rest)
      = .lexeme column (.identifier (String.ofList (c :: word))) (column + (c :: word).length)
          rest := by
  obtain ⟨hsep, hcomment, hmark, hcolon⟩ := ne_of_isNameStart hc
  obtain ⟨htake, hdrop⟩ := takeWhile_isNameChar hword hrest
  rw [List.cons_append, scan, if_neg (by simp [hsep]), if_neg hcomment, if_neg hmark, if_neg hcolon,
    if_pos hc, htake, hdrop, List.length_cons,
    show column + (word.length + 1) = column + 1 + word.length by omega]

/-- A shorthand is found up to the first character that does not continue it. Its text is what
stands after the colon, and may be empty. -/
theorem scan_shorthand (hword : ∀ d ∈ word, isNameChar d)
    (hrest : ∀ d ∈ rest.head?, isNameChar d = false) :
    scan column (':' :: word ++ rest)
      = .lexeme column (.literal (String.ofList word)) (column + (':' :: word).length) rest := by
  obtain ⟨htake, hdrop⟩ := takeWhile_isNameChar hword hrest
  rw [List.cons_append, scan, if_neg (by decide), if_neg (by decide), if_neg (by decide),
    if_pos rfl, htake, hdrop, List.length_cons,
    show column + (word.length + 1) = column + 1 + word.length by omega]

/-- A text without mark is split off at the first mark after it. What follows the mark may have
marks again. -/
theorem splitAtMark_append (h : '\x22' ∉ word) :
    splitAtMark (word ++ '\x22' :: rest) = some (word, rest) := by
  induction word with
  | nil => rfl
  | cons d word ih =>
    have hd : d ≠ '\x22' := fun heq => h (heq ▸ List.mem_cons_self)
    rw [List.cons_append, splitAtMark, if_neg hd, ih fun hmem => h (List.mem_cons_of_mem _ hmem)]
    rfl

/-- A text cannot be split at a mark exactly if it has none. This is when a quoted text is not
closed on its line. -/
theorem splitAtMark_eq_none_iff : splitAtMark cs = none ↔ '\x22' ∉ cs := by
  induction cs with
  | nil => simp [splitAtMark]
  | cons c cs ih =>
    rw [splitAtMark]
    split
    · next hc => simp [hc]
    · next hc => simp [ih, Ne.symm hc]

/-- A text that was split at a mark has no mark before it, and it is put together again from the two
parts with the mark between them. -/
theorem eq_of_splitAtMark (h : splitAtMark cs = some (word, rest)) :
    cs = word ++ '\x22' :: rest ∧ '\x22' ∉ word := by
  induction cs generalizing word with
  | nil => cases h
  | cons c cs ih =>
    rw [splitAtMark] at h
    split at h
    · next hc => cases h; simp [hc]
    · next hc =>
      obtain ⟨⟨front, back⟩, hfront, heq⟩ := Option.map_eq_some_iff.1 h
      obtain ⟨rfl, rfl⟩ := Prod.mk.inj heq
      obtain ⟨rfl, hmark⟩ := ih hfront
      simp [hmark, Ne.symm hc]

/-- A quoted text is found verbatim: there are no escapes, and neither number signs nor blanks mean
anything in it. The next scan starts behind the second mark. -/
theorem scan_quoted (h : '\x22' ∉ word) :
    scan column ('\x22' :: word ++ '\x22' :: rest)
      = .lexeme column (.literal (String.ofList word)) (column + (word.length + 2)) rest := by
  rw [List.cons_append, scan, if_neg (by decide), if_neg (by decide), if_pos rfl,
    splitAtMark_append h]
  rfl

/-- An equals sign is found, also without blanks around it. It is a lexeme of its own. -/
theorem scan_equals : scan column ('=' :: rest) = .lexeme column .equals (column + 1) rest := by
  rw [scan, if_neg (by decide), if_neg (by decide), if_neg (by decide), if_neg (by decide),
    if_neg (by decide), if_pos rfl]

/-- A comment reaches to the end of the line, whatever is in it. The end of the line is told behind
its last character. -/
theorem scan_comment : scan column ('#' :: rest) = .lineEnd (column + ('#' :: rest).length) := by
  rw [scan, if_neg (by decide), if_pos rfl, List.length_cons]
  congr 1
  omega

/-! ## Steps of lexing -/

/-- A line whose scan finds a lexeme has it as its first token, where it was found, and then the
tokens of what is left. -/
theorem lexLine_of_lexeme (h : scan column cs = .lexeme found lexeme next rest) :
    lexLine file line column cs
      = (⟨lexeme, ⟨line, found, file⟩⟩ :: (lexLine file line next rest).1,
          (lexLine file line next rest).2) := by
  rw [lexLine]
  split
  · next heq => rw [h] at heq; cases heq; rfl
  · next heq => rw [h] at heq; cases heq
  · next heq => rw [h] at heq; cases heq

/-- A line whose scan finds the end has one token for the end, and no fault. -/
theorem lexLine_of_lineEnd (h : scan column cs = .lineEnd found) :
    lexLine file line column cs = ([⟨.endOfLine, ⟨line, found, file⟩⟩], none) := by
  rw [lexLine]
  split
  · next heq => rw [h] at heq; cases heq
  · next heq => rw [h] at heq; cases heq; rfl
  · next heq => rw [h] at heq; cases heq

/-- A line whose scan finds a fault has no further tokens, and the fault is told at the place where
it was found. -/
theorem lexLine_of_fault (h : scan column cs = .fault found problem) :
    lexLine file line column cs = ([], some ⟨problem, ⟨line, found, file⟩⟩) := by
  rw [lexLine]
  split
  · next heq => rw [h] at heq; cases heq
  · next heq => rw [h] at heq; cases heq
  · next heq => rw [h] at heq; cases heq; rfl

/-- Lexing a line depends on what the scan finds, not on what it passes over. So separators in front
of a lexeme can be left out of account. -/
theorem lexLine_congr {column' : Nat} {cs' : List Char} (h : scan column cs = scan column' cs') :
    lexLine file line column cs = lexLine file line column' cs' := by
  cases hscan : scan column' cs' with
  | lexeme => rw [lexLine_of_lexeme (h.trans hscan), lexLine_of_lexeme hscan]
  | lineEnd => rw [lexLine_of_lineEnd (h.trans hscan), lexLine_of_lineEnd hscan]
  | fault => rw [lexLine_of_fault (h.trans hscan), lexLine_of_fault hscan]

/-- Without lines there is one token, the end of the input, at the beginning of the line that would
come next. -/
theorem tokens?_lexLines_nil :
    (lexLines file line []).tokens? = .ok [⟨.endOfInput, ⟨line, 0, file⟩⟩] := rfl

/-- A line without fault is followed by the next one: its tokens come first, and all others if there
is no fault in the lines after it. -/
theorem tokens?_lexLines_cons {lines : List Line} {tokens : List Token}
    (h : lexLine file line 0 cs = (tokens, none)) :
    (lexLines file line (.ok cs :: lines)).tokens?
      = (lexLines file (line + 1) lines).tokens?.map (tokens ++ ·) := by
  rw [lexLines, h]
  unfold Lexing.tokens?
  cases (lexLines file (line + 1) lines).fault? <;> rfl

end ActivityScript.Script
