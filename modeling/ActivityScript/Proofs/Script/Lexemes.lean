import ActivityScript.Proofs.Script.LineByLine

/-!
# The lexemes of a line

What the lexer finds in a line, said without the lexer. `Spells` tells how lexemes are spelled. A
line is taken apart from left to right into blanks and lexemes, each of which is the longest
beginning of the rest that spells one (`TakenApart`). That ends at the end of the line or at a
number sign, and then the line is in order (`InOrder`), or at a place where nothing can be taken
(`Offends`). `inOrder_or_offends` says that there is no third case.

The scanner finds longest lexemes (`Longest.scan`). So the tokens of a line are the lexemes of its
parts, where they begin: `InOrder.lexLine` for lines in order and `Offends.lexLine` for others.
-/

namespace ActivityScript.Script

variable {c : Char} {cs text rest line : List Char} {lexeme : Lexeme} {column next : Nat}
  {found : List (Nat × Lexeme)} {problem : Problem}

/-! ## Spelling -/

/-- How lexemes are spelled: a name by itself, a text after a colon if it consists of the characters
of names, and a text without quotation marks between two of them. -/
inductive Spells : List Char → Lexeme → Prop where
  | name {c : Char} {word : List Char} : c.isAlpha ∨ c = '_' →
      (∀ d ∈ word, d.isAlpha ∨ d = '_' ∨ d = '.') →
      Spells (c :: word) (.identifier (String.ofList (c :: word)))
  | equals : Spells ['='] .equals
  | shorthand {word : List Char} : (∀ d ∈ word, d.isAlpha ∨ d = '_' ∨ d = '.') →
      Spells (':' :: word) (.literal (String.ofList word))
  | quoted {word : List Char} : '\x22' ∉ word →
      Spells ('\x22' :: word ++ ['\x22']) (.literal (String.ofList word))

/-- `text` is the longest beginning of `text ++ rest` that spells a lexeme. -/
structure Longest (text : List Char) (lexeme : Lexeme) (rest : List Char) : Prop where
  spells : Spells text lexeme
  longest : ∀ text' lexeme', Spells text' lexeme' → text' <+: text ++ rest →
    text'.length ≤ text.length

/-- A lexeme is spelled with at least one character. So every lexeme that is taken from a line makes
the rest shorter. -/
theorem Spells.ne_nil (h : Spells text lexeme) : text ≠ [] := by
  cases h <;> simp

/-- A spelling has one meaning. The first character tells how the lexeme is spelled, and the rest
then tells which one it is. -/
theorem Spells.unique {lexeme' : Lexeme} (h : Spells text lexeme) (h' : Spells text lexeme') :
    lexeme = lexeme' := by
  cases h with
  | name hc =>
    cases h' with
    | name => rfl
    | equals | shorthand | quoted => simp at hc
  | equals =>
    generalize htext : ['='] = text at h'
    cases h' with
    | name hc => cases htext; simp at hc
    | equals => rfl
    | shorthand | quoted => cases htext
  | shorthand =>
    cases h' with
    | name hc => simp at hc
    | shorthand => rfl
  | @quoted word =>
    generalize htext : '\x22' :: word ++ ['\x22'] = text at h'
    cases h' with
    | name hc => cases htext; simp at hc
    | equals | shorthand => cases htext
    | quoted =>
      obtain ⟨-, heq⟩ := List.cons_eq_cons.1 htext
      rw [List.append_cancel_right heq]

/-! ## One step of the scanner -/

/-- The problem with a character that begins nothing: a quotation mark without another one after it
is told apart from the others. -/
def offence (c : Char) (cs : List Char) : Problem :=
  if c = '\x22' ∧ '\x22' ∉ cs then .unterminatedLiteral else .invalidCharacter

/-- Every text begins with a run of the characters of names that cannot be made longer. The run may
be empty. -/
theorem exists_word (cs : List Char) :
    ∃ word rest, cs = word ++ rest ∧ (∀ d ∈ word, isNameChar d) ∧
      ∀ d ∈ rest.head?, isNameChar d = false := by
  refine ⟨cs.takeWhile isNameChar, cs.dropWhile isNameChar,
    List.takeWhile_append_dropWhile.symm, List.all_eq_true.1 List.all_takeWhile, fun d hd => ?_⟩
  have hnot := List.head?_dropWhile_not isNameChar cs
  rw [Option.mem_def.1 hd] at hnot
  simpa using hnot

/-- What a scan can do with the first character: pass over it, end the line, find a lexeme that
begins with it, or stop. What it stops for is the offence of the character. -/
theorem scan_cons_cases (column : Nat) (c : Char) (cs : List Char) :
    (isSeparator c ∧ scan column (c :: cs) = scan (column + 1) cs) ∨
    (c = '#' ∧ scan column (c :: cs) = .lineEnd (column + (c :: cs).length)) ∨
    (∃ text lexeme rest, c :: cs = text ++ rest ∧ Spells text lexeme ∧
      scan column (c :: cs) = .lexeme column lexeme (column + text.length) rest) ∨
    ¬isSeparator c ∧ c ≠ '#' ∧ scan column (c :: cs) = .fault column (offence c cs) := by
  by_cases hsep : isSeparator c
  · exact .inl ⟨hsep, by rw [scan, if_pos hsep]⟩
  right
  by_cases hcomment : c = '#'
  · subst hcomment
    exact .inl ⟨rfl, scan_comment⟩
  right
  by_cases hmark : c = '\x22'
  · subst hmark
    cases hsplit : splitAtMark cs with
    | none =>
      refine .inr ⟨hsep, hcomment, ?_⟩
      rw [scan, if_neg hsep, if_neg hcomment, if_pos rfl, hsplit, offence,
        if_pos ⟨rfl, splitAtMark_eq_none_iff.1 hsplit⟩]
    | some pair =>
      obtain ⟨word, rest⟩ := pair
      obtain ⟨rfl, hword⟩ := eq_of_splitAtMark hsplit
      refine .inl ⟨'\x22' :: word ++ ['\x22'], _, rest, by simp, .quoted hword, ?_⟩
      simpa using scan_quoted hword
  by_cases hcolon : c = ':'
  · subst hcolon
    obtain ⟨word, rest, rfl, hword, hrest⟩ := exists_word cs
    exact .inl ⟨':' :: word, _, rest, rfl, .shorthand fun d hd => isNameChar_iff.1 (hword d hd),
      scan_shorthand hword hrest⟩
  by_cases hname : isNameStart c
  · obtain ⟨word, rest, rfl, hword, hrest⟩ := exists_word cs
    exact .inl ⟨c :: word, _, rest, rfl,
      .name (isNameStart_iff.1 hname) fun d hd => isNameChar_iff.1 (hword d hd),
      scan_name hname hword hrest⟩
  by_cases hequals : c = '='
  · subst hequals
    exact .inl ⟨['='], .equals, cs, rfl, .equals, scan_equals⟩
  · refine .inr ⟨hsep, hcomment, ?_⟩
    rw [scan, if_neg hsep, if_neg hcomment, if_neg hmark, if_neg hcolon, if_neg hname,
      if_neg hequals, offence, if_neg fun h => hmark h.1]

/-- Where a lexeme is spelled, the scanner finds one that is no shorter. It may be another one, if
what follows continues a name. -/
theorem Spells.exists_scan (h : Spells text lexeme) (column : Nat) (rest : List Char) :
    ∃ lexeme' next rest', scan column (text ++ rest) = .lexeme column lexeme' next rest' ∧
      column + text.length ≤ next := by
  have hword {word : List Char} (hword : ∀ d ∈ word, d.isAlpha ∨ d = '_' ∨ d = '.') :
      word.length ≤ ((word ++ rest).takeWhile isNameChar).length := by
    rw [List.takeWhile_append_of_pos fun d hd => isNameChar_iff.2 (hword d hd)]
    simp
  cases h with
  | name hc hchars =>
    have hstart := isNameStart_iff.2 hc
    obtain ⟨hsep, hcomment, hmark, hcolon⟩ := ne_of_isNameStart hstart
    have hlength := hword hchars
    refine ⟨_, _, _, by rw [List.cons_append, scan, if_neg (by simp [hsep]), if_neg hcomment,
      if_neg hmark, if_neg hcolon, if_pos hstart], ?_⟩
    simp only [List.length_cons]
    omega
  | equals => exact ⟨_, _, _, scan_equals, Nat.le_refl _⟩
  | shorthand hchars =>
    have hlength := hword hchars
    refine ⟨_, _, _, by rw [List.cons_append, scan, if_neg (by decide), if_neg (by decide),
      if_neg (by decide), if_pos rfl], ?_⟩
    simp only [List.length_cons]
    omega
  | @quoted word hmark =>
    refine ⟨.literal (String.ofList word), column + (word.length + 2), rest, ?_, by simp⟩
    simpa using scan_quoted hmark

/-- What the scanner finds at the first character is the longest lexeme there: any other one that is
spelled there would be found no shorter (`Spells.exists_scan`). -/
theorem Longest.of_scan (hspells : Spells text lexeme)
    (h : scan column (text ++ rest) = .lexeme column lexeme (column + text.length) rest) :
    Longest text lexeme rest := by
  refine ⟨hspells, fun text' lexeme' hspells' hprefix => ?_⟩
  obtain ⟨rest', heq⟩ := hprefix
  obtain ⟨found, next, after, hscan, hlength⟩ := hspells'.exists_scan column rest'
  rw [heq, h] at hscan
  cases hscan
  omega

/-- The longest lexeme is found by the scanner, at the first character and up to its end. The
scanner finds some lexeme there, and it can be neither longer nor shorter. -/
theorem Longest.scan (h : Longest text lexeme rest) (column : Nat) :
    scan column (text ++ rest) = .lexeme column lexeme (column + text.length) rest := by
  obtain ⟨lexeme', next, rest', hscan, hnext⟩ := h.spells.exists_scan column rest
  obtain ⟨c, cs, htext⟩ := List.exists_cons_of_ne_nil
    (List.append_ne_nil_of_left_ne_nil h.spells.ne_nil rest)
  rw [htext] at hscan ⊢
  rcases scan_cons_cases column c cs with
    ⟨hsep, heq⟩ | ⟨-, heq⟩ | ⟨text', lexeme'', rest'', htext', hspells', heq⟩ | ⟨-, -, heq⟩
  · -- After a separator, everything is found further to the right.
    have hwithin := scan_within (column + 1) cs
    rw [← heq, hscan] at hwithin
    exact absurd hwithin.2.1 (by omega)
  · rw [heq] at hscan
    cases hscan
  · rw [heq] at hscan ⊢
    cases hscan
    have hle := h.longest text' lexeme' hspells' ⟨rest', by rw [htext, htext']⟩
    obtain ⟨rfl, rfl⟩ := List.append_inj (htext.trans htext') (by omega)
    rw [h.spells.unique hspells']
  · rw [heq] at hscan
    cases hscan

/-! ## Taking a line apart -/

/-- Blanks and longest lexemes can be taken from the left of `cs`, which begins at `column`. The
lexemes are `found`, each where it begins, and `rest`, which begins at `next`, is left. -/
inductive TakenApart : Nat → List Char → List (Nat × Lexeme) → Nat → List Char → Prop where
  | done {column : Nat} {cs : List Char} : TakenApart column cs [] column cs
  | blank {column next : Nat} {c : Char} {cs rest : List Char} {found : List (Nat × Lexeme)} :
      c = ' ' ∨ c = '\t' → TakenApart (column + 1) cs found next rest →
      TakenApart column (c :: cs) found next rest
  | lexeme {column next : Nat} {text cs rest : List Char} {lexeme : Lexeme}
      {found : List (Nat × Lexeme)} :
      Longest text lexeme cs → TakenApart (column + text.length) cs found next rest →
      TakenApart column (text ++ cs) ((column, lexeme) :: found) next rest

/-- A line of blanks and lexemes, perhaps with a comment after them. -/
def InOrder (line : List Char) (found : List (Nat × Lexeme)) : Prop :=
  ∃ next rest, TakenApart 0 line found next rest ∧ (rest = [] ∨ rest.head? = some '#')

/-- A line of which something is left, at `column`, that is neither a blank nor a comment and does
not begin with a lexeme. -/
def Offends (line : List Char) (found : List (Nat × Lexeme)) (column : Nat) (problem : Problem) :
    Prop :=
  ∃ c rest, TakenApart 0 line found column (c :: rest) ∧ (c ≠ ' ' ∧ c ≠ '\t' ∧ c ≠ '#') ∧
    (∀ text lexeme, Spells text lexeme → ¬text <+: c :: rest) ∧ problem = offence c rest

/-- What is left is the end of the line, and its column counts what was taken. So columns are places
in the line. -/
theorem TakenApart.exists_eq_append (h : TakenApart column cs found next rest) :
    ∃ taken, cs = taken ++ rest ∧ next = column + taken.length := by
  induction h with
  | done => exact ⟨[], rfl, rfl⟩
  | @blank column next c cs rest found _ _ ih =>
    obtain ⟨taken, rfl, rfl⟩ := ih
    exact ⟨c :: taken, rfl, by rw [List.length_cons]; omega⟩
  | @lexeme column next text cs rest lexeme found _ _ ih =>
    obtain ⟨taken, rfl, rfl⟩ := ih
    exact ⟨text ++ taken, by rw [List.append_assoc], by rw [List.length_append]; omega⟩

/-- Lexemes begin one after the other, before what is left. No two of them begin at the same place,
since none is empty. -/
theorem TakenApart.columns (h : TakenApart column cs found next rest) :
    (found.map Prod.fst).Pairwise (· < ·) ∧
      ∀ start ∈ found.map Prod.fst, column ≤ start ∧ start < next := by
  induction h with
  | done => simp
  | blank _ _ ih =>
    refine ⟨ih.1, fun start hmem => ?_⟩
    have hstart := ih.2 start hmem
    omega
  | lexeme hlongest hrest ih =>
    have hlength := List.length_pos_iff.2 hlongest.spells.ne_nil
    obtain ⟨taken, -, hnext⟩ := hrest.exists_eq_append
    rw [List.map_cons, List.pairwise_cons]
    refine ⟨⟨fun start hmem => ?_, ih.1⟩, fun start hmem => ?_⟩
    · have hstart := ih.2 start hmem
      omega
    · rcases List.mem_cons.1 hmem with rfl | hmem
      · omega
      · have hstart := ih.2 start hmem
        omega

/-- What cannot be taken further apart: nothing, a comment, or a character that begins nothing. The
scanner shows which it is, and the rest becomes shorter with each step. -/
theorem exists_takenApart (column : Nat) (cs : List Char) :
    ∃ found next rest, TakenApart column cs found next rest ∧
      ((rest = [] ∨ rest.head? = some '#') ∨
        ∃ c after, rest = c :: after ∧ (c ≠ ' ' ∧ c ≠ '\t' ∧ c ≠ '#') ∧
          ∀ text lexeme, Spells text lexeme → ¬text <+: c :: after) := by
  induction hn : cs.length using Nat.strongRecOn generalizing column cs with
  | _ n ih =>
    cases cs with
    | nil => exact ⟨[], column, [], .done, .inl (.inl rfl)⟩
    | cons c cs =>
      rcases scan_cons_cases column c cs with
        ⟨hsep, -⟩ | ⟨rfl, -⟩ | ⟨text, lexeme, rest, htext, hspells, hscan⟩ | ⟨hsep, hcomment, hscan⟩
      · obtain ⟨found, next, rest, hapart, hend⟩ :=
          ih cs.length (by rw [← hn, List.length_cons]; omega) (column + 1) cs rfl
        exact ⟨found, next, rest, .blank (isSeparator_iff.1 hsep) hapart, hend⟩
      · exact ⟨[], column, _, .done, .inl (.inr rfl)⟩
      · have hlength := List.length_pos_iff.2 hspells.ne_nil
        rw [htext] at hscan hn ⊢
        obtain ⟨found, next, after, hapart, hend⟩ :=
          ih rest.length (by rw [← hn, List.length_append]; omega) (column + text.length) rest rfl
        have hlongest : Longest text lexeme rest := .of_scan hspells hscan
        exact ⟨(column, lexeme) :: found, next, after, .lexeme hlongest hapart, hend⟩
      · refine ⟨[], column, _, .done, .inr ⟨c, cs, rfl, ?_, fun text lexeme hspells hbegins => ?_⟩⟩
        · rw [isSeparator_iff, not_or] at hsep
          exact ⟨hsep.1, hsep.2, hcomment⟩
        · obtain ⟨rest, heq⟩ := hbegins
          obtain ⟨_, _, _, hfound, -⟩ := hspells.exists_scan column rest
          rw [heq, hscan] at hfound
          cases hfound

/-- A line is in order, or there is a first place in it where nothing can be taken. There is no
third case (`exists_takenApart`). -/
theorem inOrder_or_offends (line : List Char) :
    (∃ found, InOrder line found) ∨ ∃ found column problem, Offends line found column problem := by
  obtain ⟨found, next, rest, hapart, hend | ⟨c, after, rfl, hc, hnone⟩⟩ := exists_takenApart 0 line
  · exact .inl ⟨found, next, rest, hapart, hend⟩
  · exact .inr ⟨found, next, _, c, after, hapart, hc, hnone, rfl⟩

/-- The code of an offence tells whether the character there is a quotation mark without another
one after it. -/
theorem Offends.code (h : Offends line found column problem) :
    ∃ c rest, line.drop column = c :: rest ∧
      problem.code = if c = '\x22' ∧ '\x22' ∉ rest then "E002" else "E001" := by
  obtain ⟨c, rest, hapart, -, -, rfl⟩ := h
  obtain ⟨taken, rfl, rfl⟩ := hapart.exists_eq_append
  refine ⟨c, rest, by rw [Nat.zero_add, List.drop_left], ?_⟩
  rw [offence]
  split <;> rfl

/-! ## The tokens of a line -/

variable {file : Option String} {k : Nat}

/-- Lexemes as tokens of line number `k`. -/
def placed (file : Option String) (k : Nat) (found : List (Nat × Lexeme)) : List Token :=
  found.map fun (column, lexeme) => ⟨lexeme, ⟨k, column, file⟩⟩

/-- The tokens of a line in order: its lexemes, and an end of line behind its last character. -/
def placedLine (file : Option String) (k : Nat) (line : List Char) (found : List (Nat × Lexeme)) :
    List Token :=
  placed file k found ++ [⟨.endOfLine, ⟨k, line.length, file⟩⟩]

/-- The lexer goes through what is taken, lexeme by lexeme, and passes over the blanks. What it
makes of the rest is left open. -/
theorem TakenApart.lexLine (h : TakenApart column cs found next rest) :
    lexLine file k column cs
      = (placed file k found ++ (Script.lexLine file k next rest).1,
          (Script.lexLine file k next rest).2) := by
  induction h with
  | done => rfl
  | blank hc _ ih =>
    rw [← ih]
    refine lexLine_congr ?_
    rw [scan, if_pos (isSeparator_iff.2 hc)]
  | lexeme hlongest _ ih =>
    rw [lexLine_of_lexeme (hlongest.scan _), ih]
    rfl

/-- The lexer finds the tokens of a line in order: its lexemes where they begin, and the end of the
line behind its last character, also after a comment. -/
theorem InOrder.lexLine (h : InOrder line found) :
    lexLine file k 0 line = (placedLine file k line found, none) := by
  obtain ⟨next, rest, hapart, hend⟩ := h
  obtain ⟨taken, hline, hnext⟩ := hapart.exists_eq_append
  have hlength : line.length = next + rest.length := by
    rw [hline, hnext, List.length_append, Nat.zero_add]
  have hrest : scan next rest = .lineEnd line.length := by
    cases rest with
    | nil => rw [scan, hlength, List.length_nil, Nat.add_zero]
    | cons c rest =>
      obtain rfl : c = '#' := by simpa using hend
      rw [scan_comment, hlength]
  rw [hapart.lexLine, lexLine_of_lineEnd hrest, placedLine]

/-- The tokens of another line are the lexemes before the place where it offends, and its fault is
there. Nothing behind this place is looked at. -/
theorem Offends.lexLine (h : Offends line found column problem) :
    lexLine file k 0 line = (placed file k found, some ⟨problem, ⟨k, column, file⟩⟩) := by
  obtain ⟨c, rest, hapart, ⟨hspace, htab, hcomment⟩, hnone, rfl⟩ := h
  have hscan : scan column (c :: rest) = .fault column (offence c rest) := by
    rcases scan_cons_cases column c rest with
      ⟨hsep, -⟩ | ⟨heq, -⟩ | ⟨text, lexeme, after, heq, hspells, -⟩ | ⟨-, -, hscan⟩
    · rcases isSeparator_iff.1 hsep with heq | heq
      · exact absurd heq hspace
      · exact absurd heq htab
    · exact absurd heq hcomment
    · exact absurd ⟨after, heq.symm⟩ (hnone text lexeme hspells)
    · exact hscan
  rw [hapart.lexLine, lexLine_of_fault hscan, List.append_nil]

end ActivityScript.Script
