import ActivityScript.Proofs.Script.Lexemes
import ActivityScript.Proofs.Script.Readings
import ActivityScript.Proofs.Text.Lines

/-!
# The tokens of a text

What the lexer makes of a whole text, said without the lexer. `Lexed` tells the tokens of lines that
are all in order, and the tokens and the fault of lines the first of which that is not in order
offends somewhere. `tokenize_text_iff_lexed` says that this is what comes out of lexing, at once or
token by token, and that the tokens stand one behind the other.
-/

namespace ActivityScript.Script

variable {file : Option String} {first k : Nat} {lines : List (List Char)}
  {founds : List (List (Nat × Lexeme))} {tokens : List Token} {fault? : Option Diagnostic}

/-! ## Lines in order -/

/-- The tokens of lines in order, the first of which has number `first`. -/
def placedLines (file : Option String) (first : Nat) (lines : List (List Char))
    (founds : List (List (Nat × Lexeme))) : List Token :=
  ((lines.zip founds).zipIdx first).flatMap fun ((line, found), k) => placedLine file k line found

/-- The tokens of lines are those of the first line and then those of the others, whose numbers are
counted on. -/
theorem placedLines_cons (file : Option String) (first : Nat) (line : List Char)
    (lines : List (List Char)) (found : List (Nat × Lexeme))
    (founds : List (List (Nat × Lexeme))) :
    placedLines file first (line :: lines) (found :: founds)
      = placedLine file first line found ++ placedLines file (first + 1) lines founds := by
  simp [placedLines]

/-- The lexer goes through lines in order and then through the others. What it makes of the others
is left open, but it begins with the line behind those in order. -/
theorem lexLines_append_of_inOrder (h : List.Forall₂ InOrder lines founds)
    (file : Option String) (first : Nat) (more : List Line) :
    lexLines file first (lines.map .ok ++ more) =
      { lexLines file (first + lines.length) more with
        tokens := placedLines file first lines founds
          ++ (lexLines file (first + lines.length) more).tokens } := by
  induction h generalizing first with
  | nil => rfl
  | @cons line found lines founds hline _ ih =>
    have hcount : first + 1 + lines.length = first + (lines.length + 1) := by omega
    rw [List.map_cons, List.cons_append, lexLines, hline.lexLine]
    simp only [ih, placedLines_cons, List.append_assoc, List.length_cons, hcount]

/-- Lines are in order all together exactly if each of them is, since a line is in order or not
whatever stands around it. -/
theorem exists_forall₂_inOrder_iff :
    (∃ founds, List.Forall₂ InOrder lines founds) ↔
      ∀ line ∈ lines, ∃ found, InOrder line found := by
  constructor
  · rintro ⟨founds, hlines⟩ line hmem
    induction hlines with
    | nil => cases hmem
    | cons hline _ ih =>
      rcases List.mem_cons.1 hmem with rfl | hmem
      · exact ⟨_, hline⟩
      · exact ih hmem
  · intro h
    induction lines with
    | nil => exact ⟨[], .nil⟩
    | cons line lines ih =>
      obtain ⟨found, hline⟩ := h line List.mem_cons_self
      obtain ⟨founds, hlines⟩ := ih fun other hmem => h other (List.mem_cons_of_mem _ hmem)
      exact ⟨found :: founds, .cons hline hlines⟩

/-- Lines are all in order, or one of them offends and those before it are in order. This is
`inOrder_or_offends` for one line after the other. -/
theorem forall₂_inOrder_or_offends (lines : List (List Char)) :
    (∃ founds, List.Forall₂ InOrder lines founds) ∨
      ∃ k line founds found column problem, lines[k]? = some line ∧
        List.Forall₂ InOrder (lines.take k) founds ∧ Offends line found column problem := by
  induction lines with
  | nil => exact .inl ⟨[], .nil⟩
  | cons line lines ih =>
    rcases inOrder_or_offends line with ⟨found, hline⟩ | ⟨found, column, problem, hline⟩
    · rcases ih with
        ⟨founds, hlines⟩ | ⟨k, other, founds, others, column, problem, hk, hlines, hother⟩
      · exact .inl ⟨found :: founds, .cons hline hlines⟩
      · exact .inr ⟨k + 1, other, found :: founds, others, column, problem, hk,
          .cons hline hlines, hother⟩
    · exact .inr ⟨0, line, [], found, column, problem, rfl, .nil, hline⟩

/-! ## Whole texts -/

/-- What lines are lexed to. -/
inductive Lexed (file : Option String) (lines : List (List Char)) :
    List Token → Option Diagnostic → Prop where
  /-- All lines are in order, and an end of input stands behind them. -/
  | complete {founds : List (List (Nat × Lexeme))} : List.Forall₂ InOrder lines founds →
      Lexed file lines
        (placedLines file 0 lines founds ++ [⟨.endOfInput, ⟨lines.length, 0, file⟩⟩]) none
  /-- The lines before number `k` are in order, and that one offends at a column. -/
  | offending {k column : Nat} {line : List Char} {founds : List (List (Nat × Lexeme))}
      {found : List (Nat × Lexeme)} {problem : Problem} : lines[k]? = some line →
      List.Forall₂ InOrder (lines.take k) founds → Offends line found column problem →
      Lexed file lines (placedLines file 0 (lines.take k) founds ++ placed file k found)
        (some ⟨problem, ⟨k, column, file⟩⟩)

/-- All lines are lexed to something, so that `Lexed` leaves no text out. -/
theorem exists_lexed (file : Option String) (lines : List (List Char)) :
    ∃ tokens fault?, Lexed file lines tokens fault? := by
  rcases forall₂_inOrder_or_offends lines with
    ⟨founds, hlines⟩ | ⟨k, line, founds, found, column, problem, hk, hlines, hline⟩
  · exact ⟨_, _, .complete hlines⟩
  · exact ⟨_, _, .offending hk hlines hline⟩

/-- A list with an element at `k` is what stands before it, the element, and what stands behind.
There are `k` elements before it. -/
theorem eq_append_of_getElem? {line : List Char} (h : lines[k]? = some line) :
    lines = lines.take k ++ line :: lines.drop (k + 1) ∧ (lines.take k).length = k := by
  obtain ⟨hlt, rfl⟩ := List.getElem?_eq_some_iff.1 h
  refine ⟨?_, by rw [List.length_take]; omega⟩
  rw [List.getElem_cons_drop hlt, List.take_append_drop]

/-- The lexer finds the tokens and the fault. Behind the line that offends it does not look at
anything. -/
theorem Lexed.lexLines (h : Lexed file lines tokens fault?) :
    (lexLines file 0 (lines.map .ok)).tokens = tokens ∧
      (lexLines file 0 (lines.map .ok)).fault? = fault?.map .script := by
  cases h with
  | complete hlines =>
    have hlex := lexLines_append_of_inOrder hlines file 0 []
    rw [List.append_nil] at hlex
    rw [hlex, Nat.zero_add]
    exact ⟨rfl, rfl⟩
  | @offending k column line founds found problem hk hlines hline =>
    obtain ⟨hsplit, hlength⟩ := eq_append_of_getElem? hk
    have hlex := lexLines_append_of_inOrder hlines file 0 ((line :: lines.drop (k + 1)).map .ok)
    rw [← List.map_append, ← hsplit, hlength, Nat.zero_add, List.map_cons, Script.lexLines,
      hline.lexLine] at hlex
    rw [hlex]
    exact ⟨rfl, rfl⟩

/-! ## Positions -/

/-- A place stands before another one. -/
def Location.Before (a b : Location) : Prop :=
  a.line < b.line ∨ a.line = b.line ∧ a.column < b.column

/-- The places of a line at given columns. -/
def placesOn (file : Option String) (k : Nat) (columns : List Nat) : List Location :=
  columns.map fun column => ⟨k, column, file⟩

theorem map_location_placed (file : Option String) (k : Nat) (found : List (Nat × Lexeme)) :
    (placed file k found).map Token.location = placesOn file k (found.map Prod.fst) := by
  simp [placed, placesOn]

/-- The tokens of a line in order stand where their lexemes begin, and its end behind the last
character. -/
theorem map_location_placedLine (file : Option String) (k : Nat) (line : List Char)
    (found : List (Nat × Lexeme)) :
    (placedLine file k line found).map Token.location
      = placesOn file k (found.map Prod.fst ++ [line.length]) := by
  simp [placedLine, placed, placesOn]

theorem pairwise_placesOn {columns : List Nat} (h : columns.Pairwise (· < ·)) :
    (placesOn file k columns).Pairwise Location.Before :=
  h.map _ fun _ _ hlt => .inr ⟨rfl, hlt⟩

/-- The lexemes that are taken from a line stand before anything behind what was taken, and one
behind the other (`TakenApart.columns`). -/
theorem TakenApart.pairwise_append {column next last : Nat} {cs rest : List Char}
    {found : List (Nat × Lexeme)} (h : TakenApart column cs found next rest) (hlast : next ≤ last) :
    (found.map Prod.fst ++ [last]).Pairwise (· < ·) := by
  obtain ⟨hpairwise, hbounds⟩ := h.columns
  refine List.pairwise_append.2 ⟨hpairwise, List.pairwise_singleton _ _, ?_⟩
  intro start hstart other hother
  obtain rfl := List.mem_singleton.1 hother
  have hbound := hbounds start hstart
  omega

/-- The tokens of a line in order stand one behind the other, and the end of the line stands behind
all of them, also after a comment. -/
theorem InOrder.pairwise {line : List Char} {found : List (Nat × Lexeme)} (h : InOrder line found) :
    (found.map Prod.fst ++ [line.length]).Pairwise (· < ·) := by
  obtain ⟨next, rest, hapart, -⟩ := h
  obtain ⟨taken, rfl, rfl⟩ := hapart.exists_eq_append
  exact hapart.pairwise_append (by rw [List.length_append]; omega)

/-- The lexemes of a line that offends stand one behind the other, and all of them before the place
where it offends. -/
theorem Offends.pairwise {line : List Char} {found : List (Nat × Lexeme)} {column : Nat}
    {problem : Problem} (h : Offends line found column problem) :
    (found.map Prod.fst ++ [column]).Pairwise (· < ·) := by
  obtain ⟨c, rest, hapart, -⟩ := h
  exact hapart.pairwise_append (Nat.le_refl _)

/-- The tokens of lines in order stand one behind the other, on these lines, and so do further
places on the line behind them. The places further on are those of an end of input or of a line that
offends. -/
theorem pairwise_placedLines (h : List.Forall₂ InOrder lines founds) {columns : List Nat}
    (hcolumns : columns.Pairwise (· < ·)) (file : Option String) (first : Nat) :
    ((placedLines file first lines founds).map Token.location
        ++ placesOn file (first + lines.length) columns).Pairwise Location.Before ∧
      ∀ location ∈ (placedLines file first lines founds).map Token.location
        ++ placesOn file (first + lines.length) columns, first ≤ location.line := by
  induction h generalizing first with
  | nil =>
    refine ⟨pairwise_placesOn hcolumns, fun location hmem => ?_⟩
    obtain ⟨column, -, rfl⟩ := List.mem_map.1 hmem
    exact Nat.le_refl _
  | @cons line found lines founds hline _ ih =>
    obtain ⟨hpairwise, hlines⟩ := ih (first + 1)
    have hcount : first + 1 + lines.length = first + (lines.length + 1) := by omega
    rw [placedLines_cons, List.map_append, map_location_placedLine, List.append_assoc,
      List.length_cons, ← hcount]
    have hon : ∀ location ∈ placesOn file first (found.map Prod.fst ++ [line.length]),
        location.line = first := by
      intro location hmem
      obtain ⟨column, -, rfl⟩ := List.mem_map.1 hmem
      rfl
    constructor
    · refine List.pairwise_append.2 ⟨pairwise_placesOn hline.pairwise, hpairwise, ?_⟩
      intro location hmem other hother
      have hbehind := hlines other hother
      have hline := hon location hmem
      exact .inl (by omega)
    · intro location hmem
      rcases List.mem_append.1 hmem with hmem | hmem
      · exact Nat.le_of_eq (hon location hmem).symm
      · have hbehind := hlines location hmem
        omega

/-- What is lexed stands one behind the other, and the fault behind all tokens. So the fault is the
last thing that was looked at. -/
theorem Lexed.pairwise (h : Lexed file lines tokens fault?) :
    (tokens.map Token.location ++ fault?.toList.map Diagnostic.location).Pairwise
      Location.Before := by
  cases h with
  | complete hlines =>
    have hend : [0].Pairwise (· < ·) := List.pairwise_singleton _ _
    have hpairwise := (pairwise_placedLines hlines hend file 0).1
    simpa [placesOn] using hpairwise
  | @offending k column line founds found problem hk hlines hline =>
    obtain ⟨-, hlength⟩ := eq_append_of_getElem? hk
    have hpairwise := (pairwise_placedLines hlines hline.pairwise file 0).1
    rw [hlength, Nat.zero_add, placesOn, List.map_append, ← placesOn, ← map_location_placed]
      at hpairwise
    simpa using hpairwise

/-! ## Lexing at once and token by token -/

variable {s : String}

/-- Lexing a text at once gives the tokens if there is no fault, and otherwise only the fault. -/
theorem Lexed.tokenize (h : Lexed file (Text.physicalLines s.toList) tokens fault?) :
    tokenize (.text s) file =
      match fault? with
      | none => .ok tokens
      | some diagnostic => .error (.script diagnostic) := by
  obtain ⟨htokens, hfault⟩ := h.lexLines
  rw [Script.tokenize, Source.lexing, Source.lines, Lexing.tokens?, htokens, hfault]
  cases fault? <;> rfl

/-- Lexing a text token by token gives the tokens, then the fault if there is one, and then nothing.
The tokens before a fault are given here, too. -/
theorem Lexed.nthAdvance (h : Lexed file (Text.physicalLines s.toList) tokens fault?) (n : Nat) :
    (Reader.ofSource (.text s) file).nthAdvance .fresh n
      = (tokens.map .ok ++
            fault?.toList.map fun diagnostic => .error (.script diagnostic))[n]? := by
  obtain ⟨htokens, hfault⟩ := h.lexLines
  rw [Reader.nthAdvance_fresh, Source.lexing, Source.lines, Lexing.results, htokens, hfault]
  cases fault? <;> rfl

/-- **What a text is lexed to.** A text has lines that stand between its line feeds, with a carriage
return at the end of a line left out, and it has no others. It can be lexed if and only if each of
its lines consists of blanks and lexemes, read by longest match, and perhaps a comment. Its tokens
are then the lexemes of each line and its end of line, line by line, and an end of input. Otherwise
the fault is at the first place where nothing can be read, and its code tells the character there.
The places of the tokens and of the fault increase. Reading token by token gives the tokens before
the fault, then the fault, and then nothing. -/
theorem tokenize_text_iff_lexed (s : String) (file : Option String) :
    ∃ lines, (∀ other, Text.HasLines s.toList other ↔ other = lines) ∧
    ((∃ tokens, tokenize (.text s) file = .ok tokens) ↔
      ∀ line ∈ lines, ∃ found, InOrder line found) ∧
    (∀ tokens, tokenize (.text s) file = .ok tokens ↔ Lexed file lines tokens none) ∧
    (∀ fault, tokenize (.text s) file = .error fault ↔
      ∃ tokens diagnostic, fault = .script diagnostic ∧
        Lexed file lines tokens (some diagnostic)) ∧
    (∀ line found column problem, Offends line found column problem →
      ∃ c rest, line.drop column = c :: rest ∧
        problem.code = if c = '\x22' ∧ '\x22' ∉ rest then "E002" else "E001") ∧
    ∀ tokens fault?, Lexed file lines tokens fault? →
      (tokens.map Token.location ++ fault?.toList.map Diagnostic.location).Pairwise
        Location.Before ∧
      ∀ n, (Reader.ofSource (.text s) file).nthAdvance .fresh n
        = (tokens.map .ok ++
            fault?.toList.map fun diagnostic => .error (.script diagnostic))[n]? := by
  refine ⟨Text.physicalLines s.toList, fun other => Text.hasLines_iff, ?_⟩
  obtain ⟨found, fault?, hlexed⟩ := exists_lexed file (Text.physicalLines s.toList)
  have hok (tokens : List Token) : tokenize (.text s) file = .ok tokens ↔
      Lexed file (Text.physicalLines s.toList) tokens none := by
    constructor
    · intro h
      rw [hlexed.tokenize] at h
      cases fault? with
      | none => cases h; exact hlexed
      | some diagnostic => cases h
    · exact fun h => h.tokenize
  refine ⟨?_, hok, fun fault => ⟨fun h => ?_, ?_⟩, fun line found column problem h => h.code,
    fun tokens fault? h => ⟨h.pairwise, h.nthAdvance⟩⟩
  · simp only [hok, ← exists_forall₂_inOrder_iff]
    constructor
    · rintro ⟨tokens, h⟩
      cases h with
      | complete hlines => exact ⟨_, hlines⟩
    · rintro ⟨founds, hlines⟩
      exact ⟨_, .complete hlines⟩
  · rw [hlexed.tokenize] at h
    cases fault? with
    | none => cases h
    | some diagnostic => cases h; exact ⟨found, diagnostic, rfl, hlexed⟩
  · rintro ⟨tokens, diagnostic, rfl, h⟩
    exact h.tokenize

end ActivityScript.Script
