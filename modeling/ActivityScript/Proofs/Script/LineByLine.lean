import ActivityScript.Proofs.Script.Grammar
import ActivityScript.Proofs.Script.Scanning

/-!
# Line by line

Neither the lexer nor the parser looks past the end of a line. The tokens of a script are those of
its lines, each of them closed by one end of line, and then an end of input (`tokens?_lexLines_eq`).
A statement is parsed without regard to what follows its line (`SettledBy.parseStatement`). So a
script fails in one of its lines whatever comes after it, or it is parsed to statements that stand
in front of whatever comes after it (`parseStatements_flatten`).
-/

namespace ActivityScript.Script

/-! ## Lexing -/

section Lexing

variable {file : Option String} {line column : Nat} {cs rest : List Char}
  {tokens : List Token} {lines : List Line} {tokenized : List (List Token)}

/-- Tokens of one line: one end of line, at the end. -/
def ClosedLine (tokens : List Token) : Prop :=
  ∃ content sign, tokens = content ++ [⟨.endOfLine, sign⟩] ∧ ∀ token ∈ content, token.isEnd = false

/-- The tokens of line number `line`. -/
def lineTokens (file : Option String) (line : Nat) : Line → Except ReadFault (List Token)
  | .error fault => .error (.encoding fault)
  | .ok cs =>
    match lexLine file line 0 cs with
    | (tokens, none) => .ok tokens
    | (_, some diagnostic) => .error (.script diagnostic)

/-- The tokens of lines, the first of which has number `line`, line by line. -/
def tokenLines (file : Option String) (line : Nat) :
    List Line → Except ReadFault (List (List Token))
  | [] => .ok []
  | first :: lines =>
    match lineTokens file line first with
    | .error fault => .error fault
    | .ok tokens => (tokenLines file (line + 1) lines).map (tokens :: ·)

/-- The tokens of a script are those of its lines and an end of input, which is on the line that
would come next. A fault is the first fault of the lines. -/
theorem tokens?_lexLines_eq (file : Option String) (line : Nat) (lines : List Line) :
    (lexLines file line lines).tokens?
      = (tokenLines file line lines).map
          (·.flatten ++ [⟨.endOfInput, ⟨line + lines.length, 0, file⟩⟩]) := by
  induction lines generalizing line with
  | nil => rfl
  | cons first lines ih =>
    cases first with
    | error fault => rfl
    | ok cs =>
      rw [tokenLines, lineTokens]
      cases hlex : lexLine file line 0 cs with
      | mk tokens fault? =>
        cases fault? with
        | some diagnostic => rw [lexLines, hlex]; rfl
        | none =>
          rw [tokens?_lexLines_cons hlex, ih]
          have hcount : line + 1 + lines.length = line + (lines.length + 1) := by omega
          cases tokenLines file (line + 1) lines with
          | error fault => rfl
          | ok rest => simp [Except.map, hcount]

/-- A text up to the first quotation mark, the mark and the rest make up the whole. So the column
after a quoted text can be told from its length. -/
theorem length_splitAtMark {text : List Char} (h : splitAtMark cs = some (text, rest)) :
    text.length + 1 + rest.length = cs.length := by
  obtain ⟨rfl, -⟩ := eq_of_splitAtMark h
  rw [List.length_append, List.length_cons]
  omega

/-- What a scan of `length` characters from `column` on can find: a lexeme that ends nothing, whose
first character is one of them and whose rest is the rest of them, or their end, or a fault at one
of them. -/
def Scan.Within (column length : Nat) : Scan → Prop
  | .lexeme found word next rest =>
    (word ≠ .endOfLine ∧ word ≠ .endOfInput) ∧
      column ≤ found ∧ found < next ∧ next + rest.length = column + length
  | .lineEnd found => found = column + length
  | .fault found _ => column ≤ found ∧ found < column + length

/-- The scanner stays within its line: what it finds begins at one of its characters, and what is
left are the characters after it. The cases follow the scanner. -/
theorem scan_within (column : Nat) (cs : List Char) :
    (scan column cs).Within column cs.length := by
  have hword (cs : List Char) :
      (cs.takeWhile isNameChar).length + (cs.dropWhile isNameChar).length = cs.length := by
    rw [← List.length_append, List.takeWhile_append_dropWhile]
  fun_induction scan column cs with
  | case1 column => rfl
  | case2 column c cs hsep ih =>
    -- The columns of what follows a separator are counted from the next one on.
    have hcount : column + 1 + cs.length = column + (cs.length + 1) := by omega
    rw [Scan.Within.eq_def, hcount] at ih
    rw [Scan.Within.eq_def, List.length_cons]
    cases hscan : scan (column + 1) cs with
    | lexeme =>
      rw [hscan] at ih
      exact ⟨ih.1, by omega, ih.2.2⟩
    | lineEnd =>
      rw [hscan] at ih
      exact ih
    | fault =>
      rw [hscan] at ih
      exact ⟨by omega, ih.2⟩
  | case3 =>
    simp only [Scan.Within, List.length_cons]
    omega
  | case4 column cs text rest hsplit =>
    have hlength := length_splitAtMark hsplit
    simp only [Scan.Within, List.length_cons]
    exact ⟨by simp, by omega⟩
  | case5 =>
    simp only [Scan.Within, List.length_cons]
    omega
  | case6 column cs word =>
    have hlength : word.length + (cs.dropWhile isNameChar).length = cs.length := hword cs
    simp only [Scan.Within, List.length_cons]
    exact ⟨by simp, by omega⟩
  | case7 column c cs _ _ _ _ _ word =>
    have hlength : word.length + (cs.dropWhile isNameChar).length = cs.length := hword cs
    simp only [Scan.Within, List.length_cons]
    exact ⟨by simp, by omega⟩
  | case8 =>
    simp only [Scan.Within, List.length_cons]
    exact ⟨by simp, by omega⟩
  | case9 =>
    simp only [Scan.Within, List.length_cons]
    omega

/-- A line that is lexed to its end is closed. The lexemes that the scanner finds end nothing
(`scan_within`), and the end of the line comes last. -/
theorem ClosedLine.of_lexLine (h : lexLine file line column cs = (tokens, none)) :
    ClosedLine tokens := by
  fun_induction lexLine file line column cs generalizing tokens with
  | case1 column cs found lexeme next rest hscan inner fault hinner ih =>
    cases h
    obtain ⟨content, sign, rfl, hcontent⟩ := ih hinner
    refine ⟨⟨lexeme, ⟨line, found, file⟩⟩ :: content, sign, rfl, fun token hmem => ?_⟩
    rcases List.mem_cons.1 hmem with rfl | hmem
    · have hwithin := scan_within column cs
      rw [hscan] at hwithin
      obtain ⟨⟨hline, hinput⟩, -⟩ := hwithin
      simp [Token.isEnd, hline, hinput]
    · exact hcontent token hmem
  | case2 column cs found hscan =>
    cases h
    exact ⟨[], _, rfl, fun token hmem => absurd hmem List.not_mem_nil⟩
  | case3 => cases h

theorem ClosedLine.of_lineTokens {first : Line} (h : lineTokens file line first = .ok tokens) :
    ClosedLine tokens := by
  unfold lineTokens at h
  split at h
  · cases h
  · split at h
    · next hlex =>
      cases h
      exact .of_lexLine hlex
    · cases h

/-- Each line of a script is closed, so that the tokens of two lines cannot be mixed up. -/
theorem ClosedLine.of_tokenLines (h : tokenLines file line lines = .ok tokenized) :
    ∀ tokens ∈ tokenized, ClosedLine tokens := by
  induction lines generalizing line tokenized with
  | nil => cases h; exact fun tokens hmem => absurd hmem List.not_mem_nil
  | cons first lines ih =>
    rw [tokenLines] at h
    split at h
    · cases h
    · next hfirst =>
      cases hrest : tokenLines file (line + 1) lines with
      | error fault => rw [hrest] at h; cases h
      | ok rest =>
        rw [hrest] at h
        cases h
        intro tokens hmem
        rcases List.mem_cons.1 hmem with rfl | hmem
        · exact .of_lineTokens hfirst
        · exact ih hrest tokens hmem

/-- Lines are lexed one after the other; the first fault counts. The lines after the first part are
numbered on from it. -/
theorem tokenLines_append (file : Option String) (line : Nat) (before after : List Line) :
    tokenLines file line (before ++ after)
      = (tokenLines file line before).bind fun first =>
          (tokenLines file (line + before.length) after).map (first ++ ·) := by
  induction before generalizing line with
  | nil =>
    cases hafter : tokenLines file line after with
    | error fault => simp [tokenLines, Except.bind, Except.map, hafter]
    | ok tokenized => simp [tokenLines, Except.bind, Except.map, hafter]
  | cons first before ih =>
    rw [List.cons_append, tokenLines, tokenLines]
    cases lineTokens file line first with
    | error fault => rfl
    | ok tokens =>
      have hcount : line + 1 + before.length = line + (before.length + 1) := by omega
      simp only [ih, hcount, List.length_cons]
      cases tokenLines file (line + 1) before with
      | error fault => rfl
      | ok rest =>
        cases tokenLines file (line + (before.length + 1)) after with
        | error fault => rfl
        | ok tokenized => rfl

end Lexing

/-! ## Parsing -/

section Parsing

variable {φ : Type} {registry : Registry φ} {last location sign : Location} {name : String}
  {token : Token} {tokens rest content : List Token} {arguments : List (Node φ)}

/-- A call is resolved when its arguments are known, unless nothing follows them. The place of the
last token does not matter then. -/
theorem parseCall_eq (h : takeArguments tokens = (arguments, rest)) (hrest : rest ≠ []) :
    parseCall registry last name location tokens
      = (registry.resolve location name arguments.length).map fun target =>
          (.call location name target arguments, rest) := by
  rw [parseCall, h]
  cases rest with
  | nil => exact absurd rfl hrest
  | cons token rest =>
    simp only
    cases registry.resolve location name arguments.length <;> rfl

/-- The value of an assignment stands after its equals sign, and the assignment fails as its value
does. -/
theorem parseStatement_equals (registry : Registry φ) (last location sign : Location)
    (name : String) (tokens : List Token) :
    parseStatement registry last ⟨.identifier name, location⟩ (⟨.equals, sign⟩ :: tokens)
      = (parseValue registry last tokens).map fun pair =>
          (.assignment location name pair.1, pair.2) := by
  simp only [parseStatement]
  cases parseValue registry last tokens <;> rfl

/-- A part of the parser settles the rest of a line, whose end is at `sign`: it fails with the same
diagnostic whatever follows the line, or it gives the same tree and the same rest of the line. -/
def SettledBy (part : Location → List Token → Except Diagnostic (Node φ × List Token))
    (content : List Token) (sign : Location) : Prop :=
  (∃ diagnostic, ∀ last more,
    part last (content ++ ⟨.endOfLine, sign⟩ :: more) = .error diagnostic) ∨
  ∃ node rest, (∀ token ∈ rest, token.isEnd = false) ∧ ∀ last more,
    part last (content ++ ⟨.endOfLine, sign⟩ :: more)
      = .ok (node, rest ++ ⟨.endOfLine, sign⟩ :: more)

/-- Arguments end with their line, because the end of the line is no argument. What is left of the
line is the same whatever follows it. -/
theorem takeArguments_line (h : ∀ token ∈ content, token.isEnd = false) (sign : Location) :
    ∃ (arguments : List (Node φ)) (rest : List Token), (∀ token ∈ rest, token.isEnd = false) ∧
      ∀ more, takeArguments (content ++ ⟨.endOfLine, sign⟩ :: more)
        = (arguments, rest ++ ⟨.endOfLine, sign⟩ :: more) := by
  induction content with
  | nil => exact ⟨[], [], h, fun more => rfl⟩
  | cons token content ih =>
    obtain ⟨arguments, rest, hrest, htake⟩ := ih fun t ht => h t (List.mem_cons_of_mem _ ht)
    obtain ⟨lexeme, location⟩ := token
    cases lexeme with
    | identifier name =>
      refine ⟨.reference location name :: arguments, rest, hrest, fun more => ?_⟩
      rw [List.cons_append, takeArguments, htake]
    | literal text =>
      refine ⟨.literal location text :: arguments, rest, hrest, fun more => ?_⟩
      rw [List.cons_append, takeArguments, htake]
    | equals | endOfLine | endOfInput => exact ⟨[], _, h, fun more => rfl⟩

/-- A call is settled by the rest of its line. Its arguments end with the line at the latest, so it
is known whether it resolves. -/
theorem SettledBy.parseCall (h : ∀ token ∈ content, token.isEnd = false) (registry : Registry φ)
    (name : String) (location sign : Location) :
    SettledBy (fun last => parseCall registry last name location) content sign := by
  obtain ⟨arguments, rest, hrest, htake⟩ := takeArguments_line (φ := φ) h sign
  cases hresolve : registry.resolve location name arguments.length with
  | error diagnostic =>
    refine .inl ⟨diagnostic, fun last more => ?_⟩
    beta_reduce
    rw [parseCall_eq (htake more) (by simp), hresolve]
    rfl
  | ok target =>
    refine .inr ⟨.call location name target arguments, rest, hrest, fun last more => ?_⟩
    beta_reduce
    rw [parseCall_eq (htake more) (by simp), hresolve]
    rfl

/-- The value of an assignment is settled by the rest of the line. If the line ends at once, there
is no value, and this is reported there. -/
theorem SettledBy.parseValue (h : ∀ token ∈ content, token.isEnd = false) (registry : Registry φ)
    (sign : Location) : SettledBy (parseValue registry) content sign := by
  match content with
  | [] => exact .inl ⟨_, fun last more => rfl⟩
  | ⟨lexeme, location⟩ :: content =>
    have hcontent : ∀ token ∈ content, token.isEnd = false :=
      fun t ht => h t (List.mem_cons_of_mem _ ht)
    cases lexeme with
    | identifier name => exact SettledBy.parseCall hcontent registry name location sign
    | literal text => exact .inr ⟨.literal location text, content, hcontent, fun last more => rfl⟩
    | equals | endOfLine | endOfInput => exact .inl ⟨_, fun last more => rfl⟩

/-- A statement is parsed without regard to what follows its line. Even an equals sign as the second
token would have to stand in the line. -/
theorem SettledBy.parseStatement (h : ∀ token ∈ content, token.isEnd = false)
    (registry : Registry φ) (token : Token) (sign : Location) :
    SettledBy (fun last => parseStatement registry last token) content sign := by
  obtain ⟨lexeme, location⟩ := token
  cases lexeme with
  | literal | equals | endOfLine | endOfInput => exact .inl ⟨_, fun last more => rfl⟩
  | identifier name =>
    match content with
    | [] => exact SettledBy.parseCall h registry name location sign
    | ⟨first, location'⟩ :: content =>
      cases first with
      | identifier | literal | endOfLine | endOfInput =>
        exact SettledBy.parseCall h registry name location sign
      | equals =>
        have hcontent : ∀ token ∈ content, token.isEnd = false :=
          fun t ht => h t (List.mem_cons_of_mem _ ht)
        rcases SettledBy.parseValue hcontent registry sign with
          ⟨diagnostic, hvalue⟩ | ⟨value, rest, hrest, hvalue⟩
        · refine .inl ⟨diagnostic, fun last more => ?_⟩
          beta_reduce
          rw [List.cons_append, parseStatement_equals, hvalue]
          rfl
        · refine .inr ⟨.assignment location name value, rest, hrest, fun last more => ?_⟩
          beta_reduce
          rw [List.cons_append, parseStatement_equals, hvalue]
          rfl

/-- One round of the parser: a statement, the end of its line, and the rest. All ways in which the
round can fail are listed. -/
theorem parseStatements_eq_bind (hend : token.isEnd = false) :
    parseStatements registry last (token :: tokens)
      = (parseStatement registry last token tokens).bind fun
        | (_, []) => .error ⟨.unexpectedEnd, last⟩
        | (node, next :: rest) =>
          if next.lexeme = .endOfLine then (parseStatements registry last rest).map (node :: ·)
          else .error ⟨.expectedEndOfLine next.lexeme, next.location⟩ := by
  rw [parseStatements]
  split
  · next hlex => simp [Token.isEnd, hlex] at hend
  · next hlex => simp [Token.isEnd, hlex] at hend
  · split
    · next hstatement => rw [hstatement]; rfl
    · next hstatement => rw [hstatement]; rfl
    · next node next rest hstatement =>
      rw [hstatement, Except.bind]
      split
      · next hnext =>
        simp only [if_pos hnext]
        cases parseStatements registry last rest <;> rfl
      · next hnext => exact (if_neg hnext).symm

/-- A line is parsed without regard to what follows it: it fails, or it gives the statements that
stand in front of those of what follows. There is one of them at most. -/
theorem parseStatements_line (h : ClosedLine tokens) (registry : Registry φ) :
    (∃ diagnostic, ∀ last more,
      parseStatements registry last (tokens ++ more) = .error diagnostic) ∨
    ∃ nodes, ∀ last more, parseStatements registry last (tokens ++ more)
      = (parseStatements registry last more).map (nodes ++ ·) := by
  obtain ⟨content, sign, rfl, hcontent⟩ := h
  simp only [List.append_assoc, List.cons_append, List.nil_append]
  cases content with
  | nil =>
    refine .inr ⟨[], fun last more => ?_⟩
    rw [List.nil_append, parseStatements]
    cases parseStatements registry last more <;> rfl
  | cons token content =>
    have hend := hcontent token List.mem_cons_self
    rcases SettledBy.parseStatement (fun t ht => hcontent t (List.mem_cons_of_mem _ ht)) registry
      token sign with ⟨diagnostic, hfault⟩ | ⟨node, rest, hrest, hnode⟩
    · refine .inl ⟨diagnostic, fun last more => ?_⟩
      beta_reduce at hfault
      rw [List.cons_append, parseStatements_eq_bind hend, hfault]
      rfl
    · cases rest with
      | nil => exact .inr ⟨[node], fun last more => parseStatements_cons hend (hnode last more)⟩
      | cons next rest =>
        have hnext : next.lexeme ≠ .endOfLine := by
          intro hlex
          simpa [Token.isEnd, hlex] using hrest next List.mem_cons_self
        refine .inl ⟨⟨.expectedEndOfLine next.lexeme, next.location⟩, fun last more => ?_⟩
        beta_reduce at hnode
        rw [List.cons_append, parseStatements_eq_bind hend, hnode]
        exact if_neg hnext

/-- Lines are parsed one after the other, without regard to what follows them. If one of them fails,
so do all of them together, with the first such fault. -/
theorem parseStatements_flatten {lines : List (List Token)} (h : ∀ line ∈ lines, ClosedLine line)
    (registry : Registry φ) :
    (∃ diagnostic, ∀ last more,
      parseStatements registry last (lines.flatten ++ more) = .error diagnostic) ∨
    ∃ nodes, ∀ last more, parseStatements registry last (lines.flatten ++ more)
      = (parseStatements registry last more).map (nodes ++ ·) := by
  induction lines with
  | nil =>
    refine .inr ⟨[], fun last more => ?_⟩
    rw [List.flatten_nil, List.nil_append]
    cases parseStatements registry last more <;> rfl
  | cons line lines ih =>
    simp only [List.flatten_cons, List.append_assoc]
    rcases parseStatements_line (h line List.mem_cons_self) registry with
      ⟨diagnostic, hline⟩ | ⟨first, hline⟩
    · exact .inl ⟨diagnostic, fun last more => hline last (lines.flatten ++ more)⟩
    · rcases ih fun l hl => h l (List.mem_cons_of_mem _ hl) with
        ⟨diagnostic, hlines⟩ | ⟨nodes, hlines⟩
      · exact .inl ⟨diagnostic, fun last more => by rw [hline, hlines]; rfl⟩
      · refine .inr ⟨first ++ nodes, fun last more => ?_⟩
        rw [hline, hlines]
        cases parseStatements registry last more with
        | error diagnostic => rfl
        | ok rest => simp [Except.map]

end Parsing

end ActivityScript.Script
