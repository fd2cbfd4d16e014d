import ActivityScript.Proofs.Script.Grammar
import ActivityScript.Proofs.Script.Scanning
import ActivityScript.Script.Evaluation

/-!
# Faults of scripts

What can go wrong between a text and the end of its run. `TextFault` lists the diagnostics by the
phase that finds them; those of the parser and of the run are located at tokens of the text.
`fault_of_execute_text` says that no other fault comes out, except the crashes of functions.

Two faults are declared and never met. The tokens of a text end with an end of input (`HasEnd`), and
no statement reaches past one, so the parser never runs out of tokens. Parsed statements have no
assignments or empty nodes where values stand (`Reads`), so evaluation finds a value in every node.
-/

namespace ActivityScript.Script

/-! ## Codes of phases -/

/-- The codes of the lexer. There are two: a character that begins nothing, and a text that is not
closed. -/
theorem code_of_lexing {problem : Problem} (h : problem.phase = .lexing) :
    problem.code ∈ ["E001", "E002"] := by
  cases problem <;> cases h <;> simp [Problem.code]

/-- The codes of the parser, apart from that of tokens that run out. A text never comes to that one
(`ParseFault.notEnd`). -/
theorem code_of_parsing {problem : Problem} (h : problem.phase = .parsing)
    (hend : problem ≠ .unexpectedEnd) :
    problem.code ∈ ["E101", "E103", "E104", "E110", "E111", "E112"] := by
  cases problem <;> cases h <;> first | exact absurd rfl hend | simp [Problem.code]

/-- The codes of the run: a name without a value, and a function that has refused its call. -/
theorem code_of_execution {problem : Problem} (h : problem.phase = .execution) :
    problem.code ∈ ["E401", "E402"] := by
  cases problem <;> cases h <;> simp [Problem.code]

/-! ## Lexing -/

section Lexing

variable {file : Option String} {line column found : Nat} {cs : List Char} {problem : Problem}
  {diagnostic : Diagnostic}

/-- The scanner finds problems of lexing only. Both are found at once, where the character stands or
the text is opened. -/
theorem phase_of_scan (h : scan column cs = .fault found problem) : problem.phase = .lexing := by
  induction cs generalizing column with
  | nil => cases h
  | cons c cs ih =>
    rw [scan] at h
    split at h
    · exact ih h
    · split at h
      · cases h
      · split at h
        · split at h
          · cases h
          · cases h; rfl
        · split at h
          · cases h
          · split at h
            · cases h
            · split at h
              · cases h
              · cases h; rfl

/-- The fault of a line is a problem of lexing, the one of the scan that the line ends with. -/
theorem phase_of_lexLine (h : (lexLine file line column cs).2 = some diagnostic) :
    diagnostic.problem.phase = .lexing := by
  induction hn : cs.length using Nat.strongRecOn generalizing column cs with
  | _ n ih =>
    cases hscan : scan column cs with
    | lexeme found lexeme next rest =>
      rw [lexLine_of_lexeme hscan] at h
      exact ih rest.length (hn ▸ length_of_scan hscan) h rfl
    | lineEnd found =>
      rw [lexLine_of_lineEnd hscan] at h
      cases h
    | fault found problem =>
      rw [lexLine_of_fault hscan] at h
      cases h
      exact phase_of_scan hscan

/-- A list of tokens has an end of input. -/
def HasEnd (tokens : List Token) : Prop :=
  ∃ token ∈ tokens, token.lexeme = .endOfInput

/-- Lines are lexed up to an end of input, to a problem of lexing or to a line without a text. The
first line that is at fault decides which. -/
theorem tokens?_lexLines_cases (file : Option String) (line : Nat) (lines : List Line) :
    (∃ tokens, (lexLines file line lines).tokens? = .ok tokens ∧ HasEnd tokens) ∨
    (∃ diagnostic, (lexLines file line lines).tokens? = .error (.script diagnostic) ∧
      diagnostic.problem.phase = .lexing) ∨
    ∃ fault, (lexLines file line lines).tokens? = .error (.encoding fault) ∧
      .error fault ∈ lines := by
  induction lines generalizing line with
  | nil => exact .inl ⟨_, tokens?_lexLines_nil, _, List.mem_singleton_self _, rfl⟩
  | cons first lines ih =>
    cases first with
    | error fault => exact .inr (.inr ⟨fault, rfl, List.mem_cons_self⟩)
    | ok cs =>
      cases hlex : lexLine file line 0 cs with
      | mk tokens fault? =>
        cases fault? with
        | some diagnostic =>
          refine .inr (.inl ⟨diagnostic, ?_, phase_of_lexLine (congrArg Prod.snd hlex)⟩)
          rw [lexLines, hlex]
          rfl
        | none =>
          rw [tokens?_lexLines_cons hlex]
          rcases ih (line + 1) with
            ⟨rest, hrest, token, hmem, hend⟩ | ⟨diagnostic, hrest, hphase⟩ | ⟨fault, hrest, hmem⟩
          · exact .inl
              ⟨tokens ++ rest, by rw [hrest]; rfl, token, List.mem_append_right _ hmem, hend⟩
          · exact .inr (.inl ⟨diagnostic, by rw [hrest]; rfl, hphase⟩)
          · exact .inr (.inr ⟨fault, by rw [hrest]; rfl, List.mem_cons_of_mem _ hmem⟩)

/-- A text is lexed up to its end of input or to a problem of lexing. All of its lines have a text,
so it cannot end otherwise. -/
theorem tokenize_text_cases (s : String) (file : Option String) :
    (∃ tokens, tokenize (.text s) file = .ok tokens ∧ HasEnd tokens) ∨
      ∃ diagnostic, tokenize (.text s) file = .error (.script diagnostic) ∧
        diagnostic.problem.phase = .lexing := by
  rcases tokens?_lexLines_cases file 0 (Source.text s).lines with htokens | hproblem | hencoding
  · exact .inl htokens
  · exact .inr hproblem
  · obtain ⟨fault, -, hmem⟩ := hencoding
    obtain ⟨cs, -, heq⟩ := List.mem_map.1 hmem
    cases heq

end Lexing

/-! ## Parsing -/

section Parsing

variable {φ : Type} {registry : Registry φ} {last location : Location} {name : String}
  {token : Token} {tokens more used rest : List Token} {diagnostic : Diagnostic}

theorem not_hasEnd_nil : ¬HasEnd [] := by
  rintro ⟨token, hmem, -⟩
  cases hmem

/-- The end of input comes after tokens that end nothing. So it is still there when a statement has
been taken. -/
theorem HasEnd.of_append (h : HasEnd (used ++ rest)) (hused : ∀ token ∈ used, token.isEnd = false) :
    HasEnd rest := by
  obtain ⟨token, hmem, hlex⟩ := h
  rcases List.mem_append.1 hmem with hmem | hmem
  · have hend := hused token hmem
    simp [Token.isEnd, hlex] at hend
  · exact ⟨token, hmem, hlex⟩

/-- The end of input comes after a first token that does not end the input. An end of line may be
passed over in this way, too. -/
theorem HasEnd.tail (h : HasEnd (token :: tokens)) (ht : token.lexeme ≠ .endOfInput) :
    HasEnd tokens := by
  obtain ⟨found, hmem, hlex⟩ := h
  rcases List.mem_cons.1 hmem with rfl | hmem
  · exact absurd hlex ht
  · exact ⟨found, hmem, hlex⟩

/-- A problem of parsing at one of the tokens. The tokens have not run out. -/
structure ParseFault (tokens : List Token) (diagnostic : Diagnostic) : Prop where
  phase : diagnostic.problem.phase = .parsing
  notEnd : diagnostic.problem ≠ .unexpectedEnd
  located : ∃ token ∈ tokens, token.location = diagnostic.location

theorem ParseFault.mono (h : ParseFault tokens diagnostic) (hsub : tokens ⊆ more) :
    ParseFault more diagnostic := by
  obtain ⟨token, hmem, hloc⟩ := h.located
  exact ⟨h.phase, h.notEnd, token, hsub hmem, hloc⟩

/-- A call that does not resolve is at fault where its name stands, for a function that is not there
or for too few or too many arguments. -/
theorem ParseFault.of_resolve {count : Nat} {lexeme : Lexeme}
    (h : registry.resolve location name count = .error diagnostic) :
    ParseFault [⟨lexeme, location⟩] diagnostic := by
  unfold Registry.resolve at h
  split at h
  · cases h
    exact ⟨rfl, nofun, _, List.mem_singleton_self _, rfl⟩
  · split at h
    · cases h
      exact ⟨rfl, nofun, _, List.mem_singleton_self _, rfl⟩
    · split at h
      · cases h
        exact ⟨rfl, nofun, _, List.mem_singleton_self _, rfl⟩
      · cases h

/-- A call stops before the end of input, so it is at fault only if it does not resolve. Its
arguments cannot be at fault. -/
theorem ParseFault.of_parseCall (hend : HasEnd tokens)
    (h : parseCall registry last name location tokens = .error diagnostic) :
    ParseFault [⟨.identifier name, location⟩] diagnostic := by
  obtain ⟨used, happ, hargs, -⟩ := takeArguments_reads (φ := φ) tokens
  rw [happ] at hend
  have hrest := hend.of_append fun token ht =>
    Token.isEnd_of_isWord ((wordsOfAll_of_forall₂ hargs).1 token ht)
  unfold parseCall at h
  split at h
  · next heq =>
    rw [heq] at hrest
    exact absurd hrest not_hasEnd_nil
  · simp only [bind, Except.bind] at h
    split at h
    · next hres =>
      cases h
      exact .of_resolve hres
    · cases h

/-- The value of an assignment is at fault at one of its tokens: at the first one if no value begins
with it, and else at the name of a call. -/
theorem ParseFault.of_parseValue (hend : HasEnd tokens)
    (h : parseValue registry last tokens = .error diagnostic) : ParseFault tokens diagnostic := by
  unfold parseValue at h
  split at h
  · exact absurd hend not_hasEnd_nil
  · exact (ParseFault.of_parseCall (hend.tail nofun) h).mono (by simp)
  · cases h
  · next token _ _ _ =>
    cases h
    exact ⟨rfl, nofun, token, List.mem_cons_self, rfl⟩

/-- A statement is at fault at one of its tokens: the first one, or one of its value or of its
call. -/
theorem ParseFault.of_parseStatement (hend : HasEnd tokens)
    (h : parseStatement registry last token tokens = .error diagnostic) :
    ParseFault (token :: tokens) diagnostic := by
  obtain ⟨lexeme, start⟩ := token
  unfold parseStatement at h
  split at h
  · next name hlex =>
    cases hlex
    split at h
    · simp only [bind, Except.bind] at h
      split at h
      · next hvalue =>
        cases h
        exact (ParseFault.of_parseValue (hend.tail nofun) hvalue).mono (by simp)
      · cases h
    · exact (ParseFault.of_parseCall hend h).mono (by simp)
  · cases h
    exact ⟨rfl, nofun, _, List.mem_cons_self, rfl⟩

/-- A parsed statement stops before the end of input, since none of its tokens ends anything. -/
theorem HasEnd.of_parseStatement {node : Node φ} (hend : HasEnd tokens)
    (h : parseStatement registry last token tokens = .ok (node, rest)) : HasEnd rest := by
  obtain ⟨used, rfl, hreads⟩ := Reads.of_parseStatement h
  exact hend.of_append fun t ht => hreads.isStatement.isEnd.2 t (List.mem_cons_of_mem _ ht)

/-- Tokens with an end of input are at fault at one of them. A statement that was parsed leaves the
end of input to those after it (`HasEnd.of_parseStatement`). -/
theorem ParseFault.of_parseStatements (hend : HasEnd tokens)
    (h : parseStatements registry last tokens = .error diagnostic) :
    ParseFault tokens diagnostic := by
  fun_induction parseStatements registry last tokens with
  | case1 => exact absurd hend not_hasEnd_nil
  | case2 => cases h
  | case3 token tokens hlex ih =>
    exact (ih (hend.tail (by simp [hlex])) h).mono (List.subset_cons_self _ _)
  | case4 token tokens found hstmt hinput _ =>
    cases h
    exact .of_parseStatement (hend.tail hinput) hstmt
  | case5 token tokens node hstmt hinput _ =>
    exact absurd ((hend.tail hinput).of_parseStatement hstmt) not_hasEnd_nil
  | case6 => cases h
  | case7 token tokens node next rest hstmt hnext found hrest hinput _ ih =>
    have hleft := (hend.tail hinput).of_parseStatement hstmt
    obtain ⟨used, rfl, -⟩ := Reads.of_parseStatement hstmt
    cases h
    exact (ih (hleft.tail (by simp [hnext])) hrest).mono fun t ht => by simp [ht]
  | case8 token tokens node next rest hstmt =>
    obtain ⟨used, rfl, -⟩ := Reads.of_parseStatement hstmt
    cases h
    exact ⟨rfl, by simp, next, by simp, rfl⟩

/-- The parser does not run out of tokens if there is an end of input among them. The problem it
finds is at one of these tokens. -/
theorem ParseFault.of_parse (hend : HasEnd tokens)
    (h : parse registry tokens = .error diagnostic) : ParseFault tokens diagnostic := by
  obtain ⟨token, hmem, -⟩ := id hend
  rw [parse_eq_parseStatements registry (List.ne_nil_of_mem hmem)] at h
  exact .of_parseStatements hend h

/-- The lines of a program hold tokens of the program, and so a problem in one of them is at one of
its tokens. -/
theorem IsProgram.subset_of_mem_statementsOf {line : List Token} (h : IsProgram used)
    (hline : line ∈ statementsOf used) : line ⊆ used := by
  induction h with
  | endOfInput => cases hline
  | blank _ ih => exact List.subset_cons_of_subset _ (ih hline)
  | statement hs _ ih =>
    rw [hs.statementsOf_append] at hline
    rcases List.mem_cons.1 hline with rfl | hline
    · exact List.subset_append_left _ _
    · exact List.Subset.trans (List.subset_cons_of_subset _ (ih hline))
        (List.subset_append_right _ _)

/-- The trees of a parse were read from lines of its tokens, one tree from each line. Blank lines
have no tree. -/
theorem exists_reads_of_parse {program : List (Node φ)} (h : parse registry tokens = .ok program) :
    ∃ lines : List (List Token), (∀ line ∈ lines, line ⊆ tokens) ∧
      List.Forall₂ (Reads registry) lines program := by
  by_cases hne : tokens = []
  · subst hne
    cases h
    exact ⟨[], nofun, .nil⟩
  · rw [parse_eq_parseStatements registry hne] at h
    obtain ⟨used, rest, rfl, hprog, htrees⟩ := IsProgram.of_parseStatements h
    refine ⟨statementsOf used, fun line hline => ?_, htrees⟩
    exact List.Subset.trans (hprog.subset_of_mem_statementsOf hline) (List.subset_append_left _ _)

end Parsing

/-! ## Running -/

section Running

variable {σ : Type} {registry : Registry (Native σ)} {scope : Scope} {state after : σ}
  {token : Token} {tokens more : List Token} {node : Node (Native σ)}
  {nodes : List (Node (Native σ))} {fault : Fault}

/-- A sequence of steps fails in its first part or in its second part. In the second case the first
part has left the state in which the second begins. -/
theorem run_bind_error {ε α β : Type} {first : Step σ ε α} {second : α → Step σ ε β} {failure : ε}
    (h : (first >>= second).run.run state = (.error failure, after)) :
    first.run.run state = (.error failure, after) ∨
      ∃ value middle, first.run.run state = (.ok value, middle) ∧
        (second value).run.run middle = (.error failure, after) := by
  rw [ExceptT.run_bind, StateT.run_bind] at h
  cases hfirst : first.run.run state with
  | mk result middle =>
    rw [hfirst] at h
    cases result with
    | error found =>
      have heq : (Except.error found, middle) = ((.error failure, after) : Except ε β × σ) := h
      cases heq
      exact .inl rfl
    | ok value => exact .inr ⟨value, middle, rfl, h⟩

/-- A call fails as its function does, in the words of a script. The state is the one that the
function has left. -/
theorem run_invoke_error {location : Location} {function : Native σ} {arguments : List String}
    (h : (invoke location function arguments).run.run state = (.error fault, after)) :
    ∃ failure : Failure, (function arguments).run.run state = (.error failure, after) ∧
      fault = failure.toFault location := by
  rw [invoke, ExceptT.run_adapt, StateT.run_map] at h
  cases hbody : (function arguments).run.run state with
  | mk result middle =>
    rw [hbody] at h
    cases result with
    | error failure =>
      have heq : (Except.error (failure.toFault location), middle)
          = ((.error fault, after) : Except Fault String × σ) := h
      cases heq
      exact ⟨failure, rfl, rfl⟩
    | ok value => cases h

/-- A fault of a run of statements that were read from `tokens`: a problem of execution at one of
them, or a crash of a registered function. -/
inductive RunFault (registry : Registry (Native σ)) (tokens : List Token) : Fault → Prop where
  | script {diagnostic : Diagnostic} {token : Token} :
      diagnostic.problem.phase = .execution → token ∈ tokens →
      token.location = diagnostic.location → RunFault registry tokens (.script diagnostic)
  | crashed {crash : Crash} {entry : Entry (Native σ)} {arguments : List String}
      {state after : σ} :
      entry ∈ registry.entries →
      (entry.body arguments).run.run state = (.error (.crashed crash), after) →
      RunFault registry tokens (.crashed crash)

theorem RunFault.mono (h : RunFault registry tokens fault) (hsub : tokens ⊆ more) :
    RunFault registry more fault := by
  cases h with
  | script hphase hmem hloc => exact .script hphase (hsub hmem) hloc
  | crashed hentry hbody => exact .crashed hentry hbody

/-- An argument is at fault only if it is a name without a value. Texts are their own values. -/
theorem RunFault.of_argument (hreads : ReadsArgument token node)
    (h : (evaluate scope node).run.run state = (.error fault, after)) :
    RunFault registry [token] fault := by
  cases hreads with
  | literal => rw [evaluate] at h; cases h
  | reference =>
    rw [evaluate] at h
    split at h
    · cases h
    · cases h
      exact .script rfl (List.mem_singleton_self _) rfl

/-- Arguments are at fault at one of their tokens. They are evaluated from left to right, and the
first fault ends this. -/
theorem RunFault.of_arguments (hreads : List.Forall₂ ReadsArgument tokens nodes)
    (h : (evaluateAll scope nodes).run.run state = (.error fault, after)) :
    RunFault registry tokens fault := by
  induction hreads generalizing state with
  | nil => rw [evaluateAll] at h; cases h
  | cons hnode _ ih =>
    rw [evaluateAll] at h
    rcases run_bind_error h with h | ⟨value, middle, -, h⟩
    · exact (RunFault.of_argument hnode h).mono (by simp)
    · rcases run_bind_error h with h | ⟨values, middle, -, h⟩
      · exact (ih h).mono (List.subset_cons_self _ _)
      · cases h

/-- A call is at fault in its arguments, or where its name stands if the function refuses. A crash
is one of a registered function, since the call was resolved. -/
theorem RunFault.of_call (hreads : ReadsCall registry tokens node)
    (h : (evaluate scope node).run.run state = (.error fault, after)) :
    RunFault registry tokens fault := by
  obtain ⟨hargs, hres⟩ := hreads
  rw [evaluate] at h
  rcases run_bind_error h with h | ⟨values, middle, -, h⟩
  · exact (RunFault.of_arguments hargs h).mono (List.subset_cons_self _ _)
  · have hentry := List.mem_of_find?_eq_some (Registry.resolve_eq_ok_iff.1 hres).1
    obtain ⟨failure, hbody, rfl⟩ := run_invoke_error h
    cases failure with
    | refused message => exact .script rfl List.mem_cons_self rfl
    | crashed crash => exact .crashed hentry hbody

/-- A statement has a value wherever it needs one, so it is at fault only in its call. Binding a
name cannot fail. -/
theorem RunFault.of_statement (hreads : Reads registry tokens node)
    (h : (runStatement scope node).run.run state = (.error fault, after)) :
    RunFault registry tokens fault := by
  cases hreads with
  | call hcall =>
    obtain ⟨hargs, hres⟩ := hcall
    rw [runStatement] at h
    · rcases run_bind_error h with h | ⟨value, middle, -, h⟩
      · exact .of_call ⟨hargs, hres⟩ h
      · cases h
    · nofun
  | bindText =>
    rw [runStatement, evaluate] at h
    cases h
  | bindCall hcall =>
    rw [runStatement] at h
    rcases run_bind_error h with h | ⟨value, middle, -, h⟩
    · exact (RunFault.of_call hcall h).mono (by simp)
    · cases h

/-- The fault of a run is a fault of one of its statements, the first that fails. Those before it
have changed the scope and the state, which does not matter here. -/
theorem RunFault.of_runFrom {lines : List (List Token)}
    (hreads : List.Forall₂ (Reads registry) lines nodes)
    (h : (runFrom scope state nodes).fault? = some fault) :
    ∃ line ∈ lines, RunFault registry line fault := by
  induction hreads generalizing scope state with
  | nil => cases h
  | cons hnode _ ih =>
    rw [runFrom] at h
    split at h
    · obtain ⟨line, hline, hfault⟩ := ih h
      exact ⟨line, List.mem_cons_of_mem _ hline, hfault⟩
    · next hstep =>
      cases h
      exact ⟨_, List.mem_cons_self, .of_statement hnode hstep⟩

/-- The fault of the run of a parsed program is a problem at one of its tokens or a crash. The line
that fails holds tokens of the program. -/
theorem RunFault.of_run (hparse : parse registry tokens = .ok nodes)
    (h : (run nodes state).fault? = some fault) : RunFault registry tokens fault := by
  obtain ⟨lines, hsub, hreads⟩ := exists_reads_of_parse hparse
  obtain ⟨line, hline, hfault⟩ := RunFault.of_runFrom hreads h
  exact hfault.mono (hsub line hline)

end Running

/-! ## From text to result -/

section Execution

variable {σ : Type} (registry : Registry (Native σ)) (s : String) (file : Option String)

/-- Every function of a registry returns a text or refuses the call; none crashes. -/
def Registry.RefusesOnly (registry : Registry (Native σ)) : Prop :=
  ∀ entry ∈ registry.entries, ∀ arguments state crash after,
    (entry.body arguments).run.run state ≠ (.error (.crashed crash), after)

/-- What a text can be told to have done wrong, by the phase that finds it. Only the lexer looks at
places that hold no token. -/
inductive TextFault : Diagnostic → Prop where
  | lexing {diagnostic : Diagnostic} :
      tokenize (.text s) file = .error (.script diagnostic) →
      diagnostic.problem.phase = .lexing → diagnostic.problem.code ∈ ["E001", "E002"] →
      TextFault diagnostic
  | parsing {diagnostic : Diagnostic} {tokens : List Token} {token : Token} :
      tokenize (.text s) file = .ok tokens → parse registry tokens = .error diagnostic →
      diagnostic.problem.phase = .parsing →
      diagnostic.problem.code ∈ ["E101", "E103", "E104", "E110", "E111", "E112"] →
      token ∈ tokens → token.location = diagnostic.location → TextFault diagnostic
  | execution {diagnostic : Diagnostic} {tokens : List Token} {program : List (Node (Native σ))}
      {token : Token} :
      tokenize (.text s) file = .ok tokens → parse registry tokens = .ok program →
      diagnostic.problem.phase = .execution → diagnostic.problem.code ∈ ["E401", "E402"] →
      token ∈ tokens → token.location = diagnostic.location → TextFault diagnostic

variable {registry s file} in
/-- The tokens do not run out in any phase: the code that would say so is among the codes of none of
them. -/
theorem TextFault.code_ne {diagnostic : Diagnostic} (h : TextFault registry s file diagnostic) :
    diagnostic.problem.code ≠ "E102" := by
  intro heq
  cases h with
  | lexing _ _ hcode | parsing _ _ _ hcode | execution _ _ _ hcode => simp [heq] at hcode

/-- What has been lexed is read as it is parsed, and the problems of the parser are those of
reading. -/
theorem read_of_tokenize {φ : Type} {registry : Registry φ} {source : Source}
    {file : Option String} {tokens : List Token} (h : tokenize source file = .ok tokens) :
    read registry source file = (parse registry tokens).mapError .script := by
  rw [read, h]
  rfl

/-- What was read has been lexed and parsed. If either had failed, so would reading. -/
theorem exists_parse_of_read {φ : Type} {registry : Registry φ} {source : Source}
    {file : Option String} {program : List (Node φ)}
    (h : read registry source file = .ok program) :
    ∃ tokens, tokenize source file = .ok tokens ∧ parse registry tokens = .ok program := by
  cases htokens : tokenize source file with
  | error fault => rw [read, htokens] at h; cases h
  | ok tokens =>
    rw [read_of_tokenize htokens] at h
    cases hparse : parse registry tokens with
    | error diagnostic => rw [hparse] at h; cases h
    | ok nodes =>
      rw [hparse] at h
      cases h
      exact ⟨tokens, rfl, hparse⟩

/-- A text is executed to its end, or up to a fault of the text, or up to a crash of a function. The
cases are those of lexing, of parsing and of the run. -/
theorem execute_text_cases (scope : Scope) (state : σ) :
    (execute registry (.text s) file scope state).fault? = none ∨
    (∃ diagnostic,
      (execute registry (.text s) file scope state).fault? = some (.script diagnostic) ∧
        TextFault registry s file diagnostic) ∨
    ∃ crash, (execute registry (.text s) file scope state).fault? = some (.crashed crash) ∧
      ∃ entry ∈ registry.entries, ∃ arguments before after,
        (entry.body arguments).run.run before = (.error (.crashed crash), after) := by
  rw [execute]
  rcases tokenize_text_cases s file with ⟨tokens, htokens, hend⟩ | ⟨diagnostic, hfault, hphase⟩
  · rw [read_of_tokenize htokens]
    cases hparse : parse registry tokens with
    | error diagnostic =>
      have hfault := ParseFault.of_parse hend hparse
      obtain ⟨token, hmem, hloc⟩ := hfault.located
      have hcode := code_of_parsing hfault.phase hfault.notEnd
      refine .inr (.inl ⟨diagnostic, rfl, ?_⟩)
      exact .parsing htokens hparse hfault.phase hcode hmem hloc
    | ok program =>
      rw [Except.mapError]
      cases hrun : (run program state).fault? with
      | none => exact .inl rfl
      | some fault =>
        cases RunFault.of_run hparse hrun with
        | script hphase hmem hloc =>
          have hcode := code_of_execution hphase
          exact .inr (.inl ⟨_, rfl, .execution htokens hparse hphase hcode hmem hloc⟩)
        | crashed hentry hbody => exact .inr (.inr ⟨_, rfl, _, hentry, _, _, _, hbody⟩)
  · rw [read, hfault]
    exact .inr (.inl ⟨diagnostic, rfl, .lexing hfault hphase (code_of_lexing hphase)⟩)

/-- **Only located faults come out of a text.** If no function crashes, a text is executed to its
end or told what it did wrong. What it is told is a problem of lexing, or one of parsing or of
execution at one of its tokens. The tokens never run out, and every node that needs a value has
one, whatever the functions do. -/
theorem fault_of_execute_text (scope : Scope) (state : σ) :
    (registry.RefusesOnly →
      (execute registry (.text s) file scope state).fault? = none ∨
      ∃ diagnostic,
        (execute registry (.text s) file scope state).fault? = some (.script diagnostic)) ∧
    (∀ diagnostic,
      (execute registry (.text s) file scope state).fault? = some (.script diagnostic) →
        TextFault registry s file diagnostic ∧ diagnostic.problem.code ≠ "E102") ∧
    ∀ kind, (execute registry (.text s) file scope state).fault? ≠ some (.notEvaluable kind) := by
  rcases execute_text_cases registry s file scope state with
    hnone | ⟨diagnostic, hfault, htext⟩ | ⟨crash, hfault, entry, hentry, _, _, _, hbody⟩
  · rw [hnone]
    exact ⟨fun _ => .inl rfl, nofun, nofun⟩
  · rw [hfault]
    refine ⟨fun _ => .inr ⟨diagnostic, rfl⟩, fun found heq => ?_, nofun⟩
    cases heq
    exact ⟨htext, htext.code_ne⟩
  · rw [hfault]
    exact ⟨fun h => absurd hbody (h entry hentry _ _ _ _), nofun, nofun⟩

/-- A function that always refuses does not crash. -/
theorem fault_of_execute_text_refusing :
    let registry : Registry (Native Nat) :=
      ⟨[⟨"fail", ["reason"], ⟨1, false⟩, fun _ => throw (.refused "no")⟩]⟩
    registry.RefusesOnly ∧
      ((execute registry (.text "fail :now") none Scope.empty 0).fault? = none ∨
        ∃ diagnostic, (execute registry (.text "fail :now") none Scope.empty 0).fault?
          = some (.script diagnostic)) := by
  intro registry
  have hrefuses : registry.RefusesOnly := by
    intro entry hentry arguments state crash after
    obtain rfl := List.mem_singleton.1 hentry
    nofun
  exact ⟨hrefuses, (fault_of_execute_text registry _ _ _ _).1 hrefuses⟩

end Execution

end ActivityScript.Script
