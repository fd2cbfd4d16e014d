import ActivityScript.Proofs.Script.Invocations

/-!
# Where an execution fails

A source is read as a whole before anything of it runs, so the fault of an execution tells how far
it came. A problem of lexing or of parsing means that the source could not be read
(`failsReading_execute_iff`), and so does a line that is no text. What is found while statements run
is a problem of execution (`phase_of_run`).

A line that is no text is found if all lines before it can be lexed (`read_eq_encoding_iff`).
-/

namespace ActivityScript.Script

section Lines

variable {file : Option String} {line : Nat} {fault : Text.Utf8.Fault}

/-- Lines are read up to one that is no text if all lines before it can be lexed. Otherwise the
fault of an earlier line comes first. -/
theorem fault?_lexLines_eq_encoding_iff (lines : List Line) :
    (lexLines file line lines).fault? = some (.encoding fault) ↔
      ∃ k, lines[k]? = some (.error fault) ∧ (lexLines file line (lines.take k)).fault? = none := by
  induction lines generalizing line with
  | nil => simp [lexLines]
  | cons first lines ih =>
    rw [← Nat.or_exists_add_one]
    cases first with
    | error found => simp [lexLines]
    | ok cs =>
      cases hlex : lexLine file line 0 cs with
      | mk tokens fault? =>
        cases fault? with
        | some diagnostic => simp [lexLines, hlex]
        | none => simp [lexLines, hlex, ih]

/-- A source has a line that is no text, and everything before that line can be lexed. -/
def Source.ReachesUndecodable (source : Source) (file : Option String) (fault : Text.Utf8.Fault) :
    Prop :=
  ∃ k, source.lines[k]? = some (.error fault) ∧
    (lexLines file 0 (source.lines.take k)).fault? = none

/-- There are no tokens exactly if there is a fault, and it is this fault that is given instead of
them. -/
theorem tokens?_eq_error_iff {lexing : Lexing} {fault : ReadFault} :
    lexing.tokens? = .error fault ↔ lexing.fault? = some fault := by
  rw [Lexing.tokens?]
  cases lexing.fault? <;> simp

end Lines

section Reading

variable {φ : Type} {registry : Registry φ} {source : Source} {file : Option String}
  {diagnostic : Diagnostic} {fault : Text.Utf8.Fault}

/-- Only the lexer finds that a line is no text. The parser and the lines after this one have no
part in it. -/
theorem read_eq_encoding_iff :
    read registry source file = .error (.encoding fault) ↔
      source.ReachesUndecodable file fault := by
  have htokens : tokenize source file = .error (.encoding fault) ↔
      source.ReachesUndecodable file fault :=
    tokens?_eq_error_iff.trans (fault?_lexLines_eq_encoding_iff _)
  rw [← htokens, read]
  cases tokenize source file with
  | error found => constructor <;> intro h <;> cases h <;> rfl
  | ok tokens =>
    have hparse : (parse registry tokens).mapError ReadFault.script ≠ .error (.encoding fault) := by
      cases parse registry tokens <;> simp [Except.mapError]
    exact ⟨fun h => absurd h hparse, fun h => by cases h⟩

/-- What keeps a source from being read is a problem of lexing or of parsing. Nothing has run
then. -/
theorem phase_of_read (h : read registry source file = .error (.script diagnostic)) :
    diagnostic.problem.phase = .lexing ∨ diagnostic.problem.phase = .parsing := by
  rcases tokens?_lexLines_cases file 0 source.lines with
    ⟨tokens, htokens, hend⟩ | ⟨found, htokens, hphase⟩ | ⟨found, htokens, -⟩
  · rw [read_of_tokenize htokens] at h
    cases hparse : parse registry tokens with
    | ok program => rw [hparse] at h; cases h
    | error found =>
      rw [hparse] at h
      cases h
      exact .inr (ParseFault.of_parse hend hparse).phase
  · rw [read, tokenize, Source.lexing, htokens] at h
    cases h
    exact .inl hphase
  · rw [read, tokenize, Source.lexing, htokens] at h
    cases h

end Reading

section Execution

variable {σ : Type} {registry : Registry (Native σ)} {source : Source} {file : Option String}
  {program : List (Node (Native σ))} {state : σ} {scope : Scope} {fault : Fault}

/-- The fault of a program that was read is a problem of execution or a crash. It is never one of
lexing or parsing, as these are over when the run begins. -/
theorem phase_of_run (hread : read registry source file = .ok program)
    (h : (run program state).fault? = some fault) :
    (∃ diagnostic, fault = .script diagnostic ∧ diagnostic.problem.phase = .execution) ∨
      ∃ crash, fault = .crashed crash := by
  obtain ⟨tokens, -, hparse⟩ := exists_parse_of_read hread
  cases RunFault.of_run hparse h with
  | script hphase => exact .inl ⟨_, rfl, hphase⟩
  | crashed => exact .inr ⟨_, rfl⟩

/-- An execution ends with a problem of lexing or of parsing. -/
def Run.FailsReading (run : Run σ) : Prop :=
  ∃ diagnostic, run.fault? = some (.script diagnostic) ∧
    (diagnostic.problem.phase = .lexing ∨ diagnostic.problem.phase = .parsing)

/-- A source that can be read is executed by running the program that it is read as, in a new
scope. -/
theorem execute_of_read_ok (h : read registry source file = .ok program) :
    execute registry source file scope state = run program state := by
  rw [execute, h]

/-- A source that cannot be read is not executed: scope and state are as before, and the fault is
the one of reading. -/
theorem execute_of_read_error {found : ReadFault} (h : read registry source file = .error found) :
    execute registry source file scope state = ⟨some found.toFault, scope, state⟩ := by
  rw [execute, h]

/-- Nothing is called if the source cannot be read, since no statement of it runs, not even those
before the fault. -/
theorem history_of_read_error {found : ReadFault} (h : read registry source file = .error found) :
    history registry source file state = [] := by
  rw [history, h]

/-- Exactly the sources that cannot be read fail with a problem of lexing or of parsing. So the
phase of the problem tells whether anything has run. -/
theorem failsReading_execute_iff :
    (execute registry source file scope state).FailsReading ↔
      ∃ diagnostic, read registry source file = .error (.script diagnostic) := by
  constructor
  · rintro ⟨diagnostic, hfault, hphase⟩
    cases hread : read registry source file with
    | error found =>
      rw [execute_of_read_error hread] at hfault
      cases found with
      | script found => exact ⟨found, rfl⟩
      | encoding found => cases hfault
    | ok program =>
      rw [execute_of_read_ok hread] at hfault
      rcases phase_of_run hread hfault with ⟨found, heq, hexecution⟩ | ⟨crash, heq⟩
      · cases heq
        simp [hexecution] at hphase
      · cases heq
  · rintro ⟨diagnostic, hread⟩
    rw [execute_of_read_error hread]
    exact ⟨diagnostic, rfl, phase_of_read hread⟩

/-- Exactly the sources that reach a line that is no text fail with it. No run does, whatever its
functions are. -/
theorem fault?_execute_eq_encoding_iff {bad : Text.Utf8.Fault} :
    (execute registry source file scope state).fault? = some (.encoding bad) ↔
      read registry source file = .error (.encoding bad) := by
  cases hread : read registry source file with
  | error found =>
    rw [execute_of_read_error hread]
    cases found <;> simp [ReadFault.toFault]
  | ok program =>
    rw [execute_of_read_ok hread]
    constructor
    · intro hfault
      rcases phase_of_run hread hfault with ⟨found, heq, -⟩ | ⟨crash, heq⟩ <;> cases heq
    · intro h
      cases h

end Execution

end ActivityScript.Script
