import ActivityScript.Proofs.Script.Invocations

/-!
# Crashes of scripts

A crash of a function passes through everything that called it, and nothing else crashes. So an
execution ends with a crash exactly if one of its calls has crashed (`execute_crashed_iff`), and a
text whose calls do not crash is executed to its end or told what it did wrong
(`fault_of_history`).
-/

namespace ActivityScript.Script

variable {σ α β : Type} {registry : Registry (Native σ)} {traced : Traced σ}
  {node : Node (Native σ)} {program : List (Node (Native σ))}

/-- Steps make further calls, and crash if and only if one of these calls does. -/
def CrashesByCalls (steps : Step (Traced σ) Fault α) (traced : Traced σ) : Prop :=
  ∃ calls, (steps.run.run traced).2.calls = traced.calls ++ calls ∧
    ∀ crash, (steps.run.run traced).1 = .error (.crashed crash) ↔
      ∃ call ∈ calls, call.result = .error (.crashed crash)

/-- What is done with the value of steps afterwards makes no call and does not crash, so it makes no
difference here. -/
theorem CrashesByCalls.map {steps : Step (Traced σ) Fault α} (h : CrashesByCalls steps traced)
    (f : α → β) : CrashesByCalls (steps >>= fun value => pure (f value)) traced := by
  obtain ⟨calls, hcalls, hcrash⟩ := h
  refine ⟨calls, by rw [run_bind_pure_state, hcalls], fun crash => ?_⟩
  rw [← hcrash crash]
  cases hrun : steps.run.run traced with
  | mk result after =>
    cases result with
    | ok value =>
      rw [run_bind_of_ok hrun]
      constructor <;> intro heq <;> cases heq
    | error fault =>
      rw [run_bind_of_error hrun]
      constructor <;> intro heq <;> cases heq <;> rfl

/-- The script is told about a refusal, and a crash stays what it is. So crashes can be recognised
in the fault of an execution. -/
theorem mapError_toFault_eq_crashed_iff {result : Except Failure String} {location : Location}
    {crash : Crash} :
    result.mapError (Failure.toFault location) = .error (.crashed crash) ↔
      result = .error (.crashed crash) := by
  cases result with
  | ok value => simp [Except.mapError]
  | error failure => cases failure <;> simp [Except.mapError, Failure.toFault]

/-- A call with plain arguments crashes by its own call only. If an argument has no value, no call
is made, and the script is told so. -/
theorem CrashesByCalls.evaluate (h : ResolvedCall registry node) (scope : Scope)
    (traced : Traced σ) : CrashesByCalls (evaluate scope node.traced) traced := by
  rcases h.run_evaluate_traced scope traced with
    ⟨diagnostic, hfault⟩ | ⟨location, entry, arguments, -, hrun⟩
  · refine ⟨[], by rw [hfault, List.append_nil], fun crash => ?_⟩
    rw [hfault]
    simp
  · refine ⟨[entry.invocation arguments traced.state], by rw [hrun]; rfl, fun crash => ?_⟩
    rw [hrun, mapError_toFault_eq_crashed_iff]
    simp

/-- A statement crashes by the call that it makes, if it makes one. Binding a text to a name makes
no call and cannot fail. -/
theorem CrashesByCalls.runStatement (h : Resolved registry node) (scope : Scope)
    (traced : Traced σ) : CrashesByCalls (runStatement scope node.traced) traced := by
  cases h with
  | call hcall =>
    have heval := CrashesByCalls.evaluate hcall scope traced
    obtain ⟨-, -, -⟩ := hcall
    exact heval.map fun _ => scope
  | @bindText location at' name text =>
    refine ⟨[], (List.append_nil _).symm, fun crash => ?_⟩
    constructor
    · intro heq
      cases heq
    · rintro ⟨call, hmem, -⟩
      cases hmem
  | @bindCall location name value hcall =>
    exact (CrashesByCalls.evaluate hcall scope traced).map fun text => scope.set name text

/-- A run ends with a crash if and only if one of its calls has crashed: it goes on after calls that
have not, and stops at the first that has. -/
theorem runFrom_crashed_iff (hprogram : ∀ node ∈ program, Resolved registry node) (scope : Scope)
    (traced : Traced σ) :
    ∃ calls, (runFrom scope traced (program.map Node.traced)).state.calls
        = traced.calls ++ calls ∧
      ∀ crash, (runFrom scope traced (program.map Node.traced)).fault? = some (.crashed crash) ↔
        ∃ call ∈ calls, call.result = .error (.crashed crash) := by
  induction program generalizing scope traced with
  | nil =>
    refine ⟨[], (List.append_nil _).symm, fun crash => ?_⟩
    simp [runFrom]
  | cons node program ih =>
    obtain ⟨first, hfirst, hcrash⟩ :=
      CrashesByCalls.runStatement (hprogram node List.mem_cons_self) scope traced
    rw [List.map_cons, runFrom]
    cases hrun : (Script.runStatement scope node.traced).run.run traced with
    | mk result after =>
      rw [hrun] at hfirst hcrash
      cases result with
      | error fault =>
        refine ⟨first, hfirst, fun crash => ?_⟩
        rw [← hcrash crash]
        simp
      | ok scope =>
        obtain ⟨rest, hrest, hrestCrash⟩ :=
          ih (fun n hn => hprogram n (List.mem_cons_of_mem _ hn)) scope after
        refine ⟨first ++ rest, ?_, fun crash => ?_⟩
        · simp only at hfirst ⊢
          rw [hrest, hfirst, List.append_assoc]
        · have hnone : ¬∃ call ∈ first, call.result = .error (.crashed crash) := by
            rw [← hcrash crash]
            simp
          simp only [hrestCrash crash, List.mem_append]
          constructor
          · rintro ⟨call, hmem, hcall⟩
            exact ⟨call, .inr hmem, hcall⟩
          · rintro ⟨call, hmem | hmem, hcall⟩
            · exact absurd ⟨call, hmem, hcall⟩ hnone
            · exact ⟨call, hmem, hcall⟩

/-- **Executions crash by their calls.** An execution ends with a crash if and only if one of its
calls has crashed. -/
theorem execute_crashed_iff (registry : Registry (Native σ)) (source : Source)
    (file : Option String) (scope : Scope) (state : σ) (crash : Crash) :
    (execute registry source file scope state).fault? = some (.crashed crash) ↔
      ∃ call ∈ history registry source file state, call.result = .error (.crashed crash) := by
  rw [execute, history]
  cases hread : read registry source file with
  | error fault => cases fault <;> simp [ReadFault.toFault]
  | ok program =>
    obtain ⟨calls, hcalls, hcrash⟩ :=
      runFrom_crashed_iff (Resolved.of_read hread) Scope.empty ⟨state, []⟩
    have hfault := congrArg Run.fault? (untraced_tracedRun program state)
    have hinvocations : invocations program state = calls := hcalls
    simp only [hinvocations, ← hcrash crash, ← hfault]
    rfl

/-- A text whose calls do not crash is executed to its end or told what it did wrong, and no other
text is. There is no third kind of fault of a text (`execute_text_cases`). -/
theorem fault_of_history (registry : Registry (Native σ)) (s : String) (file : Option String)
    (scope : Scope) (state : σ) :
    ((execute registry (.text s) file scope state).fault? = none ∨
      ∃ diagnostic,
        (execute registry (.text s) file scope state).fault? = some (.script diagnostic)) ↔
    ∀ call ∈ history registry (.text s) file state,
      ∀ crash, call.result ≠ .error (.crashed crash) := by
  constructor
  · intro h call hmem crash hcall
    have hcrashed :=
      (execute_crashed_iff registry (.text s) file scope state crash).2 ⟨call, hmem, hcall⟩
    rcases h with h | ⟨diagnostic, h⟩ <;> rw [hcrashed] at h <;> cases h
  · intro h
    rcases execute_text_cases registry s file scope state with
      hnone | ⟨diagnostic, hscript, -⟩ | ⟨crash, hcrash, -⟩
    · exact .inl hnone
    · exact .inr ⟨diagnostic, hscript⟩
    · obtain ⟨call, hmem, hcall⟩ := (execute_crashed_iff ..).1 hcrash
      exact absurd hcall (h call hmem crash)

end ActivityScript.Script
