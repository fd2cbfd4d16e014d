import ActivityScript.Proofs.Script.Faults

/-!
# Invocations

Which functions a run calls, and how. A function can be made to note its own calls
(`Entry.traced`), so the calls of a run are what such functions have noted at its end, and no second
evaluator has to be trusted. Noting changes nothing else: a traced run is the run
(`untraced_tracedRun`).

The parser leaves resolved trees (`Resolved.of_parse`). For these, a property of the state and of
the calls so far holds at the end of a run if every call that the registry admits preserves it
(`Registry.Keeps.tracedRun`), whether the run succeeds or fails. `invocations_of_parse` is the first
use of this: functions are only called in the ways in which they are registered.
-/

namespace ActivityScript.Script

/-! ## Resolved trees -/

section Resolution

variable {φ : Type} {registry : Registry φ} {tokens line : List Token} {node : Node φ}

/-- The registry has the entry, and the entry takes `count` arguments. -/
def Registry.Admits (registry : Registry φ) (entry : Entry φ) (count : Nat) : Prop :=
  registry.find? entry.name = some entry ∧
    (count = entry.arity.required ∨ entry.arity.required < count ∧ entry.arity.rest = true)

/-- A call of the registry's entry for its name, with as many arguments as the entry takes, each of
them a name or a text. -/
inductive ResolvedCall (registry : Registry φ) : Node φ → Prop where
  | mk {location : Location} {name : String} {target : Entry φ} {arguments : List (Node φ)} :
      registry.find? name = some target → registry.Admits target arguments.length →
      (∀ argument ∈ arguments, argument.kind = .reference ∨ argument.kind = .literal) →
      ResolvedCall registry (.call location name target arguments)

/-- A resolved call, or an assignment of a text or of a resolved call. -/
inductive Resolved (registry : Registry φ) : Node φ → Prop where
  | call {node : Node φ} : ResolvedCall registry node → Resolved registry node
  | bindText {location at' : Location} {name text : String} :
      Resolved registry (.assignment location name (.literal at' text))
  | bindCall {location : Location} {name : String} {node : Node φ} :
      ResolvedCall registry node → Resolved registry (.assignment location name node)

/-- An entry is found under its own name. So the entry of a call tells how the function was
called. -/
theorem Registry.name_of_find? {name : String} {entry : Entry φ}
    (h : registry.find? name = some entry) : entry.name = name := by
  simpa using List.find?_some h

/-- A call that resolves is admitted: the entry is the registry's for its name, and it takes this
many arguments. -/
theorem Registry.Admits.of_resolve {location : Location} {name : String} {count : Nat}
    {entry : Entry φ} (h : registry.resolve location name count = .ok entry) :
    registry.find? name = some entry ∧ registry.Admits entry count := by
  obtain ⟨hfind, hadmits⟩ := Registry.resolve_eq_ok_iff.1 h
  refine ⟨hfind, by rw [Registry.name_of_find? hfind, hfind], ?_⟩
  simpa [Arity.admits] using hadmits

theorem ReadsArgument.kind {token : Token} (h : ReadsArgument token node) :
    node.kind = .reference ∨ node.kind = .literal := by
  cases h with
  | reference => exact .inl rfl
  | literal => exact .inr rfl

/-- The tree of a call is resolved, since the call had to resolve for the tree to be read. -/
theorem ResolvedCall.of_readsCall (h : ReadsCall registry line node) :
    ResolvedCall registry node := by
  obtain ⟨hargs, hres⟩ := h
  obtain ⟨hfind, hadmits⟩ := Registry.Admits.of_resolve hres
  refine ⟨hfind, hadmits, fun argument hmem => ?_⟩
  obtain ⟨token, -, hreads⟩ := exists_mem_of_forall₂ hargs argument hmem
  exact hreads.kind

/-- The tree of a statement is resolved: a call, or an assignment of a text or of a call. There are
no other statements. -/
theorem Resolved.of_reads (h : Reads registry line node) : Resolved registry node := by
  cases h with
  | call hcall => exact .call (.of_readsCall hcall)
  | bindText => exact .bindText
  | bindCall hcall => exact .bindCall (.of_readsCall hcall)

/-- The parser gives resolved trees only. Each tree was read from a line of the tokens
(`exists_reads_of_parse`). -/
theorem Resolved.of_parse {program : List (Node φ)} (h : parse registry tokens = .ok program) :
    ∀ node ∈ program, Resolved registry node := by
  intro node hnode
  obtain ⟨lines, -, hreads⟩ := exists_reads_of_parse h
  obtain ⟨line, -, hline⟩ := exists_mem_of_forall₂ hreads node hnode
  exact .of_reads hline

end Resolution

/-! ## Steps -/

section Steps

variable {σ ε α β : Type} {first : Step σ ε α} {second : α → Step σ ε β} {state middle : σ}

/-- Steps after a step that succeeds. They begin in the state that it has left, with the value that
it has given. -/
theorem run_bind_of_ok {value : α} (h : first.run.run state = (.ok value, middle)) :
    (first >>= second).run.run state = (second value).run.run middle := by
  rw [ExceptT.run_bind, StateT.run_bind, h]
  rfl

/-- No steps are taken after a step that fails. The state is the one that this step has left. -/
theorem run_bind_of_error {failure : ε} (h : first.run.run state = (.error failure, middle)) :
    (first >>= second).run.run state = (.error failure, middle) := by
  rw [ExceptT.run_bind, StateT.run_bind, h]
  rfl

end Steps

/-! ## Calls that are noted -/

section Tracing

variable {σ : Type}

/-- A call of a function: its arguments, what it gave, and the states before and after it. -/
structure Invocation (σ : Type) where
  entry : Entry (Native σ)
  arguments : List String
  before : σ
  result : Except Failure String
  after : σ

/-- A state and the calls that have led to it. -/
structure Traced (σ : Type) where
  state : σ
  calls : List (Invocation σ)

/-- The call of an entry in a state. -/
def Entry.invocation (entry : Entry (Native σ)) (arguments : List String) (state : σ) :
    Invocation σ :=
  let (result, after) := (entry.body arguments).run.run state
  ⟨entry, arguments, state, result, after⟩

/-- The state after a further call. -/
def Traced.call (traced : Traced σ) (entry : Entry (Native σ)) (arguments : List String) :
    Traced σ :=
  let invocation := entry.invocation arguments traced.state
  ⟨invocation.after, traced.calls ++ [invocation]⟩

/-- An entry whose function does the same as before and notes each of its calls. -/
def Entry.traced (entry : Entry (Native σ)) : Entry (Native (Traced σ)) where
  name := entry.name
  parameters := entry.parameters
  arity := entry.arity
  body arguments := fun traced =>
    ((entry.invocation arguments traced.state).result, traced.call entry arguments)

/-- A tree whose calls are noted. -/
def Node.traced (node : Node (Native σ)) : Node (Native (Traced σ)) :=
  node.map id Entry.traced

/-- A run in which calls are noted. -/
def tracedRun (program : List (Node (Native σ))) (state : σ) : Run (Traced σ) :=
  run (program.map Node.traced) ⟨state, []⟩

/-- The calls of a run, in order. -/
def invocations (program : List (Node (Native σ))) (state : σ) : List (Invocation σ) :=
  (tracedRun program state).state.calls

/-- A run without the notes. -/
def Run.untraced (run : Run (Traced σ)) : Run σ :=
  ⟨run.fault?, run.scope, run.state.state⟩

/-- Steps that do the same as others and may take notes. -/
def Notes {ε α : Type} (noting : Step (Traced σ) ε α) (plain : Step σ ε α) : Prop :=
  ∀ traced, Prod.map id Traced.state (noting.run.run traced) = plain.run.run traced.state

theorem Notes.pure {ε α : Type} (value : α) :
    Notes (pure value : Step (Traced σ) ε α) (pure value) :=
  fun _ => rfl

theorem Notes.throw {ε α : Type} (failure : ε) :
    Notes (throw failure : Step (Traced σ) ε α) (throw failure) :=
  fun _ => rfl

/-- Steps in sequence do the same as others in sequence if each does. The second ones begin in the
states that the first ones have left, and these are the same but for notes. -/
theorem Notes.bind {ε α β : Type} {noting : Step (Traced σ) ε α} {plain : Step σ ε α}
    {noting' : α → Step (Traced σ) ε β} {plain' : α → Step σ ε β} (h : Notes noting plain)
    (h' : ∀ value, Notes (noting' value) (plain' value)) :
    Notes (noting >>= noting') (plain >>= plain') := by
  intro traced
  have hfirst := h traced
  cases hrun : noting.run.run traced with
  | mk result middle =>
    rw [hrun] at hfirst
    cases result with
    | ok value =>
      rw [run_bind_of_ok hrun, run_bind_of_ok hfirst.symm]
      exact h' value middle
    | error failure =>
      rw [run_bind_of_error hrun, run_bind_of_error hfirst.symm]
      rfl

/-- A call whose function notes its calls gives and changes what the call does, also if it fails. -/
theorem Notes.invoke (location : Location) (entry : Entry (Native σ)) (arguments : List String) :
    Notes (invoke location entry.traced.body arguments) (invoke location entry.body arguments) := by
  intro traced
  rw [Script.invoke, Script.invoke, ExceptT.run_adapt, ExceptT.run_adapt, StateT.run_map,
    StateT.run_map]
  rfl

mutual

/-- A tree whose calls are noted has the value of the tree. Nothing but a call takes notes, so the
cases are put together from those of `Notes`. -/
theorem Notes.evaluate (scope : Scope) :
    (node : Node (Native σ)) → Notes (evaluate scope node.traced) (evaluate scope node)
  | .literal _ text => by
    rw [Node.traced, Node.map, Script.evaluate, Script.evaluate]
    exact .pure text
  | .reference location name => by
    rw [Node.traced, Node.map, Script.evaluate, Script.evaluate]
    split
    · exact .pure _
    · exact .throw _
  | .call location name target arguments => by
    rw [Node.traced, Node.map, Script.evaluate, Script.evaluate]
    exact .bind (Notes.evaluateAll scope arguments) fun values => .invoke location target values
  | .assignment .. => by
    rw [Node.traced, Node.map, Script.evaluate, Script.evaluate]
    exact .throw _
  | .empty _ => by
    rw [Node.traced, Node.map, Script.evaluate, Script.evaluate]
    exact .throw _

theorem Notes.evaluateAll (scope : Scope) :
    (nodes : List (Node (Native σ))) →
      Notes (evaluateAll scope (Node.mapAll id Entry.traced nodes)) (evaluateAll scope nodes)
  | [] => by
    rw [Node.mapAll, Script.evaluateAll, Script.evaluateAll]
    exact .pure _
  | node :: nodes => by
    rw [Node.mapAll, Script.evaluateAll, Script.evaluateAll]
    exact .bind (Notes.evaluate scope node) fun value =>
      .bind (Notes.evaluateAll scope nodes) fun values => .pure _

end

/-- A statement whose calls are noted binds what the statement binds, and fails as it does. -/
theorem Notes.runStatement (scope : Scope) (node : Node (Native σ)) :
    Notes (runStatement scope node.traced) (runStatement scope node) := by
  cases node with
  | assignment location name value =>
    exact .bind (.evaluate scope value) fun text => .pure (scope.set name text)
  | call | literal | reference | empty => exact .bind (.evaluate scope _) fun _ => .pure scope

/-- Statements whose calls are noted run as the statements do, from any scope and after any
calls. -/
theorem untraced_runFrom (scope : Scope) (traced : Traced σ) (program : List (Node (Native σ))) :
    (runFrom scope traced (program.map Node.traced)).untraced
      = runFrom scope traced.state program := by
  induction program generalizing scope traced with
  | nil => rfl
  | cons node program ih =>
    have hstep := Notes.runStatement scope node traced
    rw [List.map_cons, runFrom, runFrom, ← hstep]
    cases (Script.runStatement scope node.traced).run.run traced with
    | mk result middle =>
      cases result with
      | ok scope => exact ih scope middle
      | error fault => rfl

/-- Noting the calls of a run changes nothing of the run: neither its fault nor its scope nor its
state. So the calls that were noted are those of the run itself. -/
theorem untraced_tracedRun (program : List (Node (Native σ))) (state : σ) :
    (tracedRun program state).untraced = run program state :=
  untraced_runFrom Scope.empty ⟨state, []⟩ program

end Tracing

/-! ## What calls preserve, runs preserve -/

section Arguments

variable {σ : Type} (scope : Scope) {node : Node (Native σ)} {nodes : List (Node (Native σ))}

/-- A name or a text has a value, or the script is told that it has none, and the state does not
change. No function is called for it. -/
theorem run_evaluate_argument (h : node.kind = .reference ∨ node.kind = .literal) (state : σ) :
    (∃ diagnostic, (evaluate scope node).run.run state = (.error (.script diagnostic), state)) ∨
      ∃ value, (evaluate scope node).run.run state = (.ok value, state) := by
  cases node with
  | literal location text => exact .inr ⟨text, by rw [evaluate]; rfl⟩
  | reference location name =>
    rw [evaluate]
    split
    · exact .inr ⟨_, rfl⟩
    · exact .inl ⟨_, rfl⟩
  | assignment | call | empty => simp [Node.kind] at h

/-- Names and texts have as many values as there are, or the script is told that one of them has
none, and the state does not change. -/
theorem run_evaluateAll_arguments
    (h : ∀ node ∈ nodes, node.kind = .reference ∨ node.kind = .literal) (state : σ) :
    (∃ diagnostic,
      (evaluateAll scope nodes).run.run state = (.error (.script diagnostic), state)) ∨
      ∃ values, (evaluateAll scope nodes).run.run state = (.ok values, state) ∧
        values.length = nodes.length := by
  induction nodes with
  | nil => exact .inr ⟨[], by rw [evaluateAll]; rfl, rfl⟩
  | cons node nodes ih =>
    rw [evaluateAll]
    rcases run_evaluate_argument scope (h node List.mem_cons_self) state with
      ⟨diagnostic, hnode⟩ | ⟨value, hnode⟩
    · exact .inl ⟨diagnostic, run_bind_of_error hnode⟩
    · rw [run_bind_of_ok hnode]
      rcases ih fun n hn => h n (List.mem_cons_of_mem _ hn) with
        ⟨diagnostic, hnodes⟩ | ⟨values, hnodes, hlength⟩
      · exact .inl ⟨diagnostic, run_bind_of_error hnodes⟩
      · refine .inr ⟨value :: values, run_bind_of_ok hnodes, ?_⟩
        rw [List.length_cons, List.length_cons, hlength]

/-- Noting the calls of a tree does not change what kind of tree it is, so its arguments are names
and texts as before. -/
theorem Node.kind_traced (node : Node (Native σ)) : node.traced.kind = node.kind := by
  cases node <;> rw [Node.traced, Node.map] <;> rfl

/-- A call that is noted evaluates its arguments and then calls its function, which takes the
note. -/
theorem evaluate_traced_call (location : Location) (name : String) (target : Entry (Native σ))
    (arguments : List (Node (Native σ))) :
    evaluate scope (Node.traced (.call location name target arguments))
      = evaluateAll scope (arguments.map Node.traced) >>= invoke location target.traced.body := by
  rw [Node.traced, Node.map, evaluate, Node.mapAll_eq_map]
  rfl

/-- A function that notes its calls gives what the call gives and leaves the state after it, with
the call noted last. -/
theorem run_invoke_traced (location : Location) (entry : Entry (Native σ))
    (arguments : List String) (traced : Traced σ) :
    (invoke location entry.traced.body arguments).run.run traced
      = ((entry.invocation arguments traced.state).result.mapError (Failure.toFault location),
          traced.call entry arguments) := by
  rw [invoke, ExceptT.run_adapt, StateT.run_map]
  rfl

/-- A resolved call evaluates its arguments. The script is told if one of them has no value;
otherwise the call makes one call that the registry admits, and gives what that gives. -/
theorem ResolvedCall.run_evaluate_traced {registry : Registry (Native σ)}
    (h : ResolvedCall registry node) (traced : Traced σ) :
    (∃ diagnostic,
      (evaluate scope node.traced).run.run traced = (.error (.script diagnostic), traced)) ∨
    ∃ location entry arguments, registry.Admits entry arguments.length ∧
      (evaluate scope node.traced).run.run traced
        = ((entry.invocation arguments traced.state).result.mapError (Failure.toFault location),
            traced.call entry arguments) := by
  cases h with
  | @mk location name target arguments _ hadmits hargs =>
    rw [evaluate_traced_call]
    have hkinds : ∀ argument ∈ arguments.map Node.traced,
        argument.kind = .reference ∨ argument.kind = .literal := by
      intro argument hmem
      obtain ⟨original, horiginal, rfl⟩ := List.mem_map.1 hmem
      rw [Node.kind_traced]
      exact hargs original horiginal
    rcases run_evaluateAll_arguments scope hkinds traced with
      ⟨diagnostic, hfault⟩ | ⟨values, hvalues, hlength⟩
    · exact .inl ⟨diagnostic, run_bind_of_error hfault⟩
    · rw [List.length_map] at hlength
      refine .inr ⟨location, target, values, hlength ▸ hadmits, ?_⟩
      rw [run_bind_of_ok hvalues, run_invoke_traced]

end Arguments

section Preservation

variable {σ : Type} {registry : Registry (Native σ)} {P : Traced σ → Prop} {traced : Traced σ}
  {node : Node (Native σ)} {program : List (Node (Native σ))}

/-- Every call that the registry admits preserves `P`. -/
def Registry.Keeps (registry : Registry (Native σ)) (P : Traced σ → Prop) : Prop :=
  ∀ entry arguments, registry.Admits entry arguments.length →
    ∀ traced, P traced → P (traced.call entry arguments)

/-- A resolved call preserves what admitted calls preserve: it makes one of these, or it makes none
and changes nothing. -/
theorem Registry.Keeps.evaluate (hkeeps : registry.Keeps P) (hcall : ResolvedCall registry node)
    (scope : Scope) (h : P traced) : P ((evaluate scope node.traced).run.run traced).2 := by
  rcases hcall.run_evaluate_traced scope traced with
    ⟨diagnostic, hfault⟩ | ⟨location, entry, arguments, hadmits, hrun⟩
  · rw [hfault]
    exact h
  · rw [hrun]
    exact hkeeps entry arguments hadmits traced h

/-- What is made of the value of a step does not change the state, whether the step has succeeded or
not. -/
theorem run_bind_pure_state {σ ε α β : Type} (first : Step σ ε α) (f : α → β) (state : σ) :
    ((first >>= fun value => pure (f value)).run.run state).2 = (first.run.run state).2 := by
  cases hrun : first.run.run state with
  | mk result middle =>
    cases result with
    | ok value => rw [run_bind_of_ok hrun]; rfl
    | error failure => rw [run_bind_of_error hrun]

/-- A resolved statement preserves what admitted calls preserve. Binding a name changes the scope,
but not the state. -/
theorem Registry.Keeps.runStatement (hkeeps : registry.Keeps P) (hnode : Resolved registry node)
    (scope : Scope) (h : P traced) : P ((runStatement scope node.traced).run.run traced).2 := by
  cases hnode with
  | call hcall =>
    have hstate := hkeeps.evaluate hcall scope h
    obtain ⟨-, -, -⟩ := hcall
    rw [← run_bind_pure_state _ fun _ => scope] at hstate
    exact hstate
  | bindText => exact h
  | @bindCall location name node hcall =>
    have hstate := hkeeps.evaluate hcall scope h
    rw [← run_bind_pure_state _ fun value => scope.set name value] at hstate
    exact hstate

/-- Resolved statements preserve what admitted calls preserve, up to the end or to the first that
fails. The scope may be any, and changes from statement to statement. -/
theorem Registry.Keeps.runFrom (hkeeps : registry.Keeps P)
    (hprogram : ∀ node ∈ program, Resolved registry node) (scope : Scope) (h : P traced) :
    P (runFrom scope traced (program.map Node.traced)).state := by
  induction program generalizing scope traced with
  | nil => exact h
  | cons node program ih =>
    have hstep := hkeeps.runStatement (hprogram node List.mem_cons_self) scope h
    rw [List.map_cons, Script.runFrom]
    split
    · next hrun =>
      rw [hrun] at hstep
      exact ih (fun n hn => hprogram n (List.mem_cons_of_mem _ hn)) _ hstep
    · next hrun =>
      rw [hrun] at hstep
      exact hstep

/-- What holds before a run of resolved trees, and is preserved by every call that the registry
admits, holds at the end of the run, whether it succeeds or fails. -/
theorem Registry.Keeps.tracedRun (hkeeps : registry.Keeps P)
    (hprogram : ∀ node ∈ program, Resolved registry node) {state : σ} (h : P ⟨state, []⟩) :
    P (tracedRun program state).state :=
  hkeeps.runFrom hprogram Scope.empty h

/-- The calls of an execution, in order. There are none if the source cannot be read. -/
def history (registry : Registry (Native σ)) (source : Source) (file : Option String) (state : σ) :
    List (Invocation σ) :=
  match read registry source file with
  | .ok program => invocations program state
  | .error _ => []

/-- A source that can be read is a program of resolved trees, since reading is lexing and then
parsing. -/
theorem Resolved.of_read {source : Source} {file : Option String}
    (h : read registry source file = .ok program) : ∀ node ∈ program, Resolved registry node := by
  obtain ⟨tokens, -, hparse⟩ := exists_parse_of_read h
  exact .of_parse hparse

/-- What holds before an execution, and is preserved by every call that the registry admits, holds
at its end. An execution that cannot read its source makes no call and changes nothing. -/
theorem Registry.Keeps.execute (hkeeps : registry.Keeps P) (source : Source)
    (file : Option String) (scope : Scope) {state : σ} (h : P ⟨state, []⟩) :
    P ⟨(execute registry source file scope state).state,
      history registry source file state⟩ := by
  rw [Script.execute, history]
  cases hread : read registry source file with
  | error fault => exact h
  | ok program =>
    have hstate := congrArg Run.state (untraced_tracedRun program state)
    have hend := hkeeps.tracedRun (Resolved.of_read hread) h
    simp only [← hstate]
    exact hend

/-- The calls of a run of resolved trees are admitted. That all calls so far are admitted is what
each further call preserves. -/
theorem admits_of_mem_invocations (hprogram : ∀ node ∈ program, Resolved registry node)
    (state : σ) :
    ∀ call ∈ invocations program state, registry.Admits call.entry call.arguments.length := by
  have hkeeps : registry.Keeps fun traced =>
      ∀ call ∈ traced.calls, registry.Admits call.entry call.arguments.length := by
    intro entry arguments hadmits traced h call hcall
    rcases List.mem_append.1 hcall with hcall | hcall
    · exact h call hcall
    · rw [List.mem_singleton.1 hcall]
      exact hadmits
  exact hkeeps.tracedRun hprogram fun call hcall => absurd hcall List.not_mem_nil

/-- **Functions are called as they are registered.** Whatever the parser accepts consists of calls
and of assignments of texts and calls. Each call has the registry's entry for its name, as many
arguments as this entry takes, and only names and texts as arguments. So every call that a run of
the program makes, whether the run succeeds or fails, is a call of an entry of the registry with a
number of arguments that the entry takes. -/
theorem invocations_of_parse (registry : Registry (Native σ)) (tokens : List Token)
    (program : List (Node (Native σ))) (h : parse registry tokens = .ok program) :
    (∀ node ∈ program, Resolved registry node) ∧
    ∀ state, (tracedRun program state).untraced = run program state ∧
      ∀ call ∈ invocations program state, registry.Admits call.entry call.arguments.length := by
  have hprogram := Resolved.of_parse h
  refine ⟨hprogram, fun state => ⟨untraced_tracedRun program state, ?_⟩⟩
  exact admits_of_mem_invocations hprogram state

/-- The value of one call is an argument of the next, which fails: both calls are admitted. -/
theorem invocations_of_parse_failing :
    let join : Entry (Native Nat) :=
      ⟨"join", ["*texts"], ⟨0, true⟩, fun arguments => return String.join arguments⟩
    let fail : Entry (Native Nat) :=
      ⟨"fail", ["reason"], ⟨1, false⟩, fun _ => throw (.refused "no")⟩
    let tokens : List Token :=
      [⟨.identifier "x", ⟨0, 0, none⟩⟩, ⟨.equals, ⟨0, 2, none⟩⟩, ⟨.identifier "join", ⟨0, 4, none⟩⟩,
        ⟨.literal "a", ⟨0, 9, none⟩⟩, ⟨.literal "b", ⟨0, 12, none⟩⟩, ⟨.endOfLine, ⟨0, 14, none⟩⟩,
        ⟨.identifier "fail", ⟨1, 0, none⟩⟩, ⟨.identifier "x", ⟨1, 5, none⟩⟩,
        ⟨.endOfLine, ⟨1, 6, none⟩⟩, ⟨.endOfInput, ⟨2, 0, none⟩⟩]
    let program : List (Node (Native Nat)) :=
      [.assignment ⟨0, 0, none⟩ "x" (.call ⟨0, 4, none⟩ "join" join
          [.literal ⟨0, 9, none⟩ "a", .literal ⟨0, 12, none⟩ "b"]),
        .call ⟨1, 0, none⟩ "fail" fail [.reference ⟨1, 5, none⟩ "x"]]
    parse ⟨[join, fail]⟩ tokens = .ok program ∧
      (invocations program 0).map Invocation.arguments = [["a", "b"], ["ab"]] ∧
      ∀ call ∈ invocations program 0,
        Registry.Admits ⟨[join, fail]⟩ call.entry call.arguments.length := by
  intro join fail tokens program
  have hparse : parse ⟨[join, fail]⟩ tokens = .ok program := by
    rw [parse_eq_parseStatements _ (List.cons_ne_nil _ _), parseStatements_cons rfl rfl,
      parseStatements_cons rfl rfl, parseStatements]
    rfl
  exact ⟨hparse, by decide, ((invocations_of_parse _ tokens program hparse).2 0).2⟩

end Preservation

end ActivityScript.Script
