import ActivityScript.Proofs.Script.Invocations
import Mathlib.Data.List.Induction

/-!
# The meaning of programs

A parsed program, said without a scope: what a name stands for is what the most recent assignment of
that name has given. `Past` is the list of the statements that have run, each with its result, and
`Past.latest` reads names off it. `Runs` and `Fails` say what one further statement does after such
a past: which call it makes, with which arguments, and how it ends. `Ran` repeats `Runs`.

Every statement runs or fails (`Resolved.runs_or_fails`), so a program has run to its end or some
statement of it has failed (`exists_ran`). The scope of the interpreter agrees with the past
(`Scope.Agrees`), step by step (`Runs.run_traced`, `Fails.run_traced`) and so over whole runs
(`Ran.tracedRun`). `run_meaning` puts these together.
-/

namespace ActivityScript.Script

/-! ## Statements -/

section Statements

variable {φ : Type}

/-- The name that a statement binds. -/
def Node.bound? : Node φ → Option String
  | .assignment _ name _ => some name
  | .call .. | .literal .. | .reference .. | .empty _ => none

/-- The call of a statement: where its name stands, the function and the arguments. -/
def Node.call? : Node φ → Option (Location × Entry φ × List (Node φ))
  | .call location _ target arguments => some (location, target, arguments)
  | .assignment _ _ (.call location _ target arguments) => some (location, target, arguments)
  | .assignment .. | .literal .. | .reference .. | .empty _ => none

/-- The value of an argument, if `lookup` gives the values of names. -/
def Node.value? (lookup : String → Option String) : Node φ → Option String
  | .literal _ text => some text
  | .reference _ name => lookup name
  | .assignment .. | .call .. | .empty _ => none

/-- The names that statements bind. -/
def namesBoundBy (program : List (Node φ)) : List String :=
  program.filterMap Node.bound?

end Statements

/-! ## Scopes -/

namespace Scope

/-- A name that was bound has its new value, and the other names have the values they had. -/
theorem get?_set (scope : Scope) (name value other : String) :
    (scope.set name value).get? other = if other = name then some value else scope.get? other :=
  Association.lookup_put name other value scope.bindings

end Scope

/-! ## The past -/

section Past

variable {σ : Type}

/-- The statements that have run, in order, each with its result. -/
abbrev Past (σ : Type) := List (Node (Native σ) × String)

/-- The result of the most recent assignment of a name. -/
def Past.latest (past : Past σ) (name : String) : Option String :=
  (past.reverse.find? fun statement => statement.1.bound? = some name).map Prod.snd

/-- The statements that have run. -/
def Past.statements (past : Past σ) : List (Node (Native σ)) := past.map Prod.fst

/-- A scope that binds exactly the names that have been assigned, in the order of their first
assignments, each to the result of its last one. -/
structure Scope.Agrees (scope : Scope) (past : Past σ) : Prop where
  names : scope.bindings.map Prod.fst = (namesBoundBy past.statements).eraseDups
  values : ∀ name, scope.get? name = past.latest name

/-- What the statement `node` does after `past`, in `state`, if it succeeds: the calls it makes, its
result, and the state after it. -/
inductive Runs (past : Past σ) (state : σ) (node : Node (Native σ)) :
    List (Invocation σ) → String → σ → Prop where
  | text {location place : Location} {name text : String} :
      node = .assignment location name (.literal place text) → Runs past state node [] text state
  | call {location : Location} {entry : Entry (Native σ)} {arguments : List (Node (Native σ))}
      {values : List String} {result : String} :
      node.call? = some (location, entry, arguments) →
      arguments.map (Node.value? past.latest) = values.map some →
      (entry.invocation values state).result = .ok result →
      Runs past state node [entry.invocation values state] result
        (entry.invocation values state).after

/-- What the statement `node` does after `past`, in `state`, if it fails: the calls it makes, the
state after it and its fault. -/
inductive Fails (past : Past σ) (state : σ) (node : Node (Native σ)) :
    List (Invocation σ) → σ → Fault → Prop where
  /-- The first argument without a value is a name that has not been assigned. -/
  | undefined {location place : Location} {entry : Entry (Native σ)}
      {left right : List (Node (Native σ))} {name : String} :
      node.call? = some (location, entry, left ++ .reference place name :: right) →
      (∀ argument ∈ left, (argument.value? past.latest).isSome) → past.latest name = none →
      Fails past state node [] state (.script ⟨.undefinedVariable, place⟩)
  /-- The function refuses: the script is told, at the call, in the same words. -/
  | refused {location : Location} {entry : Entry (Native σ)} {arguments : List (Node (Native σ))}
      {values : List String} {message : String} :
      node.call? = some (location, entry, arguments) →
      arguments.map (Node.value? past.latest) = values.map some →
      (entry.invocation values state).result = .error (.refused message) →
      Fails past state node [entry.invocation values state] (entry.invocation values state).after
        (.script ⟨.activityFailed message, location⟩)
  /-- The function crashes: the crash stays what it is. -/
  | crashed {location : Location} {entry : Entry (Native σ)} {arguments : List (Node (Native σ))}
      {values : List String} {crash : Crash} :
      node.call? = some (location, entry, arguments) →
      arguments.map (Node.value? past.latest) = values.map some →
      (entry.invocation values state).result = .error (.crashed crash) →
      Fails past state node [entry.invocation values state] (entry.invocation values state).after
        (.crashed crash)

/-- Statements that have run one after the other from the state `start`: their calls, and the state
they have led to. -/
inductive Ran (start : σ) : Past σ → List (Invocation σ) → σ → Prop where
  | nil : Ran start [] [] start
  | concat {past : Past σ} {calls made : List (Invocation σ)} {state after : σ}
      {node : Node (Native σ)} {result : String} :
      Ran start past calls state → Runs past state node made result after →
      Ran start (past ++ [(node, result)]) (calls ++ made) after

variable {past : Past σ} {node : Node (Native σ)} {result : String} {scope : Scope}

/-- One more statement that has run is the last of the statements, whatever its result. -/
theorem Past.statements_concat (past : Past σ) (node : Node (Native σ)) (result : String) :
    Past.statements (past ++ [(node, result)]) = past.statements ++ [node] := by
  simp [Past.statements]

/-- A statement that binds no name leaves the names as they are. Its result is not kept under any
name. -/
theorem Past.latest_concat_of_none (h : node.bound? = none) (name : String) :
    Past.latest (past ++ [(node, result)]) name = past.latest name := by
  simp [Past.latest, h]

/-- A statement that binds a name is the most recent assignment of this name, and changes no other
one. -/
theorem Past.latest_concat_of_some {bound : String} (h : node.bound? = some bound) (name : String) :
    Past.latest (past ++ [(node, result)]) name
      = if name = bound then some result else past.latest name := by
  by_cases hname : name = bound
  · simp [Past.latest, h, hname]
  · have hne : bound ≠ name := fun heq => hname heq.symm
    simp [Past.latest, h, hname, hne]

theorem Scope.Agrees.empty : Scope.Agrees Scope.empty ([] : Past σ) :=
  ⟨rfl, fun _ => rfl⟩

/-- A statement that binds no name leaves scope and past in agreement, as it changes neither of them
for any name. -/
theorem Scope.Agrees.of_bound?_eq_none (h : scope.Agrees past) (hnode : node.bound? = none) :
    scope.Agrees (past ++ [(node, result)]) := by
  constructor
  · rw [h.names, Past.statements_concat]
    simp [namesBoundBy, hnode]
  · intro name
    rw [h.values, Past.latest_concat_of_none hnode]

/-- A statement that binds a name sets it in the scope. A name that was bound before keeps its place
in the order, as its first assignment counts. -/
theorem Scope.Agrees.set (h : scope.Agrees past) {name : String} (hnode : node.bound? = some name) :
    (scope.set name result).Agrees (past ++ [(node, result)]) := by
  constructor
  · rw [Scope.set, Association.map_fst_put, h.names, Past.statements_concat]
    have hnames : namesBoundBy (past.statements ++ [node])
        = namesBoundBy past.statements ++ [name] := by
      simp [namesBoundBy, hnode]
    rw [hnames, List.eraseDups_append]
    by_cases hmem : name ∈ namesBoundBy past.statements
    · simp [List.mem_eraseDups, hmem, List.removeAll]
    · simp [List.mem_eraseDups, hmem, List.removeAll, List.eraseDups_cons]
  · intro other
    rw [Scope.get?_set, h.values, Past.latest_concat_of_some hnode]

end Past

/-! ## Every statement runs or fails -/

section Totality

variable {φ σ : Type} {registry : Registry (Native σ)} {node : Node (Native σ)}

/-- Arguments have values, or the first that has none is a name. Texts have values always, and there
are no other arguments. -/
theorem arguments_cases (lookup : String → Option String) {arguments : List (Node φ)}
    (h : ∀ argument ∈ arguments, argument.kind = .reference ∨ argument.kind = .literal) :
    (∃ values : List String, arguments.map (Node.value? lookup) = values.map some) ∨
    ∃ left place name right, arguments = left ++ .reference place name :: right ∧
      (∀ argument ∈ left, (argument.value? lookup).isSome) ∧ lookup name = none := by
  induction arguments with
  | nil => exact .inl ⟨[], rfl⟩
  | cons argument arguments ih =>
    cases hvalue : argument.value? lookup with
    | some value =>
      rcases ih fun a ha => h a (List.mem_cons_of_mem _ ha) with
        ⟨values, hvalues⟩ | ⟨left, place, name, right, rfl, hleft, hname⟩
      · exact .inl ⟨value :: values, by rw [List.map_cons, List.map_cons, hvalue, hvalues]⟩
      · refine .inr ⟨argument :: left, place, name, right, rfl, ?_, hname⟩
        exact List.forall_mem_cons.2 ⟨by rw [hvalue]; rfl, hleft⟩
    | none =>
      cases argument with
      | literal => cases hvalue
      | reference place name =>
        exact .inr ⟨[], place, name, arguments, rfl, List.forall_mem_nil _, hvalue⟩
      | assignment | call | empty =>
        have hkind := h _ List.mem_cons_self
        simp [Node.kind] at hkind

/-- A statement with a call of names and texts runs or fails. If its arguments have values, the
result of the call decides. -/
theorem runs_or_fails_of_call? {location : Location} {entry : Entry (Native σ)}
    {arguments : List (Node (Native σ))} (hcall : node.call? = some (location, entry, arguments))
    (hargs : ∀ argument ∈ arguments, argument.kind = .reference ∨ argument.kind = .literal)
    (past : Past σ) (state : σ) :
    (∃ made result after, Runs past state node made result after) ∨
      ∃ made after fault, Fails past state node made after fault := by
  rcases arguments_cases past.latest hargs with
    ⟨values, hvalues⟩ | ⟨left, place, name, right, rfl, hleft, hname⟩
  · cases hresult : (entry.invocation values state).result with
    | ok result => exact .inl ⟨_, _, _, .call hcall hvalues hresult⟩
    | error failure =>
      cases failure with
      | refused message => exact .inr ⟨_, _, _, .refused hcall hvalues hresult⟩
      | crashed crash => exact .inr ⟨_, _, _, .crashed hcall hvalues hresult⟩
  · exact .inr ⟨_, _, _, .undefined hcall hleft hname⟩

/-- A resolved statement runs or fails, after any past and in any state. So what a program means is
never left open. -/
theorem Resolved.runs_or_fails (h : Resolved registry node) (past : Past σ) (state : σ) :
    (∃ made result after, Runs past state node made result after) ∨
      ∃ made after fault, Fails past state node made after fault := by
  cases h with
  | call hcall =>
    obtain ⟨-, -, hargs⟩ := hcall
    exact runs_or_fails_of_call? rfl hargs past state
  | bindText => exact .inl ⟨_, _, _, .text rfl⟩
  | bindCall hcall =>
    obtain ⟨-, -, hargs⟩ := hcall
    exact runs_or_fails_of_call? rfl hargs past state

/-- A program of resolved statements runs to its end, or up to a statement that fails. Once a
statement has failed, further statements do not matter. -/
theorem exists_ran {program : List (Node (Native σ))}
    (hprogram : ∀ node ∈ program, Resolved registry node) (start : σ) :
    ∃ past calls state, Ran start past calls state ∧
      (program = past.statements ∨
        ∃ node rest made after fault, program = past.statements ++ node :: rest ∧
          Fails past state node made after fault) := by
  -- From the end: the past of a longer program is that of the shorter one, or one statement more.
  induction program using List.reverseRecOn with
  | nil => exact ⟨[], [], start, .nil, .inl rfl⟩
  | append_singleton program last ih =>
    obtain ⟨past, calls, state, hran, hend⟩ :=
      ih fun node hnode => hprogram node (List.mem_append_left _ hnode)
    rcases hend with rfl | ⟨node, rest, made, after, fault, rfl, hfails⟩
    · have hlast := hprogram last (List.mem_append_right _ List.mem_cons_self)
      rcases hlast.runs_or_fails past state with
        ⟨made, result, after, hruns⟩ | ⟨made, after, fault, hfails⟩
      · refine ⟨_, _, _, hran.concat hruns, .inl ?_⟩
        rw [Past.statements_concat]
      · exact ⟨past, calls, state, hran, .inr ⟨last, [], made, after, fault, rfl, hfails⟩⟩
    · refine ⟨past, calls, state, hran, .inr ⟨node, rest ++ [last], made, after, fault, ?_, hfails⟩⟩
      rw [List.append_assoc, List.cons_append]

end Totality

/-! ## The interpreter -/

section Interpreter

variable {σ : Type} {scope scope' : Scope} {node : Node (Native σ)}

/-- The scope after a statement with a result. -/
def Scope.after (scope : Scope) (node : Node (Native σ)) (result : String) : Scope :=
  match node.bound? with
  | some name => scope.set name result
  | none => scope

/-- Scope and past agree after a statement if they have agreed before it, whether it binds a name or
not. -/
theorem Scope.Agrees.after {past : Past σ} (h : scope.Agrees past) (node : Node (Native σ))
    (result : String) : (scope.after node result).Agrees (past ++ [(node, result)]) := by
  rw [Scope.after.eq_def]
  cases hbound : node.bound? with
  | none => exact h.of_bound?_eq_none hbound
  | some name => exact h.set hbound

/-- An argument with a value has that value, and the state does not change. The scope gives the
values of names here. -/
theorem run_evaluate_of_value {value : String} (h : node.value? scope.get? = some value)
    (state : σ) : (evaluate scope node).run.run state = (.ok value, state) := by
  cases node with
  | literal place text =>
    cases h
    rw [evaluate]
    rfl
  | reference place name =>
    rw [Node.value?] at h
    rw [evaluate, h]
    rfl
  | assignment | call | empty => cases h

/-- Arguments with values have these values, from left to right, and the state does not change. -/
theorem run_evaluateAll_of_values {nodes : List (Node (Native σ))} {values : List String}
    (h : nodes.map (Node.value? scope.get?) = values.map some) (state : σ) :
    (evaluateAll scope nodes).run.run state = (.ok values, state) := by
  induction nodes generalizing values with
  | nil =>
    rw [List.map_eq_nil_iff.1 h.symm, evaluateAll]
    rfl
  | cons node nodes ih =>
    cases values with
    | nil => cases h
    | cons value values =>
      obtain ⟨hnode, hnodes⟩ := List.cons.inj h
      rw [evaluateAll, run_bind_of_ok (run_evaluate_of_value hnode state),
        run_bind_of_ok (ih hnodes)]
      rfl

/-- The first argument without a value ends the evaluation, and the state does not change. The
arguments after it are not looked at. -/
theorem run_evaluateAll_of_undefined {left right : List (Node (Native σ))} {place : Location}
    {name : String} (hleft : ∀ argument ∈ left, (argument.value? scope.get?).isSome)
    (hname : scope.get? name = none) (state : σ) :
    (evaluateAll scope (left ++ .reference place name :: right)).run.run state
      = (.error (.script ⟨.undefinedVariable, place⟩), state) := by
  induction left with
  | nil =>
    have hfault : (evaluate scope (.reference place name)).run.run state
        = (.error (.script ⟨.undefinedVariable, place⟩), state) := by
      rw [evaluate, hname]
      rfl
    rw [List.nil_append, evaluateAll, run_bind_of_error hfault]
  | cons argument left ih =>
    obtain ⟨hargument, hleft⟩ := List.forall_mem_cons.1 hleft
    obtain ⟨value, hvalue⟩ := Option.isSome_iff_exists.1 hargument
    rw [List.cons_append, evaluateAll, run_bind_of_ok (run_evaluate_of_value hvalue state),
      run_bind_of_error (ih hleft)]

/-- The value of an argument is the same if calls are noted, because names and texts make no
calls. -/
theorem Node.value?_traced (lookup : String → Option String) (node : Node (Native σ)) :
    node.traced.value? lookup = node.value? lookup := by
  cases node <;> rw [Node.traced, Node.map] <;> rfl

theorem map_value?_traced (lookup : String → Option String) (arguments : List (Node (Native σ))) :
    (arguments.map Node.traced).map (Node.value? lookup) = arguments.map (Node.value? lookup) := by
  rw [List.map_map]
  exact List.map_congr_left fun argument _ => Node.value?_traced lookup argument

/-- A statement with a call evaluates the arguments and makes the call. What happens to the result
then depends on whether the statement binds a name. -/
theorem runStatement_of_call? {location : Location} {entry : Entry (Native σ)}
    {arguments : List (Node (Native σ))} (h : node.call? = some (location, entry, arguments)) :
    runStatement scope node.traced
      = (evaluateAll scope (arguments.map Node.traced) >>= invoke location entry.traced.body)
          >>= fun result => pure (scope.after node result) := by
  cases node with
  | call =>
    cases h
    rw [← evaluate_traced_call]
    rfl
  | assignment place name value =>
    cases value with
    | call =>
      cases h
      rw [← evaluate_traced_call]
      rfl
    | assignment | literal | reference | empty => cases h
  | literal | reference | empty => cases h

variable {past : Past σ} {state after : σ} {made calls : List (Invocation σ)} {result : String}
  {fault : Fault}

/-- A statement that makes its call ends as the call does: with the scope after it, or with the
fault that the script is told. -/
theorem run_runStatement_of_values {location : Location} {entry : Entry (Native σ)}
    {arguments : List (Node (Native σ))} {values : List String} (hscope : scope.Agrees past)
    (hcall : node.call? = some (location, entry, arguments))
    (hvalues : arguments.map (Node.value? past.latest) = values.map some) (state : σ)
    (calls : List (Invocation σ)) :
    (runStatement scope node.traced).run.run ⟨state, calls⟩
      = (((entry.invocation values state).result.mapError (Failure.toFault location)).map
            (scope.after node),
          ⟨(entry.invocation values state).after, calls ++ [entry.invocation values state]⟩) := by
  have hlookup : (arguments.map Node.traced).map (Node.value? scope.get?) = values.map some := by
    rw [map_value?_traced, funext hscope.values, hvalues]
  have hinvoke := run_invoke_traced location entry values ⟨state, calls⟩
  rw [← run_bind_of_ok (run_evaluateAll_of_values hlookup ⟨state, calls⟩)] at hinvoke
  rw [runStatement_of_call? hcall]
  cases hresult : (entry.invocation values state).result with
  | ok result =>
    rw [hresult] at hinvoke
    exact run_bind_of_ok hinvoke
  | error failure =>
    rw [hresult] at hinvoke
    exact run_bind_of_error hinvoke

/-- A statement that runs, run by the interpreter: the scope is the one after it, and its calls are
noted after those before. -/
theorem Runs.run_traced (h : Runs past state node made result after) (hscope : scope.Agrees past)
    (calls : List (Invocation σ)) :
    (runStatement scope node.traced).run.run ⟨state, calls⟩
      = (.ok (scope.after node result), ⟨after, calls ++ made⟩) := by
  cases h with
  | text hnode =>
    rw [hnode, List.append_nil]
    rfl
  | call hcall hvalues hresult =>
    rw [run_runStatement_of_values hscope hcall hvalues, hresult]
    rfl

/-- A statement that fails, run by the interpreter: the fault is the one that was said, and its
calls, if any, are noted after those before. -/
theorem Fails.run_traced (h : Fails past state node made after fault)
    (hscope : scope.Agrees past) (calls : List (Invocation σ)) :
    (runStatement scope node.traced).run.run ⟨state, calls⟩
      = (.error fault, ⟨after, calls ++ made⟩) := by
  cases h with
  | @undefined location place entry left right name hcall hleft hname =>
    have hleft' : ∀ argument ∈ left.map Node.traced, (argument.value? scope.get?).isSome := by
      intro argument hmem
      obtain ⟨original, horiginal, rfl⟩ := List.mem_map.1 hmem
      rw [Node.value?_traced, funext hscope.values]
      exact hleft original horiginal
    have hname' : scope.get? name = none := by rw [hscope.values, hname]
    have harguments : (left ++ .reference place name :: right).map Node.traced
        = left.map Node.traced ++ .reference place name :: right.map Node.traced := by
      rw [List.map_append, List.map_cons, Node.traced.eq_def (.reference place name), Node.map]
      rfl
    rw [runStatement_of_call? hcall, harguments, List.append_nil]
    exact run_bind_of_error (run_bind_of_error (run_evaluateAll_of_undefined hleft' hname' _))
  | refused hcall hvalues hresult =>
    rw [run_runStatement_of_values hscope hcall hvalues, hresult]
    rfl
  | crashed hcall hvalues hresult =>
    rw [run_runStatement_of_values hscope hcall hvalues, hresult]
    rfl

/-- A run goes on after statements that succeed, with the scope and the state that these have
left. -/
theorem runFrom_append_of_none {first second : List (Node (Native σ))} {middle : σ}
    (h : runFrom scope state first = ⟨none, scope', middle⟩) :
    runFrom scope state (first ++ second) = runFrom scope' middle second := by
  induction first generalizing scope state with
  | nil =>
    cases h
    rfl
  | cons node first ih =>
    rw [runFrom] at h
    rw [List.cons_append, runFrom]
    cases hstep : (runStatement scope node).run.run state with
    | mk outcome next =>
      rw [hstep] at h
      cases outcome with
      | ok reached => exact ih h
      | error fault => cases h

/-- What a traced run says of the run: the same fault, scope and state, and which calls were
made. -/
theorem run_of_tracedRun {program : List (Node (Native σ))} {start : σ} {fault? : Option Fault}
    (h : tracedRun program start = ⟨fault?, scope, ⟨state, calls⟩⟩) :
    run program start = ⟨fault?, scope, state⟩ ∧ invocations program start = calls := by
  rw [← untraced_tracedRun, invocations, h]
  exact ⟨rfl, rfl⟩

/-- Statements that have run, run by the interpreter. The scope at the end agrees with the past,
which is what each further statement needs. -/
theorem Ran.tracedRun {start : σ} (h : Ran start past calls state) :
    ∃ scope, scope.Agrees past ∧
      tracedRun past.statements start = ⟨none, scope, ⟨state, calls⟩⟩ := by
  induction h with
  | nil => exact ⟨.empty, .empty, rfl⟩
  | @concat past calls made state after node result _ hruns ih =>
    obtain ⟨scope, hscope, hrun⟩ := ih
    refine ⟨scope.after node result, hscope.after node result, ?_⟩
    rw [Past.statements_concat, Script.tracedRun, run, List.map_append,
      runFrom_append_of_none hrun, List.map_singleton, runFrom, hruns.run_traced hscope]
    rfl

/-- A run up to a statement that fails: it ends with the scope of the statements before, and what
comes after the statement does not run. -/
theorem Fails.tracedRun {start : σ} (h : Fails past state node made after fault)
    (hscope : scope.Agrees past)
    (hrun : tracedRun past.statements start = ⟨none, scope, ⟨state, calls⟩⟩)
    (rest : List (Node (Native σ))) :
    tracedRun (past.statements ++ node :: rest) start
      = ⟨some fault, scope, ⟨after, calls ++ made⟩⟩ := by
  rw [Script.tracedRun, run, List.map_append, runFrom_append_of_none hrun, List.map_cons, runFrom,
    h.run_traced hscope]

end Interpreter

end ActivityScript.Script
