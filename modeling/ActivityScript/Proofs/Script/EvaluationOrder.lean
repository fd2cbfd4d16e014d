import ActivityScript.Proofs.Script.Meaning

/-!
# The order of evaluation

What a run does with arbitrary trees, also with those that no text gives: calls inside calls to any
depth, and nodes without a value where a value is needed. A node of a program is told by the way to
it (`Occurrence`). `visitsOf` lists the nodes in the order in which a run comes to them, and
`callsOf` the calls in postorder; the calls among the visits are the calls in postorder
(`filter_isCall_visitsOf`).

A run makes its visits in this order. `Evaluated` says of visits that have been made how each got
its value from earlier ones and which calls were made, `Stops` why a visit can end a run. Every step
of the interpreter advances in this way (`Advances`): steps in sequence (`Advances.bind`), the
evaluation of a tree (`Advances.evaluate`), a statement and so a run (`exists_evaluated`).
`evaluation_order` puts this together.
-/

namespace ActivityScript.Script

/-! ## Traversals -/

section Traversals

variable {φ : Type}

/-- A node of a program and the way to it: the number of its statement, then the number of an
argument for each call that is entered. The value of an assignment is number 0. -/
structure Occurrence (φ : Type) where
  path : List Nat
  node : Node φ

def Occurrence.isCall (occurrence : Occurrence φ) : Bool :=
  occurrence.node.kind = .call

mutual

/-- The nodes of a tree at `path` in the order in which an evaluation comes to them. It comes to a
call when the arguments have their values, and to an assignment before its value: it never gets any
further there. -/
def Node.visits (path : List Nat) : Node φ → List (Occurrence φ)
  | .assignment place name value =>
    ⟨path, .assignment place name value⟩ :: value.visits (path ++ [0])
  | .call place name target arguments =>
    Node.visitsAll path 0 arguments ++ [⟨path, .call place name target arguments⟩]
  | .literal place text => [⟨path, .literal place text⟩]
  | .reference place name => [⟨path, .reference place name⟩]
  | .empty place => [⟨path, .empty place⟩]

/-- The nodes of trees below `path`, the first of which has the number `first`. -/
def Node.visitsAll (path : List Nat) (first : Nat) : List (Node φ) → List (Occurrence φ)
  | [] => []
  | node :: nodes => node.visits (path ++ [first]) ++ Node.visitsAll path (first + 1) nodes

end

mutual

/-- The nodes of a tree at `path` in postorder, from left to right. -/
def Node.postorder (path : List Nat) : Node φ → List (Occurrence φ)
  | .assignment place name value =>
    value.postorder (path ++ [0]) ++ [⟨path, .assignment place name value⟩]
  | .call place name target arguments =>
    Node.postorderAll path 0 arguments ++ [⟨path, .call place name target arguments⟩]
  | .literal place text => [⟨path, .literal place text⟩]
  | .reference place name => [⟨path, .reference place name⟩]
  | .empty place => [⟨path, .empty place⟩]

def Node.postorderAll (path : List Nat) (first : Nat) : List (Node φ) → List (Occurrence φ)
  | [] => []
  | node :: nodes => node.postorder (path ++ [first]) ++ Node.postorderAll path (first + 1) nodes

end

/-- The nodes of statement number `index` in the order of evaluation. A statement that is an
assignment has its value evaluated. -/
def Node.statementVisits (index : Nat) : Node φ → List (Occurrence φ)
  | .assignment _ _ value => value.visits [index, 0]
  | node => node.visits [index]

/-- The nodes of statements in the order of evaluation, the first statement having the number
`first`. -/
def visitsFrom (first : Nat) : List (Node φ) → List (Occurrence φ)
  | [] => []
  | node :: nodes => node.statementVisits first ++ visitsFrom (first + 1) nodes

/-- The nodes of a program in the order of evaluation. -/
def visitsOf (program : List (Node φ)) : List (Occurrence φ) :=
  visitsFrom 0 program

/-- The calls of a program in postorder, from left to right, statement by statement. -/
def callsOf (program : List (Node φ)) : List (Occurrence φ) :=
  (Node.postorderAll [] 0 program).filter Occurrence.isCall

mutual

/-- The calls of a tree are visited in postorder. The order of visits differs from postorder for
assignments only, and these are no calls. -/
theorem Node.filter_isCall_visits (path : List Nat) :
    (node : Node φ) → (node.visits path).filter Occurrence.isCall
      = (node.postorder path).filter Occurrence.isCall
  | .assignment place name value => by
    rw [Node.visits, Node.postorder, List.filter_append,
      ← Node.filter_isCall_visits (path ++ [0]) value]
    exact (List.append_nil _).symm
  | .call place name target arguments => by
    rw [Node.visits, Node.postorder, List.filter_append, List.filter_append,
      Node.filter_isCall_visitsAll path 0 arguments]
  | .literal .. | .reference .. | .empty _ => by rw [Node.visits, Node.postorder]

theorem Node.filter_isCall_visitsAll (path : List Nat) (first : Nat) :
    (nodes : List (Node φ)) → (Node.visitsAll path first nodes).filter Occurrence.isCall
      = (Node.postorderAll path first nodes).filter Occurrence.isCall
  | [] => by rw [Node.visitsAll, Node.postorderAll]
  | node :: nodes => by
    rw [Node.visitsAll, Node.postorderAll, List.filter_append, List.filter_append,
      Node.filter_isCall_visits (path ++ [first]) node,
      Node.filter_isCall_visitsAll path (first + 1) nodes]

end

/-- The calls of a statement are visited in postorder. An assignment that is a statement is not
visited itself, only its value is. -/
theorem Node.filter_isCall_statementVisits (index : Nat) (node : Node φ) :
    (node.statementVisits index).filter Occurrence.isCall
      = (node.postorder [index]).filter Occurrence.isCall := by
  cases node with
  | assignment place name value =>
    rw [Node.statementVisits, Node.filter_isCall_visits, Node.postorder, List.filter_append]
    exact (List.append_nil _).symm
  | call | literal | reference | empty => exact Node.filter_isCall_visits [index] _

/-- An evaluation comes to the calls in postorder, statement by statement. So the calls that are
made can be told without a run. -/
theorem filter_isCall_visitsOf (program : List (Node φ)) :
    (visitsOf program).filter Occurrence.isCall = callsOf program := by
  have hfrom (first : Nat) : (visitsFrom first program).filter Occurrence.isCall
      = (Node.postorderAll [] first program).filter Occurrence.isCall := by
    induction program generalizing first with
    | nil => rw [visitsFrom, Node.postorderAll]
    | cons node nodes ih =>
      rw [visitsFrom, Node.postorderAll, List.filter_append, List.filter_append, ih,
        Node.filter_isCall_statementVisits]
      rfl
  exact hfrom 0

end Traversals

/-! ## Enclosing calls come last -/

section Paths

variable {φ : Type}

/-- The ways to nodes below different arguments are not parts of each other: they differ in the
number of the argument. -/
theorem not_isPrefix_of_siblings (path : List Nat) {left right : List Nat} {i j : Nat}
    (hne : i ≠ j) (hleft : path ++ [i] <+: left) (hright : path ++ [j] <+: right) :
    ¬left <+: right := by
  intro h
  have hsame : path ++ [i] <+: path ++ [j] :=
    List.prefix_of_prefix_length_le (hleft.trans h) hright (by simp)
  have heq := hsame.eq_of_length (by simp)
  exact hne (by simpa using heq)

mutual

/-- The nodes of a tree at `path` are at `path` or below it. So the first part of a way tells in
which tree a node is. -/
theorem Node.isPrefix_of_mem_visits (path : List Nat) :
    (node : Node φ) → ∀ occurrence ∈ node.visits path, path <+: occurrence.path
  | .assignment place name value => by
    intro occurrence hmem
    rw [Node.visits] at hmem
    rcases List.mem_cons.1 hmem with rfl | hmem
    · exact List.prefix_refl path
    · have hbelow := Node.isPrefix_of_mem_visits (path ++ [0]) value occurrence hmem
      exact (List.prefix_append path [0]).trans hbelow
  | .call place name target arguments => by
    intro occurrence hmem
    rw [Node.visits] at hmem
    rcases List.mem_append.1 hmem with hmem | hmem
    · obtain ⟨i, -, hbelow⟩ := Node.isPrefix_of_mem_visitsAll path 0 arguments occurrence hmem
      exact (List.prefix_append path [i]).trans hbelow
    · cases List.mem_singleton.1 hmem
      exact List.prefix_refl path
  | .literal .. | .reference .. | .empty _ => by
    intro occurrence hmem
    rw [Node.visits] at hmem
    cases List.mem_singleton.1 hmem
    exact List.prefix_refl path

/-- The nodes of trees below `path` are below one of the numbers that the trees have, which are
counted from `first`. -/
theorem Node.isPrefix_of_mem_visitsAll (path : List Nat) (first : Nat) :
    (nodes : List (Node φ)) → ∀ occurrence ∈ Node.visitsAll path first nodes,
      ∃ i, first ≤ i ∧ path ++ [i] <+: occurrence.path
  | [] => by
    intro occurrence hmem
    rw [Node.visitsAll] at hmem
    cases hmem
  | node :: nodes => by
    intro occurrence hmem
    rw [Node.visitsAll] at hmem
    rcases List.mem_append.1 hmem with hmem | hmem
    · exact ⟨first, Nat.le_refl _, Node.isPrefix_of_mem_visits _ node occurrence hmem⟩
    · obtain ⟨i, hi, hbelow⟩ :=
        Node.isPrefix_of_mem_visitsAll path (first + 1) nodes occurrence hmem
      exact ⟨i, Nat.le_of_succ_le hi, hbelow⟩

end

/-- The nodes of a statement are below its number, also if it is an assignment and only its value is
visited. -/
theorem Node.isPrefix_of_mem_statementVisits (index : Nat) (node : Node φ) :
    ∀ occurrence ∈ node.statementVisits index, [index] <+: occurrence.path := by
  intro occurrence hmem
  cases node with
  | assignment place name value =>
    have hbelow := Node.isPrefix_of_mem_visits [index, 0] value occurrence hmem
    exact (List.prefix_append [index] [0]).trans hbelow
  | call | literal | reference | empty => exact Node.isPrefix_of_mem_visits [index] _ _ hmem

/-- The nodes of statements are below the numbers of the statements, which are counted from
`first`. -/
theorem isPrefix_of_mem_visitsFrom (first : Nat) (program : List (Node φ)) :
    ∀ occurrence ∈ visitsFrom first program, ∃ i, first ≤ i ∧ [i] <+: occurrence.path := by
  induction program generalizing first with
  | nil =>
    intro occurrence hmem
    cases hmem
  | cons node nodes ih =>
    intro occurrence hmem
    rcases List.mem_append.1 hmem with hmem | hmem
    · exact ⟨first, Nat.le_refl _, Node.isPrefix_of_mem_statementVisits first node _ hmem⟩
    · obtain ⟨i, hi, hbelow⟩ := ih (first + 1) occurrence hmem
      exact ⟨i, Nat.le_of_succ_le hi, hbelow⟩

/-- The nodes are different, and the first one, if it is a call, is not around the second one. -/
def Occurrence.DoesNotEnclose (first second : Occurrence φ) : Prop :=
  first.path ≠ second.path ∧ (first.isCall = true → ¬first.path <+: second.path)

/-- A node whose way is no part of the way to another one is another node, and not around it. -/
theorem Occurrence.DoesNotEnclose.of_not_isPrefix {first second : Occurrence φ}
    (h : ¬first.path <+: second.path) : first.DoesNotEnclose second :=
  ⟨fun heq => h (heq ▸ List.prefix_refl first.path), fun _ => h⟩

/-- The way to a node is no part of the way to the call around it, since it is longer. -/
theorem not_isPrefix_of_below {path below : List Nat} {i : Nat} (h : path ++ [i] <+: below) :
    ¬below <+: path := by
  intro hprefix
  have hlength := (h.trans hprefix).length_le
  rw [List.length_append, List.length_singleton] at hlength
  exact Nat.not_succ_le_self _ hlength

mutual

/-- An evaluation comes to the calls around a node after the node. It comes to an assignment first,
but never further, and an assignment is no call. -/
theorem Node.pairwise_visits (path : List Nat) :
    (node : Node φ) → (node.visits path).Pairwise Occurrence.DoesNotEnclose
  | .assignment place name value => by
    rw [Node.visits]
    refine List.pairwise_cons.2 ⟨?_, Node.pairwise_visits (path ++ [0]) value⟩
    intro below hbelow
    have hpath := Node.isPrefix_of_mem_visits (path ++ [0]) value below hbelow
    refine ⟨fun heq => not_isPrefix_of_below hpath (heq ▸ List.prefix_refl path), ?_⟩
    intro hcall
    cases hcall
  | .call place name target arguments => by
    rw [Node.visits]
    refine List.pairwise_append.2
      ⟨Node.pairwise_visitsAll path 0 arguments, List.pairwise_singleton _ _, ?_⟩
    intro below hbelow self hself
    obtain ⟨i, -, hpath⟩ := Node.isPrefix_of_mem_visitsAll path 0 arguments below hbelow
    rw [List.mem_singleton.1 hself]
    exact .of_not_isPrefix (not_isPrefix_of_below hpath)
  | .literal .. | .reference .. | .empty _ => by
    rw [Node.visits]
    exact List.pairwise_singleton _ _

theorem Node.pairwise_visitsAll (path : List Nat) (first : Nat) :
    (nodes : List (Node φ)) →
      (Node.visitsAll path first nodes).Pairwise Occurrence.DoesNotEnclose
  | [] => by
    rw [Node.visitsAll]
    exact List.Pairwise.nil
  | node :: nodes => by
    rw [Node.visitsAll]
    refine List.pairwise_append.2 ⟨Node.pairwise_visits (path ++ [first]) node,
      Node.pairwise_visitsAll path (first + 1) nodes, ?_⟩
    intro left hleft right hright
    obtain ⟨i, hi, hpath⟩ := Node.isPrefix_of_mem_visitsAll path (first + 1) nodes right hright
    have hnode := Node.isPrefix_of_mem_visits (path ++ [first]) node left hleft
    exact .of_not_isPrefix (not_isPrefix_of_siblings path (Nat.ne_of_lt hi) hnode hpath)

end

/-- A run comes to no call around a node before the node. Two nodes of different statements are not
around each other. -/
theorem pairwise_visitsOf (program : List (Node φ)) :
    (visitsOf program).Pairwise Occurrence.DoesNotEnclose := by
  have hfrom (first : Nat) : (visitsFrom first program).Pairwise Occurrence.DoesNotEnclose := by
    induction program generalizing first with
    | nil => exact List.Pairwise.nil
    | cons node nodes ih =>
      refine List.pairwise_append.2 ⟨?_, ih (first + 1), ?_⟩
      · cases node with
        | assignment place name value => exact Node.pairwise_visits [first, 0] value
        | call | literal | reference | empty => exact Node.pairwise_visits [first] _
      · intro left hleft right hright
        obtain ⟨i, hi, hpath⟩ := isPrefix_of_mem_visitsFrom (first + 1) nodes right hright
        have hnode := Node.isPrefix_of_mem_statementVisits first node left hleft
        exact .of_not_isPrefix (not_isPrefix_of_siblings [] (Nat.ne_of_lt hi) hnode hpath)
  exact hfrom 0

/-- No node is visited twice, since of two visits the first is to another node than the second
(`pairwise_visitsOf`). -/
theorem nodup_visitsOf (program : List (Node φ)) :
    ((visitsOf program).map Occurrence.path).Nodup :=
  List.pairwise_map.2 ((pairwise_visitsOf program).imp fun h => h.1)

variable {program : List (Node φ)} {visited later : List (Occurrence φ)}

/-- The calls of the first visits come first in postorder. So what was called before a fault is a
beginning of all calls. -/
theorem callsOf_of_visitsOf (h : visitsOf program = visited ++ later) :
    callsOf program
      = visited.filter Occurrence.isCall ++ later.filter Occurrence.isCall := by
  rw [← filter_isCall_visitsOf, h, List.filter_append]

/-- None of the visits before a node are to calls around it, so these calls are not made if the node
fails. -/
theorem doesNotEnclose_of_visitsOf {failing : Occurrence φ}
    (h : visitsOf program = visited ++ failing :: later) :
    ∀ occurrence ∈ visited, occurrence.DoesNotEnclose failing := by
  have hpairwise := pairwise_visitsOf program
  rw [h] at hpairwise
  obtain ⟨-, -, hacross⟩ := List.pairwise_append.1 hpairwise
  exact fun occurrence hmem => hacross occurrence hmem failing List.mem_cons_self

end Paths

/-! ## Visits -/

section Visits

variable {σ : Type}

/-- A node that has been evaluated, with its value. -/
structure Visit (σ : Type) where
  occurrence : Occurrence (Native σ)
  value : String

/-- The arguments of a call at `path`, the first of them having the number `first`. -/
def argumentsAt (path : List Nat) (first : Nat) (arguments : List (Node (Native σ))) :
    List (Occurrence (Native σ)) :=
  (arguments.zipIdx first).map fun (argument, number) => ⟨path ++ [number], argument⟩

/-- The nodes have been evaluated to the values. -/
def HaveValues (done : List (Visit σ)) (occurrences : List (Occurrence (Native σ)))
    (values : List String) : Prop :=
  List.Forall₂ (fun occurrence value => ⟨occurrence, value⟩ ∈ done) occurrences values

/-- Visits that have been made one after the other from the state `start`: the calls that they have
made, and the state they have led to. `scopes` gives the scope of each statement. -/
inductive Evaluated (scopes : Nat → Scope) (start : σ) :
    List (Visit σ) → List (Invocation σ) → σ → Prop where
  | nil : Evaluated scopes start [] [] start
  | literal {done : List (Visit σ)} {calls : List (Invocation σ)} {state : σ} {path : List Nat}
      {place : Location} {text : String} :
      Evaluated scopes start done calls state →
      Evaluated scopes start (done ++ [⟨⟨path, .literal place text⟩, text⟩]) calls state
  | reference {done : List (Visit σ)} {calls : List (Invocation σ)} {state : σ} {index : Nat}
      {path : List Nat} {place : Location} {name value : String} :
      Evaluated scopes start done calls state → (scopes index).get? name = some value →
      Evaluated scopes start (done ++ [⟨⟨index :: path, .reference place name⟩, value⟩]) calls state
  /-- A call is made when all of its arguments have been evaluated, with their values. -/
  | call {done : List (Visit σ)} {calls : List (Invocation σ)} {state : σ} {path : List Nat}
      {place : Location} {name value : String} {target : Entry (Native σ)}
      {arguments : List (Node (Native σ))} {values : List String} :
      Evaluated scopes start done calls state →
      HaveValues done (argumentsAt path 0 arguments) values →
      (target.invocation values state).result = .ok value →
      Evaluated scopes start (done ++ [⟨⟨path, .call place name target arguments⟩, value⟩])
        (calls ++ [target.invocation values state]) (target.invocation values state).after

/-- Why a node ends a run that has come to it after the visits `done`, in `state`: the call that it
still makes, the state after that, and the fault. -/
inductive Stops (scopes : Nat → Scope) (done : List (Visit σ)) (state : σ) :
    Occurrence (Native σ) → List (Invocation σ) → σ → Fault → Prop where
  | undefined {index : Nat} {path : List Nat} {place : Location} {name : String} :
      (scopes index).get? name = none →
      Stops scopes done state ⟨index :: path, .reference place name⟩ [] state
        (.script ⟨.undefinedVariable, place⟩)
  /-- The node has no value. -/
  | misplaced {path : List Nat} {node : Node (Native σ)} :
      node.kind = .assignment ∨ node.kind = .empty →
      Stops scopes done state ⟨path, node⟩ [] state (.notEvaluable node.kind)
  | refused {path : List Nat} {place : Location} {name message : String}
      {target : Entry (Native σ)} {arguments : List (Node (Native σ))} {values : List String} :
      HaveValues done (argumentsAt path 0 arguments) values →
      (target.invocation values state).result = .error (.refused message) →
      Stops scopes done state ⟨path, .call place name target arguments⟩
        [target.invocation values state] (target.invocation values state).after
        (.script ⟨.activityFailed message, place⟩)
  | crashed {path : List Nat} {place : Location} {name : String} {crash : Crash}
      {target : Entry (Native σ)} {arguments : List (Node (Native σ))} {values : List String} :
      HaveValues done (argumentsAt path 0 arguments) values →
      (target.invocation values state).result = .error (.crashed crash) →
      Stops scopes done state ⟨path, .call place name target arguments⟩
        [target.invocation values state] (target.invocation values state).after (.crashed crash)

/-- The node is a call of the function that was called, with as many arguments. -/
def Occurrence.Makes (occurrence : Occurrence (Native σ)) (call : Invocation σ) : Prop :=
  ∃ place name arguments, occurrence.node = .call place name call.entry arguments ∧
    call.arguments.length = arguments.length

variable {scopes : Nat → Scope} {start state after : σ} {done : List (Visit σ)}
  {calls made : List (Invocation σ)} {occurrence : Occurrence (Native σ)} {fault : Fault}

/-- A call that is made with the values of its arguments has as many values as arguments, and it
calls the function of the node. -/
theorem makes_of_haveValues {path : List Nat} {place : Location} {name : String}
    {target : Entry (Native σ)} {arguments : List (Node (Native σ))} {values : List String}
    (h : HaveValues done (argumentsAt path 0 arguments) values) (state : σ) :
    Occurrence.Makes ⟨path, .call place name target arguments⟩
      (target.invocation values state) := by
  have hlength : (argumentsAt path 0 arguments).length = values.length := List.Forall₂.length_eq h
  rw [argumentsAt, List.length_map, List.length_zipIdx] at hlength
  exact ⟨place, name, arguments, rfl, hlength.symm⟩

/-- The calls of visits are those of the calls among them, in order. Visits to names and texts make
no call. -/
theorem Evaluated.forall₂_makes (h : Evaluated scopes start done calls state) :
    List.Forall₂ Occurrence.Makes ((done.map Visit.occurrence).filter Occurrence.isCall) calls := by
  induction h with
  | nil => exact .nil
  | literal _ ih | reference _ _ ih =>
    rw [List.map_append, List.filter_append]
    exact (List.append_nil _).symm ▸ ih
  | @call _ _ state _ _ _ _ _ _ _ _ hvalues _ ih =>
    rw [List.map_append, List.filter_append]
    exact List.rel_append ih (.cons (makes_of_haveValues hvalues state) .nil)

/-- A node that ends a run makes its call if it is one, and no call otherwise. A call is made even
if its function then fails. -/
theorem Stops.forall₂_makes (h : Stops scopes done state occurrence made after fault) :
    List.Forall₂ Occurrence.Makes ([occurrence].filter Occurrence.isCall) made := by
  cases h with
  | undefined => exact .nil
  | @misplaced path node hkind =>
    have hnot : Occurrence.isCall ⟨path, node⟩ = false := by
      rcases hkind with hkind | hkind <;> simp [Occurrence.isCall, hkind]
    rw [List.filter_cons_of_neg (by rw [hnot]; exact Bool.false_ne_true)]
    exact .nil
  | refused hvalues | crashed hvalues => exact .cons (makes_of_haveValues hvalues state) .nil

end Visits

/-! ## The interpreter -/

section Interpreter

variable {σ α β : Type} {scopes : Nat → Scope} {start state : σ} {done : List (Visit σ)}
  {calls : List (Invocation σ)}

/-- A step of the interpreter that has started after the visits `done` makes the visits `visits` and
gives a value with the property `P`, or it makes some of them and stops at the next. -/
inductive Advances (scopes : Nat → Scope) (start : σ) (P : α → List (Visit σ) → Prop)
    (done : List (Visit σ)) (visits : List (Occurrence (Native σ))) :
    Except Fault α × Traced σ → Prop where
  | completed {more : List (Visit σ)} {calls : List (Invocation σ)} {state : σ} {value : α} :
      visits = more.map Visit.occurrence → Evaluated scopes start (done ++ more) calls state →
      P value (done ++ more) →
      Advances scopes start P done visits (.ok value, ⟨state, calls⟩)
  | stopped {more : List (Visit σ)} {failing : Occurrence (Native σ)}
      {rest : List (Occurrence (Native σ))} {calls made : List (Invocation σ)} {state after : σ}
      {fault : Fault} :
      visits = more.map Visit.occurrence ++ failing :: rest →
      Evaluated scopes start (done ++ more) calls state →
      Stops scopes (done ++ more) state failing made after fault →
      Advances scopes start P done visits (.error fault, ⟨after, calls ++ made⟩)

namespace Advances

/-- A step that makes no visit. The visits so far are unchanged, and its value has the property
already. -/
theorem pure {P : α → List (Visit σ) → Prop} {value : α}
    (hdone : Evaluated scopes start done calls state) (hvalue : P value done) :
    Advances scopes start P done []
      ((Pure.pure value : Step (Traced σ) Fault α).run.run ⟨state, calls⟩) := by
  have hdone' : Evaluated scopes start (done ++ []) calls state := by rwa [List.append_nil]
  exact .completed rfl hdone' (by rwa [List.append_nil])

/-- A step that stops at the first node it comes to. The other nodes it would have come to do not
matter. -/
theorem stop {P : α → List (Visit σ) → Prop} {failing : Occurrence (Native σ)}
    {rest : List (Occurrence (Native σ))} {made : List (Invocation σ)} {after : σ} {fault : Fault}
    (hdone : Evaluated scopes start done calls state)
    (hstops : Stops scopes done state failing made after fault) :
    Advances scopes start P done (failing :: rest) (.error fault, ⟨after, calls ++ made⟩) := by
  rw [← List.append_nil done] at hdone hstops
  exact .stopped rfl hdone hstops

/-- A step that stops at the first node it comes to, which makes no call. The state and the calls
are then as before. -/
theorem throw {P : α → List (Visit σ) → Prop} {failing : Occurrence (Native σ)}
    {rest : List (Occurrence (Native σ))} {fault : Fault}
    (hdone : Evaluated scopes start done calls state)
    (hstops : Stops scopes done state failing [] state fault) :
    Advances scopes start P done (failing :: rest)
      ((MonadExcept.throw fault : Step (Traced σ) Fault α).run.run ⟨state, calls⟩) := by
  have hstop : Advances scopes start P done (failing :: rest)
      (.error fault, ⟨state, calls ++ []⟩) := stop hdone hstops
  rwa [List.append_nil] at hstop

/-- A step and the steps after it make their visits one after the other. If the first step stops,
the visits of the second are among those that are not made. -/
theorem bind {P : α → List (Visit σ) → Prop} {Q : β → List (Visit σ) → Prop}
    {visits visits' : List (Occurrence (Native σ))} {first : Step (Traced σ) Fault α}
    {second : α → Step (Traced σ) Fault β} {traced : Traced σ}
    (h : Advances scopes start P done visits (first.run.run traced))
    (h' : ∀ more calls state value, Evaluated scopes start (done ++ more) calls state →
      P value (done ++ more) →
      Advances scopes start Q (done ++ more) visits' ((second value).run.run ⟨state, calls⟩)) :
    Advances scopes start Q done (visits ++ visits') ((first >>= second).run.run traced) := by
  cases hfirst : first.run.run traced with
  | mk result middle =>
    rw [hfirst] at h
    cases h with
    | @completed more calls state value hvisits hdone hvalue =>
      rw [run_bind_of_ok hfirst]
      have hsecond := h' more calls state value hdone hvalue
      cases hresult : (second value).run.run ⟨state, calls⟩ with
      | mk result' last =>
        rw [hresult] at hsecond
        cases hsecond with
        | @completed more' calls' state' value' hvisits' hdone' hvalue' =>
          have hall : visits ++ visits' = (more ++ more').map Visit.occurrence := by
            rw [List.map_append, hvisits, hvisits']
          rw [List.append_assoc] at hdone' hvalue'
          exact .completed hall hdone' hvalue'
        | @stopped more' failing rest calls' made state' after fault hvisits' hdone' hstops =>
          have hall : visits ++ visits'
              = (more ++ more').map Visit.occurrence ++ failing :: rest := by
            rw [List.map_append, List.append_assoc, hvisits, hvisits']
          rw [List.append_assoc] at hdone' hstops
          exact .stopped hall hdone' hstops
    | @stopped more failing rest calls made state after fault hvisits hdone hstops =>
      have hall : visits ++ visits'
          = more.map Visit.occurrence ++ failing :: (rest ++ visits') := by
        rw [hvisits, List.append_assoc, List.cons_append]
      rw [run_bind_of_error hfirst]
      exact .stopped hall hdone hstops

/-- A call whose arguments have their values is visited, and made with these values. If its function
fails, the run stops at this call. -/
theorem invoke {path : List Nat} {arguments : List (Node (Native σ))} {values : List String}
    (hdone : Evaluated scopes start done calls state)
    (hvalues : HaveValues done (argumentsAt path 0 arguments) values) (place : Location)
    (name : String) (target : Entry (Native σ)) :
    Advances scopes start
      (fun value done => ⟨⟨path, .call place name target arguments⟩, value⟩ ∈ done) done
      [⟨path, .call place name target arguments⟩]
      ((Script.invoke place target.traced.body values).run.run ⟨state, calls⟩) := by
  rw [run_invoke_traced]
  cases hresult : (target.invocation values state).result with
  | ok value =>
    exact .completed rfl (hdone.call hvalues hresult)
      (List.mem_append_right _ (List.mem_singleton_self _))
  | error failure =>
    cases failure with
    | refused message => exact stop hdone (.refused hvalues hresult)
    | crashed crash => exact stop hdone (.crashed hvalues hresult)

mutual

/-- An evaluation makes the visits of its tree, up to the first node that has no value. The cases
are those of trees, and for a call the arguments come before the call itself (`bind`). -/
theorem evaluate (index : Nat) (below : List Nat) (done : List (Visit σ))
    (calls : List (Invocation σ)) (state : σ) (hdone : Evaluated scopes start done calls state) :
    (node : Node (Native σ)) →
      Advances scopes start (fun value done => ⟨⟨index :: below, node⟩, value⟩ ∈ done) done
        (node.visits (index :: below))
        ((Script.evaluate (scopes index) node.traced).run.run ⟨state, calls⟩)
  | .literal place text => by
    rw [Node.visits, Node.traced, Node.map, Script.evaluate]
    exact .completed rfl hdone.literal (List.mem_append_right _ (List.mem_singleton_self _))
  | .reference place name => by
    rw [Node.visits, Node.traced, Node.map, Script.evaluate]
    cases hvalue : (scopes index).get? name with
    | some value =>
      exact .completed rfl (hdone.reference hvalue)
        (List.mem_append_right _ (List.mem_singleton_self _))
    | none => exact throw hdone (.undefined hvalue)
  | .call place name target arguments => by
    rw [Node.visits, evaluate_traced_call]
    refine bind (evaluateAll index below 0 done calls state hdone arguments) ?_
    intro more calls state values hdone hvalues
    exact invoke hdone hvalues place name target
  | .assignment place name value => by
    rw [Node.visits, Node.traced, Node.map, Script.evaluate]
    exact throw hdone (.misplaced (.inl rfl))
  | .empty place => by
    rw [Node.visits, Node.traced, Node.map, Script.evaluate]
    exact throw hdone (.misplaced (.inr rfl))

/-- Evaluating arguments makes their visits from left to right, and gives their values in the same
order. -/
theorem evaluateAll (index : Nat) (below : List Nat) (first : Nat) (done : List (Visit σ))
    (calls : List (Invocation σ)) (state : σ) (hdone : Evaluated scopes start done calls state) :
    (nodes : List (Node (Native σ))) →
      Advances scopes start
        (fun values done => HaveValues done (argumentsAt (index :: below) first nodes) values) done
        (Node.visitsAll (index :: below) first nodes)
        ((Script.evaluateAll (scopes index) (nodes.map Node.traced)).run.run ⟨state, calls⟩)
  | [] => by
    rw [Node.visitsAll, List.map_nil, Script.evaluateAll]
    exact pure hdone .nil
  | node :: nodes => by
    rw [Node.visitsAll, List.map_cons, Script.evaluateAll]
    refine bind (evaluate index (below ++ [first]) done calls state hdone node) ?_
    intro more calls state value hdone hvalue
    rw [← List.append_nil (Node.visitsAll ..)]
    refine bind (evaluateAll index below (first + 1) _ calls state hdone nodes) ?_
    intro more' calls' state' values hdone' hvalues
    exact pure hdone' (.cons (List.mem_append_left more' hvalue) hvalues)

end

/-- A statement makes its visits, up to the first node that has no value. What is bound afterwards
is no visit. -/
theorem runStatement (index : Nat) (hdone : Evaluated scopes start done calls state)
    (node : Node (Native σ)) :
    Advances scopes start (fun _ _ => True) done (node.statementVisits index)
      ((Script.runStatement (scopes index) node.traced).run.run ⟨state, calls⟩) := by
  rw [← List.append_nil (node.statementVisits index)]
  cases node with
  | assignment place name value =>
    exact bind (evaluate index [0] done calls state hdone value)
      fun _ _ _ _ hdone _ => pure hdone trivial
  | call | literal | reference | empty =>
    exact bind (evaluate index [] done calls state hdone _)
      fun _ _ _ _ hdone _ => pure hdone trivial

end Advances

/-- The scope of each statement: what the statements before it have bound. -/
def scopesOf (program : List (Node (Native σ))) (start : σ) (index : Nat) : Scope :=
  (run (program.take index) start).scope

/-- A run that has come to the statements `rest` visits their nodes, to the end or up to a node that
stops it. The visits that were made before are extended. -/
theorem exists_evaluated {program before rest : List (Node (Native σ))} {scope : Scope}
    (hprogram : program = before ++ rest)
    (hbefore : tracedRun before start = ⟨none, scope, ⟨state, calls⟩⟩)
    (hdone : Evaluated (scopesOf program start) start done calls state) :
    ∃ more calls' state', Evaluated (scopesOf program start) start (done ++ more) calls' state' ∧
      ((visitsFrom before.length rest = more.map Visit.occurrence ∧
          ∃ scope', tracedRun program start = ⟨none, scope', ⟨state', calls'⟩⟩) ∨
        ∃ failing later made after fault scope',
          visitsFrom before.length rest = more.map Visit.occurrence ++ failing :: later ∧
          Stops (scopesOf program start) (done ++ more) state' failing made after fault ∧
          tracedRun program start = ⟨some fault, scope', ⟨after, calls' ++ made⟩⟩) := by
  -- `before` has run and `done` are its visits; a statement that completes moves to `before`.
  induction rest generalizing before scope state calls done with
  | nil =>
    rw [List.append_nil] at hprogram
    refine ⟨[], calls, state, by rwa [List.append_nil], .inl ⟨rfl, scope, ?_⟩⟩
    rw [hprogram, hbefore]
  | cons node rest ih =>
    -- The scope that the run has reached is the one that `Evaluated` gives to the statement.
    have hscope : scopesOf program start before.length = scope := by
      rw [scopesOf, hprogram, List.take_left, (run_of_tracedRun hbefore).1]
    have hstep := Advances.runStatement before.length hdone node
    rw [hscope] at hstep
    cases hresult : (runStatement scope node.traced).run.run ⟨state, calls⟩ with
    | mk result middle =>
      rw [hresult] at hstep
      cases hstep with
      | @completed more calls' state' scope' hvisits hdone' _ =>
        have hbefore' : tracedRun (before ++ [node]) start = ⟨none, scope', ⟨state', calls'⟩⟩ := by
          rw [tracedRun, run, List.map_append, runFrom_append_of_none hbefore, List.map_singleton,
            runFrom, hresult]
          rfl
        have hprogram' : program = (before ++ [node]) ++ rest := by rw [hprogram, List.append_cons]
        obtain ⟨more', calls'', state'', hdone'', hend⟩ := ih hprogram' hbefore' hdone'
        rw [List.append_assoc] at hdone'' hend
        rw [List.length_append, List.length_singleton] at hend
        refine ⟨more ++ more', calls'', state'', hdone'', ?_⟩
        rw [visitsFrom, hvisits, List.map_append]
        rcases hend with ⟨hvisits', hrun⟩ | ⟨failing, later, made, after, fault, scope, hvisits', h⟩
        · exact .inl ⟨by rw [hvisits'], hrun⟩
        · refine .inr ⟨failing, later, made, after, fault, scope, ?_, h⟩
          rw [hvisits', List.append_assoc]
      | @stopped more failing later calls' made state' after fault hvisits hdone' hstops =>
        refine ⟨more, calls', state', hdone', .inr ⟨failing,
          later ++ visitsFrom (before.length + 1) rest, made, after, fault, scope, ?_, hstops, ?_⟩⟩
        · rw [visitsFrom, hvisits, List.append_assoc, List.cons_append]
        · rw [hprogram, tracedRun, run, List.map_append, runFrom_append_of_none hbefore,
            List.map_cons, runFrom, hresult]

/-- A run visits the nodes of its program, to the end or up to a node that stops it. This is
`exists_evaluated` from the beginning, with what the run comes to. -/
theorem exists_evaluated_visitsOf (program : List (Node (Native σ))) (start : σ) :
    ∃ done calls state, Evaluated (scopesOf program start) start done calls state ∧
      ((visitsOf program = done.map Visit.occurrence ∧ (run program start).fault? = none ∧
          (run program start).state = state ∧ invocations program start = calls) ∨
        ∃ failing later made after fault,
          visitsOf program = done.map Visit.occurrence ++ failing :: later ∧
          Stops (scopesOf program start) done state failing made after fault ∧
          (run program start).fault? = some fault ∧ (run program start).state = after ∧
          invocations program start = calls ++ made) := by
  have hnil : tracedRun ([] : List (Node (Native σ))) start = ⟨none, .empty, ⟨start, []⟩⟩ := rfl
  obtain ⟨done, calls, state, hdone, hend⟩ :=
    exists_evaluated (List.nil_append program).symm hnil .nil
  refine ⟨done, calls, state, hdone, ?_⟩
  rcases hend with ⟨hvisits, scope, hrun⟩ |
    ⟨failing, later, made, after, fault, scope, hvisits, hstops, hrun⟩
  · obtain ⟨hrun, hcalls⟩ := run_of_tracedRun hrun
    rw [hrun]
    exact .inl ⟨hvisits, rfl, rfl, hcalls⟩
  · obtain ⟨hrun, hcalls⟩ := run_of_tracedRun hrun
    rw [hrun]
    exact .inr ⟨failing, later, made, after, fault, hvisits, hstops, rfl, rfl, hcalls⟩

/-- **The order of evaluation.** A run of any trees makes the visits of the program in order. Each
name and each call gets its value as `Evaluated` says: a call is made when the visits to all of its
arguments have been made, with their values. If the run succeeds, all visits have been made. If it
fails, all visits before the failing node have been made, and that node stops the run: a name
without a value, a node that cannot have one, or a call that fails, for which the script is told at
this call. The calls that were made are those among the visits and the failing node, so none of the
calls around the failing node.

No node is visited twice, and the calls are visited in postorder. In all cases the calls that were
made are the first ones in this order, and all of them if the run succeeds. -/
theorem evaluation_order (program : List (Node (Native σ))) (start : σ) :
    (∃ done calls state, Evaluated (scopesOf program start) start done calls state ∧
      ((visitsOf program = done.map Visit.occurrence ∧ (run program start).fault? = none ∧
          (run program start).state = state ∧ invocations program start = calls) ∨
        ∃ failing later made after fault,
          visitsOf program = done.map Visit.occurrence ++ failing :: later ∧
          Stops (scopesOf program start) done state failing made after fault ∧
          (run program start).fault? = some fault ∧ (run program start).state = after ∧
          invocations program start = calls ++ made ∧
          List.Forall₂ Occurrence.Makes
            ((done.map Visit.occurrence ++ [failing]).filter Occurrence.isCall)
            (invocations program start) ∧
          ∀ visit ∈ done, visit.occurrence.DoesNotEnclose failing)) ∧
    ((visitsOf program).map Occurrence.path).Nodup ∧
    callsOf program = (visitsOf program).filter Occurrence.isCall ∧
    ∃ invoked later, callsOf program = invoked ++ later ∧
      List.Forall₂ Occurrence.Makes invoked (invocations program start) ∧
      ((run program start).fault? = none → later = []) := by
  obtain ⟨done, calls, state, hdone, hend⟩ := exists_evaluated_visitsOf program start
  have hmakes := hdone.forall₂_makes
  have hnodup := nodup_visitsOf program
  have hpostorder := (filter_isCall_visitsOf program).symm
  rcases hend with ⟨hvisits, hnone, hstate, hcalls⟩ |
    ⟨failing, later, made, after, fault, hvisits, hstops, hfault, hstate, hcalls⟩
  · refine ⟨⟨done, calls, state, hdone, .inl ⟨hvisits, hnone, hstate, hcalls⟩⟩,
      hnodup, hpostorder, callsOf program, [], (List.append_nil _).symm, ?_, fun _ => rfl⟩
    rw [hcalls, hpostorder, hvisits]
    exact hmakes
  · have hinvoked : List.Forall₂ Occurrence.Makes
        ((done.map Visit.occurrence ++ [failing]).filter Occurrence.isCall)
        (invocations program start) := by
      rw [hcalls, List.filter_append]
      exact List.rel_append hmakes hstops.forall₂_makes
    have hcallsOf := callsOf_of_visitsOf (hvisits.trans (List.append_cons ..))
    refine ⟨⟨done, calls, state, hdone, .inr ⟨failing, later, made, after, fault, hvisits, hstops,
      hfault, hstate, hcalls, hinvoked, ?_⟩⟩, hnodup, hpostorder, _, _, hcallsOf, hinvoked, ?_⟩
    · intro visit hvisit
      exact doesNotEnclose_of_visitsOf hvisits _ (List.mem_map_of_mem hvisit)
    · intro hnone
      rw [hfault] at hnone
      cases hnone

/-- Of two arguments the first is a call that succeeds and the second has no value: the first call
is made, the call around it is not. -/
example :
    let f : Entry (Native Nat) := ⟨"f", ["*texts"], ⟨0, true⟩, fun _ => return "a"⟩
    let g : Entry (Native Nat) := ⟨"g", ["*texts"], ⟨0, true⟩, fun _ => return "b"⟩
    let program : List (Node (Native Nat)) :=
      [.call ⟨0, 0, none⟩ "f" f [.call ⟨0, 2, none⟩ "g" g [], .empty ⟨0, 4, none⟩]]
    (callsOf program).map Occurrence.path = [[0, 0], [0]] ∧
      (invocations program 0).map (fun call => call.entry.name) = ["g"] ∧
      (run program 0).fault? = some (.notEvaluable .empty) := by
  decide

end Interpreter

end ActivityScript.Script
