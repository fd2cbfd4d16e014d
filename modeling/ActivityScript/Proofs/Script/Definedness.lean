import ActivityScript.Proofs.Script.Meaning

/-!
# Names that have no value

Which names have no value when they are used can be read off the program: a use is undefined if no
earlier statement binds its name (`UndefinedUse`). The scope of a run holds other values for other
functions, but the same names, so functions that always return cannot make a difference: a run fails
if and only if there is an undefined use, and it fails at the first one (`run_of_returns`).

The uses and the bound names of a statement are those of its tokens (`Reads.uses_eq`,
`Reads.bound?_eq`), so the fault is the same for any two sets of functions over one text.
`undefined_names_decided` puts this together.
-/

namespace ActivityScript.Script

/-! ## Uses -/

section Uses

variable {φ : Type}

/-- The name that an argument refers to, with its place. -/
def Node.use? : Node φ → Option (Location × String)
  | .reference place name => some (place, name)
  | .assignment .. | .call .. | .literal .. | .empty _ => none

/-- The names that the call of a statement refers to, from left to right, with their places. -/
def Node.uses (node : Node φ) : List (Location × String) :=
  match node.call? with
  | some (_, _, arguments) => arguments.filterMap Node.use?
  | none => []

/-- The function that a statement calls. -/
def Node.entry? (node : Node φ) : Option (Entry φ) :=
  node.call?.map fun call => call.2.1

/-- The name at `place`, which is use number `rank` of statement number `index`, is not bound by any
earlier statement. -/
def UndefinedUse (program : List (Node φ)) (index rank : Nat) (place : Location) : Prop :=
  ∃ node name, program[index]? = some node ∧ node.uses[rank]? = some (place, name) ∧
    name ∉ namesBoundBy (program.take index)

/-- The first undefined use of a program is at `place`, in statement number `index`. -/
def FirstUndefinedUse (program : List (Node φ)) (index : Nat) (place : Location) : Prop :=
  ∃ rank, UndefinedUse program index rank place ∧
    ∀ index' rank' place', UndefinedUse program index' rank' place' →
      index < index' ∨ index = index' ∧ rank ≤ rank'

variable {program before rest : List (Node φ)} {node : Node φ} {index rank : Nat}
  {place : Location}

/-- The uses of a statement that makes a call are the names among its arguments, whether the result
is bound or not. -/
theorem Node.uses_of_call? {location : Location} {entry : Entry φ} {arguments : List (Node φ)}
    (h : node.call? = some (location, entry, arguments)) :
    node.uses = arguments.filterMap Node.use? := by
  rw [Node.uses, h]

/-- A use is a name. Texts are no uses, and calls inside calls do not come out of the parser. -/
theorem Node.eq_reference_of_use? {name : String} (h : node.use? = some (place, name)) :
    node = .reference place name := by
  cases node with
  | reference =>
    cases h
    rfl
  | assignment | call | literal | empty => cases h

/-- An undefined use is in one of the statements, so its number is less than the number of
statements. -/
theorem UndefinedUse.lt_length (h : UndefinedUse program index rank place) :
    index < program.length := by
  obtain ⟨node, name, hnode, -⟩ := h
  exact (List.getElem?_eq_some_iff.1 hnode).1

/-- Undefined uses in the first statements do not depend on what follows, since names are bound by
earlier statements only. -/
theorem undefinedUse_append_iff (h : index < before.length) :
    UndefinedUse (before ++ rest) index rank place ↔ UndefinedUse before index rank place := by
  rw [UndefinedUse, UndefinedUse, List.getElem?_append_left h,
    List.take_append_of_le_length (Nat.le_of_lt h)]

/-- The undefined uses in a statement are its uses of names that no statement before it binds. A
name that it binds itself does not count. -/
theorem undefinedUse_at_iff :
    UndefinedUse (before ++ node :: rest) before.length rank place ↔
      ∃ name, node.uses[rank]? = some (place, name) ∧ name ∉ namesBoundBy before := by
  simp [UndefinedUse]

/-- A program has one first undefined use. Of two that are both first, none is before the other, so
they are the same use of the same statement. -/
theorem FirstUndefinedUse.place_eq {index' : Nat} {place' : Location}
    (h : FirstUndefinedUse program index place) (h' : FirstUndefinedUse program index' place') :
    place = place' := by
  obtain ⟨rank, huse, hfirst⟩ := h
  obtain ⟨rank', huse', hfirst'⟩ := h'
  have hindex : index = index' := by
    rcases hfirst _ _ _ huse' with h | h <;> rcases hfirst' _ _ _ huse with h' | h' <;> omega
  have hrank : rank = rank' := by
    rcases hfirst _ _ _ huse' with h | h <;> rcases hfirst' _ _ _ huse with h' | h' <;> omega
  subst hindex hrank
  obtain ⟨node, name, hnode, hname, -⟩ := huse
  obtain ⟨node', name', hnode', hname', -⟩ := huse'
  cases hnode.symm.trans hnode'
  cases hname.symm.trans hname'
  rfl

end Uses

/-! ## Uses in the text -/

section Text

variable {φ ψ : Type} {registry : Registry φ} {registry' : Registry ψ} {tokens line : List Token}

/-- The name that a token refers to as an argument. -/
def Token.use? : Token → Option (Location × String)
  | ⟨.identifier name, place⟩ => some (place, name)
  | _ => none

/-- The names that the call of a line refers to, with their places. -/
def usesOf : List Token → List (Location × String)
  | _ :: ⟨.equals, _⟩ :: _ :: tokens => tokens.filterMap Token.use?
  | _ :: tokens => tokens.filterMap Token.use?
  | [] => []

/-- The name that a line binds. -/
def boundOf : List Token → Option String
  | ⟨.identifier name, _⟩ :: ⟨.equals, _⟩ :: _ => some name
  | _ => none

/-- Arguments use the names that their tokens are. Each argument is read from one token, a name from
a name and a text from a text. -/
theorem filterMap_use?_of_readsArgument {arguments : List (Node φ)}
    (h : List.Forall₂ ReadsArgument tokens arguments) :
    arguments.filterMap Node.use? = tokens.filterMap Token.use? := by
  induction h with
  | nil => rfl
  | cons hfirst _ ih =>
    rw [List.filterMap_cons, List.filterMap_cons, ih]
    cases hfirst <;> rfl

/-- The uses of a statement are those of its line, so they do not depend on the functions. In an
assignment the name of the function stands third. -/
theorem Reads.uses_eq {node : Node φ} (h : Reads registry line node) :
    node.uses = usesOf line := by
  cases h with
  | call hcall =>
    obtain ⟨hargs, -⟩ := hcall
    rw [Node.uses_of_call? rfl, filterMap_use?_of_readsArgument hargs]
    cases hargs with
    | nil => rfl
    | cons hfirst _ => cases hfirst <;> rfl
  | bindText => rfl
  | bindCall hcall =>
    obtain ⟨hargs, -⟩ := hcall
    exact filterMap_use?_of_readsArgument hargs

/-- The name that a statement binds is the one that its line binds: the first token, if an equals
sign is the second. -/
theorem Reads.bound?_eq {node : Node φ} (h : Reads registry line node) :
    node.bound? = boundOf line := by
  cases h with
  | call hcall =>
    obtain ⟨hargs, -⟩ := hcall
    cases hargs with
    | nil => rfl
    | cons hfirst _ => cases hfirst <;> rfl
  | bindText => rfl
  | bindCall => rfl

/-- What follows a program adds no statements to it, since a program ends with an end of input. -/
theorem IsProgram.statementsOf_append_right {used : List Token} (h : IsProgram used)
    (rest : List Token) : statementsOf (used ++ rest) = statementsOf used := by
  induction h with
  | endOfInput => rfl
  | blank _ ih => exact ih
  | statement hline _ ih =>
    rw [List.append_assoc, List.cons_append, hline.statementsOf_append, hline.statementsOf_append,
      ih]

/-- A parsed program has one tree for each statement of its tokens, in the same order, and each was
read from its line. -/
theorem reads_statementsOf_of_parse {program : List (Node φ)}
    (h : parse registry tokens = .ok program) :
    List.Forall₂ (Reads registry) (statementsOf tokens) program := by
  by_cases hne : tokens = []
  · subst hne
    cases h
    exact .nil
  · rw [parse_eq_parseStatements registry hne] at h
    obtain ⟨used, rest, rfl, hprogram, htrees⟩ := IsProgram.of_parseStatements h
    rwa [hprogram.statementsOf_append_right]

/-- The undefined uses of a program are given by the names that its statements use and bind. Nothing
else of the statements matters, so not the functions either. -/
theorem undefinedUse_congr {program : List (Node φ)} {program' : List (Node ψ)}
    (huses : program.map Node.uses = program'.map Node.uses)
    (hbound : program.map Node.bound? = program'.map Node.bound?) {index rank : Nat}
    {place : Location} (h : UndefinedUse program index rank place) :
    UndefinedUse program' index rank place := by
  obtain ⟨node, name, hnode, hname, hnot⟩ := h
  have hindex : (program'.map Node.uses)[index]? = some node.uses := by
    rw [← huses, List.getElem?_map, hnode]
    rfl
  rw [List.getElem?_map] at hindex
  obtain ⟨node', hnode', huse'⟩ := Option.map_eq_some_iff.1 hindex
  have hnames : namesBoundBy (program'.take index) = namesBoundBy (program.take index) := by
    have hmap {χ : Type} (nodes : List (Node χ)) :
        namesBoundBy (nodes.take index) = ((nodes.map Node.bound?).take index).filterMap id := by
      rw [← List.map_take, List.filterMap_map]
      rfl
    rw [hmap, hmap, hbound]
  refine ⟨node', name, hnode', ?_, ?_⟩
  · rw [huse', hname]
  · rwa [hnames]

/-- Programs that are parsed from the same tokens have the same undefined uses, because uses and
bound names are those of the lines (`Reads.uses_eq`, `Reads.bound?_eq`). -/
theorem undefinedUse_of_parse {program : List (Node φ)} {program' : List (Node ψ)}
    (h : parse registry tokens = .ok program) (h' : parse registry' tokens = .ok program')
    {index rank : Nat} {place : Location} :
    UndefinedUse program index rank place ↔ UndefinedUse program' index rank place := by
  have map_eq {χ β : Type} {registry : Registry χ} {lines : List (List Token)}
      {nodes : List (Node χ)} {f : Node χ → β} {g : List Token → β}
      (hfg : ∀ line node, Reads registry line node → f node = g line)
      (hreads : List.Forall₂ (Reads registry) lines nodes) : nodes.map f = lines.map g := by
    induction hreads with
    | nil => rfl
    | cons hfirst _ ih => rw [List.map_cons, List.map_cons, hfg _ _ hfirst, ih]
  have hreads := reads_statementsOf_of_parse h
  have hreads' := reads_statementsOf_of_parse h'
  have huses : program.map Node.uses = program'.map Node.uses := by
    rw [map_eq (fun _ _ => Reads.uses_eq) hreads, map_eq (fun _ _ => Reads.uses_eq) hreads']
  have hbound : program.map Node.bound? = program'.map Node.bound? := by
    rw [map_eq (fun _ _ => Reads.bound?_eq) hreads, map_eq (fun _ _ => Reads.bound?_eq) hreads']
  exact ⟨undefinedUse_congr huses hbound, undefinedUse_congr huses.symm hbound.symm⟩

end Text

/-! ## Functions that return -/

section Running

variable {σ : Type} {registry : Registry (Native σ)} {program : List (Node (Native σ))}
  {past : Past σ} {node : Node (Native σ)} {start state after : σ}
  {calls made : List (Invocation σ)} {result : String} {fault : Fault}

/-- Every call that the registry admits returns a text. -/
def Registry.Returns (registry : Registry (Native σ)) : Prop :=
  ∀ entry arguments, registry.Admits entry arguments.length →
    ∀ state, ∃ text, (entry.invocation arguments state).result = .ok text

/-- A name has a value after statements that bind it, and only then. The value itself depends on the
functions, but not whether there is one. -/
theorem Past.isSome_latest_iff (past : Past σ) (name : String) :
    (past.latest name).isSome ↔ name ∈ namesBoundBy past.statements := by
  simp [Past.latest, namesBoundBy, Past.statements]

/-- Names among arguments that have values have been bound. A text always has a value, and says
nothing about names. -/
theorem bound_of_use {arguments : List (Node (Native σ))}
    (h : ∀ argument ∈ arguments, (argument.value? past.latest).isSome) :
    ∀ use ∈ arguments.filterMap Node.use?, use.2 ∈ namesBoundBy past.statements := by
  rintro ⟨place, name⟩ huse
  obtain ⟨argument, hargument, hname⟩ := List.mem_filterMap.1 huse
  have hvalue := h argument hargument
  rw [Node.eq_reference_of_use? hname] at hvalue
  exact (past.isSome_latest_iff name).1 hvalue

/-- The uses of a statement that runs have been bound, since its arguments all have values when the
call is made. -/
theorem Runs.bound_of_mem_uses (h : Runs past state node made result after) :
    ∀ use ∈ node.uses, use.2 ∈ namesBoundBy past.statements := by
  cases h with
  | text hnode =>
    intro use huse
    rw [hnode] at huse
    cases huse
  | @call location entry arguments values result hcall hvalues _ =>
    rw [Node.uses_of_call? hcall]
    refine bound_of_use fun argument hargument => ?_
    have hmem : argument.value? past.latest ∈ values.map some := by
      rw [← hvalues]
      exact List.mem_map_of_mem hargument
    obtain ⟨value, -, hvalue⟩ := List.mem_map.1 hmem
    rw [← hvalue]
    rfl

/-- Statements that have run have no undefined use. Each of them had its uses bound by those before
it when it ran. -/
theorem Ran.not_undefinedUse (h : Ran start past calls state) (index rank : Nat)
    (place : Location) : ¬UndefinedUse past.statements index rank place := by
  induction h with
  | nil =>
    rintro ⟨node, name, hnode, -⟩
    cases hnode
  | @concat past calls made state after node result _ hruns ih =>
    rw [Past.statements_concat]
    intro huse
    have hindex : index < (past.statements ++ [node]).length := huse.lt_length
    rw [List.length_append, List.length_singleton] at hindex
    rcases Nat.lt_succ_iff_lt_or_eq.1 hindex with hlt | rfl
    · exact ih ((undefinedUse_append_iff hlt).1 huse)
    · obtain ⟨name, hname, hnot⟩ := undefinedUse_at_iff.1 huse
      exact hnot (hruns.bound_of_mem_uses _ (List.mem_of_getElem? hname))

/-- The calls of statements that have run are the calls that stand in them, in the same order. A
statement that binds a text makes none. -/
theorem Ran.map_entry (h : Ran start past calls state) :
    calls.map Invocation.entry = past.statements.filterMap Node.entry? := by
  induction h with
  | nil => rfl
  | concat _ hruns ih =>
    rw [Past.statements_concat, List.map_append, List.filterMap_append, ih]
    congr 1
    cases hruns with
    | text hnode =>
      rw [hnode]
      rfl
    | call hcall =>
      rw [List.filterMap_cons, Node.entry?, hcall]
      rfl

/-- The call of a resolved statement is one that the registry admits: its function is registered and
takes that many arguments. -/
theorem Resolved.admits_of_call? (h : Resolved registry node) {location : Location}
    {entry : Entry (Native σ)} {arguments : List (Node (Native σ))}
    (hcall : node.call? = some (location, entry, arguments)) :
    registry.Admits entry arguments.length := by
  cases h with
  | call hresolved | bindCall hresolved =>
    obtain ⟨-, hadmits, -⟩ := hresolved
    cases hcall
    exact hadmits
  | bindText => cases hcall

/-- Where functions return, so does the call of a resolved statement, because it has as many values
as it has arguments. -/
theorem Registry.Returns.of_call? (hreturns : registry.Returns) (hnode : Resolved registry node)
    {location : Location} {entry : Entry (Native σ)} {arguments : List (Node (Native σ))}
    {values : List String} {lookup : String → Option String}
    (hcall : node.call? = some (location, entry, arguments))
    (hvalues : arguments.map (Node.value? lookup) = values.map some) (state : σ) :
    ∃ text, (entry.invocation values state).result = .ok text := by
  have hlength : arguments.length = values.length := by
    simpa only [List.length_map] using congrArg List.length hvalues
  have hadmits := hnode.admits_of_call? hcall
  rw [hlength] at hadmits
  exact hreturns entry values hadmits state

/-- Where functions return, a statement can only fail at a use of a name that has not been bound,
and its uses before that one have been bound. No call was made then. -/
theorem Fails.of_returns (h : Fails past state node made after fault)
    (hnode : Resolved registry node) (hreturns : registry.Returns) :
    made = [] ∧ ∃ left place name right, node.uses = left ++ (place, name) :: right ∧
      (∀ use ∈ left, use.2 ∈ namesBoundBy past.statements) ∧
      name ∉ namesBoundBy past.statements ∧ fault = .script ⟨.undefinedVariable, place⟩ := by
  cases h with
  | @undefined location place entry left right name hcall hleft hname =>
    refine ⟨rfl, left.filterMap Node.use?, place, name, right.filterMap Node.use?, ?_,
      bound_of_use hleft, ?_, rfl⟩
    · rw [Node.uses_of_call? hcall, List.filterMap_append, List.filterMap_cons]
      rfl
    · rw [← past.isSome_latest_iff, hname]
      exact Bool.false_ne_true
  | refused hcall hvalues hresult | crashed hcall hvalues hresult =>
    obtain ⟨text, htext⟩ := hreturns.of_call? hnode hcall hvalues state
    rw [hresult] at htext
    cases htext

/-- A program whose functions return runs to its end and has no undefined use, or it fails at the
first one, after the calls of the statements before it. There is no other way to fail
(`Fails.of_returns`). -/
theorem run_of_returns (hprogram : ∀ node ∈ program, Resolved registry node)
    (hreturns : registry.Returns) (start : σ) :
    ((run program start).fault? = none ∧
      ∀ index rank place, ¬UndefinedUse program index rank place) ∨
    ∃ index place, FirstUndefinedUse program index place ∧
      (run program start).fault? = some (.script ⟨.undefinedVariable, place⟩) ∧
      invocations program start = invocations (program.take index) start ∧
      (invocations program start).map Invocation.entry
        = (program.take index).filterMap Node.entry? := by
  obtain ⟨past, calls, state, hran, hend⟩ := exists_ran hprogram start
  obtain ⟨scope, hscope, htraced⟩ := hran.tracedRun
  obtain ⟨hrun, hcalls⟩ := run_of_tracedRun htraced
  rcases hend with rfl | ⟨node, rest, made, after, fault, rfl, hfails⟩
  · refine .inl ⟨?_, hran.not_undefinedUse⟩
    rw [hrun]
  · have hnode := hprogram node (List.mem_append_right _ List.mem_cons_self)
    obtain ⟨rfl, left, place, name, right, huses, hleft, hname, rfl⟩ :=
      hfails.of_returns hnode hreturns
    have hfault := hfails.tracedRun hscope htraced rest
    rw [List.append_nil] at hfault
    obtain ⟨hrun', hcalls'⟩ := run_of_tracedRun hfault
    refine .inr ⟨past.statements.length, place, ⟨left.length, ?_, ?_⟩, ?_, ?_, ?_⟩
    · refine undefinedUse_at_iff.2 ⟨name, ?_, hname⟩
      rw [huses, List.getElem?_append_right (Nat.le_refl _), Nat.sub_self]
      rfl
    · intro index' rank' place' huse
      -- Earlier statements have run, so their uses are defined; in the same one, those to the left.
      rcases Nat.lt_trichotomy index' past.statements.length with hlt | rfl | hgt
      · exact absurd ((undefinedUse_append_iff hlt).1 huse) (hran.not_undefinedUse _ _ _)
      · obtain ⟨name', hname', hnot⟩ := undefinedUse_at_iff.1 huse
        refine .inr ⟨rfl, Nat.le_of_not_lt fun hrank => hnot ?_⟩
        rw [huses, List.getElem?_append_left hrank] at hname'
        exact hleft _ (List.mem_of_getElem? hname')
      · exact .inl hgt
    · rw [hrun']
    · rw [hcalls', List.take_left, hcalls]
    · rw [hcalls', List.take_left, hran.map_entry]

/-- Programs with the same undefined uses, whose functions return, have the same fault or none. The
fault is an undefined name at the place of the first one (`FirstUndefinedUse.place_eq`). -/
theorem fault?_eq_of_undefinedUse_iff {τ : Type} {registry' : Registry (Native τ)}
    {program' : List (Node (Native τ))} (hprogram : ∀ node ∈ program, Resolved registry node)
    (hprogram' : ∀ node ∈ program', Resolved registry' node) (hreturns : registry.Returns)
    (hreturns' : registry'.Returns)
    (hsame : ∀ index rank place,
      UndefinedUse program index rank place ↔ UndefinedUse program' index rank place)
    (start : σ) (start' : τ) : (run program' start').fault? = (run program start).fault? := by
  rcases run_of_returns hprogram hreturns start with
    ⟨hnone, hno⟩ | ⟨index, place, hfirst, hfault, -⟩
  · rcases run_of_returns hprogram' hreturns' start' with
      ⟨hnone', -⟩ | ⟨index', place', ⟨rank', huse', -⟩, -⟩
    · rw [hnone, hnone']
    · exact absurd ((hsame _ _ _).2 huse') (hno _ _ _)
  · obtain ⟨rank, huse, hleast⟩ := hfirst
    rcases run_of_returns hprogram' hreturns' start' with
      ⟨-, hno'⟩ | ⟨index', place', hfirst', hfault', -⟩
    · exact absurd ((hsame _ _ _).1 huse) (hno' _ _ _)
    · have hfirst : FirstUndefinedUse program' index place :=
        ⟨rank, (hsame _ _ _).1 huse, fun _ _ _ h => hleast _ _ _ ((hsame _ _ _).2 h)⟩
      rw [hfault, hfault', hfirst.place_eq hfirst']

/-- **Undefined names are decided by the text alone.** A parsed program whose functions return,
whatever they return, fails if and only if some statement uses a name that no earlier statement
binds. It then fails at the first such use, and the calls of the statements before it are all that
has been called. So `x = f x` fails unless `x` was bound before; and other functions, over another
state, that return as well, lead to the same fault at the same place or to none in both cases. -/
theorem undefined_names_decided (registry : Registry (Native σ)) (tokens : List Token)
    (program : List (Node (Native σ))) (hparse : parse registry tokens = .ok program)
    (hreturns : registry.Returns) (start : σ) :
    ((run program start).fault? ≠ none ↔
      ∃ index rank place, UndefinedUse program index rank place) ∧
    ((run program start).fault? ≠ none → ∃ index place, FirstUndefinedUse program index place ∧
      (run program start).fault? = some (.script ⟨.undefinedVariable, place⟩) ∧
      invocations program start = invocations (program.take index) start ∧
      (invocations program start).map Invocation.entry
        = (program.take index).filterMap Node.entry?) ∧
    (∀ index location name place function target arguments there,
      program[index]? = some (.assignment location name (.call place function target arguments)) →
      .reference there name ∈ arguments → name ∉ namesBoundBy (program.take index) →
      (run program start).fault? ≠ none) ∧
    ∀ (τ : Type) (registry' : Registry (Native τ)) (program' : List (Node (Native τ))),
      parse registry' tokens = .ok program' → registry'.Returns →
      ∀ start', (run program' start').fault? = (run program start).fault? := by
  have hresolved := Resolved.of_parse hparse
  have hiff : (run program start).fault? ≠ none ↔
      ∃ index rank place, UndefinedUse program index rank place := by
    rcases run_of_returns hresolved hreturns start with
      ⟨hnone, hno⟩ | ⟨index, place, ⟨rank, huse, -⟩, hfault, -⟩
    · refine ⟨fun h => absurd hnone h, ?_⟩
      rintro ⟨index, rank, place, huse⟩
      exact absurd huse (hno index rank place)
    · rw [hfault]
      exact ⟨fun _ => ⟨index, rank, place, huse⟩, fun _ => Option.some_ne_none _⟩
  refine ⟨hiff, fun hfault => ?_, ?_, ?_⟩
  · rcases run_of_returns hresolved hreturns start with ⟨hnone, -⟩ | hfirst
    · exact absurd hnone hfault
    · exact hfirst
  · intro index location name place function target arguments there hnode hmem hnot
    have huse : (there, name) ∈ arguments.filterMap Node.use? :=
      List.mem_filterMap.2 ⟨_, hmem, rfl⟩
    obtain ⟨rank, hrank⟩ := List.mem_iff_getElem?.1 huse
    exact hiff.2 ⟨index, rank, there, _, name, hnode, hrank, hnot⟩
  · intro τ registry' program' hparse' hreturns' start'
    exact fault?_eq_of_undefinedUse_iff hresolved (Resolved.of_parse hparse') hreturns hreturns'
      (fun _ _ _ => undefinedUse_of_parse hparse hparse') start start'

/-- The second statement uses a name that is bound and one that is not. Whether the function joins
its arguments and counts its calls or returns the empty text, the fault is at the second name, and
only the first statement has made its call. -/
theorem undefined_names_decided_second_use :
    let join : Entry (Native Nat) :=
      ⟨"f", ["*texts"], ⟨0, true⟩, fun arguments => do modify (· + 1); return String.join arguments⟩
    let blank : Entry (Native Unit) := ⟨"f", ["*texts"], ⟨0, true⟩, fun _ => return ""⟩
    let tokens : List Token :=
      [⟨.identifier "x", ⟨0, 0, none⟩⟩, ⟨.equals, ⟨0, 2, none⟩⟩, ⟨.identifier "f", ⟨0, 4, none⟩⟩,
        ⟨.literal "a", ⟨0, 6, none⟩⟩, ⟨.endOfLine, ⟨0, 9, none⟩⟩,
        ⟨.identifier "y", ⟨1, 0, none⟩⟩, ⟨.equals, ⟨1, 2, none⟩⟩, ⟨.identifier "f", ⟨1, 4, none⟩⟩,
        ⟨.identifier "x", ⟨1, 6, none⟩⟩, ⟨.identifier "y", ⟨1, 8, none⟩⟩,
        ⟨.endOfLine, ⟨1, 9, none⟩⟩, ⟨.endOfInput, ⟨2, 0, none⟩⟩]
    let program : {σ : Type} → Entry (Native σ) → List (Node (Native σ)) := fun f =>
      [.assignment ⟨0, 0, none⟩ "x" (.call ⟨0, 4, none⟩ "f" f [.literal ⟨0, 6, none⟩ "a"]),
        .assignment ⟨1, 0, none⟩ "y" (.call ⟨1, 4, none⟩ "f" f
          [.reference ⟨1, 6, none⟩ "x", .reference ⟨1, 8, none⟩ "y"])]
    parse ⟨[join]⟩ tokens = .ok (program join) ∧ Registry.Returns ⟨[join]⟩ ∧
      parse ⟨[blank]⟩ tokens = .ok (program blank) ∧ Registry.Returns ⟨[blank]⟩ ∧
      (run (program join) 0).state = 1 ∧
      (run (program join) 0).fault? = some (.script ⟨.undefinedVariable, ⟨1, 8, none⟩⟩) ∧
      (∃ index place, FirstUndefinedUse (program join) index place ∧
        (run (program join) 0).fault? = some (.script ⟨.undefinedVariable, place⟩) ∧
        invocations (program join) 0 = invocations ((program join).take index) 0 ∧
        (invocations (program join) 0).map Invocation.entry
          = ((program join).take index).filterMap Node.entry?) ∧
      (run (program blank) ()).fault? = (run (program join) 0).fault? := by
  intro join blank tokens program
  have hjoin : parse ⟨[join]⟩ tokens = .ok (program join) := by
    rw [parse_eq_parseStatements _ (List.cons_ne_nil _ _), parseStatements_cons rfl rfl,
      parseStatements_cons rfl rfl, parseStatements]
    rfl
  have hblank : parse ⟨[blank]⟩ tokens = .ok (program blank) := by
    rw [parse_eq_parseStatements _ (List.cons_ne_nil _ _), parseStatements_cons rfl rfl,
      parseStatements_cons rfl rfl, parseStatements]
    rfl
  have hjoinReturns : Registry.Returns ⟨[join]⟩ := by
    rintro entry arguments ⟨hfind, -⟩ state
    cases List.mem_singleton.1 (List.mem_of_find?_eq_some hfind)
    exact ⟨_, rfl⟩
  have hblankReturns : Registry.Returns ⟨[blank]⟩ := by
    rintro entry arguments ⟨hfind, -⟩ state
    cases List.mem_singleton.1 (List.mem_of_find?_eq_some hfind)
    exact ⟨_, rfl⟩
  have hfault : (run (program join) 0).fault?
      = some (.script ⟨.undefinedVariable, ⟨1, 8, none⟩⟩) := by decide
  obtain ⟨-, hfirst, -, hsame⟩ :=
    undefined_names_decided _ tokens (program join) hjoin hjoinReturns 0
  refine ⟨hjoin, hjoinReturns, hblank, hblankReturns, rfl, hfault, hfirst ?_, ?_⟩
  · rw [hfault]
    exact Option.some_ne_none _
  · exact hsame Unit _ (program blank) hblank hblankReturns ()

end Running

end ActivityScript.Script
