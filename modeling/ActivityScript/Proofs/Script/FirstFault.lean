import ActivityScript.Proofs.Script.LineByLine
import ActivityScript.Proofs.Script.Viability

/-!
# The first fault of a program

What the parser reports, said without the parser. Only the tokens up to the first end of input
count, and of these only those up to the first token that no program can have there (`Examined`).
Among them the first call that does not resolve is reported; a call counts as soon as a token
follows that is not one of its arguments (`CallSite`). If all calls resolve, the token itself is
reported, by what should stand in its place (`Offence`); and if there is no such token, the tokens
have run out.

`parse_eq_error_iff_firstFault` says that parsing fails with exactly this fault. The parser is
followed token by token: `Passed` says that the tokens so far are viable and that their calls
resolve, and each way in which the parser stops is a way in which the machine of `Standing` cannot
go on, or a call that ends and does not resolve.
-/

namespace ActivityScript.Script

/-! ## Faults -/

/-- Tokens up to the first end of input, which is included. -/
def upToEnd : List Token → List Token
  | [] => []
  | token :: tokens =>
    if token.lexeme = .endOfInput then [token] else token :: upToEnd tokens

/-- The tokens that decide a parse, and the last of them if it offends: no program begins with the
tokens up to it. If no token up to the end of input offends, all of these decide. -/
inductive Examined (tokens : List Token) : List Token → Option Token → Prop where
  | offending {before rest : List Token} {token : Token} :
      upToEnd tokens = before ++ token :: rest → Viable before → ¬Viable (before ++ [token]) →
      Examined tokens (before ++ [token]) (some token)
  | viable : Viable (upToEnd tokens) → Examined tokens (upToEnd tokens) none

/-- A call among tokens: a name where a statement begins or after the equals sign of an assignment,
then its arguments, which end before a token that is no word. A name that an equals sign follows
where a statement begins is the target of an assignment. -/
structure CallSite (tokens : List Token) where
  before : List Token
  name : String
  location : Location
  arguments : List Token
  stop : Token
  rest : List Token
  split : tokens = before ++ ⟨.identifier name, location⟩ :: arguments ++ stop :: rest
  words : ∀ token ∈ arguments, token.isWord
  ended : stop.isWord = false
  called : IsLines before ∧ ¬(arguments = [] ∧ stop.lexeme = .equals) ∨ AfterEquals before

variable {φ : Type} {registry : Registry φ} {tokens seen before rest used : List Token}
  {token stop final : Token} {name : String} {location : Location} {count : Nat}
  {diagnostic : Diagnostic} {standing reached : Standing}

/-- The entry that a call refers to, or why there is none. -/
def CallSite.resolution (site : CallSite tokens) (registry : Registry φ) :
    Except Diagnostic (Entry φ) :=
  registry.resolve site.location site.name site.arguments.length

/-- All calls among the tokens resolve. -/
def Registry.Settles (registry : Registry φ) (tokens : List Token) : Prop :=
  ∀ site : CallSite tokens, ∃ target, site.resolution registry = .ok target

/-- The problem of a token that offends after `before`. -/
inductive Offence (before : List Token) (token : Token) : Problem → Prop where
  /-- E101: a statement has to begin there. -/
  | statement : IsLines before → Offence before token (.unexpectedToken token.lexeme)
  /-- E104: the value of an assignment has to stand there. -/
  | value : AfterEquals before → Offence before token (.expectedValue token.lexeme)
  /-- E103: the line has to end there. -/
  | lineEnd : ¬IsLines before → ¬AfterEquals before →
      Offence before token (.expectedEndOfLine token.lexeme)

/-- The first fault of tokens: the first call that does not resolve, else the token that offends,
else the end of the tokens. -/
inductive FirstFault (registry : Registry φ) (tokens : List Token) : Diagnostic → Prop where
  /-- Every call before it resolves. -/
  | unresolved {seen : List Token} {offender : Option Token} {site : CallSite seen}
      {diagnostic : Diagnostic} :
      Examined tokens seen offender → site.resolution registry = .error diagnostic →
      (∀ earlier : CallSite seen, earlier.before.length < site.before.length →
        ∃ target, earlier.resolution registry = .ok target) →
      diagnostic.location = site.location →
      diagnostic.problem.code ∈ ["E110", "E111", "E112"] →
      FirstFault registry tokens diagnostic
  | offending {before : List Token} {token : Token} {problem : Problem} :
      Examined tokens (before ++ [token]) (some token) → registry.Settles (before ++ [token]) →
      Offence before token problem → FirstFault registry tokens ⟨problem, token.location⟩
  /-- E102: there is no end of input among the tokens. -/
  | ranOut {final : Token} :
      Examined tokens tokens none → registry.Settles tokens →
      (∀ token ∈ tokens, token.lexeme ≠ .endOfInput) → tokens.getLast? = some final →
      FirstFault registry tokens ⟨.unexpectedEnd, final.location⟩

/-! ## Tokens up to the end of input -/

/-- Tokens before the end of input are kept, and the cut is made in what follows them. -/
theorem upToEnd_append (h : ∀ token ∈ before, token.lexeme ≠ .endOfInput) :
    upToEnd (before ++ rest) = before ++ upToEnd rest := by
  induction before with
  | nil => rfl
  | cons token before ih =>
    rw [List.cons_append, upToEnd, if_neg (h token List.mem_cons_self),
      ih fun found hmem => h found (List.mem_cons_of_mem _ hmem), List.cons_append]

theorem exists_upToEnd_cons (token : Token) (rest : List Token) :
    ∃ more, upToEnd (token :: rest) = token :: more := by
  rw [upToEnd]
  split
  · exact ⟨[], rfl⟩
  · exact ⟨upToEnd rest, rfl⟩

/-- The machine goes on past no end of input. So the tokens it has read, unless it has finished, are
all kept by `upToEnd`. -/
theorem Standing.ne_endOfInput (h : standing.after tokens = some reached)
    (hover : reached ≠ .finished) :
    ∀ token ∈ tokens, token.lexeme ≠ .endOfInput := by
  induction tokens generalizing standing with
  | nil => exact List.forall_mem_nil _
  | cons token tokens ih =>
    rw [Standing.after] at h
    obtain ⟨middle, hnext, hafter⟩ := Option.bind_eq_some_iff.1 h
    refine List.forall_mem_cons.2 ⟨fun hlex => ?_, ih hafter⟩
    -- Only an end of line can be followed by the end of input, and nothing can follow that.
    obtain ⟨lexeme, place⟩ := token
    cases hlex
    cases standing <;> cases hnext
    cases tokens with
    | nil => cases hafter; exact hover rfl
    | cons found tokens => cases hafter

/-! ## Calls and the machine -/

/-- A word ends no call: it is one more argument, or the name of a call that begins. -/
theorem Standing.ended?_of_isWord (h : token.isWord) : standing.ended? token = none := by
  cases standing <;> simp [ended?, h]

/-- After arguments, any token that is no word ends the call, also one that no program can have
there. -/
theorem Standing.ended?_arguments (h : token.isWord = false) :
    (Standing.arguments name location count).ended? token = some (name, location, count) := by
  simp [ended?, h]

/-- The machine knows the call whose arguments end. After the name and the arguments it stands where
the next token ends exactly this call. -/
theorem CallSite.exists_ended (site : CallSite tokens) :
    ∃ standing,
      Standing.lineStart.after
        (site.before ++ ⟨.identifier site.name, site.location⟩ :: site.arguments) = some standing ∧
      standing.ended? site.stop = some (site.name, site.location, site.arguments.length) := by
  rcases site.called with ⟨hlines, hstop⟩ | hequals
  · have hcall : (Standing.named site.name site.location).call?
        = some (site.name, site.location, 0) := rfl
    obtain ⟨standing, hafter, -, hcases⟩ := Standing.after_words hcall site.words
    refine ⟨standing, by rw [hlines.after_append]; exact hafter, ?_⟩
    rcases hcases with ⟨hnone, rfl⟩ | rfl
    · have hequals : site.stop.lexeme ≠ .equals := fun heq => hstop ⟨hnone, heq⟩
      simp [Standing.ended?, site.ended, hequals, hnone]
    · exact Standing.ended?_arguments site.ended
  · refine ⟨.arguments site.name site.location (0 + site.arguments.length), ?_, ?_⟩
    · rw [Standing.after_append, hequals.after]
      exact Standing.after_arguments site.words
    · rw [Nat.zero_add]
      exact Standing.ended?_arguments site.ended

/-- Where the machine knows a call whose arguments end, there is that call. What follows the token
that ends it is left open, since it decides nothing. -/
theorem exists_callSite (hseen : Standing.lineStart.after seen = some standing)
    (hended : standing.ended? stop = some (name, location, count)) (rest : List Token) :
    ∃ site : CallSite (seen ++ stop :: rest),
      site.before ++ ⟨.identifier site.name, site.location⟩ :: site.arguments = seen ∧
      site.stop = stop ∧ site.name = name ∧ site.location = location ∧
      site.arguments.length = count := by
  cases Standing.Reached.of_after hseen with
  | lineStart | equals | bound | finished => cases hended
  | @named lines found place hlines =>
    rw [Standing.ended?] at hended
    split at hended
    · cases hended
    · next hstop =>
      obtain ⟨hword, hequals⟩ := not_or.1 hstop
      cases hended
      exact ⟨⟨lines, name, location, [], stop, rest, rfl, List.forall_mem_nil _,
        Bool.eq_false_iff.2 hword, .inl ⟨hlines, fun h => hequals h.2⟩⟩, rfl, rfl, rfl, rfl, rfl⟩
  | @arguments before words found place hbefore hwords =>
    rw [Standing.ended?] at hended
    split at hended
    · cases hended
    · next hword =>
      cases hended
      refine ⟨⟨before, name, location, words, stop, rest, rfl, hwords,
        Bool.eq_false_iff.2 hword, ?_⟩, rfl, rfl, rfl, rfl, rfl⟩
      exact hbefore.imp_left fun h => ⟨h.1, fun hnone => h.2 hnone.1⟩

/-- The token ends no call, or one that resolves. -/
def Registry.EndsWell (registry : Registry φ) (standing : Standing) (token : Token) : Prop :=
  ∀ name location count, standing.ended? token = some (name, location, count) →
    ∃ target, registry.resolve location name count = .ok target

/-- One more token can end one more call. Any other call among the tokens has ended before, so it
was among them already. -/
theorem Registry.Settles.concat (h : registry.Settles tokens)
    (hseen : Standing.lineStart.after tokens = some standing)
    (hended : registry.EndsWell standing token) : registry.Settles (tokens ++ [token]) := by
  intro site
  have hsplit := site.split
  rcases List.eq_nil_or_concat site.rest with hrest | ⟨rest, final, hrest⟩
  · -- The arguments end before the new token.
    rw [hrest] at hsplit
    obtain ⟨hold, hstop⟩ := List.append_inj' hsplit rfl
    obtain ⟨reached, hreached, hcall⟩ := site.exists_ended
    rw [← hold, hseen] at hreached
    rw [← List.head_eq_of_cons_eq hstop, ← Option.some.inj hreached] at hcall
    exact hended _ _ _ hcall
  · -- The arguments end earlier.
    rw [hrest, List.concat_eq_append, ← List.cons_append, ← List.append_assoc] at hsplit
    obtain ⟨hold, -⟩ := List.append_inj' hsplit rfl
    exact h ⟨site.before, site.name, site.location, site.arguments, site.stop, rest, hold,
      site.words, site.ended, site.called⟩

/-! ## Stopping -/

/-- The machine has read the tokens, and the calls among them resolve. -/
structure Passed (registry : Registry φ) (seen : List Token) (standing : Standing) : Prop where
  after : Standing.lineStart.after seen = some standing
  settles : registry.Settles seen

namespace Passed

theorem nil : Passed registry [] .lineStart :=
  ⟨rfl, fun site => absurd site.split (by simp)⟩

/-- The machine reads one more token, which ends no call, or one that resolves. -/
theorem concat (h : Passed registry seen standing) (hnext : standing.next token = some reached)
    (hended : registry.EndsWell standing token) : Passed registry (seen ++ [token]) reached := by
  refine ⟨?_, h.settles.concat h.after hended⟩
  rw [Standing.after_concat, h.after]
  exact hnext

/-- Words end no call, so the machine reads them without anything to resolve. -/
theorem words (h : Passed registry seen standing) (hwords : ∀ token ∈ used, token.isWord)
    (hafter : standing.after used = some reached) : Passed registry (seen ++ used) reached := by
  induction used generalizing seen standing with
  | nil =>
    cases hafter
    rwa [List.append_nil]
  | cons word used ih =>
    rw [Standing.after] at hafter
    obtain ⟨middle, hnext, hafter⟩ := Option.bind_eq_some_iff.1 hafter
    have hended : registry.EndsWell standing word := fun name location count heq => by
      rw [Standing.ended?_of_isWord (hwords word List.mem_cons_self)] at heq
      cases heq
    rw [List.append_cons]
    exact ih (h.concat hnext hended) (fun t ht => hwords t (List.mem_cons_of_mem _ ht)) hafter

/-- Tokens that the machine has read can begin a program. This is what the machine was made for
(`viable_iff`). -/
theorem viable (h : Passed registry seen standing) : Viable seen :=
  viable_iff.2 ⟨standing, h.after⟩

/-- Tokens that the machine has read are kept by the cut, and so is the token after them, if the
machine has not finished. -/
theorem exists_upToEnd (h : Passed registry seen standing) (hover : standing ≠ .finished)
    (token : Token) (rest : List Token) :
    ∃ more, upToEnd (seen ++ token :: rest) = seen ++ token :: more := by
  obtain ⟨more, hmore⟩ := exists_upToEnd_cons token rest
  exact ⟨more, by rw [upToEnd_append (Standing.ne_endOfInput h.after hover), hmore]⟩

/-- The token at which the machine cannot go on is the fault if it ends no call that does not
resolve. Which problem it has depends on where the machine stands. -/
theorem offending (h : Passed registry seen standing) (hover : standing ≠ .finished)
    (hnext : standing.next token = none) (hended : registry.EndsWell standing token)
    {problem : Problem} (hoffence : Offence seen token problem) (rest : List Token) :
    FirstFault registry (seen ++ token :: rest) ⟨problem, token.location⟩ := by
  obtain ⟨more, hmore⟩ := h.exists_upToEnd hover token rest
  have hstuck : ¬Viable (seen ++ [token]) := by
    rw [viable_iff, Standing.after_concat, h.after]
    rintro ⟨reached, hreached⟩
    rw [Option.bind_some, hnext] at hreached
    cases hreached
  exact .offending (.offending hmore h.viable hstuck) (h.settles.concat h.after hended) hoffence

/-- Where the tokens end without an end of input, they have run out. All calls among them resolve,
and none of them offends, so nothing comes before this fault. -/
theorem ranOut (h : Passed registry tokens standing) (hover : standing ≠ .finished) {final : Token}
    (hfinal : tokens.getLast? = some final) :
    FirstFault registry tokens ⟨.unexpectedEnd, final.location⟩ := by
  have hends := Standing.ne_endOfInput h.after hover
  have hall : upToEnd tokens = tokens := by
    have happ : upToEnd (tokens ++ []) = tokens ++ [] := upToEnd_append hends
    rwa [List.append_nil] at happ
  have hviable := h.viable
  rw [← hall] at hviable
  have hexamined : Examined tokens (upToEnd tokens) none := .viable hviable
  rw [hall] at hexamined
  exact .ranOut hexamined h.settles hends hfinal

end Passed

/-- Tokens are viable, or there is a first one that offends. Once the tokens are not viable any
more, they stay so, hence the induction from the right. -/
theorem viable_or_exists_offending (tokens : List Token) :
    Viable tokens ∨ ∃ before token rest, tokens = before ++ token :: rest ∧ Viable before ∧
      ¬Viable (before ++ [token]) := by
  induction tokens using List.reverseRecOn with
  | nil => exact .inl (viable_iff.2 ⟨.lineStart, rfl⟩)
  | append_singleton tokens token ih =>
    rcases ih with hviable | ⟨before, found, rest, rfl, hbefore, hfound⟩
    · by_cases hmore : Viable (tokens ++ [token])
      · exact .inl hmore
      · exact .inr ⟨tokens, token, [], rfl, hviable, hmore⟩
    · exact .inr ⟨before, found, rest ++ [token], by simp, hbefore, hfound⟩

/-- Tokens that are viable are examined, and one more. It may be the one that offends, but no token
before it can be. -/
theorem exists_examined (hseen : Viable seen) (hmore : upToEnd tokens = seen ++ token :: rest) :
    ∃ more offender, Examined tokens (seen ++ token :: more) offender := by
  rcases viable_or_exists_offending (upToEnd tokens) with hall | ⟨before, found, left, heq, hb, hf⟩
  · exact ⟨rest, none, by rw [← hmore]; exact .viable hall⟩
  · have hexamined := Examined.offending heq hb hf
    rw [hmore] at heq
    rcases append_cons_cases heq with ⟨middle, rfl, -⟩ | ⟨rfl, rfl, -⟩ | ⟨middle, rfl, -⟩
    · rw [List.append_assoc] at hexamined
      exact ⟨_, _, hexamined⟩
    · exact ⟨_, _, hexamined⟩
    · -- An offending token cannot stand among viable ones.
      rw [List.append_cons] at hseen
      exact absurd hseen.of_append hf

/-- Calls whose arguments end at one place have as many arguments, because the machine knows one
call there and not two. -/
theorem CallSite.length_arguments_eq {more : List Token} (site : CallSite tokens)
    (other : CallSite more)
    (hseen : site.before ++ ⟨.identifier site.name, site.location⟩ :: site.arguments
      = other.before ++ ⟨.identifier other.name, other.location⟩ :: other.arguments)
    (hstop : site.stop = other.stop) : site.arguments.length = other.arguments.length := by
  obtain ⟨standing, hstanding, hcall⟩ := site.exists_ended
  obtain ⟨standing', hstanding', hcall'⟩ := other.exists_ended
  rw [hseen, hstanding'] at hstanding
  rw [← Option.some.inj hstanding, hstop, hcall'] at hcall
  injection hcall with hcall
  exact (congrArg (·.2.2) hcall).symm

/-- A call whose name stands before that of another one has ended before the other ends. So it is a
call among the tokens that were read when the other ends. -/
theorem CallSite.exists_of_before_lt {more : List Token} {site : CallSite (seen ++ stop :: more)}
    (hseen : site.before ++ ⟨.identifier site.name, site.location⟩ :: site.arguments = seen)
    (hstop : site.stop = stop) (earlier : CallSite (seen ++ stop :: more))
    (hlt : earlier.before.length < site.before.length) :
    ∃ inner : CallSite seen, ∀ registry : Registry φ,
      inner.resolution registry = earlier.resolution registry := by
  have hlength := congrArg List.length hseen
  simp only [List.length_append, List.length_cons] at hlength
  rcases append_cons_cases earlier.split with
    ⟨middle, hmiddle, -⟩ | ⟨heq, hsame, -⟩ | ⟨middle, hmiddle, -⟩
  · -- The token that ends the other call would be an argument of the earlier one.
    rcases append_cons_cases hmiddle with ⟨left, -, hargs⟩ | ⟨hleft, -⟩ | ⟨left, hleft, -⟩
    · have hword := earlier.words stop (by rw [hargs]; simp)
      rw [← hstop, site.ended] at hword
      cases hword
    · have hsize := congrArg List.length hleft
      omega
    · have hsize := congrArg List.length hleft
      simp only [List.length_append, List.length_cons] at hsize
      omega
  · -- Both calls would end at one place.
    have hcount := site.length_arguments_eq earlier (hseen.trans heq) (hstop.trans hsame)
    have hsize := congrArg List.length heq
    simp only [List.length_append, List.length_cons] at hsize
    omega
  · exact ⟨⟨earlier.before, earlier.name, earlier.location, earlier.arguments, earlier.stop,
      middle, hmiddle, earlier.words, earlier.ended, earlier.called⟩, fun registry => rfl⟩

/-- A call that does not resolve is reported at its name, and there are three reasons for it: no
such function, too few arguments, or too many. -/
theorem Registry.of_resolve_error
    (h : registry.resolve location name count = .error diagnostic) :
    diagnostic.location = location ∧ diagnostic.problem.code ∈ ["E110", "E111", "E112"] := by
  unfold Registry.resolve at h
  split at h
  · cases h
    simp [Problem.code]
  · split at h
    · cases h
      simp [Problem.code]
    · split at h
      · cases h
        simp [Problem.code]
      · cases h

/-- The first call that does not resolve is the fault. The calls with names before it have ended and
were resolved (`CallSite.exists_of_before_lt`). -/
theorem Passed.unresolved (h : Passed registry seen standing)
    (hended : standing.ended? stop = some (name, location, count))
    (hresolve : registry.resolve location name count = .error diagnostic) (rest : List Token) :
    FirstFault registry (seen ++ stop :: rest) diagnostic := by
  have hover : standing ≠ .finished := by
    rintro rfl
    cases hended
  obtain ⟨left, hleft⟩ := h.exists_upToEnd hover stop rest
  obtain ⟨more, offender, hexamined⟩ := exists_examined h.viable hleft
  obtain ⟨site, hseen, hstop, rfl, rfl, rfl⟩ := exists_callSite h.after hended more
  have hfault := Registry.of_resolve_error hresolve
  refine .unresolved hexamined hresolve (fun earlier hlt => ?_) hfault.1 hfault.2
  obtain ⟨inner, hinner⟩ := CallSite.exists_of_before_lt hseen hstop earlier hlt
  obtain ⟨target, htarget⟩ := h.settles inner
  exact ⟨target, by rw [← hinner registry, htarget]⟩

/-! ## Following the parser -/

/-- A statement has been read, and what stands before `rest` is all of it: the token that follows
ends no call that does not resolve, and only an end of line may follow. -/
structure Complete (registry : Registry φ) (standing : Standing) (rest : List Token) : Prop where
  inside : standing ≠ .lineStart ∧ standing ≠ .equals ∧ standing ≠ .finished
  ended : ∀ stop ∈ rest.head?, registry.EndsWell standing stop
  next : ∀ stop ∈ rest.head?,
    standing.next stop = if stop.lexeme = .endOfLine then some .lineStart else none

/-- A part of the parser that begins after `seen` has been followed: it leaves tokens before which a
statement is complete, or its fault is the first one. -/
def Followed (registry : Registry φ) (seen tokens : List Token) :
    Except Diagnostic (Node φ × List Token) → Prop
  | .ok (_, rest) => ∃ used reached, tokens = used ++ rest ∧
      Passed registry (seen ++ used) reached ∧ Complete registry reached rest
  | .error diagnostic => FirstFault registry (seen ++ tokens) diagnostic

/-- A part of the parser that has been followed after one more token has been followed from that
token on. -/
theorem Followed.cons {outcome : Except Diagnostic (Node φ × List Token)}
    (h : Followed registry (seen ++ [token]) tokens outcome) :
    Followed registry seen (token :: tokens) outcome := by
  cases outcome with
  | error diagnostic => rwa [Followed, ← List.append_cons] at h
  | ok pair =>
    obtain ⟨used, reached, rfl, hpassed, hcomplete⟩ := h
    exact ⟨token :: used, reached, rfl, by rwa [List.append_cons], hcomplete⟩

/-- What is made of the tree does not matter to where the parser stands, so it was followed as
before. -/
theorem Followed.map {outcome : Except Diagnostic (Node φ × List Token)}
    (h : Followed registry seen tokens outcome) (f : Node φ → Node φ) :
    Followed registry seen tokens (outcome.map fun pair => (f pair.1, pair.2)) := by
  cases outcome with
  | error diagnostic => exact h
  | ok pair => exact h

/-- Nothing but an end of line may follow the arguments of a call. Any other token that ends it
offends. -/
theorem Standing.next_of_ended? {call : String × Location × Nat}
    (h : standing.ended? stop = some call) :
    standing.next stop = if stop.lexeme = .endOfLine then some .lineStart else none := by
  obtain ⟨lexeme, place⟩ := stop
  cases standing with
  | lineStart | equals | bound | finished => cases h
  | named | arguments => cases lexeme <;> cases h <;> rfl

namespace Passed

/-- A call is followed from its name on, if what comes next is an argument or ends it. It takes its
arguments, and then it resolves, or it is the first that does not. -/
theorem parseCall (h : Passed registry seen standing)
    (hcall : standing.call? = some (name, location, 0))
    (hsign : ∀ token ∈ tokens.head?, token.isWord = false →
      standing.ended? token = some (name, location, 0))
    (hfinal : (seen ++ tokens).getLast? = some final) :
    Followed registry seen tokens (parseCall registry final.location name location tokens) := by
  obtain ⟨used, happ, hargs, hhead⟩ := takeArguments_reads (φ := φ) tokens
  obtain ⟨arguments, rest, htake⟩ : ∃ arguments rest,
    takeArguments (φ := φ) tokens = (arguments, rest) := ⟨_, _, rfl⟩
  rw [htake] at happ hargs hhead
  have hwords := (wordsOfAll_of_forall₂ hargs).1
  obtain ⟨reached, hafter, hreached, hcases⟩ := Standing.after_words hcall hwords
  have hpassed := h.words hwords hafter
  have hover : reached ≠ .finished := by
    rintro rfl
    cases hreached
  cases rest with
  | nil =>
    simp only [Script.parseCall, htake]
    rw [happ, List.append_nil] at hfinal ⊢
    exact hpassed.ranOut hover hfinal
  | cons stop rest =>
    have hstop := hhead stop rfl
    have hended : reached.ended? stop = some (name, location, used.length) := by
      rcases hcases with ⟨rfl, rfl⟩ | rfl
      · exact hsign stop (by rw [happ]; rfl) hstop
      · exact Standing.ended?_arguments hstop
    rw [parseCall_eq htake (List.cons_ne_nil _ _), ← hargs.length_eq]
    cases hresolve : registry.resolve location name used.length with
    | error diagnostic =>
      have hfault := hpassed.unresolved hended hresolve rest
      rw [List.append_assoc, ← happ] at hfault
      exact hfault
    | ok target =>
      refine ⟨used, reached, happ, hpassed, ⟨?_, ?_, ?_⟩⟩
      · refine ⟨?_, ?_, hover⟩ <;> rintro rfl <;> cases hreached
      · intro found hfound name' location' count' heq
        cases hfound
        rw [hended] at heq
        cases heq
        exact ⟨target, hresolve⟩
      · intro found hfound
        cases hfound
        exact Standing.next_of_ended? hended

/-- The value of an assignment is followed from after its equals sign: a text or a call. Anything
else offends there. -/
theorem parseValue (h : Passed registry seen .equals)
    (hfinal : (seen ++ tokens).getLast? = some final) :
    Followed registry seen tokens (parseValue registry final.location tokens) := by
  have hended (token : Token) : registry.EndsWell .equals token := fun _ _ _ heq => by cases heq
  match tokens with
  | [] =>
    rw [List.append_nil] at hfinal
    rw [Followed.eq_def, List.append_nil]
    exact h.ranOut (by simp) hfinal
  | ⟨lexeme, place⟩ :: tokens =>
    cases lexeme with
    | identifier name =>
      rw [List.append_cons] at hfinal
      refine Followed.cons ((h.concat rfl (hended _)).parseCall rfl ?_ hfinal)
      exact fun token _ hword => Standing.ended?_arguments hword
    | literal text =>
      refine ⟨[⟨.literal text, place⟩], .bound, rfl, h.concat rfl (hended _), ⟨by simp, ?_, ?_⟩⟩
      · intro stop _ name location count heq
        cases heq
      · intro stop _
        obtain ⟨lexeme, location⟩ := stop
        cases lexeme <;> rfl
    | equals | endOfLine | endOfInput =>
      exact h.offending (by simp) rfl (hended _) (.value (after_eq_equals_iff.1 h.after)) tokens

/-- A statement is followed from its first token on. A name begins it, and whether an equals sign
comes next decides between assignment and call. -/
theorem parseStatement (h : Passed registry seen .lineStart)
    (hinput : token.lexeme ≠ .endOfInput) (hline : token.lexeme ≠ .endOfLine)
    (hfinal : (seen ++ token :: tokens).getLast? = some final) :
    Followed registry seen (token :: tokens)
      (parseStatement registry final.location token tokens) := by
  have hended (token : Token) : registry.EndsWell .lineStart token := fun _ _ _ heq => by cases heq
  obtain ⟨lexeme, place⟩ := token
  cases lexeme with
  | endOfLine => exact absurd rfl hline
  | endOfInput => exact absurd rfl hinput
  | literal | equals =>
    have hlines := after_eq_lineStart_iff.1 h.after
    exact h.offending (by simp) rfl (hended _) (.statement hlines) tokens
  | identifier name =>
    have hnamed : Passed registry (seen ++ [⟨.identifier name, place⟩]) (.named name place) :=
      h.concat rfl (hended _)
    rw [List.append_cons] at hfinal
    by_cases hequals : ∃ sign rest, tokens = ⟨.equals, sign⟩ :: rest
    · obtain ⟨sign, rest, rfl⟩ := hequals
      have hsign : registry.EndsWell (.named name place) ⟨.equals, sign⟩ :=
        fun _ _ _ heq => by cases heq
      rw [List.append_cons] at hfinal
      rw [parseStatement_equals]
      exact (((hnamed.concat rfl hsign).parseValue hfinal).cons.cons).map _
    · have hfirst : ∀ token ∈ tokens.head?, token.lexeme ≠ .equals := by
        intro token hmem heq
        obtain ⟨rest, rfl⟩ := List.head?_eq_some_iff.1 hmem
        exact hequals ⟨token.location, rest, by rw [← heq]⟩
      rw [parseStatement_eq_parseCall hfirst]
      refine Followed.cons (hnamed.parseCall rfl (fun token hmem hword => ?_) hfinal)
      simp [Standing.ended?, hword, hfirst token hmem]

/-- A statement that is parsed up to an end of line is followed by the beginning of a line. The end
of the line has ended the call of the statement. -/
theorem of_followed {node : Node φ} {next : Token}
    (hfollowed : Followed registry seen tokens (.ok (node, next :: rest)))
    (hnext : next.lexeme = .endOfLine) :
    ∃ line, tokens = line ++ rest ∧ Passed registry (seen ++ line) .lineStart := by
  obtain ⟨used, reached, rfl, hpassed, hcomplete⟩ := hfollowed
  have hreached := hcomplete.next next rfl
  rw [if_pos hnext] at hreached
  refine ⟨used ++ [next], List.append_cons _ _ _, ?_⟩
  rw [← List.append_assoc]
  exact hpassed.concat hreached (hcomplete.ended next rfl)

/-- Whole programs are followed from the beginning of a line on: up to an end of input, or to the
first fault. The cases follow the recursion of the parser. -/
theorem parseStatements (h : Passed registry seen .lineStart)
    (hfinal : (seen ++ tokens).getLast? = some final) :
    (∀ program, parseStatements registry final.location tokens = .ok program →
      ∃ used more, tokens = used ++ more ∧ Passed registry (seen ++ used) .finished) ∧
    ∀ diagnostic, parseStatements registry final.location tokens = .error diagnostic →
      FirstFault registry (seen ++ tokens) diagnostic := by
  have hended (token : Token) : registry.EndsWell .lineStart token := fun _ _ _ heq => by cases heq
  fun_induction Script.parseStatements registry final.location tokens generalizing seen with
  | case1 =>
    rw [List.append_nil] at hfinal ⊢
    refine ⟨fun _ heq => (by cases heq), fun _ heq => ?_⟩
    cases heq
    exact h.ranOut (by simp) hfinal
  | case2 token tokens hlex =>
    obtain ⟨lexeme, place⟩ := token
    cases hlex
    refine ⟨fun _ _ => ⟨[⟨.endOfInput, place⟩], tokens, rfl, h.concat rfl (hended _)⟩, ?_⟩
    exact fun _ heq => by cases heq
  | case3 token tokens hlex ih =>
    obtain ⟨lexeme, place⟩ := token
    cases hlex
    rw [List.append_cons] at hfinal ⊢
    obtain ⟨hok, herror⟩ := ih (h.concat rfl (hended _)) hfinal
    refine ⟨fun program heq => ?_, herror⟩
    obtain ⟨used, more, rfl, hpassed⟩ := hok program heq
    exact ⟨⟨.endOfLine, place⟩ :: used, more, rfl, by rwa [List.append_cons]⟩
  | case4 token tokens found hstatement hinput hline =>
    have hfollowed := h.parseStatement hinput hline hfinal
    rw [hstatement] at hfollowed
    refine ⟨fun _ heq => (by cases heq), fun _ heq => ?_⟩
    cases heq
    exact hfollowed
  | case5 token tokens node hstatement hinput hline =>
    have hfollowed := h.parseStatement hinput hline hfinal
    rw [hstatement] at hfollowed
    obtain ⟨used, reached, happ, hpassed, hcomplete⟩ := hfollowed
    rw [List.append_nil] at happ
    rw [happ] at hfinal ⊢
    refine ⟨fun _ heq => (by cases heq), fun _ heq => ?_⟩
    cases heq
    exact hpassed.ranOut hcomplete.inside.2.2 hfinal
  | case6 token tokens node next rest hstatement hnext nodes hrest hinput hline ih =>
    have hfollowed := h.parseStatement hinput hline hfinal
    rw [hstatement] at hfollowed
    obtain ⟨line, happ, hpassed⟩ := of_followed hfollowed hnext
    rw [happ, ← List.append_assoc] at hfinal
    obtain ⟨used, more, rfl, hover⟩ := (ih hpassed hfinal).1 nodes hrest
    refine ⟨fun _ _ => ⟨line ++ used, more, ?_, ?_⟩, fun _ heq => by cases heq⟩
    · rw [happ, List.append_assoc]
    · rwa [← List.append_assoc]
  | case7 token tokens node next rest hstatement hnext found hrest hinput hline ih =>
    have hfollowed := h.parseStatement hinput hline hfinal
    rw [hstatement] at hfollowed
    obtain ⟨line, happ, hpassed⟩ := of_followed hfollowed hnext
    rw [happ, ← List.append_assoc] at hfinal ⊢
    refine ⟨fun _ heq => (by cases heq), fun _ heq => ?_⟩
    cases heq
    exact (ih hpassed hfinal).2 found hrest
  | case8 token tokens node next rest hstatement hinput hline hnext =>
    have hfollowed := h.parseStatement hinput hline hfinal
    rw [hstatement] at hfollowed
    obtain ⟨used, reached, happ, hpassed, hcomplete⟩ := hfollowed
    have hreached := hcomplete.next next rfl
    rw [if_neg hnext] at hreached
    obtain ⟨hstart, hequals, hover⟩ := hcomplete.inside
    have hoffence : Offence (seen ++ used) next (.expectedEndOfLine next.lexeme) := by
      refine .lineEnd (fun hlines => hstart ?_) (fun hsign => hequals ?_)
      · exact Option.some.inj (hpassed.after.symm.trans hlines.after)
      · exact Option.some.inj (hpassed.after.symm.trans hsign.after)
    refine ⟨fun _ heq => (by cases heq), fun _ heq => ?_⟩
    cases heq
    rw [happ, ← List.append_assoc]
    exact hpassed.offending hover hreached (hcomplete.ended next rfl) hoffence rest

end Passed

/-! ## One fault -/

/-- Only one token can be the first that offends, and so the tokens that are examined are the
same. -/
theorem Examined.unique {more : List Token} {offender offender' : Option Token}
    (h : Examined tokens seen offender) (h' : Examined tokens more offender') :
    seen = more ∧ offender = offender' := by
  -- A token cannot offend among viable ones.
  have hnot {before rest : List Token} {token : Token}
      (hviable : Viable (before ++ token :: rest)) : Viable (before ++ [token]) := by
    rw [List.append_cons] at hviable
    exact hviable.of_append
  cases h with
  | viable hall =>
    cases h' with
    | viable => exact ⟨rfl, rfl⟩
    | offending heq _ hoffends =>
      rw [heq] at hall
      exact absurd (hnot hall) hoffends
  | offending heq hbefore hoffends =>
    cases h' with
    | viable hall =>
      rw [heq] at hall
      exact absurd (hnot hall) hoffends
    | offending heq' hbefore' hoffends' =>
      rcases append_cons_cases (heq.symm.trans heq') with
        ⟨middle, rfl, -⟩ | ⟨rfl, rfl, -⟩ | ⟨middle, rfl, -⟩
      · exact absurd (hnot hbefore') hoffends
      · exact ⟨rfl, rfl⟩
      · exact absurd (hnot hbefore) hoffends'

/-- A token that offends has one problem, since the machine is in one place only: at the beginning
of a line, after an equals sign, or elsewhere. -/
theorem Offence.unique {problem problem' : Problem} (h : Offence before token problem)
    (h' : Offence before token problem') : problem = problem' := by
  cases h with
  | statement hlines =>
    cases h' with
    | statement => rfl
    | value hequals => cases hlines.after.symm.trans hequals.after
    | lineEnd hnot _ => exact absurd hlines hnot
  | value hequals =>
    cases h' with
    | statement hlines => cases hlines.after.symm.trans hequals.after
    | value => rfl
    | lineEnd _ hnot => exact absurd hequals hnot
  | lineEnd hlines hequals =>
    cases h' with
    | statement h => exact absurd h hlines
    | value h => exact absurd h hequals
    | lineEnd => rfl

/-- Calls whose names stand at one place are one call: their arguments are the words that follow,
all of them. -/
theorem CallSite.resolution_eq (site other : CallSite tokens)
    (h : site.before.length = other.before.length) :
    site.resolution registry = other.resolution registry := by
  have hsplit := site.split.symm.trans other.split
  rw [List.append_assoc, List.append_assoc] at hsplit
  obtain ⟨-, hright⟩ := List.append_inj hsplit h
  obtain ⟨hname, hargs⟩ := List.cons.inj hright
  have hsame : site.arguments = other.arguments := by
    rcases append_cons_cases hargs with ⟨middle, heq, -⟩ | ⟨heq, -⟩ | ⟨middle, heq, -⟩
    · have hword := other.words site.stop (by rw [heq]; simp)
      rw [site.ended] at hword
      cases hword
    · exact heq
    · have hword := site.words other.stop (by rw [heq]; simp)
      rw [other.ended] at hword
      cases hword
  injection hname with hlexeme hlocation
  injection hlexeme with hname
  rw [resolution, resolution, hname, hlocation, hsame]

/-- Tokens have one first fault. Of two calls that do not resolve only one can be the first, and the
other faults come only if all calls resolve. -/
theorem FirstFault.unique {diagnostic' : Diagnostic} (h : FirstFault registry tokens diagnostic)
    (h' : FirstFault registry tokens diagnostic') : diagnostic = diagnostic' := by
  cases h with
  | @unresolved seen offender site _ hexamined hresolve hfirst _ _ =>
    cases h' with
    | @unresolved seen' offender' site' _ hexamined' hresolve' hfirst' _ _ =>
      obtain ⟨rfl, -⟩ := hexamined.unique hexamined'
      rcases Nat.lt_trichotomy site.before.length site'.before.length with hlt | heq | hgt
      · obtain ⟨target, htarget⟩ := hfirst' site hlt
        rw [hresolve] at htarget
        cases htarget
      · rw [site.resolution_eq site' heq, hresolve'] at hresolve
        cases hresolve
        rfl
      · obtain ⟨target, htarget⟩ := hfirst site' hgt
        rw [hresolve'] at htarget
        cases htarget
    | offending hexamined' hsettles _ | ranOut hexamined' hsettles _ _ =>
      obtain ⟨rfl, -⟩ := hexamined.unique hexamined'
      obtain ⟨target, htarget⟩ := hsettles site
      rw [hresolve] at htarget
      cases htarget
  | offending hexamined hsettles hoffence =>
    cases h' with
    | @unresolved seen' offender' site' _ hexamined' hresolve' _ _ _ =>
      obtain ⟨rfl, -⟩ := hexamined.unique hexamined'
      obtain ⟨target, htarget⟩ := hsettles site'
      rw [hresolve'] at htarget
      cases htarget
    | offending hexamined' _ hoffence' =>
      obtain ⟨heq, -⟩ := hexamined.unique hexamined'
      obtain ⟨rfl, htoken⟩ := List.append_inj' heq rfl
      cases htoken
      rw [hoffence.unique hoffence']
    | ranOut hexamined' _ _ _ =>
      cases (hexamined.unique hexamined').2
  | ranOut hexamined hsettles _ hfinal =>
    cases h' with
    | @unresolved seen' offender' site' _ hexamined' hresolve' _ _ _ =>
      obtain ⟨rfl, -⟩ := hexamined.unique hexamined'
      obtain ⟨target, htarget⟩ := hsettles site'
      rw [hresolve'] at htarget
      cases htarget
    | offending hexamined' _ _ => cases (hexamined.unique hexamined').2
    | ranOut _ _ _ hfinal' =>
      rw [hfinal] at hfinal'
      cases hfinal'
      rfl

/-- Tokens without a fault: none offends, all calls resolve, and they do not run out. Each of the
three excludes one kind of fault. -/
theorem not_firstFault (hexamined : Examined tokens seen none) (hsettles : registry.Settles seen)
    (hend : tokens = [] ∨ ∃ token ∈ tokens, token.lexeme = .endOfInput) :
    ¬FirstFault registry tokens diagnostic := by
  intro h
  cases h with
  | @unresolved seen' offender site _ hexamined' hresolve _ _ _ =>
    obtain ⟨rfl, -⟩ := hexamined.unique hexamined'
    obtain ⟨target, htarget⟩ := hsettles site
    rw [hresolve] at htarget
    cases htarget
  | offending hexamined' _ _ => cases (hexamined.unique hexamined').2
  | ranOut _ _ hends hfinal =>
    rcases hend with rfl | ⟨token, hmem, hlex⟩
    · cases hfinal
    · exact hends token hmem hlex

/-- A program ends with its only end of input. So `upToEnd` cuts off exactly what follows a
program. -/
theorem IsProgram.exists_eq_append (h : IsProgram tokens) :
    ∃ front location, tokens = front ++ [⟨.endOfInput, location⟩] ∧
      ∀ token ∈ front, token.lexeme ≠ .endOfInput := by
  induction h with
  | @endOfInput location => exact ⟨[], location, rfl, List.forall_mem_nil _⟩
  | @blank sign _ _ ih =>
    obtain ⟨front, location, rfl, hfront⟩ := ih
    refine ⟨⟨.endOfLine, sign⟩ :: front, location, rfl, ?_⟩
    exact List.forall_mem_cons.2 ⟨by simp, hfront⟩
  | @statement line _ sign hline _ ih =>
    obtain ⟨front, location, rfl, hfront⟩ := ih
    refine ⟨line ++ ⟨.endOfLine, sign⟩ :: front, location, by simp, fun token hmem => ?_⟩
    rcases List.mem_append.1 hmem with hmem | hmem
    · intro hlex
      have hend := hline.isEnd.2 token hmem
      simp [Token.isEnd, hlex] at hend
    · exact List.forall_mem_cons.2 ⟨by simp, hfront⟩ token hmem

/-- **The parser reports the first fault, at the right token.** A parse fails if and only if the
tokens have a fault, and then with the first one. This is the first call that does not resolve, of
those whose arguments end at or before the first token with which no program can go on. If all of
these calls resolve, it is that token, which cannot begin a statement, or cannot be the value of an
assignment, or stands where the line should have ended. If there is no such token, the tokens have
run out without an end of input, and the fault is at the last of them. -/
theorem parse_eq_error_iff_firstFault (registry : Registry φ) (tokens : List Token)
    (diagnostic : Diagnostic) :
    parse registry tokens = .error diagnostic ↔ FirstFault registry tokens diagnostic := by
  by_cases hne : tokens = []
  · subst hne
    refine ⟨fun h => (by cases h), fun h => absurd h ?_⟩
    exact not_firstFault (.viable (viable_iff.2 ⟨_, rfl⟩)) Passed.nil.settles (.inl rfl)
  · rw [parse_eq_parseStatements registry hne]
    have hfinal := List.getLast?_eq_some_getLast hne
    have hstart : Passed registry [] .lineStart := Passed.nil
    obtain ⟨hok, herror⟩ := hstart.parseStatements hfinal
    refine ⟨herror diagnostic, fun h => ?_⟩
    cases hparse : parseStatements registry (tokens.getLast hne).location tokens with
    | error found => rw [(herror found hparse).unique h]
    | ok program =>
      obtain ⟨used, more, happ, hpassed⟩ := hok program hparse
      cases Standing.Reached.of_after hpassed.after with
      | finished hprog =>
        obtain ⟨front, location, hused, hfront⟩ := hprog.exists_eq_append
        rw [List.nil_append] at hused
        have hcut : upToEnd tokens = used := by
          rw [happ, hused, List.append_assoc, upToEnd_append hfront]
          rfl
        have hviable : Viable (upToEnd tokens) := by
          rw [hcut]
          exact hpassed.viable
        have hexamined := Examined.viable hviable
        rw [hcut] at hexamined
        have hmem : ⟨.endOfInput, location⟩ ∈ tokens := by simp [happ, hused]
        exact absurd h (not_firstFault hexamined hpassed.settles (.inr ⟨_, hmem, rfl⟩))

end ActivityScript.Script
