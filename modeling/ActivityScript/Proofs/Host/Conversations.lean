import ActivityScript.Host.World

/-!
# Conversations with the network

Which calls a conversation makes. A network may answer the same call in different ways, depending on
what it was called for before, so a call is always looked at together with the calls before it:
`Network.answers` pairs calls that are made one after the other with the refusals that they meet. A
conversation opens, goes through its steps up to the first one that is refused, and closes what it
opened; `converse_eq` says so in one equation. It succeeds if no call of it is refused
(`converse_eq_none_iff`). The payload leaves the host earlier than that: as soon as the call that
sends it has passed, whatever comes later (`delivered_converse_iff`).

`Conversed` says the same of the calls themselves: they are the beginning of what was asked for,
only the last of them may have been refused, and what was opened is closed (`conversed_converse`).
-/

namespace ActivityScript.Host

/-- The payload of a call that sends one. -/
def NetworkCall.payload? : NetworkCall → Option (List UInt8)
  | .sendAll payload | .sendTo payload _ _ => some payload
  | .connect .. | .socket | .bind .. | .socketName | .close => none

namespace Network

variable {network : Network} {opening send call : NetworkCall}
  {steps rest calls : List NetworkCall} {payload : List UInt8}

/-! ## Answers -/

/-- The refusal that a call meets if it is the next one. -/
def answer? (network : Network) (call : NetworkCall) : Option Refusal :=
  network.refusal? network.calls call

/-- A network that was given further calls. -/
def given (network : Network) (calls : List NetworkCall) : Network :=
  { network with calls := network.calls ++ calls }

/-- Calls that are made one after the other, each with the refusal that it meets. -/
def answers (network : Network) : List NetworkCall → List (NetworkCall × Option Refusal)
  | [] => []
  | call :: rest => (call, network.answer? call) :: (network.given [call]).answers rest

/-- None of the calls is refused when they are made one after the other. -/
def Passes (network : Network) (calls : List NetworkCall) : Prop :=
  ∀ answered ∈ network.answers calls, answered.2 = none

/-- The calls up to the first one that is refused, which is made as well. -/
def reached (network : Network) : List NetworkCall → List NetworkCall
  | [] => []
  | call :: rest =>
    if (network.answer? call).isSome then [call] else call :: (network.given [call]).reached rest

/-- What is given to a network in two parts is given to it at once. Only the calls are kept, and not
when they were made. -/
theorem given_given (calls more : List NetworkCall) :
    (network.given calls).given more = network.given (calls ++ more) := by
  rw [given, given, given, List.append_assoc]

/-- A network that is given no calls stays as it is. So what holds after some calls holds of the
network itself. -/
theorem given_nil (network : Network) : network.given [] = network := by
  rw [given, List.append_nil]

/-- The answers to calls in two parts: those to the second part come from the network that was given
the first. Whether the first part was refused plays no role here. -/
theorem answers_append (network : Network) (calls more : List NetworkCall) :
    network.answers (calls ++ more)
      = network.answers calls ++ (network.given calls).answers more := by
  induction calls generalizing network with
  | nil => rw [given_nil]; rfl
  | cons call calls ih =>
    rw [List.cons_append, answers, ih, given_given]
    rfl

/-- Calls pass if the first one is not refused and the others pass after it. The others are asked of
the network that has been given the first. -/
theorem passes_cons : network.Passes (call :: rest) ↔
    network.answer? call = none ∧ (network.given [call]).Passes rest :=
  List.forall_mem_cons

/-- Calls in two parts pass if the first part does and the second part does after it. This is
`answers_append` with no refusal on either side. -/
theorem passes_append : network.Passes (steps ++ rest) ↔
    network.Passes steps ∧ (network.given steps).Passes rest := by
  rw [Passes, answers_append]
  exact List.forall_mem_append

/-- A network never refuses to be called for nothing. A conversation without steps is only opened
and closed. -/
theorem passes_nil (network : Network) : network.Passes [] :=
  fun _ hmem => absurd hmem List.not_mem_nil

/-- One call passes if it is not refused. What the network was called for before is part of the
network. -/
theorem passes_singleton : network.Passes [call] ↔ network.answer? call = none :=
  passes_cons.trans (and_iff_left (passes_nil _))

/-! ## Conversations -/

/-- A call is answered, and the network has been given it in any case. What a refused call was is
known afterwards as well. -/
theorem call_eq (network : Network) (call : NetworkCall) :
    network.call call = (network.answer? call, network.given [call]) :=
  rfl

/-- Calls that pass have been made, and what follows them is up to the network after them. This is
how a conversation is followed up to the call that matters. -/
theorem callAll_append (h : network.Passes steps) (rest : List NetworkCall) :
    network.callAll (steps ++ rest) = (network.given steps).callAll rest := by
  induction steps generalizing network with
  | nil => rw [given_nil, List.nil_append]
  | cons call steps ih =>
    obtain ⟨hcall, hsteps⟩ := passes_cons.1 h
    rw [List.cons_append, callAll, call_eq, hcall]
    exact (ih hsteps).trans (by rw [given_given]; rfl)

/-- A single call at the end is made whether it is refused or not, and the answer to it is the
answer to the calls. -/
theorem callAll_singleton (network : Network) (call : NetworkCall) :
    network.callAll [call] = (network.answer? call, network.given [call]) := by
  rw [callAll, call_eq]
  cases network.answer? call <;> rfl

/-- The calls that are made are those up to the first refusal, and there is no refusal if and only
if all of them pass. -/
theorem callAll_cases (network : Network) (calls : List NetworkCall) :
    (network.callAll calls).2 = network.given (network.reached calls) ∧
      ((network.callAll calls).1 = none ↔ network.Passes calls) := by
  induction calls generalizing network with
  | nil => exact ⟨by rw [reached, given_nil]; rfl, iff_of_true rfl network.passes_nil⟩
  | cons call calls ih =>
    rw [callAll, call_eq, reached, passes_cons]
    cases network.answer? call with
    | some refusal => simp
    | none =>
      obtain ⟨hmade, hnone⟩ := ih (network.given [call])
      rw [given_given] at hmade
      exact ⟨hmade, hnone.trans (by simp)⟩

/-- A conversation opens, goes through its steps up to the first refusal, and closes. It does not
close what could not be opened. A refused close hides an earlier refusal. -/
theorem converse_eq (network : Network) (opening : NetworkCall) (rest : List NetworkCall) :
    network.converse opening rest
      = match network.answer? opening with
        | some refusal => (some refusal, network.given [opening])
        | none =>
          ((((network.given [opening]).callAll rest).2.answer? .close).or
              ((network.given [opening]).callAll rest).1,
            network.given (opening :: ((network.given [opening]).reached rest ++ [.close]))) := by
  rw [converse, call_eq]
  cases network.answer? opening with
  | some refusal => rfl
  | none =>
    obtain ⟨hmade, -⟩ := (network.given [opening]).callAll_cases rest
    refine Prod.ext rfl ?_
    change ((network.given [opening]).callAll rest).2.given [.close] = _
    rw [hmade, given_given, given_given]
    rfl

/-- A conversation changes nothing of a network but its calls. In particular, what it will refuse
and which names it gives are the same afterwards. -/
theorem exists_given_eq_converse (network : Network) (opening : NetworkCall)
    (rest : List NetworkCall) :
    ∃ calls, (network.converse opening rest).2 = network.given calls := by
  rw [converse_eq]
  cases network.answer? opening with
  | some refusal => exact ⟨_, rfl⟩
  | none => exact ⟨_, rfl⟩

/-! ## The calls that are made -/

/-- The calls up to the first one that is refused, said of them: all but the last one pass, and the
last one is refused unless there are no more. -/
structure UpToRefusal (network : Network) (calls front : List NetworkCall) : Prop where
  isPrefix : front <+: calls
  passes : network.Passes front.dropLast
  complete : front = calls ∨
    ∃ call refusal, (network.answers front).getLast? = some (call, some refusal)

/-- What is reached is what comes up to the first refusal: a beginning of the calls, in which
nothing but the last one may have been refused. -/
theorem upToRefusal_reached (network : Network) (calls : List NetworkCall) :
    network.UpToRefusal calls (network.reached calls) := by
  induction calls generalizing network with
  | nil => exact ⟨List.prefix_rfl, network.passes_nil, .inl rfl⟩
  | cons call calls ih =>
    rw [reached]
    cases hanswer : network.answer? call with
    | some refusal =>
      refine ⟨⟨calls, rfl⟩, network.passes_nil, .inr ⟨call, refusal, ?_⟩⟩
      change [(call, network.answer? call)].getLast? = _
      rw [hanswer]
      rfl
    | none =>
      obtain ⟨hfirst, hfront, hcomplete⟩ := ih (network.given [call])
      refine ⟨List.prefix_cons_inj call |>.2 hfirst, ?_, ?_⟩
      · cases hreached : (network.given [call]).reached calls with
        | nil => exact network.passes_nil
        | cons next rest =>
          rw [hreached] at hfront
          exact passes_cons.2 ⟨hanswer, hfront⟩
      · rcases hcomplete with heq | ⟨last, refusal, hlast⟩
        · exact .inl (congrArg (call :: ·) heq)
        · refine .inr ⟨last, refusal, ?_⟩
          change ((call, network.answer? call) :: (network.given [call]).answers _).getLast? = _
          rw [List.getLast?_cons, hlast]
          rfl

/-- Calls that all pass are all made. There is no refusal at which they could end. -/
theorem reached_of_passes (h : network.Passes rest) : network.reached rest = rest := by
  induction rest generalizing network with
  | nil => rfl
  | cons call rest ih =>
    obtain ⟨hcall, hrest⟩ := passes_cons.1 h
    rw [reached, hcall, ih hrest]
    rfl

/-- A conversation succeeds if none of its calls is refused, neither the first nor a step nor the
close. All of them are made then. -/
theorem converse_eq_none_iff : (network.converse opening rest).1 = none ↔
    network.Passes (opening :: (rest ++ [.close])) := by
  rw [converse_eq, passes_cons, passes_append, passes_singleton]
  cases network.answer? opening with
  | some refusal => simp
  | none =>
    obtain ⟨hmade, hnone⟩ := (network.given [opening]).callAll_cases rest
    simp only [Option.or_eq_none_iff, true_and, hmade, hnone]
    constructor
    · rintro ⟨hclose, hrest⟩
      rw [reached_of_passes hrest] at hclose
      exact ⟨hrest, hclose⟩
    · rintro ⟨hrest, hclose⟩
      rw [reached_of_passes hrest]
      exact ⟨hclose, hrest⟩

/-- A conversation makes its calls up to the first one that is refused, and then it closes what it
has opened. If the first call is refused, nothing was opened. -/
theorem converse_snd (network : Network) (opening : NetworkCall) (rest : List NetworkCall) :
    (network.converse opening rest).2
      = network.given (network.reached (opening :: rest) ++
          if network.answer? opening = none then [.close] else []) := by
  rw [converse_eq, reached]
  cases network.answer? opening with
  | some refusal => rfl
  | none => rfl

/-- The calls between two moments are those of a conversation that was to make the calls
`opening :: rest`, among them `send`: these calls up to the first one that was refused, and then the
close of what was opened. The payload is sent once at most. -/
def Conversed (before : Network) (opening : NetworkCall) (rest : List NetworkCall)
    (send : NetworkCall) (after : Network) : Prop :=
  ∃ front closing, after = before.given (front ++ closing) ∧
    before.UpToRefusal (opening :: rest) front ∧
    (closing = if before.answer? opening = none then [.close] else []) ∧
    (front ++ closing).filter (·.payload?.isSome) <+: [send]

/-- Every conversation is one, if `send` is the only call of it that sends something. It may be
refused before it comes to this call, so the payload is sent once at most. -/
theorem conversed_converse (network : Network)
    (hsend : (opening :: rest).filter (·.payload?.isSome) = [send]) :
    network.Conversed opening rest send (network.converse opening rest).2 := by
  have hfront := network.upToRefusal_reached (opening :: rest)
  refine ⟨_, _, converse_snd network opening rest, hfront, rfl, ?_⟩
  have hclosing : (if network.answer? opening = none then [NetworkCall.close] else []).filter
      (·.payload?.isSome) = [] := by
    split <;> rfl
  rw [List.filter_append, hclosing, List.append_nil, ← hsend]
  exact hfront.isPrefix.filter _

/-! ## Delivery -/

/-- The calls between two moments, each with the refusal that it has met. -/
def exchanged (before after : Network) : List (NetworkCall × Option Refusal) :=
  before.answers (after.calls.drop before.calls.length)

/-- A payload has left the host between two moments: a call to send it was made, and it was not
refused. -/
def Delivered (before after : Network) (payload : List UInt8) : Prop :=
  ∃ answered ∈ before.exchanged after, answered.1.payload? = some payload ∧ answered.2 = none

instance (before after : Network) (payload : List UInt8) :
    Decidable (before.Delivered after payload) :=
  inferInstanceAs (Decidable (∃ answered ∈ before.exchanged after,
    answered.1.payload? = some payload ∧ answered.2 = none))

/-- Between a network and itself after some calls there are these calls, with the answers they got
when they were made. -/
theorem exchanged_given (network : Network) (calls : List NetworkCall) :
    network.exchanged (network.given calls) = network.answers calls := by
  rw [exchanged, given, List.drop_left]

/-- Nothing is delivered where no call was made. So a transmission that fails before its
conversation starts has delivered nothing. -/
theorem not_delivered_self (network : Network) : ¬network.Delivered network payload := by
  rintro ⟨answered, hmem, -⟩
  rw [exchanged, List.drop_length] at hmem
  cases hmem

/-- Calls that send nothing deliver nothing, however they are answered. This holds of everything in
a conversation but the call that sends. -/
theorem forall_answers_of_silent (h : ∀ call ∈ calls, call.payload? = none) :
    ∀ answered ∈ network.answers calls, answered.1.payload? = none := by
  induction calls generalizing network with
  | nil => exact fun _ hmem => absurd hmem List.not_mem_nil
  | cons call calls ih =>
    obtain ⟨hcall, hcalls⟩ := List.forall_mem_cons.1 h
    exact List.forall_mem_cons.2 ⟨hcall, ih hcalls⟩

/-- The call that sends is reached and passes if everything before it passes, and it as well. Calls
before it that send nothing cannot be mistaken for it. -/
theorem exists_mem_answers_reached_iff (hsend : send.payload? = some payload)
    (hsteps : ∀ call ∈ steps, call.payload? = none) (later : List NetworkCall) :
    (∃ answered ∈ network.answers (network.reached (steps ++ send :: later)),
      answered.1.payload? = some payload ∧ answered.2 = none) ↔
    network.Passes (steps ++ [send]) := by
  induction steps generalizing network with
  | nil =>
    rw [List.nil_append, List.nil_append, reached, passes_singleton]
    cases hanswer : network.answer? send with
    | some refusal => simp [answers, hanswer]
    | none => simp [answers, hanswer, hsend]
  | cons call steps ih =>
    obtain ⟨hcall, hrest⟩ := List.forall_mem_cons.1 hsteps
    rw [List.cons_append, List.cons_append, reached, passes_cons, ← ih hrest]
    cases hanswer : network.answer? call with
    | some refusal => simp [answers, hcall]
    | none => simp [answers, hcall]

/-- A conversation delivers a payload if the calls up to the one that sends it pass. It does not
matter what happens to the calls after it. -/
theorem delivered_converse_iff (hopening : opening.payload? = none)
    (hsend : send.payload? = some payload) (hsteps : ∀ call ∈ steps, call.payload? = none)
    (later : List NetworkCall) :
    network.Delivered (network.converse opening (steps ++ send :: later)).2 payload ↔
      network.Passes (opening :: (steps ++ [send])) := by
  have hsilent : ∀ call ∈ opening :: steps, call.payload? = none :=
    List.forall_mem_cons.2 ⟨hopening, hsteps⟩
  rw [← List.cons_append, ← exists_mem_answers_reached_iff hsend hsilent later, Delivered,
    converse_snd, exchanged_given, answers_append, List.cons_append]
  -- The close that may follow sends nothing.
  have hclosing : ∀ after : Network, ∀ answered ∈ after.answers
      (if network.answer? opening = none then [.close] else []), answered.1.payload? = none := by
    intro after
    refine forall_answers_of_silent fun call hmem => ?_
    split at hmem
    · rw [List.mem_singleton.1 hmem]
      rfl
    · cases hmem
  constructor
  · rintro ⟨answered, hmem, hpayload, hpasses⟩
    rcases List.mem_append.1 hmem with hmem | hmem
    · exact ⟨answered, hmem, hpayload, hpasses⟩
    · rw [hclosing _ answered hmem] at hpayload
      cases hpayload
  · rintro ⟨answered, hmem, hpayload⟩
    exact ⟨answered, List.mem_append_left _ hmem, hpayload⟩

end Network

/-! ## Worlds to start with -/

/-- A network that has not been called yet and refuses nothing. -/
def Network.quiet : Network := ⟨("127.0.0.1", 40000), ("0.0.0.0", 40001), fun _ _ => none, []⟩

/-- A network that has not been called yet and refuses one call, whenever it is made. -/
def Network.refusing (refused : NetworkCall) (refusal : Refusal) : Network :=
  { Network.quiet with refusal? := fun _ call => if call = refused then some refusal else none }

/-- A world with these files in which nothing has happened yet. Neither its network nor its launcher
refuses anything, and programs are numbered one after the other. -/
def World.quiet (files : FileSystem) : World where
  files := files
  network := .quiet
  launcher := ⟨fun before _ => .ok (100 + before.length), []⟩
  printed := ""
  identity := ⟨1, "runner", [], "root"⟩
  now := ⟨0, 0⟩

end ActivityScript.Host
