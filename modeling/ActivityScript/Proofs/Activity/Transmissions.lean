import ActivityScript.Proofs.Activity.Refusals

/-!
# Transmissions and their records

A transmission holds a conversation with the network, asks for its own name after it has sent, and
records what it did when everything has succeeded. So there is a gap between the moment when the
payload leaves the host and the record: `record_of_delivered` says that a payload that was delivered
is recorded, exactly once, if and only if the two calls after the send are not refused. If one of
them is, the payload has left and nothing tells of it; `transmit_unrecorded` shows it for the call
that asks for the own name. There is no gap on the other side: what was not delivered is not
recorded.
-/

namespace ActivityScript.Activity

open Host
open Script (Failure)
open Text (Utf8.encode)

variable {session : Session} {payload : List UInt8}

/-- A session has become another one by the calls it made to the network and by records of
`events`, and by nothing else. -/
def Recorded (before : Session) (events : List Event) (after : Session) : Prop :=
  Gains (before.withNetwork after.world.network) events after

/-- A conversation with a record after it. The record leaves the network as the conversation has
left it, so that the calls can be read off the session at the end. -/
theorem recorded_of_record {network : Network} {event : Event} {after : Session}
    (h : (session.withNetwork network).record event = .ok after) :
    after.world.network = network ∧ Recorded session [event] after := by
  have hgains := gains_of_record h
  have hnetwork : after.world.network = network := hgains.network_eq
  rw [Recorded, hnetwork]
  exact ⟨rfl, hgains⟩

/-- A conversation without a record after it: the network has been called, and nothing else is
different. The sink could have taken a record. -/
theorem recorded_nil (h : session.sink.Accepts) (network : Network) :
    Recorded session [] (session.withNetwork network) :=
  gains_nil h

/-! ## What deliveries come to -/

/-- A delivery has delivered its payload if the calls up to the one that sends have passed. What
comes after the send does not matter to the payload. -/
theorem Delivery.delivered_iff (delivery : Delivery payload) (network : Network) :
    network.Delivered (network.converse delivery.opening delivery.rest).2 payload ↔
      network.Passes (delivery.opening :: (delivery.steps ++ [delivery.send])) :=
  Network.delivered_converse_iff delivery.opening_silent delivery.sends delivery.steps_silent _

/-- After its payload is delivered, a delivery asks for the own name and closes, whatever is
refused. It comes to the refusal of the close, or else to that of the own name. -/
theorem Delivery.converse_of_delivered (delivery : Delivery payload) (network : Network)
    (h : network.Delivered (network.converse delivery.opening delivery.rest).2 payload) :
    ∃ name? close?,
      (network.converse delivery.opening delivery.rest).1 = close?.or name? ∧
      (.socketName, name?) ∈
        network.exchanged (network.converse delivery.opening delivery.rest).2 ∧
      (.close, close?) ∈
        network.exchanged (network.converse delivery.opening delivery.rest).2 := by
  obtain ⟨hopening, hsteps⟩ := Network.passes_cons.1 ((delivery.delivered_iff network).1 h)
  have hrest : delivery.rest = delivery.steps ++ [delivery.send] ++ [.socketName] := by
    rw [Delivery.rest, List.append_assoc]
    rfl
  let sent := network.given (delivery.opening :: (delivery.steps ++ [delivery.send]))
  -- Everything up to the send has passed, so the network has come to the own name.
  have hmade : (network.given [delivery.opening]).callAll delivery.rest
      = (sent.answer? .socketName, sent.given [.socketName]) := by
    rw [hrest, Network.callAll_append hsteps, Network.callAll_singleton, Network.given_given]
    rfl
  have hconverse : network.converse delivery.opening delivery.rest
      = (((sent.given [.socketName]).answer? .close).or (sent.answer? .socketName),
          (sent.given [.socketName]).given [.close]) := by
    rw [Network.converse, Network.call_eq, hopening]
    simp only [hmade, Network.call_eq]
  have hexchanged : network.exchanged ((sent.given [.socketName]).given [.close])
      = network.answers (delivery.opening :: (delivery.steps ++ [delivery.send])) ++
        sent.answers [.socketName, .close] := by
    rw [Network.given_given, Network.given_given, Network.exchanged_given, Network.answers_append]
    rfl
  refine ⟨_, _, congrArg Prod.fst hconverse, ?_, ?_⟩
  · rw [hconverse, hexchanged]
    exact List.mem_append_right _ List.mem_cons_self
  · rw [hconverse, hexchanged]
    exact List.mem_append_right _ (List.mem_cons_of_mem _ List.mem_cons_self)

/-- A delivery that meets no refusal has delivered its payload, since the call that sends is one of
those that have passed. -/
theorem Delivery.delivered_of_none (delivery : Delivery payload) {network : Network}
    (h : (network.converse delivery.opening delivery.rest).1 = none) :
    network.Delivered (network.converse delivery.opening delivery.rest).2 payload := by
  have hsplit : delivery.opening :: (delivery.rest ++ [.close])
      = delivery.opening :: (delivery.steps ++ [delivery.send]) ++ [.socketName, .close] := by
    simp [Delivery.rest]
  have hpasses := Network.converse_eq_none_iff.1 h
  rw [hsplit, Network.passes_append] at hpasses
  exact (delivery.delivered_iff network).2 hpasses.1

/-- **What is delivered is recorded, unless a later call is refused.** A transmission has a sink
that takes records. If its payload was delivered, then either neither the own name nor the close was
refused, and the transmission has succeeded with exactly one record, which describes it; or one of
the two was refused, the transmission has failed with this refusal, and there is no record. If the
payload was not delivered, the transmission has failed and there is no record. -/
theorem record_of_delivered (session : Session) (haccepts : session.sink.Accepts)
    (protocol destination message : String) (result : Except Failure String) (after : Session)
    (hrun : (transmit [protocol, destination, message]).run.run session = (result, after)) :
    (session.world.network.Delivered after.world.network (Utf8.encode message.toList) →
      ((.socketName, none) ∈ session.world.network.exchanged after.world.network ∧
        (.close, none) ∈ session.world.network.exchanged after.world.network ∧
        result = .ok done ∧
        ∃ event, Describes session "network.transmit" [protocol, destination, message] event ∧
          Recorded session [event] after) ∨
      ∃ refusal,
        ((.socketName, some refusal) ∈ session.world.network.exchanged after.world.network ∨
          (.close, some refusal) ∈ session.world.network.exchanged after.world.network) ∧
        result = .error (.refused refusal.text) ∧ Recorded session [] after) ∧
    (¬session.world.network.Delivered after.world.network (Utf8.encode message.toList) →
      (∃ failure, result = .error failure) ∧ Recorded session [] after) := by
  have htransmission := transmission_of_transmit protocol destination message session
  rw [hrun] at htransmission
  generalize houtcome : (result, after) = outcome at htransmission
  cases htransmission with
  | failed =>
    cases houtcome
    exact ⟨fun hdelivered => absurd hdelivered (Network.not_delivered_self _),
      fun _ => ⟨⟨_, rfl⟩, recorded_nil haccepts _⟩⟩
  | @refused delivery refusal network hheld =>
    cases houtcome
    refine ⟨fun hdelivered => .inr ⟨refusal, ?_, rfl, recorded_nil haccepts _⟩,
      fun _ => ⟨⟨_, rfl⟩, recorded_nil haccepts _⟩⟩
    have hexchanged := delivery.converse_of_delivered session.world.network
    rw [hheld] at hexchanged
    obtain ⟨name?, close?, hrefusal, hname, hclose⟩ := hexchanged hdelivered
    rcases Option.or_eq_some_iff.1 hrefusal.symm with rfl | ⟨-, rfl⟩
    · exact .inr hclose
    · exact .inl hname
  | @recorded delivery network event hheld hdescribes =>
    have hdelivered := delivery.delivered_of_none (congrArg Prod.fst hheld)
    have hexchanged := delivery.converse_of_delivered _ hdelivered
    rw [hheld] at hdelivered hexchanged
    obtain ⟨name?, close?, hrefusal, hname, hclose⟩ := hexchanged
    obtain ⟨rfl, rfl⟩ := Option.or_eq_none_iff.1 hrefusal.symm
    have hsink : (session.withNetwork network).sink.Accepts := haccepts
    obtain ⟨recorded, hrecord, -⟩ := exists_record_eq_ok hsink event
    rw [run_record hrecord] at houtcome
    cases houtcome
    obtain ⟨hnetwork, hrecorded⟩ := recorded_of_record hrecord
    rw [hnetwork]
    exact ⟨fun _ => .inl ⟨hname, hclose, rfl, event, hdescribes, hrecorded⟩,
      fun hnot => absurd hdelivered hnot⟩

/-- A packet to a numeric address is delivered and recorded. -/
theorem record_of_delivered_packet :
    ∃ session after : Session, session.sink = .collect [] ∧ session.sink.Accepts ∧
      (transmit ["udp", "[::0]:1", "x"]).run.run session = (.ok done, after) ∧
      session.world.network.Delivered after.world.network (Utf8.encode "x".toList) ∧
      ∃ event, Describes session "network.transmit" ["udp", "[::0]:1", "x"] event ∧
        Recorded session [event] after := by
  let session : Session := .holding .fresh
  let after : Session := ((transmit ["udp", "[::0]:1", "x"]).run.run session).2
  have hresult : ((transmit ["udp", "[::0]:1", "x"]).run.run session).1 = .ok done := by
    decide +kernel
  have hrun : (transmit ["udp", "[::0]:1", "x"]).run.run session = (.ok done, after) :=
    Prod.ext hresult rfl
  have hdelivered :
      session.world.network.Delivered after.world.network (Utf8.encode "x".toList) := by
    decide +kernel
  rcases (record_of_delivered session trivial _ _ _ _ _ hrun).1 hdelivered with
    ⟨-, -, -, hevent⟩ | ⟨refusal, -, hfailed, -⟩
  · exact ⟨session, after, rfl, trivial, hrun, hdelivered, hevent⟩
  · cases hfailed

/-- The network does what it is asked for, and only the own name of the connection is refused. The
payload has left the host, the script is told that the transmission has failed, and there is no
record of it. -/
theorem transmit_unrecorded :
    ∃ session : Session, session.sink = .collect [] ∧ session.sink.Accepts ∧
      ((transmit ["tcp", "host:1", "x"]).run.run session).1
        = .error (.refused "[Errno 5] Input/output error") ∧
      session.world.network.exchanged
          ((transmit ["tcp", "host:1", "x"]).run.run session).2.world.network
        = [(.connect "host" 1, none), (.sendAll [120], none),
          (.socketName, some ⟨some 5, "Input/output error"⟩), (.close, none)] ∧
      session.world.network.Delivered
        ((transmit ["tcp", "host:1", "x"]).run.run session).2.world.network
        (Utf8.encode "x".toList) ∧
      ((transmit ["tcp", "host:1", "x"]).run.run session).2.sink = .collect [] := by
  let network := Network.refusing .socketName ⟨some 5, "Input/output error"⟩
  let world : World := { World.quiet .fresh with network := network }
  refine ⟨⟨world, .collect []⟩, rfl, trivial, ?_, ?_, ?_, ?_⟩
  · decide +kernel
  · decide +kernel
  · decide +kernel
  · decide +kernel

end ActivityScript.Activity
