import ActivityScript.Proofs.Activity.Transmissions
import ActivityScript.Proofs.Address.NumericForm

/-!
# The protocols of transmissions

A transmission speaks one of two protocols with the network. `transmit_follows_protocol` says which
calls are made on every path: none if the protocol or the destination is at fault, and otherwise the
calls of the protocol up to the first one that is refused, with the close at the end of whatever was
opened. There is a record if and only if nothing was refused.

Both protocols are conversations that end with a record (`converseAndRecord`), so what is said of
one is said of the other (`Held`).
-/

namespace ActivityScript.Activity

open Host
open Address (Endpoint Ip)
open Script (Failure)
open Text (Utf8.encode)

variable {session after : Session} {opening send : NetworkCall} {rest : List NetworkCall}
  {result : Except Failure String}

/-! ## What a transmission comes to -/

/-- A transmission was to hold a conversation and to record `event`. It has made the calls of the
conversation. If nothing was refused, not even the close, it has succeeded and recorded the event;
otherwise it has failed and recorded nothing. -/
structure Held (before : Session) (opening : NetworkCall) (rest : List NetworkCall)
    (send : NetworkCall) (event : Event) (result : Except Failure String) (after : Session) :
    Prop where
  calls : before.world.network.Conversed opening rest send after.world.network
  recorded : before.world.network.Passes (opening :: (rest ++ [.close])) →
    result = .ok done ∧ Recorded before [event] after
  unrecorded : ¬before.world.network.Passes (opening :: (rest ++ [.close])) →
    (∃ refusal : Refusal, result = .error (.refused refusal.text)) ∧ Recorded before [] after

/-- A conversation with a record after it is held as it should be. The event must not depend on the
calls, which is so because they change no name of the network. -/
theorem held_of_run {eventOf : Session → Event} (haccepts : session.sink.Accepts)
    (hsend : (opening :: rest).filter (·.payload?.isSome) = [send])
    (hevent : ∀ calls,
      eventOf (session.withNetwork (session.world.network.given calls)) = eventOf session)
    (hrun : (converseAndRecord opening rest eventOf).run.run session = (result, after)) :
    Held session opening rest send (eventOf session) result after := by
  have hcalls := session.world.network.conversed_converse hsend
  obtain ⟨calls, hgiven⟩ := session.world.network.exists_given_eq_converse opening rest
  have hnone : (session.world.network.converse opening rest).1 = none ↔ _ :=
    Network.converse_eq_none_iff
  rw [run_converseAndRecord] at hrun
  cases hheld : session.world.network.converse opening rest with
  | mk refusal? network =>
    rw [hheld] at hrun hcalls hgiven hnone
    cases refusal? with
    | some refusal =>
      have hrefused := mt hnone.2 (Option.some_ne_none refusal)
      cases hrun
      exact ⟨hcalls, fun hpasses => absurd hpasses hrefused,
        fun _ => ⟨⟨refusal, rfl⟩, recorded_nil haccepts network⟩⟩
    | none =>
      have hpasses := hnone.1 rfl
      have hsame : eventOf (session.withNetwork network) = eventOf session := by
        cases hgiven
        exact hevent calls
      have hsink : (session.withNetwork network).sink.Accepts := haccepts
      obtain ⟨recorded, hrecord, -⟩ := exists_record_eq_ok hsink (eventOf session)
      obtain ⟨hnetwork, hrecorded⟩ := recorded_of_record hrecord
      dsimp only at hrun
      rw [hsame, run_record hrecord] at hrun
      cases hrun
      rw [← hnetwork] at hcalls
      exact ⟨hcalls, fun _ => ⟨rfl, hrecorded⟩, fun hrefused => absurd hpasses hrefused⟩

/-- **Transmissions follow their protocol.** A transmission has a sink that takes records. If it is
rejected, it fails and nothing has changed: no call was made. Otherwise it holds the conversation of
its protocol: over a connection with the host and the port that the destination names, or with a
packet to the numeric address that the host writes. The calls are made in order up to the first one
that is refused, what was opened is closed once, the bytes of the message are sent once at most, and
there is a record with their number if and only if nothing was refused. -/
theorem transmit_follows_protocol (session : Session) (haccepts : session.sink.Accepts)
    (protocol destination message : String) (result : Except Failure String) (after : Session)
    (hrun : (transmit [protocol, destination, message]).run.run session = (result, after)) :
    (Rejected protocol destination → (∃ failure, result = .error failure) ∧ after = session) ∧
    (∀ target, protocol = "tcp" → Endpoint.read destination = .ok target →
      Held session (.connect target.host target.port)
        [.sendAll (Utf8.encode message.toList), .socketName]
        (.sendAll (Utf8.encode message.toList))
        (.network (nameText session.world.network.connectionName) destination
          (Utf8.encode message.toList).length "tcp") result after) ∧
    (∀ target ip, protocol = "udp" → Endpoint.read destination = .ok target →
      Ip.read? target.host = some ip →
      Ip.read? ip.text = some ip ∧
      Held session .socket
        [.bind "0.0.0.0" 0, .sendTo (Utf8.encode message.toList) ip.text target.port, .socketName]
        (.sendTo (Utf8.encode message.toList) ip.text target.port)
        (.network (nameText session.world.network.socketName)
          (Endpoint.mk ip.text target.port).text (Utf8.encode message.toList).length "udp")
        result after) := by
  refine ⟨?_, ?_, ?_⟩
  · intro hrejected
    obtain ⟨failure, hfails⟩ := run_transmit_of_rejected hrejected message session
    cases hrun.symm.trans hfails
    exact ⟨⟨failure, rfl⟩, rfl⟩
  · rintro target rfl hread
    rw [transmit_tcp hread] at hrun
    exact held_of_run haccepts rfl (fun _ => rfl) hrun
  · rintro target ip rfl hread hip
    rw [transmit_udp hread hip] at hrun
    exact ⟨Ip.read?_text (Ip.valid_of_read? hip), held_of_run haccepts rfl (fun _ => rfl) hrun⟩

/-- A packet is refused when it is sent: the socket is closed, and its name is not asked for. -/
theorem transmit_follows_protocol_refusedSend :
    ∃ session after : Session, session.sink = .collect [] ∧ session.sink.Accepts ∧
      (transmit ["udp", "[::0]:1", "x"]).run.run session
        = (.error (.refused "[Errno 5] Input/output error"), after) ∧
      Endpoint.read "[::0]:1" = .ok ⟨"::0", 1⟩ ∧
      Ip.read? "::0" = some (.v6 [0, 0, 0, 0, 0, 0, 0, 0] none) ∧
      after.world.network.calls
        = [.socket, .bind "0.0.0.0" 0, .sendTo [120] "::" 1, .close] ∧
      Held session .socket [.bind "0.0.0.0" 0, .sendTo [120] "::" 1, .socketName]
        (.sendTo [120] "::" 1) (.network "0.0.0.0:40001" "[::]:1" 1 "udp")
        (.error (.refused "[Errno 5] Input/output error")) after := by
  let network := Network.refusing (.sendTo [120] "::" 1) ⟨some 5, "Input/output error"⟩
  let world : World := { World.quiet .fresh with network := network }
  let session : Session := ⟨world, .collect []⟩
  let after : Session := ((transmit ["udp", "[::0]:1", "x"]).run.run session).2
  have hresult : ((transmit ["udp", "[::0]:1", "x"]).run.run session).1
      = .error (.refused "[Errno 5] Input/output error") := by
    decide +kernel
  have hread : Endpoint.read "[::0]:1" = .ok ⟨"::0", 1⟩ := by decide +kernel
  have hip : Ip.read? "::0" = some (.v6 [0, 0, 0, 0, 0, 0, 0, 0] none) := by decide +kernel
  have hcalls : after.world.network.calls
      = [.socket, .bind "0.0.0.0" 0, .sendTo [120] "::" 1, .close] := by
    decide +kernel
  have htext : (Ip.v6 [0, 0, 0, 0, 0, 0, 0, 0] none).text = "::" := by decide +kernel
  have hlogged : (Endpoint.mk "::" 1).text = "[::]:1" := by decide +kernel
  have hname : nameText ("0.0.0.0", 40001) = "0.0.0.0:40001" := by decide +kernel
  have hbytes : Utf8.encode "x".toList = [120] := by decide +kernel
  have hheld := ((transmit_follows_protocol session trivial _ _ _ _ after
    (Prod.ext hresult rfl)).2.2 _ _ rfl hread hip).2
  rw [htext, hlogged, hbytes] at hheld
  exact ⟨session, after, rfl, trivial, Prod.ext hresult rfl, hread, hip, hcalls, hname ▸ hheld⟩

end ActivityScript.Activity
