import ActivityScript.Proofs.Activity.Protocols
import ActivityScript.Proofs.Address.NormalForm

/-!
# Destinations of packets

The destination of a packet is logged in normal form: the one text of its address, and the port in
ASCII digits. `packet_destination_canonical` says that this text is a destination again, of the same
address and port and with itself as its normal form, and that two destinations are logged alike if
and only if they denote the same address and port.

The text of an address has no brackets that it could lose, since it has a colon or no bracket at all
(`read_packetName`).
-/

namespace ActivityScript.Activity

open Host
open Address (Endpoint Ip LosesBrackets maxPort octets? octets?_eq_none)
open Script (Failure)
open Text (Utf8.encode)

variable {session after : Session} {destination message text : String} {ip other : Ip}
  {port otherPort : Nat}

/-! ## Names of destinations -/

/-- A destination denotes an address and a port. -/
def Denotes (destination : String) (ip : Ip) (port : Nat) : Prop :=
  ∃ host, Endpoint.read destination = .ok ⟨host, port⟩ ∧ Ip.read? host = some ip

/-- The text by which an address and a port are logged. -/
def packetName (ip : Ip) (port : Nat) : String := (Endpoint.mk ip.text port).text

/-- What a destination denotes is in range: the numbers of the address, its zone, and the port.
Nothing else is accepted when it is read. -/
theorem Denotes.valid (h : Denotes destination ip port) : ip.Valid ∧ port ≤ maxPort := by
  obtain ⟨host, hread, hip⟩ := h
  obtain ⟨-, -, -, -, -, -, -, hport, -⟩ := Endpoint.read_eq_ok_iff.1 hread
  exact ⟨Ip.valid_of_read? hip, hport⟩

/-- The text of an address is not empty, since the address is read from it and from the empty text
none is. -/
theorem text_ne_empty (h : ip.Valid) : ip.text ≠ "" := by
  intro hempty
  have hnone : Ip.read? "" = none := by decide +kernel
  have hread := Ip.read?_text h
  rw [hempty, hnone] at hread
  cases hread

/-- The text of an address does not lose brackets: with a bracket it is of the sixth version, and
then it has a colon. So writing puts brackets around it that reading removes. -/
theorem not_losesBrackets_text (h : ip.Valid) : ¬LosesBrackets ip.text.toList := by
  rintro ⟨⟨hhead, -⟩, hcolon⟩
  -- With a bracket it is no address of the fourth version, and one of the sixth has a colon.
  have hnone : octets? ip.text.toList = none :=
    octets?_eq_none (List.mem_of_head? hhead) (by decide) (by decide)
  have hread := Ip.read?_text h
  rw [Ip.read?, hnone] at hread
  obtain ⟨-, address, zone?, parts, groups, -, -, -, rfl⟩ := Ip.v6?_eq_some_iff.1 hread
  exact hcolon (Ip.colon_mem_text_v6 h.1 zone?)

/-- The name of an address and a port is read as the text of this address and this port. The port is
written in digits of ASCII and is in range. -/
theorem read_packetName (h : ip.Valid) (hport : port ≤ maxPort) :
    Endpoint.read (packetName ip port) = .ok ⟨ip.text, port⟩ :=
  (Endpoint.read_text_eq_ok_self_iff hport).2 ⟨text_ne_empty h, not_losesBrackets_text h⟩

/-- A name denotes what it is the name of: the endpoint is read from it, and the address from the
text of the address (`Ip.read?_text`). -/
theorem denotes_packetName (h : ip.Valid) (hport : port ≤ maxPort) :
    Denotes (packetName ip port) ip port :=
  ⟨ip.text, read_packetName h hport, Ip.read?_text h⟩

/-- A destination denotes one address and one port, those that are read from it. So one may speak of
the address that a packet goes to. -/
theorem Denotes.unique (h : Denotes destination ip port)
    (h' : Denotes destination other otherPort) :
    ip = other ∧ port = otherPort := by
  obtain ⟨host, hread, hip⟩ := h
  obtain ⟨host', hread', hip'⟩ := h'
  cases hread.symm.trans hread'
  cases hip.symm.trans hip'
  exact ⟨rfl, rfl⟩

/-- Addresses and ports have the same name if they are the same. The value of an address is one
number, so that it does not matter how the address was written. -/
theorem packetName_eq_iff (h : ip.Valid) (hport : port ≤ maxPort) (h' : other.Valid)
    (hport' : otherPort ≤ maxPort) :
    packetName ip port = packetName other otherPort ↔
      ip.version = other.version ∧ ip.value = other.value ∧ ip.zoneName? = other.zoneName? ∧
        port = otherPort := by
  constructor
  · intro heq
    have hdenotes := denotes_packetName h' hport'
    rw [← heq] at hdenotes
    obtain ⟨rfl, rfl⟩ := (denotes_packetName h hport).unique hdenotes
    exact ⟨rfl, rfl, rfl, rfl⟩
  · rintro ⟨hversion, hvalue, hzone, rfl⟩
    rw [Ip.eq_of_value_eq h h' hversion hvalue hzone]

/-! ## Packets -/

/-- The calls that a packet takes. -/
def packetCalls (payload : List UInt8) (host : String) (port : Nat) : List NetworkCall :=
  [.socket, .bind "0.0.0.0" 0, .sendTo payload host port, .socketName, .close]

/-- A packet has been sent to a host and a port, and its record tells a destination. -/
structure Sent (before : Session) (payload : List UInt8) (host : String) (port : Nat)
    (destination : String) (after : Session) : Prop where
  calls : after.world.network = before.world.network.given (packetCalls payload host port)
  recorded : Recorded before [.network (nameText before.world.network.socketName) destination
    payload.length "udp"] after

/-- A packet whose calls all pass is sent with these calls and no others. They are the calls up to
the first refusal, and there is none. -/
theorem converse_packet {payload : List UInt8} {host : String}
    (h : session.world.network.Passes (packetCalls payload host port)) :
    session.world.network.converse .socket
        [.bind "0.0.0.0" 0, .sendTo payload host port, .socketName]
      = (none, session.world.network.given (packetCalls payload host port)) := by
  refine Prod.ext (Network.converse_eq_none_iff.2 h) ?_
  obtain ⟨hopening, -⟩ := Network.passes_cons.1 h
  have hcalls : session.world.network.Passes
      (.socket :: [.bind "0.0.0.0" 0, .sendTo payload host port, .socketName]) :=
    And.left (Network.passes_append.1 h)
  rw [Network.converse_snd, Network.reached_of_passes hcalls, if_pos hopening]
  rfl

/-- A packet that is sent without a refusal is logged under the name of its destination. Its calls
are those that a packet takes, since none of them can have been refused. -/
theorem sent_of_run (hdenotes : Denotes destination ip port)
    (hrun : (transmit ["udp", destination, message]).run.run session = (.ok text, after)) :
    Sent session (Utf8.encode message.toList) ip.text port (packetName ip port) after := by
  obtain ⟨host, hread, hip⟩ := hdenotes
  rw [transmit_udp hread hip, run_converseAndRecord] at hrun
  cases hheld : session.world.network.converse .socket
      [.bind "0.0.0.0" 0, .sendTo (Utf8.encode message.toList) ip.text port, .socketName] with
  | mk refusal? network =>
    rw [hheld] at hrun
    cases refusal? with
    | some refusal => cases hrun
    | none =>
      have hpasses := Network.converse_eq_none_iff.1 (congrArg Prod.fst hheld)
      cases (converse_packet hpasses).symm.trans hheld
      obtain ⟨-, hrecord⟩ := of_run_record hrun
      obtain ⟨hnetwork, hrecorded⟩ := recorded_of_record hrecord
      exact ⟨hnetwork, hrecorded⟩

/-- A packet is sent to every destination that denotes an address, if none of its calls is refused.
The destination may be written in any way that is read. -/
theorem exists_sent (hdenotes : Denotes destination ip port) (haccepts : session.sink.Accepts)
    (message : String)
    (hpasses : session.world.network.Passes
      (packetCalls (Utf8.encode message.toList) ip.text port)) :
    ∃ after, (transmit ["udp", destination, message]).run.run session = (.ok done, after) ∧
      Sent session (Utf8.encode message.toList) ip.text port (packetName ip port) after := by
  obtain ⟨host, hread, hip⟩ := id hdenotes
  cases hrun : (transmit ["udp", destination, message]).run.run session with
  | mk result after =>
    have hheld := held_of_run haccepts rfl (fun _ => rfl)
      ((transmit_udp hread hip session).symm.trans hrun)
    obtain ⟨rfl, -⟩ := hheld.recorded hpasses
    exact ⟨after, rfl, sent_of_run hdenotes hrun⟩

/-- A packet that has been sent had a destination that denotes an address and a port, since
everything else is rejected. -/
theorem exists_denotes_of_run
    (hrun : (transmit ["udp", destination, message]).run.run session = (.ok text, after)) :
    ∃ ip port, Denotes destination ip port := by
  have hnot : ¬Rejected "udp" destination := by
    intro hrejected
    obtain ⟨failure, hfails⟩ := run_transmit_of_rejected hrejected message session
    cases hrun.symm.trans hfails
  obtain ⟨target, hread, htcp | ⟨-, ip, hip⟩⟩ := exists_target_of_not_rejected hnot
  · exact absurd htcp (by decide)
  · exact ⟨ip, target.port, target.host, hread, hip⟩

/-- **The logged destination of a packet is canonical.** A packet has been sent without a refusal.
Its destination denotes an address and a port, the packet went to the text of this address and to
this port, and it was logged under their name. This name is a destination again: any message to it,
over any network that refuses none of the calls it takes, is sent to the same text and port and
logged under the same name. Of any two packets that have been sent, the destinations are logged
alike if and only if version, value and zone of the addresses and the ports are the same. -/
theorem packet_destination_canonical (session after : Session)
    (destination message text : String)
    (hrun : (transmit ["udp", destination, message]).run.run session = (.ok text, after)) :
    ∃ ip port, Denotes destination ip port ∧
      Sent session (Utf8.encode message.toList) ip.text port (packetName ip port) after ∧
      (∀ (later : Session) (message' : String),
        later.world.network.Passes (packetCalls (Utf8.encode message'.toList) ip.text port) →
        later.sink.Accepts →
        ∃ after', (transmit ["udp", packetName ip port, message']).run.run later
            = (.ok done, after') ∧
          Sent later (Utf8.encode message'.toList) ip.text port (packetName ip port) after') ∧
      ∀ (later after' : Session) (destination' message' text' : String),
        (transmit ["udp", destination', message']).run.run later = (.ok text', after') →
        ∃ ip' port', Denotes destination' ip' port' ∧
          Sent later (Utf8.encode message'.toList) ip'.text port' (packetName ip' port') after' ∧
          (packetName ip' port' = packetName ip port ↔
            ip'.version = ip.version ∧ ip'.value = ip.value ∧ ip'.zoneName? = ip.zoneName? ∧
              port' = port) := by
  obtain ⟨ip, port, hdenotes⟩ := exists_denotes_of_run hrun
  obtain ⟨hvalid, hport⟩ := hdenotes.valid
  refine ⟨ip, port, hdenotes, sent_of_run hdenotes hrun, ?_, ?_⟩
  · intro later message' hpasses haccepts
    exact exists_sent (denotes_packetName hvalid hport) haccepts message' hpasses
  · intro later after' destination' message' text' hrun'
    obtain ⟨ip', port', hdenotes'⟩ := exists_denotes_of_run hrun'
    obtain ⟨hvalid', hport'⟩ := hdenotes'.valid
    exact ⟨ip', port', hdenotes', sent_of_run hdenotes' hrun',
      packetName_eq_iff hvalid' hport' hvalid hport⟩

/-- An address with an embedded one of the fourth version, a zone that looks like the end of the
brackets, and a port in other digits. -/
theorem packet_destination_canonical_zone :
    ∃ session after after' : Session, session.sink = .collect [] ∧
      (transmit ["udp", "[0::FFFF:1.2.3.4%a]:b]:٠٣", "x"]).run.run session = (.ok done, after) ∧
      Sent session [120] "::ffff:102:304%a]:b" 3 "[::ffff:102:304%a]:b]:3" after ∧
      (transmit ["udp", "[::ffff:102:304%a]:b]:3", "y"]).run.run session = (.ok done, after') ∧
      Sent session [121] "::ffff:102:304%a]:b" 3 "[::ffff:102:304%a]:b]:3" after' := by
  let session : Session := .holding .fresh
  let address : Ip := .v6 [0, 0, 0, 0, 0, 0xffff, 0x102, 0x304] (some "a]:b")
  have hread : Endpoint.read "[0::FFFF:1.2.3.4%a]:b]:٠٣" = .ok ⟨"0::FFFF:1.2.3.4%a]:b", 3⟩ := by
    decide +kernel
  have hip : Ip.read? "0::FFFF:1.2.3.4%a]:b" = some address := by decide +kernel
  have htext : address.text = "::ffff:102:304%a]:b" := by decide +kernel
  have hname : packetName address 3 = "[::ffff:102:304%a]:b]:3" := by decide +kernel
  have hbytes : Utf8.encode "x".toList = [120] ∧ Utf8.encode "y".toList = [121] := by decide +kernel
  have hresult : ((transmit ["udp", "[0::FFFF:1.2.3.4%a]:b]:٠٣", "x"]).run.run session).1
      = .ok done := by
    decide +kernel
  generalize hrun : (transmit ["udp", "[0::FFFF:1.2.3.4%a]:b]:٠٣", "x"]).run.run session = outcome
    at hresult
  obtain ⟨result, after⟩ := outcome
  dsimp only at hresult
  subst hresult
  obtain ⟨ip, port, hdenotes, hsent, hagain, -⟩ := packet_destination_canonical session _ _ _ _ hrun
  obtain ⟨rfl, rfl⟩ := Denotes.unique ⟨_, hread, hip⟩ hdenotes
  have hpasses : session.world.network.Passes
      (packetCalls (Utf8.encode "y".toList) address.text 3) := by
    simp [packetCalls, Network.passes_cons, Network.passes_nil, Network.answer?, Network.given,
      session, Session.holding, World.quiet, Network.quiet]
  obtain ⟨after', hrun', hsent'⟩ := hagain session "y" hpasses trivial
  rw [htext, hname, hbytes.1] at hsent
  rw [htext, hname, hbytes.2] at hsent'
  rw [hname] at hrun'
  exact ⟨session, after, after', rfl, hrun, hsent, hrun', hsent'⟩

end ActivityScript.Activity
