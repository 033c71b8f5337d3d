import Mathlib.Data.List.Flatten
import PhobosClient.Relay.Framed
import PhobosClient.Relay.Runs
import PhobosClient.Relay.Sockets

/-!
# PhobosClient — what the relay puts on the wire

The client loop and the timer share one socket, and any `send` on it may fail. The server behind
it, with the same settings, is to read the forwarded packets and nothing else. **`relay_wire`**
says so, for every interleaving of the three threads: the packets come out in the order they were
forwarded in, the requests disappear, and every handshake is announced by a request of its own.

For the way back, **`relay_delivers`**: the clients get what the server has sent, in its order; and
once somebody is bound, everything that can be decoded is handed to the loopback socket, which may
still refuse it.
-/

namespace Phobos

open Steps

variable {Addr : Type*}

namespace Sent

/-- The datagram that has reached the network. -/
def onWire : Sent Addr → List Bytes
  | ping wire taken | request wire taken | packet _ wire taken => if taken then [wire] else []

/-- The packet in a datagram that has reached the network. -/
def carried : Sent Addr → List Bytes
  | packet d _ taken => if taken then [d.bytes] else []
  | _ => []

/-- The datagram that has reached the network, if it carries a packet. -/
def wireUp : Sent Addr → List Bytes
  | packet _ wire taken => if taken then [wire] else []
  | _ => []

/-- The datagrams it was made from. -/
def origins : Sent Addr → List (Datagram Addr)
  | packet d _ _ => [d]
  | _ => []

/-- The client loop's own sends: a request, or the packet of a datagram. -/
def ofClient : Sent Addr → List (Option (Datagram Addr))
  | ping _ _ => []
  | request _ _ => [none]
  | packet d _ _ => [some d]

end Sent

/-- The datagrams that may be forwarded: valid ones that fit the buffer. -/
def Sendable (d : Datagram Addr) : Prop := isValid d = true ∧ d.bytes.length ≤ recvBufferSize

/-- A datagram that may be forwarded is a WireGuard packet. -/
theorem Sendable.wireGuardPacket {d : Datagram Addr} (hd : Sendable d) :
    WireGuardPacket d.bytes := by
  obtain ⟨hvalid, hlen⟩ := hd
  refine ⟨?_, hlen⟩
  unfold isValid at hvalid
  split at hvalid
  · next t htype => exact plainHeader_of_packetType htype hvalid
  · cases hvalid

def Sent.Framed (o : Obfuscator) (isStun : Bool) : Sent Addr → Prop
  | .ping wire _ | .request wire _ => isStun = true ∧ ∃ txid, wire = stunBuildBindingRequest txid
  | .packet d wire _ => Sendable d ∧ ∃ rng txid, wire = sendPath o isStun rng txid d.bytes

/-- The request that announces a datagram, if it is a handshake under STUN masking. -/
def announcement (isStun : Bool) (d : Datagram Addr) : List (Option (Datagram Addr)) :=
  if isStun && isHandshake d then [none] else []

namespace SocketClientPc

/-- The datagram the client loop has in its hands. -/
def datagram : SocketClientPc Addr → List (Datagram Addr)
  | binding d | requesting d | forwarding d => [d]
  | _ => []

/-- The datagram that waits for its request. -/
def unannounced : SocketClientPc Addr → List (Datagram Addr)
  | requesting d => [d]
  | _ => []

/-- The announcement of a packet that has not been sent yet. -/
def announced (isStun : Bool) : SocketClientPc Addr → List (Option (Datagram Addr))
  | forwarding d => announcement isStun d
  | _ => []

end SocketClientPc

variable [DecidableEq Addr] {o : Obfuscator} {isStun : Bool} {w w' v : RelaySockets Addr}
  {a : SocketAction Addr} {acts bs : List (SocketAction Addr)}

/-! ## What a step can do to the upstream side -/

/-- The effects of a step on the client loop, the sends and the counters of both. -/
inductive UpEffect (o : Obfuscator) (isStun : Bool) (w : RelaySockets Addr) :
    RelaySockets Addr → Prop where
  | other {w' : RelaySockets Addr} (hclient : w'.client = w.client) (hsent : w'.sent = w.sent)
      (hpkts : w'.stats.pktsUp = w.stats.pktsUp) (hbytes : w'.stats.bytesUp = w.stats.bytesUp) :
      UpEffect o isStun w w'
  | ping {txid : Txid} {taken : Bool} (htimer : w.timer = .sending) :
      UpEffect o isStun w { w with
        timer := .top, sent := w.sent ++ [.ping (stunBuildBindingRequest txid) taken] }
  /-- the client loop turns, and has no datagram afterwards -/
  | turn {clientAddr : Option Addr} {client : SocketClientPc Addr}
      (hfree : client.datagram = []) (hbefore : w.client.announced isStun = []) :
      UpEffect o isStun w { w with clientAddr, client }
  | take {d : Datagram Addr} (hclient : w.client = .receiving) (hd : Sendable d) :
      UpEffect o isStun w { w with client := .binding d }
  | announce {clientAddr : Option Addr} {d : Datagram Addr} (hclient : w.client = .binding d)
      (hask : (isStun && isHandshake d) = true) :
      UpEffect o isStun w { w with clientAddr, client := .requesting d }
  | accept {clientAddr : Option Addr} {d : Datagram Addr} (hclient : w.client = .binding d)
      (hask : (isStun && isHandshake d) = false) :
      UpEffect o isStun w { w with clientAddr, client := .forwarding d }
  | request {d : Datagram Addr} {txid : Txid} {taken : Bool} (hclient : w.client = .requesting d) :
      UpEffect o isStun w { w with
        client := .forwarding d
        sent := w.sent ++ [.request (stunBuildBindingRequest txid) taken] }
  | forward {d : Datagram Addr} {rng : Rng} {txid : Txid} {taken : Bool}
      (hclient : w.client = .forwarding d) :
      UpEffect o isStun w { w with
        client := .top
        stats := if taken then w.stats.up (sendPath o isStun rng txid d.bytes) else w.stats
        sent := w.sent ++ [.packet d (sendPath o isStun rng txid d.bytes) taken] }

/-- **What a step does upwards**: one of the client loop's moves, a ping, or nothing. -/
theorem socketsStep_up (hstep : socketsStep o isStun w a = some w') : UpEffect o isStun w w' := by
  cases a with
  | clientCheck =>
    simp only [socketsStep] at hstep
    split at hstep <;> cases hstep
    next hpc =>
    refine .turn ?_ (by rw [hpc]; rfl)
    cases w.running <;> rfl
  | clientRecv d =>
    simp only [socketsStep] at hstep
    split at hstep
    · next hpc =>
      split at hstep <;> cases hstep
      next hlen =>
      cases hvalid : isValid d with
      | false => exact .turn rfl (by rw [hpc]; rfl)
      | true => exact .take hpc ⟨hvalid, hlen⟩
    · cases hstep
  | clientRecvError =>
    simp only [socketsStep] at hstep
    split at hstep <;> cases hstep
    next hpc => exact .turn rfl (by rw [hpc]; rfl)
  | clientBind =>
    simp only [socketsStep] at hstep
    split at hstep <;> cases hstep
    next d hpc =>
    -- a datagram of somebody else is dropped
    cases (rebind w.clientAddr d).2 with
    | false => exact .turn rfl (by rw [hpc]; rfl)
    | true =>
      -- a handshake under STUN masking is announced first
      cases hask : isStun && isHandshake d with
      | false => exact .accept hpc hask
      | true => exact .announce hpc hask
  | clientRequest txid taken =>
    simp only [socketsStep] at hstep
    split at hstep <;> cases hstep
    next d hpc => exact .request hpc
  | clientForward rng txid taken =>
    simp only [socketsStep] at hstep
    split at hstep <;> cases hstep
    next d hpc => exact .forward hpc
  | serverRecv raw =>
    simp only [socketsStep] at hstep
    split at hstep
    · split at hstep
      · cases hstep
      · split at hstep
        · cases hstep
          exact .other rfl rfl rfl rfl
        · split at hstep <;> cases hstep <;> exact .other rfl rfl rfl rfl
    · cases hstep
  | serverLook =>
    simp only [socketsStep] at hstep
    split at hstep
    · split at hstep <;> cases hstep <;> exact .other rfl rfl rfl rfl
    · cases hstep
  | serverCheck | serverRecvError | serverSend | timerCheck | timerWake =>
    simp only [socketsStep] at hstep
    split at hstep <;> cases hstep
    exact .other rfl rfl rfl rfl
  | timerSend txid taken =>
    simp only [socketsStep] at hstep
    split at hstep <;> cases hstep
    next hpc => exact .ping hpc
  | stop =>
    cases hstep
    exact .other rfl rfl rfl rfl

/-- The timer runs under STUN masking only. -/
theorem socketsStep_timer (htimer : isStun = false → w.timer = .ended)
    (hstep : socketsStep o isStun w a = some w') : isStun = false → w'.timer = .ended := by
  intro hplain
  have hended := htimer hplain
  cases a with
  | timerCheck | timerWake | timerSend =>
    simp only [socketsStep, hended] at hstep
    cases hstep
  | stop =>
    cases hstep
    exact hended
  | clientRecv =>
    simp only [socketsStep] at hstep
    split at hstep
    · split at hstep <;> cases hstep
      exact hended
    · cases hstep
  | serverRecv =>
    simp only [socketsStep] at hstep
    split at hstep
    · split at hstep
      · cases hstep
      · split at hstep
        · cases hstep
          exact hended
        · split at hstep <;> cases hstep <;> exact hended
    · cases hstep
  | serverLook =>
    simp only [socketsStep] at hstep
    split at hstep
    · split at hstep <;> cases hstep <;> exact hended
    · cases hstep
  | _ =>
    simp only [socketsStep] at hstep
    split at hstep <;> cases hstep
    exact hended

/-! ## The upstream side over runs -/

/-- What the client loop and the timer have done. -/
structure Upward (o : Obfuscator) (isStun : Bool) (w : RelaySockets Addr) : Prop where
  timer : isStun = false → w.timer = .ended
  framed : ∀ e ∈ w.sent, e.Framed o isStun
  inHand : ∀ d ∈ w.client.datagram, Sendable d
  /-- a datagram waits for its request only if it has one -/
  requesting : ∀ d ∈ w.client.unannounced, (isStun && isHandshake d) = true
  /-- the client loop's sends are its packets, each with its announcement in front -/
  announced : w.sent.flatMap Sent.ofClient
    = ((w.sent.flatMap Sent.origins).flatMap fun d => announcement isStun d ++ [some d])
      ++ w.client.announced isStun
  pktsUp : w.stats.pktsUp = UInt64.ofNat (w.sent.flatMap Sent.carried).length
  bytesUp : w.stats.bytesUp = UInt64.ofNat (w.sent.flatMap Sent.wireUp).flatten.length

omit [DecidableEq Addr] in
/-- Nothing has been sent. -/
theorem Upward.init : Upward o isStun (socketsInit isStun : RelaySockets Addr) where
  timer := fun h => by rw [h]; rfl
  framed := List.forall_mem_nil _
  inHand := List.forall_mem_nil _
  requesting := List.forall_mem_nil _
  announced := rfl
  pktsUp := rfl
  bytesUp := rfl

omit [DecidableEq Addr] in
/-- One more send is framed as well. -/
theorem framed_concat {sent : List (Sent Addr)} {e : Sent Addr}
    (hsent : ∀ e ∈ sent, e.Framed o isStun) (he : e.Framed o isStun) :
    ∀ e' ∈ sent ++ [e], e'.Framed o isStun := by
  intro e' hmem
  rcases List.mem_append.mp hmem with hold | hnew
  · exact hsent e' hold
  · rw [List.mem_singleton.mp hnew]
    exact he

/-- Each move keeps the account of what has been sent. -/
theorem Upward.step (h : Upward o isStun w) (hstep : socketsStep o isStun w a = some w') :
    Upward o isStun w' := by
  have htimer := socketsStep_timer h.timer hstep
  cases socketsStep_up hstep with
  | other hclient hsent hpkts hbytes =>
    refine ⟨htimer, ?_, ?_, ?_, ?_, ?_, ?_⟩
    · rw [hsent]
      exact h.framed
    · rw [hclient]
      exact h.inHand
    · rw [hclient]
      exact h.requesting
    · rw [hsent, hclient]
      exact h.announced
    · rw [hpkts, hsent]
      exact h.pktsUp
    · rw [hbytes, hsent]
      exact h.bytesUp
  | ping hsending =>
    -- without STUN masking the timer has not been spawned
    have hstun : isStun = true := by
      rw [← Bool.not_eq_false]
      intro hplain
      rw [h.timer hplain] at hsending
      cases hsending
    refine ⟨htimer, framed_concat h.framed ⟨hstun, _, rfl⟩, h.inHand, h.requesting, ?_, ?_, ?_⟩
    · simpa [Sent.ofClient, Sent.origins] using h.announced
    · simpa [Sent.carried] using h.pktsUp
    · simpa [Sent.wireUp] using h.bytesUp
  | @turn clientAddr client hfree hbefore =>
    -- a turn begins without a datagram
    have hnone : client.announced isStun = [] := by
      cases client with
      | forwarding d => cases hfree
      | _ => rfl
    refine ⟨htimer, h.framed, ?_, ?_, ?_, h.pktsUp, h.bytesUp⟩
    · show ∀ d ∈ client.datagram, Sendable d
      rw [hfree]
      exact fun _ hd => absurd hd List.not_mem_nil
    · show ∀ d ∈ client.unannounced, (isStun && isHandshake d) = true
      cases client with
      | requesting d => cases hfree
      | _ => exact List.forall_mem_nil _
    · show _ = _ ++ client.announced isStun
      rw [hnone, h.announced, hbefore]
  | take hclient hd =>
    refine ⟨htimer, h.framed, ?_, List.forall_mem_nil _, ?_, h.pktsUp, h.bytesUp⟩
    · intro d' hd'
      rw [List.mem_singleton.mp hd']
      exact hd
    · have hannounced := h.announced
      rwa [hclient] at hannounced
  | @announce clientAddr d hclient hask =>
    have hannounced := h.announced
    have hd : ∀ d ∈ w.client.datagram, Sendable d := h.inHand
    rw [hclient] at hannounced hd
    refine ⟨htimer, h.framed, hd, fun d' hd' => ?_, hannounced, h.pktsUp, h.bytesUp⟩
    rw [List.mem_singleton.mp hd']
    exact hask
  | @accept clientAddr d hclient hask =>
    have hannounced := h.announced
    have hd : ∀ d ∈ w.client.datagram, Sendable d := h.inHand
    rw [hclient] at hannounced hd
    refine ⟨htimer, h.framed, hd, List.forall_mem_nil _, ?_, h.pktsUp, h.bytesUp⟩
    simpa [SocketClientPc.announced, announcement, hask] using hannounced
  | @request d txid taken hclient =>
    -- only a handshake comes to be announced
    have hask := h.requesting d (by rw [hclient]; exact List.mem_singleton_self d)
    have hannounced := h.announced
    have hd : ∀ d ∈ w.client.datagram, Sendable d := h.inHand
    rw [hclient] at hannounced hd
    obtain ⟨hstun, -⟩ := Bool.and_eq_true_iff.mp hask
    refine ⟨htimer, framed_concat h.framed ⟨hstun, txid, rfl⟩, hd, List.forall_mem_nil _,
      ?_, ?_, ?_⟩
    · simp only [SocketClientPc.announced, List.append_nil] at hannounced
      simp [Sent.ofClient, Sent.origins, SocketClientPc.announced, announcement, hask, hannounced]
    · simpa [Sent.carried] using h.pktsUp
    · simpa [Sent.wireUp] using h.bytesUp
  | @forward d rng txid taken hclient =>
    have hannounced := h.announced
    have hd : ∀ d ∈ w.client.datagram, Sendable d := h.inHand
    rw [hclient] at hannounced hd
    have hsendable := hd d (List.mem_singleton_self d)
    refine ⟨htimer, framed_concat h.framed ⟨hsendable, rng, txid, rfl⟩,
      List.forall_mem_nil _, List.forall_mem_nil _, ?_, ?_, ?_⟩
    · simp only [SocketClientPc.announced] at hannounced
      simp [Sent.ofClient, Sent.origins, SocketClientPc.announced, hannounced]
    · -- the counters count what the socket has taken
      cases taken with
      | false => simpa [Sent.carried] using h.pktsUp
      | true => simp [Sent.carried, RelayStats.up, h.pktsUp]
    · cases taken with
      | false => simpa [Sent.wireUp] using h.bytesUp
      | true => simp [Sent.wireUp, RelayStats.up, h.bytesUp]

omit [DecidableEq Addr] in
/-- A send, seen from the server. -/
theorem receive_sent {e : Sent Addr} (he : e.Framed o isStun) :
    e.onWire.filterMap (tunnelReceive o isStun) = e.carried
      ∧ e.onWire.filterMap (serverReceive o isStun) = e.carried := by
  cases e with
  | ping wire taken | request wire taken =>
    obtain ⟨rfl, txid, rfl⟩ := he
    -- the other end passes over a request
    obtain ⟨htunnel, hserver⟩ := receive_bindingRequest o txid
    cases taken with
    | false => exact ⟨rfl, rfl⟩
    | true => exact ⟨List.filterMap_cons_none htunnel, List.filterMap_cons_none hserver⟩
  | packet d wire taken =>
    obtain ⟨hd, rng, txid, rfl⟩ := he
    -- and reads the packet out of its frame
    obtain ⟨htunnel, hserver⟩ := receive_sendPath o isStun hd.wireGuardPacket rng txid
    cases taken with
    | false => exact ⟨rfl, rfl⟩
    | true => exact ⟨List.filterMap_cons_some htunnel, List.filterMap_cons_some hserver⟩

omit [DecidableEq Addr] in
/-- The coarse machine records the same origins. -/
theorem origins_coarse (sent : List (Sent Addr)) :
    (sent.flatMap (Sent.upstream isStun)).filterMap Upstream.origin?
      = sent.flatMap Sent.origins := by
  rw [List.filterMap_flatMap]
  refine List.flatMap_congr fun e _ => ?_
  cases e with
  | ping | request => rfl
  | packet d wire taken =>
    simp only [Sent.upstream, Sent.origins]
    cases isStun && isHandshake d <;> rfl

omit [DecidableEq Addr] in
/-- The packets whose send succeeded are among those of the datagrams to forward. -/
theorem carried_sublist (sent : List (Sent Addr)) :
    (sent.flatMap Sent.carried).Sublist ((sent.flatMap Sent.origins).map Datagram.bytes) := by
  rw [List.map_flatMap]
  refine List.Sublist.flatMap_right sent fun e _ => ?_
  cases e with
  | ping | request => exact List.Sublist.refl _
  | packet d wire taken =>
    cases taken with
    | false => exact List.nil_sublist _
    | true => exact List.Sublist.refl _

/-- What there is to say about the datagrams of the relay on the network. -/
structure RelayWire (o : Obfuscator) (isStun : Bool) (acts : List (SocketAction Addr))
    (w : RelaySockets Addr) : Prop where
  /-- a server with the same settings reads the packets, and nothing in place of the requests -/
  server : (w.sent.flatMap Sent.onWire).filterMap (serverReceive o isStun)
    = w.sent.flatMap Sent.carried
  tunnel : (w.sent.flatMap Sent.onWire).filterMap (tunnelReceive o isStun)
    = w.sent.flatMap Sent.carried
  /-- these are packets to forward, in order, without those that the system did not take -/
  carried : (w.sent.flatMap Sent.carried).Sublist
    ((w.sent.flatMap Sent.origins).map Datagram.bytes)
  forwarded : ∃ ds, clientInputs (acts.filterMap SocketAction.coarse)
      = ds ++ w.client.coarse.waiting
    ∧ w.sent.flatMap Sent.origins ++ w.client.coarse.inFlight = forwarded ds
  /-- a request stands right in front of each handshake, and there is no other of the client
  loop -/
  announced : w.sent.flatMap Sent.ofClient
    = ((w.sent.flatMap Sent.origins).flatMap fun d => announcement isStun d ++ [some d])
      ++ w.client.announced isStun
  pktsUp : w.stats.pktsUp = UInt64.ofNat (w.sent.flatMap Sent.carried).length
  bytesUp : w.stats.bytesUp = UInt64.ofNat (w.sent.flatMap Sent.wireUp).flatten.length

/-- **What the relay puts on the wire** is what it is to forward. -/
theorem relay_wire (hrun : Run (socketsStep o isStun) anyStep (socketsInit isStun) acts w) :
    RelayWire o isStun acts w := by
  have hup : Upward o isStun w :=
    hrun.invariant (P := Upward o isStun) .init fun _ _ _ h _ hst => h.step hst
  obtain ⟨ds, hds, -, -, hfwd⟩ := relay_client_inv (relaySockets_refine hrun)
  refine ⟨?_, ?_, carried_sublist w.sent, ⟨ds, hds, ?_⟩, hup.announced, hup.pktsUp, hup.bytesUp⟩
  · rw [List.filterMap_flatMap]
    exact List.flatMap_congr fun e he => (receive_sent (hup.framed e he)).2
  · rw [List.filterMap_flatMap]
    exact List.flatMap_congr fun e he => (receive_sent (hup.framed e he)).1
  · rw [← origins_coarse]
    exact hfwd

/-- A handshake under STUN masking: a request, the packet, and a ping. -/
theorem relay_wire_handshake : ∃ w : RelaySockets Nat,
    w.sent.flatMap Sent.carried = [[1, 0, 0, 0, 9]] ∧ (w.sent.flatMap Sent.onWire).length = 3
      ∧ RelayWire sampleObfuscator true relayHandshake w := by
  have hexec : (exec (socketsStep sampleObfuscator true) (socketsInit true) relayHandshake).any
      (fun w => decide (w.sent.flatMap Sent.carried = [[1, 0, 0, 0, 9]]
        ∧ (w.sent.flatMap Sent.onWire).length = 3)) = true := by decide +kernel
  obtain ⟨w, hrun, hw⟩ := Run.of_exec_any hexec
  obtain ⟨hcarried, hlength⟩ := of_decide_eq_true hw
  exact ⟨w, hcarried, hlength, relay_wire hrun⟩

/-! ## The way back -/

/-- The payload the server loop has in its hands. -/
def ServerPc.inHand : ServerPc Addr → List Bytes
  | .looking payload | .sending payload _ => [payload]
  | _ => []

/-- What has been handed over, and what is about to be. -/
def RelayState.downward (w : RelayState Addr) : List Bytes :=
  w.delivered.map Prod.fst ++ w.server.inHand

/-- The datagram an action takes from the server. -/
def RelayAction.raw? : RelayAction Addr → Option Bytes
  | .serverRecv raw => some raw
  | _ => none

/-- The packets that the datagrams from the server carry. -/
def fromServer (o : Obfuscator) (isStun : Bool) (acts : List (RelayAction Addr)) : List Bytes :=
  (acts.filterMap RelayAction.raw?).filterMap (serverReceive o isStun)

omit [DecidableEq Addr] in
/-- What has come from the server comes in the order of the actions. -/
theorem fromServer_append (as bs : List (RelayAction Addr)) :
    fromServer o isStun (as ++ bs) = fromServer o isStun as ++ fromServer o isStun bs := by
  rw [fromServer, fromServer, fromServer, List.filterMap_append, List.filterMap_append]

/-- A packet is dropped only while nobody is bound. -/
theorem relayStep_downward {u u' : RelayState Addr} {a : RelayAction Addr}
    (hstep : relayStep o isStun u a = some u') :
    u'.downward = u.downward ++ fromServer o isStun [a]
      ∨ u.clientAddr = none ∧ u'.downward.Sublist (u.downward ++ fromServer o isStun [a]) := by
  cases a with
  | clientCheck | clientRecv | clientRecvError | clientBind | clientForward =>
    simp only [relayStep] at hstep
    split at hstep <;> cases hstep
    exact .inl (List.append_nil _).symm
  | stop =>
    cases hstep
    exact .inl (List.append_nil _).symm
  | serverCheck =>
    simp only [relayStep] at hstep
    split at hstep <;> cases hstep
    next hpc =>
    refine .inl ?_
    simp only [RelayState.downward, hpc]
    cases u.running <;> exact (List.append_nil _).symm
  | serverRecv raw =>
    simp only [relayStep] at hstep
    split at hstep
    · next hpc =>
      split at hstep
      · next payload hreceive =>
        cases hstep
        exact .inl (by simp [RelayState.downward, hpc, ServerPc.inHand, fromServer,
          RelayAction.raw?, hreceive])
      · next hreceive =>
        cases hstep
        exact .inl (by simp [RelayState.downward, hpc, ServerPc.inHand, fromServer,
          RelayAction.raw?, hreceive])
    · cases hstep
  | serverRecvError =>
    simp only [relayStep] at hstep
    split at hstep <;> cases hstep
    next hpc => exact .inl (by simp [RelayState.downward, hpc, ServerPc.inHand, fromServer,
      RelayAction.raw?])
  | serverLook =>
    simp only [relayStep] at hstep
    split at hstep
    · next payload hpc =>
      split at hstep
      · next client hclient =>
        cases hstep
        exact .inl (by simp [RelayState.downward, hpc, ServerPc.inHand, fromServer,
          RelayAction.raw?])
      · next hclient =>
        cases hstep
        -- nobody is bound, and the packet is dropped
        exact .inr ⟨hclient, by simp [RelayState.downward, hpc, ServerPc.inHand, fromServer,
          RelayAction.raw?]⟩
    · cases hstep
  | serverSend =>
    simp only [relayStep] at hstep
    split at hstep <;> cases hstep
    next hpc => exact .inl (by simp [RelayState.downward, hpc, ServerPc.inHand, fromServer,
      RelayAction.raw?])

/-- Once somebody is bound, somebody stays bound. -/
theorem rebind_ne_none (clientAddr : Option Addr) (d : Datagram Addr) :
    (rebind clientAddr d).1 ≠ none := by
  unfold rebind
  split
  · simp
  · split
    · split <;> simp
    · simp

/-- Somebody stays bound. -/
theorem relayStep_bound {u u' : RelayState Addr} {a : RelayAction Addr}
    (hbound : u.clientAddr ≠ none) (hstep : relayStep o isStun u a = some u') :
    u'.clientAddr ≠ none := by
  cases a with
  | clientBind =>
    simp only [relayStep] at hstep
    split at hstep <;> cases hstep
    -- the client loop binds, or keeps the client that is bound
    exact rebind_ne_none _ _
  | serverRecv | serverLook =>
    simp only [relayStep] at hstep
    split at hstep
    · split at hstep <;> cases hstep <;> exact hbound
    · cases hstep
  | stop =>
    cases hstep
    exact hbound
  | _ =>
    simp only [relayStep] at hstep
    split at hstep <;> cases hstep
    exact hbound

/-- What a run of the coarse machine delivers. -/
theorem relay_downward {u u' : RelayState Addr} {as : List (RelayAction Addr)}
    (hrun : Run (relayStep o isStun) anyStep u as u') :
    u'.downward.Sublist (u.downward ++ fromServer o isStun as)
      ∧ (u.clientAddr ≠ none → u'.clientAddr ≠ none
        ∧ u'.downward = u.downward ++ fromServer o isStun as) := by
  refine hrun.history (P := fun as u' => u'.downward.Sublist (u.downward ++ fromServer o isStun as)
    ∧ (u.clientAddr ≠ none → u'.clientAddr ≠ none
      ∧ u'.downward = u.downward ++ fromServer o isStun as)) ?_ ?_
  · exact ⟨by simp [fromServer], fun hbound => ⟨hbound, by simp [fromServer]⟩⟩
  · rintro bs t b t' - ⟨hsub, hlaw⟩ - hstep
    -- the last action adds what it has taken from the server
    rw [fromServer_append, ← List.append_assoc]
    rcases relayStep_downward hstep with heq | ⟨hnone, hless⟩
    · refine ⟨heq ▸ hsub.append_right _, fun hbound => ?_⟩
      obtain ⟨hstill, hall⟩ := hlaw hbound
      exact ⟨relayStep_bound hstill hstep, by rw [heq, hall]⟩
    · exact ⟨hless.trans (hsub.append_right _), fun hbound => absurd hnone (hlaw hbound).1⟩

/-- What has reached the clients: the system has taken it. -/
def RelaySockets.reached (w : RelaySockets Addr) : List Bytes :=
  (w.handed.filter Handed.taken).map Handed.payload

omit [DecidableEq Addr] in
/-- The coarse machine remembers who a packet was for, and not whether it was taken. -/
theorem map_fst_coarse (handed : List (Handed Addr)) :
    (handed.map fun h => (h.payload, h.client)).map Prod.fst = handed.map Handed.payload := by
  rw [List.map_map]
  rfl

/-- **What the relay delivers.** The packets that it hands to the loopback socket, and the one on
its way, are among those that the server has sent, in its order, and so are those that reach the
clients. From the moment that somebody is bound, all of them are handed over, each once. -/
theorem relay_delivers (hrun : Run (socketsStep o isStun) anyStep (socketsInit isStun) acts v)
    (hmore : Run (socketsStep o isStun) anyStep v bs w) :
    let received := fromServer o isStun (acts.filterMap SocketAction.coarse)
    let later := fromServer o isStun (bs.filterMap SocketAction.coarse)
    (w.handed.map Handed.payload ++ w.server.inHand).Sublist (received ++ later)
      ∧ w.reached.Sublist (received ++ later)
      ∧ (v.clientAddr ≠ none → w.handed.map Handed.payload ++ w.server.inHand
        = v.handed.map Handed.payload ++ v.server.inHand ++ later) := by
  intro received later
  -- seen as a run of the coarse machine, up to `v` and from `v` on
  have hfirst : (v.coarse isStun).downward.Sublist received := by
    have h := (relay_downward (relaySockets_refine hrun)).1
    rwa [RelayState.downward, relayInit] at h
  obtain ⟨hsub, hlaw⟩ := relay_downward (hmore.simulate socketsStep_simulates)
  have hcoarse : ∀ u : RelaySockets Addr, (u.coarse isStun).downward
      = u.handed.map Handed.payload ++ u.server.inHand := fun u =>
    congrArg (· ++ u.server.inHand) (map_fst_coarse u.handed)
  rw [hcoarse] at hfirst
  rw [hcoarse, hcoarse] at hsub hlaw
  have hall := hsub.trans (hfirst.append_right later)
  refine ⟨hall, ?_, fun hbound => (hlaw hbound).2⟩
  have htaken : w.reached.Sublist (w.handed.map Handed.payload) := List.filter_sublist.map _
  exact htaken.trans ((List.sublist_append_left _ _).trans hall)

/-- The server answers a handshake, and the client is given the answer. -/
theorem relay_delivers_answer : ∃ v w : RelaySockets Nat, v.clientAddr = some 1
    ∧ w.handed = [⟨[2, 0, 0, 0, 5], 1, true⟩] ∧ w.reached = [[2, 0, 0, 0, 5]]
    ∧ w.handed.map Handed.payload ++ w.server.inHand
      = v.handed.map Handed.payload ++ v.server.inHand
        ++ fromServer sampleObfuscator true (relayAnswer.filterMap SocketAction.coarse) := by
  have hexec : (exec (socketsStep sampleObfuscator true) (socketsInit true) relayHandshake).any
      (fun v => decide (v.clientAddr = some 1)
        && (exec (socketsStep sampleObfuscator true) v relayAnswer).any
          fun w => decide (w.handed = [⟨[2, 0, 0, 0, 5], 1, true⟩])) = true := by decide +kernel
  obtain ⟨v, hrun, hv⟩ := Run.of_exec_any hexec
  rw [Bool.and_eq_true, decide_eq_true_eq] at hv
  obtain ⟨hbound, hrest⟩ := hv
  obtain ⟨w, hmore, hw⟩ := Run.of_exec_any hrest
  have hhanded := of_decide_eq_true hw
  have hreached : w.reached = [[2, 0, 0, 0, 5]] := by
    rw [RelaySockets.reached, hhanded]
    rfl
  exact ⟨v, w, hbound, hhanded, hreached, (relay_delivers hrun hmore).2.2 (by simp [hbound])⟩

end Phobos
