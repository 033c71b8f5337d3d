import PhobosClient.Relay.Framed
import PhobosClient.Tunnel.Traffic

/-!
# PhobosClient — two endpoints and the network between them

What a tunnel hands to its socket is a framed packet of the engine or a keepalive. An endpoint
with the same settings reads the packets out again, and nothing in place of the keepalives
(**`tunnel_wire`**), so the engines at both ends talk as if there were nothing in between.

**`end_to_end`** puts two tunnels on one network. The network may lose, repeat and reorder
datagrams, and others may send some of their own. Whatever engine it is that takes part, a packet
that the other side's engine gets was asked for by this side's engine, unless the datagram that
carried it is a foreign one; a network that keeps the order keeps the order of the packets, and
one that delivers everything delivers every packet.
-/

namespace Phobos

open Steps

namespace TunnelEvent

/-- The datagram that has reached the network. -/
def onWire : TunnelEvent → List Bytes
  | sentPacket _ wire taken | sentRequest wire taken => if taken then [wire] else []
  | _ => []

/-- The packet in a datagram that has reached the network. -/
def carried : TunnelEvent → List Bytes
  | sentPacket packet _ taken => if taken then [packet] else []
  | _ => []

def datagram : TunnelEvent → List Bytes
  | received raw => [raw]
  | _ => []

/-- What is sent has been framed by the send path, or is a Binding Request under STUN masking. -/
def Framed (o : Obfuscator) (useStun : Bool) : TunnelEvent → Prop
  | sentPacket packet wire _ => ∃ rng txid, wire = sendPath o useStun rng txid packet
  | sentRequest wire _ => useStun = true ∧ ∃ txid, wire = stunBuildBindingRequest txid
  | _ => True

end TunnelEvent

variable {o : Obfuscator} {useStun : Bool} {m m' : TunnelShared} {es : List TunnelEvent}

/-! ## Everything sent is framed -/

/-- A keepalive is a Binding Request, and is sent under STUN masking only. -/
theorem framed_sendRequest (txid : Txid) (taken : Bool) :
    ∀ e ∈ sendRequest useStun txid taken, e.Framed o useStun := by
  cases useStun with
  | false => exact fun _ he => absurd he List.not_mem_nil
  | true =>
    intro e he
    rw [List.mem_singleton.mp he]
    exact ⟨rfl, txid, rfl⟩

/-- Nothing is sent. -/
theorem framed_nil : ∀ e ∈ ([] : List TunnelEvent), e.Framed o useStun :=
  fun _ he => absurd he List.not_mem_nil

/-- One thing is. -/
theorem framed_singleton {e : TunnelEvent} (h : e.Framed o useStun) :
    ∀ e' ∈ [e], e'.Framed o useStun := by
  intro e' he'
  rwa [List.mem_singleton.mp he']

/-- What a thread sends is framed with the draws that it was encoded with. -/
theorem sendStep_framed {t : TunnelThread} {s : SendPc} {a : SendAction} {next : Option SendPc}
    (h : sendStep o useStun t m s a = some (m', next, es)) : ∀ e ∈ es, e.Framed o useStun := by
  unfold sendStep at h
  split at h
  · split at h <;> cases h
    exact framed_nil
  · cases h; exact framed_nil
  · next packet rng txid taken =>
    cases h
    exact framed_singleton ⟨rng, txid, rfl⟩
  · cases h

/-- The main thread sends the initiation and the first keepalive. -/
theorem mainStep_framed {hasEnded : WorkerKind → Bool} {pc pc' : MainPc} {a : MainAction}
    (h : mainStep o useStun hasEnded m pc a = some (m', pc', es)) :
    ∀ e ∈ es, e.Framed o useStun := by
  unfold mainStep at h
  split at h
  · next res =>
    split at h
    · cases h
    · cases res <;> cases h <;> exact framed_singleton trivial
  · split at h
    · next hsend => cases h; exact sendStep_framed hsend
    · next hsend => cases h; exact sendStep_framed hsend
    · cases h
  · cases h; exact framed_sendRequest _ _
  · cases h; exact framed_nil
  · cases h; exact framed_nil
  · split at h <;> cases h
    exact framed_singleton trivial
  · cases h; exact framed_nil
  · cases h; exact framed_nil
  · split at h <;> cases h
    exact framed_nil
  · cases h

/-- Worker 1 sends packets only. -/
theorem tunToUdpStep_framed {pc pc' : TunToUdpPc} {a : TunToUdpAction}
    (h : tunToUdpStep o useStun m pc a = some (m', pc', es)) : ∀ e ∈ es, e.Framed o useStun := by
  unfold tunToUdpStep at h
  split at h
  · cases h; exact framed_nil
  · cases h; exact framed_singleton trivial
  · split at h <;> cases h
    exact framed_nil
  · cases h; exact framed_nil
  · next packet res =>
    split at h
    · cases h
    · cases res <;> cases h <;> exact framed_singleton trivial
  · split at h
    · next hsend => cases h; exact sendStep_framed hsend
    · next hsend => cases h; exact sendStep_framed hsend
    · cases h
  · cases h

/-- So does worker 2. -/
theorem udpToTunStep_framed {pc pc' : UdpToTunPc} {a : UdpToTunAction}
    (h : udpToTunStep o useStun m pc a = some (m', pc', es)) : ∀ e ∈ es, e.Framed o useStun := by
  unfold udpToTunStep at h
  split at h
  · cases h; exact framed_nil
  · split at h <;> cases h <;> exact framed_singleton trivial
  · cases h; exact framed_nil
  · split at h <;> cases h
    exact framed_nil
  · cases h; exact framed_nil
  · split at h <;> cases h
    exact framed_singleton trivial
  · cases h; exact framed_singleton trivial
  · split at h
    · next hsend => cases h; exact sendStep_framed hsend
    · next hsend => cases h; exact sendStep_framed hsend
    · cases h
  · cases h; exact framed_singleton trivial
  · cases h; exact framed_nil
  · cases h

/-- Worker 3 sends packets and keepalives. -/
theorem timersStep_framed {pc pc' : TimersPc} {a : TimersAction}
    (h : timersStep o useStun m pc a = some (m', pc', es)) : ∀ e ∈ es, e.Framed o useStun := by
  unfold timersStep at h
  split at h
  · cases h; exact framed_nil
  · next res =>
    split at h
    · cases h
    · cases res <;> cases h <;> exact framed_singleton trivial
  · split at h
    · next hsend => cases h; exact sendStep_framed hsend
    · next hsend => cases h; exact sendStep_framed hsend
    · cases h
  · next due txid taken =>
    cases h
    cases due with
    | false => exact framed_nil
    | true => exact framed_sendRequest _ _
  · cases h

variable {w w' wa wb : TunnelState} {a : TunnelAction} {acts actsA actsB : List TunnelAction}

/-- **Everything sent is framed**, whoever has sent it. -/
theorem framed_of_run (hrun : Run (tunnelStep o useStun) anyStep tunnelInit acts w) :
    ∀ e ∈ w.events, e.Framed o useStun := by
  refine hrun.invariant (P := fun w => ∀ e ∈ w.events, e.Framed o useStun) framed_nil ?_
  intro v b u hv _ hstep
  have hextend : ∀ {es : List TunnelEvent}, (∀ e ∈ es, e.Framed o useStun) →
      ∀ e ∈ v.events ++ es, e.Framed o useStun :=
    fun hes e he => (List.mem_append.mp he).elim (hv e) (hes e)
  cases tunnelStep_move hstep with
  | stop => exact hv
  | main hst => exact hextend (mainStep_framed hst)
  | tunToUdp _ hst => exact hextend (tunToUdpStep_framed hst)
  | udpToTun _ hst => exact hextend (udpToTunStep_framed hst)
  | timers _ hst => exact hextend (timersStep_framed hst)

/-! ## What comes out at the other end -/

/-- One event, seen from the other end. -/
theorem receive_onWire {e : TunnelEvent} (hframed : e.Framed o useStun)
    (hpacket : ∀ p ∈ e.packetSent, WireGuardPacket p) :
    e.onWire.filterMap (tunnelReceive o useStun) = e.carried
      ∧ e.onWire.filterMap (serverReceive o useStun) = e.carried := by
  cases e with
  | sentPacket packet wire taken =>
    obtain ⟨rng, txid, rfl⟩ := hframed
    -- either receive path undoes the send path
    obtain ⟨htunnel, hserver⟩ := receive_sendPath o useStun
      (hpacket packet (List.mem_singleton_self _)) rng txid
    cases taken with
    | false => exact ⟨rfl, rfl⟩
    | true =>
      exact ⟨List.filterMap_cons_some htunnel, List.filterMap_cons_some hserver⟩
  | sentRequest wire taken =>
    obtain ⟨rfl, txid, rfl⟩ := hframed
    -- a Binding Request carries nothing
    obtain ⟨htunnel, hserver⟩ := receive_bindingRequest o txid
    cases taken with
    | false => exact ⟨rfl, rfl⟩
    | true => exact ⟨List.filterMap_cons_none htunnel, List.filterMap_cons_none hserver⟩
  | _ => exact ⟨rfl, rfl⟩

/-- The packets sent were asked for. -/
theorem packetSent_subset (hrun : Run (tunnelStep o useStun) anyStep tunnelInit acts w) {p : Bytes}
    (hp : p ∈ w.events.flatMap TunnelEvent.packetSent) :
    p ∈ w.events.flatMap TunnelEvent.network :=
  (tunnel_traffic hrun).outbound.mem_input hp

/-- **What is on the wire is what the engine asked for.** If the engine's packets are WireGuard
packets, then an endpoint with the same settings that receives what has reached the network, with
either receive path, reads exactly the packets in it, in order, and nothing else; and all of them
were asked for by the engine. -/
theorem tunnel_wire (hrun : Run (tunnelStep o useStun) anyStep tunnelInit acts w)
    (hengine : ∀ p ∈ w.events.flatMap TunnelEvent.network, WireGuardPacket p) :
    (w.events.flatMap TunnelEvent.onWire).filterMap (tunnelReceive o useStun)
        = w.events.flatMap TunnelEvent.carried
      ∧ (w.events.flatMap TunnelEvent.onWire).filterMap (serverReceive o useStun)
        = w.events.flatMap TunnelEvent.carried
      ∧ ∀ p ∈ w.events.flatMap TunnelEvent.carried, p ∈ w.events.flatMap TunnelEvent.network := by
  have hsent : ∀ e ∈ w.events, ∀ p ∈ e.packetSent, p ∈ w.events.flatMap TunnelEvent.network :=
    fun e he p hp => packetSent_subset hrun (List.mem_flatMap.mpr ⟨e, he, hp⟩)
  -- event by event
  have hreceive : ∀ e ∈ w.events, e.onWire.filterMap (tunnelReceive o useStun) = e.carried
      ∧ e.onWire.filterMap (serverReceive o useStun) = e.carried :=
    fun e he => receive_onWire (framed_of_run hrun e he) fun p hp => hengine p (hsent e he p hp)
  refine ⟨?_, ?_, fun p hp => ?_⟩
  · rw [List.filterMap_flatMap]
    exact List.flatMap_congr fun e he => (hreceive e he).1
  · rw [List.filterMap_flatMap]
    exact List.flatMap_congr fun e he => (hreceive e he).2
  · -- a packet that has reached the network was handed to the socket
    obtain ⟨e, he, hp⟩ := List.mem_flatMap.mp hp
    refine hsent e he p ?_
    cases e with
    | sentPacket packet wire taken =>
      cases taken with
      | false => exact absurd hp List.not_mem_nil
      | true => exact hp
    | _ => exact absurd hp List.not_mem_nil

/-- Two packets and a keepalive on the wire. -/
theorem tunnel_wire_exchange : ∃ w : TunnelState,
    w.events.flatMap TunnelEvent.carried = [[1, 0, 0, 0, 9], [4, 0, 0, 0]]
      ∧ (w.events.flatMap TunnelEvent.onWire).length = 3
      ∧ (w.events.flatMap TunnelEvent.onWire).filterMap (tunnelReceive sampleObfuscator true)
        = w.events.flatMap TunnelEvent.carried := by
  have hexec : (exec (tunnelStep sampleObfuscator true) tunnelInit sampleExchange).any (fun w =>
      decide (w.events.flatMap TunnelEvent.carried = [[1, 0, 0, 0, 9], [4, 0, 0, 0]]
        ∧ (w.events.flatMap TunnelEvent.onWire).length = 3
        ∧ w.events.flatMap TunnelEvent.network
          = [[1, 0, 0, 0, 9], [4, 0, 0, 0], [4, 0, 0, 0, 69, 0]])) = true := by
    decide +kernel
  obtain ⟨w, hrun, hw⟩ := Run.of_exec_any hexec
  obtain ⟨hcarried, hlength, hnetwork⟩ := of_decide_eq_true hw
  refine ⟨w, hcarried, hlength, (tunnel_wire hrun ?_).1⟩
  rw [hnetwork]
  intro p hp
  simp only [List.mem_cons, List.not_mem_nil, or_false] at hp
  rcases hp with rfl | rfl | rfl
  · exact ⟨⟨1, [9], rfl, by decide, by decide⟩, by decide⟩
  · exact ⟨⟨4, [], rfl, by decide, by decide⟩, by decide⟩
  · exact ⟨⟨4, [69, 0], rfl, by decide, by decide⟩, by decide⟩

/-! ## Two tunnels -/

/-- What the engine of a tunnel has been given, and is about to be given, is what the datagrams it
has received carry. -/
theorem decapsulated_eq (hrun : Run (tunnelStep o useStun) anyStep tunnelInit acts w) :
    w.events.flatMap TunnelEvent.decapsulated ++ w.udpToTun.toDecapsulate o
      = (w.events.flatMap TunnelEvent.datagram).filterMap (tunnelReceive o useStun) := by
  have hbalanced : w.events.flatMap (TunnelEvent.decoded o useStun)
      = w.events.flatMap TunnelEvent.decapsulated ++ w.udpToTun.toDecapsulate o :=
    (tunnel_traffic hrun).inbound
  rw [← hbalanced, List.filterMap_flatMap]
  refine List.flatMap_congr fun e _ => ?_
  cases e with
  | received raw =>
    simp only [TunnelEvent.decoded, TunnelEvent.datagram, List.filterMap_cons, List.filterMap_nil]
    -- a datagram that is dropped leaves nothing on either side
    cases tunnelReceive o useStun raw <;> rfl
  | _ => rfl

/-- **From engine to engine.** Two tunnels have the same settings. Whatever the network does, a
packet that the engine of the one is given was asked for by the engine of the other, or came in a
datagram which the other has not sent. If the network loses datagrams and nothing else, the
packets arrive in order; if it delivers just what was sent, so do the engines. -/
theorem end_to_end (ha : Run (tunnelStep o useStun) anyStep tunnelInit actsA wa)
    (hb : Run (tunnelStep o useStun) anyStep tunnelInit actsB wb)
    (hengine : ∀ p ∈ wa.events.flatMap TunnelEvent.network, WireGuardPacket p) :
    let sent := wa.events.flatMap TunnelEvent.onWire
    let arrived := wb.events.flatMap TunnelEvent.datagram
    let given := wb.events.flatMap TunnelEvent.decapsulated
    (∀ p ∈ given, p ∈ wa.events.flatMap TunnelEvent.network
        ∨ ∃ raw ∈ arrived, raw ∉ sent ∧ tunnelReceive o useStun raw = some p)
      ∧ (arrived.Sublist sent → given.Sublist (wa.events.flatMap TunnelEvent.carried))
      ∧ (arrived = sent →
          given ++ wb.udpToTun.toDecapsulate o = wa.events.flatMap TunnelEvent.carried) := by
  intro sent arrived given
  obtain ⟨hwire, -, hasked⟩ := tunnel_wire ha hengine
  have hgiven : given ++ wb.udpToTun.toDecapsulate o
      = arrived.filterMap (tunnelReceive o useStun) := decapsulated_eq hb
  refine ⟨fun p hp => ?_, fun hsub => ?_, fun heq => ?_⟩
  · have hmem : p ∈ arrived.filterMap (tunnelReceive o useStun) := by
      rw [← hgiven]
      exact List.mem_append_left _ hp
    obtain ⟨raw, hraw, hreceive⟩ := List.mem_filterMap.mp hmem
    -- the datagram is one of ours, or a foreign one
    by_cases hours : raw ∈ sent
    · refine .inl (hasked p ?_)
      rw [← hwire]
      exact List.mem_filterMap.mpr ⟨raw, hours, hreceive⟩
    · exact .inr ⟨raw, hraw, hours, hreceive⟩
  · -- what is still with worker 2 comes last
    have hprefix : given.Sublist (arrived.filterMap (tunnelReceive o useStun)) := by
      rw [← hgiven]
      exact List.sublist_append_left _ _
    rw [← hwire]
    exact hprefix.trans (hsub.filterMap _)
  · rw [hgiven, heq, hwire]

/-- The other end of `sampleHandshake`, on a network that delivers everything. -/
def sampleAnswer : List TunnelAction :=
  sampleHandshake ++ sampleReceive [1, 0, 0, 0, 9] ++
    [.udpToTun (.decapsulate .done), .udpToTun .unlock, .udpToTun .check,
      .udpToTun (.recv (stunBuildBindingRequest sampleTxid))]

/-- An initiation and a keepalive are sent; the initiation arrives, and is all that does. -/
theorem end_to_end_handshake : ∃ wa wb : TunnelState,
    wb.events.flatMap TunnelEvent.decapsulated = [[1, 0, 0, 0, 9]]
      ∧ wb.events.flatMap TunnelEvent.datagram = wa.events.flatMap TunnelEvent.onWire
      ∧ wb.events.flatMap TunnelEvent.decapsulated
          ++ wb.udpToTun.toDecapsulate sampleObfuscator
        = wa.events.flatMap TunnelEvent.carried := by
  let sent := [sendPath sampleObfuscator true sampleRng sampleTxid [1, 0, 0, 0, 9],
    stunBuildBindingRequest sampleTxid]
  have hexecA : (exec (tunnelStep sampleObfuscator true) tunnelInit sampleHandshake).any (fun w =>
      decide (w.events.flatMap TunnelEvent.network = [[1, 0, 0, 0, 9]]
        ∧ w.events.flatMap TunnelEvent.onWire = sent)) = true := by
    decide +kernel
  have hexecB : (exec (tunnelStep sampleObfuscator true) tunnelInit sampleAnswer).any (fun w =>
      decide (w.events.flatMap TunnelEvent.decapsulated = [[1, 0, 0, 0, 9]]
        ∧ w.events.flatMap TunnelEvent.datagram = sent)) = true := by
    decide +kernel
  obtain ⟨wa, hrunA, hwa⟩ := Run.of_exec_any hexecA
  obtain ⟨wb, hrunB, hwb⟩ := Run.of_exec_any hexecB
  obtain ⟨hnetwork, hsent⟩ := of_decide_eq_true hwa
  obtain ⟨hgiven, harrived⟩ := of_decide_eq_true hwb
  have hall : wb.events.flatMap TunnelEvent.datagram = wa.events.flatMap TunnelEvent.onWire :=
    harrived.trans hsent.symm
  refine ⟨wa, wb, hgiven, hall, (end_to_end hrunA hrunB ?_).2.2 hall⟩
  rw [hnetwork]
  intro p hp
  rw [List.mem_singleton.mp hp]
  exact ⟨⟨1, [9], rfl, by decide, by decide⟩, by decide⟩

end Phobos
