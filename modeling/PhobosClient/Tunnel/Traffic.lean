import PhobosClient.Lib.Flow
import PhobosClient.Relay.Receivers
import PhobosClient.Tunnel.Model

/-!
# PhobosClient — what the workers carry

Four flows run through a tunnel: packets of the adapter to the engine, datagrams of the socket to
the engine once they are decoded, packets of the engine to the adapter, and packets of the engine
to the socket. Each of the first three is the work of one worker, the last one of all threads.

A worker carries one item at a time, so each flow has the law of a queue for every single step
(`tunToUdpStep_flows`, `udpToTunStep_flows`, `timersStep_flows`), and from the laws of the steps
follows the one of all runs: **`tunnel_traffic`**. Nothing is lost between the two ends of a flow,
handed over twice or made up, whatever the engine answers and however the threads are scheduled.
-/

namespace Phobos

open Steps

/-! ## The flows -/

/-- The packet an answer asks to send. -/
def TunnResult.network : TunnResult → List Bytes
  | .writeToNetwork packet => [packet]
  | _ => []

/-- The packet an answer has for the adapter. -/
def TunnResult.tunnel : TunnResult → List Bytes
  | .writeToTunnelV4 packet | .writeToTunnelV6 packet => [packet]
  | _ => []

namespace TunnelEvent

/-- The packet the engine asks to send. -/
def network : TunnelEvent → List Bytes
  | formatHandshakeInitiation res | encapsulate _ res | decapsulate _ res | updateTimers res =>
    res.network
  | _ => []

/-- The packet handed to the socket, which may refuse it. -/
def packetSent : TunnelEvent → List Bytes
  | sentPacket packet _ _ => [packet]
  | _ => []

/-- The packet the engine has for the adapter; only the worker that decapsulates looks for it. -/
def tunnel : TunnelEvent → List Bytes
  | decapsulate _ res => res.tunnel
  | _ => []

/-- The packet put into the adapter, or given up for want of room. -/
def written : TunnelEvent → List Bytes
  | writeAdapter packet _ => [packet]
  | _ => []

def read : TunnelEvent → List Bytes
  | readAdapter packet => [packet]
  | _ => []

def encapsulated : TunnelEvent → List Bytes
  | encapsulate packet _ => [packet]
  | _ => []

/-- The packet that a datagram of the socket carries. -/
def decoded (o : Obfuscator) (useStun : Bool) : TunnelEvent → List Bytes
  | received raw => (tunnelReceive o useStun raw).toList
  | _ => []

/-- The packet given to the engine; the empty datagram only asks for more. -/
def decapsulated : TunnelEvent → List Bytes
  | decapsulate datagram _ => if datagram.isEmpty then [] else [datagram]
  | _ => []

end TunnelEvent

/-- From the engine to the socket. -/
def outbound : ItemFlow TunnelEvent Bytes := ⟨TunnelEvent.network, TunnelEvent.packetSent⟩

/-- From the engine to the adapter. -/
def upbound : ItemFlow TunnelEvent Bytes := ⟨TunnelEvent.tunnel, TunnelEvent.written⟩

/-- From the adapter to the engine. -/
def downbound : ItemFlow TunnelEvent Bytes := ⟨TunnelEvent.read, TunnelEvent.encapsulated⟩

/-- From the socket to the engine. -/
def inbound (o : Obfuscator) (useStun : Bool) : ItemFlow TunnelEvent Bytes :=
  ⟨TunnelEvent.decoded o useStun, TunnelEvent.decapsulated⟩

/-! ## What is on its way -/

def SendPc.toSend : SendPc → List Bytes
  | waiting packet | encoding packet | encoded packet _ _ => [packet]

def MainPc.toSend : MainPc → List Bytes
  | sending s => s.toSend
  | _ => []

def TunToUdpPc.toSend : TunToUdpPc → List Bytes
  | sending s => s.toSend
  | _ => []

def TunToUdpPc.toEncapsulate : TunToUdpPc → List Bytes
  | encapsulating packet => [packet]
  | _ => []

def UdpToTunPc.toSend : UdpToTunPc → List Bytes
  | sending s => s.toSend
  | _ => []

def UdpToTunPc.toWrite : UdpToTunPc → List Bytes
  | writing packet => [packet]
  | _ => []

/-- The packet on its way to the engine, which may still have to be decoded. -/
def UdpToTunPc.toDecapsulate (o : Obfuscator) : UdpToTunPc → List Bytes
  | unwrapped payload | decoding payload => (decodePayload o payload).toList
  | decapsulating plain => [plain]
  | _ => []

def TimersPc.toSend : TimersPc → List Bytes
  | sending s => s.toSend
  | _ => []

/-- The packets of the engine that a thread is about to send. -/
def TunnelState.toSend (w : TunnelState) : Multiset Bytes :=
  w.main.toSend + (w.tunToUdp.toSend + (w.udpToTun.toSend + w.timers.toSend))

/-! ## The laws of single steps -/

/-- The events have no part in a flow. -/
def Outside (f : ItemFlow TunnelEvent Bytes) (es : List TunnelEvent) : Prop :=
  es.flatMap f.input = [] ∧ es.flatMap f.output = []

variable {o : Obfuscator} {useStun : Bool} {m m' : TunnelShared} {es : List TunnelEvent}

/-- No event, no part. -/
@[simp] theorem outside_nil (f : ItemFlow TunnelEvent Bytes) : Outside f [] := ⟨rfl, rfl⟩

/-- A keepalive belongs to none of the four. -/
theorem outside_sendRequest (useStun : Bool) (f : ItemFlow TunnelEvent Bytes) (txid : Txid)
    (taken : Bool) (hin : ∀ wire, f.input (.sentRequest wire taken) = [])
    (hout : ∀ wire, f.output (.sentRequest wire taken) = []) :
    Outside f (sendRequest useStun txid taken) := by
  cases useStun with
  | false => exact ⟨rfl, rfl⟩
  | true => exact ⟨by simp [sendRequest, hin], by simp [sendRequest, hout]⟩

/-- A thread that sends hands on the packet that it has, and has no part in the other flows. -/
theorem sendStep_flows {t : TunnelThread} {s : SendPc} {a : SendAction} {next : Option SendPc}
    (h : sendStep o useStun t m s a = some (m', next, es)) :
    s.toSend ++ es.flatMap outbound.input
        = es.flatMap outbound.output ++ next.elim [] SendPc.toSend
      ∧ Outside upbound es ∧ Outside downbound es ∧ Outside (inbound o useStun) es := by
  unfold sendStep at h
  split at h
  · split at h <;> cases h
    exact ⟨rfl, ⟨rfl, rfl⟩, ⟨rfl, rfl⟩, ⟨rfl, rfl⟩⟩
  · cases h; exact ⟨rfl, ⟨rfl, rfl⟩, ⟨rfl, rfl⟩, ⟨rfl, rfl⟩⟩
  · cases h; exact ⟨rfl, ⟨rfl, rfl⟩, ⟨rfl, rfl⟩, ⟨rfl, rfl⟩⟩
  · cases h

/-- The main thread sends the initiation. -/
theorem mainStep_flows {hasEnded : WorkerKind → Bool} {pc pc' : MainPc} {a : MainAction}
    (h : mainStep o useStun hasEnded m pc a = some (m', pc', es)) :
    pc.toSend ++ es.flatMap outbound.input = es.flatMap outbound.output ++ pc'.toSend
      ∧ Outside upbound es ∧ Outside downbound es ∧ Outside (inbound o useStun) es := by
  unfold mainStep at h
  split at h
  · next res =>
    split at h
    · cases h
    · cases res <;> cases h <;> exact ⟨rfl, ⟨rfl, rfl⟩, ⟨rfl, rfl⟩, ⟨rfl, rfl⟩⟩
  · split at h
    · next hsend => cases h; exact sendStep_flows hsend
    · next hsend => cases h; exact sendStep_flows hsend
    · cases h
  · next txid taken =>
    cases h
    -- the keepalive after the initiation
    obtain ⟨hin, hout⟩ := outside_sendRequest useStun outbound txid taken
      (fun _ => rfl) fun _ => rfl
    refine ⟨by rw [hin, hout]; rfl, ?_, ?_, ?_⟩ <;>
      exact outside_sendRequest _ _ _ _ (fun _ => rfl) fun _ => rfl
  · cases h; exact ⟨rfl, ⟨rfl, rfl⟩, ⟨rfl, rfl⟩, ⟨rfl, rfl⟩⟩
  · cases h
    cases m.running <;> exact ⟨rfl, ⟨rfl, rfl⟩, ⟨rfl, rfl⟩, ⟨rfl, rfl⟩⟩
  · split at h <;> cases h
    exact ⟨rfl, ⟨rfl, rfl⟩, ⟨rfl, rfl⟩, ⟨rfl, rfl⟩⟩
  · cases h; exact ⟨rfl, ⟨rfl, rfl⟩, ⟨rfl, rfl⟩, ⟨rfl, rfl⟩⟩
  · cases h; exact ⟨rfl, ⟨rfl, rfl⟩, ⟨rfl, rfl⟩, ⟨rfl, rfl⟩⟩
  · next kind =>
    split at h <;> cases h
    cases kind <;> exact ⟨rfl, ⟨rfl, rfl⟩, ⟨rfl, rfl⟩, ⟨rfl, rfl⟩⟩
  · cases h

/-- Worker 1 takes packets from the adapter to the engine, and sends what comes back. -/
theorem tunToUdpStep_flows {pc pc' : TunToUdpPc} {a : TunToUdpAction}
    (h : tunToUdpStep o useStun m pc a = some (m', pc', es)) :
    pc.toSend ++ es.flatMap outbound.input = es.flatMap outbound.output ++ pc'.toSend
      ∧ pc.toEncapsulate ++ es.flatMap downbound.input
        = es.flatMap downbound.output ++ pc'.toEncapsulate
      ∧ Outside upbound es ∧ Outside (inbound o useStun) es := by
  unfold tunToUdpStep at h
  split at h
  · cases h
    cases m.running <;> exact ⟨rfl, rfl, ⟨rfl, rfl⟩, ⟨rfl, rfl⟩⟩
  · cases h; exact ⟨rfl, rfl, ⟨rfl, rfl⟩, ⟨rfl, rfl⟩⟩
  · split at h <;> cases h
    exact ⟨rfl, rfl, ⟨rfl, rfl⟩, ⟨rfl, rfl⟩⟩
  · cases h; exact ⟨rfl, rfl, ⟨rfl, rfl⟩, ⟨rfl, rfl⟩⟩
  · next packet res =>
    split at h
    · cases h
    · cases res <;> cases h <;> exact ⟨rfl, rfl, ⟨rfl, rfl⟩, ⟨rfl, rfl⟩⟩
  · split at h
    · next hsend =>
      cases h
      -- while it sends it has no packet of the adapter
      obtain ⟨hout, hup, ⟨hdownIn, hdownOut⟩, hin⟩ := sendStep_flows hsend
      exact ⟨hout, by rw [hdownIn, hdownOut]; rfl, hup, hin⟩
    · next hsend =>
      cases h
      obtain ⟨hout, hup, ⟨hdownIn, hdownOut⟩, hin⟩ := sendStep_flows hsend
      exact ⟨hout, by rw [hdownIn, hdownOut]; rfl, hup, hin⟩
    · cases h
  · cases h

/-- Worker 3 sends what the timers of the engine ask for. -/
theorem timersStep_flows {pc pc' : TimersPc} {a : TimersAction}
    (h : timersStep o useStun m pc a = some (m', pc', es)) :
    pc.toSend ++ es.flatMap outbound.input = es.flatMap outbound.output ++ pc'.toSend
      ∧ Outside upbound es ∧ Outside downbound es ∧ Outside (inbound o useStun) es := by
  unfold timersStep at h
  split at h
  · cases h
    cases m.running <;> exact ⟨rfl, ⟨rfl, rfl⟩, ⟨rfl, rfl⟩, ⟨rfl, rfl⟩⟩
  · next res =>
    split at h
    · cases h
    · cases res <;> cases h <;> exact ⟨rfl, ⟨rfl, rfl⟩, ⟨rfl, rfl⟩, ⟨rfl, rfl⟩⟩
  · split at h
    · next hsend => cases h; exact sendStep_flows hsend
    · next hsend => cases h; exact sendStep_flows hsend
    · cases h
  · next due txid taken =>
    cases h
    cases due with
    | false => exact ⟨rfl, ⟨rfl, rfl⟩, ⟨rfl, rfl⟩, ⟨rfl, rfl⟩⟩
    | true =>
      obtain ⟨hin, hout⟩ := outside_sendRequest useStun outbound txid taken
        (fun _ => rfl) fun _ => rfl
      refine ⟨by rw [if_pos rfl, hin, hout]; rfl, ?_, ?_, ?_⟩ <;>
        exact outside_sendRequest _ _ _ _ (fun _ => rfl) fun _ => rfl
  · cases h

/-- A packet that was decoded is not the empty datagram that asks for more. -/
theorem decodePayload_ne_nil {payload plain : Bytes} (h : decodePayload o payload = some plain) :
    plain.isEmpty = false := by
  simp only [decodePayload] at h
  split at h <;> cases h
  next hnot =>
  rw [Bool.or_eq_true, not_or, Bool.not_eq_true] at hnot
  simpa using hnot.2

/-- What the worker receives is unwrapped, and then decoded. -/
theorem tunnelReceive_eq_decodePayload (raw : Bytes) : tunnelReceive o useStun raw
    = (if useStun then deStun raw else some raw).bind (decodePayload o) := by
  unfold tunnelReceive
  cases (if useStun then deStun raw else some raw) <;> rfl

/-- Worker 2 knows that its packet is not the empty datagram. -/
def UdpToTunPc.Sound : UdpToTunPc → Prop
  | decapsulating plain => plain.isEmpty = false
  | _ => True

/-- After an answer there is no packet to decapsulate. -/
theorem UdpToTunPc.sound_answered (res : TunnResult) : (answered res).Sound := by
  cases res <;> exact trivial

/-- An empty packet is dropped where it is decoded. -/
theorem udpToTunStep_sound {pc pc' : UdpToTunPc} {a : UdpToTunAction}
    (h : udpToTunStep o useStun m pc a = some (m', pc', es)) : pc'.Sound := by
  unfold udpToTunStep at h
  split at h
  · cases h; cases m.running <;> exact trivial
  · split at h <;> cases h <;> exact trivial
  · next timedOut => cases h; cases timedOut || m.running <;> exact trivial
  · split at h <;> cases h
    exact trivial
  · next payload =>
    cases h
    cases hdecode : decodePayload o payload with
    | none => exact trivial
    | some plain => exact decodePayload_ne_nil hdecode
  · split at h <;> cases h
    exact UdpToTunPc.sound_answered _
  · cases h; exact trivial
  · split at h <;> cases h <;> exact trivial
  · cases h; exact UdpToTunPc.sound_answered _
  · cases h; exact trivial
  · cases h

/-- What an answer brings is on its way to the socket or to the adapter. -/
theorem UdpToTunPc.answered_flows (res : TunnResult) :
    (answered res).toSend = res.network ∧ (answered res).toWrite = res.tunnel
      ∧ (answered res).toDecapsulate o = [] := by
  cases res <;> exact ⟨rfl, rfl, rfl⟩

/-- Worker 2 has a part in three of the flows, one at a time. -/
theorem udpToTunStep_flows {pc pc' : UdpToTunPc} {a : UdpToTunAction} (hpc : pc.Sound)
    (h : udpToTunStep o useStun m pc a = some (m', pc', es)) :
    pc.toSend ++ es.flatMap outbound.input = es.flatMap outbound.output ++ pc'.toSend
      ∧ pc.toWrite ++ es.flatMap upbound.input = es.flatMap upbound.output ++ pc'.toWrite
      ∧ pc.toDecapsulate o ++ es.flatMap (inbound o useStun).input
        = es.flatMap (inbound o useStun).output ++ pc'.toDecapsulate o
      ∧ Outside downbound es := by
  unfold udpToTunStep at h
  split at h
  · cases h
    cases m.running <;> exact ⟨rfl, rfl, rfl, ⟨rfl, rfl⟩⟩
  · next raw =>
    -- what the datagram carries is known from here on, though it is decoded later
    have hin : [TunnelEvent.received raw].flatMap (inbound o useStun).input
        = ((if useStun then deStun raw else some raw).bind (decodePayload o)).toList := by
      rw [← tunnelReceive_eq_decodePayload]
      exact List.flatMap_singleton _ _
    split at h <;> cases h
    · next payload hunwrap =>
      refine ⟨rfl, rfl, ?_, ⟨rfl, rfl⟩⟩
      rw [hin, hunwrap]
      rfl
    · next hunwrap =>
      refine ⟨rfl, rfl, ?_, ⟨rfl, rfl⟩⟩
      rw [hin, hunwrap]
      rfl
  · next timedOut =>
    cases h
    cases timedOut || m.running <;> exact ⟨rfl, rfl, rfl, ⟨rfl, rfl⟩⟩
  · split at h <;> cases h
    exact ⟨rfl, rfl, List.append_nil _, ⟨rfl, rfl⟩⟩
  · next payload =>
    -- what does not decode was not on its way
    cases h
    have hnext : (decodePayload o payload).toList
        = ((decodePayload o payload).elim .top .decapsulating : UdpToTunPc).toDecapsulate o := by
      cases decodePayload o payload <;> rfl
    refine ⟨?_, ?_, (List.append_nil _).trans hnext, ⟨rfl, rfl⟩⟩ <;>
      cases decodePayload o payload <;> rfl
  · next plain res =>
    split at h <;> cases h
    -- the packet has reached the engine, and the answer takes its place
    obtain ⟨hsend, hwrite, hdecapsulate⟩ := UdpToTunPc.answered_flows (o := o) res
    have hplain : plain.isEmpty = false := hpc
    have hout : [TunnelEvent.decapsulate plain res].flatMap (inbound o useStun).output
        = [plain] := by
      simp [inbound, TunnelEvent.decapsulated, hplain]
    refine ⟨?_, ?_, ?_, ⟨rfl, rfl⟩⟩
    · rw [hsend]
      exact List.append_nil _
    · rw [hwrite]
      exact List.append_nil _
    · rw [hout, hdecapsulate]
      rfl
  · cases h; exact ⟨rfl, rfl, rfl, ⟨rfl, rfl⟩⟩
  · split at h
    · next hstep =>
      cases h
      obtain ⟨hout, ⟨hupIn, hupOut⟩, hdown, hinIn, hinOut⟩ := sendStep_flows hstep
      exact ⟨hout, by rw [hupIn, hupOut]; rfl, by rw [hinIn, hinOut]; rfl, hdown⟩
    · next hstep =>
      cases h
      obtain ⟨hout, ⟨hupIn, hupOut⟩, hdown, hinIn, hinOut⟩ := sendStep_flows hstep
      exact ⟨hout, by rw [hupIn, hupOut]; rfl, by rw [hinIn, hinOut]; rfl, hdown⟩
    · cases h
  · next res =>
    cases h
    -- a poll gives the engine nothing
    obtain ⟨hsend, hwrite, hdecapsulate⟩ := UdpToTunPc.answered_flows (o := o) res
    refine ⟨?_, ?_, ?_, ⟨rfl, rfl⟩⟩
    · rw [hsend]
      exact List.append_nil _
    · rw [hwrite]
      exact List.append_nil _
    · rw [hdecapsulate]
      rfl
  · cases h; exact ⟨rfl, rfl, rfl, ⟨rfl, rfl⟩⟩
  · cases h

/-! ## Runs -/

/-- Each flow lets through what it takes in. -/
structure Traffic (o : Obfuscator) (useStun : Bool) (w : TunnelState) : Prop where
  outbound : outbound.Conserved w.events w.toSend
  upbound : upbound.Balanced w.events w.udpToTun.toWrite
  downbound : downbound.Balanced w.events w.tunToUdp.toEncapsulate
  inbound : (inbound o useStun).Balanced w.events (w.udpToTun.toDecapsulate o)

/-- The law of one thread, for the flow that all of them share. -/
theorem coe_law {front back new old : List Bytes} (h : old ++ back = front ++ new) :
    (old : Multiset Bytes) + (back : Multiset Bytes)
      = (front : Multiset Bytes) + (new : Multiset Bytes) := by
  rw [Multiset.coe_add, Multiset.coe_add, h]

/-- The third of the threads, and the last, taken out of the sum. -/
theorem add_third (p q r s : Multiset Bytes) : p + (q + (r + s)) = r + (p + (q + s)) := by
  rw [add_left_comm q, add_left_comm p]

/-- The last of them. -/
theorem add_fourth (p q r s : Multiset Bytes) : p + (q + (r + s)) = s + (p + (q + r)) := by
  rw [← add_assoc q, add_comm (q + r), add_left_comm]

variable {w w' : TunnelState} {a : TunnelAction} {acts : List TunnelAction}

/-- **Each step keeps the four laws**: the thread obeys its own, and has no part in the others. -/
theorem Traffic.step (h : Traffic o useStun w) (hsound : w.udpToTun.Sound)
    (hstep : tunnelStep o useStun w a = some w') : Traffic o useStun w' := by
  cases tunnelStep_move hstep with
  | stop => exact ⟨h.outbound, h.upbound, h.downbound, h.inbound⟩
  | main hst =>
    obtain ⟨hsend, hup, hdown, hin⟩ := mainStep_flows hst
    exact ⟨h.outbound.extend_part rfl rfl (coe_law hsend), h.upbound.frame hup.1 hup.2,
      h.downbound.frame hdown.1 hdown.2, h.inbound.frame hin.1 hin.2⟩
  | tunToUdp _ hst =>
    obtain ⟨hsend, hdown, hup, hin⟩ := tunToUdpStep_flows hst
    exact ⟨h.outbound.extend_part (add_left_comm _ _ _) (add_left_comm _ _ _) (coe_law hsend),
      h.upbound.frame hup.1 hup.2, h.downbound.extend hdown, h.inbound.frame hin.1 hin.2⟩
  | udpToTun _ hst =>
    obtain ⟨hsend, hup, hin, hdown⟩ := udpToTunStep_flows hsound hst
    exact ⟨h.outbound.extend_part (add_third _ _ _ _) (add_third _ _ _ _) (coe_law hsend),
      h.upbound.extend hup, h.downbound.frame hdown.1 hdown.2, h.inbound.extend hin⟩
  | timers _ hst =>
    obtain ⟨hsend, hup, hdown, hin⟩ := timersStep_flows hst
    exact ⟨h.outbound.extend_part (add_fourth _ _ _ _) (add_fourth _ _ _ _) (coe_law hsend),
      h.upbound.frame hup.1 hup.2, h.downbound.frame hdown.1 hdown.2, h.inbound.frame hin.1 hin.2⟩

/-- No other thread touches what worker 2 knows. -/
theorem UdpToTunPc.Sound.step (hpc : w.udpToTun.Sound)
    (hstep : tunnelStep o useStun w a = some w') : w'.udpToTun.Sound := by
  cases tunnelStep_move hstep with
  | udpToTun _ hst => exact udpToTunStep_sound hst
  | _ => exact hpc

/-- **What the engine gives and gets.** In every run, whatever the engine answers: it is given the
packets of the adapter and the packets that the datagrams carry, all of them, once and in order;
the adapter is given the packets of the engine in order; and the packets the engine asks to send
are those handed to the socket and those that a thread is about to send, each as often as asked
for. -/
theorem tunnel_traffic (hrun : Run (tunnelStep o useStun) anyStep tunnelInit acts w) :
    Traffic o useStun w := by
  refine (hrun.invariant (P := fun w => w.udpToTun.Sound ∧ Traffic o useStun w) ?_ ?_).2
  · exact ⟨trivial, ItemFlow.Conserved.nil, ItemFlow.Balanced.nil, ItemFlow.Balanced.nil,
      ItemFlow.Balanced.nil⟩
  · rintro v b u ⟨hsound, hv⟩ - hstep
    exact ⟨hsound.step hstep, hv.step hsound hstep⟩

/-! A handshake, a packet of the adapter, and a datagram of the server. -/

/-- A packet goes out. -/
def sampleSend (send : SendAction → TunnelAction) : List TunnelAction :=
  [send .lock, send (.encode sampleRng sampleTxid), send (.send true)]

def sampleHandshake : List TunnelAction :=
  [.main (.initiate (.writeToNetwork [1, 0, 0, 0, 9]))] ++ sampleSend (fun a => .main (.send a)) ++
    [.main (.keepalive sampleTxid true), .main .spawn]

/-- The answer of the server is decoded. -/
def sampleReceive (packet : Bytes) : List TunnelAction :=
  [.udpToTun .check,
    .udpToTun (.recv (sendPath sampleObfuscator true sampleRng sampleTxid packet)),
    .udpToTun .lock, .udpToTun .decode]

/-- The answer of the server, which the engine answers in turn while worker 1 waits for it. -/
def sampleExchange : List TunnelAction :=
  sampleHandshake ++ sampleReceive [2, 0, 0, 0, 5] ++
    [.tunToUdp .check, .tunToUdp (.read [69, 0]),
      .udpToTun (.decapsulate (.writeToNetwork [4, 0, 0, 0]))] ++
    sampleSend (fun a => .udpToTun (.send a)) ++
    [.udpToTun (.poll .done), .udpToTun .unlock,
      .tunToUdp (.encapsulate (.writeToNetwork [4, 0, 0, 0, 69, 0]))]

/-- Two packets are sent, and one is with worker 1. -/
theorem tunnel_traffic_exchange : ∃ w,
    (w.events.flatMap TunnelEvent.network = [[1, 0, 0, 0, 9], [4, 0, 0, 0], [4, 0, 0, 0, 69, 0]]
      ∧ w.events.flatMap TunnelEvent.packetSent = [[1, 0, 0, 0, 9], [4, 0, 0, 0]]
      ∧ w.events.flatMap TunnelEvent.decapsulated = [[2, 0, 0, 0, 5]])
      ∧ Traffic sampleObfuscator true w := by
  have hexec : (exec (tunnelStep sampleObfuscator true) tunnelInit sampleExchange).any (fun w =>
      decide (w.events.flatMap TunnelEvent.network
          = [[1, 0, 0, 0, 9], [4, 0, 0, 0], [4, 0, 0, 0, 69, 0]]
        ∧ w.events.flatMap TunnelEvent.packetSent = [[1, 0, 0, 0, 9], [4, 0, 0, 0]]
        ∧ w.events.flatMap TunnelEvent.decapsulated = [[2, 0, 0, 0, 5]])) = true := by
    decide +kernel
  obtain ⟨w, hrun, hw⟩ := Run.of_exec_any hexec
  exact ⟨w, of_decide_eq_true hw, tunnel_traffic hrun⟩

end Phobos
