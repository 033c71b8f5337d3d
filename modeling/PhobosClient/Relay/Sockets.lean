import PhobosClient.Lib.Refine
import PhobosClient.Relay.Model
import PhobosClient.Wire.Keepalive

/-!
# PhobosClient — the relay down to its sockets (`src/relay.rs`)

All three threads of `PhobosRelay::start`: the client loop with every single `send`, the server
loop, and the timer that sends a Binding Request every ten seconds under STUN masking. A send may
fail, on either socket; `taken` says whether the system took the datagram. The counters of
`RelayStats` are kept, and the receive buffers of both loops have 65535 bytes.

`relayStep` leaves the timer, the counters and failing sends out, and takes the two sends for a
handshake as one. It loses nothing by that: **`relaySockets_refine`** maps every run of this
machine to one of `relayStep`.
-/

namespace Phobos

open Steps

/-- What is handed to the upstream socket: the timer's requests, the client loop's requests and
its packets, each packet with the datagram it was made from. -/
inductive Sent (Addr : Type*) where
  | ping (wire : Bytes) (taken : Bool)
  | request (wire : Bytes) (taken : Bool)
  | packet (origin : Datagram Addr) (wire : Bytes) (taken : Bool)

/-- What is handed to the loopback socket for a client. -/
structure Handed (Addr : Type*) where
  payload : Bytes
  client : Addr
  taken : Bool
  deriving DecidableEq

/-- `ClientPc`, with a place of its own for the request before a handshake. -/
inductive SocketClientPc (Addr : Type*) where
  | top
  | receiving
  | binding (d : Datagram Addr)
  | requesting (d : Datagram Addr)
  | forwarding (d : Datagram Addr)
  | ended

/-- The timer: about to test `running`, asleep, before the send, or finished. -/
inductive TimerPc where
  | top
  | sleeping
  | sending
  | ended

structure RelayStats where
  bytesUp : UInt64
  pktsUp : UInt64
  bytesDown : UInt64
  pktsDown : UInt64

structure RelaySockets (Addr : Type*) where
  running : Bool
  clientAddr : Option Addr
  client : SocketClientPc Addr
  server : ServerPc Addr
  timer : TimerPc
  stats : RelayStats
  sent : List (Sent Addr)
  handed : List (Handed Addr)

inductive SocketAction (Addr : Type*) where
  | clientCheck
  | clientRecv (d : Datagram Addr)
  | clientRecvError
  | clientBind
  | clientRequest (txid : Txid) (taken : Bool)
  | clientForward (rng : Rng) (txid : Txid) (taken : Bool)
  | serverCheck
  | serverRecv (raw : Bytes)
  | serverRecvError
  | serverLook
  | serverSend (taken : Bool)
  | timerCheck
  | timerWake
  | timerSend (txid : Txid) (taken : Bool)
  | stop

/-- `vec![0u8; 65535]`. -/
def recvBufferSize : Nat := 65535

variable {Addr : Type*}

/-- `start` up to its return: the timer is spawned under STUN masking only. -/
def socketsInit (isStun : Bool) : RelaySockets Addr :=
  ⟨true, none, .top, .top, if isStun then .top else .ended, ⟨0, 0, 0, 0⟩, [], []⟩

/-- Count a packet that has been sent. -/
def RelayStats.up (stats : RelayStats) (wire : Bytes) : RelayStats :=
  { stats with
    bytesUp := stats.bytesUp + UInt64.ofNat wire.length
    pktsUp := stats.pktsUp + 1 }

/-- Count a datagram that has been received. -/
def RelayStats.down (stats : RelayStats) (raw : Bytes) : RelayStats :=
  { stats with
    bytesDown := stats.bytesDown + UInt64.ofNat raw.length
    pktsDown := stats.pktsDown + 1 }

variable [DecidableEq Addr]

/-- One step of one of the three threads, or a call to `stop`. -/
def socketsStep (o : Obfuscator) (isStun : Bool) (w : RelaySockets Addr) :
    SocketAction Addr → Option (RelaySockets Addr)
  | .clientCheck =>
    match w.client with
    | .top => some { w with client := if w.running then .receiving else .ended }
    | _ => none
  | .clientRecv d =>
    match w.client with
    | .receiving =>
      if d.bytes.length ≤ recvBufferSize then
        some { w with client := if isValid d then .binding d else .top }
      else none
    | _ => none
  | .clientRecvError =>
    match w.client with
    | .receiving => some { w with client := .top }
    | _ => none
  | .clientBind =>
    match w.client with
    | .binding d =>
      let (clientAddr, accepted) := rebind w.clientAddr d
      let next := if isStun && isHandshake d then .requesting d else .forwarding d
      some { w with
        clientAddr := clientAddr
        client := if accepted then next else .top }
    | _ => none
  | .clientRequest txid taken =>
    match w.client with
    | .requesting d =>
      some { w with
        client := .forwarding d
        sent := w.sent ++ [.request (stunBuildBindingRequest txid) taken] }
    | _ => none
  | .clientForward rng txid taken =>
    match w.client with
    | .forwarding d =>
      let finalPacket := sendPath o isStun rng txid d.bytes
      some { w with
        client := .top
        stats := if taken then w.stats.up finalPacket else w.stats
        sent := w.sent ++ [.packet d finalPacket taken] }
    | _ => none
  | .serverCheck =>
    match w.server with
    | .top => some { w with server := if w.running then .receiving else .ended }
    | _ => none
  | .serverRecv raw =>
    match w.server with
    | .receiving =>
      if recvBufferSize < raw.length then none
      else if raw.isEmpty then some { w with server := .top }
      else
        match serverReceive o isStun raw with
        | some payload => some { w with server := .looking payload, stats := w.stats.down raw }
        | none => some { w with server := .top, stats := w.stats.down raw }
    | _ => none
  | .serverRecvError =>
    match w.server with
    | .receiving => some { w with server := .top }
    | _ => none
  | .serverLook =>
    match w.server with
    | .looking payload =>
      match w.clientAddr with
      | some client => some { w with server := .sending payload client }
      | none => some { w with server := .top }
    | _ => none
  | .serverSend taken =>
    match w.server with
    | .sending payload client =>
      some { w with server := .top, handed := w.handed ++ [⟨payload, client, taken⟩] }
    | _ => none
  | .timerCheck =>
    match w.timer with
    | .top => some { w with timer := if w.running then .sleeping else .ended }
    | _ => none
  | .timerWake =>
    match w.timer with
    | .sleeping => some { w with timer := if w.running then .sending else .ended }
    | _ => none
  | .timerSend txid taken =>
    match w.timer with
    | .sending =>
      some { w with
        timer := .top
        sent := w.sent ++ [.ping (stunBuildBindingRequest txid) taken] }
    | _ => none
  | .stop => some { w with running := false }

/-! ## Seen as `relayStep` -/

/-- What the coarse machine records for a send: it takes the request together with its packet. -/
def Sent.upstream (isStun : Bool) : Sent Addr → List (Upstream Addr)
  | .packet d wire _ =>
    (if isStun && isHandshake d then [.bindingRequest] else []) ++ [.packet d wire]
  | _ => []

def SocketClientPc.coarse : SocketClientPc Addr → ClientPc Addr
  | .top => .top
  | .receiving => .receiving
  | .binding d => .binding d
  | .requesting d | .forwarding d => .forwarding d
  | .ended => .ended

def RelaySockets.coarse (isStun : Bool) (w : RelaySockets Addr) : RelayState Addr :=
  ⟨w.running, w.clientAddr, w.client.coarse, w.server, w.sent.flatMap (Sent.upstream isStun),
    w.handed.map fun h => (h.payload, h.client)⟩

def SocketAction.coarse : SocketAction Addr → Option (RelayAction Addr)
  | .clientCheck => some .clientCheck
  | .clientRecv d => some (.clientRecv d)
  | .clientRecvError => some .clientRecvError
  | .clientBind => some .clientBind
  | .clientForward rng txid _ => some (.clientForward rng txid)
  | .serverCheck => some .serverCheck
  | .serverRecv raw => some (.serverRecv raw)
  | .serverRecvError => some .serverRecvError
  | .serverLook => some .serverLook
  | .serverSend _ => some .serverSend
  | .clientRequest _ _ | .timerCheck | .timerWake | .timerSend _ _ => none
  | .stop => some .stop

variable {o : Obfuscator} {isStun : Bool}

omit [DecidableEq Addr] in
/-- The last send comes last. -/
theorem flatMap_upstream_concat (sent : List (Sent Addr)) (e : Sent Addr) :
    (sent ++ [e]).flatMap (Sent.upstream isStun)
      = sent.flatMap (Sent.upstream isStun) ++ e.upstream isStun := by
  rw [List.flatMap_append, List.flatMap_singleton]

/-- An empty datagram carries nothing. -/
theorem serverReceive_empty : serverReceive o isStun [] = none := rfl

/-- **The sockets refine the relay**: each step is one of the coarse machine, or none of them. -/
theorem socketsStep_simulates : Simulates (A := SocketAction Addr) (socketsStep o isStun)
    (relayStep o isStun) (RelaySockets.coarse isStun) SocketAction.coarse := by
  intro w a w' hstep
  cases a with
  | clientCheck =>
    simp only [socketsStep] at hstep
    split at hstep <;> cases hstep
    next hpc =>
    simp only [SocketAction.coarse, relayStep, RelaySockets.coarse, hpc, SocketClientPc.coarse]
    cases w.running <;> rfl
  | clientRecv d =>
    simp only [socketsStep] at hstep
    split at hstep
    · next hpc =>
      split at hstep <;> cases hstep
      simp only [SocketAction.coarse, relayStep, RelaySockets.coarse, hpc, SocketClientPc.coarse]
      -- the receive buffer is a guard that the coarse machine does not have
      cases isValid d <;> rfl
    · cases hstep
  | clientRecvError =>
    simp only [socketsStep] at hstep
    split at hstep <;> cases hstep
    next hpc =>
    simp only [SocketAction.coarse, relayStep, RelaySockets.coarse, hpc, SocketClientPc.coarse]
  | clientBind =>
    simp only [socketsStep] at hstep
    split at hstep <;> cases hstep
    next d hpc =>
    simp only [SocketAction.coarse, relayStep, RelaySockets.coarse, hpc, SocketClientPc.coarse]
    cases (rebind w.clientAddr d).2 with
    | false => rfl
    | true => cases isStun && isHandshake d <;> rfl
  | clientRequest txid taken =>
    simp only [socketsStep] at hstep
    split at hstep <;> cases hstep
    next d hpc =>
    -- a Binding Request of its own is nothing to the coarse machine, which sends it with the packet
    simp only [SocketAction.coarse, RelaySockets.coarse, hpc, SocketClientPc.coarse,
      flatMap_upstream_concat, Sent.upstream, List.append_nil]
  | clientForward rng txid taken =>
    simp only [socketsStep] at hstep
    split at hstep <;> cases hstep
    next d hpc =>
    simp only [SocketAction.coarse, relayStep, RelaySockets.coarse, hpc, SocketClientPc.coarse,
      flatMap_upstream_concat, Sent.upstream, List.append_assoc]
  | serverRecv raw =>
    simp only [socketsStep] at hstep
    split at hstep
    · next hpc =>
      split at hstep
      · cases hstep
      · split at hstep
        · next hempty =>
          cases hstep
          -- the loop does not look at an empty datagram, and the coarse machine drops it
          rw [List.isEmpty_iff.mp hempty]
          simp only [SocketAction.coarse, relayStep, RelaySockets.coarse, hpc, serverReceive_empty]
        · split at hstep
          · next payload hreceive =>
            cases hstep
            simp only [SocketAction.coarse, relayStep, RelaySockets.coarse, hpc, hreceive]
          · next hreceive =>
            cases hstep
            simp only [SocketAction.coarse, relayStep, RelaySockets.coarse, hpc, hreceive]
    · cases hstep
  | serverLook =>
    simp only [socketsStep] at hstep
    split at hstep
    · next payload hpc =>
      split at hstep
      · next client hclient =>
        cases hstep
        simp only [SocketAction.coarse, relayStep, RelaySockets.coarse, hpc, hclient]
      · next hclient =>
        cases hstep
        simp only [SocketAction.coarse, relayStep, RelaySockets.coarse, hpc, hclient]
    · cases hstep
  | serverCheck | serverRecvError =>
    simp only [socketsStep] at hstep
    split at hstep <;> cases hstep
    next hpc => simp only [SocketAction.coarse, relayStep, RelaySockets.coarse, hpc]
  | serverSend taken =>
    simp only [socketsStep] at hstep
    split at hstep <;> cases hstep
    next hpc =>
    -- the coarse machine does not know whether the datagram was taken
    simp only [SocketAction.coarse, relayStep, RelaySockets.coarse, hpc, List.map_append,
      List.map_cons, List.map_nil]
  | timerCheck | timerWake =>
    simp only [socketsStep] at hstep
    split at hstep <;> cases hstep
    rfl
  | timerSend txid taken =>
    simp only [socketsStep] at hstep
    split at hstep <;> cases hstep
    simp only [SocketAction.coarse, RelaySockets.coarse, flatMap_upstream_concat, Sent.upstream,
      List.append_nil]
  | stop =>
    cases hstep
    rfl

/-- **The coarse machine covers the detailed one.** -/
theorem relaySockets_refine {acts : List (SocketAction Addr)} {w : RelaySockets Addr}
    (hrun : Run (socketsStep o isStun) anyStep (socketsInit isStun) acts w) :
    Run (relayStep o isStun) anyStep relayInit (acts.filterMap SocketAction.coarse)
      (w.coarse isStun) :=
  hrun.simulate socketsStep_simulates

/-- A handshake of client 1, on its way when the timer sends its request. -/
def relayHandshake : List (SocketAction Nat) :=
  [.clientCheck, .clientRecv ⟨1, [1, 0, 0, 0, 9]⟩, .clientBind, .timerCheck, .timerWake,
    .clientRequest sampleTxid true, .timerSend sampleTxid true,
    .clientForward sampleRng sampleTxid true]

/-- The answer of the server. -/
def relayAnswer : List (SocketAction Nat) :=
  [.serverCheck, .serverRecv (sendPath sampleObfuscator true sampleRng sampleTxid [2, 0, 0, 0, 5]),
    .serverLook, .serverSend true]

/-- A handshake of the first client, and the answer to it. -/
theorem relaySockets_refine_handshake : ∃ w : RelaySockets Nat, w.clientAddr = some 1
    ∧ Run (relayStep sampleObfuscator true) anyStep relayInit
      (relayHandshake.filterMap SocketAction.coarse) (w.coarse true) := by
  have hexec : (exec (socketsStep sampleObfuscator true) (socketsInit true) relayHandshake).any
      (fun w => decide (w.clientAddr = some 1)) = true := by decide +kernel
  obtain ⟨w, hrun, hw⟩ := Run.of_exec_any hexec
  exact ⟨w, of_decide_eq_true hw, relaySockets_refine hrun⟩

end Phobos
