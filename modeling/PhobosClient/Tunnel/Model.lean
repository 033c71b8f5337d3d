import PhobosClient.Lib.Steps
import PhobosClient.Service.Session
import PhobosClient.Wire.Keepalive

/-!
# PhobosClient — the threads of a tunnel (`src/tunnel_service.rs`, `src/tunnel.rs`)

Once the device and the socket are there, `TunnelService::start` and `StandaloneTunnel::run` do
the same: the thread they run on sends a handshake initiation and spawns three workers, which
carry packets between the adapter, the WireGuard engine and the socket; it then watches the engine
until it is asked to stop, shuts the device down and joins the workers.

The threads share the engine and the obfuscator, each behind a lock of its own, and the flag that
ends them. A thread that takes a lock in one step and gives it back in a later one is recorded as
its holder in between, and the others wait. To send a packet of the engine a thread takes the
obfuscator for as long as it encodes (`SendPc`), mostly with the engine in its hands.

The engine is code from elsewhere. What it answers to a call is part of the action, so nothing is
assumed about it here. `events` is the history of everything that the threads have done to the
engine, the adapter and the socket, in the order in which it happened.

Not modelled: the byte counters, what the watching thread logs and publishes (with the engine in
its hands, under locks that nobody keeps), and errors of the two locks, which only a panic of
another thread would cause. A worker that cannot be spawned is part of `Cli.step`.
-/

namespace Phobos

/-- An answer of the engine, without the addresses, which no worker looks at. -/
inductive TunnResult where
  | done
  | err
  | writeToNetwork (packet : Bytes)
  | writeToTunnelV4 (packet : Bytes)
  | writeToTunnelV6 (packet : Bytes)

inductive TunnelEvent where
  | formatHandshakeInitiation (res : TunnResult)
  | encapsulate (packet : Bytes) (res : TunnResult)
  | decapsulate (datagram : Bytes) (res : TunnResult)
  | updateTimers (res : TunnResult)
  | stats
  | readAdapter (packet : Bytes)
  /-- `allocated`: the ring had room for the packet -/
  | writeAdapter (packet : Bytes) (allocated : Bool)
  | received (raw : Bytes)
  /-- `taken`: the socket took the datagram -/
  | sentPacket (packet wire : Bytes) (taken : Bool)
  | sentRequest (wire : Bytes) (taken : Bool)

inductive TunnelThread where
  | main
  | worker (kind : WorkerKind)
  deriving DecidableEq

/-- What the threads share. A lock names the thread that holds it. -/
structure TunnelShared where
  running : Bool
  /-- the session of the adapter has not been shut down -/
  sessionOpen : Bool
  engine : Option TunnelThread
  obfuscator : Option TunnelThread

/-! ## Where the threads stand -/

/-- On the way to send a packet of the engine. -/
inductive SendPc where
  /-- about to lock the obfuscator -/
  | waiting (packet : Bytes)
  /-- with the obfuscator -/
  | encoding (packet : Bytes)
  /-- the payload has been made, with these draws -/
  | encoded (packet : Bytes) (rng : Rng) (txid : Txid)

inductive MainPc where
  | handshake
  /-- with the engine, as long as it sends -/
  | sending (s : SendPc)
  | keepalive
  | spawn
  /-- about to test the flag -/
  | monitor
  /-- about to lock the engine -/
  | observing
  /-- with the engine -/
  | watching
  | shutdown
  /-- waits for a worker to end -/
  | join (kind : WorkerKind)
  | ended

inductive TunToUdpPc where
  | top
  | receiving
  | encapsulating (packet : Bytes)
  | sending (s : SendPc)
  | ended

inductive UdpToTunPc where
  | top
  | receiving
  /-- about to lock the obfuscator -/
  | unwrapped (payload : Bytes)
  /-- with the obfuscator -/
  | decoding (payload : Bytes)
  | decapsulating (plain : Bytes)
  /-- with the engine, from here on to `unlocking` -/
  | writing (packet : Bytes)
  | sending (s : SendPc)
  /-- about to ask for more -/
  | polling
  | unlocking
  | ended

inductive TimersPc where
  | top
  | updating
  /-- with the engine, as long as it sends -/
  | sending (s : SendPc)
  | keepalive
  | ended

structure TunnelState where
  shared : TunnelShared
  main : MainPc
  tunToUdp : TunToUdpPc
  udpToTun : UdpToTunPc
  timers : TimersPc
  events : List TunnelEvent

def tunnelInit : TunnelState :=
  ⟨⟨true, true, none, none⟩, .handshake, .top, .top, .top, []⟩

/-- The workers are there. -/
def MainPc.hasSpawned : MainPc → Bool
  | handshake | sending _ | keepalive | spawn => false
  | _ => true

/-- The worker has ended, so joining it does not wait. -/
def TunnelState.hasEnded (w : TunnelState) : WorkerKind → Bool
  | .tunToUdp => match w.tunToUdp with | .ended => true | _ => false
  | .udpToTun => match w.udpToTun with | .ended => true | _ => false
  | .timers => match w.timers with | .ended => true | _ => false

/-- What main does after it has joined a worker. -/
def MainPc.afterJoin : WorkerKind → MainPc
  | .tunToUdp => join .udpToTun
  | .udpToTun => join .timers
  | .timers => ended

/-- What worker 2 does about an answer. -/
def UdpToTunPc.answered : TunnResult → UdpToTunPc
  | .writeToNetwork packet => sending (.waiting packet)
  | .writeToTunnelV4 packet | .writeToTunnelV6 packet => writing packet
  | .done | .err => unlocking

/-! ## The steps -/

inductive SendAction where
  | lock
  | encode (rng : Rng) (txid : Txid)
  | send (taken : Bool)

inductive MainAction where
  | initiate (res : TunnResult)
  | send (a : SendAction)
  | keepalive (txid : Txid) (taken : Bool)
  | spawn
  | check
  | stats
  | unlock
  | shutdown
  | joined

inductive TunToUdpAction where
  | check
  | read (packet : Bytes)
  /-- the session has been shut down -/
  | closed
  /-- the driver reports an error -/
  | readError
  | encapsulate (res : TunnResult)
  | send (a : SendAction)

inductive UdpToTunAction where
  | check
  | recv (raw : Bytes)
  | recvError (timedOut : Bool)
  | lock
  | decode
  | decapsulate (res : TunnResult)
  | write (allocated : Bool)
  | send (a : SendAction)
  | poll (res : TunnResult)
  | unlock

inductive TimersAction where
  | check
  | update (res : TunnResult)
  | send (a : SendAction)
  | keepalive (due : Bool) (txid : Txid) (taken : Bool)

inductive TunnelAction where
  | stop
  | main (a : MainAction)
  | tunToUdp (a : TunToUdpAction)
  | udpToTun (a : UdpToTunAction)
  | timers (a : TimersAction)

variable (o : Obfuscator) (useStun : Bool)

/-- A keepalive goes out, if STUN is used. -/
def sendRequest (txid : Txid) (taken : Bool) : List TunnelEvent :=
  if useStun then [.sentRequest (stunBuildBindingRequest txid) taken] else []

/-- What a payload decodes to, unless it is skipped. -/
def decodePayload (payload : Bytes) : Option Bytes :=
  let (ok, plainBuf) := o.decode payload
  if !ok || plainBuf.isEmpty then none else some plainBuf

/-- The thread `t` sends a packet. Once it is sent nothing is left to do, which is `none`. -/
def sendStep (t : TunnelThread) (m : TunnelShared) :
    SendPc → SendAction → Option (TunnelShared × Option SendPc × List TunnelEvent)
  | .waiting packet, .lock =>
    if m.obfuscator.isSome then none
    else some ({ m with obfuscator := some t }, some (.encoding packet), [])
  | .encoding packet, .encode rng txid =>
    some ({ m with obfuscator := none }, some (.encoded packet rng txid), [])
  | .encoded packet rng txid, .send taken =>
    some (m, none, [.sentPacket packet (sendPath o useStun rng txid packet) taken])
  | _, _ => none

/-- The main thread. It watches the engine until the flag is off. -/
def mainStep (hasEnded : WorkerKind → Bool) (m : TunnelShared) :
    MainPc → MainAction → Option (TunnelShared × MainPc × List TunnelEvent)
  | .handshake, .initiate res =>
    if m.engine.isSome then none
    else
      match res with
      | .writeToNetwork hsPacket =>
        some ({ m with engine := some .main }, .sending (.waiting hsPacket),
          [.formatHandshakeInitiation res])
      | _ => some (m, .keepalive, [.formatHandshakeInitiation res])
  | .sending s, .send a =>
    match sendStep o useStun .main m s a with
    | some (m, some s, es) => some (m, .sending s, es)
    | some (m, none, es) => some ({ m with engine := none }, .keepalive, es)
    | none => none
  | .keepalive, .keepalive txid taken => some (m, .spawn, sendRequest useStun txid taken)
  | .spawn, .spawn => some (m, .monitor, [])
  | .monitor, .check => some (m, if m.running then .observing else .shutdown, [])
  | .observing, .stats =>
    if m.engine.isSome then none else some ({ m with engine := some .main }, .watching, [.stats])
  | .watching, .unlock => some ({ m with engine := none }, .monitor, [])
  | .shutdown, .shutdown => some ({ m with sessionOpen := false }, .join .tunToUdp, [])
  | .join kind, .joined => if hasEnded kind then some (m, .afterJoin kind, []) else none
  | _, _ => none

/-- Worker 1. It holds the engine for the call alone. -/
def tunToUdpStep (m : TunnelShared) :
    TunToUdpPc → TunToUdpAction → Option (TunnelShared × TunToUdpPc × List TunnelEvent)
  | .top, .check => some (m, if m.running then .receiving else .ended, [])
  | .receiving, .read packet => some (m, .encapsulating packet, [.readAdapter packet])
  | .receiving, .closed => if m.sessionOpen then none else some (m, .ended, [])
  | .receiving, .readError => some (m, .ended, [])
  | .encapsulating packet, .encapsulate res =>
    if m.engine.isSome then none
    else
      match res with
      | .writeToNetwork wgPkt => some (m, .sending (.waiting wgPkt), [.encapsulate packet res])
      | _ => some (m, .top, [.encapsulate packet res])
  | .sending s, .send a =>
    match sendStep o useStun (.worker .tunToUdp) m s a with
    | some (m, some s, es) => some (m, .sending s, es)
    | some (m, none, es) => some (m, .top, es)
    | none => none
  | _, _ => none

/-- Worker 2. It keeps the engine until there is nothing more to hand out. -/
def udpToTunStep (m : TunnelShared) :
    UdpToTunPc → UdpToTunAction → Option (TunnelShared × UdpToTunPc × List TunnelEvent)
  | .top, .check => some (m, if m.running then .receiving else .ended, [])
  | .receiving, .recv raw =>
    match if useStun then deStun raw else some raw with
    | some payload => some (m, .unwrapped payload, [.received raw])
    | none => some (m, .top, [.received raw])
  | .receiving, .recvError timedOut =>
    some (m, if timedOut || m.running then .top else .ended, [])
  | .unwrapped payload, .lock =>
    if m.obfuscator.isSome then none
    else some ({ m with obfuscator := some (.worker .udpToTun) }, .decoding payload, [])
  | .decoding payload, .decode =>
    some ({ m with obfuscator := none }, (decodePayload o payload).elim .top .decapsulating, [])
  | .decapsulating plain, .decapsulate res =>
    if m.engine.isSome then none
    else some ({ m with engine := some (.worker .udpToTun) }, .answered res,
      [.decapsulate plain res])
  | .writing packet, .write allocated => some (m, .polling, [.writeAdapter packet allocated])
  | .sending s, .send a =>
    match sendStep o useStun (.worker .udpToTun) m s a with
    | some (m, some s, es) => some (m, .sending s, es)
    | some (m, none, es) => some (m, .polling, es)
    | none => none
  | .polling, .poll res => some (m, .answered res, [.decapsulate [] res])
  | .unlocking, .unlock => some ({ m with engine := none }, .top, [])
  | _, _ => none

/-- Worker 3. It keeps the engine until a packet of the engine has been sent. -/
def timersStep (m : TunnelShared) :
    TimersPc → TimersAction → Option (TunnelShared × TimersPc × List TunnelEvent)
  | .top, .check => some (m, if m.running then .updating else .ended, [])
  | .updating, .update res =>
    if m.engine.isSome then none
    else
      match res with
      | .writeToNetwork wgPkt =>
        some ({ m with engine := some (.worker .timers) }, .sending (.waiting wgPkt),
          [.updateTimers res])
      | _ => some (m, .keepalive, [.updateTimers res])
  | .sending s, .send a =>
    match sendStep o useStun (.worker .timers) m s a with
    | some (m, some s, es) => some (m, .sending s, es)
    | some (m, none, es) => some ({ m with engine := none }, .keepalive, es)
    | none => none
  | .keepalive, .keepalive due txid taken =>
    some (m, .top, if due then sendRequest useStun txid taken else [])
  | _, _ => none

def tunnelStep (w : TunnelState) : TunnelAction → Option TunnelState
  | .stop => some { w with shared := { w.shared with running := false } }
  | .main a =>
    (mainStep o useStun w.hasEnded w.shared w.main a).map fun (shared, main, es) =>
      { w with shared, main, events := w.events ++ es }
  | .tunToUdp a =>
    if w.main.hasSpawned then
      (tunToUdpStep o useStun w.shared w.tunToUdp a).map fun (shared, tunToUdp, es) =>
        { w with shared, tunToUdp, events := w.events ++ es }
    else none
  | .udpToTun a =>
    if w.main.hasSpawned then
      (udpToTunStep o useStun w.shared w.udpToTun a).map fun (shared, udpToTun, es) =>
        { w with shared, udpToTun, events := w.events ++ es }
    else none
  | .timers a =>
    if w.main.hasSpawned then
      (timersStep o useStun w.shared w.timers a).map fun (shared, timers, es) =>
        { w with shared, timers, events := w.events ++ es }
    else none

/-! ## What a step can do -/

variable {o useStun}

/-- The step of one of the four threads: it moves that thread, and adds what the thread has done at
the end of the history. The workers wait to be spawned. -/
inductive TunnelMove (o : Obfuscator) (useStun : Bool) (w : TunnelState) :
    TunnelAction → TunnelState → Prop where
  | stop : TunnelMove o useStun w .stop { w with shared := { w.shared with running := false } }
  | main {a : MainAction} {shared : TunnelShared} {main : MainPc} {es : List TunnelEvent}
      (h : mainStep o useStun w.hasEnded w.shared w.main a = some (shared, main, es)) :
      TunnelMove o useStun w (.main a) { w with shared, main, events := w.events ++ es }
  | tunToUdp {a : TunToUdpAction} {shared : TunnelShared} {tunToUdp : TunToUdpPc}
      {es : List TunnelEvent} (hspawned : w.main.hasSpawned = true)
      (h : tunToUdpStep o useStun w.shared w.tunToUdp a = some (shared, tunToUdp, es)) :
      TunnelMove o useStun w (.tunToUdp a) { w with shared, tunToUdp, events := w.events ++ es }
  | udpToTun {a : UdpToTunAction} {shared : TunnelShared} {udpToTun : UdpToTunPc}
      {es : List TunnelEvent} (hspawned : w.main.hasSpawned = true)
      (h : udpToTunStep o useStun w.shared w.udpToTun a = some (shared, udpToTun, es)) :
      TunnelMove o useStun w (.udpToTun a) { w with shared, udpToTun, events := w.events ++ es }
  | timers {a : TimersAction} {shared : TunnelShared} {timers : TimersPc}
      {es : List TunnelEvent} (hspawned : w.main.hasSpawned = true)
      (h : timersStep o useStun w.shared w.timers a = some (shared, timers, es)) :
      TunnelMove o useStun w (.timers a) { w with shared, timers, events := w.events ++ es }

/-- **Every step is `stop`, or one of the four threads.** -/
theorem tunnelStep_move {w w' : TunnelState} {a : TunnelAction}
    (h : tunnelStep o useStun w a = some w') : TunnelMove o useStun w a w' := by
  cases a with
  | stop => cases h; exact .stop
  | main b =>
    obtain ⟨⟨shared, pc, es⟩, hstep, rfl⟩ := Option.map_eq_some_iff.mp h
    exact .main hstep
  | tunToUdp b =>
    simp only [tunnelStep] at h
    split at h
    · next hspawned =>
      obtain ⟨⟨shared, pc, es⟩, hstep, rfl⟩ := Option.map_eq_some_iff.mp h
      exact .tunToUdp hspawned hstep
    · cases h
  | udpToTun b =>
    simp only [tunnelStep] at h
    split at h
    · next hspawned =>
      obtain ⟨⟨shared, pc, es⟩, hstep, rfl⟩ := Option.map_eq_some_iff.mp h
      exact .udpToTun hspawned hstep
    · cases h
  | timers b =>
    simp only [tunnelStep] at h
    split at h
    · next hspawned =>
      obtain ⟨⟨shared, pc, es⟩, hstep, rfl⟩ := Option.map_eq_some_iff.mp h
      exact .timers hspawned hstep
    · cases h

end Phobos
