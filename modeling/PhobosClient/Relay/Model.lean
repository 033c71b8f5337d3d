import PhobosClient.Lib.Steps
import PhobosClient.Wire.Paths

/-!
# PhobosClient — the loopback relay (`src/relay.rs`)

`PhobosRelay::start` spawns two loops over shared state. The client loop reads datagrams
from the loopback socket, keeps the address of the *bound* WireGuard client and sends the
packets of that client upstream. The server loop reads from the server and sends what it
decodes to the bound client, whose address it reads under the lock.

`relayStep` is the pair of loops, one action for every access to something shared: the
`running` flag, the binding (one critical section is one step) and the sockets. The third
thread, which only sends keepalives, touches none of the state and is left out. The results of
the sends are left out as well: `upstream` and `delivered` are what is handed to the sockets.
-/

namespace Phobos

open Obfuscator

/-- A datagram on the loopback socket, with its sender. -/
structure Datagram (Addr : Type*) where
  src : Addr
  bytes : Bytes

/-- What the client loop sends to the server. A packet is kept with the datagram it was
made from. -/
inductive Upstream (Addr : Type*) where
  | bindingRequest
  | packet (origin : Datagram Addr) (wire : Bytes)

/-- Where the client loop stands: about to test `running`, in `recv_from`, before the
critical section that binds, before the send, or finished. -/
inductive ClientPc (Addr : Type*) where
  | top
  | receiving
  | binding (d : Datagram Addr)
  | forwarding (d : Datagram Addr)
  | ended

/-- Where the server loop stands: about to test `running`, in `recv`, before it reads the
binding, before `send_to`, or finished. -/
inductive ServerPc (Addr : Type*) where
  | top
  | receiving
  | looking (payload : Bytes)
  | sending (payload : Bytes) (client : Addr)
  | ended

structure RelayState (Addr : Type*) where
  running : Bool
  clientAddr : Option Addr
  client : ClientPc Addr
  server : ServerPc Addr
  upstream : List (Upstream Addr)
  delivered : List (Bytes × Addr)

inductive RelayAction (Addr : Type*) where
  | clientCheck
  | clientRecv (d : Datagram Addr)
  | clientRecvError
  | clientBind
  | clientForward (rng : Rng) (txid : Txid)
  | serverCheck
  | serverRecv (raw : Bytes)
  | serverRecvError
  | serverLook
  | serverSend
  | stop

variable {Addr : Type*}

/-- The datagrams the client loop does not drop at once. -/
def isValid (d : Datagram Addr) : Bool :=
  match packetType d.bytes with
  | some t => isKnownPacketType t
  | none => false

def isHandshake (d : Datagram Addr) : Bool :=
  packetType d.bytes == some typeHandshake

def relayInit : RelayState Addr :=
  ⟨true, none, .top, .top, [], []⟩

variable [DecidableEq Addr]

/-- The critical section of the client loop: the binding afterwards, and whether the
datagram is let through. -/
def rebind (clientAddr : Option Addr) (d : Datagram Addr) : Option Addr × Bool :=
  match clientAddr with
  | none => (some d.src, true)
  | some current =>
    if current ≠ d.src then
      if isHandshake d then (some d.src, true)
      else (some current, false)
    else (some current, true)

/-- One step of either loop, or a call to `stop`. -/
def relayStep (o : Obfuscator) (isStun : Bool) (w : RelayState Addr) :
    RelayAction Addr → Option (RelayState Addr)
  | .clientCheck =>
    match w.client with
    | .top => some { w with client := if w.running then .receiving else .ended }
    | _ => none
  | .clientRecv d =>
    match w.client with
    | .receiving => some { w with client := if isValid d then .binding d else .top }
    | _ => none
  | .clientRecvError =>
    match w.client with
    | .receiving => some { w with client := .top }
    | _ => none
  | .clientBind =>
    match w.client with
    | .binding d =>
      let (clientAddr, accepted) := rebind w.clientAddr d
      some { w with
        clientAddr := clientAddr
        client := if accepted then .forwarding d else .top }
    | _ => none
  | .clientForward rng txid =>
    match w.client with
    | .forwarding d =>
      let request := if isStun && isHandshake d then [.bindingRequest] else []
      some { w with
        client := .top
        upstream := w.upstream ++ request ++ [.packet d (sendPath o isStun rng txid d.bytes)] }
    | _ => none
  | .serverCheck =>
    match w.server with
    | .top => some { w with server := if w.running then .receiving else .ended }
    | _ => none
  | .serverRecv raw =>
    match w.server with
    | .receiving =>
      match serverReceive o isStun raw with
      | some payload => some { w with server := .looking payload }
      | none => some { w with server := .top }
    | _ => none
  | .serverRecvError =>
    match w.server with
    | .receiving => some { w with server := .top }
    | _ => none
  | .serverLook =>
    match w.server with
    | .looking payload =>
      match w.clientAddr with
      | some client => some { w with server := .sending payload client }
      | none => some { w with server := .top }
    | _ => none
  | .serverSend =>
    match w.server with
    | .sending payload client =>
      some { w with server := .top, delivered := w.delivered ++ [(payload, client)] }
    | _ => none
  | .stop => some { w with running := false }

end Phobos
