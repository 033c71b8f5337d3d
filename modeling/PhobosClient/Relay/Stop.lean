import PhobosClient.Lib.Progress
import PhobosClient.Relay.Wire

/-!
# PhobosClient — the relay is asked to stop

`PhobosRelay::stop` clears a flag that the three loops test at their top. None of them sleeps for
good: both receives have a timeout, and the timer tests the flag again when it wakes. `loopsLeft`
counts what the loops still do without the flag, and **`relay_stops`** follows: each finishes the
turn it is in, and can do so without any datagram. Of the clients' packets at most one more goes
to the server, of the server's at most one more is handed to a client.
-/

namespace Phobos

open Steps

variable {Addr : Type*}

def SocketClientPc.left : SocketClientPc Addr → Nat
  | .receiving => 5
  | .binding _ => 4
  | .requesting _ => 3
  | .forwarding _ => 2
  | .top => 1
  | .ended => 0

def ServerPc.left : ServerPc Addr → Nat
  | .receiving => 4
  | .looking _ => 3
  | .sending _ _ => 2
  | .top => 1
  | .ended => 0

def TimerPc.left : TimerPc → Nat
  | .sleeping => 3
  | .sending => 2
  | .top => 1
  | .ended => 0

/-- The loop is in a turn that may still forward a packet. -/
def SocketClientPc.mayForward (pc : SocketClientPc Addr) : Nat := if 2 ≤ pc.left then 1 else 0

/-- The loop is in a turn that may still deliver one. -/
def ServerPc.mayDeliver (pc : ServerPc Addr) : Nat := if 2 ≤ pc.left then 1 else 0

namespace RelaySockets

/-- What the loops still have to do. -/
def loopsLeft (w : RelaySockets Addr) : Nat := w.client.left + w.server.left + w.timer.left

/-- The packets forwarded, and the one that still may be. -/
def forwardable (w : RelaySockets Addr) : Nat :=
  (w.sent.flatMap Sent.origins).length + w.client.mayForward

def deliverable (w : RelaySockets Addr) : Nat := w.handed.length + w.server.mayDeliver

/-- All threads are finished. -/
structure Finished (w : RelaySockets Addr) : Prop where
  client : w.client = .ended
  server : w.server = .ended
  timer : w.timer = .ended

end RelaySockets

def SocketAction.isStop : SocketAction Addr → Bool
  | .stop => true
  | _ => false

/-- The steps that need no datagram to come. -/
def unprompted (_ : RelaySockets Addr) : SocketAction Addr → Prop
  | .clientRecv _ | .serverRecv _ => False
  | _ => True

/-- The client loop has five steps in a turn, -/
theorem SocketClientPc.left_le (pc : SocketClientPc Addr) : pc.left ≤ 5 := by
  cases pc <;> simp [left]

/-- the server loop four, -/
theorem ServerPc.left_le (pc : ServerPc Addr) : pc.left ≤ 4 := by
  cases pc <;> simp [left]

/-- and the timer three. -/
theorem TimerPc.left_le (pc : TimerPc) : pc.left ≤ 3 := by
  cases pc <;> simp [left]

/-- **Twelve steps** for the three loops. -/
theorem RelaySockets.loopsLeft_le (w : RelaySockets Addr) : w.loopsLeft ≤ 12 :=
  Nat.add_le_add (Nat.add_le_add w.client.left_le w.server.left_le) w.timer.left_le

/-- A turn forwards one packet at most. -/
theorem SocketClientPc.mayForward_le (pc : SocketClientPc Addr) : pc.mayForward ≤ 1 := by
  unfold mayForward
  split <;> decide

/-- As long as it lasts it still may. -/
theorem SocketClientPc.mayForward_turn {pc : SocketClientPc Addr} (h : 2 ≤ pc.left) :
    pc.mayForward = 1 := if_pos h

/-- A turn hands over one packet at most. -/
theorem ServerPc.mayDeliver_le (pc : ServerPc Addr) : pc.mayDeliver ≤ 1 := by
  unfold mayDeliver
  split <;> decide

/-- As long as it lasts it still may. -/
theorem ServerPc.mayDeliver_turn {pc : ServerPc Addr} (h : 2 ≤ pc.left) : pc.mayDeliver = 1 :=
  if_pos h

variable {w w' : RelaySockets Addr}

/-- What a step does that is taken without the flag. -/
structure Winds (w w' : RelaySockets Addr) (used : Nat) : Prop where
  stopped : w'.running = false
  left : w'.loopsLeft + used ≤ w.loopsLeft
  forwardable : w'.forwardable ≤ w.forwardable
  deliverable : w'.deliverable ≤ w.deliverable

/-- The client loop moves. -/
theorem Winds.client {clientAddr : Option Addr} {client : SocketClientPc Addr} {stats : RelayStats}
    {sent : List (Sent Addr)} (hstop : w.running = false) (hless : client.left < w.client.left)
    (hforward : (sent.flatMap Sent.origins).length + client.mayForward ≤ w.forwardable) :
    Winds w { w with clientAddr, client, stats, sent } 1 := by
  refine ⟨hstop, ?_, hforward, Nat.le_refl _⟩
  simp only [RelaySockets.loopsLeft]
  omega

/-- The client loop moves on in its turn, and forwards nothing. -/
theorem Winds.clientTurn {clientAddr : Option Addr} {client : SocketClientPc Addr}
    {sent : List (Sent Addr)} (hstop : w.running = false) (hless : client.left < w.client.left)
    (hturn : 2 ≤ w.client.left)
    (hsent : sent.flatMap Sent.origins = w.sent.flatMap Sent.origins) :
    Winds w { w with clientAddr, client, sent } 1 := by
  refine .client hstop hless ?_
  have hmay := client.mayForward_le
  rw [RelaySockets.forwardable, hsent, SocketClientPc.mayForward_turn hturn]
  omega

/-- The server loop moves. -/
theorem Winds.server {server : ServerPc Addr} {stats : RelayStats} {handed : List (Handed Addr)}
    (hstop : w.running = false) (hless : server.left < w.server.left)
    (hdeliver : handed.length + server.mayDeliver ≤ w.deliverable) :
    Winds w { w with server, stats, handed } 1 := by
  refine ⟨hstop, ?_, Nat.le_refl _, hdeliver⟩
  simp only [RelaySockets.loopsLeft]
  omega

/-- The server loop moves on in its turn, and delivers nothing. -/
theorem Winds.serverTurn {server : ServerPc Addr} {stats : RelayStats} (hstop : w.running = false)
    (hless : server.left < w.server.left) (hturn : 2 ≤ w.server.left) :
    Winds w { w with server, stats } 1 := by
  refine .server hstop hless ?_
  have hmay := server.mayDeliver_le
  rw [RelaySockets.deliverable, ServerPc.mayDeliver_turn hturn]
  omega

/-- The timer moves. -/
theorem Winds.timer {timer : TimerPc} {sent : List (Sent Addr)} (hstop : w.running = false)
    (hless : timer.left < w.timer.left)
    (hsent : sent.flatMap Sent.origins = w.sent.flatMap Sent.origins) :
    Winds w { w with timer, sent } 1 := by
  refine ⟨hstop, ?_, ?_, Nat.le_refl _⟩
  · simp only [RelaySockets.loopsLeft]
    omega
  · simp only [RelaySockets.forwardable, hsent, Nat.le_refl]

variable [DecidableEq Addr] {o : Obfuscator} {isStun : Bool} {a : SocketAction Addr}

/-- **A step without the flag** uses up some of what is left, and starts no new turn. -/
theorem socketsStep_winds (hstop : w.running = false)
    (hstep : socketsStep o isStun w a = some w') : Winds w w' (!a.isStop).toNat := by
  cases a with
  | clientCheck =>
    simp only [socketsStep] at hstep
    split at hstep <;> cases hstep
    next hpc =>
    -- the flag is off, so this was the last turn
    have hended : (if w.running then SocketClientPc.receiving else .ended : SocketClientPc Addr)
        = .ended := by rw [hstop]; rfl
    rw [hended]
    exact .client hstop (by simp [hpc, SocketClientPc.left]) (Nat.le_add_right _ _)
  | clientRecv d =>
    simp only [socketsStep] at hstep
    split at hstep
    · next hpc =>
      split at hstep <;> cases hstep
      refine .clientTurn hstop ?_ (by simp [hpc, SocketClientPc.left]) rfl
      rw [hpc]
      cases isValid d <;> simp [SocketClientPc.left]
    · cases hstep
  | clientRecvError =>
    simp only [socketsStep] at hstep
    split at hstep <;> cases hstep
    next hpc =>
    exact .clientTurn hstop (by simp [hpc, SocketClientPc.left])
      (by simp [hpc, SocketClientPc.left]) rfl
  | clientBind =>
    simp only [socketsStep] at hstep
    split at hstep <;> cases hstep
    next d hpc =>
    refine .clientTurn hstop ?_ (by simp [hpc, SocketClientPc.left]) rfl
    rw [hpc]
    cases (rebind w.clientAddr d).2 <;> cases isStun && isHandshake d <;>
      simp [SocketClientPc.left]
  | clientRequest txid taken =>
    simp only [socketsStep] at hstep
    split at hstep <;> cases hstep
    next d hpc =>
    exact .clientTurn hstop (by simp [hpc, SocketClientPc.left])
      (by simp [hpc, SocketClientPc.left]) (by simp [Sent.origins])
  | clientForward rng txid taken =>
    simp only [socketsStep] at hstep
    split at hstep <;> cases hstep
    next d hpc =>
    refine .client hstop (by simp [hpc, SocketClientPc.left]) ?_
    -- the one packet of the turn
    simp [RelaySockets.forwardable, SocketClientPc.mayForward, SocketClientPc.left, hpc,
      Sent.origins]
  | serverCheck =>
    simp only [socketsStep] at hstep
    split at hstep <;> cases hstep
    next hpc =>
    -- the same of the server loop
    have hended : (if w.running then ServerPc.receiving else .ended : ServerPc Addr) = .ended := by
      rw [hstop]; rfl
    rw [hended]
    exact .server hstop (by simp [hpc, ServerPc.left]) (Nat.le_add_right _ _)
  | serverRecv raw =>
    simp only [socketsStep] at hstep
    split at hstep
    · next hpc =>
      have hturn : 2 ≤ w.server.left := by simp [hpc, ServerPc.left]
      split at hstep
      · cases hstep
      · split at hstep
        · cases hstep
          exact .serverTurn hstop (by simp [hpc, ServerPc.left]) hturn
        · split at hstep <;> cases hstep <;>
            exact .serverTurn hstop (by simp [hpc, ServerPc.left]) hturn
    · cases hstep
  | serverRecvError =>
    simp only [socketsStep] at hstep
    split at hstep <;> cases hstep
    next hpc =>
    exact .serverTurn hstop (by simp [hpc, ServerPc.left]) (by simp [hpc, ServerPc.left])
  | serverLook =>
    simp only [socketsStep] at hstep
    split at hstep
    · next payload hpc =>
      have hturn : 2 ≤ w.server.left := by simp [hpc, ServerPc.left]
      split at hstep <;> cases hstep <;>
        exact .serverTurn hstop (by simp [hpc, ServerPc.left]) hturn
    · cases hstep
  | serverSend taken =>
    simp only [socketsStep] at hstep
    split at hstep <;> cases hstep
    next hpc =>
    refine .server hstop (by simp [hpc, ServerPc.left]) ?_
    -- it counts as handed over even if the socket refuses it
    simp [RelaySockets.deliverable, ServerPc.mayDeliver, ServerPc.left, hpc]
  | timerCheck =>
    simp only [socketsStep] at hstep
    split at hstep <;> cases hstep
    next hpc => exact .timer hstop (by simp [hpc, hstop, TimerPc.left]) rfl
  | timerWake =>
    simp only [socketsStep] at hstep
    split at hstep <;> cases hstep
    next hpc => exact .timer hstop (by simp [hpc, hstop, TimerPc.left]) rfl
  | timerSend txid taken =>
    simp only [socketsStep] at hstep
    split at hstep <;> cases hstep
    next hpc => exact .timer hstop (by simp [hpc, TimerPc.left]) (by simp [Sent.origins])
  | stop =>
    cases hstep
    exact ⟨rfl, Nat.le_refl _, Nat.le_refl _, Nat.le_refl _⟩

/-- A loop that is not finished can move, without a datagram. -/
theorem exists_unprompted_action (hnot : ¬ w.Finished) :
    ∃ a w', unprompted w a ∧ a.isStop = false ∧ socketsStep o isStun w a = some w' := by
  obtain ⟨running, clientAddr, client, server, timer, stats, sent, handed⟩ := w
  cases client with
  | top => exact ⟨.clientCheck, _, trivial, rfl, rfl⟩
  | receiving => exact ⟨.clientRecvError, _, trivial, rfl, rfl⟩
  | binding d => exact ⟨.clientBind, _, trivial, rfl, rfl⟩
  | requesting d => exact ⟨.clientRequest sampleTxid false, _, trivial, rfl, rfl⟩
  | forwarding d => exact ⟨.clientForward sampleRng sampleTxid false, _, trivial, rfl, rfl⟩
  | ended =>
    -- the client loop has ended, and the server loop is next
    cases server with
    | top => exact ⟨.serverCheck, _, trivial, rfl, rfl⟩
    | receiving => exact ⟨.serverRecvError, _, trivial, rfl, rfl⟩
    | looking payload =>
      cases clientAddr with
      | none => exact ⟨.serverLook, _, trivial, rfl, rfl⟩
      | some client => exact ⟨.serverLook, _, trivial, rfl, rfl⟩
    | sending payload client => exact ⟨.serverSend false, _, trivial, rfl, rfl⟩
    | ended =>
      cases timer with
      | top => exact ⟨.timerCheck, _, trivial, rfl, rfl⟩
      | sleeping => exact ⟨.timerWake, _, trivial, rfl, rfl⟩
      | sending => exact ⟨.timerSend sampleTxid false, _, trivial, rfl, rfl⟩
      | ended => exact absurd ⟨rfl, rfl, rfl⟩ hnot

/-- **A relay that is asked to stop ends.** Without the flag the loops take at most twelve more
steps, in any order; and they can reach their ends without any datagram. Meanwhile at most one
more packet is forwarded and at most one more handed to a client. -/
theorem relay_stops (o : Obfuscator) (isStun : Bool) {v : RelaySockets Addr}
    (hstop : v.running = false) :
    (∀ bs w, Run (socketsStep o isStun) anyStep v bs w →
        bs.countP (fun a => !a.isStop) ≤ 12
          ∧ (w.sent.flatMap Sent.origins).length ≤ (v.sent.flatMap Sent.origins).length + 1
          ∧ w.handed.length ≤ v.handed.length + 1)
      ∧ ∃ bs w, Run (socketsStep o isStun) unprompted v bs w ∧ w.Finished ∧ bs.length ≤ 12 := by
  have hbound := v.loopsLeft_le
  constructor
  · intro bs w hrun
    have hcount := hrun.countP_le (P := fun w => w.running = false) RelaySockets.loopsLeft
      (fun a => !a.isStop) hstop fun u b u' hu _ hst =>
        ⟨(socketsStep_winds hu hst).stopped, (socketsStep_winds hu hst).left⟩
    -- what may still be forwarded or delivered only becomes less
    have hkept : w.running = false ∧ w.forwardable ≤ v.forwardable
        ∧ w.deliverable ≤ v.deliverable := by
      refine hrun.invariant (P := fun w => w.running = false ∧ w.forwardable ≤ v.forwardable
        ∧ w.deliverable ≤ v.deliverable) ⟨hstop, Nat.le_refl _, Nat.le_refl _⟩ ?_
      rintro u b u' ⟨hu, hforward, hdeliver⟩ - hst
      have hwinds := socketsStep_winds hu hst
      exact ⟨hwinds.stopped, Nat.le_trans hwinds.forwardable hforward,
        Nat.le_trans hwinds.deliverable hdeliver⟩
    obtain ⟨-, hforward, hdeliver⟩ := hkept
    -- one packet each, at the moment of the stop
    have hmayForward := v.client.mayForward_le
    have hmayDeliver := v.server.mayDeliver_le
    simp only [RelaySockets.forwardable] at hforward
    simp only [RelaySockets.deliverable] at hdeliver
    refine ⟨?_, ?_, ?_⟩ <;> omega
  · have hto : ∃ bs w, Run (socketsStep o isStun) unprompted v bs w ∧ w.running = false
        ∧ w.Finished ∧ bs.length ≤ v.loopsLeft := by
      refine exists_run_to (P := fun w => w.running = false) RelaySockets.loopsLeft ?_
        (s := v) hstop
      intro u hu hnot
      obtain ⟨a, u', hfree, hgo, hst⟩ := exists_unprompted_action (o := o) hnot
      have hwinds := socketsStep_winds hu hst
      have hless := hwinds.left
      rw [hgo, Bool.not_false, Bool.toNat_true] at hless
      exact ⟨a, u', hfree, hst, hwinds.stopped, hless⟩
    obtain ⟨bs, w, hrun, -, hdone, hlen⟩ := hto
    exact ⟨bs, w, hrun, hdone, Nat.le_trans hlen hbound⟩

/-- The relay is stopped while a handshake is on its way and the server has answered. -/
theorem relay_stops_handshake : ∃ v : RelaySockets Nat, v.running = false
    ∧ v.client.left = 2
    ∧ ∃ bs w, Run (socketsStep sampleObfuscator true) unprompted v bs w ∧ w.Finished
      ∧ bs.length ≤ 12 := by
  have hexec : (exec (socketsStep sampleObfuscator true) (socketsInit true)
      (relayHandshake.take 6 ++ [.stop])).any (fun v =>
        decide (v.running = false ∧ v.client.left = 2)) = true := by decide +kernel
  obtain ⟨v, -, hv⟩ := Run.of_exec_any hexec
  obtain ⟨hstop, hleft⟩ := of_decide_eq_true hv
  exact ⟨v, hstop, hleft, (relay_stops sampleObfuscator true hstop).2⟩

end Phobos
