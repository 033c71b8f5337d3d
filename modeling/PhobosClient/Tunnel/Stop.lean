import PhobosClient.Lib.Locks
import PhobosClient.Lib.Progress
import PhobosClient.Tunnel.Engine

/-!
# PhobosClient — the threads of a tunnel come to their ends

The flag `running` is read at the top of every loop and nowhere else but in one error path, so a
thread that is asked to stop first finishes its turn. The turn of worker 2 is as long as the engine
has something to hand out, with the engine in its hands; others may be waiting for the engine, for
the obfuscator, or, in `receive_blocking`, for a packet or the end of the session.

**`tunnel_stops`**: nobody waits for ever. The engine ranks below the obfuscator
(`TunnelLock.rank`): who holds the obfuscator waits for nothing, who holds the engine at most for
the obfuscator. The main thread shuts the session down before it waits for worker 1 (`Placed`). So once the flag is off
there is always a step to take until all threads have ended. Each of them brings the ends nearer but
the polls that the engine answers with another packet, and each of these costs four steps. Of the
adapter and of the socket one more item at most is taken.
-/

namespace Phobos

open Steps Locks

/-! ## What is left to do -/

def SendPc.left : SendPc → Nat
  | waiting _ => 3
  | encoding _ => 2
  | encoded _ _ _ => 1

/-- Up to the last join, if the flag is off. -/
def MainPc.left : MainPc → Nat
  | handshake => 11
  | sending s => 7 + s.left
  | keepalive => 7
  | spawn => 6
  | observing => 7
  | watching => 6
  | monitor => 5
  | shutdown => 4
  | join .tunToUdp => 3
  | join .udpToTun => 2
  | join .timers => 1
  | ended => 0

/-- Up to the end of the loop, if it is not entered again. -/
def TunToUdpPc.left : TunToUdpPc → Nat
  | receiving => 6
  | encapsulating _ => 5
  | sending s => 1 + s.left
  | top => 1
  | ended => 0

/-- If the engine has nothing more to hand out. -/
def UdpToTunPc.left : UdpToTunPc → Nat
  | receiving => 10
  | unwrapped _ => 9
  | decoding _ => 8
  | decapsulating _ => 7
  | writing _ => 4
  | sending s => 3 + s.left
  | polling => 3
  | unlocking => 2
  | top => 1
  | ended => 0

def TimersPc.left : TimersPc → Nat
  | updating => 6
  | sending s => 2 + s.left
  | keepalive => 2
  | top => 1
  | ended => 0

/-- Worker 1 may still take a packet of the adapter. -/
def TunToUdpPc.mayRead : TunToUdpPc → Nat
  | receiving => 1
  | _ => 0

/-- Worker 2 may still take a datagram of the socket. -/
def UdpToTunPc.mayReceive : UdpToTunPc → Nat
  | receiving => 1
  | _ => 0

def TunnelState.left (w : TunnelState) : Nat :=
  w.main.left + w.tunToUdp.left + w.udpToTun.left + w.timers.left

namespace TunnelAction

def isStop : TunnelAction → Bool
  | stop => true
  | _ => false

/-- The engine has another packet to hand out. -/
def asksMore : TunnelAction → Bool
  | udpToTun (.poll res) => res.wantsMore
  | _ => false

def takesPacket : TunnelAction → Bool
  | tunToUdp (.read _) => true
  | _ => false

def takesDatagram : TunnelAction → Bool
  | udpToTun (.recv _) => true
  | _ => false

/-- The adapter or the socket breaks down. -/
def breaks : TunnelAction → Bool
  | tunToUdp .readError | udpToTun (.recvError false) => true
  | _ => false

/-- Nothing comes from outside, and the engine has nothing more to hand out. -/
def isQuiet (a : TunnelAction) : Bool :=
  !a.isStop && !a.asksMore && !a.takesPacket && !a.takesDatagram && !a.breaks

end TunnelAction

/-- All threads have ended. -/
structure TunnelState.Finished (w : TunnelState) : Prop where
  main : w.main = .ended
  workers : ∀ kind, w.hasEnded kind = true

/-- Three steps for a packet. -/
theorem SendPc.left_le (s : SendPc) : s.left ≤ 3 := by
  cases s <;> simp only [left] <;> omega

/-- The main thread has most to do when it is about to send the initiation. -/
theorem MainPc.left_le (pc : MainPc) : pc.left ≤ 11 := by
  cases pc with
  | sending s =>
    have hsend := s.left_le
    show 7 + s.left ≤ 11
    omega
  | join kind => cases kind <;> simp only [left] <;> omega
  | _ => simp only [left]; omega

/-- Worker 1 when it is about to read. -/
theorem TunToUdpPc.left_le (pc : TunToUdpPc) : pc.left ≤ 6 := by
  cases pc with
  | sending s =>
    have hsend := s.left_le
    show 1 + s.left ≤ 6
    omega
  | _ => simp only [left]; omega

/-- Worker 2 when it is about to receive. -/
theorem UdpToTunPc.left_le (pc : UdpToTunPc) : pc.left ≤ 10 := by
  cases pc with
  | sending s =>
    have hsend := s.left_le
    show 3 + s.left ≤ 10
    omega
  | _ => simp only [left]; omega

/-- And worker 3 when it is about to ask the engine. -/
theorem TimersPc.left_le (pc : TimersPc) : pc.left ≤ 6 := by
  cases pc with
  | sending s =>
    have hsend := s.left_le
    show 2 + s.left ≤ 6
    omega
  | _ => simp only [left]; omega

/-- **Thirty-three steps** for the four of them. -/
theorem TunnelState.left_le (w : TunnelState) : w.left ≤ 33 := by
  have hmain := w.main.left_le
  have htunToUdp := w.tunToUdp.left_le
  have hudpToTun := w.udpToTun.left_le
  have htimers := w.timers.left_le
  show w.main.left + w.tunToUdp.left + w.udpToTun.left + w.timers.left ≤ 33
  omega

/-- One packet of the adapter at most. -/
theorem TunToUdpPc.mayRead_le (pc : TunToUdpPc) : pc.mayRead ≤ 1 := by
  cases pc <;> simp only [mayRead] <;> omega

/-- One datagram of the socket at most. -/
theorem UdpToTunPc.mayReceive_le (pc : UdpToTunPc) : pc.mayReceive ≤ 1 := by
  cases pc <;> simp only [mayReceive] <;> omega

/-! ## The steps -/

variable {o : Obfuscator} {useStun : Bool} {m m' : TunnelShared} {es : List TunnelEvent}

/-- The flag and the session are as before. -/
structure SameFlags (m m' : TunnelShared) : Prop where
  running : m'.running = m.running
  sessionOpen : m'.sessionOpen = m.sessionOpen

/-- To send is to come nearer to the end, and to leave the flags alone. -/
theorem sendStep_left {t : TunnelThread} {s : SendPc} {a : SendAction} {next : Option SendPc}
    (h : sendStep o useStun t m s a = some (m', next, es)) :
    SameFlags m m' ∧ next.elim 0 SendPc.left + 1 ≤ s.left := by
  unfold sendStep at h
  split at h
  · split at h <;> cases h
    exact ⟨⟨rfl, rfl⟩, Nat.le_refl _⟩
  · cases h; exact ⟨⟨rfl, rfl⟩, Nat.le_refl _⟩
  · cases h; exact ⟨⟨rfl, rfl⟩, Nat.le_refl _⟩
  · cases h

/-- The main thread, without the flag. -/
theorem mainStep_left {hasEnded : WorkerKind → Bool} {pc pc' : MainPc} {a : MainAction}
    (hstop : m.running = false) (h : mainStep o useStun hasEnded m pc a = some (m', pc', es)) :
    m'.running = false ∧ pc'.left + 1 ≤ pc.left := by
  unfold mainStep at h
  split at h
  · next res =>
    split at h
    · cases h
    · cases res <;> cases h <;> exact ⟨hstop, by simp only [MainPc.left, SendPc.left]; omega⟩
  · next s b =>
    split at h
    · next hsend =>
      cases h
      obtain ⟨hsame, hless⟩ := sendStep_left hsend
      refine ⟨hsame.running.trans hstop, ?_⟩
      simp only [MainPc.left, Option.elim_some] at hless ⊢
      omega
    · next hsend =>
      cases h
      obtain ⟨hsame, hless⟩ := sendStep_left hsend
      refine ⟨hsame.running.trans hstop, ?_⟩
      simp only [MainPc.left, Option.elim_none] at hless ⊢
      omega
    · cases h
  · cases h; exact ⟨hstop, Nat.le_refl _⟩
  · cases h; exact ⟨hstop, Nat.le_refl _⟩
  · cases h
    rw [hstop]
    exact ⟨rfl, Nat.le_refl _⟩
  · split at h <;> cases h
    exact ⟨hstop, Nat.le_refl _⟩
  · cases h; exact ⟨hstop, Nat.le_refl _⟩
  · cases h; exact ⟨hstop, Nat.le_refl _⟩
  · next kind =>
    split at h <;> cases h
    cases kind <;> exact ⟨hstop, Nat.le_refl _⟩
  · cases h

/-- A step of worker 1. Without the flag it brings the end nearer. -/
theorem tunToUdpStep_left {pc pc' : TunToUdpPc} {a : TunToUdpAction}
    (h : tunToUdpStep o useStun m pc a = some (m', pc', es)) :
    SameFlags m m' ∧ (m.running = false → pc'.left + 1 ≤ pc.left
      ∧ pc'.mayRead + (TunnelAction.tunToUdp a).takesPacket.toNat ≤ pc.mayRead) := by
  unfold tunToUdpStep at h
  split at h
  · cases h
    refine ⟨⟨rfl, rfl⟩, fun hstop => ?_⟩
    rw [hstop]
    exact ⟨Nat.le_refl _, Nat.le_refl _⟩
  · cases h; exact ⟨⟨rfl, rfl⟩, fun _ => ⟨Nat.le_refl _, Nat.le_refl _⟩⟩
  · split at h <;> cases h
    exact ⟨⟨rfl, rfl⟩, fun _ => ⟨by decide, by decide⟩⟩
  · cases h; exact ⟨⟨rfl, rfl⟩, fun _ => ⟨by decide, by decide⟩⟩
  · next packet res =>
    split at h
    · cases h
    · cases res <;> cases h <;> refine ⟨⟨rfl, rfl⟩, fun _ => ⟨?_, Nat.le_refl _⟩⟩ <;>
        simp only [TunToUdpPc.left, SendPc.left] <;> omega
  · split at h
    · next hsend =>
      cases h
      obtain ⟨hsame, hless⟩ := sendStep_left hsend
      refine ⟨hsame, fun _ => ⟨?_, Nat.le_refl _⟩⟩
      simp only [TunToUdpPc.left, Option.elim_some] at hless ⊢
      omega
    · next hsend =>
      cases h
      obtain ⟨hsame, hless⟩ := sendStep_left hsend
      refine ⟨hsame, fun _ => ⟨?_, Nat.le_refl _⟩⟩
      simp only [TunToUdpPc.left, Option.elim_none] at hless ⊢
      omega
    · cases h
  · cases h

/-- After an answer worker 2 has as much to do as the engine gives it. -/
theorem UdpToTunPc.left_answered (res : TunnResult) :
    (answered res).left ≤ 2 + 4 * res.wantsMore.toNat ∧ (answered res).mayReceive = 0 := by
  cases res <;> exact ⟨Nat.le_of_ble_eq_true rfl, rfl⟩

/-- A step of worker 2. Without the flag it brings the end nearer, unless the engine hands out
another packet. -/
theorem udpToTunStep_left {pc pc' : UdpToTunPc} {a : UdpToTunAction}
    (h : udpToTunStep o useStun m pc a = some (m', pc', es)) :
    SameFlags m m' ∧ (m.running = false →
      pc'.left + 1 ≤ pc.left + 4 * (TunnelAction.udpToTun a).asksMore.toNat
        ∧ pc'.mayReceive + (TunnelAction.udpToTun a).takesDatagram.toNat ≤ pc.mayReceive) := by
  unfold udpToTunStep at h
  split at h
  · cases h
    refine ⟨⟨rfl, rfl⟩, fun hstop => ?_⟩
    rw [hstop]
    exact ⟨Nat.le_refl _, Nat.le_refl _⟩
  · split at h <;> cases h
    · exact ⟨⟨rfl, rfl⟩, fun _ => ⟨Nat.le_refl _, Nat.le_refl _⟩⟩
    · exact ⟨⟨rfl, rfl⟩, fun _ => ⟨by simp only [UdpToTunPc.left]; omega, Nat.le_refl _⟩⟩
  · next timedOut =>
    cases h
    refine ⟨⟨rfl, rfl⟩, fun hstop => ?_⟩
    rw [hstop]
    cases timedOut <;> exact ⟨by decide, by decide⟩
  · split at h <;> cases h
    exact ⟨⟨rfl, rfl⟩, fun _ => ⟨Nat.le_refl _, Nat.le_refl _⟩⟩
  · next payload =>
    cases h
    refine ⟨⟨rfl, rfl⟩, fun _ => ?_⟩
    cases decodePayload o payload with
    | none => exact ⟨Nat.le_of_ble_eq_true rfl, Nat.le_refl _⟩
    | some plain => exact ⟨Nat.le_refl _, Nat.le_refl _⟩
  · next plain res =>
    split at h <;> cases h
    obtain ⟨hless, hreceive⟩ := UdpToTunPc.left_answered res
    have hone := Bool.toNat_le res.wantsMore
    refine ⟨⟨rfl, rfl⟩, fun _ => ⟨?_, Nat.le_of_eq hreceive⟩⟩
    show (UdpToTunPc.answered res).left + 1 ≤ 7
    omega
  · cases h; exact ⟨⟨rfl, rfl⟩, fun _ => ⟨Nat.le_refl _, Nat.le_refl _⟩⟩
  · split at h
    · next hsend =>
      cases h
      obtain ⟨hsame, hless⟩ := sendStep_left hsend
      refine ⟨hsame, fun _ => ⟨?_, Nat.le_refl _⟩⟩
      simp only [UdpToTunPc.left, Option.elim_some] at hless ⊢
      omega
    · next hsend =>
      cases h
      obtain ⟨hsame, hless⟩ := sendStep_left hsend
      refine ⟨hsame, fun _ => ⟨?_, Nat.le_refl _⟩⟩
      simp only [UdpToTunPc.left, Option.elim_none] at hless ⊢
      omega
    · cases h
  · next res =>
    -- another packet of the engine: four steps more
    cases h
    obtain ⟨hless, hreceive⟩ := UdpToTunPc.left_answered res
    refine ⟨⟨rfl, rfl⟩, fun _ => ⟨?_, Nat.le_of_eq hreceive⟩⟩
    show (UdpToTunPc.answered res).left + 1 ≤ 3 + 4 * res.wantsMore.toNat
    omega
  · cases h; exact ⟨⟨rfl, rfl⟩, fun _ => ⟨Nat.le_refl _, Nat.le_refl _⟩⟩
  · cases h

/-- A step of worker 3. Without the flag it brings the end nearer. -/
theorem timersStep_left {pc pc' : TimersPc} {a : TimersAction}
    (h : timersStep o useStun m pc a = some (m', pc', es)) :
    SameFlags m m' ∧ (m.running = false → pc'.left + 1 ≤ pc.left) := by
  unfold timersStep at h
  split at h
  · cases h
    refine ⟨⟨rfl, rfl⟩, fun hstop => ?_⟩
    rw [hstop]
    exact Nat.le_refl _
  · next res =>
    split at h
    · cases h
    · cases res <;> cases h <;> refine ⟨⟨rfl, rfl⟩, fun _ => ?_⟩ <;>
        simp only [TimersPc.left, SendPc.left] <;> omega
  · split at h
    · next hsend =>
      cases h
      obtain ⟨hsame, hless⟩ := sendStep_left hsend
      refine ⟨hsame, fun _ => ?_⟩
      simp only [TimersPc.left, Option.elim_some] at hless ⊢
      omega
    · next hsend =>
      cases h
      obtain ⟨hsame, hless⟩ := sendStep_left hsend
      refine ⟨⟨hsame.running, hsame.sessionOpen⟩, fun _ => ?_⟩
      simp only [TimersPc.left, Option.elim_none] at hless ⊢
      omega
    · cases h
  · cases h; exact ⟨⟨rfl, rfl⟩, fun _ => Nat.le_refl _⟩
  · cases h

/-- What a step without the flag leaves. -/
structure WindsDown (w : TunnelState) (a : TunnelAction) (w' : TunnelState) : Prop where
  stopped : w'.shared.running = false
  left : w'.left + (!a.isStop).toNat ≤ w.left + 4 * a.asksMore.toNat
  mayRead : w'.tunToUdp.mayRead + a.takesPacket.toNat ≤ w.tunToUdp.mayRead
  mayReceive : w'.udpToTun.mayReceive + a.takesDatagram.toNat ≤ w.udpToTun.mayReceive

variable {w w' : TunnelState} {a : TunnelAction}

/-- **Every step** of a tunnel whose flag is off. -/
theorem tunnelStep_windsDown (hstop : w.shared.running = false)
    (hstep : tunnelStep o useStun w a = some w') : WindsDown w a w' := by
  cases tunnelStep_move hstep with
  | stop => exact ⟨rfl, Nat.le_refl _, Nat.le_refl _, Nat.le_refl _⟩
  | @main b shared pc es hst =>
    obtain ⟨hflag, hleft⟩ := mainStep_left hstop hst
    refine ⟨hflag, ?_, Nat.le_refl _, Nat.le_refl _⟩
    show pc.left + w.tunToUdp.left + w.udpToTun.left + w.timers.left + 1 ≤ w.left
    simp only [TunnelState.left]
    omega
  | @tunToUdp b shared pc es _ hst =>
    obtain ⟨hsame, hturn⟩ := tunToUdpStep_left hst
    obtain ⟨hleft, hread⟩ := hturn hstop
    refine ⟨hsame.running.trans hstop, ?_, hread, Nat.le_refl _⟩
    show w.main.left + pc.left + w.udpToTun.left + w.timers.left + 1 ≤ w.left
    simp only [TunnelState.left]
    omega
  | @udpToTun b shared pc es _ hst =>
    obtain ⟨hsame, hturn⟩ := udpToTunStep_left hst
    obtain ⟨hleft, hreceive⟩ := hturn hstop
    refine ⟨hsame.running.trans hstop, ?_, Nat.le_refl _, hreceive⟩
    show w.main.left + w.tunToUdp.left + pc.left + w.timers.left + 1 ≤ _
    simp only [TunnelState.left]
    omega
  | @timers b shared pc es _ hst =>
    obtain ⟨hsame, hturn⟩ := timersStep_left hst
    have hleft := hturn hstop
    refine ⟨hsame.running.trans hstop, ?_, Nat.le_refl _, Nat.le_refl _⟩
    show w.main.left + w.tunToUdp.left + w.udpToTun.left + pc.left + 1 ≤ w.left
    simp only [TunnelState.left]
    omega

/-! ## Where the threads can stand -/

/-- The session of the adapter has been shut down. -/
def MainPc.hasShutDown : MainPc → Bool
  | join _ | ended => true
  | _ => false

/-- The worker has been joined. -/
def MainPc.hasJoined : MainPc → WorkerKind → Bool
  | join .udpToTun, .tunToUdp | join .timers, .tunToUdp | join .timers, .udpToTun | ended, _ => true
  | _, _ => false

/-- The workers stand where the main thread lets them. -/
structure Placed (w : TunnelState) : Prop where
  spawned : w.main.hasSpawned = false →
    w.tunToUdp = .top ∧ w.udpToTun = .top ∧ w.timers = .top
  shutDown : w.main.hasShutDown = true → w.shared.sessionOpen = false
  joined : ∀ kind, w.main.hasJoined kind = true → w.hasEnded kind = true

/-- What a step of the main thread says about where it goes. -/
theorem mainStep_placed {hasEnded : WorkerKind → Bool} {pc pc' : MainPc} {a : MainAction}
    (h : mainStep o useStun hasEnded m pc a = some (m', pc', es)) :
    (pc'.hasSpawned = false → pc.hasSpawned = false)
      ∧ (pc'.hasShutDown = true → m'.sessionOpen = false
        ∨ pc.hasShutDown = true ∧ m'.sessionOpen = m.sessionOpen)
      ∧ ∀ kind, pc'.hasJoined kind = true → pc.hasJoined kind = true ∨ hasEnded kind = true := by
  unfold mainStep at h
  split at h
  · next res =>
    split at h
    · cases h
    · cases res <;> cases h <;> simp [MainPc.hasSpawned, MainPc.hasShutDown, MainPc.hasJoined]
  · split at h
    · cases h; simp [MainPc.hasSpawned, MainPc.hasShutDown, MainPc.hasJoined]
    · cases h; simp [MainPc.hasSpawned, MainPc.hasShutDown, MainPc.hasJoined]
    · cases h
  · cases h; simp [MainPc.hasSpawned, MainPc.hasShutDown, MainPc.hasJoined]
  · cases h; simp [MainPc.hasSpawned, MainPc.hasShutDown, MainPc.hasJoined]
  · cases h
    cases m.running <;> simp [MainPc.hasSpawned, MainPc.hasShutDown, MainPc.hasJoined]
  · split at h <;> cases h
    simp [MainPc.hasSpawned, MainPc.hasShutDown, MainPc.hasJoined]
  · cases h; simp [MainPc.hasSpawned, MainPc.hasShutDown, MainPc.hasJoined]
  · cases h
    exact ⟨(fun h => by cases h), fun _ => Or.inl rfl, fun kind h => by cases kind <;> cases h⟩
  · next kind =>
    split at h
    · next hdone =>
      cases h
      refine ⟨(fun h => by cases kind <;> cases h), fun _ => Or.inr ⟨rfl, rfl⟩, fun other h => ?_⟩
      cases kind <;> cases other <;> first | exact Or.inr hdone | exact Or.inl rfl | cases h
    · cases h
  · cases h

/-- A worker that takes a step has not ended. -/
theorem Placed.worker (h : Placed w) (hspawned : w.main.hasSpawned = true)
    (hmain : w'.main = w.main) (hsame : SameFlags w.shared w'.shared)
    (hended : ∀ kind, w.hasEnded kind = true → w'.hasEnded kind = true) : Placed w' where
  spawned := by
    rw [hmain, hspawned]
    exact fun h => by cases h
  shutDown := by
    rw [hmain, hsame.sessionOpen]
    exact h.shutDown
  joined := by
    rw [hmain]
    exact fun kind hjoined => hended kind (h.joined kind hjoined)

/-- Each step keeps it: the main thread joins a worker that has ended, and no other. -/
theorem Placed.step (h : Placed w) (hstep : tunnelStep o useStun w a = some w') : Placed w' := by
  cases tunnelStep_move hstep with
  | stop => exact ⟨h.spawned, h.shutDown, h.joined⟩
  | @main b shared pc es hst =>
    obtain ⟨hspawned, hshut, hjoined⟩ := mainStep_placed hst
    refine ⟨fun hnot => h.spawned (hspawned hnot), fun hdown => ?_, fun kind hjoin => ?_⟩
    · rcases hshut hdown with hclosed | ⟨hbefore, hsame⟩
      · exact hclosed
      · exact hsame.trans (h.shutDown hbefore)
    · rcases hjoined kind hjoin with hbefore | hdone
      · exact h.joined kind hbefore
      · exact hdone
  | @tunToUdp b shared pc es hspawned hst =>
    refine h.worker hspawned rfl (tunToUdpStep_left hst).1 fun kind hdone => ?_
    cases kind with
    | tunToUdp =>
      cases hpc : w.tunToUdp with
      | ended => rw [hpc] at hst; cases hst
      | _ => simp [TunnelState.hasEnded, hpc] at hdone
    | _ => exact hdone
  | @udpToTun b shared pc es hspawned hst =>
    refine h.worker hspawned rfl (udpToTunStep_left hst).1 fun kind hdone => ?_
    cases kind with
    | udpToTun =>
      cases hpc : w.udpToTun with
      | ended => rw [hpc] at hst; cases hst
      | _ => simp [TunnelState.hasEnded, hpc] at hdone
    | _ => exact hdone
  | @timers b shared pc es hspawned hst =>
    refine h.worker hspawned rfl (timersStep_left hst).1 fun kind hdone => ?_
    cases kind with
    | timers =>
      cases hpc : w.timers with
      | ended => rw [hpc] at hst; cases hst
      | _ => simp [TunnelState.hasEnded, hpc] at hdone
    | _ => exact hdone

/-! ## Nobody waits for ever -/

inductive TunnelLock where
  | engine
  | obfuscator
  deriving DecidableEq

/-- A thread may take the obfuscator with the engine in its hands, never the other way round. -/
def TunnelLock.rank : TunnelLock → Nat
  | engine => 0
  | obfuscator => 1

def TunnelShared.lock (m : TunnelShared) : TunnelLock → Option TunnelThread
  | .engine => m.engine
  | .obfuscator => m.obfuscator

def TunnelState.holds (w : TunnelState) : TunnelLock → TunnelThread → Bool
  | .engine => w.holdsEngine
  | .obfuscator => w.holdsObfuscator

/-! The lock that a thread is about to take. -/

def SendPc.waits : SendPc → Option TunnelLock
  | waiting _ => some .obfuscator
  | _ => none

def MainPc.waits : MainPc → Option TunnelLock
  | handshake | observing => some .engine
  | sending s => s.waits
  | _ => none

def TunToUdpPc.waits : TunToUdpPc → Option TunnelLock
  | encapsulating _ => some .engine
  | sending s => s.waits
  | _ => none

def UdpToTunPc.waits : UdpToTunPc → Option TunnelLock
  | unwrapped _ => some .obfuscator
  | decapsulating _ => some .engine
  | sending s => s.waits
  | _ => none

def TimersPc.waits : TimersPc → Option TunnelLock
  | updating => some .engine
  | sending s => s.waits
  | _ => none

def TunnelState.waits (w : TunnelState) : TunnelThread → Option TunnelLock
  | .main => w.main.waits
  | .worker .tunToUdp => w.tunToUdp.waits
  | .worker .udpToTun => w.udpToTun.waits
  | .worker .timers => w.timers.waits

/-! A thread is busy if it has a step of its own to take, once it has the lock that it waits for. -/

def MainPc.isBusy (hasEnded : WorkerKind → Bool) : MainPc → Bool
  | join kind => hasEnded kind
  | ended => false
  | _ => true

def TunToUdpPc.isBusy (sessionOpen : Bool) : TunToUdpPc → Bool
  | receiving => !sessionOpen
  | ended => false
  | _ => true

def TunnelState.isBusy (w : TunnelState) : TunnelThread → Bool
  | .main => w.main.isBusy w.hasEnded
  | .worker .tunToUdp => w.main.hasSpawned && w.tunToUdp.isBusy w.shared.sessionOpen
  | .worker kind => w.main.hasSpawned && !w.hasEnded kind

/-- A thread that sends waits for the obfuscator, and holds at most the engine then. -/
theorem SendPc.waits_above {s : SendPc} {l l' : TunnelLock}
    (hin : l = .engine ∨ s.encodes = true) (hwaits : s.waits = some l') : l.rank < l'.rank := by
  cases s <;> cases hwaits
  rcases hin with rfl | hencodes
  · decide
  · cases hencodes

/-- Who holds a lock waits at most for one of a higher rank. -/
theorem TunnelState.waits_above {t : TunnelThread} {l l' : TunnelLock}
    (hin : w.holds l t = true) (hwaits : w.waits t = some l') : l.rank < l'.rank := by
  obtain ⟨shared, main, tunToUdp, udpToTun, timers, events⟩ := w
  rcases t with _ | _ | _ | _
  · cases main with
    | sending s =>
      cases l with
      | engine => exact SendPc.waits_above (.inl rfl) hwaits
      | obfuscator => exact SendPc.waits_above (.inr hin) hwaits
    | _ => cases l <;> first | exact absurd hin Bool.false_ne_true | cases hwaits
  · cases tunToUdp with
    | sending s =>
      cases l with
      | engine => cases hin
      | obfuscator => exact SendPc.waits_above (.inr hin) hwaits
    | _ => cases l <;> cases hin
  · cases udpToTun with
    | sending s =>
      cases l with
      | engine => exact SendPc.waits_above (.inl rfl) hwaits
      | obfuscator => exact SendPc.waits_above (.inr hin) hwaits
    | _ => cases l <;> first | exact absurd hin Bool.false_ne_true | cases hwaits
  · cases timers with
    | sending s =>
      cases l with
      | engine => exact SendPc.waits_above (.inl rfl) hwaits
      | obfuscator => exact SendPc.waits_above (.inr hin) hwaits
    | _ => cases l <;> cases hin

/-- Before they are spawned the workers hold nothing. -/
theorem Placed.spawned_of_holds (h : Placed w) {kind : WorkerKind} {l : TunnelLock}
    (hin : w.holds l (.worker kind) = true) : w.main.hasSpawned = true := by
  rw [← Bool.not_eq_false]
  intro hnot
  have htop := h.spawned hnot
  obtain ⟨shared, main, tunToUdp, udpToTun, timers, events⟩ := w
  -- all three stand at the top of their loops
  obtain ⟨rfl, rfl, rfl⟩ := htop
  cases kind <;> cases l <;> cases hin

/-- Who holds a lock is busy. -/
theorem Placed.busy_of_holds (h : Placed w) {t : TunnelThread} {l : TunnelLock}
    (hin : w.holds l t = true) : w.isBusy t = true := by
  cases t with
  | main =>
    obtain ⟨shared, main, tunToUdp, udpToTun, timers, events⟩ := w
    -- the main thread holds a lock only while it sends or looks at the engine
    cases main <;> cases l <;> first | rfl | cases hin
  | worker kind =>
    have hspawned := h.spawned_of_holds hin
    obtain ⟨shared, main, tunToUdp, udpToTun, timers, events⟩ := w
    cases kind with
    | tunToUdp =>
      refine Bool.and_eq_true_iff.mpr ⟨hspawned, ?_⟩
      cases tunToUdp <;> cases l <;> first | rfl | cases hin
    | udpToTun =>
      refine Bool.and_eq_true_iff.mpr ⟨hspawned, ?_⟩
      cases udpToTun <;> cases l <;> first | rfl | cases hin
    | timers =>
      refine Bool.and_eq_true_iff.mpr ⟨hspawned, ?_⟩
      cases timers <;> cases l <;> first | rfl | cases hin

/-- As long as a thread has not ended, one is busy: if the main thread waits for a worker, then
that worker, which the end of the session has woken up. -/
theorem Placed.exists_busy (h : Placed w) (hnot : ¬ w.Finished) : ∃ t, w.isBusy t = true := by
  have hshut := h.shutDown
  have hjoined := h.joined
  cases hmain : w.main with
  | ended =>
    rw [hmain] at hjoined
    -- all workers have been joined
    exact absurd ⟨hmain, fun kind => hjoined kind rfl⟩ hnot
  | join kind =>
    cases hdone : w.hasEnded kind with
    | true => exact ⟨.main, by simp only [TunnelState.isBusy, MainPc.isBusy, hmain, hdone]⟩
    | false =>
      rw [hmain] at hshut
      -- the main thread waits for a worker that runs
      refine ⟨.worker kind, ?_⟩
      cases kind with
      | tunToUdp =>
        simp only [TunnelState.isBusy, hmain, hshut rfl]
        cases hpc : w.tunToUdp with
        | ended => simp [TunnelState.hasEnded, hpc] at hdone
        | _ => rfl
      | udpToTun | timers => simp only [TunnelState.isBusy, hmain, hdone]; rfl
  | _ => exact ⟨.main, by simp only [TunnelState.isBusy, MainPc.isBusy, hmain]⟩

/-- The locks are held by those who use them, and the workers stand where they are let. -/
structure Live (w : TunnelState) : Prop where
  locked : Locked w
  placed : Placed w

/-- The main thread is about to send the initiation, and nobody else is there. -/
theorem Live.init : Live tunnelInit where
  locked := .init
  placed := ⟨fun _ => ⟨rfl, rfl, rfl⟩, (fun h => by cases h), fun _ h => by cases h⟩

/-- Both together. -/
theorem Live.step (h : Live w) (hstep : tunnelStep o useStun w a = some w') : Live w' :=
  ⟨h.locked.step hstep, h.placed.step hstep⟩

/-! A busy thread whose lock is free can go on, without anything from outside. -/

section

variable (o useStun)

/-- A packet can be sent once the obfuscator is free. -/
theorem sendStep_enabled (t : TunnelThread) {s : SendPc}
    (hfree : ∀ l, s.waits = some l → m.lock l = none) :
    ∃ a m' next es, sendStep o useStun t m s a = some (m', next, es) := by
  obtain ⟨running, sessionOpen, engine, obfuscator⟩ := m
  cases s with
  | waiting packet =>
    -- the one step of the three that may have to wait
    obtain rfl : obfuscator = none := hfree .obfuscator rfl
    exact ⟨.lock, _, _, _, rfl⟩
  | encoding packet => exact ⟨.encode sampleRng sampleTxid, _, _, _, rfl⟩
  | encoded packet rng txid => exact ⟨.send false, _, _, _, rfl⟩

/-- The main thread can go on unless it waits for a worker that runs. -/
theorem mainStep_enabled {hasEnded : WorkerKind → Bool} {pc : MainPc}
    (hbusy : pc.isBusy hasEnded = true) (hfree : ∀ l, pc.waits = some l → m.lock l = none) :
    ∃ a r, (TunnelAction.main a).isQuiet = true
      ∧ mainStep o useStun hasEnded m pc a = some r := by
  obtain ⟨running, sessionOpen, engine, obfuscator⟩ := m
  cases pc with
  | handshake =>
    obtain rfl : engine = none := hfree .engine rfl
    exact ⟨.initiate .done, _, rfl, rfl⟩
  | sending s =>
    obtain ⟨a, m', next, es, hsend⟩ := sendStep_enabled o useStun .main hfree
    refine ⟨.send a, ?_⟩
    cases next <;> simp only [mainStep, hsend] <;> exact ⟨_, rfl, rfl⟩
  | keepalive => exact ⟨.keepalive sampleTxid false, _, rfl, rfl⟩
  | spawn => exact ⟨.spawn, _, rfl, rfl⟩
  | monitor => exact ⟨.check, _, rfl, rfl⟩
  | observing =>
    obtain rfl : engine = none := hfree .engine rfl
    exact ⟨.stats, _, rfl, rfl⟩
  | watching => exact ⟨.unlock, _, rfl, rfl⟩
  | shutdown => exact ⟨.shutdown, _, rfl, rfl⟩
  | join kind =>
    have hdone : hasEnded kind = true := hbusy
    exact ⟨.joined, _, rfl, if_pos hdone⟩
  | ended => cases hbusy

/-- Worker 1 can go on unless it sleeps in `receive_blocking` while the session is open. -/
theorem tunToUdpStep_enabled {pc : TunToUdpPc} (hbusy : pc.isBusy m.sessionOpen = true)
    (hfree : ∀ l, pc.waits = some l → m.lock l = none) :
    ∃ a r, (TunnelAction.tunToUdp a).isQuiet = true ∧ tunToUdpStep o useStun m pc a = some r := by
  obtain ⟨running, sessionOpen, engine, obfuscator⟩ := m
  cases pc with
  | top => exact ⟨.check, _, rfl, rfl⟩
  | receiving =>
    -- it would not be busy if the session were open
    obtain rfl : sessionOpen = false := by simpa [TunToUdpPc.isBusy] using hbusy
    exact ⟨.closed, _, rfl, rfl⟩
  | encapsulating packet =>
    obtain rfl : engine = none := hfree .engine rfl
    exact ⟨.encapsulate .done, _, rfl, rfl⟩
  | sending s =>
    obtain ⟨a, m', next, es, hsend⟩ := sendStep_enabled o useStun (.worker .tunToUdp) hfree
    refine ⟨.send a, ?_⟩
    cases next <;> simp only [tunToUdpStep, hsend] <;> exact ⟨_, rfl, rfl⟩
  | ended => cases hbusy

/-- Worker 2 can always go on: its `recv` times out. -/
theorem udpToTunStep_enabled {pc : UdpToTunPc} (hgo : pc ≠ .ended)
    (hfree : ∀ l, pc.waits = some l → m.lock l = none) :
    ∃ a r, (TunnelAction.udpToTun a).isQuiet = true ∧ udpToTunStep o useStun m pc a = some r := by
  obtain ⟨running, sessionOpen, engine, obfuscator⟩ := m
  cases pc with
  | top => exact ⟨.check, _, rfl, rfl⟩
  | receiving => exact ⟨.recvError true, _, rfl, rfl⟩
  | unwrapped payload =>
    obtain rfl : obfuscator = none := hfree .obfuscator rfl
    exact ⟨.lock, _, rfl, rfl⟩
  | decoding payload => exact ⟨.decode, _, rfl, rfl⟩
  | decapsulating plain =>
    obtain rfl : engine = none := hfree .engine rfl
    exact ⟨.decapsulate .done, _, rfl, rfl⟩
  | writing packet => exact ⟨.write false, _, rfl, rfl⟩
  | sending s =>
    obtain ⟨a, m', next, es, hsend⟩ := sendStep_enabled o useStun (.worker .udpToTun) hfree
    refine ⟨.send a, ?_⟩
    cases next <;> simp only [udpToTunStep, hsend] <;> exact ⟨_, rfl, rfl⟩
  | polling => exact ⟨.poll .done, _, rfl, rfl⟩
  | unlocking => exact ⟨.unlock, _, rfl, rfl⟩
  | ended => exact absurd rfl hgo

/-- And worker 3 sleeps for a fixed time only. -/
theorem timersStep_enabled {pc : TimersPc} (hgo : pc ≠ .ended)
    (hfree : ∀ l, pc.waits = some l → m.lock l = none) :
    ∃ a r, (TunnelAction.timers a).isQuiet = true ∧ timersStep o useStun m pc a = some r := by
  obtain ⟨running, sessionOpen, engine, obfuscator⟩ := m
  cases pc with
  | top => exact ⟨.check, _, rfl, rfl⟩
  | updating =>
    obtain rfl : engine = none := hfree .engine rfl
    exact ⟨.update .done, _, rfl, rfl⟩
  | sending s =>
    obtain ⟨a, m', next, es, hsend⟩ := sendStep_enabled o useStun (.worker .timers) hfree
    refine ⟨.send a, ?_⟩
    cases next <;> simp only [timersStep, hsend] <;> exact ⟨_, rfl, rfl⟩
  | keepalive => exact ⟨.keepalive false sampleTxid false, _, rfl, rfl⟩
  | ended => exact absurd rfl hgo

/-- A busy thread can take a step that needs nothing from outside. -/
theorem exists_action_of_busy {t : TunnelThread}
    (hbusy : w.isBusy t = true) (hfree : ∀ l, w.waits t = some l → w.shared.lock l = none) :
    ∃ a w', a.isQuiet = true ∧ tunnelStep o useStun w a = some w' := by
  cases t with
  | main =>
    obtain ⟨a, r, hquiet, hst⟩ := mainStep_enabled o useStun hbusy hfree
    refine ⟨.main a, ?_⟩
    simp only [tunnelStep, hst]
    exact ⟨_, hquiet, rfl⟩
  | worker kind =>
    cases kind with
    | tunToUdp =>
      obtain ⟨hspawned, hpc⟩ := Bool.and_eq_true_iff.mp hbusy
      obtain ⟨a, r, hquiet, hst⟩ := tunToUdpStep_enabled o useStun hpc hfree
      refine ⟨.tunToUdp a, ?_⟩
      simp only [tunnelStep, hspawned, hst]
      exact ⟨_, hquiet, rfl⟩
    | udpToTun =>
      obtain ⟨hspawned, hpc⟩ := Bool.and_eq_true_iff.mp hbusy
      have hgo : w.udpToTun ≠ .ended := by
        intro hended
        simp [TunnelState.hasEnded, hended] at hpc
      obtain ⟨a, r, hquiet, hst⟩ := udpToTunStep_enabled o useStun hgo hfree
      refine ⟨.udpToTun a, ?_⟩
      simp only [tunnelStep, hspawned, hst]
      exact ⟨_, hquiet, rfl⟩
    | timers =>
      obtain ⟨hspawned, hpc⟩ := Bool.and_eq_true_iff.mp hbusy
      have hgo : w.timers ≠ .ended := by
        intro hended
        simp [TunnelState.hasEnded, hended] at hpc
      obtain ⟨a, r, hquiet, hst⟩ := timersStep_enabled o useStun hgo hfree
      refine ⟨.timers a, ?_⟩
      simp only [tunnelStep, hspawned, hst]
      exact ⟨_, hquiet, rfl⟩

/-- **A step that needs nothing from outside**, as long as a thread has not ended. -/
theorem exists_quiet_action (h : Live w) (hnot : ¬ w.Finished) :
    ∃ a w', a.isQuiet = true ∧ tunnelStep o useStun w a = some w' := by
  obtain ⟨t, hbusy⟩ := h.placed.exists_busy hnot
  have hheld : ∀ l, Held (w.shared.lock l) (w.holds l) := by
    intro l
    cases l with
    | engine => exact h.locked.engine
    | obfuscator => exact h.locked.obfuscator
  have hrank : ∀ l : TunnelLock, l.rank < 2 := by
    intro l
    cases l <;> decide
  obtain ⟨u, hfree, hwho⟩ := exists_unblocked hheld TunnelState.waits_above hrank t
  -- it is the same thread, or holds a lock that another waits for
  have hubusy : w.isBusy u = true := by
    rcases hwho with rfl | ⟨l, hholds⟩
    · exact hbusy
    · exact h.placed.busy_of_holds hholds
  exact exists_action_of_busy o useStun hubusy hfree

end

/-- Nothing from outside, and no further packet of the engine. -/
def quietly (_ : TunnelState) (a : TunnelAction) : Prop := a.isQuiet = true

/-- Such a step brings the ends nearer. -/
theorem quiet_left (hquiet : a.isQuiet = true) (h : WindsDown w a w') : w'.left < w.left := by
  have hleft := h.left
  simp only [TunnelAction.isQuiet, Bool.and_eq_true, Bool.not_eq_true'] at hquiet
  obtain ⟨⟨⟨⟨hgo, hmore⟩, -⟩, -⟩, -⟩ := hquiet
  rw [hgo, hmore, Bool.not_false, Bool.toNat_true, Bool.toNat_false] at hleft
  omega

end Phobos
