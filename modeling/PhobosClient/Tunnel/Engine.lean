import PhobosClient.Lib.Locks
import PhobosClient.Tunnel.Traffic

/-!
# PhobosClient — how the threads use the engine

The engine asks of its user that a call of `decapsulate` that came back with a packet is repeated
with an empty datagram, until it comes back without one; before that no other call may be made.
`engineMonitor` is that rule as an automaton over the calls.

The threads keep it although they share the engine (**`engine_use`**): the one that decapsulates
holds the engine from its first call to its last one, and the others call it once, when nobody
holds it. `Locked` says who holds the engine, and who the obfuscator.
-/

namespace Phobos

open Steps Locks

/-! ## The rule -/

/-- An answer after which the caller has to ask again. -/
def TunnResult.wantsMore : TunnResult → Bool
  | .writeToNetwork _ | .writeToTunnelV4 _ | .writeToTunnelV6 _ => true
  | .done | .err => false

/-- The next state of the rule: whether the engine waits to be asked again. `none` is a breach. -/
def engineMonitor (waiting : Bool) : TunnelEvent → Option Bool
  | .formatHandshakeInitiation _ | .encapsulate _ _ | .updateTimers _ | .stats =>
    if waiting then none else some false
  | .decapsulate datagram res =>
    if datagram.isEmpty = waiting then some res.wantsMore else none
  | _ => some waiting

/-! ## Who holds what -/

/-- Between taking the obfuscator and giving it back. -/
def SendPc.encodes : SendPc → Bool
  | encoding _ => true
  | _ => false

def MainPc.holdsEngine : MainPc → Bool
  | sending _ | watching => true
  | _ => false

def UdpToTunPc.holdsEngine : UdpToTunPc → Bool
  | writing _ | sending _ | polling | unlocking => true
  | _ => false

def TimersPc.holdsEngine : TimersPc → Bool
  | sending _ => true
  | _ => false

def MainPc.holdsObfuscator : MainPc → Bool
  | sending s => s.encodes
  | _ => false

def TunToUdpPc.holdsObfuscator : TunToUdpPc → Bool
  | sending s => s.encodes
  | _ => false

def UdpToTunPc.holdsObfuscator : UdpToTunPc → Bool
  | decoding _ => true
  | sending s => s.encodes
  | _ => false

def TimersPc.holdsObfuscator : TimersPc → Bool
  | sending s => s.encodes
  | _ => false

/-- Worker 1 is never seen with the engine: it takes it for a single step. -/
def TunnelState.holdsEngine (w : TunnelState) : TunnelThread → Bool
  | .main => w.main.holdsEngine
  | .worker .tunToUdp => false
  | .worker .udpToTun => w.udpToTun.holdsEngine
  | .worker .timers => w.timers.holdsEngine

def TunnelState.holdsObfuscator (w : TunnelState) : TunnelThread → Bool
  | .main => w.main.holdsObfuscator
  | .worker .tunToUdp => w.tunToUdp.holdsObfuscator
  | .worker .udpToTun => w.udpToTun.holdsObfuscator
  | .worker .timers => w.timers.holdsObfuscator

/-- Each lock is held by the thread that stands between two steps which need it. -/
structure Locked (w : TunnelState) : Prop where
  engine : Held w.shared.engine w.holdsEngine
  obfuscator : Held w.shared.obfuscator w.holdsObfuscator

/-- What a step of a thread does to the two locks, with where the thread stands before it and after
it. -/
structure LocksMove (t : TunnelThread) (m m' : TunnelShared) (engine engine' obfuscator
    obfuscator' : Bool) : Prop where
  engine : LockMove t m.engine engine m'.engine engine'
  obfuscator : LockMove t m.obfuscator obfuscator m'.obfuscator obfuscator'

variable {o : Obfuscator} {useStun : Bool} {m m' : TunnelShared} {es : List TunnelEvent}
  {waiting : Bool}

/-- Most steps leave both locks alone. -/
theorem LocksMove.refl {t : TunnelThread} {engine obfuscator : Bool} :
    LocksMove t m m engine engine obfuscator obfuscator :=
  ⟨.keep, .keep⟩

/-- The engine is taken when it is free, -/
theorem LocksMove.takeEngine {t : TunnelThread} {obfuscator : Bool} (hfree : ¬ m.engine.isSome) :
    LocksMove t m { m with engine := some t } false true obfuscator obfuscator := by
  refine ⟨?_, .keep⟩
  rw [Option.not_isSome_iff_eq_none.mp hfree]
  exact .take

/-- and given back. -/
theorem LocksMove.giveEngine {t : TunnelThread} {obfuscator : Bool} :
    LocksMove t m { m with engine := none } true false obfuscator obfuscator :=
  ⟨.giveBack, .keep⟩

/-- To send, a thread takes the obfuscator and gives it back, and leaves the engine as it is. -/
theorem sendStep_locks {t : TunnelThread} {s : SendPc} {a : SendAction} {next : Option SendPc}
    (h : sendStep o useStun t m s a = some (m', next, es)) :
    m'.engine = m.engine
      ∧ LockMove t m.obfuscator s.encodes m'.obfuscator (next.elim false SendPc.encodes) := by
  unfold sendStep at h
  split at h
  · split at h
    · cases h
    · next hfree =>
      cases h
      refine ⟨rfl, ?_⟩
      rw [Option.not_isSome_iff_eq_none.mp hfree]
      exact .take
  · cases h; exact ⟨rfl, .giveBack⟩
  · cases h; exact ⟨rfl, .keep⟩
  · cases h

/-- A thread that sends keeps the engine, if it has it. -/
theorem LocksMove.of_send {t : TunnelThread} {s : SendPc} {a : SendAction} {next : Option SendPc}
    {engine : Bool} (h : sendStep o useStun t m s a = some (m', next, es)) :
    LocksMove t m m' engine engine s.encodes (next.elim false SendPc.encodes) := by
  obtain ⟨hengine, hobfuscator⟩ := sendStep_locks h
  refine ⟨?_, hobfuscator⟩
  rw [hengine]
  exact .keep

/-- Or gives it back when the packet is sent. -/
theorem LocksMove.of_sent {t : TunnelThread} {s : SendPc} {a : SendAction}
    (h : sendStep o useStun t m s a = some (m', none, es)) :
    LocksMove t m { m' with engine := none } true false s.encodes false :=
  ⟨.giveBack, (sendStep_locks h).2⟩

/-- The main thread holds the engine over the initiation, and to read its statistics. -/
theorem mainStep_locks {hasEnded : WorkerKind → Bool} {pc pc' : MainPc} {a : MainAction}
    (h : mainStep o useStun hasEnded m pc a = some (m', pc', es)) :
    LocksMove .main m m' pc.holdsEngine pc'.holdsEngine pc.holdsObfuscator
      pc'.holdsObfuscator := by
  unfold mainStep at h
  split at h
  · next res =>
    split at h
    · cases h
    · -- an answer without a packet lets the engine go at once
      next hfree => cases res <;> cases h <;> first | exact .takeEngine hfree | exact .refl
  · split at h
    · next hsend => cases h; exact .of_send hsend
    · next hsend => cases h; exact .of_sent hsend
    · cases h
  · cases h; exact .refl
  · cases h; exact .refl
  · cases h
    -- the monitor loop tests the flag with no lock in its hands
    cases m.running <;> exact .refl
  · split at h
    · cases h
    · next hfree => cases h; exact .takeEngine hfree
  · cases h; exact .giveEngine
  · cases h; exact ⟨.keep, .keep⟩
  · next kind =>
    split at h <;> cases h
    -- a worker is joined
    cases kind <;> exact .refl
  · cases h

/-- Worker 1 gives the engine back in the step in which it takes it. -/
theorem tunToUdpStep_locks {pc pc' : TunToUdpPc} {a : TunToUdpAction}
    (h : tunToUdpStep o useStun m pc a = some (m', pc', es)) :
    LocksMove (.worker .tunToUdp) m m' false false pc.holdsObfuscator pc'.holdsObfuscator := by
  unfold tunToUdpStep at h
  split at h
  · cases h
    cases m.running <;> exact .refl
  · cases h; exact .refl
  · split at h <;> cases h
    exact .refl
  · cases h; exact .refl
  · next packet res =>
    split at h
    · cases h
    · -- the guard of the engine ends with the call, before the packet is sent
      cases res <;> cases h <;> exact .refl
  · split at h
    · next hsend => cases h; exact .of_send hsend
    · next hsend => cases h; exact .of_send hsend
    · cases h
  · cases h

/-- Whatever the engine has answered, worker 2 still has it. -/
theorem UdpToTunPc.answered_holds (res : TunnResult) :
    (answered res).holdsEngine = true ∧ (answered res).holdsObfuscator = false := by
  cases res <;> exact ⟨rfl, rfl⟩

/-- Worker 2 holds the engine from its first call to its last, and the obfuscator to decode. -/
theorem udpToTunStep_locks {pc pc' : UdpToTunPc} {a : UdpToTunAction}
    (h : udpToTunStep o useStun m pc a = some (m', pc', es)) :
    LocksMove (.worker .udpToTun) m m' pc.holdsEngine pc'.holdsEngine pc.holdsObfuscator
      pc'.holdsObfuscator := by
  unfold udpToTunStep at h
  split at h
  · cases h
    cases m.running <;> exact .refl
  · split at h <;> cases h <;> exact .refl
  · next timedOut =>
    cases h
    cases timedOut || m.running <;> exact .refl
  · split at h
    · cases h
    · next hfree =>
      cases h
      refine ⟨.keep, ?_⟩
      rw [Option.not_isSome_iff_eq_none.mp hfree]
      exact .take
  · next payload =>
    cases h
    -- the obfuscator is let go before the engine is asked for
    cases decodePayload o payload <;> exact ⟨.keep, .giveBack⟩
  · next plain res =>
    split at h
    · cases h
    · next hfree =>
      cases h
      rw [(UdpToTunPc.answered_holds res).1, (UdpToTunPc.answered_holds res).2]
      -- from here on until `unlocking`
      exact .takeEngine hfree
  · cases h; exact .refl
  · split at h
    · next hsend => cases h; exact .of_send hsend
    · next hsend => cases h; exact .of_send hsend
    · cases h
  · next res =>
    cases h
    rw [(UdpToTunPc.answered_holds res).1, (UdpToTunPc.answered_holds res).2]
    exact .refl
  · cases h; exact .giveEngine
  · cases h

/-- Worker 3 holds the engine over a packet that it has to send. -/
theorem timersStep_locks {pc pc' : TimersPc} {a : TimersAction}
    (h : timersStep o useStun m pc a = some (m', pc', es)) :
    LocksMove (.worker .timers) m m' pc.holdsEngine pc'.holdsEngine pc.holdsObfuscator
      pc'.holdsObfuscator := by
  unfold timersStep at h
  split at h
  · cases h
    cases m.running <;> exact .refl
  · next res =>
    split at h
    · cases h
    · -- the same as the initiation of the main thread
      next hfree => cases res <;> cases h <;> first | exact .takeEngine hfree | exact .refl
  · split at h
    · next hsend => cases h; exact .of_send hsend
    · next hsend => cases h; exact .of_sent hsend
    · cases h
  · cases h; exact .refl
  · cases h

variable {w w' : TunnelState} {a : TunnelAction} {acts : List TunnelAction}

/-- No thread begins with a lock. -/
theorem Locked.init : Locked tunnelInit where
  engine := .of_free fun t => by rcases t with _ | _ | _ | _ <;> rfl
  obfuscator := .of_free fun t => by rcases t with _ | _ | _ | _ <;> rfl

/-- The other threads stay where they are. -/
theorem Locked.move {t : TunnelThread} (h : Locked w)
    (hmove : LocksMove t w.shared w'.shared (w.holdsEngine t) (w'.holdsEngine t)
      (w.holdsObfuscator t) (w'.holdsObfuscator t))
    (hothers : ∀ u, u ≠ t → w'.holdsEngine u = w.holdsEngine u
      ∧ w'.holdsObfuscator u = w.holdsObfuscator u) : Locked w' :=
  ⟨h.engine.move hmove.engine fun u hu => (hothers u hu).1,
    h.obfuscator.move hmove.obfuscator fun u hu => (hothers u hu).2⟩

/-- **Each step moves the locks of one thread.** -/
theorem Locked.step (h : Locked w) (hstep : tunnelStep o useStun w a = some w') : Locked w' := by
  cases tunnelStep_move hstep with
  | stop => exact ⟨h.engine, h.obfuscator⟩
  | main hst =>
    refine h.move (t := .main) (mainStep_locks hst) fun u hu => ?_
    rcases u with _ | _ | _ | _ <;> first | exact absurd rfl hu | exact ⟨rfl, rfl⟩
  | tunToUdp _ hst =>
    refine h.move (t := .worker .tunToUdp) (tunToUdpStep_locks hst) fun u hu => ?_
    rcases u with _ | _ | _ | _ <;> first | exact absurd rfl hu | exact ⟨rfl, rfl⟩
  | udpToTun _ hst =>
    refine h.move (t := .worker .udpToTun) (udpToTunStep_locks hst) fun u hu => ?_
    rcases u with _ | _ | _ | _ <;> first | exact absurd rfl hu | exact ⟨rfl, rfl⟩
  | timers _ hst =>
    refine h.move (t := .worker .timers) (timersStep_locks hst) fun u hu => ?_
    rcases u with _ | _ | _ | _ <;> first | exact absurd rfl hu | exact ⟨rfl, rfl⟩

/-! ## The calls -/

/-- Worker 2 owes the engine a call. -/
def UdpToTunPc.owes : UdpToTunPc → Bool
  | writing _ | sending _ | polling => true
  | _ => false

/-- Who owes a call has not let the engine go. -/
theorem UdpToTunPc.holdsEngine_of_owes {pc : UdpToTunPc} (h : pc.owes = true) :
    pc.holdsEngine = true := by
  cases pc with
  | writing | sending | polling => rfl
  | _ => cases h

/-- A call is owed after an answer with a packet. -/
theorem UdpToTunPc.answered_owes (res : TunnResult) : (answered res).owes = res.wantsMore := by
  cases res <;> rfl

/-- A keepalive is not a call. -/
theorem monitor_sendRequest (txid : Txid) (taken : Bool) :
    (sendRequest useStun txid taken).foldlM engineMonitor waiting = some waiting := by
  cases useStun <;> rfl

/-- To send a packet no call is made. -/
theorem sendStep_monitor {t : TunnelThread} {s : SendPc} {a : SendAction} {next : Option SendPc}
    (h : sendStep o useStun t m s a = some (m', next, es)) :
    es.foldlM engineMonitor waiting = some waiting := by
  unfold sendStep at h
  split at h
  · split at h <;> cases h
    rfl
  · cases h; rfl
  · cases h; rfl
  · cases h

/-- The main thread calls the engine only when nobody holds it. -/
theorem mainStep_monitor {hasEnded : WorkerKind → Bool} {pc pc' : MainPc} {a : MainAction}
    (hfree : m.engine = none → waiting = false)
    (h : mainStep o useStun hasEnded m pc a = some (m', pc', es)) :
    es.foldlM engineMonitor waiting = some waiting := by
  unfold mainStep at h
  split at h
  · next res =>
    split at h
    · cases h
    · next hlock =>
      rw [hfree (Option.not_isSome_iff_eq_none.mp hlock)]
      -- nothing is owed while the engine is free
      cases res <;> cases h <;> rfl
  · split at h
    · next hsend => cases h; exact sendStep_monitor hsend
    · next hsend => cases h; exact sendStep_monitor hsend
    · cases h
  · cases h; exact monitor_sendRequest _ _
  · cases h; rfl
  · cases h; rfl
  · split at h
    · cases h
    · next hlock =>
      rw [hfree (Option.not_isSome_iff_eq_none.mp hlock)]
      cases h
      rfl
  · cases h; rfl
  · cases h; rfl
  · split at h <;> cases h
    rfl
  · cases h

/-- Worker 1 calls the engine only when nobody holds it. -/
theorem tunToUdpStep_monitor {pc pc' : TunToUdpPc} {a : TunToUdpAction}
    (hfree : m.engine = none → waiting = false)
    (h : tunToUdpStep o useStun m pc a = some (m', pc', es)) :
    es.foldlM engineMonitor waiting = some waiting := by
  unfold tunToUdpStep at h
  split at h
  · cases h; rfl
  · cases h; rfl
  · split at h <;> cases h
    rfl
  · cases h; rfl
  · next packet res =>
    split at h
    · cases h
    · next hlock =>
      rw [hfree (Option.not_isSome_iff_eq_none.mp hlock)]
      cases res <;> cases h <;> rfl
  · split at h
    · next hsend => cases h; exact sendStep_monitor hsend
    · next hsend => cases h; exact sendStep_monitor hsend
    · cases h
  · cases h

/-- And so does worker 3. -/
theorem timersStep_monitor {pc pc' : TimersPc} {a : TimersAction}
    (hfree : m.engine = none → waiting = false)
    (h : timersStep o useStun m pc a = some (m', pc', es)) :
    es.foldlM engineMonitor waiting = some waiting := by
  unfold timersStep at h
  split at h
  · cases h; rfl
  · next res =>
    split at h
    · cases h
    · next hlock =>
      rw [hfree (Option.not_isSome_iff_eq_none.mp hlock)]
      cases res <;> cases h <;> rfl
  · split at h
    · next hsend => cases h; exact sendStep_monitor hsend
    · next hsend => cases h; exact sendStep_monitor hsend
    · cases h
  · next due txid taken =>
    cases h
    cases due with
    | false => rfl
    | true => exact monitor_sendRequest _ _
  · cases h

/-- Worker 2 makes the calls that it owes. -/
theorem udpToTunStep_monitor {pc pc' : UdpToTunPc} {a : UdpToTunAction} (hpc : pc.Sound)
    (h : udpToTunStep o useStun m pc a = some (m', pc', es)) :
    es.foldlM engineMonitor pc.owes = some pc'.owes := by
  unfold udpToTunStep at h
  split at h
  · cases h; cases m.running <;> rfl
  · split at h <;> cases h <;> rfl
  · next timedOut => cases h; cases timedOut || m.running <;> rfl
  · split at h <;> cases h
    rfl
  · next payload => cases h; cases decodePayload o payload <;> rfl
  · next plain res =>
    split at h <;> cases h
    have hplain : plain.isEmpty = false := hpc
    rw [UdpToTunPc.answered_owes]
    simp only [List.foldlM_cons, engineMonitor, UdpToTunPc.owes, hplain, if_true]
    rfl
  · cases h; rfl
  · split at h
    · next hsend => cases h; exact sendStep_monitor hsend
    · next hsend => cases h; exact sendStep_monitor hsend
    · cases h
  · next res =>
    cases h
    rw [UdpToTunPc.answered_owes]
    rfl
  · cases h; rfl
  · cases h

/-! ## Runs -/

/-- The state of the rule is what worker 2 owes. -/
def Obeyed (w : TunnelState) : Prop :=
  w.events.foldlM engineMonitor false = some w.udpToTun.owes

/-- The new calls are checked after the old ones. -/
theorem Obeyed.extend {new : List TunnelEvent} (h : Obeyed w)
    (hnew : new.foldlM engineMonitor w.udpToTun.owes = some w'.udpToTun.owes)
    (hevents : w'.events = w.events ++ new) : Obeyed w' := by
  have hbefore : w.events.foldlM engineMonitor false = some w.udpToTun.owes := h
  -- the rule goes on from where the old calls have left it
  rw [Obeyed, hevents, List.foldlM_append, hbefore]
  exact hnew

/-- **Each step obeys**, since who calls has found the engine free, or is the one who owes. -/
theorem Obeyed.step (h : Obeyed w) (hsound : w.udpToTun.Sound) (hlocked : Locked w)
    (hstep : tunnelStep o useStun w a = some w') : Obeyed w' := by
  -- a free engine is owed nothing
  have hfree : w.shared.engine = none → w.udpToTun.owes = false := by
    intro hlock
    rw [← Bool.not_eq_true]
    intro howes
    have hheld := (hlocked.engine (.worker .udpToTun)).mpr (UdpToTunPc.holdsEngine_of_owes howes)
    rw [hlock] at hheld
    cases hheld
  cases tunnelStep_move hstep with
  | stop => exact h
  | main hst => exact h.extend (mainStep_monitor hfree hst) rfl
  | tunToUdp _ hst => exact h.extend (tunToUdpStep_monitor hfree hst) rfl
  | udpToTun _ hst => exact h.extend (udpToTunStep_monitor hsound hst) rfl
  | timers _ hst => exact h.extend (timersStep_monitor hfree hst) rfl

/-- **The engine is used as it asks for**, in every interleaving of the threads and whatever it
answers: its calls follow the rule, and no two threads hold it at a time, nor the obfuscator. -/
theorem engine_use (hrun : Run (tunnelStep o useStun) anyStep tunnelInit acts w) :
    (∃ waiting, w.events.foldlM engineMonitor false = some waiting)
      ∧ (∀ t u, w.holdsEngine t = true → w.holdsEngine u = true → t = u)
      ∧ ∀ t u, w.holdsObfuscator t = true → w.holdsObfuscator u = true → t = u := by
  have hinv : w.udpToTun.Sound ∧ Locked w ∧ Obeyed w := by
    refine hrun.invariant (P := fun w => w.udpToTun.Sound ∧ Locked w ∧ Obeyed w)
      ⟨trivial, .init, rfl⟩ ?_
    rintro v b u ⟨hsound, hlocked, hobeyed⟩ - hstep
    exact ⟨hsound.step hstep, hlocked.step hstep, hobeyed.step hsound hlocked hstep⟩
  obtain ⟨-, hlocked, hobeyed⟩ := hinv
  exact ⟨⟨_, hobeyed⟩, fun t u => hlocked.engine.unique, fun t u => hlocked.obfuscator.unique⟩

/-- Worker 2 holds the engine while worker 1 waits, and both are served. -/
theorem engine_use_exchange : ∃ w : TunnelState,
    (w.events.flatMap TunnelEvent.encapsulated = [[69, 0]] ∧ w.shared.engine = none)
      ∧ (∃ waiting, w.events.foldlM engineMonitor false = some waiting)
      ∧ ∀ t u, w.holdsEngine t = true → w.holdsEngine u = true → t = u := by
  have hexec : (exec (tunnelStep sampleObfuscator true) tunnelInit sampleExchange).any (fun w =>
      decide (w.events.flatMap TunnelEvent.encapsulated = [[69, 0]]
        ∧ w.shared.engine = none)) = true := by
    decide +kernel
  obtain ⟨w, hrun, hw⟩ := Run.of_exec_any hexec
  obtain ⟨hrule, hengine, -⟩ := engine_use hrun
  exact ⟨w, of_decide_eq_true hw, hrule, hengine⟩

end Phobos
