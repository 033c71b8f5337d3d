import PhobosClient.Lib.Refine
import PhobosClient.Service.Connected
import PhobosClient.Service.Names
import PhobosClient.Service.Rest

/-!
# PhobosClient — the traffic of a session (`src/tunnel_service.rs`)

Every session counts the bytes that it sends and receives. Twice a second its monitor loop loads
the two counts, one after the other, asks the engine for the age of the handshake, and writes all
three into the one `TunnelStats` that the sessions share and the window shows. `start` resets it
after it has made the status `Connecting`.

The sessions are those of `serviceStep` (`meteredStep_simulates`). **`stats_are_own`**: if `start`
never gives up waiting, then whenever it is not at work the statistics are blank or were taken by
the newest session, of its own counts. Otherwise the session before may write over them:
`stats_of_another`.

Not modelled: the rates, which are floating-point numbers, and the length of a round.
-/

namespace Phobos

open Threads Steps

structure TunnelStats where
  bytesSent : UInt64
  bytesRecv : UInt64
  lastHandshakeSecs : Option Nat
  deriving DecidableEq

/-- `TunnelStats::default`. -/
def TunnelStats.blank : TunnelStats := ⟨0, 0, none⟩

/-- How far a round of the monitor loop has come. -/
inductive RoundPc where
  | top
  | loadedSent (sent : UInt64)
  | loadedBoth (sent recv : UInt64)
  /-- the handshake has been looked at -/
  | publishing (stats : TunnelStats)

/-- What a session counts in. -/
structure Meter where
  bytesSent : UInt64
  bytesRecv : UInt64
  round : RoundPc

def newMeter : Meter := ⟨0, 0, .top⟩

structure Metered where
  world : World
  stats : TunnelStats
  /-- `start` has reset the statistics and not spawned the session yet -/
  reset : Bool
  /-- those of the sessions, in their order -/
  meters : List Meter

def meteredInit (table : RouteTable) : Metered := ⟨serviceInit table, .blank, false, []⟩

inductive MeterAction where
  | step (a : SessionAction)
  | send (n : Nat)
  | receive (n : Nat)
  | loadSent
  | loadRecv
  | observe (sinceHandshake : Option Nat)
  | publish

inductive MeteredAction where
  | gui (a : GuiAction)
  | resetStats
  | session (i : Nat) (a : MeterAction)

/-- About to spawn a session. -/
def GuiPc.spawns : GuiPc → Bool
  | spawn _ => true
  | _ => false

namespace SessionPc

/-- The thread sends the initiation, or its first worker is at work. -/
def sends : SessionPc → Bool
  | publishConnecting _ => true
  | pc => pc.workers.any fun w => w.kind == .tunToUdp && w.running

def receives (pc : SessionPc) : Bool := pc.workers.any fun w => w.kind == .udpToTun && w.running

def observes : SessionPc → Bool
  | observe _ _ _ => true
  | _ => false

def tests : SessionPc → Bool
  | monitor _ _ _ => true
  | _ => false

end SessionPc

def RoundPc.isTop : RoundPc → Bool
  | top => true
  | _ => false

/-- The step of the session that comes with an action. -/
def MeterAction.session : MeterAction → Option SessionAction
  | step a => some a
  | observe since => some (.observed since.isSome)
  | _ => none

def MeteredAction.service : MeteredAction → Option ServiceAction
  | gui a => some (.gui a)
  | resetStats => none
  | session i a => a.session.map (.session i)

/-- An engine is only looked at when the counts have been loaded, and a round that has been begun
ends before the next one. -/
def holdsBack (pc : SessionPc) (round : RoundPc) : SessionAction → Bool
  | .observed _ => true
  | .go => pc.tests && !round.isTop
  | _ => false

def meterStep (pc : SessionPc) (meter : Meter) : MeterAction → Option Meter
  | .step a => if holdsBack pc meter.round a then none else some meter
  | .send n =>
    if pc.sends then some { meter with bytesSent := meter.bytesSent + .ofNat n } else none
  | .receive n =>
    if pc.receives then some { meter with bytesRecv := meter.bytesRecv + .ofNat n } else none
  | .loadSent =>
    match meter.round with
    | .top => if pc.observes then some { meter with round := .loadedSent meter.bytesSent } else none
    | _ => none
  | .loadRecv =>
    match meter.round with
    | .loadedSent sent => some { meter with round := .loadedBoth sent meter.bytesRecv }
    | _ => none
  | .observe since =>
    match meter.round with
    | .loadedBoth sent recv => some { meter with round := .publishing ⟨sent, recv, since⟩ }
    | _ => none
  | .publish =>
    match meter.round with
    | .publishing _ => if pc.tests then some { meter with round := .top } else none
    | _ => none

/-- The statistics after an action of a session. -/
def Meter.write (meter : Meter) (stats : TunnelStats) : MeterAction → TunnelStats
  | .publish =>
    match meter.round with
    | .publishing own => own
    | _ => stats
  | _ => stats

def meteredStep (m : Metered) : MeteredAction → Option Metered
  | .gui a =>
    if m.world.gui.spawns && !m.reset then none
    else (guiStep m.world a).map fun world =>
      { m with
        world
        reset := false
        meters := if m.world.gui.spawns then m.meters ++ [newMeter] else m.meters }
  | .resetStats =>
    if m.world.gui.spawns && !m.reset then some { m with stats := .blank, reset := true } else none
  | .session i a =>
    match m.world.sessions[i]?, m.meters[i]? with
    | some s, some meter =>
      match meterStep s.pc meter a with
      | some meter' =>
        let after world : Metered :=
          { m with world, stats := meter.write m.stats a, meters := m.meters.set i meter' }
        match a.session with
        | some b => (serviceStep m.world (.session i b)).map after
        | none => some (after m.world)
      | none => none
    | _, _ => none

/-! ## What a step can do -/

variable {m m' : Metered} {a : MeteredAction}

/-- What an action means to the thread of the session. -/
def MeterAction.Moves (a : MeterAction) (w : World) (s s' : Session) : Prop :=
  (a.session = none ∧ s' = s) ∨
    ∃ b shared, a.session = some b ∧ s.pc.step s.profile w.shared b = some (shared, s'.pc)

/-- **A session and its meter move together.** -/
theorem meteredStep_session {i : Nat} {a : MeterAction}
    (h : meteredStep m (.session i a) = some m') :
    ∃ s s' meter meter', m.world.sessions[i]? = some s ∧ m.meters[i]? = some meter
      ∧ meterStep s.pc meter a = some meter' ∧ a.Moves m.world s s'
      ∧ m'.world.sessions = m.world.sessions.set i s' ∧ m'.world.gui = m.world.gui
      ∧ m'.meters = m.meters.set i meter' ∧ m'.stats = meter.write m.stats a
      ∧ m'.reset = m.reset := by
  simp only [meteredStep] at h
  split at h
  · next s meter hs hmeter =>
    split at h
    · next meter' hst =>
      split at h
      · next b hb =>
        obtain ⟨world, hworld, rfl⟩ := Option.map_eq_some_iff.mp h
        rcases serviceStep_cases hworld with ⟨g, hg, -⟩ | ⟨j, c, shared, ss', hj, hpool, rfl⟩
        · cases hg
        · cases hj
          obtain ⟨t, t', ht, htstep, rfl⟩ := stepAt_cases hpool
          rw [hs] at ht
          cases ht
          -- the session takes the step that comes with the action
          refine ⟨s, t', meter, meter', hs, hmeter, hst, .inr ⟨b, shared, hb, ?_⟩, rfl, rfl, rfl,
            rfl, rfl⟩
          exact (Session.step_spec htstep).2
      · next hb =>
        cases h
        -- or only its meter moves
        refine ⟨s, s, meter, meter', hs, hmeter, hst, .inl ⟨hb, rfl⟩, ?_, rfl, rfl, rfl, rfl⟩
        obtain ⟨hlt, rfl⟩ := List.getElem?_eq_some_iff.mp hs
        exact (List.set_getElem_self hlt).symm
    · cases h
  · cases h

/-- **The sessions are those of the service.** -/
theorem meteredStep_simulates :
    Simulates meteredStep serviceStep Metered.world MeteredAction.service := by
  intro m a m' h
  cases a with
  | gui a =>
    simp only [meteredStep] at h
    split at h
    · cases h
    · obtain ⟨world, hworld, rfl⟩ := Option.map_eq_some_iff.mp h
      exact hworld
  | resetStats =>
    simp only [meteredStep] at h
    split at h <;> cases h
    rfl
  | session i a =>
    simp only [meteredStep] at h
    split at h
    · split at h
      · split at h
        · next b hb =>
          obtain ⟨world, hworld, rfl⟩ := Option.map_eq_some_iff.mp h
          simp only [MeteredAction.service, hb, Option.map_some]
          exact hworld
        · next hb =>
          cases h
          simp only [MeteredAction.service, hb, Option.map_none]
      · cases h
    · cases h

namespace SessionPc

variable {profile : PhobosProfile} {shared shared' : Shared} {pc pc' : SessionPc}
  {a : SessionAction}

/-- The workers do not say whether the thread monitors. -/
theorem monitors_setWorkers (ws : List Worker) : (pc.setWorkers ws).monitors = pc.monitors := by
  cases pc <;> rfl

/-- The engine is looked at in the monitor loop. -/
theorem monitors_of_observes (h : pc.observes = true) : pc.monitors = true := by
  cases pc with
  | observe => rfl
  | _ => cases h

/-- And so is the stop signal. -/
theorem monitors_of_tests (h : pc.tests = true) : pc.monitors = true := by
  cases pc with
  | monitor => rfl
  | _ => cases h

/-- A session that monitors has not published its end. -/
theorem published_of_monitors (h : pc.monitors = true) : pc.published = false := by
  cases pc with
  | monitor | observe | publishConnected => rfl
  | _ => cases h

/-- The loop is only left where it tests the stop signal. -/
theorem monitors_step (h : pc.step profile shared a = some (shared', pc'))
    (hmonitors : pc.monitors = true) (hgo : a = .go → pc.tests = false) :
    pc'.monitors = true := by
  cases a with
  | go =>
    -- only `monitor` leaves the loop, and it is where the signal is tested
    have htests := hgo rfl
    cases pc with
    | publishConnected => cases h; rfl
    | monitor => cases htests
    | observe => cases h
    | _ => cases hmonitors
  | observed handshake =>
    cases pc with
    | observe dev ws logged =>
      simp only [step] at h
      cases h
      split <;> rfl
    | _ => cases h
  | workerLoads i =>
    simp only [step] at h
    split at h
    · split at h
      · cases h
        split
        · rw [stopWorker, monitors_setWorkers]
          exact hmonitors
        · exact hmonitors
      · cases h
    · cases h
  | workerCutOff i =>
    simp only [step] at h
    split at h
    · split at h
      · cases h
        rw [stopWorker, monitors_setWorkers]
        exact hmonitors
      · cases h
    · cases h
  | _ =>
    cases pc with
    | monitor | observe | publishConnected => cases h
    | _ => cases hmonitors

end SessionPc

/-! ## Counts -/

/-- The bytes that an action counts as sent by the session at position `i`. -/
def sentBy (i : Nat) : MeteredAction → Nat
  | .session j (.send n) => if j = i then n else 0
  | _ => 0

def receivedBy (i : Nat) : MeteredAction → Nat
  | .session j (.receive n) => if j = i then n else 0
  | _ => 0

def total (amount : MeteredAction → Nat) (acts : List MeteredAction) : Nat :=
  acts.foldl (fun n a => n + amount a) 0

variable {acts : List MeteredAction} {i : Nat} {stats : TunnelStats}

/-- One action more. -/
theorem total_concat (amount : MeteredAction → Nat) (acts : List MeteredAction)
    (a : MeteredAction) : total amount (acts ++ [a]) = total amount acts + amount a := by
  rw [total, List.foldl_append]
  rfl

/-- The statistics were taken by the session at position `i`: the two counts as they were at some
moment of the run each, and what it was told of the handshake. -/
def TakenBy (acts : List MeteredAction) (i : Nat) (stats : TunnelStats) : Prop :=
  ∃ earlier later, earlier <+: later ∧ later <+: acts
    ∧ stats.bytesSent = .ofNat (total (sentBy i) earlier)
    ∧ stats.bytesRecv = .ofNat (total (receivedBy i) later)
    ∧ .session i (.observe stats.lastHandshakeSecs) ∈ acts

/-- What has been taken once stays taken. -/
theorem TakenBy.extend (h : TakenBy acts i stats) (a : MeteredAction) :
    TakenBy (acts ++ [a]) i stats := by
  obtain ⟨earlier, later, hle, hacts, hsent, hrecv, hobserved⟩ := h
  exact ⟨earlier, later, hle, hacts.trans (List.prefix_append _ _), hsent, hrecv,
    List.mem_append_left _ hobserved⟩

/-- What a round has loaded. -/
def RoundPc.Loaded (acts : List MeteredAction) (i : Nat) : RoundPc → Prop
  | top => True
  | loadedSent sent => ∃ earlier, earlier <+: acts ∧ sent = .ofNat (total (sentBy i) earlier)
  | loadedBoth sent recv => ∃ earlier later, earlier <+: later ∧ later <+: acts
    ∧ sent = .ofNat (total (sentBy i) earlier) ∧ recv = .ofNat (total (receivedBy i) later)
  | publishing stats => TakenBy acts i stats

/-- What a round has loaded were counts of the run, and remain so. -/
theorem RoundPc.Loaded.extend {round : RoundPc} (h : round.Loaded acts i) (a : MeteredAction) :
    round.Loaded (acts ++ [a]) i := by
  cases round with
  | top => trivial
  | loadedSent sent =>
    obtain ⟨earlier, hacts, hsent⟩ := h
    exact ⟨earlier, hacts.trans (List.prefix_append _ _), hsent⟩
  | loadedBoth sent recv =>
    obtain ⟨earlier, later, hle, hacts, hsent, hrecv⟩ := h
    exact ⟨earlier, later, hle, hacts.trans (List.prefix_append _ _), hsent, hrecv⟩
  | publishing stats => exact TakenBy.extend h a

/-- What holds of a session and its meter. -/
structure Counts (acts : List MeteredAction) (i : Nat) (pc : SessionPc) (meter : Meter) :
    Prop where
  sent : meter.bytesSent = .ofNat (total (sentBy i) acts)
  recv : meter.bytesRecv = .ofNat (total (receivedBy i) acts)
  loaded : meter.round.Loaded acts i
  /-- a round takes place in the monitor loop -/
  within : meter.round.isTop = false → pc.monitors = true

variable {pc : SessionPc} {meter meter' : Meter}

/-- An action that sends nothing leaves the count. -/
theorem Counts.sent_extend (h : Counts acts i pc meter) (hsent : sentBy i a = 0) :
    meter.bytesSent = .ofNat (total (sentBy i) (acts ++ [a])) := by
  rw [total_concat, hsent]
  exact h.sent

/-- Nor does one that receives nothing change it. -/
theorem Counts.recv_extend (h : Counts acts i pc meter) (hrecv : receivedBy i a = 0) :
    meter.bytesRecv = .ofNat (total (receivedBy i) (acts ++ [a])) := by
  rw [total_concat, hrecv]
  exact h.recv

/-- The actions of others do not count. -/
theorem Counts.extend (h : Counts acts i pc meter) (hsent : sentBy i a = 0)
    (hrecv : receivedBy i a = 0) : Counts (acts ++ [a]) i pc meter :=
  ⟨h.sent_extend hsent, h.recv_extend hrecv, h.loaded.extend a, h.within⟩

/-- **The step of a meter.** -/
theorem Counts.step {b : MeterAction} {w : World} {s s' : Session} (h : Counts acts i s.pc meter)
    (hstep : meterStep s.pc meter b = some meter') (hmoves : b.Moves w s s') :
    Counts (acts ++ [.session i b]) i s'.pc meter' := by
  have hsame : b.session = none → s'.pc = s.pc := by
    intro hnone
    rcases hmoves with ⟨-, rfl⟩ | ⟨c, _, hsome, -⟩
    · rfl
    · rw [hnone] at hsome
      cases hsome
  cases b with
  | step c =>
    simp only [meterStep] at hstep
    split at hstep <;> cases hstep
    next hfree =>
    refine ⟨h.sent_extend rfl, h.recv_extend rfl, h.loaded.extend _, fun hround => ?_⟩
    rcases hmoves with ⟨hnone, -⟩ | ⟨d, shared, hsome, hst⟩
    · cases hnone
    · cases hsome
      refine SessionPc.monitors_step hst (h.within hround) fun hgo => ?_
      -- the next test waits for the end of the round
      rw [hgo] at hfree
      simpa [holdsBack, hround] using hfree
  | send n =>
    simp only [meterStep] at hstep
    split at hstep <;> cases hstep
    refine ⟨?_, h.recv_extend rfl, h.loaded.extend _, ?_⟩
    · rw [total_concat]
      show meter.bytesSent + .ofNat n = .ofNat (_ + if i = i then n else 0)
      -- the counter wraps as the sum does
      rw [if_pos rfl, UInt64.ofNat_add, h.sent]
    · rw [hsame rfl]
      exact h.within
  | receive n =>
    simp only [meterStep] at hstep
    split at hstep <;> cases hstep
    refine ⟨h.sent_extend rfl, ?_, h.loaded.extend _, ?_⟩
    · rw [total_concat]
      show meter.bytesRecv + .ofNat n = .ofNat (_ + if i = i then n else 0)
      rw [if_pos rfl, UInt64.ofNat_add, h.recv]
    · rw [hsame rfl]
      exact h.within
  | loadSent =>
    simp only [meterStep] at hstep
    split at hstep
    · split at hstep <;> cases hstep
      next hobserves =>
      refine ⟨h.sent_extend rfl, h.recv_extend rfl,
        ⟨acts, List.prefix_append _ _, h.sent⟩, fun _ => ?_⟩
      rw [hsame rfl]
      exact SessionPc.monitors_of_observes hobserves
    · cases hstep
  | loadRecv =>
    simp only [meterStep] at hstep
    split at hstep <;> cases hstep
    next sent hround =>
    -- the bytes sent were loaded earlier, those received are loaded now
    have hloaded := h.loaded
    rw [hround] at hloaded
    obtain ⟨earlier, hearlier, hsent⟩ := hloaded
    refine ⟨h.sent_extend rfl, h.recv_extend rfl,
      ⟨earlier, acts, hearlier, List.prefix_append _ _, hsent, h.recv⟩, fun _ => ?_⟩
    rw [hsame rfl]
    exact h.within (by rw [hround]; rfl)
  | observe since =>
    simp only [meterStep] at hstep
    split at hstep <;> cases hstep
    next sent recv hround =>
    -- both counts are there; the handshake comes with this very action
    have hloaded := h.loaded
    rw [hround] at hloaded
    obtain ⟨earlier, later, hle, hlater, hsent, hrecv⟩ := hloaded
    refine ⟨h.sent_extend rfl, h.recv_extend rfl,
      ⟨earlier, later, hle, hlater.trans (List.prefix_append _ _), hsent, hrecv,
        List.mem_append_right _ (List.mem_singleton_self _)⟩, fun _ => ?_⟩
    rcases hmoves with ⟨hnone, -⟩ | ⟨d, shared, hsome, hst⟩
    · cases hnone
    · cases hsome
      refine SessionPc.monitors_step hst (h.within ?_) fun hgo => ?_
      · rw [hround]
        rfl
      · cases hgo
  | publish =>
    simp only [meterStep] at hstep
    split at hstep
    · split at hstep <;> cases hstep
      exact ⟨h.sent_extend rfl, h.recv_extend rfl, trivial, fun htop => by cases htop⟩
    · cases hstep

/-- What a session publishes it has taken in its monitor loop. -/
theorem Counts.write {b : MeterAction} (h : Counts acts i pc meter) (stats : TunnelStats)
    (hstep : meterStep pc meter b = some meter') :
    meter.write stats b = stats ∨ pc.monitors = true ∧ TakenBy acts i (meter.write stats b) := by
  cases b with
  | publish =>
    simp only [meterStep] at hstep
    split at hstep
    · next own hround =>
      split at hstep <;> cases hstep
      next htests =>
      -- the round has been taken, and this action writes it
      have hloaded := h.loaded
      rw [hround] at hloaded
      refine .inr ⟨SessionPc.monitors_of_tests htests, ?_⟩
      simp only [Meter.write, hround]
      exact hloaded
    · cases hstep
  | _ => exact .inl rfl

/-- What another session sends does not count. -/
theorem sentBy_of_ne {j : Nat} (hne : i ≠ j) (b : MeterAction) :
    sentBy j (.session i b) = 0 := by
  cases b with
  | send n => exact if_neg hne
  | _ => rfl

/-- Nor what it receives. -/
theorem receivedBy_of_ne {j : Nat} (hne : i ≠ j) (b : MeterAction) :
    receivedBy j (.session i b) = 0 := by
  cases b with
  | receive n => exact if_neg hne
  | _ => rfl

/-- A session is spawned after the wait. -/
theorem GuiPc.pastWait_of_spawns {gui : GuiPc} (h : gui.spawns = true) : gui.pastWait = true := by
  cases gui with
  | spawn => rfl
  | _ => cases h

/-! ## Whose statistics there are -/

/-- Blank, or of the newest session. -/
def OwnStats (acts : List MeteredAction) (m : Metered) : Prop :=
  m.stats = .blank ∨ ∃ i, i + 1 = m.world.sessions.length ∧ TakenBy acts i m.stats

structure Metering (acts : List MeteredAction) (m : Metered) : Prop where
  single : SingleSession (fun pc => pc.published = true) m.world
  length : m.meters.length = m.world.sessions.length
  counts : ∀ (i : Nat) (s : Session) (meter : Meter), m.world.sessions[i]? = some s →
    m.meters[i]? = some meter → Counts acts i s.pc meter
  /-- the session to come has not counted yet -/
  fresh : ∀ i, m.world.sessions.length ≤ i →
    total (sentBy i) acts = 0 ∧ total (receivedBy i) acts = 0
  reset : m.reset = true → m.world.gui.spawns = true ∧ m.stats = .blank
  own : m.world.gui.pastWait = false → OwnStats acts m

/-- No session has counted anything. -/
theorem Metering.init (table : RouteTable) : Metering [] (meteredInit table) where
  single := .init table
  length := rfl
  counts := by intro i s meter hs; cases hs
  fresh := fun _ _ => ⟨rfl, rfl⟩
  reset := by intro h; cases h
  own := fun _ => .inl rfl

/-- The guard of `serviceStep`, for the steps that the service takes. -/
def gaveUpOn (m : Metered) (a : MeteredAction) : Bool :=
  match a.service with
  | some b => givesUp m.world b
  | none => false

/-- The newest session stays the newest, and what it has taken its own. -/
theorem OwnStats.extend (h : OwnStats acts m) (a : MeteredAction)
    (hlength : m'.world.sessions.length = m.world.sessions.length) (hstats : m'.stats = m.stats) :
    OwnStats (acts ++ [a]) m' := by
  rcases h with hblank | ⟨i, hi, htaken⟩
  · exact .inl (hstats.trans hblank)
  · refine .inr ⟨i, hi.trans hlength.symm, ?_⟩
    rw [hstats]
    exact htaken.extend a

/-- The service keeps to one session, whatever is counted meanwhile. -/
theorem Metering.single_step (h : Metering acts m) (hok : gaveUpOn m a = false)
    (hstep : meteredStep m a = some m') :
    SingleSession (fun pc => pc.published = true) m'.world := by
  have hsim := meteredStep_simulates m a m' hstep
  cases hservice : a.service with
  | none =>
    rw [hservice] at hsim
    -- only a meter has moved
    rw [show m'.world = m.world from hsim]
    exact h.single
  | some b =>
    rw [hservice] at hsim
    simp only [gaveUpOn, hservice] at hok
    exact h.single.step SessionPc.published_stable hok (fun _ hpub => hpub) hsim

/-- A call leaves the sessions alone, and goes on past its wait, or it spawns one. -/
theorem guiStep_sessions {w w' : World} {g : GuiAction} (h : guiStep w g = some w') :
    (w.gui.spawns = false ∧ w'.sessions = w.sessions
        ∧ (w.gui.pastWait = true → w'.gui.pastWait = true))
      ∨ w.gui.spawns = true ∧ ∃ p, w'.sessions = w.sessions ++ [⟨p, .parseConfig⟩] := by
  have hwrite := guiStep_write h
  obtain ⟨shared, gui, ss⟩ := w
  cases gui with
  | spawn p =>
    cases g with
    | go => cases h; exact .inr ⟨rfl, p, rfl⟩
    | _ => cases h
  | clearStop p | writeName p | writeConnecting p =>
    cases g with
    | go => cases h; exact .inl ⟨rfl, rfl, fun _ => rfl⟩
    | _ => cases h
  | _ =>
    cases hwrite with
    | other => exact .inl ⟨rfl, rfl, fun hpast => by cases hpast⟩

/-- The calls of the GUI thread: one session more at most, and it starts with blank statistics. -/
theorem Metering.gui_step {g : GuiAction} (h : Metering acts m)
    (hok : gaveUpOn m (.gui g) = false) (hstep : meteredStep m (.gui g) = some m') :
    Metering (acts ++ [.gui g]) m' := by
  have hsingle := h.single_step hok hstep
  have hcounts : ∀ (i : Nat) (s : Session) (meter : Meter), m.world.sessions[i]? = some s →
      m.meters[i]? = some meter → Counts (acts ++ [.gui g]) i s.pc meter :=
    fun i s meter hs hmeter => (h.counts i s meter hs hmeter).extend rfl rfl
  have hfresh : ∀ i, m.world.sessions.length ≤ i →
      total (sentBy i) (acts ++ [.gui g]) = 0 ∧ total (receivedBy i) (acts ++ [.gui g]) = 0 := by
    intro i hi
    rw [total_concat, total_concat]
    exact h.fresh i hi
  simp only [meteredStep] at hstep
  split at hstep
  · cases hstep
  · next hready =>
    obtain ⟨world, hworld, rfl⟩ := Option.map_eq_some_iff.mp hstep
    rcases guiStep_sessions hworld with ⟨hspawns, hsessions, hpast⟩ | ⟨hspawns, p, hsessions⟩
    · -- the sessions and their meters are as they were
      simp only [hspawns, Bool.false_eq_true, if_false]
      refine ⟨hsingle, ?_, ?_, ?_, ?_, fun hgui => ?_⟩
      · exact h.length.trans (congrArg _ hsessions).symm
      · rw [hsessions]
        exact hcounts
      · rw [hsessions]
        exact hfresh
      · intro hreset
        cases hreset
      · have hbefore : m.world.gui.pastWait = false := by
          rw [← Bool.not_eq_true]
          intro htrue
          rw [hpast htrue] at hgui
          cases hgui
        exact (h.own hbefore).extend _ (congrArg _ hsessions) rfl
    · -- the new session has a meter of its own, and `start` has reset the statistics
      have hreset : m.reset = true := by
        rw [hspawns, Bool.true_and] at hready
        exact Bool.not_eq_false _ |>.mp fun hfalse => hready (by rw [hfalse]; rfl)
      simp only [hspawns, if_true]
      refine ⟨hsingle, ?_, ?_, ?_, ?_, fun _ => .inl (h.reset hreset).2⟩
      · rw [hsessions, List.length_append, List.length_append, h.length]
        rfl
      · intro i s meter hs hmeter
        rw [hsessions] at hs
        rcases Nat.lt_or_ge i m.world.sessions.length with hlt | hge
        · rw [List.getElem?_append_left hlt] at hs
          rw [List.getElem?_append_left (h.length ▸ hlt)] at hmeter
          exact hcounts i s meter hs hmeter
        · rw [List.getElem?_append_right (h.length ▸ hge)] at hmeter
          -- nothing has been counted for it yet
          have hnew := List.mem_singleton.mp (List.mem_of_getElem? hmeter)
          obtain ⟨hsent, hrecv⟩ := hfresh i hge
          rw [hnew]
          exact ⟨by rw [hsent]; rfl, by rw [hrecv]; rfl, trivial, fun htop => by cases htop⟩
      · intro i hi
        rw [hsessions, List.length_append] at hi
        exact hfresh i (Nat.le_of_add_right_le hi)
      · intro hreset
        cases hreset

/-- The step of a session: only the newest one publishes. -/
theorem Metering.session_step {i : Nat} {b : MeterAction} (h : Metering acts m)
    (hok : gaveUpOn m (.session i b) = false) (hstep : meteredStep m (.session i b) = some m') :
    Metering (acts ++ [.session i b]) m' := by
  have hsingle := h.single_step hok hstep
  obtain ⟨s, s', meter, meter', hs, hmeter, hst, hmoves, hsessions, hgui, hmeters, hstats,
    hreset⟩ := meteredStep_session hstep
  have hcounts := h.counts i s meter hs hmeter
  have hlt := (List.getElem?_eq_some_iff.mp hs).1
  have hlength : m'.world.sessions.length = m.world.sessions.length := by
    rw [hsessions, List.length_set]
  -- a session that publishes is in its monitor loop, so it is the newest one
  have hwrites : m'.stats = m.stats ∨ m.world.gui.pastWait = false
      ∧ i + 1 = m.world.sessions.length ∧ TakenBy acts i m'.stats := by
    rw [hstats]
    rcases hcounts.write m.stats hst with hsame | ⟨hmonitors, htaken⟩
    · exact .inl hsame
    · have hpub := SessionPc.published_of_monitors hmonitors
      refine .inr ⟨?_, ?_, htaken⟩
      · rw [← Bool.not_eq_true]
        intro hpast
        rw [h.single.settled hpast s (List.mem_of_getElem? hs)] at hpub
        cases hpub
      · -- a session before the newest one has published its end
        have hlast : ¬ i + 1 < m.world.sessions.length := by
          intro hless
          rw [h.single.older i s hs hless] at hpub
          cases hpub
        omega
  refine ⟨hsingle, ?_, ?_, ?_, ?_, fun hidle => ?_⟩
  · rw [hmeters, List.length_set, hlength]
    exact h.length
  · intro j t tmeter ht htmeter
    rw [hsessions] at ht
    rw [hmeters] at htmeter
    by_cases hij : i = j
    · subst hij
      rw [List.getElem?_set_self hlt] at ht
      rw [List.getElem?_set_self (h.length ▸ hlt)] at htmeter
      cases ht
      cases htmeter
      exact hcounts.step hst hmoves
    · rw [List.getElem?_set_ne hij] at ht htmeter
      exact (h.counts j t tmeter ht htmeter).extend (sentBy_of_ne hij b) (receivedBy_of_ne hij b)
  · intro j hj
    rw [hlength] at hj
    have hij : i ≠ j := by omega
    rw [total_concat, total_concat, sentBy_of_ne hij, receivedBy_of_ne hij]
    exact h.fresh j hj
  · intro htrue
    rw [hreset] at htrue
    obtain ⟨hspawns, hblank⟩ := h.reset htrue
    refine ⟨hgui ▸ hspawns, ?_⟩
    -- `start` is past its wait, so nobody has written
    rcases hwrites with hsame | ⟨hpast, -⟩
    · exact hsame.trans hblank
    · rw [GuiPc.pastWait_of_spawns hspawns] at hpast
      cases hpast
  · rw [hgui] at hidle
    rcases hwrites with hsame | ⟨-, hnewest, htaken⟩
    · exact (h.own hidle).extend _ hlength hsame
    · exact .inr ⟨i, hnewest.trans hlength.symm, htaken.extend _⟩

/-- The reset: the statistics are blank, and no session has moved. -/
theorem Metering.reset_step (h : Metering acts m) (hok : gaveUpOn m .resetStats = false)
    (hstep : meteredStep m .resetStats = some m') : Metering (acts ++ [.resetStats]) m' := by
  have hsingle := h.single_step hok hstep
  simp only [meteredStep] at hstep
  split at hstep <;> cases hstep
  next hready =>
  have hspawns := (Bool.and_eq_true_iff.mp hready).1
  refine ⟨hsingle, h.length, fun i s meter hs hmeter => ?_, fun i hi => ?_, fun _ => ⟨hspawns, rfl⟩,
    fun _ => .inl rfl⟩
  · exact (h.counts i s meter hs hmeter).extend rfl rfl
  · rw [total_concat, total_concat]
    exact h.fresh i hi

/-- **Every action keeps it.** -/
theorem Metering.step (h : Metering acts m) (hok : gaveUpOn m a = false)
    (hstep : meteredStep m a = some m') : Metering (acts ++ [a]) m' := by
  cases a with
  | gui g => exact h.gui_step hok hstep
  | resetStats => exact h.reset_step hok hstep
  | session i b => exact h.session_step hok hstep

/-- **The statistics are the newest session's own**: blank, or two counts that it had at some moment
and a handshake that it has seen. -/
theorem stats_are_own (table : RouteTable)
    (hrun : Run meteredStep (fun m a => !gaveUpOn m a) (meteredInit table) acts m)
    (hgui : m.world.gui.pastWait = false) : OwnStats acts m := by
  have hmetering : Metering acts m := by
    refine hrun.history (P := fun acts m => Metering acts m) (.init table) ?_
    intro bs v a u _ hv hok hst
    rw [Bool.not_eq_true'] at hok
    exact hv.step hok hst
  exact hmetering.own hgui

section

/-- A step of the service as one of this machine. -/
def meteredOf : ServiceAction → MeteredAction
  | .gui a => .gui a
  | .session i a => .session i (.step a)

/-- A session is spawned, after the statistics have been reset. -/
def resetAndSpawn : List MeteredAction := [.resetStats, .gui .go]

/-- A session gets as far as its monitor loop; it sends an initiation of 148 bytes and receives a
response of 92. -/
def meteredUpTo (i : Nat) : List MeteredAction :=
  ([.configParsed (.ok officeConf),
    .targetResolved (.ok (some ⟨.v4 (.ofOctets 203 0 113 7), 51824⟩)),
    .dummyBound (.ok ()), .interfaceFound (.ok 12), .deviceCreated (.ok officeSetup),
    .udpBound (.ok ()), .udpConnected (.ok ())].map fun a => .session i (.step a)) ++
  [.send 148, .step .go, .step .go, .receive 92].map (.session i)

/-- One round of its monitor loop, in which it sends after it has loaded what it has sent. -/
def firstRound (i : Nat) : List MeteredAction :=
  [.step .go, .loadSent, .send 1452, .loadRecv, .observe (some 0), .step .go, .publish].map
    (.session i)

/-- The next call of `start`, up to its reset of the statistics: the first session stops. -/
def stopFirst : List ServiceAction :=
  [.gui (.start home), .gui .go, .gui .go] ++
    [.go, .go, .workerCutOff 0, .go, .workerLoads 0, .go, .workerLoads 0, .go, .go].map
      (.session 0) ++ List.replicate 4 (.gui .go)

/-- A second session is connected after the first has been stopped. -/
def countedTwice : List MeteredAction :=
  (startNow office).dropLast.map meteredOf ++ resetAndSpawn ++ meteredUpTo 0 ++ firstRound 0 ++
    stopFirst.map meteredOf ++ resetAndSpawn ++ meteredUpTo 1 ++ [.session 1 (.send 96)] ++
    firstRound 1

/-- A second session shows its own bytes, after the first has shown other ones. -/
theorem stats_are_own_twice : ∃ m : Metered, m.world.sessions.length = 2
    ∧ m.world.shared.status = .connected ∧ m.stats = ⟨244, 92, some 0⟩
    ∧ OwnStats countedTwice m := by
  have hexec : (execIf meteredStep (fun m a => !gaveUpOn m a) (meteredInit ∅) countedTwice).any
      (fun m => decide (m.world.sessions.length = 2 ∧ m.world.shared.status = .connected
        ∧ m.stats = ⟨244, 92, some 0⟩ ∧ m.world.gui.pastWait = false)) = true := by
    decide +kernel
  obtain ⟨m, hrun, hm⟩ := Run.of_execIf_any hexec
  obtain ⟨hlength, hstatus, hstats, hgui⟩ := of_decide_eq_true hm
  exact ⟨m, hlength, hstatus, hstats, stats_are_own ∅ hrun hgui⟩

/-- The next call of `start`, up to its reset of the statistics: it gives up waiting. -/
def giveUpOnFirst : List ServiceAction :=
  .gui (.start home) :: List.replicate (maxPolls + 5) (.gui .go)

/-- It does so in the middle of a round of the first session. -/
def publishedLate : List MeteredAction :=
  (startNow office).dropLast.map meteredOf ++ resetAndSpawn ++ meteredUpTo 0 ++
    [.step .go, .loadSent, .loadRecv].map (.session 0) ++ giveUpOnFirst.map meteredOf ++
    resetAndSpawn ++ [.observe (some 0), .step .go, .publish].map (.session 0)

/-- Nothing that counts for nothing adds up. -/
theorem total_eq_zero {amount : MeteredAction → Nat} (h : ∀ a ∈ acts, amount a = 0) :
    total amount acts = 0 := by
  induction acts using List.reverseRecOn with
  | nil => rfl
  | append_singleton acts a ih =>
    rw [total_concat, ih fun b hb => h b (List.mem_append_left _ hb),
      h a (List.mem_append_right _ (List.mem_singleton_self _))]

/-- Why the wait matters: the traffic of a session that has not sent anything. -/
theorem stats_of_another : ∃ m, Run meteredStep anyStep (meteredInit ∅) publishedLate m
    ∧ m.world.gui = .idle ∧ m.world.shared.status = .connected ∧ ¬ OwnStats publishedLate m := by
  have hexec : (exec meteredStep (meteredInit ∅) publishedLate).any (fun m =>
      decide (m.world.gui = .idle ∧ m.world.shared.status = .connected
        ∧ m.world.sessions.length = 2 ∧ m.stats.bytesSent = 148)) = true := by
    decide +kernel
  obtain ⟨m, hrun, hm⟩ := Run.of_exec_any hexec
  obtain ⟨hgui, hstatus, hlength, hsent⟩ := of_decide_eq_true hm
  refine ⟨m, hrun, hgui, hstatus, fun hown => ?_⟩
  rcases hown with hblank | ⟨i, hi, earlier, later, hle, hlater, hbytes, -⟩
  · rw [hblank] at hsent
    exact absurd hsent (by decide)
  · have hi : i = 1 := by omega
    have hnone : publishedLate.all (fun a => sentBy 1 a == 0) = true := by decide +kernel
    have hzero : total (sentBy i) earlier = 0 := by
      rw [hi]
      exact total_eq_zero fun a ha =>
        beq_iff_eq.mp (List.all_eq_true.mp hnone a ((hle.trans hlater).subset ha))
    rw [hsent, hzero] at hbytes
    exact absurd hbytes (by decide)

end

end Phobos
