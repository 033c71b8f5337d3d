import PhobosClient.Lib.Progress
import PhobosClient.Service.Rest

/-!
# PhobosClient — a session that is asked to stop

`stop` only sets a flag. Whether the tunnel goes down after it is up to the session: its thread
has to leave the code it is in, close the device and wait for three workers, one of which sleeps
in the driver until a packet comes.

`SessionPc.stepsLeft` bounds what a session still does once it is asked to stop; every step of its
own uses some of it up (`step_stepsLeft`). And it never waits in vain: the device is closed before
the workers are waited for, which wakes the one in the driver (`exists_prompt_step`).
**`stop_ends_session`** puts the two together.
-/

namespace Phobos

open Threads Steps

namespace SessionPc

/-- What the workers still have to do: stop, and be waited for. -/
def workersLeft (ws : List Worker) : Nat := ws.length + ws.countP fun w => w.running

/-- What the thread itself still has to do. -/
def ownStepsLeft : SessionPc → Nat
  | parseConfig => 20
  | resolveTarget _ => 19
  | bindDummy _ _ => 18
  | findInterface _ _ => 17
  | createDevice _ _ _ => 16
  | bindUdp _ _ => 15
  | connectUdp _ _ => 14
  | publishConnecting _ => 13
  | spawnWorkers _ => 12
  | observe _ _ _ => 7
  | publishConnected _ _ => 6
  | monitor _ _ _ => 5
  | shutdown _ _ => 4
  | join _ _ | publishError _ _ => 3
  | clearName _ => 2
  | returning _ => 1
  | ended => 0

/-- The thread waits for its workers. -/
def isJoin : SessionPc → Bool
  | join _ _ => true
  | _ => false

def stepsLeft (pc : SessionPc) : Nat := pc.ownStepsLeft + workersLeft pc.workers

/-- The session has the workers that it has spawned, and waits for them only once the device is
closed. -/
structure Orderly (pc : SessionPc) : Prop where
  workers : pc.workers.length ≤ 3
  closed : ∀ dev ws, pc = join dev ws → dev.val.sessionOpen = false

variable {profile : PhobosProfile} {m m' : Shared} {pc pc' : SessionPc} {a : SessionAction}

/-- Nothing is asked of a session that does not wait for its workers. -/
theorem closed_of_not_join (hjoin : pc.isJoin = false) :
    ∀ dev ws, pc = join dev ws → dev.val.sessionOpen = false := by
  rintro dev ws rfl
  cases hjoin

/-- A worker stops once and is waited for once. -/
theorem workersLeft_le (ws : List Worker) : workersLeft ws ≤ 2 * ws.length := by
  have h := List.countP_le_length (p := fun w : Worker => w.running) (l := ws)
  unfold workersLeft
  omega

/-- **Twenty steps** at most, from wherever the session is. -/
theorem Orderly.stepsLeft_le (h : pc.Orderly) : pc.stepsLeft ≤ 20 := by
  have hws := workersLeft_le pc.workers
  have hlen := h.workers
  cases pc <;> simp only [stepsLeft, ownStepsLeft, SessionPc.workers, List.length_nil] at * <;>
    omega

/-! ## A worker stops -/

/-- A worker that stops has less to do. -/
theorem workersLeft_stop {ws : List Worker} {i : Nat} {w : Worker} (hget : ws[i]? = some w)
    (hrunning : w.running = true) :
    workersLeft (ws.set i { w with running := false }) < workersLeft ws := by
  obtain ⟨hlt, hw⟩ := List.getElem?_eq_some_iff.mp hget
  have hpos : 0 < ws.countP fun w => w.running :=
    List.countP_pos_iff.mpr ⟨w, List.mem_of_getElem? hget, hrunning⟩
  rw [workersLeft, workersLeft, List.length_set, List.countP_set hlt, hw, hrunning]
  simp only [Bool.false_eq_true, if_false, if_true]
  omega

/-- A session with workers is in one of five places, and stays there when a worker stops. -/
theorem setWorkers_spec (h : pc.workers ≠ []) (ws : List Worker) :
    (pc.setWorkers ws).ownStepsLeft = pc.ownStepsLeft ∧ (pc.setWorkers ws).workers = ws
      ∧ ∀ dev ws', pc.setWorkers ws = join dev ws' → ∃ ws'', pc = join dev ws'' := by
  cases pc with
  | monitor | observe | publishConnected | shutdown => exact ⟨rfl, rfl, fun _ _ h => by cases h⟩
  | join dev' ws' =>
    -- the device stays closed while a worker stops
    refine ⟨rfl, rfl, fun dev ws'' h => ?_⟩
    cases h
    exact ⟨ws', rfl⟩
  | _ => exact absurd rfl h

/-- And so has its session. -/
theorem stopWorker_stepsLeft {i : Nat} {w : Worker} (hget : pc.workers[i]? = some w)
    (hrunning : w.running = true) : (pc.stopWorker i w).stepsLeft < pc.stepsLeft := by
  have hne : pc.workers ≠ [] := List.ne_nil_of_mem (List.mem_of_getElem? hget)
  obtain ⟨hown, hworkers, -⟩ := setWorkers_spec hne (pc.workers.set i { w with running := false })
  have hless := workersLeft_stop hget hrunning
  rw [stopWorker, stepsLeft, stepsLeft, hown, hworkers]
  omega

/-- A worker that stops leaves the device as it is. -/
theorem Orderly.stopWorker (h : pc.Orderly) {i : Nat} {w : Worker}
    (hget : pc.workers[i]? = some w) : (pc.stopWorker i w).Orderly := by
  have hne : pc.workers ≠ [] := List.ne_nil_of_mem (List.mem_of_getElem? hget)
  obtain ⟨-, hworkers, hjoin⟩ := setWorkers_spec hne (pc.workers.set i { w with running := false })
  refine ⟨?_, fun dev ws heq => ?_⟩
  · rw [SessionPc.stopWorker, hworkers, List.length_set]
    exact h.workers
  · obtain ⟨ws', hpc⟩ := hjoin dev ws heq
    exact h.closed dev ws' hpc

/-! ## Every step uses some of it up -/

/-- Where a step takes the thread. -/
inductive Move (m : Shared) : SessionPc → SessionPc → Prop where
  | advance {pc pc' : SessionPc} (hworkers : pc'.workers = pc.workers)
      (hown : pc'.ownStepsLeft < pc.ownStepsLeft) (hjoin : pc'.isJoin = false) : Move m pc pc'
  | spawn {dev : WintunDevice} :
      Move m (spawnWorkers dev)
        (monitor dev [⟨.tunToUdp, true⟩, ⟨.udpToTun, true⟩, ⟨.timers, true⟩] false)
  | observe {dev : WintunDevice} {ws : List Worker} {logged : Bool}
      (hstop : m.stopSignal = false) : Move m (monitor dev ws logged) (observe dev ws logged)
  | release {dev : WintunDevice} {ws : List Worker} :
      Move m (shutdown dev ws) (join (dev.shutdown m.os).1 ws)
  | joined {dev : ReleasedDevice} {w : Worker} {ws : List Worker} :
      Move m (join dev (w :: ws)) (join dev ws)
  | workerStops {pc : SessionPc} {i : Nat} {w : Worker} (hget : pc.workers[i]? = some w)
      (hrunning : w.running = true) : Move m pc (pc.stopWorker i w)
  | workerLoads {pc : SessionPc} (hstop : m.stopSignal = false) : Move m pc pc

/-- The accesses to what the threads share, one by one. -/
theorem goStep_move (h : pc.goStep m = some (m', pc')) : Move m pc pc' := by
  cases pc with
  | publishConnecting | publishConnected | publishError | clearName =>
    cases h
    exact .advance rfl (by simp [ownStepsLeft]) rfl
  | spawnWorkers dev => cases h; exact .spawn
  | monitor dev ws logged =>
    cases h
    cases hstop : m.stopSignal with
    | false => exact .observe hstop
    | true => exact .advance rfl (by simp [ownStepsLeft]) rfl
  | shutdown dev ws => cases h; exact .release
  | join dev ws =>
    cases ws with
    | nil => cases h; exact .advance rfl (by simp [ownStepsLeft]) rfl
    | cons w ws =>
      simp only [goStep] at h
      split at h
      · -- the first worker is still running, and the thread waits for it
        cases h
      · cases h; exact .joined
  | returning dev =>
    cases dev with
    | none => cases h; exact .advance rfl (by simp [ownStepsLeft]) rfl
    | some dev => cases h; exact .advance rfl (by simp [ownStepsLeft]) rfl
  | _ => cases h

/-- **Every step is one of these moves.** -/
theorem step_move (h : pc.step profile m a = some (m', pc')) : Move m pc pc' := by
  cases a with
  | go => exact goStep_move h
  | configParsed result =>
    simp only [step] at h
    split at h <;> cases h <;> exact .advance rfl (by simp [ownStepsLeft]) rfl
  | targetResolved result =>
    simp only [step] at h
    split at h <;> cases h <;> exact .advance rfl (by simp [ownStepsLeft]) rfl
  | dummyBound result =>
    simp only [step] at h
    split at h <;> cases h <;> exact .advance rfl (by simp [ownStepsLeft]) rfl
  | interfaceFound result =>
    simp only [step] at h
    split at h <;> cases h <;> exact .advance rfl (by simp [ownStepsLeft]) rfl
  | deviceCreated setup =>
    simp only [step] at h
    split at h
    · split at h <;> cases h <;> exact .advance rfl (by simp [ownStepsLeft]) rfl
    · cases h
  | udpBound result =>
    simp only [step] at h
    split at h <;> cases h <;> exact .advance rfl (by simp [ownStepsLeft]) rfl
  | udpConnected result =>
    simp only [step] at h
    split at h <;> cases h <;> exact .advance rfl (by simp [ownStepsLeft]) rfl
  | observed handshake =>
    simp only [step] at h
    split at h
    · cases h
      -- only the first handshake that is seen is published
      split
      · exact .advance rfl (by simp [ownStepsLeft]) rfl
      · exact .advance rfl (by simp [ownStepsLeft]) rfl
    · cases h
  | workerLoads i =>
    simp only [step] at h
    split at h
    · next w hget =>
      split at h
      · next hrunning =>
        cases h
        -- without a request the worker goes on with its loop
        cases hstop : m.stopSignal with
        | false => exact .workerLoads hstop
        | true => exact .workerStops hget hrunning
      · cases h
    · cases h
  | workerCutOff i =>
    simp only [step] at h
    split at h
    · next w dev hget hdev =>
      split at h
      · next hcond =>
        cases h
        -- only a worker that runs is cut off
        rw [Bool.and_eq_true, Bool.and_eq_true] at hcond
        exact .workerStops hget hcond.1.1
      · cases h
    · cases h

/-- The device is closed by the very step that makes the thread wait. -/
theorem Move.orderly (h : Move m pc pc') (ho : pc.Orderly) : pc'.Orderly := by
  cases h with
  | advance hworkers _ hjoin =>
    exact ⟨hworkers ▸ ho.workers, closed_of_not_join hjoin⟩
  | spawn => exact ⟨Nat.le_refl 3, closed_of_not_join rfl⟩
  | observe => exact ⟨ho.workers, closed_of_not_join rfl⟩
  | release =>
    refine ⟨ho.workers, fun dev ws heq => ?_⟩
    -- `WintunDevice::shutdown` has closed the driver session
    cases heq
    rfl
  | joined =>
    refine ⟨Nat.le_of_succ_le ho.workers, fun dev ws heq => ?_⟩
    cases heq
    exact ho.closed _ _ rfl
  | workerStops hget => exact ho.stopWorker hget
  | workerLoads => exact ho

/-- **Once the session is asked to stop**, nothing that it does is for nothing. -/
theorem Move.stepsLeft (h : Move m pc pc') (hstop : m.stopSignal = true) :
    pc'.stepsLeft < pc.stepsLeft := by
  cases h with
  | advance hworkers hown =>
    rw [SessionPc.stepsLeft, SessionPc.stepsLeft, hworkers]
    omega
  | spawn => exact (by decide : 11 < 12)
  | observe hno | workerLoads hno => rw [hstop] at hno; cases hno
  | release => exact Nat.add_lt_add_right (by decide : 3 < 4) _
  | joined =>
    -- one worker less to be waited for
    simp only [SessionPc.stepsLeft, ownStepsLeft, SessionPc.workers, workersLeft,
      List.length_cons, List.countP_cons]
    omega
  | workerStops hget hrunning => exact stopWorker_stepsLeft hget hrunning

/-- A session never takes the request back. -/
theorem Effect.stopSignal (h : Effect m pc a m' pc') : m'.stopSignal = m.stopSignal := by
  cases h <;> rfl

/-! ## And it never waits in vain -/

/-- The steps that do not need a packet to come: all but those of a worker that looks at the
flag after it has slept in the driver. -/
def prompt (pc : SessionPc) : SessionAction → Bool
  | .workerLoads i => pc.workers[i]?.all fun w => w.kind != .tunToUdp
  | _ => true

/-- **A session that has been asked to stop is never stuck**, even if no packet comes. -/
theorem exists_prompt_step (hstop : m.stopSignal = true) (ho : pc.Orderly) (hend : pc ≠ ended) :
    ∃ a m' pc', pc.prompt a = true ∧ pc.step profile m a = some (m', pc') := by
  cases pc with
  | parseConfig => exact ⟨.configParsed (.error ""), _, _, rfl, rfl⟩
  | resolveTarget => exact ⟨.targetResolved (.error ""), _, _, rfl, rfl⟩
  | bindDummy => exact ⟨.dummyBound (.error ""), _, _, rfl, rfl⟩
  | findInterface => exact ⟨.interfaceFound (.error ""), _, _, rfl, rfl⟩
  | createDevice => exact ⟨.deviceCreated (.error ""), _, _, rfl, rfl⟩
  | bindUdp => exact ⟨.udpBound (.error ""), _, _, rfl, rfl⟩
  | connectUdp => exact ⟨.udpConnected (.error ""), _, _, rfl, rfl⟩
  | observe => exact ⟨.observed false, _, _, rfl, rfl⟩
  | returning dev =>
    cases dev with
    | none => exact ⟨.go, _, _, rfl, rfl⟩
    | some dev => exact ⟨.go, _, _, rfl, rfl⟩
  | join dev ws =>
    cases ws with
    | nil => exact ⟨.go, _, _, rfl, rfl⟩
    | cons w ws =>
      obtain ⟨kind, running⟩ := w
      cases running with
      | false => exact ⟨.go, _, _, rfl, rfl⟩
      | true =>
        by_cases hkind : kind = .tunToUdp
        · -- this one sleeps in the driver: the closed device has woken it
          have hclosed := ho.closed dev _ rfl
          refine ⟨.workerCutOff 0, m, (join dev (⟨kind, true⟩ :: ws)).stopWorker 0 ⟨kind, true⟩,
            rfl, ?_⟩
          simp [step, SessionPc.workers, SessionPc.device, hkind, hclosed]
        · -- the others look at the flag without a packet
          refine ⟨.workerLoads 0, m, (join dev (⟨kind, true⟩ :: ws)).stopWorker 0 ⟨kind, true⟩,
            ?_, ?_⟩
          · simp [prompt, SessionPc.workers, hkind]
          · simp [step, SessionPc.workers, hstop]
  | ended => exact absurd rfl hend
  | _ => exact ⟨.go, _, _, rfl, rfl⟩

end SessionPc

/-- The same of a session, whose profile stays. -/
theorem Session.step_pc {m m' : Shared} {s s' : Session} {a : SessionAction}
    (h : s.step m a = some (m', s')) : SessionPc.Move m s.pc s'.pc := by
  unfold Session.step at h
  obtain ⟨⟨m₁, pc'⟩, hstep, heq⟩ := Option.map_eq_some_iff.mp h
  cases heq
  exact SessionPc.step_move hstep

/-! ## All sessions -/

def AllOrderly (w : World) : Prop := ∀ s ∈ w.sessions, s.pc.Orderly

def ServiceAction.isOf (i : Nat) : ServiceAction → Bool
  | .session j _ => j == i
  | .gui _ => false

/-- Steps of one session only, and none that needs a packet to come. -/
def alonePrompt (i : Nat) (w : World) (a : ServiceAction) : Prop :=
  ∃ b, a = .session i b ∧ ∀ s, w.sessions[i]? = some s → s.pc.prompt b = true

def stopAsked (w : World) (_ : ServiceAction) : Prop := w.shared.stopSignal = true

variable {w w' : World} {a : ServiceAction}

/-- A new session has no workers yet; the others move as above. -/
theorem AllOrderly.step (hinv : AllOrderly w) (hstep : serviceStep w a = some w') :
    AllOrderly w' := by
  rcases serviceStep_cases hstep with ⟨g, rfl, heffect⟩ | ⟨i, b, m', ss', rfl, hst, rfl⟩
  · cases heffect with
    | spawn =>
      intro s hs
      rcases List.mem_append.mp hs with hold | hnew
      · exact hinv s hold
      · rw [List.mem_singleton] at hnew
        subst hnew
        exact ⟨Nat.zero_le 3, SessionPc.closed_of_not_join rfl⟩
    | _ => exact hinv
  · exact stepAt_forall hst hinv fun t t' ht htstep => (Session.step_pc htstep).orderly ht

/-- Every session that a run reaches is orderly. -/
theorem allOrderly_of_run {table : RouteTable} {as : List ServiceAction}
    (hrun : Run serviceStep anyStep (serviceInit table) as w) : AllOrderly w :=
  hrun.invariant (P := AllOrderly) (fun _ hs => absurd hs List.not_mem_nil)
    fun _ _ _ hv _ hst => hv.step hst

/-- What the session at position `i` still has to do. -/
def stepsLeftAt (i : Nat) (w : World) : Nat := (w.sessions[i]?.map (·.pc.stepsLeft)).getD 0

/-- Twenty at most, and none where there is no session. -/
theorem stepsLeftAt_le (hinv : AllOrderly w) (i : Nat) : stepsLeftAt i w ≤ 20 := by
  unfold stepsLeftAt
  cases hget : w.sessions[i]? with
  | none => exact Nat.zero_le 20
  | some s => exact (hinv s (List.mem_of_getElem? hget)).stepsLeft_le

/-- While a stop is asked for, the steps of the session itself are the ones that count. -/
theorem stepsLeftAt_step {i : Nat} (hlt : i < w.sessions.length)
    (hstop : w.shared.stopSignal = true) (hstep : serviceStep w a = some w') :
    stepsLeftAt i w' + (a.isOf i).toNat ≤ stepsLeftAt i w := by
  rcases serviceStep_cases hstep with ⟨g, rfl, heffect⟩ | ⟨j, b, m', ss', rfl, hst, rfl⟩
  · cases heffect with
    | spawn =>
      -- a new session is appended, and leaves the position of this one alone
      refine Nat.le_of_eq ?_
      show stepsLeftAt i _ = _
      unfold stepsLeftAt
      rw [List.getElem?_append_left hlt]
    | _ => exact Nat.le_refl _
  · obtain ⟨t, t', hget, htstep, rfl⟩ := stepAt_cases hst
    have hless := (Session.step_pc htstep).stepsLeft hstop
    unfold stepsLeftAt
    by_cases hj : j = i
    · subst hj
      simp only [List.getElem?_set_self hlt, hget, Option.map_some, Option.getD_some,
        ServiceAction.isOf, beq_self_eq_true, Bool.toNat_true]
      omega
    · -- the step of another session
      simp [List.getElem?_set_ne hj, ServiceAction.isOf, beq_eq_false_iff_ne.mpr hj]

/-- No session is ever taken off the list. -/
theorem serviceStep_sessions_length (hstep : serviceStep w a = some w') :
    w.sessions.length ≤ w'.sessions.length := by
  rcases serviceStep_cases hstep with ⟨g, rfl, heffect⟩ | ⟨j, b, m', ss', rfl, hst, rfl⟩
  · cases heffect with
    | spawn => simp
    | _ => exact Nat.le_refl _
  · obtain ⟨t, t', -, -, rfl⟩ := stepAt_cases hst
    rw [List.length_set]

/-- The session at position `i` is asked to stop. -/
structure Asked (i : Nat) (profile : PhobosProfile) (w : World) : Prop where
  orderly : AllOrderly w
  stop : w.shared.stopSignal = true
  session : ∃ pc, w.sessions[i]? = some ⟨profile, pc⟩

def EndedAt (i : Nat) (profile : PhobosProfile) (w : World) : Prop :=
  w.sessions[i]? = some ⟨profile, .ended⟩

/-- A session that is asked to stop and has not ended can do something towards it. -/
theorem Asked.exists_prompt_step {i : Nat} {profile : PhobosProfile} (h : Asked i profile w)
    (hend : ¬ EndedAt i profile w) :
    ∃ a w', alonePrompt i w a ∧ serviceStep w a = some w' ∧ Asked i profile w'
      ∧ stepsLeftAt i w' < stepsLeftAt i w := by
  obtain ⟨hinv, hstop, pc, hget⟩ := h
  have hlt := (List.getElem?_eq_some_iff.mp hget).1
  have hnot : pc ≠ .ended := by
    rintro rfl
    exact hend hget
  have hown : ∃ b m' pc', pc.prompt b = true ∧ pc.step profile w.shared b = some (m', pc') :=
    SessionPc.exists_prompt_step hstop (hinv _ (List.mem_of_getElem? hget)) hnot
  obtain ⟨b, m', pc', hprompt, hstep⟩ := hown
  -- as a step of the whole service
  have hworld : serviceStep w (.session i b)
      = some { w with shared := m', sessions := w.sessions.set i ⟨profile, pc'⟩ } := by
    simp [serviceStep, stepAt, hget, Session.step, hstep]
  have hless := stepsLeftAt_step hlt hstop hworld
  simp only [ServiceAction.isOf, beq_self_eq_true, Bool.toNat_true] at hless
  refine ⟨.session i b, _, ⟨b, rfl, fun s hs => ?_⟩, hworld, ⟨hinv.step hworld, ?_, pc', ?_⟩, hless⟩
  · rw [hget] at hs
    cases hs
    exact hprompt
  · exact (SessionPc.step_effect hstep).stopSignal.trans hstop
  · exact List.getElem?_set_self hlt

/-- **A session that is asked to stop ends.** Wherever a run has brought it, it takes at most
twenty more steps while the request stands, in any order with the other threads; and at most
twenty steps of its own lead it to its end, even if no packet comes any more. -/
theorem stop_ends_session (table : RouteTable) {as : List ServiceAction} {v : World} {i : Nat}
    {s : Session} (hrun : Run serviceStep anyStep (serviceInit table) as v)
    (hget : v.sessions[i]? = some s) (hstop : v.shared.stopSignal = true) :
    (∀ bs w, Run serviceStep stopAsked v bs w → bs.countP (·.isOf i) ≤ 20)
      ∧ ∃ bs w, Run serviceStep (alonePrompt i) v bs w ∧ bs.length ≤ 20
        ∧ EndedAt i s.profile w := by
  have hv := allOrderly_of_run hrun
  have hbound := stepsLeftAt_le hv i
  have hlt := (List.getElem?_eq_some_iff.mp hget).1
  constructor
  · -- every step of the session uses some of the measure up, and none gives any back
    intro bs w hmore
    have hcount := hmore.countP_le (P := fun w => i < w.sessions.length) (stepsLeftAt i)
      (·.isOf i) hlt fun u b u' hu hok hst =>
        ⟨Nat.lt_of_lt_of_le hu (serviceStep_sessions_length hst), stepsLeftAt_step hu hok hst⟩
    omega
  · -- and alone it can go on until nothing is left
    have hasked : Asked i s.profile v := ⟨hv, hstop, s.pc, hget⟩
    have hto : ∃ bs w, Run serviceStep (alonePrompt i) v bs w ∧ Asked i s.profile w
        ∧ EndedAt i s.profile w ∧ bs.length ≤ stepsLeftAt i v :=
      exists_run_to (stepsLeftAt i) (fun _ hu hnot => hu.exists_prompt_step hnot) hasked
    obtain ⟨bs, w, hmore, -, hdone, hlen⟩ := hto
    exact ⟨bs, w, hmore, Nat.le_trans hlen hbound, hdone⟩

/-- A session that monitors, and the GUI that has just asked it to stop. -/
def askedToStop : List ServiceAction :=
  startNow office ++ untilDevice ++
    [.udpBound (.ok ()), .udpConnected (.ok ()), .go, .go].map (.session 0) ++
    [.gui .stop, .gui .go]

/-- A session that has connected its socket and spawned its workers is asked to stop. -/
theorem stop_ends_session_office :
    ∃ v : World, v.shared.stopSignal = true ∧ v.sessions.length = 1
      ∧ (∀ bs w, Run serviceStep stopAsked v bs w → bs.countP (·.isOf 0) ≤ 20)
      ∧ ∃ bs w, Run serviceStep (alonePrompt 0) v bs w ∧ bs.length ≤ 20
        ∧ EndedAt 0 office w := by
  have hexec : (exec serviceStep (serviceInit ∅) askedToStop).any (fun w =>
      decide (w.sessions.length = 1) && w.shared.stopSignal
        && w.sessions[0]?.any fun s => decide (s.profile = office)) = true := by
    decide +kernel
  obtain ⟨v, hrun, hv⟩ := Run.of_exec_any hexec
  rw [Bool.and_eq_true, Bool.and_eq_true, decide_eq_true_eq] at hv
  obtain ⟨⟨hlen, hstop⟩, hoffice⟩ := hv
  obtain ⟨s, hget, hprofile⟩ := (Option.any_eq_true _ _).mp hoffice
  have hs := of_decide_eq_true hprofile
  have hstops := stop_ends_session ∅ hrun hget hstop
  rw [hs] at hstops
  exact ⟨v, hstop, hlen, hstops⟩

end Phobos
