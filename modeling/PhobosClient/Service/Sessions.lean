import PhobosClient.Service.Handshake

/-!
# PhobosClient — sessions and the routes they leave

Two questions about the end of a session: is the session before over when `start` spawns the
next one, and are a session's routes gone when its status says that it is not active?

The code misses both in the same places. `start` waits for forty rounds and then goes on all
the same. A session whose own socket fails publishes the error while it still owns the
device, which is dropped only when the thread returns. And a creation that fails half way
leaves its routes for good. **`sessions_one_at_a_time`** and **`inactive_without_routes`**
say that nothing else goes wrong: in runs that avoid these steps both properties hold in
every state.

Both rest on the same accounting: every created entry that is left in the routing table is
one that some session's device answers for (`Accounted`).
-/

namespace Phobos

open Threads Steps

/-! ## Accounting for the routes -/

/-- The steps by which a failing creation leaves routes behind. -/
def leaks : ServiceAction → Bool
  | .session _ (.deviceCreated (.ok setup)) => !decide setup.faults.LeavesNone
  | _ => false

/-- A creation that does not leak leaves none behind when it fails. -/
theorem leavesNone_of_leaks {i : Nat} {setup : Except String AdapterSetup}
    (h : leaks (.session i (.deviceCreated setup)) = false) : WintunDevice.LeavesNone setup := by
  rintro s rfl
  simpa [leaks] using h

/-- Every created entry that is left belongs to the device of a session. -/
def Accounted (w : World) : Prop :=
  w.shared.os.Within (w.sessions.flatMap fun s => s.pc.held)

variable {w w' : World} {a : ServiceAction}

/-- Nothing has been created. -/
theorem Accounted.init (table : RouteTable) : Accounted (serviceInit table) :=
  fun _ hk => absurd hk List.not_mem_nil

/-- A session moves with its own routes only; those of the others stay accounted for. -/
theorem Accounted.step (hinv : Accounted w) (hleaks : leaks a = false)
    (hstep : serviceStep w a = some w') : Accounted w' := by
  rcases serviceStep_cases hstep with ⟨g, rfl, heffect⟩ | ⟨i, b, m', ss', rfl, hst, rfl⟩
  · cases heffect with
    | spawn => exact hinv.mono fun _ hk => by simpa using Or.inl (List.mem_flatMap.mp hk)
    | _ => exact hinv
  · obtain ⟨t, t', hget, htstep, rfl⟩ := stepAt_cases hst
    -- the mover's routes, framed by those of the other sessions
    have hsplit : w.shared.os.Within
        (t.pc.held ++ (w.sessions.eraseIdx i).flatMap fun s => s.pc.held) := by
      refine hinv.mono fun k hk => ?_
      obtain ⟨s, hs, hks⟩ := List.mem_flatMap.mp hk
      rcases (mem_iff_of_getElem? hget s).mp hs with rfl | hs
      · exact List.mem_append_left _ hks
      · exact List.mem_append_right _ (List.mem_flatMap.mpr ⟨s, hs, hks⟩)
    have hlt := (List.getElem?_eq_some_iff.mp hget).1
    have hmoved := (Session.step_effect htstep).2.within
      (fun setup hb => leavesNone_of_leaks (hb ▸ hleaks)) hsplit
    refine hmoved.mono fun k hk => ?_
    -- the mover's routes go with it to where it is now
    have hmem := mem_iff_of_getElem? (List.getElem?_set_self (a := t') hlt)
    rw [List.eraseIdx_set_eq] at hmem
    rcases List.mem_append.mp hk with hk | hk
    · exact List.mem_flatMap.mpr ⟨t', (hmem t').mpr (.inl rfl), hk⟩
    · obtain ⟨s, hs, hks⟩ := List.mem_flatMap.mp hk
      exact List.mem_flatMap.mpr ⟨s, (hmem s).mpr (.inr hs), hks⟩

/-- When no session answers for a route, none of the created entries is left. -/
theorem Accounted.none_left (hinv : Accounted w) (hheld : ∀ s ∈ w.sessions, s.pc.held = []) :
    w.shared.os.Within [] := by
  refine hinv.mono fun k hk => ?_
  -- an entry that is left would belong to one of them
  obtain ⟨s, hs, hks⟩ := List.mem_flatMap.mp hk
  rwa [hheld s hs] at hks

/-! ## One session at a time -/

/-- The session has published its end, its workers are stopped and its routes removed. -/
def Session.Over (s : Session) : Prop :=
  s.pc.published = true ∧ (∀ t ∈ s.pc.workers, t.running = false) ∧ s.pc.held = []

/-- When `start` spawns a session, and already when it withdraws the stop request, all
sessions before are over and none of their routes is left; at most one session is not over. -/
structure OneAtATime (w : World) : Prop where
  spawned : ∀ p, w.gui = .spawn p →
    (∀ s ∈ w.sessions, s.Over) ∧ w.shared.os.Within []
  withdrawn : ∀ p, w.gui = .clearStop p → ∀ s ∈ w.sessions, s.Over
  live : ∀ (i j : Nat) (s t : Session), w.sessions[i]? = some s → w.sessions[j]? = some t →
    ¬ s.Over → ¬ t.Over → i = j

/-- The step by which `start` ends its wait while a session that has published its end still
owns a device with routes. -/
def readsEarly (w : World) (a : ServiceAction) : Bool :=
  passes w a && w.sessions.any fun s => s.pc.published && !s.pc.held.isEmpty

/-- The steps after which one session at a time is kept. -/
def handsOver (w : World) (a : ServiceAction) : Bool :=
  !givesUp w a && !readsEarly w a && !leaks a

/-- The error exits taken while the thread owns a device. -/
def failsWithDevice : ServiceAction → Bool
  | .session _ a => a.isSocketError
  | _ => false

/-- The same by what the calls return: no wait is given up, no session's own socket fails, and no
creation fails half way. -/
def goesWell (w : World) (a : ServiceAction) : Bool :=
  !givesUp w a && !failsWithDevice a && !leaks a

/-- Published, and without routes. -/
def SessionPc.Over (pc : SessionPc) : Prop := pc.published = true ∧ pc.held = []

/-- A session that has published its end has no workers any more. -/
theorem Session.over_iff (s : Session) : s.Over ↔ s.pc.Over := by
  constructor
  · rintro ⟨hpub, -, hheld⟩
    exact ⟨hpub, hheld⟩
  · rintro ⟨hpub, hheld⟩
    refine ⟨hpub, fun t ht => ?_, hheld⟩
    rw [SessionPc.workers_of_published hpub] at ht
    cases ht

/-- A session that is over stays so. -/
theorem SessionPc.over_stable : Stable SessionPc.Over where
  published := fun _ h => h.1
  step := by
    intro m m' pc pc' a heffect ⟨hpub, hheld⟩
    obtain ⟨hpub', -, hsub⟩ := heffect.published hpub
    refine ⟨hpub', List.eq_nil_iff_forall_not_mem.mpr fun k hk => ?_⟩
    have hk' := hsub k hk
    rw [hheld] at hk'
    cases hk'

/-- When `start` ends its wait in time, what has been published is over. -/
theorem over_of_passes (hearly : readsEarly w a = false) (hpass : passes w a = true)
    (hpub : ∀ s ∈ w.sessions, s.pc.published = true) : ∀ s ∈ w.sessions, s.pc.Over := by
  intro s hs
  refine ⟨hpub s hs, ?_⟩
  -- no session that has published its end still holds a route
  rw [readsEarly, hpass, Bool.true_and, List.any_eq_false] at hearly
  have hs' := hearly s hs
  rw [hpub s hs] at hs'
  simpa using hs'

/-- One session at a time, if `start` waits and no creation leaks. -/
theorem oneAtATime_of_run (table : RouteTable) {as : List ServiceAction}
    (hrun : Run serviceStep (fun w a => handsOver w a = true) (serviceInit table) as w) :
    OneAtATime w := by
  have hinv : SingleSession SessionPc.Over w ∧ Accounted w := by
    refine hrun.invariant (P := fun w => SingleSession SessionPc.Over w ∧ Accounted w) ?_ ?_
    · exact ⟨.init table, .init table⟩
    -- the two invariants go together: who is live, and whose the routes are
    rintro v b u ⟨hsingle, hacc⟩ hok hstep
    have hok' : givesUp v b = false ∧ readsEarly v b = false ∧ leaks b = false := by
      simpa [handsOver, and_assoc] using hok
    obtain ⟨hwait, hearly, hleaks⟩ := hok'
    exact ⟨hsingle.step SessionPc.over_stable hwait (over_of_passes hearly) hstep,
      hacc.step hleaks hstep⟩
  obtain ⟨hsingle, hacc⟩ := hinv
  -- past its wait, `start` has all sessions before behind it
  have hsettled : w.gui.pastWait = true → ∀ s ∈ w.sessions, s.pc.Over := hsingle.settled
  refine ⟨fun p hp => ?_, fun p hp s hs => ?_, fun i j s t hi hj hs ht => ?_⟩
  · have hover := hsettled (by rw [hp]; rfl)
    exact ⟨fun s hs => s.over_iff.mpr (hover s hs), hacc.none_left fun s hs => (hover s hs).2⟩
  · exact s.over_iff.mpr (hsettled (by rw [hp]; rfl) s hs)
  · exact hsingle.older.unique hi hj (mt s.over_iff.mpr hs) (mt t.over_iff.mpr ht)

/-- No thread is on its way out with routes. -/
def NoneLate (w : World) : Prop := ∀ s ∈ w.sessions, s.pc.late = []

/-- Only a failing socket sends a thread away with its device. -/
theorem NoneLate.step (hinv : NoneLate w) (hok : failsWithDevice a = false)
    (hstep : serviceStep w a = some w') : NoneLate w' := by
  rcases serviceStep_cases hstep with ⟨g, rfl, heffect⟩ | ⟨i, b, m', ss', rfl, hst, rfl⟩
  · cases heffect with
    | spawn =>
      intro s hs
      rcases List.mem_append.mp hs with hold | hnew
      · exact hinv s hold
      · rw [List.mem_singleton.mp hnew]
        rfl
    | _ => exact hinv
  · exact stepAt_forall hst hinv fun t t' ht htstep => (Session.step_effect htstep).2.late hok ht

/-- A published end without routes is not read too early. -/
theorem NoneLate.not_readsEarly (hinv : NoneLate w) (a : ServiceAction) :
    readsEarly w a = false := by
  refine Bool.and_eq_false_iff.mpr (.inr (List.any_eq_false.mpr fun s hs => ?_))
  cases hpub : s.pc.published with
  | false => exact Bool.false_ne_true
  | true =>
    rw [SessionPc.held_of_published hpub, hinv s hs]
    exact Bool.false_ne_true

/-- When the calls go well `start` hands over. -/
theorem handsOver_of_goesWell (table : RouteTable) {as : List ServiceAction}
    (hrun : Run serviceStep (fun w a => goesWell w a = true) (serviceInit table) as w) :
    Run serviceStep (fun w a => handsOver w a = true) (serviceInit table) as w := by
  have hboth : Run serviceStep (fun w a => handsOver w a = true) (serviceInit table) as w
      ∧ NoneLate w := by
    refine hrun.history (P := fun as w =>
      Run serviceStep (fun w a => handsOver w a = true) (serviceInit table) as w ∧ NoneLate w) ?_ ?_
    · exact ⟨.nil _, fun s hs => absurd hs List.not_mem_nil⟩
    rintro bs v b u - ⟨hover, hlate⟩ hok hstep
    have hok' : givesUp v b = false ∧ failsWithDevice b = false ∧ leaks b = false := by
      simpa [goesWell, and_assoc] using hok
    obtain ⟨hwait, hfails, hleaks⟩ := hok'
    -- no thread is late, so nothing can be read early
    refine ⟨hover.snoc ?_ hstep, hlate.step hfails hstep⟩
    show handsOver v b = true
    rw [handsOver, hwait, hlate.not_readsEarly, hleaks]
    rfl
  exact hboth.1

/-- **One session at a time**, in every run in which the wait of `start` is neither given up nor
ended too early, and no creation leaves routes behind; in particular in every run in which the
sockets of the sessions do not fail. -/
theorem sessions_one_at_a_time (table : RouteTable) :
    (∀ as w, Run serviceStep (fun w a => handsOver w a = true) (serviceInit table) as w →
        OneAtATime w)
      ∧ ∀ as w, Run serviceStep (fun w a => goesWell w a = true) (serviceInit table) as w →
        OneAtATime w :=
  ⟨fun _ _ hrun => oneAtATime_of_run table hrun,
    fun _ _ hrun => oneAtATime_of_run table (handsOver_of_goesWell table hrun)⟩

/-! Two runs on a system without routes, with a profile `office` and a profile `home`. -/

section

def office : PhobosProfile :=
  { clientName := "office".toList, target := "203.0.113.7:51824".toList, key := [115, 101, 99]
    masking := "STUN".toList, localPort := 13255, maxDummy := 4, obfuscateBytes := 0
    rawWgConf := [], readyWgConfContent := [], readyWgConfPath := none }

def home : PhobosProfile := { office with clientName := "home".toList }

def officeConf : WireGuardConfig :=
  { privateKey := ⟨List.replicate 32 1, by decide⟩, clientIpv4 := .ofOctets 10 25 0 2
    clientIpv4Prefix := 32, clientIpv6 := none, dnsServers := [.v4 (.ofOctets 1 1 1 1)]
    mtu := 1280, peerPublicKey := ⟨List.replicate 32 2, by decide⟩, presharedKey := none
    persistentKeepalive := none, allowedIps := [] }

/-- An adapter whose routes are all accepted. -/
def officeSetup : AdapterSetup :=
  ⟨40, some (.ofOctets 192 168 1 1), ⟨none, none, none, none, none⟩⟩

/-- The accesses of a call of `start` that finds an inactive status. -/
def startNow (p : PhobosProfile) : List ServiceAction :=
  [.gui (.start p), .gui .go, .gui .go, .gui .go, .gui .go, .gui .go]

/-- The first session up to its device. -/
def untilDevice : List ServiceAction :=
  [.configParsed (.ok officeConf),
    .targetResolved (.ok (some ⟨.v4 (.ofOctets 203 0 113 7), 51824⟩)),
    .dummyBound (.ok ()), .interfaceFound (.ok 12), .deviceCreated (.ok officeSetup)].map
      (.session 0)

/-- The rest of the first session, if it is asked to stop when it monitors. -/
def connectAndStop : List ServiceAction :=
  [.udpBound (.ok ()), .udpConnected (.ok ()), .go, .go].map (.session 0) ++
    [.gui (.start home), .gui .go, .gui .go] ++
    [.go, .go, .workerCutOff 0, .go, .workerLoads 0, .go, .workerLoads 0, .go, .go].map
      (.session 0)

/-- One session is stopped by the next call of `start`, which then goes on. -/
def restarted : List ServiceAction :=
  startNow office ++ untilDevice ++ connectAndStop ++ List.replicate 4 (.gui .go)

/-- The first of two sessions is over when the second is spawned. -/
theorem sessions_one_at_a_time_restarted :
    (∃ w, (w.sessions.length = 1 ∧ w.gui = .spawn home) ∧ OneAtATime w)
      ∧ ∃ w, Run serviceStep (fun w a => goesWell w a = true) (serviceInit ∅) restarted w
        ∧ OneAtATime w := by
  have hexec : (execIf serviceStep handsOver (serviceInit ∅) restarted).any (fun w =>
      decide (w.sessions.length = 1 ∧ w.gui = .spawn home)) = true := by decide +kernel
  have hwell : (execIf serviceStep goesWell (serviceInit ∅) restarted).any (fun w =>
      decide (w.gui = .spawn home)) = true := by decide +kernel
  obtain ⟨w, hrun, hw⟩ := Run.of_execIf_any hexec
  obtain ⟨v, hgood, -⟩ := Run.of_execIf_any hwell
  exact ⟨⟨w, of_decide_eq_true hw, (sessions_one_at_a_time ∅).1 _ _ hrun⟩, v, hgood,
    (sessions_one_at_a_time ∅).2 _ _ hgood⟩

/-- A session is held up in name resolution, and `start` gives up waiting for it. -/
def gaveUp : List ServiceAction :=
  startNow office ++ [.session 0 (.configParsed (.ok officeConf))] ++
    [.gui (.start home), .gui .go, .gui .go] ++ List.replicate (maxPolls + 3) (.gui .go)

/-- After forty rounds the second is spawned next to the first. -/
theorem sessions_one_at_a_time_gave_up :
    ∃ w, Run serviceStep anyStep (serviceInit ∅) gaveUp w ∧ ¬ OneAtATime w := by
  have hexec : (exec serviceStep (serviceInit ∅) gaveUp).any (fun w =>
      decide (w.gui = .spawn home ∧ ∃ s ∈ w.sessions, s.pc.published = false)) = true := by
    decide +kernel
  obtain ⟨w, hrun, hw⟩ := Run.of_exec_any hexec
  -- the first session has published nothing
  obtain ⟨hgui, s, hs, hpub⟩ := of_decide_eq_true hw
  refine ⟨w, hrun, fun hone => ?_⟩
  have hover : s.pc.published = true := ((hone.spawned home hgui).1 s hs).1
  rw [hpub] at hover
  cases hover

end

/-! ## Inactive without routes -/

/-- A single session holds no route whenever its status is not an active one. -/
def InactiveWithoutRoutes (w : World) : Prop :=
  ∀ s, w.sessions = [s] → w.shared.status.isActive = false →
    s.pc.held = [] ∧ w.shared.os.Within []

/-- The steps after which an inactive status means that no route is left. -/
def cleansUp (_ : World) (a : ServiceAction) : Bool := !failsWithDevice a && !leaks a

/-- What holds as long as only one session has been started: while it runs, the status is
active, and it never leaves with routes. -/
structure Solo (w : World) : Prop where
  active : ∀ s ∈ w.sessions, s.pc.published = false → w.shared.status.isActive = true
  armed : w.sessions = [] → ∀ p, w.gui = .spawn p → w.shared.status.isActive = true
  late : ∀ s ∈ w.sessions, s.pc.late = []

/-- There is no session at first. -/
theorem Solo.init (table : RouteTable) : Solo (serviceInit table) where
  active := by intro s hs; cases hs
  armed := by intro _ p h; cases h
  late := by intro s hs; cases hs

/-- The GUI spawns the session, and writes `Connecting` first. -/
theorem Solo.gui_step {g : GuiAction} (hinv : w.sessions.length ≤ 1 → Solo w)
    (heffect : GuiEffect w g w') (hlen : w'.sessions.length ≤ 1) : Solo w' := by
  have hkeep : ∀ {gui : GuiPc}, (∀ p, gui ≠ .spawn p) → w.sessions.length ≤ 1 →
      ∀ m : Shared, m.status = w.shared.status → Solo ⟨m, gui, w.sessions⟩ := by
    intro gui hgui hlen m hm
    refine ⟨fun s hs hpub => ?_, fun _ p h => absurd h (hgui p), (hinv hlen).late⟩
    show m.status.isActive = true
    rw [hm]
    exact (hinv hlen).active s hs hpub
  cases heffect with
  | stay hgui | stop hgui => exact hkeep (GuiPc.ne_spawn hgui) hlen _ rfl
  | pass | giveUp | clearStop | writeName => exact hkeep (fun _ h => by cases h) hlen _ rfl
  | writeConnecting => exact ⟨fun _ _ _ => rfl, fun _ _ _ => rfl, (hinv hlen).late⟩
  | @spawn m p ss =>
    -- the first session: there was none before
    have hnil : ss = [] := by simpa using hlen
    subst hnil
    have hsolo := hinv (by simp)
    refine ⟨fun _ _ _ => hsolo.armed rfl p rfl, fun h => by simp at h, fun s hs => ?_⟩
    rw [List.mem_singleton.mp hs]
    rfl

/-- The one session moves, and takes the status with it. -/
theorem Solo.session_step {i : Nat} {b : SessionAction} {m' : Shared} {ss' : List Session}
    (hinv : w.sessions.length ≤ 1 → Solo w) (hok : b.isSocketError = false)
    (hstep : stepAt Session.step w.shared w.sessions i b = some (m', ss'))
    (hlen : ss'.length ≤ 1) : Solo ⟨m', w.gui, ss'⟩ := by
  obtain ⟨t, t', hget, hst, rfl⟩ := stepAt_cases hstep
  have heffect := (Session.step_effect hst).2
  rw [List.length_set] at hlen
  have hsolo := hinv hlen
  have hmem := List.mem_of_getElem? hget
  -- the mover is the only session
  have honly : w.sessions = [t] := by
    obtain ⟨u, hu⟩ := List.length_eq_one_iff.mp
      (Nat.le_antisymm hlen (List.length_pos_of_mem hmem))
    rw [hu] at hmem ⊢
    rw [List.mem_singleton.mp hmem]
  have hset : ∀ s ∈ w.sessions.set i t', s = t' := by
    intro s hs
    have hlt := (List.getElem?_eq_some_iff.mp hget).1
    rw [honly] at hs hlt
    rw [show i = 0 by simpa using hlt] at hs
    simpa using hs
  refine ⟨fun s hs hpub => ?_, fun h => ?_, fun s hs => ?_⟩
  · rw [hset s hs] at hpub
    exact heffect.active (hsolo.active t hmem) hpub
  · have hempty := congrArg List.length h
    rw [List.length_set, honly] at hempty
    cases hempty
  · rw [hset s hs]
    exact heffect.late hok (hsolo.late t hmem)

/-- Both together. -/
theorem Solo.step (hinv : w.sessions.length ≤ 1 → Solo w) (hok : failsWithDevice a = false)
    (hstep : serviceStep w a = some w') (hlen : w'.sessions.length ≤ 1) : Solo w' := by
  rcases serviceStep_cases hstep with ⟨g, rfl, heffect⟩ | ⟨i, b, m', ss', rfl, hst, rfl⟩
  · exact Solo.gui_step hinv heffect hlen
  · exact Solo.session_step hinv hok hst hlen

/-- **An inactive status means that no route is left**, for as long as one session is all there is,
in every run in which no socket fails after the device is there and no creation leaves routes
behind. -/
theorem inactive_without_routes (table : RouteTable) {as : List ServiceAction}
    (hrun : Run serviceStep (fun w a => cleansUp w a = true) (serviceInit table) as w) :
    InactiveWithoutRoutes w := by
  have hinv : (w.sessions.length ≤ 1 → Solo w) ∧ Accounted w := by
    refine hrun.invariant
      (P := fun w => (w.sessions.length ≤ 1 → Solo w) ∧ Accounted w) ?_ ?_
    · exact ⟨fun _ => .init table, .init table⟩
    rintro v b u ⟨hsolo, hacc⟩ hok hstep
    have hok' : failsWithDevice b = false ∧ leaks b = false := by simpa [cleansUp] using hok
    exact ⟨Solo.step hsolo hok'.1 hstep, hacc.step hok'.2 hstep⟩
  obtain ⟨hsolo, hacc⟩ := hinv
  intro s hone hstatus
  have hsolo := hsolo (by rw [hone]; exact Nat.le_refl 1)
  have hs : s ∈ w.sessions := by rw [hone]; exact List.mem_singleton_self s
  -- an inactive status is one that the session has published
  have hpub : s.pc.published = true := by
    cases hpub : s.pc.published with
    | true => rfl
    | false =>
      have hactive := hsolo.active s hs hpub
      rw [hstatus] at hactive
      cases hactive
  have hheld : s.pc.held = [] := by
    rw [SessionPc.held_of_published hpub]
    exact hsolo.late s hs
  refine ⟨hheld, hacc.none_left fun t ht => ?_⟩
  rw [hone] at ht
  rw [List.mem_singleton.mp ht]
  exact hheld

section

/-- A session that is stopped while it monitors. -/
def stopped : List ServiceAction :=
  startNow office ++ untilDevice ++
    [.udpBound (.ok ()), .udpConnected (.ok ()), .go, .go].map (.session 0) ++
    [.gui .stop, .gui .go] ++
    [.go, .go, .workerCutOff 0, .go, .workerLoads 0, .go, .workerLoads 0, .go, .go].map
      (.session 0)

/-- A session is stopped, and has removed what it had created. -/
theorem inactive_without_routes_stopped :
    ∃ w, (w.sessions.length = 1 ∧ w.shared.status = .disconnected ∧ w.shared.os.created ≠ []) ∧
      InactiveWithoutRoutes w := by
  have hexec : (execIf serviceStep cleansUp (serviceInit ∅) stopped).any (fun w =>
      decide (w.sessions.length = 1 ∧ w.shared.status = .disconnected ∧
        w.shared.os.created ≠ [])) = true := by decide +kernel
  obtain ⟨w, hrun, hw⟩ := Run.of_execIf_any hexec
  exact ⟨w, of_decide_eq_true hw, inactive_without_routes ∅ hrun⟩

/-- The tunnel's socket cannot be bound after the device has been created. -/
def socketFailed : List ServiceAction :=
  startNow office ++ untilDevice ++
    [.udpBound (.error "no buffer space"), .go].map (.session 0)

/-- A socket fails, and the error is published with the routes still there. -/
theorem inactive_without_routes_socket_failed :
    ∃ w, Run serviceStep anyStep (serviceInit ∅) socketFailed w ∧ ¬ InactiveWithoutRoutes w := by
  have hexec : (exec serviceStep (serviceInit ∅) socketFailed).any (fun w =>
      decide (w.sessions.length = 1 ∧ w.shared.status.isActive = false ∧
        ∃ s ∈ w.sessions, s.pc.held ≠ [])) = true := by
    decide +kernel
  obtain ⟨w, hrun, hw⟩ := Run.of_exec_any hexec
  obtain ⟨hlen, hstatus, s, hs, hheld⟩ := of_decide_eq_true hw
  obtain ⟨t, ht⟩ := List.length_eq_one_iff.mp hlen
  rw [ht] at hs
  refine ⟨w, hrun, fun hclean => hheld ?_⟩
  rw [List.mem_singleton.mp hs]
  exact (hclean t ht hstatus).1

end

end Phobos
