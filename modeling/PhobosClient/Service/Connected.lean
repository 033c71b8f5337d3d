import PhobosClient.Routes.Matching
import PhobosClient.Service.Stop

/-!
# PhobosClient — what "connected" stands for

A session publishes `Connected` when it first sees that the engine has completed a handshake, and
takes it back when its workers have been joined. A user takes two things from it: the tunnel of
this profile is up, and packets go into it.

**`connected_is_up`** says that both are so, until a stop is asked for, in the runs in which
`start` neither gives up waiting nor reads the error of a session that still owns its device. In
the others the session before may remove the routes under the new one, which stays `Connected`:
`connected_past_the_tunnel`. The two halves are `Covered`, about the routes, and `Backed`, about
the status.
-/

namespace Phobos

open Threads Steps LongestMatch

namespace VpnRouteManager

/-- The two IPv4 halves are in the table. -/
def Halves (m : VpnRouteManager) (table : RouteTable) : Prop :=
  m.lowerKey ∈ table ∧ m.upperKey ∈ table

/-- An IPv4 destination for which there are only default routes, apart from routes of the adapter,
is routed to the adapter. -/
def Takes (m : VpnRouteManager) (table : RouteTable) : Prop :=
  ∀ a : Ipv4Addr,
    (∀ k ∈ table, k.Covers (.v4 a) → k.prefixLen = 0 ∨ k.ifIndex = m.adapterIfIndex) →
    table.RoutedTo m.adapterIfIndex (.v4 a)

/-- The halves are longer than a default route, and so serve what only default routes cover. -/
theorem Halves.takes {m : VpnRouteManager} {table : RouteTable} (h : m.Halves table) :
    m.Takes table := by
  intro a hothers
  have hhalf : ∃ k, (k ∈ table ∧ k.Covers (.v4 a)) ∧ k.prefixLen = 1 := by
    -- the two halves cover every destination between them
    cases hmsb : a.msb with
    | false => exact ⟨m.lowerKey, ⟨h.1, (lowerKey_covers m a).mpr hmsb⟩, rfl⟩
    | true => exact ⟨m.upperKey, ⟨h.2, (upperKey_covers m a).mpr hmsb⟩, rfl⟩
  obtain ⟨half, hmem, hone⟩ := hhalf
  refine ⟨RouteTable.exists_serves hmem.1 hmem.2, fun k hk => ?_⟩
  -- what serves the destination is no shorter than the half
  have hlen : half.prefixLen ≤ k.prefixLen := hk.len_le half hmem
  rcases hothers k hk.mem.1 hk.mem.2 with hzero | hif
  · -- a default route is shorter
    omega
  · exact hif

/-- A successful installation puts them there. -/
theorem halves_installRoutes {m m' : VpnRouteManager} {faults : InstallFaults} {os os' : RouteOs}
    (hok : m.installRoutes faults os = (.ok (), m', os')) : m'.Halves os'.table := by
  obtain ⟨hl, hu, rfl, -⟩ := table_installRoutes hok
  have hlower : (m.lowerKey, none) ∈ m.creations faults :=
    mem_creations_iff.mpr (.inr (.inl ⟨rfl, hl⟩))
  have hupper : (m.upperKey, none) ∈ m.creations faults :=
    mem_creations_iff.mpr (.inr (.inr (.inl ⟨rfl, hu⟩)))
  exact ⟨(mem_installRoutes hok _).mpr (.inl hlower), (mem_installRoutes hok _).mpr (.inl hupper)⟩

end VpnRouteManager

/-- A device that has been created has its two halves in the table. -/
theorem WintunDevice.create_halves {setup : Except String AdapterSetup} {wgConf : WireGuardConfig}
    {serverIp : Ipv4Addr} {physicalIfIndex : Nat} {os os' : RouteOs} {dev : WintunDevice}
    (hok : create setup wgConf serverIp physicalIfIndex os = (.ok dev, os')) :
    dev.routeManager.Halves os'.table := by
  cases setup with
  | error e => cases hok
  | ok setup =>
    unfold create at hok
    simp only at hok
    split at hok
    · cases hok
    · next manager os₁ hinstall =>
      -- the device has the manager that the installation returns
      cases hok
      exact VpnRouteManager.halves_installRoutes hinstall

/-! ## The tunnel of a session -/

namespace SessionPc

/-- The device of a session from its creation until it is shut down. -/
def tunnel : SessionPc → Option WintunDevice
  | bindUdp dev _ | connectUdp dev _ | publishConnecting dev | spawnWorkers dev => some dev
  | monitor dev _ _ | observe dev _ _ | publishConnected dev _ | shutdown dev _ => some dev
  | _ => none

/-- In the monitor loop. -/
def monitors : SessionPc → Bool
  | monitor _ _ _ | observe _ _ _ | publishConnected _ _ => true
  | _ => false

/-- In the monitor loop, or on the way from it to the end. -/
def watching : SessionPc → Bool
  | monitor _ _ _ | observe _ _ _ | publishConnected _ _ | shutdown _ _ | join _ _ => true
  | _ => false

/-- About to publish `Connected`. -/
def connects : SessionPc → Bool
  | publishConnected _ _ => true
  | _ => false

variable {profile : PhobosProfile} {m m' : Shared} {pc pc' : SessionPc} {a : SessionAction}
  {dev : WintunDevice}

/-- A session with a tunnel has not published its end. -/
theorem published_of_tunnel (h : pc.tunnel = some dev) : pc.published = false := by
  cases pc <;> first | rfl | cases h

/-- Neither has one in the monitor loop, or on its way out of it. -/
theorem published_of_watching (h : pc.watching = true) : pc.published = false := by
  cases pc <;> first | rfl | cases h

/-- `Connected` is published from the monitor loop. -/
theorem watching_of_connects (h : pc.connects = true) :
    pc.watching = true ∧ pc.monitors = true := by
  cases pc <;> first | exact ⟨rfl, rfl⟩ | cases h

/-- A tunnel has a device. -/
theorem device_of_tunnel (h : pc.tunnel = some dev) : pc.device = some dev := by
  cases pc <;> first | exact h | cases h

/-- And it is there while the thread has a good deal left to do. -/
theorem ownStepsLeft_of_tunnel (h : pc.tunnel = some dev) : 4 ≤ pc.ownStepsLeft := by
  cases pc <;> first | exact Nat.le_of_ble_eq_true rfl | cases h

/-- Until then every device is that of a tunnel. -/
theorem tunnel_of_device (h : pc.device = some dev) (hown : 4 ≤ pc.ownStepsLeft) :
    pc.tunnel = some dev := by
  cases pc <;> first | exact h | simp [ownStepsLeft] at hown

/-- The monitor loop has a tunnel. -/
theorem exists_tunnel_of_monitors (h : pc.monitors = true) : ∃ dev, pc.tunnel = some dev := by
  cases pc with
  | monitor dev | observe dev | publishConnected dev => exact ⟨dev, rfl⟩
  | _ => cases h

/-- The thread only moves on. -/
theorem Move.ownStepsLeft (h : Move m pc pc') (hown : 4 ≤ pc'.ownStepsLeft) :
    4 ≤ pc.ownStepsLeft := by
  cases h with
  | advance _ hless => omega
  | spawn | observe | release => exact Nat.le_of_ble_eq_true rfl
  | joined => exact hown
  | workerStops hget =>
    have hne : pc.workers ≠ [] := List.ne_nil_of_mem (List.mem_of_getElem? hget)
    rwa [stopWorker, (setWorkers_spec hne _).1] at hown
  | workerLoads => exact hown

/-- **Where a tunnel comes from.** It was there before, and the thread has left the routes alone, or
the device has just been created. -/
theorem step_tunnel (h : pc.step profile m a = some (m', pc')) (ht : pc'.tunnel = some dev) :
    (pc.tunnel = some dev ∧ m'.os = m.os) ∨ dev.routeManager.Halves m'.os.table := by
  have hown := (step_move h).ownStepsLeft (ownStepsLeft_of_tunnel ht)
  have hdevice := device_of_tunnel ht
  cases step_effect h with
  | work _ _ hdev _ | activate _ _ _ hdev _ =>
    rw [hdev] at hdevice
    exact .inl ⟨tunnel_of_device hdevice hown, rfl⟩
  | create hcreate =>
    cases ht
    -- the one step that installs routes
    exact .inr (WintunDevice.create_halves hcreate)
  | createFailed | socketFailed | release => cases ht
  | publishError | publishDisconnected | clearName | drop | finish => cases ht

/-- A thread that is over leaves the routes alone. -/
theorem Effect.os_of_over (h : Effect m pc a m' pc') (hover : pc.Over) : m'.os = m.os := by
  have hpub := hover.1
  cases h with
  | @drop dev =>
    have hheld : dev.held = [] := hover.2
    -- without routes of its own, the drop removes nothing
    have hflag : dev.routeManager.routesInstalled = false := by
      rw [← Bool.not_eq_true]
      intro htrue
      rw [WintunDevice.held, if_pos htrue] at hheld
      cases hheld
    show (dev.routeManager.removeRoutes m.os).2 = m.os
    rw [VpnRouteManager.removeRoutes_of_not_installed hflag]
  | create | createFailed | release => cases hpub
  | _ => rfl

/-! ## Who publishes `Connected` -/

/-- `Connected` is the write of one place. -/
theorem goStep_connected (h : pc.goStep m = some (m', pc')) (hstatus : m'.status = .connected) :
    m.status = .connected ∨ pc.connects = true := by
  cases pc with
  | publishConnected => exact .inr rfl
  | publishConnecting | publishError =>
    cases h
    cases hstatus
  | join dev ws =>
    cases ws with
    | nil => cases h; cases hstatus
    | cons w ws =>
      simp only [goStep] at h
      split at h <;> cases h
      exact .inl hstatus
  | returning dev => cases dev <;> cases h <;> exact .inl hstatus
  | spawnWorkers | monitor | shutdown | clearName =>
    cases h
    exact .inl hstatus
  | _ => cases h

/-- Only a session that is about to do so makes the status `Connected`. -/
theorem step_connected (h : pc.step profile m a = some (m', pc'))
    (hstatus : m'.status = .connected) : m.status = .connected ∨ pc.connects = true := by
  have heffect := step_effect h
  cases a with
  | go => exact goStep_connected h hstatus
  | _ => cases heffect <;> exact .inl hstatus

/-- The workers do not say where the thread is. -/
theorem setWorkers_place (pc : SessionPc) (ws : List Worker) :
    (pc.setWorkers ws).connects = pc.connects ∧ (pc.setWorkers ws).watching = pc.watching
      ∧ (pc.setWorkers ws).monitors = pc.monitors := by
  cases pc <;> exact ⟨rfl, rfl, rfl⟩

/-- What a worker does does not move the thread. -/
theorem step_worker {i : Nat} (ha : a = .workerLoads i ∨ a = .workerCutOff i)
    (h : pc.step profile m a = some (m', pc')) : m' = m ∧ ∃ ws, pc' = pc.setWorkers ws := by
  rcases ha with rfl | rfl
  · simp only [step] at h
    split at h
    · split at h
      · cases h
        -- the worker goes on, or leaves its loop
        cases m.stopSignal with
        | false => exact ⟨rfl, pc.workers, (setWorkers_workers pc).symm⟩
        | true => exact ⟨rfl, _, rfl⟩
      · cases h
    · cases h
  · simp only [step] at h
    split at h
    · split at h <;> cases h
      exact ⟨rfl, _, rfl⟩
    · cases h

/-- A session is about to publish `Connected` once it has observed a handshake. -/
theorem step_connects (h : pc.step profile m a = some (m', pc')) (hc : pc'.connects = true) :
    pc.connects = true ∨ a = .observed true := by
  cases a with
  | go =>
    cases pc with
    | publishConnected => exact .inl rfl
    | publishConnecting | spawnWorkers | shutdown | publishError | clearName =>
      cases h
      cases hc
    | monitor dev ws logged =>
      cases h
      split at hc <;> cases hc
    | join dev ws =>
      cases ws with
      | nil => cases h; cases hc
      | cons w ws =>
        simp only [step, goStep] at h
        split at h <;> cases h
        cases hc
    | returning dev => cases dev <;> cases h <;> cases hc
    | _ => cases h
  | observed handshake =>
    cases handshake with
    | true => exact .inr rfl
    | false =>
      simp only [step] at h
      split at h <;> cases h
      cases hc
  | workerLoads i =>
    -- a worker does not make its session connect
    obtain ⟨-, ws, rfl⟩ := step_worker (.inl rfl) h
    rw [(setWorkers_place pc ws).1] at hc
    exact .inl hc
  | workerCutOff i =>
    obtain ⟨-, ws, rfl⟩ := step_worker (.inr rfl) h
    rw [(setWorkers_place pc ws).1] at hc
    exact .inl hc
  | deviceCreated setup =>
    simp only [step] at h
    split at h
    · split at h <;> cases h <;> cases hc
    · cases h
  | _ =>
    simp only [step] at h
    split at h <;> cases h <;> cases hc

/-- **A session that has connected** and has not published its end is in the monitor loop, or on
its way out of it because it was asked to stop. -/
theorem step_watching (h : pc.step profile m a = some (m', pc')) (hwatching : pc.watching = true)
    (hstatus : m'.status = .connected) : pc'.watching = true
      ∧ (m.stopSignal = true ∨ pc.monitors = true → m.stopSignal = true ∨ pc'.monitors = true) := by
  cases a with
  | go =>
    cases pc with
    | monitor dev ws logged =>
      cases h
      -- the loop ends only on a request
      cases m.stopSignal with
      | false => exact ⟨rfl, fun _ => .inr rfl⟩
      | true => exact ⟨rfl, fun _ => .inl rfl⟩
    | publishConnected dev ws => cases h; exact ⟨rfl, fun _ => .inr rfl⟩
    | shutdown dev ws => cases h; exact ⟨rfl, id⟩
    | join dev ws =>
      cases ws with
      | nil => cases h; cases hstatus
      | cons w ws =>
        simp only [step, goStep] at h
        split at h <;> cases h
        exact ⟨rfl, id⟩
    | observe => cases h
    | _ => cases hwatching
  | observed handshake =>
    simp only [step] at h
    split at h
    · next dev ws logged =>
      cases h
      -- the first handshake is published, and the loop goes on
      cases handshake && !logged with
      | false => exact ⟨rfl, fun _ => .inr rfl⟩
      | true => exact ⟨rfl, fun _ => .inr rfl⟩
    · cases h
  | workerLoads i =>
    obtain ⟨-, ws, rfl⟩ := step_worker (.inl rfl) h
    obtain ⟨-, hw, hm⟩ := setWorkers_place pc ws
    rw [hw, hm]
    exact ⟨hwatching, id⟩
  | workerCutOff i =>
    obtain ⟨-, ws, rfl⟩ := step_worker (.inr rfl) h
    obtain ⟨-, hw, hm⟩ := setWorkers_place pc ws
    rw [hw, hm]
    exact ⟨hwatching, id⟩
  | deviceCreated setup =>
    simp only [step] at h
    split at h
    · cases hwatching
    · cases h
  | _ =>
    simp only [step] at h
    split at h <;> cases h <;> cases hwatching

end SessionPc

/-- A session keeps its profile. -/
theorem Session.step_spec {m m' : Shared} {s s' : Session} {a : SessionAction}
    (h : s.step m a = some (m', s')) :
    s'.profile = s.profile ∧ s.pc.step s.profile m a = some (m', s'.pc) := by
  unfold Session.step at h
  obtain ⟨⟨m₁, pc'⟩, hstep, heq⟩ := Option.map_eq_some_iff.mp h
  cases heq
  exact ⟨rfl, hstep⟩

/-! ## The routes of a tunnel -/

/-- `start` neither gives up waiting nor reads the error of a session that still owns a device. -/
def waitsOut (w : World) (a : ServiceAction) : Bool := !givesUp w a && !readsEarly w a

/-- The halves of every tunnel are in the table. -/
def Covered (w : World) : Prop :=
  ∀ s ∈ w.sessions, ∀ dev, s.pc.tunnel = some dev → dev.routeManager.Halves w.shared.os.table

variable {w w' : World} {a : ServiceAction}

/-- Whoever waits the sessions out has one that is not over at most. -/
theorem SingleSession.waited (h : SingleSession SessionPc.Over w) (hok : waitsOut w a = true)
    (hstep : serviceStep w a = some w') : SingleSession SessionPc.Over w' := by
  obtain ⟨hwait, hearly⟩ : givesUp w a = false ∧ readsEarly w a = false := by
    simpa [waitsOut] using hok
  exact h.step SessionPc.over_stable hwait (over_of_passes hearly) hstep

/-- There are no sessions at first. -/
theorem Covered.init (table : RouteTable) : Covered (serviceInit table) := by
  intro s hs
  cases hs

/-- A tunnel keeps its halves: its own session leaves them alone, and every other session is
over. -/
theorem Covered.step (hsingle : SingleSession SessionPc.Over w) (h : Covered w)
    (hstep : serviceStep w a = some w') : Covered w' := by
  rcases serviceStep_cases hstep with ⟨g, rfl, heffect⟩ | ⟨i, b, m', ss', rfl, hst, rfl⟩
  · cases heffect with
    | spawn =>
      intro s hs dev ht
      -- a new session has no device yet
      rcases List.mem_append.mp hs with hold | hnew
      · exact h s hold dev ht
      · rw [List.mem_singleton.mp hnew] at ht
        cases ht
    | _ => exact h
  · obtain ⟨t, t', hget, htstep, rfl⟩ := stepAt_cases hst
    intro s hs dev ht
    obtain ⟨j, hj⟩ := List.mem_iff_getElem?.mp hs
    by_cases hij : i = j
    · -- the mover's own tunnel
      subst hij
      have hlt := (List.getElem?_eq_some_iff.mp hget).1
      rw [List.getElem?_set_self hlt] at hj
      cases hj
      rcases SessionPc.step_tunnel (Session.step_spec htstep).2 ht with ⟨hbefore, hos⟩ | hnew
      · show dev.routeManager.Halves m'.os.table
        rw [hos]
        exact h t (List.mem_of_getElem? hget) dev hbefore
      · exact hnew
    · -- the session with this tunnel is the only one that is not over
      rw [List.getElem?_set_ne hij] at hj
      have hnot : ¬ s.pc.Over := by
        intro hover
        have hpub := hover.1
        rw [SessionPc.published_of_tunnel ht] at hpub
        cases hpub
      have hover : t.pc.Over := by
        by_contra hlive
        exact hij (hsingle.older.unique hget hj hlive hnot)
      show dev.routeManager.Halves m'.os.table
      rw [(Session.step_effect htstep).2.os_of_over hover]
      exact h s (List.mem_of_getElem? hj) dev ht

/-! ## The session behind the status -/

/-- The session at position `i` is the newest one, has connected, and is going to stay so unless it
has been asked to stop. `Seen` says which sessions have observed a handshake. -/
structure BackedBy (Seen : Nat → Prop) (w : World) (i : Nat) (s : Session) : Prop where
  newest : i + 1 = w.sessions.length
  get : w.sessions[i]? = some s
  watching : s.pc.watching = true
  seen : Seen i
  stays : w.shared.stopSignal = true ∨ s.pc.monitors = true

/-- `Connected` has such a session behind it. -/
structure Backed (Seen : Nat → Prop) (w : World) : Prop where
  connects : ∀ (i : Nat) (s : Session), w.sessions[i]? = some s → s.pc.connects = true → Seen i
  connected : w.shared.status = .connected → ∃ i s, BackedBy Seen w i s

variable {Seen Seen' : Nat → Prop}

/-- While it is there, no `start` is past its wait. -/
theorem BackedBy.not_pastWait {i : Nat} {s : Session} (hsingle : SingleSession SessionPc.Over w)
    (h : BackedBy Seen w i s) : w.gui.pastWait = false := by
  rw [← Bool.not_eq_true]
  intro hpast
  have hpub := (hsingle.settled hpast s (List.mem_of_getElem? h.get)).1
  rw [SessionPc.published_of_watching h.watching] at hpub
  cases hpub

/-- The service starts disconnected. -/
theorem Backed.init (table : RouteTable) : Backed Seen (serviceInit table) where
  connects := by intro i s hs; cases hs
  connected := by intro h; cases h

/-- More sessions may have observed a handshake. -/
theorem Backed.mono (h : Backed Seen w) (hseen : ∀ j, Seen j → Seen' j) : Backed Seen' w := by
  refine ⟨fun i s hs hc => hseen i (h.connects i s hs hc), fun hstatus => ?_⟩
  obtain ⟨i, s, hb⟩ := h.connected hstatus
  exact ⟨i, s, hb.newest, hb.get, hb.watching, hseen i hb.seen, hb.stays⟩

/-- The GUI can ask the session to stop, and cannot overtake it. -/
theorem Backed.gui_step {g : GuiAction} (hsingle : SingleSession SessionPc.Over w)
    (h : Backed Seen w) (heffect : GuiEffect w g w') : Backed Seen w' := by
  -- as long as status and sessions stay, a stop request at most is new
  have hstay : ∀ {gui : GuiPc} {stopSignal : Bool},
      (w.shared.stopSignal = true → stopSignal = true) →
      Backed Seen ⟨{ w.shared with stopSignal }, gui, w.sessions⟩ := by
    intro gui stopSignal hstop
    refine ⟨h.connects, fun hstatus => ?_⟩
    obtain ⟨i, s, hb⟩ := h.connected hstatus
    exact ⟨i, s, hb.newest, hb.get, hb.watching, hb.seen, hb.stays.imp hstop id⟩
  cases heffect with
  | stay | pass | giveUp => exact hstay id
  | stop => exact hstay fun _ => rfl
  | clearStop =>
    refine ⟨h.connects, fun hstatus => ?_⟩
    -- the request is withdrawn only past the wait
    obtain ⟨i, s, hb⟩ := h.connected hstatus
    cases hb.not_pastWait hsingle
  | writeName =>
    refine ⟨h.connects, fun hstatus => ?_⟩
    obtain ⟨i, s, hb⟩ := h.connected hstatus
    cases hb.not_pastWait hsingle
  | writeConnecting =>
    refine ⟨h.connects, fun hstatus => ?_⟩
    cases hstatus
  | @spawn m p ss =>
    refine ⟨fun i s hs hc => ?_, fun hstatus => ?_⟩
    · rcases Nat.lt_or_ge i ss.length with hlt | hge
      · rw [List.getElem?_append_left hlt] at hs
        exact h.connects i s hs hc
      · rw [List.getElem?_append_right hge] at hs
        have hnew := List.mem_of_getElem? hs
        rw [List.mem_singleton.mp hnew] at hc
        cases hc
    · obtain ⟨i, s, hb⟩ := h.connected hstatus
      cases hb.not_pastWait hsingle

/-- A session publishes `Connected` itself, and is the newest one when it does. -/
theorem Backed.session_step {i : Nat} {b : SessionAction} {m' : Shared} {ss' : List Session}
    (hsingle : SingleSession SessionPc.Over w) (h : Backed Seen w)
    (hseen : ∀ j, Seen j → Seen' j) (hobserved : b = .observed true → Seen' i)
    (hstep : stepAt Session.step w.shared w.sessions i b = some (m', ss')) :
    Backed Seen' ⟨m', w.gui, ss'⟩ := by
  obtain ⟨t, t', hget, htstep, rfl⟩ := stepAt_cases hstep
  have hpc := (Session.step_spec htstep).2
  have hstop := (Session.step_effect htstep).2.stopSignal
  have hlt := (List.getElem?_eq_some_iff.mp hget).1
  constructor
  · intro j s hs hc
    by_cases hij : i = j
    · subst hij
      rw [List.getElem?_set_self hlt] at hs
      cases hs
      rcases SessionPc.step_connects hpc hc with hbefore | hobs
      · exact hseen i (h.connects i t hget hbefore)
      · exact hobserved hobs
    · rw [List.getElem?_set_ne hij] at hs
      exact hseen j (h.connects j s hs hc)
  · intro hstatus
    -- the session behind the status is found before the step
    have hbefore : ∃ j s, BackedBy Seen w j s := by
      rcases SessionPc.step_connected hpc hstatus with hsame | hc
      · exact h.connected hsame
      · -- it is the mover: a session before it would be over
        have hwatching := SessionPc.watching_of_connects hc
        refine ⟨i, t, ⟨?_, hget, hwatching.1, h.connects i t hget hc, .inr hwatching.2⟩⟩
        by_contra hne
        have hover := hsingle.older i t hget (by omega)
        have hpub := hover.1
        rw [SessionPc.published_of_watching hwatching.1] at hpub
        cases hpub
    obtain ⟨j, s, hb⟩ := hbefore
    have hnewest : j + 1 = (w.sessions.set i t').length := by
      rw [List.length_set]
      exact hb.newest
    by_cases hij : i = j
    · subst hij
      cases hget.symm.trans hb.get
      obtain ⟨hwatching, hstays⟩ := SessionPc.step_watching hpc hb.watching hstatus
      refine ⟨i, t', ⟨hnewest, List.getElem?_set_self hlt, hwatching, hseen i hb.seen, ?_⟩⟩
      show m'.stopSignal = true ∨ _
      rw [hstop]
      exact hstays hb.stays
    · -- another session moves, and leaves this one as it is
      refine ⟨j, s, ⟨hnewest, ?_, hb.watching, hseen j hb.seen, ?_⟩⟩
      · show (w.sessions.set i t')[j]? = some s
        rw [List.getElem?_set_ne hij]
        exact hb.get
      · show m'.stopSignal = true ∨ _
        rw [hstop]
        exact hb.stays

/-- Both together. -/
theorem Backed.step (hsingle : SingleSession SessionPc.Over w) (h : Backed Seen w)
    (hseen : ∀ j, Seen j → Seen' j) (hobserved : ∀ i, a = .session i (.observed true) → Seen' i)
    (hstep : serviceStep w a = some w') : Backed Seen' w' := by
  rcases serviceStep_cases hstep with ⟨g, rfl, heffect⟩ | ⟨i, b, m', ss', rfl, hst, rfl⟩
  · exact (h.gui_step hsingle heffect).mono hseen
  · exact h.session_step hsingle hseen (fun hb => hobserved i (by rw [hb])) hst

/-! ## Whose name it is -/

/-- The profile that a name in the service belongs to: the one `start` has written, or that of the
newest session. -/
def World.owner (w : World) : Option Text :=
  match w.gui with
  | .writeConnecting p | .spawn p => some p.clientName
  | _ => w.sessions.getLast?.map fun s => s.profile.clientName

def OwnersName (w : World) : Prop :=
  ∀ name, w.shared.activeProfileName = some name → w.owner = some name

/-- `start` writes the name of the profile that it is going to start. -/
theorem guiStep_owner {g : GuiAction} (h : guiStep w g = some w') :
    w'.shared.activeProfileName = w.shared.activeProfileName ∧ w'.owner = w.owner
      ∨ w'.shared.activeProfileName = w'.owner := by
  obtain ⟨m, gui, ss⟩ := w
  cases g with
  | go =>
    cases gui with
    | idle => cases h
    | writeName p => cases h; exact .inr rfl
    | spawn p =>
      -- the new session takes the name over
      cases h
      refine .inl ⟨rfl, ?_⟩
      simp only [World.owner, List.getLast?_concat, Option.map_some]
    | check p =>
      cases h
      refine .inl ⟨rfl, ?_⟩
      -- neither way out of the check writes a name
      cases hstatus : m.status.isActive <;> simp only [World.owner] <;> rfl
    | toggleNamed p named =>
      cases h
      refine .inl ⟨rfl, ?_⟩
      cases hcond : named && m.status != .disconnected <;> simp only [World.owner] <;> rfl
    | poll p polls =>
      simp only [guiStep, guiGo] at h
      split at h
      · cases h; exact .inl ⟨rfl, rfl⟩
      · split at h <;> cases h <;> exact .inl ⟨rfl, rfl⟩
    | _ => cases h; exact .inl ⟨rfl, rfl⟩
  | _ =>
    cases gui with
    | idle => cases h; exact .inl ⟨rfl, rfl⟩
    | _ => cases h

/-- The steps of a session do not make another one the newest. -/
theorem session_owner {i : Nat} {b : SessionAction} (h : serviceStep w (.session i b) = some w') :
    w'.owner = w.owner := by
  rcases serviceStep_cases h with ⟨g, hg, -⟩ | ⟨j, c, m', ss', -, hst, rfl⟩
  · cases hg
  · have hlast : (ss'.getLast?.map fun s => s.profile.clientName)
        = w.sessions.getLast?.map fun s => s.profile.clientName := by
      cases hlast : w.sessions.getLast? with
      | none =>
        obtain ⟨t, t', hget, -, -⟩ := stepAt_cases hst
        rw [List.getLast?_eq_none_iff.mp hlast] at hget
        cases hget
      | some s =>
        -- the newest session is another one, or has moved and kept its profile
        obtain ⟨s', hlast', rfl | hmove⟩ := stepAt_getLast? hst hlast
        · rw [hlast']
        · rw [hlast', Option.map_some, Option.map_some, (Session.step_spec hmove).1]
    simp only [World.owner, hlast]

/-- There is no name at first. -/
theorem OwnersName.init (table : RouteTable) : OwnersName (serviceInit table) := by
  intro name h
  cases h

/-- The name is written by `start` and cleared by sessions. -/
theorem OwnersName.step (h : OwnersName w) (hstep : serviceStep w a = some w') :
    OwnersName w' := by
  intro name hname
  cases a with
  | gui g =>
    rcases guiStep_owner hstep with ⟨hsame, howner⟩ | howner
    · rw [howner]
      exact h name (hsame ▸ hname)
    · rw [← howner, hname]
  | session i b =>
    -- a session only ever clears the name
    rw [session_owner hstep]
    rcases serviceStep_cases hstep with ⟨g, hg, -⟩ | ⟨j, c, m', ss', -, hst, rfl⟩
    · cases hg
    · have hname : m'.activeProfileName = some name := hname
      obtain ⟨t, t', -, htstep, -⟩ := stepAt_cases hst
      have hsame := (Session.step_effect htstep).2.name_left
        (by rw [hname]; exact Option.some_ne_none _)
      exact h name (hsame ▸ hname)

/-! ## What "connected" stands for -/

/-- All that is known of the service when no `start` gives up or reads early. -/
structure Sound (Seen : Nat → Prop) (w : World) : Prop where
  single : SingleSession SessionPc.Over w
  covered : Covered w
  backed : Backed Seen w
  owner : OwnersName w

/-- So it is at first. -/
theorem Sound.init (table : RouteTable) : Sound Seen (serviceInit table) :=
  ⟨.init table, .init table, .init table, .init table⟩

/-- More sessions may have observed a handshake. -/
theorem Sound.mono (h : Sound Seen w) (hseen : ∀ j, Seen j → Seen' j) : Sound Seen' w :=
  ⟨h.single, h.covered, h.backed.mono hseen, h.owner⟩

/-- **All four are kept together**, by every step of a run that waits the sessions out. -/
theorem Sound.step (h : Sound Seen w) (hok : waitsOut w a = true)
    (hseen : ∀ j, Seen j → Seen' j) (hobserved : ∀ i, a = .session i (.observed true) → Seen' i)
    (hstep : serviceStep w a = some w') : Sound Seen' w' :=
  ⟨h.single.waited hok hstep, h.covered.step h.single hstep,
    h.backed.step h.single hseen hobserved hstep, h.owner.step hstep⟩

/-- `Connected`, unfolded: the newest session has observed a handshake, the name in the service is
its profile's unless it has been cleared, and until a stop is asked for it owns a device whose two
halves are in the table and take the traffic. -/
structure IsUp (Seen : Nat → Prop) (w : World) (i : Nat) (s : Session) : Prop where
  newest : i + 1 = w.sessions.length
  get : w.sessions[i]? = some s
  seen : Seen i
  name : ∀ name, w.shared.activeProfileName = some name → s.profile.clientName = name
  taken : w.shared.stopSignal = true ∨
    ∃ dev, s.pc.device = some dev ∧ dev.routeManager.Halves w.shared.os.table
      ∧ dev.routeManager.Takes w.shared.os.table

/-- A service that says `Connected` has a session that is up. -/
theorem Sound.isUp (h : Sound Seen w) (hstatus : w.shared.status = .connected) :
    ∃ i s, IsUp Seen w i s := by
  obtain ⟨i, s, hb⟩ := h.backed.connected hstatus
  refine ⟨i, s, hb.newest, hb.get, hb.seen, fun name hname => ?_, hb.stays.imp_right ?_⟩
  · -- `start` is not at work, so the name is that of the newest session
    have hlast : w.sessions.getLast? = some s := by
      rw [List.getLast?_eq_getElem?, ← hb.newest, Nat.add_sub_cancel]
      exact hb.get
    have howner := h.owner name hname
    have hnot := hb.not_pastWait h.single
    unfold World.owner at howner
    split at howner
    · next hgui => rw [hgui] at hnot; cases hnot
    · next hgui => rw [hgui] at hnot; cases hnot
    · rw [hlast] at howner
      exact Option.some.inj howner
  · intro hmonitors
    obtain ⟨dev, ht⟩ := SessionPc.exists_tunnel_of_monitors hmonitors
    have hhalves := h.covered s (List.mem_of_getElem? hb.get) dev ht
    exact ⟨dev, SessionPc.device_of_tunnel ht, hhalves, hhalves.takes⟩

/-- **A tunnel that is said to be connected is up.** In every interleaving of the window's calls
with the sessions in which `start` neither gives up waiting nor reads the error of a session that
still owns a device. -/
theorem connected_is_up (table : RouteTable) {acts : List ServiceAction}
    (hrun : Run serviceStep (fun w a => waitsOut w a = true) (serviceInit table) acts w)
    (hstatus : w.shared.status = .connected) :
    ∃ i s, IsUp (fun i => .session i (.observed true) ∈ acts) w i s := by
  have hsound : Sound (fun i => .session i (.observed true) ∈ acts) w := by
    refine hrun.history
      (P := fun acts w => Sound (fun i => .session i (.observed true) ∈ acts) w) (.init table) ?_
    intro bs v a u _ hv hok hst
    -- a handshake that has been observed stays on record
    refine hv.step hok (fun j hj => List.mem_append_left _ hj) (fun i ha => ?_) hst
    rw [ha]
    exact List.mem_append_right _ (List.mem_singleton_self _)
  exact hsound.isUp hstatus

section

/-- The session of a call of `start` has its device and comes to be connected. -/
def connect (i : Nat) : List ServiceAction :=
  [.udpBound (.ok ()), .udpConnected (.ok ()), .go, .go, .go, .observed true, .go].map (.session i)

/-- A second session is connected after the first has been stopped. -/
def reconnected : List ServiceAction :=
  restarted ++ [.gui .go] ++
    ([.configParsed (.ok officeConf),
      .targetResolved (.ok (some ⟨.v4 (.ofOctets 203 0 113 7), 51824⟩)),
      .dummyBound (.ok ()), .interfaceFound (.ok 12), .deviceCreated (.ok officeSetup)].map
        (.session 1)) ++ connect 1

/-- The second session of a run is connected. -/
theorem connected_is_up_reconnected : ∃ w : World, w.shared.status = .connected
    ∧ w.shared.stopSignal = false ∧ w.sessions.length = 2
    ∧ ∃ s, IsUp (fun i => .session i (.observed true) ∈ reconnected) w 1 s := by
  have hexec : (execIf serviceStep waitsOut (serviceInit ∅) reconnected).any (fun w =>
      decide (w.shared.status = .connected ∧ w.shared.stopSignal = false
        ∧ w.sessions.length = 2)) = true := by
    decide +kernel
  obtain ⟨w, hrun, hw⟩ := Run.of_execIf_any hexec
  obtain ⟨hstatus, hstop, hlength⟩ := of_decide_eq_true hw
  obtain ⟨i, s, hup⟩ := connected_is_up ∅ hrun hstatus
  have hi : i = 1 := by
    have hnewest := hup.newest
    omega
  exact ⟨w, hstatus, hstop, hlength, s, hi ▸ hup⟩

/-- The first session's socket fails; the error is read while its device is there, a second session
is connected, and then the device of the first one is dropped. -/
def removedUnderneath : List ServiceAction :=
  socketFailed ++ startNow home ++
    ([.configParsed (.ok officeConf),
      .targetResolved (.ok (some ⟨.v4 (.ofOctets 203 0 113 7), 51824⟩)),
      .dummyBound (.ok ()), .interfaceFound (.ok 12), .deviceCreated (.ok officeSetup)].map
        (.session 1)) ++ connect 1 ++ [.session 0 .go, .session 0 .go]

/-- Why an error must not be read early: `Connected`, and no route at all. -/
theorem connected_past_the_tunnel :
    ∃ w, Run serviceStep (fun w a => !givesUp w a) (serviceInit ∅) removedUnderneath w
      ∧ w.shared.status = .connected ∧ w.shared.stopSignal = false ∧ w.shared.os.table = ∅ := by
  have hexec : (execIf serviceStep (fun w a => !givesUp w a) (serviceInit ∅)
      removedUnderneath).any (fun w =>
        decide (w.shared.status = .connected ∧ w.shared.stopSignal = false
          ∧ w.shared.os.table = ∅)) = true := by
    decide +kernel
  obtain ⟨w, hrun, hw⟩ := Run.of_execIf_any hexec
  exact ⟨w, hrun, of_decide_eq_true hw⟩

end

end Phobos
