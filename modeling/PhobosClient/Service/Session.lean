import PhobosClient.Routes.Device

/-!
# PhobosClient — one session thread (`src/tunnel_service.rs`)

The thread that `TunnelService::start` spawns, with its three workers. One action is one
access to a shared field (`go`), or the return of one fallible or blocking call, with its
result. `SessionPc` says where the thread stands and carries what the thread owns there: the
device once it has been created, the workers that have not been joined yet. So a thread that
has published its end has no workers left, by construction.

Not modelled: statistics, log lines and the packets (`Wire`), none of which any other thread
acts on. The route calls of one `create` or `shutdown` are one step.

**`step_effect`** lists all that a step can do to the shared fields; every invariant of the
service is derived from it.
-/

namespace Phobos

inductive TunnelStatus where
  | disconnected
  | connecting
  | connected
  | error (text : String)
  deriving DecidableEq

/-- The test behind `is_active`. -/
def TunnelStatus.isActive : TunnelStatus → Bool
  | .connected | .connecting => true
  | _ => false

/-- What the threads share: three fields of `TunnelService`, and the routing table. -/
structure Shared where
  status : TunnelStatus
  activeProfileName : Option Text
  stopSignal : Bool
  os : RouteOs

inductive WorkerKind where
  | tunToUdp
  | udpToTun
  | timers
  deriving DecidableEq

structure Worker where
  kind : WorkerKind
  running : Bool

inductive SessionPc where
  | parseConfig
  | resolveTarget (conf : WireGuardConfig)
  | bindDummy (conf : WireGuardConfig) (target : SocketAddrV4)
  | findInterface (conf : WireGuardConfig) (target : SocketAddrV4)
  | createDevice (conf : WireGuardConfig) (target : SocketAddrV4) (ifIndex : Nat)
  | bindUdp (dev : WintunDevice) (target : SocketAddrV4)
  | connectUdp (dev : WintunDevice) (target : SocketAddrV4)
  | publishConnecting (dev : WintunDevice)
  | spawnWorkers (dev : WintunDevice)
  /-- about to test `stop_signal` -/
  | monitor (dev : WintunDevice) (workers : List Worker) (handshakeLogged : Bool)
  | observe (dev : WintunDevice) (workers : List Worker) (handshakeLogged : Bool)
  | publishConnected (dev : WintunDevice) (workers : List Worker)
  | shutdown (dev : WintunDevice) (workers : List Worker)
  /-- waiting for the first of the workers that are left -/
  | join (dev : ReleasedDevice) (workers : List Worker)
  | publishError (text : String) (dev : Option WintunDevice)
  | clearName (dev : Option WintunDevice)
  /-- about to return: the device, if any, is dropped -/
  | returning (dev : Option WintunDevice)
  | ended

structure Session where
  profile : PhobosProfile
  pc : SessionPc

inductive SessionAction where
  | go
  | configParsed (result : Except String WireGuardConfig)
  | targetResolved (result : Except String (Option SocketAddr))
  | dummyBound (result : Except String Unit)
  | interfaceFound (result : Except String Nat)
  | deviceCreated (setup : Except String AdapterSetup)
  | udpBound (result : Except String Unit)
  | udpConnected (result : Except String Unit)
  | observed (handshake : Bool)
  | workerLoads (i : Nat)
  | workerCutOff (i : Nat)

/-- The tunnel's own socket could not be bound or connected. -/
def SessionAction.isSocketError : SessionAction → Bool
  | udpBound (.error _) | udpConnected (.error _) => true
  | _ => false

namespace SessionPc

/-- The device the thread owns. -/
def device : SessionPc → Option WintunDevice
  | bindUdp dev _ | connectUdp dev _ | publishConnecting dev | spawnWorkers dev => some dev
  | monitor dev _ _ | observe dev _ _ | publishConnected dev _ | shutdown dev _ => some dev
  | join dev _ => some dev.val
  | publishError _ dev | clearName dev | returning dev => dev
  | _ => none

/-- The workers that have been spawned and not joined. -/
def workers : SessionPc → List Worker
  | monitor _ ws _ | observe _ ws _ | publishConnected _ ws | shutdown _ ws | join _ ws => ws
  | _ => []

def setWorkers (ws : List Worker) : SessionPc → SessionPc
  | monitor dev _ logged => monitor dev ws logged
  | observe dev _ logged => observe dev ws logged
  | publishConnected dev _ => publishConnected dev ws
  | shutdown dev _ => shutdown dev ws
  | join dev _ => join dev ws
  | pc => pc

/-- The thread has made its terminal status write. -/
def published : SessionPc → Bool
  | clearName _ | returning _ | ended => true
  | _ => false

/-- The thread has cleared the name. -/
def cleared : SessionPc → Bool
  | returning _ | ended => true
  | _ => false

/-- The steps of the thread that access the shared fields. -/
def goStep (m : Shared) : SessionPc → Option (Shared × SessionPc)
  | publishConnecting dev => some ({ m with status := .connecting }, spawnWorkers dev)
  | spawnWorkers dev =>
    some (m, monitor dev [⟨.tunToUdp, true⟩, ⟨.udpToTun, true⟩, ⟨.timers, true⟩] false)
  | monitor dev ws logged =>
    some (m, if m.stopSignal then shutdown dev ws else observe dev ws logged)
  | publishConnected dev ws => some ({ m with status := .connected }, monitor dev ws true)
  | shutdown dev ws =>
    let (dev, os) := dev.shutdown m.os
    some ({ m with os }, join dev ws)
  | join dev (w :: ws) => if w.running then none else some (m, join dev ws)
  | join dev [] => some ({ m with status := .disconnected }, clearName (some dev.val))
  | publishError text dev => some ({ m with status := .error text }, clearName dev)
  | clearName dev => some ({ m with activeProfileName := none }, returning dev)
  | returning (some dev) => some ({ m with os := dev.drop m.os }, ended)
  | returning none => some (m, ended)
  | _ => none

/-- A worker stops. -/
def stopWorker (pc : SessionPc) (i : Nat) (w : Worker) : SessionPc :=
  pc.setWorkers (pc.workers.set i { w with running := false })

def step (profile : PhobosProfile) (m : Shared) (pc : SessionPc) :
    SessionAction → Option (Shared × SessionPc)
  | .go => pc.goStep m
  | .configParsed result =>
    match pc, result with
    | parseConfig, .ok conf => some (m, resolveTarget conf)
    | parseConfig, .error e => some (m, publishError e none)
    | _, _ => none
  | .targetResolved result =>
    match pc, result with
    | resolveTarget conf, .ok (some ⟨.v4 ip, port⟩) => some (m, bindDummy conf ⟨ip, port⟩)
    | resolveTarget _, .ok (some ⟨.v6 _, _⟩) =>
      some (m, publishError "IPv6 серверы пока не поддерживаются" none)
    | resolveTarget _, .ok none =>
      some (m, publishError
        s!"Не удалось определить адрес: {String.ofList profile.target}" none)
    | resolveTarget _, .error e =>
      some (m, publishError
        s!"Ошибка разрешения адреса {String.ofList profile.target}: {e}" none)
    | _, _ => none
  | .dummyBound result =>
    match pc, result with
    | bindDummy conf target, .ok () => some (m, findInterface conf target)
    | bindDummy _ _, .error e => some (m, publishError s!"Ошибка сокета: {e}" none)
    | _, _ => none
  | .interfaceFound result =>
    match pc, result with
    | findInterface conf target, .ok ifIndex => some (m, createDevice conf target ifIndex)
    | findInterface _ _, .error e =>
      some (m, publishError s!"Ошибка физического интерфейса: {e}" none)
    | _, _ => none
  | .deviceCreated setup =>
    match pc with
    | createDevice conf target ifIndex =>
      match WintunDevice.create setup conf target.ip ifIndex m.os with
      | (.ok dev, os) => some ({ m with os }, bindUdp dev target)
      | (.error e, os) =>
        some ({ m with os }, publishError s!"Ошибка создания Wintun: {e}" none)
    | _ => none
  | .udpBound result =>
    match pc, result with
    | bindUdp dev target, .ok () => some (m, connectUdp dev target)
    | bindUdp dev _, .error e => some (m, publishError s!"Ошибка UDP сокета: {e}" (some dev))
    | _, _ => none
  | .udpConnected result =>
    match pc, result with
    | connectUdp dev _, .ok () => some (m, publishConnecting dev)
    | connectUdp dev target, .error e =>
      some (m, publishError s!"Ошибка подключения к {target.display}: {e}" (some dev))
    | _, _ => none
  | .observed handshake =>
    match pc with
    | observe dev ws logged =>
      some (m, if handshake && !logged then publishConnected dev ws else monitor dev ws logged)
    | _ => none
  | .workerLoads i =>
    match pc.workers[i]? with
    | some w =>
      if w.running then some (m, if m.stopSignal then pc.stopWorker i w else pc) else none
    | none => none
  | .workerCutOff i =>
    -- `receive_blocking` fails once the driver session is closed
    match pc.workers[i]?, pc.device with
    | some w, some dev =>
      if w.running && w.kind == .tunToUdp && !dev.sessionOpen then some (m, pc.stopWorker i w)
      else none
    | _, _ => none

/-! ## What a step can do -/

/-- The routes the thread's device answers for. -/
def held (pc : SessionPc) : List RouteKey :=
  match pc.device with
  | some dev => dev.held
  | none => []

/-- The same, of a thread on its way out: what is still installed when the status is
published. -/
def late : SessionPc → List RouteKey
  | publishError _ (some dev) | clearName (some dev) | returning (some dev) => dev.held
  | _ => []

/-- **The effects of a step.** Most steps only move the thread; the others write one shared
field or work on the routing table. -/
inductive Effect : Shared → SessionPc → SessionAction → Shared → SessionPc → Prop where
  | work {m : Shared} {pc pc' : SessionPc} {a : SessionAction}
      (hpc : pc.published = false) (hpc' : pc'.published = false)
      (hdev : pc'.device = pc.device) (hlate : pc'.late = []) : Effect m pc a m pc'
  | activate {m : Shared} {pc pc' : SessionPc} {status : TunnelStatus}
      (hstatus : status.isActive = true) (hpc : pc.published = false)
      (hpc' : pc'.published = false) (hdev : pc'.device = pc.device) (hlate : pc'.late = []) :
      Effect m pc .go { m with status } pc'
  | create {m : Shared} {conf : WireGuardConfig} {target : SocketAddrV4} {ifIndex : Nat}
      {setup : Except String AdapterSetup} {dev : WintunDevice} {os : RouteOs}
      (hcreate : WintunDevice.create setup conf target.ip ifIndex m.os = (.ok dev, os)) :
      Effect m (createDevice conf target ifIndex) (.deviceCreated setup) { m with os }
        (bindUdp dev target)
  | createFailed {m : Shared} {conf : WireGuardConfig} {target : SocketAddrV4} {ifIndex : Nat}
      {setup : Except String AdapterSetup} {e : String} {os : RouteOs}
      (hcreate : WintunDevice.create setup conf target.ip ifIndex m.os = (.error e, os)) :
      Effect m (createDevice conf target ifIndex) (.deviceCreated setup) { m with os }
        (publishError s!"Ошибка создания Wintun: {e}" none)
  | socketFailed {m : Shared} {pc : SessionPc} {dev : WintunDevice} {a : SessionAction}
      {text : String} (ha : a.isSocketError = true) (hpc : pc.published = false)
      (hdev : pc.device = some dev) : Effect m pc a m (publishError text (some dev))
  | release {m : Shared} {dev : WintunDevice} {ws : List Worker} :
      Effect m (shutdown dev ws) .go { m with os := (dev.shutdown m.os).2 }
        (join (dev.shutdown m.os).1 ws)
  | publishError {m : Shared} {text : String} {dev : Option WintunDevice} :
      Effect m (publishError text dev) .go { m with status := .error text } (clearName dev)
  | publishDisconnected {m : Shared} {dev : ReleasedDevice} :
      Effect m (join dev []) .go { m with status := .disconnected } (clearName (some dev.val))
  | clearName {m : Shared} {dev : Option WintunDevice} :
      Effect m (clearName dev) .go { m with activeProfileName := none } (returning dev)
  | drop {m : Shared} {dev : WintunDevice} :
      Effect m (returning (some dev)) .go { m with os := dev.drop m.os } ended
  | finish {m : Shared} : Effect m (returning none) .go m ended

variable {profile : PhobosProfile} {m m' : Shared} {pc pc' : SessionPc} {a : SessionAction}

/-- Nothing happens to a session that keeps its workers. -/
theorem setWorkers_workers (pc : SessionPc) : pc.setWorkers pc.workers = pc := by
  cases pc <;> rfl

/-- Changing the workers changes nothing the other threads can see. -/
theorem effect_setWorkers (i : Nat) (w : Worker) (h : pc.workers[i]? = some w) (ws : List Worker) :
    Effect m pc a m (pc.setWorkers ws) := by
  cases pc with
  | monitor | observe | publishConnected | shutdown | join => exact .work rfl rfl rfl rfl
  | _ => simp [workers] at h

/-- The accesses to what the threads share. -/
theorem goStep_effect (h : pc.goStep m = some (m', pc')) : Effect m pc .go m' pc' := by
  cases pc with
  | publishConnecting dev => cases h; exact .activate rfl rfl rfl rfl rfl
  | spawnWorkers dev => cases h; exact .work rfl rfl rfl rfl
  | monitor dev ws logged =>
    cases h
    -- on to the next round, or out of the loop
    cases m.stopSignal <;> exact .work rfl rfl rfl rfl
  | publishConnected dev ws => cases h; exact .activate rfl rfl rfl rfl rfl
  | shutdown dev ws => cases h; exact .release
  | join dev ws =>
    cases ws with
    | nil => cases h; exact .publishDisconnected
    | cons w ws =>
      -- the next worker has stopped, or the thread waits
      simp only [goStep] at h
      split at h
      · cases h
      · cases h; exact .work rfl rfl rfl rfl
  | publishError text dev => cases h; exact .publishError
  | clearName dev => cases h; exact .clearName
  | returning dev =>
    cases dev with
    | none => cases h; exact .finish
    | some dev => cases h; exact .drop
  | _ => cases h

/-- **Every step has one of the effects.** -/
theorem step_effect (h : pc.step profile m a = some (m', pc')) : Effect m pc a m' pc' := by
  cases a with
  | go => exact goStep_effect h
  | configParsed result =>
    simp only [step] at h
    split at h <;> cases h <;> exact .work rfl rfl rfl rfl
  | targetResolved result =>
    simp only [step] at h
    split at h <;> cases h <;> exact .work rfl rfl rfl rfl
  | dummyBound result =>
    simp only [step] at h
    split at h <;> cases h <;> exact .work rfl rfl rfl rfl
  | interfaceFound result =>
    simp only [step] at h
    split at h <;> cases h <;> exact .work rfl rfl rfl rfl
  | deviceCreated setup =>
    simp only [step] at h
    split at h
    · next conf target ifIndex =>
      split at h
      · next dev os hcreate => cases h; exact .create hcreate
      · next e os hcreate => cases h; exact .createFailed hcreate
    · cases h
  | udpBound result =>
    simp only [step] at h
    split at h <;> cases h
    · exact .work rfl rfl rfl rfl
    · exact .socketFailed rfl rfl rfl
  | udpConnected result =>
    simp only [step] at h
    split at h <;> cases h
    · exact .work rfl rfl rfl rfl
    · exact .socketFailed rfl rfl rfl
  | observed handshake =>
    simp only [step] at h
    split at h
    · next dev ws logged =>
      cases h
      -- only the first handshake makes a difference, and writes nothing yet
      cases handshake && !logged <;> exact .work rfl rfl rfl rfl
    · cases h
  | workerLoads i =>
    simp only [step] at h
    split at h
    · next w hw =>
      split at h
      · cases h
        cases m.stopSignal with
        | false =>
          -- a worker that goes on leaves the list as it is
          have hsame : Effect m pc (.workerLoads i) m (pc.setWorkers pc.workers) :=
            effect_setWorkers i w hw _
          rwa [setWorkers_workers] at hsame
        | true => exact effect_setWorkers i w hw _
      · cases h
    · cases h
  | workerCutOff i =>
    simp only [step] at h
    split at h
    · next w dev hw hdev =>
      split at h
      · cases h; exact effect_setWorkers i w hw _
      · cases h
    · cases h

/-- A thread that has published its end writes the status no more, and keeps no route it did
not have then. -/
theorem Effect.published (h : Effect m pc a m' pc') (hpub : pc.published = true) :
    pc'.published = true ∧ m'.status = m.status ∧ ∀ k ∈ pc'.held, k ∈ pc.held := by
  cases h with
  | clearName => exact ⟨rfl, rfl, fun _ hk => hk⟩
  | drop | finish => exact ⟨rfl, rfl, fun _ hk => absurd hk List.not_mem_nil⟩
  | _ => simp_all [SessionPc.published]

/-- A thread that has not published its end leaves the status active if it was. -/
theorem Effect.active (h : Effect m pc a m' pc')
    (hactive : pc.published = false → m.status.isActive = true) (hpub : pc'.published = false) :
    m'.status.isActive = true := by
  cases h with
  | work hpc | socketFailed _ hpc => exact hactive hpc
  | activate hstatus => exact hstatus
  | create | createFailed | release => exact hactive rfl
  | publishError | publishDisconnected | clearName | drop | finish => cases hpub

/-- The name is only ever cleared, and only by a thread that has published its end. -/
theorem Effect.name (h : Effect m pc a m' pc') :
    m'.activeProfileName = m.activeProfileName ∨ (a = .go ∧ ∃ dev, pc = .clearName dev) := by
  cases h with
  | clearName => exact .inr ⟨rfl, _, rfl⟩
  | _ => exact .inl rfl

/-- A name that is left is the name from before. -/
theorem Effect.name_left (h : Effect m pc a m' pc') (hname : m'.activeProfileName ≠ none) :
    m'.activeProfileName = m.activeProfileName := by
  cases h with
  | clearName => exact absurd rfl hname
  | _ => rfl

/-- A thread that has published its end had done so before, or leaves an inactive status. -/
theorem Effect.inactive (h : Effect m pc a m' pc') (hpub : pc'.published = true) :
    pc.published = true ∨ m'.status.isActive = false := by
  cases h with
  | publishError | publishDisconnected => exact .inr rfl
  | clearName | drop | finish => exact .inl rfl
  | work _ hpc' | activate _ _ hpc' => rw [hpc'] at hpub; cases hpub
  | create | createFailed | socketFailed | release => cases hpub

/-- A thread that has cleared the name had done so before, or leaves no name. -/
theorem Effect.cleared (h : Effect m pc a m' pc') (hcleared : pc'.cleared = true) :
    pc.cleared = true ∨ m'.activeProfileName = none := by
  have hpub : pc'.published = true := by
    cases pc' with
    | returning | ended => rfl
    | _ => cases hcleared
  cases h with
  | clearName => exact .inr rfl
  | drop | finish => exact .inl rfl
  | work _ hpc' | activate _ _ hpc' => rw [hpc'] at hpub; cases hpub
  | create | createFailed | socketFailed | release => cases hpub
  | publishError | publishDisconnected => cases hcleared

/-- **Frame rule.** Whatever else is left of the created entries (`ks`), a step keeps track of
the thread's own. -/
theorem Effect.within {ks : List RouteKey} (h : Effect m pc a m' pc')
    (hleaves : ∀ setup, a = .deviceCreated setup → WintunDevice.LeavesNone setup)
    (hos : m.os.Within (pc.held ++ ks)) : m'.os.Within (pc'.held ++ ks) := by
  cases h with
  | work _ _ hdev _ | activate _ _ _ hdev _ => rwa [held, hdev]
  | create hcreate => exact WintunDevice.create_ok hcreate hos
  | createFailed hcreate => exact WintunDevice.create_error hcreate (hleaves _ rfl) hos
  | socketFailed _ _ hdev =>
    rw [held, hdev] at hos
    exact hos
  | release =>
    have hrest := WintunDevice.shutdown_within _ hos
    show RouteOs.Within _ (WintunDevice.held _ ++ ks)
    rw [WintunDevice.held_released]
    exact hrest
  | publishError | publishDisconnected | clearName | finish => exact hos
  | drop => exact WintunDevice.shutdown_within _ hos

/-- A thread leaves its code with routes only after an error of its socket. -/
theorem Effect.late (h : Effect m pc a m' pc') (ha : a.isSocketError = false)
    (hlate : pc.late = []) : pc'.late = [] := by
  cases h with
  | work _ _ _ hlate' | activate _ _ _ _ hlate' => exact hlate'
  | socketFailed ha' => rw [ha'] at ha; cases ha
  | publishDisconnected => exact WintunDevice.held_released _
  | publishError | clearName => rename_i dev; cases dev <;> exact hlate
  | create | createFailed | release | drop | finish => rfl

/-- A thread that has published its end has joined its workers. -/
theorem workers_of_published (hpub : pc.published = true) : pc.workers = [] := by
  cases pc with
  | clearName | returning | ended => rfl
  | _ => cases hpub

/-- Once the end is published, the routes still held are the late ones. -/
theorem held_of_published (hpub : pc.published = true) : pc.held = pc.late := by
  cases pc with
  | clearName dev | returning dev => cases dev <;> rfl
  | ended => rfl
  | _ => cases hpub

end SessionPc

def Session.step (m : Shared) (s : Session) (a : SessionAction) : Option (Shared × Session) :=
  (s.pc.step s.profile m a).map fun (m', pc') => (m', { s with pc := pc' })

/-- The same of a session, which keeps its profile. -/
theorem Session.step_effect {m m' : Shared} {s s' : Session} {a : SessionAction}
    (h : s.step m a = some (m', s')) :
    s'.profile = s.profile ∧ SessionPc.Effect m s.pc a m' s'.pc := by
  unfold Session.step at h
  obtain ⟨⟨m₁, pc'⟩, hstep, heq⟩ := Option.map_eq_some_iff.mp h
  cases heq
  exact ⟨rfl, SessionPc.step_effect hstep⟩

end Phobos
