import PhobosClient.Service.Restores
import PhobosClient.Service.Stop

/-!
# PhobosClient — the tunnel on the command line (`src/main.rs`, `src/tunnel.rs`)

`run_standalone_cli_mode` sets a tunnel up as a session thread does, hands the device over to
`StandaloneTunnel::run` and waits in it for Ctrl+C. `?` leaves `run` in many places; the device is
a parameter, so each of them drops it. The handler for Ctrl+C is set after the device has been
created: before that Ctrl+C ends the process where it stands.

Not modelled: what is printed other than error texts, and the packets, which are those of a session
(`Tunnel`). How a socket address is displayed is a parameter.

**`Cli.step_effect`** lists what a step can do; `Launch.CtrlC` derives from it how the program ends.
-/

namespace Phobos

open Steps

inductive CliPc where
  | parseConfig
  | resolveTarget (conf : WireGuardConfig)
  | bindDummy (conf : WireGuardConfig) (target : SocketAddrV4)
  | findInterface (conf : WireGuardConfig) (target : SocketAddrV4)
  | createDevice (conf : WireGuardConfig) (target : SocketAddrV4) (ifIndex : Nat)
  /-- an error has been printed, and a key is waited for -/
  | failed (text : String)
  | setHandler (dev : WintunDevice)
  /-- `StandaloneTunnel::run`, from here on -/
  | resolve (dev : WintunDevice)
  | bindUdp (dev : WintunDevice) (target : SocketAddr)
  | bindInterface (dev : WintunDevice) (target : SocketAddr)
  | connectUdp (dev : WintunDevice) (target : SocketAddr)
  | spawnWorkers (dev : WintunDevice) (workers : List Worker)
  /-- about to test `running` -/
  | monitor (dev : WintunDevice) (workers : List Worker)
  | sleep (dev : WintunDevice) (workers : List Worker)
  | shutdown (dev : WintunDevice) (workers : List Worker)
  | join (dev : ReleasedDevice) (workers : List Worker)
  /-- `run` is about to return, and drops the device -/
  | returning (result : Except String Unit) (dev : WintunDevice) (workers : List Worker)
  /-- `run` has returned -/
  | returned (result : Except String Unit) (workers : List Worker)
  | exited
  /-- Ctrl+C without a handler -/
  | killed (dev : Option WintunDevice)

/-- The process: where `main` stands, `StandaloneTunnel::running`, whether Ctrl+C has a handler. -/
structure Cli where
  pc : CliPc
  running : Bool
  handler : Bool
  os : RouteOs

inductive CliAction where
  | go
  | configParsed (result : Except String WireGuardConfig)
  | targetResolved (result : Except String (Option SocketAddr))
  | dummyBound (result : Except String Unit)
  | interfaceFound (result : Except String Nat)
  | deviceCreated (setup : Except String AdapterSetup)
  | keyPressed
  | handlerSet (result : Except String Unit)
  | udpBound (result : Except String Unit)
  | interfaceBound (result : Except String Nat)
  | udpConnected (result : Except String Unit)
  | workerSpawned (result : Except String Unit)
  | workerLoads (i : Nat)
  | workerCutOff (i : Nat)
  | ctrlC

def cliInit (table : RouteTable) : Cli := ⟨.parseConfig, true, false, ⟨table, []⟩⟩

namespace CliPc

def device : CliPc → Option WintunDevice
  | setHandler dev | resolve dev => some dev
  | bindUdp dev _ | bindInterface dev _ | connectUdp dev _ => some dev
  | spawnWorkers dev _ | monitor dev _ | sleep dev _ | shutdown dev _ => some dev
  | join dev _ => some dev.val
  | returning _ dev _ => some dev
  | killed dev => dev
  | _ => none

/-- The workers that have been spawned and not joined. -/
def workers : CliPc → List Worker
  | spawnWorkers _ ws | monitor _ ws | sleep _ ws | shutdown _ ws | join _ ws => ws
  | returning _ _ ws | returned _ ws => ws
  | _ => []

def setWorkers (ws : List Worker) : CliPc → CliPc
  | spawnWorkers dev _ => spawnWorkers dev ws
  | monitor dev _ => monitor dev ws
  | sleep dev _ => sleep dev ws
  | shutdown dev _ => shutdown dev ws
  | join dev _ => join dev ws
  | returning result dev _ => returning result dev ws
  | returned result _ => returned result ws
  | pc => pc

/-- The process is there no more. -/
def isOver : CliPc → Bool
  | exited | killed _ => true
  | _ => false

def isExited : CliPc → Bool
  | exited => true
  | _ => false

theorem eq_exited {pc : CliPc} (h : pc.isExited = true) : pc = exited := by
  cases pc <;> first | rfl | cases h

def held (pc : CliPc) : List RouteKey :=
  match pc.device with
  | some dev => dev.held
  | none => []

def stopWorker (pc : CliPc) (i : Nat) (w : Worker) : CliPc :=
  pc.setWorkers (pc.workers.set i { w with running := false })

end CliPc

/-- The workers in the order in which `run` spawns them, and the texts for those that fail. -/
def spawnOrder : List (WorkerKind × String) :=
  [(.tunToUdp, "Failed to spawn TUN reader thread: "),
    (.udpToTun, "Failed to spawn UDP reader thread: "),
    (.timers, "Failed to spawn timer thread: ")]

namespace Cli

/-- The steps that do not depend on a result. -/
def goStep (c : Cli) : Option Cli :=
  match c.pc with
  | .monitor dev ws =>
    some { c with pc := if c.running then .sleep dev ws else .shutdown dev ws }
  | .sleep dev ws => some { c with pc := .monitor dev ws }
  | .shutdown dev ws =>
    let (dev, os) := dev.shutdown c.os
    some { c with pc := .join dev ws, os }
  | .join dev (w :: ws) => if w.running then none else some { c with pc := .join dev ws }
  | .join dev [] => some { c with pc := .returning (.ok ()) dev.val [] }
  | .returning result dev ws => some { c with pc := .returned result ws, os := dev.drop c.os }
  | .returned _ _ => some { c with pc := .exited }
  | _ => none

/-- The next worker is spawned. -/
def workerSpawned (c : Cli) (dev : WintunDevice) (ws : List Worker) (result : Except String Unit) :
    Option Cli :=
  match spawnOrder[ws.length]?, result with
  | some (kind, _), .ok () =>
    let ws := ws ++ [⟨kind, true⟩]
    some { c with
      pc := if ws.length < spawnOrder.length then .spawnWorkers dev ws else .monitor dev ws }
  | some (_, text), .error e =>
    -- the workers spawned so far run on
    some { c with pc := .returning (.error s!"{text}{e}") dev ws }
  | none, _ => none

variable (display : SocketAddr → String) (profile : PhobosProfile)

def step (c : Cli) : CliAction → Option Cli
  | .go => c.goStep
  | .configParsed result =>
    match c.pc, result with
    | .parseConfig, .ok conf => some { c with pc := .resolveTarget conf }
    | .parseConfig, .error e =>
      some { c with pc := .failed s!"[!] Ошибка парсинга конфигурации WireGuard: {e}" }
    | _, _ => none
  | .targetResolved result =>
    match c.pc, result with
    | .resolveTarget conf, .ok (some ⟨.v4 ip, port⟩) =>
      some { c with pc := .bindDummy conf ⟨ip, port⟩ }
    | .resolveTarget _, .ok (some ⟨.v6 _, _⟩) =>
      some { c with pc := .failed "[!] IPv6 адреса серверов пока не поддерживаются." }
    | .resolveTarget _, .ok none =>
      some { c with
        pc := .failed s!"[!] Не удалось определить IP сервера: {String.ofList profile.target}" }
    | .resolveTarget _, .error e =>
      some { c with
        pc := .failed s!"[!] Ошибка разрешения адреса {String.ofList profile.target}: {e}" }
    -- the same resolution once more, in `run`
    | .resolve dev, .ok (some target) => some { c with pc := .bindUdp dev target }
    | .resolve dev, .ok none =>
      let text := s!"No address found for target '{String.ofList profile.target}'"
      some { c with pc := .returning (.error text) dev [] }
    | .resolve dev, .error e =>
      let text := s!"Failed to resolve target '{String.ofList profile.target}': {e}"
      some { c with pc := .returning (.error text) dev [] }
    | _, _ => none
  | .dummyBound result =>
    match c.pc, result with
    | .bindDummy conf target, .ok () => some { c with pc := .findInterface conf target }
    | .bindDummy _ _, .error e => some { c with pc := .failed s!"[!] Ошибка сокета: {e}" }
    | _, _ => none
  | .interfaceFound result =>
    match c.pc, result with
    | .findInterface conf target, .ok ifIndex =>
      some { c with pc := .createDevice conf target ifIndex }
    | .findInterface _ _, .error e =>
      some { c with pc := .failed s!"[!] Ошибка определения сетевого интерфейса: {e}" }
    | _, _ => none
  | .deviceCreated setup =>
    match c.pc with
    | .createDevice conf target ifIndex =>
      match WintunDevice.create setup conf target.ip ifIndex c.os with
      | (.ok dev, os) => some { c with pc := .setHandler dev, os }
      | (.error e, os) =>
        some { c with pc := .failed s!"[!] Ошибка создания адаптера Wintun: {e}", os }
    | _ => none
  | .keyPressed =>
    match c.pc with
    | .failed _ => some { c with pc := .exited }
    | _ => none
  | .handlerSet result =>
    match c.pc with
    | .setHandler dev => some { c with pc := .resolve dev, handler := result.isOk }
    | _ => none
  | .udpBound result =>
    match c.pc, result with
    | .bindUdp dev target, .ok () => some { c with pc := .bindInterface dev target }
    | .bindUdp dev _, .error e =>
      some { c with pc := .returning (.error s!"Failed to bind UDP socket: {e}") dev [] }
    | _, _ => none
  | .interfaceBound result =>
    match c.pc, result with
    | .bindInterface dev target, .ok _ => some { c with pc := .connectUdp dev target }
    | .bindInterface dev _, .error e =>
      let text := s!"Failed to bind socket to physical interface: {e}"
      some { c with pc := .returning (.error text) dev [] }
    | _, _ => none
  | .udpConnected result =>
    match c.pc, result with
    | .connectUdp dev _, .ok () => some { c with pc := .spawnWorkers dev [] }
    | .connectUdp dev target, .error e =>
      let text := s!"Failed to connect UDP socket to {display target}: {e}"
      some { c with pc := .returning (.error text) dev [] }
    | _, _ => none
  | .workerSpawned result =>
    match c.pc with
    | .spawnWorkers dev ws => c.workerSpawned dev ws result
    | _ => none
  | .workerLoads i =>
    match c.pc.workers[i]? with
    | some w =>
      if w.running then
        some { c with pc := if c.running then c.pc else c.pc.stopWorker i w }
      else none
    | none => none
  | .workerCutOff i =>
    match c.pc.workers[i]? with
    | some w =>
      if w.running && w.kind == .tunToUdp && !c.pc.device.any WintunDevice.sessionOpen then
        some { c with pc := c.pc.stopWorker i w }
      else none
    | none => none
  | .ctrlC =>
    if c.pc.isOver then none
    else if c.handler then some { c with running := false }
    else some { c with pc := .killed c.pc.device }

end Cli

/-! ## What a step can do -/

namespace CliPc

/-- Ctrl+C has no handler yet, or has ended the process for lack of one. -/
def unhandled : CliPc → Bool
  | parseConfig | resolveTarget _ | bindDummy _ _ | findInterface _ _ | createDevice _ _ _ => true
  | failed _ | setHandler _ | killed _ => true
  | _ => false

/-- What the program itself still has to do. -/
def ownStepsLeft : CliPc → Nat
  | parseConfig => 27
  | resolveTarget _ => 26
  | bindDummy _ _ => 25
  | findInterface _ _ => 24
  | createDevice _ _ _ => 23
  | setHandler _ => 22
  | resolve _ => 21
  | bindUdp _ _ => 20
  | bindInterface _ _ => 19
  | connectUdp _ _ => 18
  | spawnWorkers _ ws => 8 + 3 * (3 - ws.length)
  | sleep _ _ => 6
  | monitor _ _ => 5
  | shutdown _ _ => 4
  | join _ _ => 3
  | returning _ _ _ => 2
  | returned _ _ | failed _ => 1
  | exited | killed _ => 0

def stepsLeft (pc : CliPc) : Nat := pc.ownStepsLeft + SessionPc.workersLeft pc.workers

/-- There are three workers to spawn, and they are waited for only once the device is closed. -/
def InPlace : CliPc → Prop
  | spawnWorkers _ ws => ws.length < 3
  | join dev _ => dev.val.sessionOpen = false
  | _ => True

structure Orderly (pc : CliPc) : Prop where
  workers : pc.workers.length ≤ 3
  place : pc.InPlace

end CliPc

/-- The program moves on to `pc`, and does nothing for nothing once it has been asked to stop. -/
structure Advances (c : Cli) (pc : CliPc) : Prop where
  unhandled : pc.unhandled = true → c.pc.unhandled = true
  stepsLeft : c.running = false → pc.stepsLeft < c.pc.stepsLeft
  orderly : c.pc.Orderly → pc.Orderly

/-- **The effects of a step.** -/
inductive CliEffect (c : Cli) : CliAction → Cli → Prop where
  | move {a : CliAction} {pc : CliPc} (hmove : Advances c pc) (hheld : pc.held = c.pc.held) :
      CliEffect c a { c with pc }
  | create {conf : WireGuardConfig} {target : SocketAddrV4} {ifIndex : Nat}
      {setup : Except String AdapterSetup} {dev : WintunDevice} {os : RouteOs}
      (hpc : c.pc = .createDevice conf target ifIndex)
      (hcreate : WintunDevice.create setup conf target.ip ifIndex c.os = (.ok dev, os))
      (hmove : Advances c (.setHandler dev)) :
      CliEffect c (.deviceCreated setup) { c with pc := .setHandler dev, os }
  | createFailed {conf : WireGuardConfig} {target : SocketAddrV4} {ifIndex : Nat}
      {setup : Except String AdapterSetup} {e text : String} {os : RouteOs}
      (hpc : c.pc = .createDevice conf target ifIndex)
      (hcreate : WintunDevice.create setup conf target.ip ifIndex c.os = (.error e, os))
      (hmove : Advances c (.failed text)) :
      CliEffect c (.deviceCreated setup) { c with pc := .failed text, os }
  | release {dev : WintunDevice} {ws : List Worker} (hpc : c.pc = .shutdown dev ws)
      (hmove : Advances c (.join (dev.shutdown c.os).1 ws)) :
      CliEffect c .go { c with pc := .join (dev.shutdown c.os).1 ws, os := (dev.shutdown c.os).2 }
  | drop {result : Except String Unit} {dev : WintunDevice} {ws : List Worker}
      (hpc : c.pc = .returning result dev ws) (hmove : Advances c (.returned result ws)) :
      CliEffect c .go { c with pc := .returned result ws, os := dev.drop c.os }
  | handlerSet {result : Except String Unit} {dev : WintunDevice} {handler : Bool}
      (hpc : c.pc = .setHandler dev) (hmove : Advances c (.resolve dev)) :
      CliEffect c (.handlerSet result) { c with pc := .resolve dev, handler }
  | handled (hover : c.pc.isOver = false) (hhandler : c.handler = true) :
      CliEffect c .ctrlC { c with running := false }
  | killed (hover : c.pc.isOver = false) (hhandler : c.handler = false) :
      CliEffect c .ctrlC { c with pc := .killed c.pc.device }

section

variable {c c' : Cli} {pc : CliPc} {a : CliAction} {display : SocketAddr → String}
  {profile : PhobosProfile}

/-- Where the program goes on with the workers that there are. -/
theorem Advances.withWorkers {pc pc' : CliPc} (hpc : c.pc = pc)
    (hhandled : pc'.unhandled = false) (hworkers : pc'.workers = pc.workers) (hplace : pc'.InPlace)
    (hless : c.running = false → pc'.ownStepsLeft < pc.ownStepsLeft) : Advances c pc' := by
  refine ⟨fun h => ?_, fun hstop => ?_, fun ho => ⟨?_, hplace⟩⟩
  · rw [hhandled] at h
    cases h
  · rw [hpc, CliPc.stepsLeft, CliPc.stepsLeft, hworkers]
    exact Nat.add_lt_add_right (hless hstop) _
  · rw [hworkers, ← hpc]
    exact ho.workers

/-- Straight on, where there are no workers. -/
theorem Advances.straight {pc pc' : CliPc} (hpc : c.pc = pc)
    (hhandled : (pc'.unhandled && !pc.unhandled) = false) (hworkers : pc'.workers = [])
    (hplace : pc'.InPlace) (hless : pc'.stepsLeft.blt pc.stepsLeft = true) : Advances c pc' := by
  refine ⟨fun h => ?_, fun _ => ?_, fun _ => ⟨?_, hplace⟩⟩
  · rw [h, Bool.true_and, Bool.not_eq_false'] at hhandled
    rw [hpc, hhandled]
  · rw [hpc]
    exact Nat.le_of_ble_eq_true hless
  · rw [hworkers]
    exact Nat.zero_le 3

/-- A step to a place without workers, which leaves the device alone. -/
theorem CliEffect.straight {pc pc' : CliPc} (hpc : c.pc = pc)
    (hhandled : (pc'.unhandled && !pc.unhandled) = false) (hworkers : pc'.workers = [])
    (hplace : pc'.InPlace) (hless : pc'.stepsLeft.blt pc.stepsLeft = true)
    (hheld : pc'.held = pc.held) : CliEffect c a { c with pc := pc' } :=
  .move (.straight hpc hhandled hworkers hplace hless) (hpc ▸ hheld)

/-- Only the workers change; with as many workers as before the way to the end keeps its length. -/
theorem CliPc.setWorkers_spec (ws : List Worker) (hne : pc.workers ≠ []) :
    (pc.setWorkers ws).unhandled = false ∧ (pc.setWorkers ws).workers = ws
      ∧ (pc.setWorkers ws).device = pc.device
      ∧ (ws.length = pc.workers.length → (pc.setWorkers ws).ownStepsLeft = pc.ownStepsLeft
        ∧ (pc.InPlace → (pc.setWorkers ws).InPlace)) := by
  cases pc with
  | spawnWorkers dev ws' =>
    refine ⟨rfl, rfl, rfl, fun hlength => ?_⟩
    have hlength : ws.length = ws'.length := hlength
    refine ⟨?_, fun h => ?_⟩
    · show 8 + 3 * (3 - ws.length) = 8 + 3 * (3 - ws'.length)
      rw [hlength]
    · show ws.length < 3
      rw [hlength]
      exact h
  | monitor | sleep | shutdown | join | returning | returned =>
    exact ⟨rfl, rfl, rfl, fun _ => ⟨rfl, id⟩⟩
  | _ => exact absurd rfl hne

/-- A worker stops. -/
theorem CliEffect.stopWorker {i : Nat} {w : Worker} (hget : c.pc.workers[i]? = some w)
    (hrunning : w.running = true) : CliEffect c a { c with pc := c.pc.stopWorker i w } := by
  have hne : c.pc.workers ≠ [] := List.ne_nil_of_mem (List.mem_of_getElem? hget)
  obtain ⟨hhandled, hworkers, hdevice, hsame⟩ :=
    CliPc.setWorkers_spec (c.pc.workers.set i { w with running := false }) hne
  obtain ⟨hown, hplace⟩ := hsame List.length_set
  refine .move ⟨fun h => ?_, fun _ => ?_, fun ho => ⟨?_, hplace ho.place⟩⟩ ?_
  · rw [CliPc.stopWorker, hhandled] at h
    cases h
  · -- the worker itself is one step nearer to its end
    rw [CliPc.stopWorker, CliPc.stepsLeft, CliPc.stepsLeft, hown, hworkers]
    exact Nat.add_lt_add_left (SessionPc.workersLeft_stop hget hrunning) _
  · rw [CliPc.stopWorker, hworkers, List.length_set]
    exact ho.workers
  · rw [CliPc.stopWorker, CliPc.held, CliPc.held, hdevice]

/-- The steps that `run` takes by itself. -/
theorem Cli.goStep_effect (h : c.goStep = some c') : CliEffect c .go c' := by
  unfold goStep at h
  split at h
  · next dev ws hpc =>
    -- the dashboard tests the flag; without it the way on leads to the shutdown
    cases h
    by_cases hrunning : c.running = true
    · rw [if_pos hrunning]
      refine .move (.withWorkers hpc rfl rfl trivial fun hstop => ?_) (by rw [hpc]; rfl)
      rw [hrunning] at hstop
      cases hstop
    · rw [if_neg hrunning]
      refine .move (.withWorkers hpc rfl rfl trivial fun _ => ?_) (by rw [hpc]; rfl)
      exact (by decide : 4 < 5)
  · next dev ws hpc =>
    cases h
    refine .move (.withWorkers hpc rfl rfl trivial fun _ => ?_) (by rw [hpc]; rfl)
    exact (by decide : 5 < 6)
  · next dev ws hpc =>
    -- the shutdown takes the routes out
    cases h
    refine .release hpc (.withWorkers hpc rfl rfl rfl fun _ => ?_)
    exact (by decide : 3 < 4)
  · next dev w ws hpc =>
    -- a join, which waits for the worker
    split at h <;> cases h
    refine .move ⟨fun h => ?_, fun _ => ?_, fun ho => ?_⟩ (by rw [hpc]; rfl)
    · cases h
    · rw [hpc]
      show 3 + SessionPc.workersLeft ws < 3 + SessionPc.workersLeft (w :: ws)
      simp only [SessionPc.workersLeft, List.length_cons, List.countP_cons]
      omega
    · rw [hpc] at ho
      exact ⟨Nat.le_of_succ_le ho.workers, ho.place⟩
  · next dev hpc =>
    cases h
    exact .straight hpc rfl rfl trivial rfl rfl
  · next result dev ws hpc =>
    -- `run` returns, and the device is dropped
    cases h
    refine .drop hpc (.withWorkers hpc rfl rfl trivial fun _ => ?_)
    exact (by decide : 1 < 2)
  · next result ws hpc =>
    cases h
    refine .move ⟨fun h => ?_, fun _ => ?_, fun _ => ⟨Nat.zero_le 3, trivial⟩⟩ (by rw [hpc]; rfl)
    · cases h
    · rw [hpc]
      exact Nat.lt_add_right _ Nat.one_pos
  · cases h

/-- A worker that has been spawned has two steps to go. -/
theorem workersLeft_concat (ws : List Worker) (kind : WorkerKind) :
    SessionPc.workersLeft (ws ++ [⟨kind, true⟩]) = SessionPc.workersLeft ws + 2 := by
  simp only [SessionPc.workersLeft, List.length_append, List.length_singleton, List.countP_append,
    List.countP_singleton, if_true]
  omega

/-- A worker is there, or its spawn has failed and the others are left to themselves. -/
theorem Cli.workerSpawned_effect {dev : WintunDevice} {ws : List Worker}
    {result : Except String Unit} (hpc : c.pc = .spawnWorkers dev ws)
    (h : c.workerSpawned dev ws result = some c') :
    CliEffect c (.workerSpawned result) c' := by
  unfold workerSpawned at h
  split at h
  · next kind text hkind =>
    -- one of the three
    have hlt : ws.length < 3 := (List.getElem?_eq_some_iff.mp hkind).1
    have hlength : (ws ++ [(⟨kind, true⟩ : Worker)]).length = ws.length + 1 := List.length_append
    have hleft := workersLeft_concat ws kind
    cases h
    by_cases hmore : (ws ++ [(⟨kind, true⟩ : Worker)]).length < spawnOrder.length
    · rw [if_pos hmore]
      refine .move ⟨fun h => ?_, fun _ => ?_, fun _ => ⟨?_, hmore⟩⟩ (by rw [hpc]; rfl)
      · cases h
      · rw [hpc]
        simp only [CliPc.stepsLeft, CliPc.ownStepsLeft, CliPc.workers]
        omega
      · exact Nat.le_of_lt hmore
    · rw [if_neg hmore]
      refine .move ⟨fun h => ?_, fun _ => ?_, fun _ => ⟨?_, trivial⟩⟩ (by rw [hpc]; rfl)
      · cases h
      · rw [hpc]
        simp only [CliPc.stepsLeft, CliPc.ownStepsLeft, CliPc.workers]
        omega
      · show (ws ++ [(⟨kind, true⟩ : Worker)]).length ≤ 3
        omega
  · cases h
    refine .move (.withWorkers hpc rfl rfl trivial fun _ => ?_) (by rw [hpc]; rfl)
    exact Nat.lt_of_lt_of_le (by decide : 2 < 8) (Nat.le_add_right 8 _)
  · cases h

/-- **Every step has one of the effects.** -/
theorem Cli.step_effect (h : c.step display profile a = some c') : CliEffect c a c' := by
  cases a with
  | go => exact goStep_effect h
  | deviceCreated setup =>
    simp only [step] at h
    split at h
    · next hpc =>
      split at h
      · next hcreate => cases h; exact .create hpc hcreate (.straight hpc rfl rfl trivial rfl)
      · next hcreate => cases h; exact .createFailed hpc hcreate (.straight hpc rfl rfl trivial rfl)
    · cases h
  | keyPressed =>
    simp only [step] at h
    split at h <;> cases h
    next hpc => exact .straight hpc rfl rfl trivial rfl rfl
  | handlerSet result =>
    simp only [step] at h
    split at h <;> cases h
    next hpc => exact .handlerSet hpc (.straight hpc rfl rfl trivial rfl)
  | udpConnected result =>
    simp only [step] at h
    split at h
    · next hpc => cases h; exact .straight hpc rfl rfl (by decide : 0 < 3) rfl rfl
    · next hpc => cases h; exact .straight hpc rfl rfl trivial rfl rfl
    · cases h
  | workerSpawned result =>
    simp only [step] at h
    split at h
    · next dev ws hpc => exact workerSpawned_effect hpc h
    · cases h
  | workerLoads i =>
    simp only [step] at h
    split at h
    · next w hget =>
      split at h <;> cases h
      next hw =>
      by_cases hrunning : c.running = true
      · -- while the flag is on a worker that loads it goes on as before
        rw [if_pos hrunning]
        refine .move ⟨id, fun hstop => ?_, id⟩ rfl
        rw [hrunning] at hstop
        cases hstop
      · rw [if_neg hrunning]
        exact .stopWorker hget hw
    · cases h
  | workerCutOff i =>
    simp only [step] at h
    split at h
    · next w hget =>
      -- only once the session has been shut down can a worker be cut off
      split at h <;> cases h
      next hcond =>
      rw [Bool.and_eq_true, Bool.and_eq_true] at hcond
      exact .stopWorker hget hcond.1.1
    · cases h
  | ctrlC =>
    simp only [step] at h
    split at h
    · cases h
    · next hover =>
      -- without the handler Ctrl+C kills the process
      split at h <;> cases h
      · next hhandler => exact .handled (Bool.eq_false_iff.mpr hover) hhandler
      · next hhandler =>
        exact .killed (Bool.eq_false_iff.mpr hover) (Bool.eq_false_iff.mpr hhandler)
  | _ =>
    simp only [step] at h
    split at h <;> cases h <;>
      (rename_i hpc; exact .straight hpc rfl rfl trivial rfl rfl)

end

end Phobos
