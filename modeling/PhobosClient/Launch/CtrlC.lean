import PhobosClient.Launch.Standalone

/-!
# PhobosClient — how the tunnel on the command line ends

**`cli_restores`**: whenever the program has come to its end, by whichever of its exits, the routing
table is as before. It is not when Ctrl+C comes before the handler (`cli_killed_early`).
**`cli_ends`**: once Ctrl+C has been handled the program comes to its end, in a bounded number of
steps and without any packet; so the two together say what Ctrl+C is for.
-/

namespace Phobos

open Steps

section

variable {c c' : Cli} {pc : CliPc} {a : CliAction} {display : SocketAddr → String}
  {profile : PhobosProfile}

/-! ## The routing table -/

variable {table : RouteTable} {acts : List CliAction}

/-- As `freshCreation` asks of a session. -/
def cliFresh (table : RouteTable) (c : Cli) : CliAction → Bool
  | .deviceCreated setup =>
    match c.pc with
    | .createDevice conf target ifIndex => freshSetup table setup conf target.ip ifIndex
    | _ => true
  | _ => true

structure CliRestorable (table : RouteTable) (c : Cli) : Prop where
  fresh : ∀ k ∈ c.pc.held, k ∉ table
  rest : RestoredBut table c.os c.pc.held

/-- Each step keeps the table as it was but for the device. -/
theorem CliRestorable.step (h : CliRestorable table c) (hok : cliFresh table c a = true)
    (hstep : c.step display profile a = some c') : CliRestorable table c' := by
  have hrest : RestoredBut table c.os (c.pc.held ++ []) := by
    rw [List.append_nil]
    exact h.rest
  cases Cli.step_effect hstep with
  | move _ hheld => exact ⟨hheld ▸ h.fresh, hheld ▸ h.rest⟩
  | create hpc hcreate =>
    simp only [cliFresh, hpc] at hok
    rw [hpc] at hrest
    have hempty : RestoredBut table c.os [] := hrest
    obtain ⟨hfresh, hheld⟩ := hempty.create_ok hok hcreate
    rw [List.append_nil] at hheld
    exact ⟨hfresh, hheld⟩
  | createFailed hpc hcreate =>
    simp only [cliFresh, hpc] at hok
    rw [hpc] at hrest
    exact ⟨fun k hk => absurd hk List.not_mem_nil, hrest.create_error hok hcreate⟩
  | @release dev ws hpc =>
    have hfresh := h.fresh
    rw [hpc] at hrest hfresh
    have hheld : (CliPc.join (dev.shutdown c.os).1 ws).held = [] := WintunDevice.held_released _
    refine ⟨?_, ?_⟩
    · rw [hheld]
      exact fun k hk => absurd hk List.not_mem_nil
    · rw [hheld]
      exact hrest.shutdown hfresh
  | drop hpc =>
    have hfresh := h.fresh
    rw [hpc] at hrest hfresh
    exact ⟨fun k hk => absurd hk List.not_mem_nil, hrest.shutdown hfresh⟩
  | handlerSet hpc =>
    have hfresh := h.fresh
    have hrest := h.rest
    rw [hpc] at hfresh hrest
    exact ⟨hfresh, hrest⟩
  | handled => exact ⟨h.fresh, h.rest⟩
  | killed => exact ⟨h.fresh, h.rest⟩

/-- Ctrl+C ends the process only as long as it has no handler. -/
structure Handled (c : Cli) : Prop where
  unhandled : c.pc.unhandled = true → c.handler = false
  running : c.handler = false → c.running = true
  orderly : c.pc.Orderly

/-- A step that leaves flag and handler alone. -/
theorem Handled.move {pc : CliPc} (h : Handled c) (hmove : Advances c pc) (os : RouteOs) :
    Handled { c with pc, os } :=
  ⟨fun hpc => h.unhandled (hmove.unhandled hpc), h.running, hmove.orderly h.orderly⟩

/-- The handler stays, and once it has been called the flag stays off. -/
theorem Handled.step (h : Handled c) (hstep : c.step display profile a = some c') : Handled c' := by
  cases Cli.step_effect hstep with
  | move hmove => exact h.move hmove c.os
  | create _ _ hmove | createFailed _ _ hmove => exact h.move hmove _
  | release _ hmove | drop _ hmove => exact h.move hmove _
  | handlerSet hpc hmove =>
    refine ⟨fun hpc' => ?_, fun _ => ?_, hmove.orderly h.orderly⟩
    · cases hpc'
    · refine h.running (h.unhandled ?_)
      rw [hpc]
      rfl
  | handled _ hhandler =>
    refine ⟨h.unhandled, fun hnone => ?_, h.orderly⟩
    rw [hhandler] at hnone
    cases hnone
  | killed _ hhandler =>
    exact ⟨fun _ => hhandler, h.running, Nat.zero_le 3, trivial⟩

/-- The program has been asked to stop. -/
structure Stopping (c : Cli) : Prop where
  handled : Handled c
  stop : c.running = false

/-- By then the handler has been set. -/
theorem Stopping.unhandled (h : Stopping c) : c.pc.unhandled = false := by
  rw [← Bool.not_eq_true]
  intro hunhandled
  have hrunning := h.handled.running (h.handled.unhandled hunhandled)
  rw [h.stop] at hrunning
  cases hrunning

/-- There are at most twenty-one steps to go. -/
theorem Stopping.stepsLeft_le (h : Stopping c) : c.pc.stepsLeft ≤ 21 := by
  have hhandled := h.unhandled
  have hlength := h.handled.orderly.workers
  have hleft := SessionPc.workersLeft_le c.pc.workers
  cases hpc : c.pc <;> rw [hpc] at hhandled hlength hleft <;> first
    | exact Bool.noConfusion hhandled
    | (simp only [CliPc.stepsLeft, CliPc.ownStepsLeft, CliPc.workers, List.length_nil] at *; omega)

def CliAction.isCtrlC : CliAction → Bool
  | .ctrlC => true
  | _ => false

/-- Every step but another Ctrl+C uses up some of what is left to do. -/
theorem Stopping.step (h : Stopping c) (hstep : c.step display profile a = some c') :
    Stopping c' ∧ c'.pc.stepsLeft + (!a.isCtrlC).toNat ≤ c.pc.stepsLeft := by
  have hhandled := h.handled.step hstep
  -- whatever moves the program on takes one step off, also from another Ctrl+C
  have hless : ∀ {pc : CliPc}, Advances c pc → pc.stepsLeft + (!a.isCtrlC).toNat ≤ c.pc.stepsLeft :=
    fun hmove => Nat.le_trans (Nat.add_le_add_left (Bool.toNat_le _) _) (hmove.stepsLeft h.stop)
  cases Cli.step_effect hstep with
  | move hmove => exact ⟨⟨hhandled, h.stop⟩, hless hmove⟩
  | create _ _ hmove | createFailed _ _ hmove => exact ⟨⟨hhandled, h.stop⟩, hless hmove⟩
  | release _ hmove | drop _ hmove => exact ⟨⟨hhandled, h.stop⟩, hless hmove⟩
  | handlerSet _ hmove => exact ⟨⟨hhandled, h.stop⟩, hless hmove⟩
  | handled => exact ⟨⟨hhandled, rfl⟩, Nat.le_refl _⟩
  | killed _ hhandler =>
    -- without a handler no Ctrl+C has been handled
    have hrunning := h.handled.running hhandler
    rw [h.stop] at hrunning
    cases hrunning

/-- The steps that need neither a packet nor another Ctrl+C. -/
def Cli.prompt (c : Cli) : CliAction → Bool
  | .workerLoads i => c.pc.workers[i]?.all fun w => w.kind != .tunToUdp
  | .ctrlC => false
  | _ => true

/-- A spawn returns, if only with an error. -/
theorem Cli.exists_workerSpawned (c : Cli) (dev : WintunDevice) {ws : List Worker}
    (hlt : ws.length < spawnOrder.length) : ∃ c', c.workerSpawned dev ws (.error "") = some c' := by
  unfold workerSpawned
  rw [List.getElem?_eq_getElem hlt]
  exact ⟨_, rfl⟩

/-- **A program that has been asked to stop is never stuck**, even if no packet comes. -/
theorem Stopping.exists_prompt_step (h : Stopping c) (hend : c.pc ≠ .exited) :
    ∃ a c', c.prompt a = true ∧ c.step display profile a = some c' := by
  have hhandled := h.unhandled
  have ho := h.handled.orderly
  have hstop := h.stop
  obtain ⟨pc, running, handler, os⟩ := c
  cases pc with
  | resolve => exact ⟨.targetResolved (.error ""), _, rfl, rfl⟩
  | bindUdp => exact ⟨.udpBound (.error ""), _, rfl, rfl⟩
  | bindInterface => exact ⟨.interfaceBound (.error ""), _, rfl, rfl⟩
  | connectUdp => exact ⟨.udpConnected (.error ""), _, rfl, rfl⟩
  | spawnWorkers dev ws =>
    -- a worker is still to be spawned
    have hlt : ws.length < spawnOrder.length := ho.place
    obtain ⟨c', hc'⟩ :=
      Cli.exists_workerSpawned ⟨.spawnWorkers dev ws, running, handler, os⟩ dev hlt
    exact ⟨.workerSpawned (.error ""), c', rfl, hc'⟩
  | join dev ws =>
    cases ws with
    | nil => exact ⟨.go, _, rfl, rfl⟩
    | cons w ws =>
      obtain ⟨kind, alive⟩ := w
      cases alive with
      | false => exact ⟨.go, _, rfl, rfl⟩
      | true =>
        by_cases hkind : kind = .tunToUdp
        · -- this one sleeps in the driver: the closed device has woken it
          have hclosed : dev.val.sessionOpen = false := ho.place
          refine ⟨.workerCutOff 0, ⟨(CliPc.join dev (⟨kind, true⟩ :: ws)).stopWorker 0 ⟨kind, true⟩,
            running, handler, os⟩, rfl, ?_⟩
          simp [Cli.step, CliPc.workers, CliPc.device, hkind, hclosed]
        · -- the others look at the flag between two reads
          have hstop : running = false := hstop
          refine ⟨.workerLoads 0, ⟨(CliPc.join dev (⟨kind, true⟩ :: ws)).stopWorker 0 ⟨kind, true⟩,
            running, handler, os⟩, ?_, ?_⟩
          · simp [Cli.prompt, CliPc.workers, hkind]
          · simp [Cli.step, CliPc.workers, hstop]
  | exited => exact absurd rfl hend
  | monitor | sleep | shutdown | returning | returned => exact ⟨.go, _, rfl, rfl⟩
  | _ => cases hhandled

/-- **Ctrl+C ends the program.** Once it has been handled the process is not killed, whatever else
happens; the program takes at most 21 more steps, in any order with its workers, and can come to its
end without any packet. -/
theorem cli_ends (display : SocketAddr → String) (profile : PhobosProfile) (table : RouteTable)
    (hrun : Run (Cli.step display profile) anyStep (cliInit table) acts c)
    (hstop : c.running = false) :
    (∀ bs c', Run (Cli.step display profile) anyStep c bs c' →
        (∀ dev, c'.pc ≠ .killed dev) ∧ bs.countP (fun a => !a.isCtrlC) ≤ 21)
      ∧ ∃ bs c', Run (Cli.step display profile) (fun c a => c.prompt a = true) c bs c'
        ∧ c'.pc = .exited ∧ bs.length ≤ 21 := by
  have hinit : Handled (cliInit table) := ⟨fun _ => rfl, fun _ => rfl, Nat.zero_le 3, trivial⟩
  have hhandled : Handled c := hrun.invariant (P := Handled) hinit fun _ _ _ h _ hst => h.step hst
  have hc : Stopping c := ⟨hhandled, hstop⟩
  have hbound := hc.stepsLeft_le
  constructor
  · intro bs c' hmore
    have hc' : Stopping c' :=
      hmore.invariant (P := Stopping) hc fun _ _ _ h _ hst => (h.step hst).1
    have hcount := hmore.countP_le (P := Stopping) (fun c => c.pc.stepsLeft)
      (fun a => !a.isCtrlC) hc fun _ _ _ h _ hst => h.step hst
    refine ⟨fun dev hkilled => ?_, by omega⟩
    have hunhandled := hc'.unhandled
    -- a killed process has no handler
    rw [hkilled] at hunhandled
    cases hunhandled
  · have hto : ∃ bs c', Run (Cli.step display profile) (fun c a => c.prompt a = true) c bs c'
        ∧ Stopping c' ∧ c'.pc = .exited ∧ bs.length ≤ c.pc.stepsLeft := by
      refine exists_run_to (fun c => c.pc.stepsLeft) (fun v hv hnot => ?_) hc
      obtain ⟨a, v', hprompt, hst⟩ := hv.exists_prompt_step hnot
      obtain ⟨hv', hless⟩ := hv.step hst
      -- a prompt step is not another Ctrl+C, so it counts
      have hbusy : a.isCtrlC = false := by
        cases a with
        | ctrlC => cases hprompt
        | _ => rfl
      rw [hbusy] at hless
      exact ⟨a, v', hprompt, hst, hv', hless⟩
    obtain ⟨bs, c', hmore, -, hexited, hlength⟩ := hto
    exact ⟨bs, c', hmore, hexited, Nat.le_trans hlength hbound⟩

end

section

/-- The program up to its handler for Ctrl+C. -/
def untilHandler : List CliAction :=
  [.configParsed (.ok officeConf),
    .targetResolved (.ok (some ⟨.v4 (.ofOctets 203 0 113 7), 51824⟩)),
    .dummyBound (.ok ()), .interfaceFound (.ok 12), .deviceCreated (.ok officeSetup)]

/-- The handler is set, and the second worker cannot be spawned. -/
def spawnFails : List CliAction :=
  untilHandler ++ [.handlerSet (.ok ()),
    .targetResolved (.ok (some ⟨.v4 (.ofOctets 203 0 113 7), 51824⟩)), .udpBound (.ok ()),
    .interfaceBound (.ok 12), .udpConnected (.ok ()), .workerSpawned (.ok ()),
    .workerSpawned (.error "no memory"), .go, .go]

/-- Ctrl+C while the tunnel is up. -/
def interrupted : List CliAction :=
  untilHandler ++ [.handlerSet (.ok ()),
    .targetResolved (.ok (some ⟨.v4 (.ofOctets 203 0 113 7), 51824⟩)), .udpBound (.ok ()),
    .interfaceBound (.ok 12), .udpConnected (.ok ()), .workerSpawned (.ok ()),
    .workerSpawned (.ok ()), .workerSpawned (.ok ()), .go, .ctrlC]

/-- Ctrl+C is pressed while three workers are running. -/
theorem cli_ends_interrupted : ∃ c : Cli, c.running = false ∧ c.pc.workers.length = 3
    ∧ (∀ bs c', Run (Cli.step (fun _ => "") office) anyStep c bs c' →
        (∀ dev, c'.pc ≠ .killed dev) ∧ bs.countP (fun a => !a.isCtrlC) ≤ 21)
    ∧ ∃ bs c', Run (Cli.step (fun _ => "") office) (fun c a => c.prompt a = true) c bs c'
      ∧ c'.pc = .exited ∧ bs.length ≤ 21 := by
  have hexec : (exec (Cli.step (fun _ => "") office) (cliInit ∅) interrupted).any (fun c =>
      decide (c.running = false ∧ c.pc.workers.length = 3)) = true := by
    decide +kernel
  obtain ⟨c, hrun, hc⟩ := Run.of_exec_any hexec
  obtain ⟨hstop, hworkers⟩ := of_decide_eq_true hc
  exact ⟨c, hstop, hworkers, cli_ends (fun _ => "") office ∅ hrun hstop⟩

/-- Ctrl+C right after the device has been created: the process is gone and its routes stay. -/
theorem cli_killed_early : ∃ c, Run (Cli.step (fun _ => "") office)
      (fun c a => cliFresh plainTable c a = true) (cliInit plainTable) (untilHandler ++ [.ctrlC]) c
    ∧ c.pc.isOver = true ∧ c.pc.held ≠ [] ∧ c.os.table ≠ plainTable := by
  have hexec : (execIf (Cli.step (fun _ => "") office) (cliFresh plainTable) (cliInit plainTable)
      (untilHandler ++ [.ctrlC])).any (fun c =>
        decide (c.pc.isOver = true ∧ c.pc.held ≠ [] ∧ c.os.table ≠ plainTable)) = true := by
    decide +kernel
  obtain ⟨c, hrun, hc⟩ := Run.of_execIf_any hexec
  exact ⟨c, hrun, of_decide_eq_true hc⟩

end

end Phobos
