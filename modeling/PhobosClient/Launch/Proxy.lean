import PhobosClient.Config.Loopback
import PhobosClient.Lib.IpAddr
import PhobosClient.Relay.Sockets
import PhobosClient.Store.Contents

/-!
# PhobosClient — the local proxy (`src/main.rs`, `src/relay.rs`, `src/archive.rs`)

`run_proxy_mode` writes the loopback configuration into the working directory, for WireGuard to
read, starts the relay that it points to, waits for Ctrl+C, stops the relay, and asks whether the
configuration is to be removed: it has the private key in it. `start` of the relay fails in many
places; `RelaySockets` takes over where its threads have been spawned.

**`proxy_mode`**: from the export to the removal the file is there and sends WireGuard to the socket
that the relay listens on and nowhere else; the threads of the relay are at work as in
`Relay.Sockets`, whatever the main thread does; and no other file is touched. The file stays behind
after every end but two (`ProxyPc.exported`).

Not modelled: the monitor thread, which only prints, and access control lists. `disk` is what other
programs do to the directory.
-/

namespace Phobos

open Text Steps CaseData

/-- How the mode returns. -/
inductive ProxyEnd where
  | notExported (e : String)
  | relayFailed (e : String)
  /-- the file is not there when it is to be removed -/
  | fileGone
  | removed
  | notRemoved (e : String)
  | kept
  | unanswered

inductive ProxyPc where
  | exportConf
  /-- `PhobosRelay::start`, from here on -/
  | bindListener
  | resolveTarget
  | bindUpstream (target : SocketAddr)
  | bindInterface (target : SocketAddr)
  | connectUpstream (target : SocketAddr)
  | cloneSockets (left : Nat)
  /-- the threads of the relay have been spawned -/
  | setHandler
  /-- about to test `running` -/
  | waiting
  | stopRelay
  | checkFile
  | asking
  | removing
  | returned (how : ProxyEnd)
  /-- Ctrl+C without a handler; whether the file had been written -/
  | killed (exported : Bool)

structure Proxy (Addr : Type*) where
  pc : ProxyPc
  /-- the working directory -/
  dir : ProfilesDir
  running : Bool
  handler : Bool
  /-- where the relay listens -/
  listener : Option Text
  relay : Option (RelaySockets Addr)

inductive ProxyAction (Addr : Type*) where
  | exported (outcome : WriteOutcome)
  | listenerBound (result : Except String Unit)
  | targetResolved (result : Except String (List SocketAddr))
  | upstreamBound (result : Except String Unit)
  | interfaceBound (result : Except String Nat)
  | upstreamConnected (result : Except String Unit)
  | socketCloned (result : Except String Unit)
  | handlerSet (result : Except String Unit)
  | go
  | ctrlC
  | stopRelay
  /-- `none` when nothing can be read -/
  | answered (line : Option Text)
  | fileRemoved (result : Except String Unit)
  | relay (a : SocketAction Addr)
  | disk (dir : ProfilesDir)

namespace PhobosProfile

/-- The name of the file that `export_ready_wg_conf` writes. -/
def readyName (profile : PhobosProfile) : Text :=
  sanitizeClientName profile.clientName ++ "-ready.conf".toList

def readyBytes (profile : PhobosProfile) : Bytes := Utf8.encode profile.readyWgConfContent

def obfuscator (profile : PhobosProfile) : Obfuscator :=
  ⟨profile.key, profile.maxDummy, profile.obfuscateBytes⟩

def isStun (profile : PhobosProfile) : Bool := eqIgnoreAsciiCase profile.masking "STUN".toList

end PhobosProfile

/-- What the texts of errors take from outside. -/
structure ProxyTexts where
  casing : CaseData
  path : Text → String
  addr : SocketAddr → String

namespace ProxyPc

/-- The file has been written and not been removed. -/
def exported : ProxyPc → Bool
  | exportConf => false
  | returned (.notExported _) | returned .fileGone | returned .removed => false
  | killed exported => exported
  | _ => true

/-- The file has been removed, or was not there to be removed. -/
def gone : ProxyPc → Bool
  | returned .fileGone | returned .removed => true
  | _ => false

/-- The threads of the relay have been spawned. -/
def started : ProxyPc → Bool
  | setHandler | waiting | stopRelay | checkFile | asking | removing => true
  | returned (.notExported _) | returned (.relayFailed _) => false
  | returned _ => true
  | _ => false

/-- The relay listens. -/
def listens : ProxyPc → Bool
  | resolveTarget | bindUpstream _ | bindInterface _ | connectUpstream _ | cloneSockets _ => true
  | pc => pc.started

/-- The relay has been asked to stop. -/
def stopped : ProxyPc → Bool
  | checkFile | asking | removing => true
  | returned (.notExported _) | returned (.relayFailed _) => false
  | returned _ => true
  | _ => false

/-- The process is there no more. -/
def isOver : ProxyPc → Bool
  | returned _ | killed _ => true
  | _ => false

end ProxyPc

/-- Whether an answer is taken for yes. -/
def isYes (casing : CaseData) (line : Text) : Bool :=
  let trimmed := casing.toLowercase (trim line)
  trimmed.isEmpty || trimmed == "y".toList || trimmed == "yes".toList || trimmed == "д".toList ||
    trimmed == "да".toList

/-- Threads of the relay do not stop it. -/
def isThreadAction {Addr : Type*} : SocketAction Addr → Bool
  | .stop => false
  | _ => true

def ProfilesDir.has (dir : ProfilesDir) (name : Text) : Bool :=
  dir.files.any fun f => eqIgnoreAsciiCase f.name name

variable {Addr : Type*} [DecidableEq Addr]

def proxyInit (dir : ProfilesDir) : Proxy Addr := ⟨.exportConf, dir, true, false, none, none⟩

namespace Proxy

section

variable (texts : ProxyTexts) (profile : PhobosProfile) (p : Proxy Addr)

/-- The sockets that there are go with the failed `start`. -/
def failStart (e : String) : Option (Proxy Addr) :=
  some { p with pc := .returned (.relayFailed e), listener := none }

/-- `run_proxy_mode`. -/
def step : ProxyAction Addr → Option (Proxy Addr)
  | .exported outcome =>
    let e := s!"Failed to write ready WireGuard config to {texts.path profile.readyName}: "
    match p.pc, outcome with
    | .exportConf, .written =>
      some { p with dir := p.dir.write profile.readyName profile.readyBytes, pc := .bindListener }
    | .exportConf, .refused reason => some { p with pc := .returned (.notExported (e ++ reason)) }
    | .exportConf, .brokenOff reason count =>
      some { p with
        dir := p.dir.write profile.readyName (profile.readyBytes.take count)
        pc := .returned (.notExported (e ++ reason)) }
    | _, _ => none
  | .listenerBound result =>
    let addr := loopbackEndpoint profile.localPort
    match p.pc, result with
    | .bindListener, .ok () => some { p with pc := .resolveTarget, listener := some addr }
    | .bindListener, .error e =>
      p.failStart s!"Failed to bind loopback UDP socket on {String.ofList addr}: {e}"
    | _, _ => none
  | .targetResolved result =>
    let target := String.ofList profile.target
    match p.pc, result with
    | .resolveTarget, .ok (addr :: _) => some { p with pc := .bindUpstream addr }
    | .resolveTarget, .ok [] => p.failStart s!"Could not resolve target address: {target}"
    | .resolveTarget, .error e => p.failStart s!"Failed to resolve target '{target}': {e}"
    | _, _ => none
  | .upstreamBound result =>
    match p.pc, result with
    | .bindUpstream target, .ok () => some { p with pc := .bindInterface target }
    | .bindUpstream _, .error e => p.failStart s!"Failed to bind upstream socket: {e}"
    | _, _ => none
  | .interfaceBound _ =>
    -- a failure is a warning here
    match p.pc with
    | .bindInterface target => some { p with pc := .connectUpstream target }
    | _ => none
  | .upstreamConnected result =>
    match p.pc, result with
    | .connectUpstream _, .ok () => some { p with pc := .cloneSockets 3 }
    | .connectUpstream target, .error e =>
      p.failStart s!"Failed to connect upstream socket to {texts.addr target}: {e}"
    | _, _ => none
  | .socketCloned result =>
    match p.pc, result with
    | .cloneSockets (left + 2), .ok () => some { p with pc := .cloneSockets (left + 1) }
    | .cloneSockets _, .ok () =>
      some { p with pc := .setHandler, relay := some (socketsInit profile.isStun) }
    | .cloneSockets _, .error e => p.failStart e
    | _, _ => none
  | .handlerSet result =>
    match p.pc with
    | .setHandler => some { p with pc := .waiting, handler := result.isOk }
    | _ => none
  | .go =>
    match p.pc with
    | .waiting => some { p with pc := if p.running then .waiting else .stopRelay }
    | .checkFile =>
      some { p with
        pc := if p.dir.has profile.readyName then .asking else .returned .fileGone }
    | _ => none
  | .ctrlC =>
    if p.pc.isOver then none
    else if p.handler then some { p with running := false }
    else some { p with pc := .killed p.pc.exported, listener := none, relay := none }
  | .stopRelay =>
    match p.pc with
    | .stopRelay =>
      some { p with
        pc := .checkFile
        relay := p.relay.map fun relay => { relay with running := false } }
    | _ => none
  | .answered line =>
    match p.pc, line with
    | .asking, some line =>
      some { p with pc := if isYes texts.casing line then .removing else .returned .kept }
    | .asking, none => some { p with pc := .returned .unanswered }
    | _, _ => none
  | .fileRemoved result =>
    match p.pc, result with
    | .removing, .ok () =>
      some { p with dir := p.dir.remove profile.readyName, pc := .returned .removed }
    | .removing, .error e => some { p with pc := .returned (.notRemoved e) }
    | _, _ => none
  | .relay a =>
    match p.relay with
    | some relay =>
      if isThreadAction a && !p.pc.isOver then
        (socketsStep profile.obfuscator profile.isStun relay a).map fun relay =>
          { p with relay := some relay }
      else none
    | none => none
  | .disk dir => if p.pc.isOver then none else some { p with dir }

end

end Proxy

/-! ## The file -/

namespace ProfilesDir

variable {dir dir' : ProfilesDir} {name : Text} {bytes : Bytes}

/-- There is a file of this name, in whatever spelling, with these contents. -/
def Holds (dir : ProfilesDir) (name : Text) (bytes : Bytes) : Prop :=
  ∃ f ∈ dir.files, eqIgnoreAsciiCase f.name name = true ∧ f.bytes = bytes

/-- The directories have the same files of this name, or the same files of other names. -/
def SameFiles (dir dir' : ProfilesDir) (name : Text) (own : Bool) : Prop :=
  ∀ f : StoredFile, eqIgnoreAsciiCase f.name name = own → (f ∈ dir.files ↔ f ∈ dir'.files)

/-- The system finds a file by its name in any spelling. -/
theorem has_iff : dir.has name = true ↔ ∃ f ∈ dir.files, eqIgnoreAsciiCase f.name name = true :=
  List.any_eq_true

/-- Nothing has changed. -/
theorem SameFiles.refl {own : Bool} : SameFiles dir dir name own := fun _ _ => Iff.rfl

theorem Holds.has (h : dir.Holds name bytes) : dir.has name = true := by
  obtain ⟨f, hf, hname, -⟩ := h
  exact has_iff.mpr ⟨f, hf, hname⟩

/-- A file is still there if the files of that name are the same. -/
theorem Holds.congr (h : dir.Holds name bytes) (hsame : SameFiles dir dir' name true) :
    dir'.Holds name bytes := by
  obtain ⟨f, hf, hname, hbytes⟩ := h
  exact ⟨f, (hsame f hname).mp hf, hname, hbytes⟩

/-- What has been written is there. -/
theorem holds_write (dir : ProfilesDir) (name : Text) (bytes : Bytes) :
    (dir.write name bytes).Holds name bytes := by
  unfold write
  split
  · next hany =>
    obtain ⟨f, hf, hname⟩ := List.any_eq_true.mp hany
    exact ⟨{ f with bytes }, List.mem_map.mpr ⟨f, hf, if_pos hname⟩, hname, rfl⟩
  · exact ⟨⟨name, bytes⟩, List.mem_append_right _ (List.mem_singleton_self _),
      eqIgnoreAsciiCase_iff.mpr rfl, rfl⟩

/-- A write leaves the files of other names alone. -/
theorem SameFiles.write (h : SameFiles dir dir' name false) (bytes : Bytes) :
    SameFiles dir (dir'.write name bytes) name false := by
  intro g hg
  refine (h g hg).trans ?_
  unfold ProfilesDir.write
  split
  · -- the name is there already, and its file is replaced
    constructor
    · intro hmem
      refine List.mem_map.mpr ⟨g, hmem, if_neg ?_⟩
      rw [hg]
      exact Bool.false_ne_true
    · intro hmem
      obtain ⟨f, hf, heq⟩ := List.mem_map.mp hmem
      split at heq
      · next hname =>
        rw [← heq, show eqIgnoreAsciiCase f.name name = true from hname] at hg
        cases hg
      · rwa [← heq]
  · -- or the file is new
    refine ⟨List.mem_append_left _, fun hmem => ?_⟩
    rcases List.mem_append.mp hmem with hmem | hnew
    · exact hmem
    · rw [List.mem_singleton.mp hnew, show eqIgnoreAsciiCase name name = true from
        eqIgnoreAsciiCase_iff.mpr rfl] at hg
      cases hg

/-- So does a removal. -/
theorem SameFiles.remove (h : SameFiles dir dir' name false) :
    SameFiles dir (dir'.remove name) name false := by
  intro g hg
  rw [mem_remove, h g hg]
  exact ⟨fun hmem => ⟨hmem, hg⟩, fun hmem => hmem.1⟩

/-- What has been removed is gone, in every spelling. -/
theorem has_remove (dir : ProfilesDir) (name : Text) : (dir.remove name).has name = false := by
  rw [← Bool.not_eq_true, has_iff]
  intro h
  obtain ⟨f, hf, hname⟩ := h
  rw [(mem_remove.mp hf).2] at hname
  cases hname

end ProfilesDir

/-! ## What a step can do -/

namespace ProxyAction

/-- What the threads of the relay and `stop` do. -/
def socket : ProxyAction Addr → Option (SocketAction Addr)
  | relay a => some a
  | stopRelay => some .stop
  | _ => none

/-- What other programs make of the directory. -/
def seen : ProxyAction Addr → Option ProfilesDir
  | disk dir => some dir
  | _ => none

/-- An action of the main thread that is not a call to `stop`. -/
def isOwn (a : ProxyAction Addr) : Prop := a.socket = none ∧ a.seen = none

end ProxyAction

/-- Nothing begins or ends between the two places. -/
def ProxyPc.leadsTo (pc pc' : ProxyPc) : Bool :=
  !pc.isOver && (!pc'.exported || pc.exported) && pc'.listens == pc.listens
    && pc'.started == pc.started && pc'.stopped == pc.stopped && !pc'.gone

/-- The main thread moves on, and nothing else changes. -/
structure ProxyMove (p : Proxy Addr) (name : Text) (pc : ProxyPc) : Prop where
  here : p.pc.isOver = false
  exported : pc.exported = true → p.pc.exported = true
  listens : pc.listens = p.pc.listens
  started : pc.started = p.pc.started
  stopped : pc.stopped = p.pc.stopped
  gone : pc.gone = true → p.dir.has name = false

/-- **The effects of a step.** -/
inductive ProxyEffect (profile : PhobosProfile) (p : Proxy Addr) :
    ProxyAction Addr → Proxy Addr → Prop where
  | move {a : ProxyAction Addr} {pc : ProxyPc} (hown : a.isOwn)
      (hmove : ProxyMove p profile.readyName pc) : ProxyEffect profile p a { p with pc }
  | exported (hpc : p.pc = .exportConf) : ProxyEffect profile p (.exported .written)
      { p with dir := p.dir.write profile.readyName profile.readyBytes, pc := .bindListener }
  | brokenOff {reason e : String} {count : Nat} (hpc : p.pc = .exportConf) :
      ProxyEffect profile p (.exported (.brokenOff reason count))
        { p with
          dir := p.dir.write profile.readyName (profile.readyBytes.take count)
          pc := .returned (.notExported e) }
  | failStart {a : ProxyAction Addr} {e : String} (hown : a.isOwn) (hover : p.pc.isOver = false)
      (hexported : p.pc.exported = true) (hstarted : p.pc.started = false) :
      ProxyEffect profile p a { p with pc := .returned (.relayFailed e), listener := none }
  | listen (hpc : p.pc = .bindListener) : ProxyEffect profile p (.listenerBound (.ok ()))
      { p with pc := .resolveTarget, listener := some (loopbackEndpoint profile.localPort) }
  | spawn {left : Nat} (hpc : p.pc = .cloneSockets left) :
      ProxyEffect profile p (.socketCloned (.ok ()))
        { p with pc := .setHandler, relay := some (socketsInit profile.isStun) }
  | handlerSet {result : Except String Unit} (hpc : p.pc = .setHandler) :
      ProxyEffect profile p (.handlerSet result)
        { p with pc := .waiting, handler := result.isOk }
  | interrupted (hover : p.pc.isOver = false) :
      ProxyEffect profile p .ctrlC { p with running := false }
  | killed (hover : p.pc.isOver = false) : ProxyEffect profile p .ctrlC
      { p with pc := .killed p.pc.exported, listener := none, relay := none }
  | stopRelay (hpc : p.pc = .stopRelay) : ProxyEffect profile p .stopRelay
      { p with
        pc := .checkFile
        relay := p.relay.map fun relay => { relay with running := false } }
  | removed (hpc : p.pc = .removing) : ProxyEffect profile p (.fileRemoved (.ok ()))
      { p with dir := p.dir.remove profile.readyName, pc := .returned .removed }
  | relay {a : SocketAction Addr} {relay relay' : RelaySockets Addr} (hover : p.pc.isOver = false)
      (hrelay : p.relay = some relay) (hthread : isThreadAction a = true)
      (hstep : socketsStep profile.obfuscator profile.isStun relay a = some relay') :
      ProxyEffect profile p (.relay a) { p with relay := some relay' }
  | disk {dir : ProfilesDir} (hover : p.pc.isOver = false) :
      ProxyEffect profile p (.disk dir) { p with dir }

section

variable {texts : ProxyTexts} {profile : PhobosProfile} {p p' : Proxy Addr}
  {a : ProxyAction Addr}

/-- Straight on: the places before and after agree on what is there. -/
theorem ProxyEffect.straight {pc pc' : ProxyPc} (hpc : p.pc = pc) (hown : a.isOwn)
    (hleads : pc.leadsTo pc' = true) : ProxyEffect profile p a { p with pc := pc' } := by
  unfold ProxyPc.leadsTo at hleads
  simp only [Bool.and_eq_true, Bool.not_eq_true', Bool.or_eq_true, beq_iff_eq] at hleads
  obtain ⟨⟨⟨⟨⟨hhere, hexported⟩, hlistens⟩, hstarted⟩, hstopped⟩, hgone⟩ := hleads
  refine .move hown ⟨hpc ▸ hhere, fun h => ?_, hpc ▸ hlistens, hpc ▸ hstarted, hpc ▸ hstopped,
    fun h => ?_⟩
  · rw [hpc]
    exact hexported.resolve_left (ne_of_eq_of_ne h Bool.noConfusion)
  · rw [hgone] at h
    cases h

/-- A call of `start` has failed: the process ends, and the exported file stays. -/
theorem ProxyEffect.fails {pc : ProxyPc} {e : String} (hpc : p.pc = pc) (hown : a.isOwn)
    (hhere : pc.isOver = false) (hexported : pc.exported = true) (hstarted : pc.started = false)
    (h : p.failStart e = some p') : ProxyEffect profile p a p' := by
  cases h
  exact .failStart hown (hpc ▸ hhere) (hpc ▸ hexported) (hpc ▸ hstarted)

/-- **Every step has one of the effects.** -/
theorem Proxy.step_effect (h : p.step texts profile a = some p') :
    ProxyEffect profile p a p' := by
  unfold Proxy.step at h
  cases a with
  | exported outcome =>
    dsimp only at h
    split at h
    · next hpc =>
      cases h
      exact .exported hpc
    · next hpc =>
      cases h
      exact .straight hpc ⟨rfl, rfl⟩ rfl
    · next hpc =>
      -- a write that breaks off leaves part of a file
      cases h
      exact .brokenOff hpc
    · cases h
  | listenerBound result =>
    dsimp only at h
    split at h
    · next hpc =>
      cases h
      exact .listen hpc
    · next hpc => exact .fails hpc ⟨rfl, rfl⟩ rfl rfl rfl h
    · -- `start` fails, as it does below
      cases h
  | targetResolved result =>
    dsimp only at h
    split at h
    · next hpc =>
      cases h
      exact .straight hpc ⟨rfl, rfl⟩ rfl
    · next hpc => exact .fails hpc ⟨rfl, rfl⟩ rfl rfl rfl h
    · next hpc => exact .fails hpc ⟨rfl, rfl⟩ rfl rfl rfl h
    · cases h
  | upstreamBound result =>
    dsimp only at h
    split at h
    · next hpc =>
      cases h
      exact .straight hpc ⟨rfl, rfl⟩ rfl
    · next hpc => exact .fails hpc ⟨rfl, rfl⟩ rfl rfl rfl h
    · cases h
  | interfaceBound result =>
    dsimp only at h
    split at h
    · next hpc =>
      cases h
      exact .straight hpc ⟨rfl, rfl⟩ rfl
    · cases h
  | upstreamConnected result =>
    dsimp only at h
    split at h
    · next hpc =>
      cases h
      exact .straight hpc ⟨rfl, rfl⟩ rfl
    · next hpc => exact .fails hpc ⟨rfl, rfl⟩ rfl rfl rfl h
    · cases h
  | socketCloned result =>
    dsimp only at h
    split at h
    · next hpc =>
      cases h
      exact .straight hpc ⟨rfl, rfl⟩ rfl
    · next hpc =>
      cases h
      exact .spawn hpc
    · next hpc => exact .fails hpc ⟨rfl, rfl⟩ rfl rfl rfl h
    · cases h
  | handlerSet result =>
    dsimp only at h
    split at h
    · next hpc =>
      cases h
      exact .handlerSet hpc
    · cases h
  | go =>
    dsimp only at h
    split at h
    · next hpc =>
      cases h
      refine .straight hpc ⟨rfl, rfl⟩ ?_
      -- the main thread polls the flag that Ctrl+C takes away
      cases p.running <;> rfl
    · next hpc =>
      cases h
      -- without a file there is nothing to ask about
      cases hhas : p.dir.has profile.readyName with
      | true => exact .straight hpc ⟨rfl, rfl⟩ rfl
      | false =>
        refine .move ⟨rfl, rfl⟩ ⟨hpc ▸ rfl, fun h => ?_, hpc ▸ rfl, hpc ▸ rfl, hpc ▸ rfl,
          fun _ => hhas⟩
        cases h
    · cases h
  | ctrlC =>
    dsimp only at h
    split at h
    · cases h
    · next hover =>
      -- the handler takes the flag away; without it the process is killed
      have hover := Bool.eq_false_of_not_eq_true hover
      split at h
      · cases h
        exact .interrupted hover
      · cases h
        exact .killed hover
  | stopRelay =>
    dsimp only at h
    split at h
    · next hpc =>
      cases h
      exact .stopRelay hpc
    · cases h
  | answered line =>
    dsimp only at h
    split at h
    · next line hpc =>
      cases h
      refine .straight hpc ⟨rfl, rfl⟩ ?_
      -- the file stays unless the answer is a yes
      cases isYes texts.casing line <;> rfl
    · next hpc =>
      cases h
      exact .straight hpc ⟨rfl, rfl⟩ rfl
    · cases h
  | fileRemoved result =>
    dsimp only at h
    split at h
    · next hpc =>
      cases h
      exact .removed hpc
    · next hpc =>
      cases h
      exact .straight hpc ⟨rfl, rfl⟩ rfl
    · cases h
  | relay a =>
    dsimp only at h
    split at h
    · next relay hrelay =>
      split at h
      · next hguard =>
        -- the threads of the relay go on as long as the process is there
        obtain ⟨hthread, hover⟩ := Bool.and_eq_true_iff.mp hguard
        obtain ⟨relay', hstep, rfl⟩ := Option.map_eq_some_iff.mp h
        exact .relay ((Bool.not_eq_true' _).mp hover) hrelay hthread hstep
      · cases h
    · cases h
  | disk dir =>
    dsimp only at h
    split at h
    · cases h
    · next hover =>
      cases h
      exact .disk (Bool.eq_false_of_not_eq_true hover)

/-! ## What holds throughout -/

/-- Other programs leave the file alone that the process counts on. -/
def leavesExport (profile : PhobosProfile) (p : Proxy Addr) : ProxyAction Addr → Prop
  | .disk dir =>
    p.pc.exported = true → ProfilesDir.SameFiles p.dir dir profile.readyName true
  | _ => True

/-- The directory as other programs have last left it. -/
def lastSeen (dir : ProfilesDir) (acts : List (ProxyAction Addr)) : ProfilesDir :=
  (acts.filterMap ProxyAction.seen).getLast?.getD dir

/-- The file in the directory, at a place of the main thread. -/
structure FileKept (profile : PhobosProfile) (seen : ProfilesDir) (pc : ProxyPc)
    (dir : ProfilesDir) : Prop where
  holds : pc.exported = true → dir.Holds profile.readyName profile.readyBytes
  gone : pc.gone = true → dir.has profile.readyName = false
  others : ProfilesDir.SameFiles seen dir profile.readyName false

/-- The relay that there is has taken these steps. -/
def RelayRun (profile : PhobosProfile) (steps : List (SocketAction Addr)) :
    Option (RelaySockets Addr) → Prop
  | some relay => Run (socketsStep profile.obfuscator profile.isStun) anyStep
      (socketsInit profile.isStun) steps relay
  | none => steps = []

/-- The relay, at a place of the main thread. -/
structure RelayKept (profile : PhobosProfile) (steps : List (SocketAction Addr)) (pc : ProxyPc)
    (relay : Option (RelaySockets Addr)) : Prop where
  present : relay.isSome = pc.started
  runs : relay.isSome = true ∨ pc.isOver = false → RelayRun profile steps relay
  running : ∀ w, relay = some w → w.running = !pc.stopped

structure ProxyInv (profile : PhobosProfile) (dir : ProfilesDir)
    (acts : List (ProxyAction Addr)) (p : Proxy Addr) : Prop where
  file : FileKept profile (lastSeen dir acts) p.pc p.dir
  listener : p.listener = if p.pc.listens then some (loopbackEndpoint profile.localPort) else none
  relay : RelayKept profile (acts.filterMap ProxyAction.socket) p.pc p.relay

variable {dir : ProfilesDir} {acts : List (ProxyAction Addr)} {seen : ProfilesDir}
  {steps : List (SocketAction Addr)} {relay : Option (RelaySockets Addr)} {pc pc' : ProxyPc}

/-- The file is removed at the very end. -/
theorem ProxyPc.isOver_of_gone (h : pc.gone = true) : pc.isOver = true := by
  cases pc with
  | returned how => rfl
  | _ => cases h

/-- A step that does not touch the file. -/
theorem FileKept.move (h : FileKept profile seen pc dir)
    (hexported : pc'.exported = true → pc.exported = true)
    (hgone : pc'.gone = true → dir.has profile.readyName = false) :
    FileKept profile seen pc' dir :=
  ⟨fun hthere => h.holds (hexported hthere), hgone, h.others⟩

/-- A step that does not touch the relay. -/
theorem RelayKept.move (h : RelayKept profile steps pc relay) (hhere : pc.isOver = false)
    (hstarted : pc'.started = pc.started)
    (hstopped : pc'.started = true → pc'.stopped = pc.stopped) :
    RelayKept profile steps pc' relay := by
  refine ⟨h.present.trans hstarted.symm, fun _ => h.runs (.inr hhere), fun w hw => ?_⟩
  have hthere : pc'.started = true := by
    rw [hstarted, ← h.present, hw]
    rfl
  rw [hstopped hthere]
  exact h.running w hw

omit [DecidableEq Addr] in
theorem lastSeen_concat (ha : a.seen = none) : lastSeen dir (acts ++ [a]) = lastSeen dir acts := by
  rw [lastSeen, List.filterMap_append, List.filterMap_cons_none ha, List.filterMap_nil,
    List.append_nil, lastSeen]

omit [DecidableEq Addr] in
theorem socket_concat (ha : a.socket = none) :
    (acts ++ [a]).filterMap ProxyAction.socket = acts.filterMap ProxyAction.socket := by
  rw [List.filterMap_append, List.filterMap_cons_none ha, List.filterMap_nil, List.append_nil]

/-- Threads of the relay leave `running` alone. -/
theorem socketsStep_running {o : Obfuscator} {isStun : Bool} {w w' : RelaySockets Addr}
    {b : SocketAction Addr} (hthread : isThreadAction b = true)
    (h : socketsStep o isStun w b = some w') : w'.running = w.running := by
  cases b with
  | stop => cases hthread
  | clientRecv d =>
    simp only [socketsStep] at h
    -- a datagram is dropped, or taken on
    split at h
    · split at h <;> cases h
      rfl
    · cases h
  | serverRecv raw =>
    simp only [socketsStep] at h
    split at h
    · split at h
      · cases h
      · split at h
        · cases h
          rfl
        · split at h <;> cases h <;> rfl
    · cases h
  | serverLook =>
    simp only [socketsStep] at h
    split at h
    · split at h <;> cases h <;> rfl
    · cases h
  | _ =>
    simp only [socketsStep] at h
    split at h <;> cases h
    rfl

/-- **One step keeps the invariant.** -/
theorem ProxyInv.step (h : ProxyInv profile dir acts p) (hok : leavesExport profile p a)
    (hstep : p.step texts profile a = some p') : ProxyInv profile dir (acts ++ [a]) p' := by
  obtain ⟨hfile, hlistener, hrelay⟩ := h
  cases Proxy.step_effect hstep with
  | move hown hmove =>
    refine ⟨?_, ?_, ?_⟩
    · rw [lastSeen_concat hown.2]
      -- the file, the listener, and the relay stay as they are
      exact hfile.move hmove.exported hmove.gone
    · rw [hmove.listens]
      exact hlistener
    · rw [socket_concat hown.1]
      exact hrelay.move hmove.here hmove.started fun _ => hmove.stopped
  | exported hpc =>
    rw [hpc] at hlistener hrelay
    refine ⟨?_, hlistener, ?_⟩
    · rw [lastSeen_concat rfl]
      -- the file holds the loopback configuration
      exact ⟨fun _ => ProfilesDir.holds_write _ _ _, (fun hgone => by cases hgone),
        hfile.others.write _⟩
    · rw [socket_concat rfl]
      exact hrelay.move rfl rfl fun _ => rfl
  | brokenOff hpc =>
    rw [hpc] at hlistener hrelay
    refine ⟨?_, hlistener, ?_⟩
    · rw [lastSeen_concat rfl]
      -- what is left of it is not counted as exported
      exact ⟨(fun hexported => by cases hexported), (fun hgone => by cases hgone),
        hfile.others.write _⟩
    · rw [socket_concat rfl]
      exact hrelay.move rfl rfl fun _ => rfl
  | failStart hown hover hexported hstarted =>
    refine ⟨?_, rfl, ?_⟩
    · rw [lastSeen_concat hown.2]
      exact hfile.move (fun _ => hexported) fun hgone => by cases hgone
    · rw [socket_concat hown.1]
      exact hrelay.move hover hstarted.symm fun hthere => by cases hthere
  | listen hpc =>
    rw [hpc] at hfile hrelay
    refine ⟨?_, rfl, ?_⟩
    · rw [lastSeen_concat rfl]
      exact hfile.move (fun _ => rfl) fun hgone => by cases hgone
    · rw [socket_concat rfl]
      exact hrelay.move rfl rfl fun _ => rfl
  | spawn hpc =>
    rw [hpc] at hfile hlistener hrelay
    refine ⟨?_, hlistener, ?_⟩
    · rw [lastSeen_concat rfl]
      exact hfile.move (fun _ => rfl) fun hgone => by cases hgone
    · -- there was no relay yet, so nothing has moved
      have hnone : p.relay = none :=
        Option.isNone_iff_eq_none.mp (Option.isSome_eq_false_iff.mp hrelay.present)
      have hsteps : acts.filterMap ProxyAction.socket = [] := by
        have hruns := hrelay.runs (.inr rfl)
        rwa [hnone] at hruns
      rw [socket_concat rfl, hsteps]
      refine ⟨rfl, fun _ => .nil _, fun w hw => ?_⟩
      cases hw
      rfl
  | handlerSet hpc =>
    rw [hpc] at hfile hlistener hrelay
    refine ⟨?_, hlistener, ?_⟩
    · rw [lastSeen_concat rfl]
      exact hfile.move (fun _ => rfl) fun hgone => by cases hgone
    · rw [socket_concat rfl]
      exact hrelay.move rfl rfl fun _ => rfl
  | interrupted hover =>
    refine ⟨?_, hlistener, ?_⟩
    · rw [lastSeen_concat rfl]
      exact hfile
    · rw [socket_concat rfl]
      exact hrelay
  | killed hover =>
    refine ⟨?_, rfl, ?_⟩
    · rw [lastSeen_concat rfl]
      exact hfile.move (fun hexported => hexported) fun hgone => by cases hgone
    · refine ⟨rfl, fun hthere => ?_, fun w hw => by cases hw⟩
      rcases hthere with hthere | hthere <;> cases hthere
  | stopRelay hpc =>
    rw [hpc] at hfile hlistener hrelay
    refine ⟨?_, hlistener, ?_⟩
    · rw [lastSeen_concat rfl]
      exact hfile.move (fun _ => rfl) fun hgone => by cases hgone
    · -- `stop` is one more step of the relay
      obtain ⟨w, hw⟩ := Option.isSome_iff_exists.mp hrelay.present
      have hruns := hrelay.runs (.inr rfl)
      rw [hw] at hruns
      rw [List.filterMap_append, hw]
      refine ⟨rfl, fun _ => .snoc hruns trivial rfl, fun w' hw' => ?_⟩
      cases hw'
      rfl
  | removed hpc =>
    rw [hpc] at hlistener hrelay
    refine ⟨?_, hlistener, ?_⟩
    · rw [lastSeen_concat rfl]
      -- the file is gone, and is the only one that is
      exact ⟨(fun hexported => by cases hexported), fun _ => ProfilesDir.has_remove _ _,
        hfile.others.remove⟩
    · rw [socket_concat rfl]
      exact hrelay.move rfl rfl fun _ => rfl
  | @relay b w w' hover hw hthread hsockets =>
    refine ⟨?_, hlistener, ?_⟩
    · rw [lastSeen_concat rfl]
      exact hfile
    · -- a step of a thread of the relay
      have hruns := hrelay.runs (.inr hover)
      have hpresent := hrelay.present
      rw [hw] at hruns hpresent
      rw [List.filterMap_append]
      refine ⟨hpresent, fun _ => .snoc hruns trivial hsockets, fun v hv => ?_⟩
      cases hv
      rw [socketsStep_running hthread hsockets]
      exact hrelay.running w hw
  | @disk dir' hover =>
    refine ⟨?_, hlistener, ?_⟩
    · -- another program has changed the directory, but not this file
      have hseen : lastSeen dir (acts ++ [.disk dir']) = dir' := by
        rw [lastSeen, List.filterMap_append]
        show Option.getD (List.getLast? (_ ++ [dir'])) dir = dir'
        rw [List.getLast?_concat]
        rfl
      rw [hseen]
      refine ⟨fun hexported => (hfile.holds hexported).congr (hok hexported), fun hgone => ?_,
        .refl⟩
      rw [ProxyPc.isOver_of_gone hgone] at hover
      cases hover
    · rw [socket_concat rfl]
      exact hrelay

end

/-! ## The configuration that is exported -/

/-- Every peer of the configuration has this endpoint, and has no other. -/
def PeersAt (env : Externals) (conf addr : Text) : Prop :=
  ∀ s ∈ (readSections conf).2, s.isPeer = true →
    (∃ l ∈ s.body, entry env l = some ("endpoint".toList, addr))
      ∧ ∀ l ∈ s.body, ∀ v, entry env l = some ("endpoint".toList, v) → v = addr

/-- Every [Peer] section of a rewritten configuration has the loopback endpoint, and no other. -/
theorem peersAt_rewrite (env : Externals) (conf : Text) (localPort : BitVec 16) :
    PeersAt env (rewriteEndpointToLoopback env conf localPort) (loopbackEndpoint localPort) := by
  rw [PeersAt, readSections_rewrite]
  refine List.forall_mem_map.mpr fun s hs hpeer => ⟨?_, fun l hl v hentry => ?_⟩
  · exact ⟨_, ConfSection.endpointLine_mem hpeer, entry_endpointLine⟩
  · rw [ConfSection.eq_endpointLine (clean_body hs) hpeer hl hentry, entry_endpointLine] at hentry
    exact (Prod.mk.inj (Option.some.inj hentry)).2.symm

/-- The configuration to export is the one of WireGuard, rewritten. -/
theorem combineAndBuild_ready {env : Externals} {wgConf obfConf name : Text}
    {profile : PhobosProfile} (h : combineAndBuild env wgConf obfConf name = .ok profile) :
    profile.readyWgConfContent
      = rewriteEndpointToLoopback env profile.rawWgConf profile.localPort := by
  simp only [combineAndBuild] at h
  split at h
  · cases h
  · split at h
    · cases h
    · cases h
      rfl

/-- A loaded profile has the loopback form of its configuration. -/
theorem loadFromFile_ready {host : Host} {path : FilePath} {file : FileRead}
    {profile : PhobosProfile} (h : loadFromFile host path file = .ok profile) :
    profile.readyWgConfContent
      = rewriteEndpointToLoopback host.toExternals profile.rawWgConf profile.localPort := by
  obtain ⟨_, bytes, -, -, hbytes⟩ := loadFromFile_ok h
  rcases loadFromBytes_ok_iff.mp hbytes with htar | ⟨content, -, hconf⟩
  · simp only [loadFromTarGz] at htar
    split at htar
    · cases htar
    · split at htar
      · cases htar
      · obtain ⟨_, _, hbuild⟩ := buildScanned_ok htar
        exact combineAndBuild_ready hbuild
  · exact combineAndBuild_ready hconf

/-- A package in one text. -/
def proxyFile : FileRead :=
  .contents (Utf8.encode "[Peer]\nEndpoint = vpn:51820\n[instance]\ntarget=vpn:51824\nkey=k".toList)

def proxyTexts : ProxyTexts := ⟨CaseData.basic, String.ofList, fun _ => "203.0.113.7:51824"⟩

/-- The relay runs, and a file of another program is there. -/
def proxyUp : List (ProxyAction Nat) :=
  [.exported .written, .listenerBound (.ok ()),
    .targetResolved (.ok [⟨.v4 (.ofOctets 203 0 113 7), 51824⟩]), .upstreamBound (.ok ()),
    .interfaceBound (.error "os error 50"), .upstreamConnected (.ok ()), .socketCloned (.ok ()),
    .socketCloned (.ok ()), .socketCloned (.ok ()), .handlerSet (.ok ()), .relay .clientCheck]

/-- Ctrl+C, and the file is to be removed. -/
def proxyDown : List (ProxyAction Nat) :=
  [.ctrlC, .go, .stopRelay, .relay .serverCheck, .go, .answered (some "Y\n".toList),
    .fileRemoved (.ok ())]

def notesDir : ProfilesDir := .write .empty "notes.txt".toList []

omit [DecidableEq Addr] in
/-- Other programs that do nothing leave the file alone. -/
theorem leavesExport_of_unseen {profile : PhobosProfile} (p : Proxy Addr) {a : ProxyAction Addr}
    (h : a.seen.isNone = true) : leavesExport profile p a := by
  cases a with
  | disk dir => cases h
  | _ => trivial

end Phobos
