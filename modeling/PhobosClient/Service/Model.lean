import PhobosClient.Lib.Steps
import PhobosClient.Lib.Threads
import PhobosClient.Service.Session

/-!
# PhobosClient — the tunnel service (`src/tunnel_service.rs`, `src/gui.rs`)

The GUI thread and all session threads it has spawned, over one status, one profile name and
one stop flag. `GuiPc` follows `TunnelService::start` access by access; `stop` is a single
store, and the toggle button reads the name and the status before it decides which of the
two to call. The GUI thread is one thread, so these calls do not overlap each other; the
sessions interleave with them and among each other in any order.
-/

namespace Phobos

/-- The rounds of the wait in `start`. -/
def maxPolls : Nat := 40

inductive GuiPc where
  | idle
  /-- `start` before its first `is_active` -/
  | check (profile : PhobosProfile)
  | requestStop (profile : PhobosProfile)
  /-- in the wait, after so many rounds -/
  | poll (profile : PhobosProfile) (polls : Nat)
  | clearStop (profile : PhobosProfile)
  | writeName (profile : PhobosProfile)
  | writeConnecting (profile : PhobosProfile)
  | spawn (profile : PhobosProfile)
  /-- the toggle button before it reads the name -/
  | toggle (profile : PhobosProfile)
  /-- the toggle button before it reads the status: whether the name was the profile's -/
  | toggleNamed (profile : PhobosProfile) (named : Bool)
  | stop
  deriving DecidableEq

inductive GuiAction where
  | start (profile : PhobosProfile)
  | stop
  | toggle (profile : PhobosProfile)
  | go

inductive ServiceAction where
  | gui (a : GuiAction)
  | session (i : Nat) (a : SessionAction)

structure World where
  shared : Shared
  gui : GuiPc
  sessions : List Session

/-- `TunnelService::new`, on a system with the given routes. -/
def serviceInit (table : RouteTable) : World :=
  ⟨⟨.disconnected, none, false, ⟨table, []⟩⟩, .idle, []⟩

/-- `start` has left its wait and has not returned yet. -/
def GuiPc.pastWait : GuiPc → Bool
  | clearStop _ | writeName _ | writeConnecting _ | spawn _ => true
  | _ => false

/-- Who is not past the wait is not about to spawn. -/
theorem GuiPc.ne_spawn {gui : GuiPc} (h : gui.pastWait = false) (p : PhobosProfile) :
    gui ≠ .spawn p := by
  rintro rfl
  cases h

/-- The next access of the call the GUI thread is in. -/
def guiGo (w : World) : Option World :=
  match w.gui with
  | .idle => none
  | .check p =>
    some { w with gui := if w.shared.status.isActive then .requestStop p else .clearStop p }
  | .requestStop p =>
    some { w with shared := { w.shared with stopSignal := true }, gui := .poll p 0 }
  | .poll p polls =>
    if !w.shared.status.isActive then some { w with gui := .clearStop p }
    else if polls + 1 < maxPolls then some { w with gui := .poll p (polls + 1) }
    else some { w with gui := .clearStop p }
  | .clearStop p =>
    some { w with shared := { w.shared with stopSignal := false }, gui := .writeName p }
  | .writeName p =>
    some { w with
      shared := { w.shared with activeProfileName := some p.clientName }
      gui := .writeConnecting p }
  | .writeConnecting p =>
    some { w with shared := { w.shared with status := .connecting }, gui := .spawn p }
  | .spawn p => some { w with gui := .idle, sessions := w.sessions ++ [⟨p, .parseConfig⟩] }
  | .toggle p =>
    some { w with gui := .toggleNamed p (w.shared.activeProfileName == some p.clientName) }
  | .toggleNamed p named =>
    some { w with
      gui := if named && w.shared.status != .disconnected then .stop else .check p }
  | .stop => some { w with shared := { w.shared with stopSignal := true }, gui := .idle }

def guiStep (w : World) : GuiAction → Option World
  | .start p => match w.gui with
    | .idle => some { w with gui := .check p }
    | _ => none
  | .stop => match w.gui with
    | .idle => some { w with gui := .stop }
    | _ => none
  | .toggle p => match w.gui with
    | .idle => some { w with gui := .toggle p }
    | _ => none
  | .go => guiGo w

def serviceStep (w : World) : ServiceAction → Option World
  | .gui a => guiStep w a
  | .session i a =>
    match Threads.stepAt Session.step w.shared w.sessions i a with
    | some (shared, sessions) => some { w with shared, sessions }
    | none => none

/-- The step by which `start` gives up waiting: the last round still reads an active
status. -/
def givesUp (w : World) : ServiceAction → Bool
  | .gui .go => match w.gui with
    | .poll _ polls => w.shared.status.isActive && !decide (polls + 1 < maxPolls)
    | _ => false
  | _ => false

/-- The step by which `start` ends its wait, or skips it: it reads an inactive status. -/
def passes (w : World) : ServiceAction → Bool
  | .gui .go => match w.gui with
    | .check _ | .poll _ _ => !w.shared.status.isActive
    | _ => false
  | _ => false

/-! ## What a step can do -/

/-- The effects of a GUI step. -/
inductive GuiEffect : World → GuiAction → World → Prop where
  /-- a call is made, or something is read and `start` is not let through -/
  | stay {w : World} {a : GuiAction} {gui : GuiPc} (hgui : gui.pastWait = false)
      (htoggle : ∀ p named, gui = .toggleNamed p named →
        named = (w.shared.activeProfileName == some p.clientName)) :
      GuiEffect w a { w with gui }
  | stop {w : World} {gui : GuiPc} (hgui : gui.pastWait = false)
      (htoggle : ∀ p named, gui ≠ .toggleNamed p named) :
      GuiEffect w .go { w with shared := { w.shared with stopSignal := true }, gui }
  | pass {w : World} {p : PhobosProfile} (hpass : passes w (.gui .go) = true)
      (hstatus : w.shared.status.isActive = false) :
      GuiEffect w .go { w with gui := .clearStop p }
  | giveUp {w : World} {p : PhobosProfile} (hgiveUp : givesUp w (.gui .go) = true) :
      GuiEffect w .go { w with gui := .clearStop p }
  | clearStop {m : Shared} {p : PhobosProfile} {ss : List Session} :
      GuiEffect ⟨m, .clearStop p, ss⟩ .go ⟨{ m with stopSignal := false }, .writeName p, ss⟩
  | writeName {m : Shared} {p : PhobosProfile} {ss : List Session} :
      GuiEffect ⟨m, .writeName p, ss⟩ .go
        ⟨{ m with activeProfileName := some p.clientName }, .writeConnecting p, ss⟩
  | writeConnecting {m : Shared} {p : PhobosProfile} {ss : List Session} :
      GuiEffect ⟨m, .writeConnecting p, ss⟩ .go ⟨{ m with status := .connecting }, .spawn p, ss⟩
  | spawn {m : Shared} {p : PhobosProfile} {ss : List Session} :
      GuiEffect ⟨m, .spawn p, ss⟩ .go ⟨m, .idle, ss ++ [⟨p, .parseConfig⟩]⟩

variable {w w' : World}

/-- The accesses of a call, one by one. -/
theorem guiGo_effect (h : guiGo w = some w') : GuiEffect w .go w' := by
  obtain ⟨m, gui, ss⟩ := w
  cases gui with
  | idle => cases h
  | check p =>
    cases h
    -- an inactive status needs no wait
    cases hstatus : m.status.isActive with
    | false => exact .pass (by simp [passes, hstatus]) hstatus
    | true => exact .stay rfl (by simp)
  | requestStop p => cases h; exact .stop rfl (by simp)
  | poll p polls =>
    simp only [guiGo] at h
    cases hstatus : m.status.isActive with
    | false =>
      rw [hstatus] at h
      cases h
      exact .pass (by simp [passes, hstatus]) hstatus
    | true =>
      rw [hstatus] at h
      -- one of the rounds, or the last of them
      by_cases hpolls : polls + 1 < maxPolls
      · simp only [Bool.not_true, Bool.false_eq_true, if_false, if_pos hpolls] at h
        cases h
        exact .stay rfl (by simp)
      · simp only [Bool.not_true, Bool.false_eq_true, if_false, if_neg hpolls] at h
        cases h
        exact .giveUp (by simp [givesUp, hstatus, hpolls])
  | clearStop p => cases h; exact .clearStop
  | writeName p => cases h; exact .writeName
  | writeConnecting p => cases h; exact .writeConnecting
  | spawn p => cases h; exact .spawn
  | toggle p =>
    cases h
    refine .stay rfl fun q named heq => ?_
    cases heq
    rfl
  | toggleNamed p named =>
    cases h
    cases named && m.status != .disconnected with
    | false => exact .stay rfl (by simp)
    | true => exact .stay rfl (by simp)
  | stop => cases h; exact .stop rfl (by simp)

/-- **Every step of the GUI thread has one of the effects.** -/
theorem guiStep_effect {a : GuiAction} (h : guiStep w a = some w') : GuiEffect w a w' := by
  obtain ⟨m, gui, ss⟩ := w
  cases a with
  | go => exact guiGo_effect h
  | start p =>
    cases gui with
    | idle => cases h; exact .stay rfl (by simp)
    | _ => cases h
  | stop =>
    cases gui with
    | idle => cases h; exact .stay rfl (by simp)
    | _ => cases h
  | toggle p =>
    cases gui with
    | idle => cases h; exact .stay rfl (by simp)
    | _ => cases h

/-- **Every step is one of the GUI thread or one of a session thread.** -/
theorem serviceStep_cases {a : ServiceAction} (h : serviceStep w a = some w') :
    (∃ g, a = .gui g ∧ GuiEffect w g w') ∨
    (∃ i b m' ss', a = .session i b ∧
      Threads.stepAt Session.step w.shared w.sessions i b = some (m', ss') ∧
      w' = ⟨m', w.gui, ss'⟩) := by
  cases a with
  | gui g => exact .inl ⟨g, rfl, guiStep_effect h⟩
  | session i b =>
    simp only [serviceStep] at h
    split at h
    · next m' ss' hst => cases h; exact .inr ⟨i, b, m', ss', rfl, hst, rfl⟩
    · cases h

end Phobos
