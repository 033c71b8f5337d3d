import PhobosClient.Lib.Refine
import PhobosClient.Service.Stop
import PhobosClient.Window.Model

/-!
# PhobosClient — what the window stops

Two handlers ask the service to stop besides the toggle button: the one that deletes a profile, if
its tunnel is up, and those that close the window. In between sessions come and go. What a handler
can rely on is `WindowPc.Holds`: a session neither withdraws a stop request nor sets a name.

**`deleted_profile_stops`**: when the files of a profile are gone, its tunnel is not up or has been
asked to stop, and the list does not name it any more. **`closed_window_ends`**: after the window
has been closed the request stands for good, and all sessions come to their ends.
-/

namespace Phobos

open Text Steps Threads

variable {host : Host} {table : RouteTable} {dir : ProfilesDir} {entries : List StoredFile}
  {d d' : Desktop} {a : DesktopAction} {acts : List DesktopAction}

/-! ## The window follows the service -/

/-- A handler that makes a call gives the service that step, and touches nothing else. -/
theorem Desktop.call_world {b : GuiAction} {next : World → WindowPc}
    (h : d.call b next = some d') :
    guiStep d.world b = some d'.world ∧ d'.pc = next d'.world ∧ d'.app = d.app ∧ d'.dir = d.dir := by
  unfold Desktop.call at h
  split at h <;> cases h
  next hstep => exact ⟨hstep, rfl, rfl, rfl⟩

/-- The accesses to the service that a step may make. -/
def DesktopAction.Calls : DesktopAction → ServiceAction → Prop
  | .session i b, c => c = .session i b
  | .go, c => ∃ g, c = .gui g
  | .toggle, c => ∃ p, c = .gui (.toggle p)
  | _, _ => False

/-- The step is one of the service, or does nothing to it. -/
def Serves (d : Desktop) (a : DesktopAction) (d' : Desktop) : Prop :=
  d'.world = d.world ∨ ∃ b, a.Calls b ∧ serviceStep d.world b = some d'.world

/-- A call of a handler is one step of the service. -/
theorem Desktop.call_serves {b : GuiAction} {next : World → WindowPc} (ha : a.Calls (.gui b))
    (h : d.call b next = some d') : Serves d a d' :=
  .inr ⟨.gui b, ha, (Desktop.call_world h).1⟩

/-- So is every access of a handler that goes on, unless it only looks. -/
theorem desktopGo_serves (h : desktopGo d = some d') : Serves d .go d' := by
  unfold desktopGo at h
  split at h
  · -- `update_details` reads without a call
    split at h <;> cases h <;> exact .inl rfl
  · cases h; exact .inl rfl
  · exact Desktop.call_serves ⟨_, rfl⟩ h
  · split at h
    · exact Desktop.call_serves ⟨_, rfl⟩ h
    · cases h; exact .inl rfl
  · exact Desktop.call_serves ⟨_, rfl⟩ h
  · split at h
    · exact Desktop.call_serves ⟨_, rfl⟩ h
    · cases h; exact .inl rfl
  · exact Desktop.call_serves ⟨_, rfl⟩ h
  · exact Desktop.call_serves ⟨_, rfl⟩ h
  · exact Desktop.call_serves ⟨_, rfl⟩ h
  all_goals cases h

/-- **The window drives the service**: a step of the window is a step of the service, or none. -/
theorem desktopStep_serves (h : desktopStep host d a = some d') : Serves d a d' := by
  cases a with
  | session i b =>
    simp only [desktopStep] at h
    -- a session moves in the service alone
    split at h <;> cases h
    next hstep => exact .inr ⟨_, rfl, hstep⟩
  | go => exact desktopGo_serves h
  | toggle =>
    simp only [desktopStep] at h
    split at h
    · split at h
      · -- the toggle button calls the service, if a profile is selected
        exact Desktop.call_serves ⟨_, rfl⟩ h
      · cases h; exact .inl rfl
    · cases h
  | select cur =>
    simp only [desktopStep] at h
    split at h
    · split at h <;> cases h
      exact .inl rfl
    · cases h
  | importFile source choices entries =>
    simp only [desktopStep] at h
    split at h
    · split at h
      · split at h <;> cases h
        exact .inl rfl
      · cases h; exact .inl rfl
    · cases h
  | delete =>
    simp only [desktopStep] at h
    split at h
    · split at h <;> cases h <;> exact .inl rfl
    · cases h
  | deleteFiles entries removeError left =>
    simp only [desktopStep] at h
    split at h
    · split at h <;> cases h
      exact .inl rfl
    · cases h
  | timer | close =>
    simp only [desktopStep] at h
    split at h <;> cases h
    exact .inl rfl
  | disk dir => cases h; exact .inl rfl

/-- So the runs of the window are runs of the service. -/
theorem desktop_follows : Follows (desktopStep host) serviceStep Desktop.world := by
  intro d a d' h
  rcases desktopStep_serves h with hsame | ⟨b, -, hb⟩
  · exact .inl hsame
  · exact .inr ⟨b, hb⟩

/-! ## What a handler relies on -/

/-- What the window procedure knows of the service where it stands. -/
def WindowPc.Holds (w : World) : WindowPc → Prop
  | deleteStops _ | closeStops | destroyStops => w.gui = .stop
  | deleteFiles name =>
    w.gui = .idle ∧ (w.shared.activeProfileName = some name → w.shared.stopSignal = true)
  | closed => w.gui = .idle ∧ w.shared.stopSignal = true
  | calling => True
  | _ => w.gui = .idle

/-- A session neither calls the service nor withdraws a stop, and at most clears the name. -/
theorem session_shared {w w' : World} {i : Nat} {b : SessionAction}
    (h : serviceStep w (.session i b) = some w') :
    w'.gui = w.gui ∧ w'.shared.stopSignal = w.shared.stopSignal
      ∧ (w'.shared.activeProfileName = w.shared.activeProfileName
        ∨ w'.shared.activeProfileName = none) := by
  rcases serviceStep_cases h with ⟨g, hg, -⟩ | ⟨j, c, m', ss', -, hst, rfl⟩
  · cases hg
  · obtain ⟨t, t', -, htstep, rfl⟩ := stepAt_cases hst
    have heffect := (Session.step_effect htstep).2
    refine ⟨rfl, heffect.stopSignal, ?_⟩
    -- a session writes the name only to clear it
    by_cases hname : m'.activeProfileName = none
    · exact .inr hname
    · exact .inl (heffect.name_left hname)

/-- What a handler relies on survives the steps of the sessions. -/
theorem WindowPc.Holds.session {w w' : World} {i : Nat} {b : SessionAction} {pc : WindowPc}
    (hpc : pc.Holds w) (h : serviceStep w (.session i b) = some w') : pc.Holds w' := by
  obtain ⟨hgui, hstop, hname⟩ := session_shared h
  cases pc with
  | calling => trivial
  | closed => exact ⟨hgui.trans hpc.1, hstop.trans hpc.2⟩
  | deleteFiles name =>
    refine ⟨hgui.trans hpc.1, fun hactive => hstop.trans (hpc.2 ?_)⟩
    -- a name that is still there is the one that was there
    rcases hname with hsame | hnone
    · exact hsame.symm.trans hactive
    · rw [hnone] at hactive
      cases hactive
  | _ => exact hgui.trans hpc

/-- The call of `stop`, from its beginning. -/
theorem guiStep_stop {w w' : World} (hgui : w.gui = .idle) (h : guiStep w .stop = some w') :
    w'.gui = .stop := by
  simp only [guiStep, hgui] at h
  cases h
  rfl

/-- `stop` sets the flag and returns. -/
theorem guiGo_stop {w w' : World} (hgui : w.gui = .stop) (h : guiStep w .go = some w') :
    w'.gui = .idle ∧ w'.shared.stopSignal = true := by
  simp only [guiStep, guiGo, hgui] at h
  cases h
  exact ⟨rfl, rfl⟩

/-- The handler calls `stop`. -/
theorem Desktop.call_stop_holds {next : WindowPc}
    (hnext : ∀ w : World, w.gui = .stop → next.Holds w) (hgui : d.world.gui = .idle)
    (h : d.call .stop (fun _ => next) = some d') : d'.pc.Holds d'.world := by
  obtain ⟨hstep, hpc, -⟩ := Desktop.call_world h
  rw [hpc]
  exact hnext _ (guiStep_stop hgui hstep)

/-- The call of `stop` comes back. -/
theorem Desktop.call_stopped_holds {next : WindowPc}
    (hnext : ∀ w : World, w.gui = .idle → w.shared.stopSignal = true → next.Holds w)
    (hgui : d.world.gui = .stop) (h : d.call .go (fun _ => next) = some d') :
    d'.pc.Holds d'.world := by
  obtain ⟨hstep, hpc, -⟩ := Desktop.call_world h
  obtain ⟨hidle, hstop⟩ := guiGo_stop hgui hstep
  rw [hpc]
  exact hnext _ hidle hstop

/-- A handler that goes on finds what the place it comes to relies on. -/
theorem desktopGo_holds (hd : d.pc.Holds d.world) (h : desktopGo d = some d') :
    d'.pc.Holds d'.world := by
  unfold desktopGo at h
  split at h
  · next hpc =>
    rw [hpc] at hd
    split at h <;> cases h <;> exact hd
  · next hpc =>
    rw [hpc] at hd
    cases h
    exact hd
  · obtain ⟨-, hnext, -⟩ := Desktop.call_world h
    rw [hnext]
    split
    · next hidle => exact hidle
    · trivial
  · next name hpc =>
    -- the delete button stops the service only if the name is that of the profile
    rw [hpc] at hd
    split at h
    · refine Desktop.call_stop_holds ?_ hd h
      exact fun _ hgui => hgui
    · next hactive =>
      cases h
      refine ⟨hd, fun heq => absurd ?_ hactive⟩
      exact beq_iff_eq.mpr heq
  · next name hpc =>
    -- the stop has been called
    rw [hpc] at hd
    refine Desktop.call_stopped_holds ?_ hd h
    exact fun _ hgui hstop => ⟨hgui, fun _ => hstop⟩
  · next hpc =>
    -- `WM_CLOSE` stops an active service
    rw [hpc] at hd
    split at h
    · refine Desktop.call_stop_holds ?_ hd h
      exact fun _ hgui => hgui
    · cases h
      exact hd
  · next hpc =>
    rw [hpc] at hd
    refine Desktop.call_stopped_holds ?_ hd h
    exact fun _ hgui _ => hgui
  · next hpc =>
    -- `WM_DESTROY` stops the service in any case
    rw [hpc] at hd
    refine Desktop.call_stop_holds ?_ hd h
    exact fun _ hgui => hgui
  · next hpc =>
    rw [hpc] at hd
    refine Desktop.call_stopped_holds ?_ hd h
    exact fun _ hgui hstop => ⟨hgui, hstop⟩
  all_goals cases h

/-- **What a handler relies on holds**, whatever happens between its steps. -/
theorem desktopStep_holds (hd : d.pc.Holds d.world) (h : desktopStep host d a = some d') :
    d'.pc.Holds d'.world := by
  cases a with
  | session i b =>
    simp only [desktopStep] at h
    split at h <;> cases h
    next hstep => exact hd.session hstep
  | go => exact desktopGo_holds hd h
  | select cur =>
    simp only [desktopStep] at h
    split at h
    · next hpc =>
      rw [hpc] at hd
      split at h <;> cases h
      exact hd
    · cases h
  | importFile source choices entries =>
    simp only [desktopStep] at h
    split at h
    · next hpc =>
      rw [hpc] at hd
      split at h
      · split at h <;> cases h
        exact hd
      · cases h
        -- the message box of a failed import, after which the message loop goes on
        show d.pc.Holds d.world
        rw [hpc]
        exact hd
    · cases h
  | delete =>
    simp only [desktopStep] at h
    split at h
    · next hpc =>
      split at h
      · cases h
        rw [hpc] at hd
        exact hd
      · cases h
        exact hd
    · cases h
  | deleteFiles entries removeError left =>
    simp only [desktopStep] at h
    split at h
    · next name hpc =>
      rw [hpc] at hd
      split at h <;> cases h
      -- what the delete button relies on is no longer needed
      exact hd.1
    · cases h
  | toggle =>
    simp only [desktopStep] at h
    split at h
    · split at h
      · -- inside a call nothing is relied on
        obtain ⟨-, hnext, -⟩ := Desktop.call_world h
        rw [hnext]
        trivial
      · cases h
        exact hd
    · cases h
  | timer | close =>
    simp only [desktopStep] at h
    split at h <;> cases h
    next hpc =>
    rw [hpc] at hd
    exact hd
  | disk dir =>
    cases h
    exact hd

/-- The window begins in a state in which nothing has been called. -/
theorem holds_of_run
    (hrun : Run (desktopStep host) anyStep (desktopInit host table dir entries) acts d) :
    d.pc.Holds d.world :=
  hrun.invariant (P := fun d => d.pc.Holds d.world) rfl fun _ _ _ h _ hst =>
    desktopStep_holds h hst

/-! ## Deleting -/

/-- An entry that is listed can be loaded. -/
theorem loadStored_of_loadEntry {f : StoredFile} {profile : PhobosProfile}
    (h : loadEntry host f = some profile) : loadStored host f = .ok profile := by
  unfold loadEntry at h
  split at h
  · split at h
    · cases hload : loadStored host f with
      | error e => rw [hload] at h; cases h
      | ok loaded => rw [hload] at h; cases h; rfl
    · cases h
  · cases h

/-- A file that is left does not match. -/
theorem matchesProfile_of_deleted {dir' : ProfilesDir} {name : Text} {f : StoredFile}
    {removeError : Text → Option String} (hentries : entries.Perm dir.files)
    (hdelete : deleteProfile host dir name entries removeError = (dir', .ok ()))
    (hf : f ∈ dir'.files) : matchesProfile host name f = false := by
  unfold deleteProfile at hdelete
  split at hdelete
  · cases hdelete
  · next hloop =>
    cases hdelete
    obtain ⟨hold, hother⟩ := (mem_deleteEntries hloop).mp hf
    rw [← Bool.not_eq_true]
    intro hmatch
    -- the deletion has tried every file of that name
    have hself := hother f (hentries.mem_iff.mpr hold) hmatch
    rw [eqIgnoreAsciiCase_iff.mpr rfl] at hself
    cases hself
  · cases hdelete

/-- None of the profiles left has a name that has been deleted. -/
theorem not_sameName_of_deleted {dir' : ProfilesDir} {name : Text} {left : List StoredFile}
    {removeError : Text → Option String} (hentries : entries.Perm dir.files)
    (hdelete : deleteProfile host dir name entries removeError = (dir', .ok ()))
    (hleft : left.Perm dir'.files) {profile : PhobosProfile}
    (hmem : profile ∈ loadAllProfiles host left) : ¬ SameName profile.clientName name := by
  rw [loadAllProfiles, (List.mergeSort_perm _ _).mem_iff, List.mem_filterMap] at hmem
  obtain ⟨f, hf, hload⟩ := hmem
  have hmatch := matchesProfile_of_deleted hentries hdelete (hleft.mem_iff.mp hf)
  -- the name in the file is the name in the list
  rw [matchesProfile, loadStored_of_loadEntry hload] at hmatch
  have hother : eqIgnoreAsciiCase profile.clientName name = false := hmatch
  rw [SameName, hother]
  exact Bool.false_ne_true

/-- **Deleting a profile stops its tunnel.** When the handler has removed the files of a profile,
either the service does not have its name any more, or it has been asked to stop; and if nothing
went wrong, the list box does not name it any more, in no spelling. Whatever the sessions and other
programs have done meanwhile. -/
theorem deleted_profile_stops (table : RouteTable) (dir : ProfilesDir) (entries : List StoredFile)
    (hrun : Run (desktopStep host) anyStep (desktopInit host table dir entries) acts d)
    {name : Text} (hpc : d.pc = .deleteFiles name) {listed left : List StoredFile}
    {removeError : Text → Option String}
    (hstep : desktopStep host d (.deleteFiles listed removeError left) = some d') :
    (d'.world.shared.activeProfileName = some name → d'.world.shared.stopSignal = true)
      ∧ ((deleteProfile host d.dir name listed removeError).2 = .ok () →
        ∀ item ∈ d'.app.list.items, ¬ SameName item name) := by
  have hholds := holds_of_run hrun
  rw [hpc] at hholds
  simp only [desktopStep, hpc] at hstep
  split at hstep
  · next hperm =>
    cases hstep
    refine ⟨hholds.2, fun hok item hitem => ?_⟩
    -- the list box holds the names that have just been loaded
    obtain ⟨profile, hprofile, rfl⟩ := List.mem_map.mp hitem
    have hdelete : deleteProfile host d.dir name listed removeError
        = ((deleteProfile host d.dir name listed removeError).1, .ok ()) := by
      rw [← hok]
    exact not_sameName_of_deleted hperm.1 hdelete hperm.2 hprofile
  · cases hstep

/-! ## Closing -/

/-- What the sessions of a pool still have to do. -/
def totalLeft : List Session → Nat
  | [] => 0
  | s :: ss => s.pc.stepsLeft + totalLeft ss

/-- Each session has at most twenty steps to go. -/
theorem totalLeft_le {ss : List Session} (h : ∀ s ∈ ss, s.pc.Orderly) :
    totalLeft ss ≤ 20 * ss.length := by
  induction ss with
  | nil => exact Nat.le_refl 0
  | cons s ss ih =>
    have hs := (h s List.mem_cons_self).stepsLeft_le
    have hrest := ih fun t ht => h t (List.mem_cons_of_mem s ht)
    rw [totalLeft, List.length_cons]
    omega

/-- A session that comes nearer to its end brings all of them nearer. -/
theorem totalLeft_set {ss : List Session} {i : Nat} {s s' : Session} (hget : ss[i]? = some s)
    (hless : s'.pc.stepsLeft < s.pc.stepsLeft) : totalLeft (ss.set i s') < totalLeft ss := by
  induction ss generalizing i with
  | nil => cases hget
  | cons t ss ih =>
    -- the session is the first one, or one of the others
    cases i with
    | zero =>
      cases hget
      rw [List.set_cons_zero, totalLeft, totalLeft]
      omega
    | succ i =>
      have hrest := ih hget
      rw [List.set_cons_succ, totalLeft, totalLeft]
      omega

/-- A step of the session at position `i`. -/
def DesktopAction.isOf (i : Nat) : DesktopAction → Bool
  | .session j _ => j == i
  | _ => false

/-- After the window only the sessions go on, and other programs. -/
theorem desktopStep_closed (hpc : d.pc = .closed) (h : desktopStep host d a = some d') :
    d'.pc = .closed ∧ ((∃ i b, a = .session i b
        ∧ serviceStep d.world (.session i b) = some d'.world)
      ∨ (∀ i, a.isOf i = false) ∧ d'.world = d.world) := by
  cases a with
  | session i b =>
    simp only [desktopStep] at h
    split at h <;> cases h
    next hstep => exact ⟨hpc, .inl ⟨i, b, rfl, hstep⟩⟩
  | disk dir =>
    cases h
    exact ⟨hpc, .inr ⟨fun _ => rfl, rfl⟩⟩
  | go =>
    simp only [desktopStep, desktopGo, hpc] at h
    cases h
  | _ =>
    simp only [desktopStep, hpc] at h
    cases h

/-- The window is closed, the request stands, and the sessions are in order. -/
structure ClosedDown (n : Nat) (d : Desktop) : Prop where
  pc : d.pc = .closed
  stop : d.world.shared.stopSignal = true
  orderly : AllOrderly d.world
  length : d.world.sessions.length = n

/-- Nothing that happens after the window has been closed starts anything. -/
theorem ClosedDown.step {n : Nat} (h : ClosedDown n d) (hstep : desktopStep host d a = some d') :
    ClosedDown n d' := by
  obtain ⟨hpc, ⟨i, b, rfl, hst⟩ | ⟨-, hworld⟩⟩ := desktopStep_closed h.pc hstep
  · have hstop := (session_shared hst).2.1.trans h.stop
    rcases serviceStep_cases hst with ⟨g, hg, -⟩ | ⟨j, c, m', ss', -, hmove, hworld⟩
    · cases hg
    · obtain ⟨t, t', -, -, rfl⟩ := stepAt_cases hmove
      refine ⟨hpc, hstop, h.orderly.step hst, ?_⟩
      rw [hworld, List.length_set]
      exact h.length
  · -- other programs leave the service alone
    refine ⟨hpc, ?_, ?_, ?_⟩
    · rw [hworld]
      exact h.stop
    · rw [hworld]
      exact h.orderly
    · rw [hworld]
      exact h.length

/-- Every step of a session is one of those that it had left. -/
theorem ClosedDown.stepsLeftAt_step {n i : Nat} (h : ClosedDown n d) (hi : i < n)
    (hstep : desktopStep host d a = some d') :
    stepsLeftAt i d'.world + (a.isOf i).toNat ≤ stepsLeftAt i d.world := by
  obtain ⟨-, ⟨j, b, rfl, hst⟩ | ⟨hother, hworld⟩⟩ := desktopStep_closed h.pc hstep
  · exact Phobos.stepsLeftAt_step (h.length.symm ▸ hi) h.stop hst
  · rw [hother i, hworld]
    exact Nat.le_refl _

def AllEnded (d : Desktop) : Prop := ∀ s ∈ d.world.sessions, s.pc = .ended

/-- As long as a session has not ended, one can take a step towards its end. -/
theorem ClosedDown.exists_step {n : Nat} (h : ClosedDown n d) (hnot : ¬ AllEnded d) :
    ∃ a d', desktopStep host d a = some d' ∧ ClosedDown n d'
      ∧ totalLeft d'.world.sessions < totalLeft d.world.sessions := by
  unfold AllEnded at hnot
  push Not at hnot
  obtain ⟨s, hs, hend⟩ := hnot
  obtain ⟨i, hget⟩ := List.mem_iff_getElem?.mp hs
  have hmove : ∃ b m' pc', s.pc.prompt b = true
      ∧ s.pc.step s.profile d.world.shared b = some (m', pc') :=
    SessionPc.exists_prompt_step h.stop (h.orderly s hs) hend
  obtain ⟨b, m', pc', -, hstep⟩ := hmove
  have hworld : serviceStep d.world (.session i b)
      = some { d.world with shared := m', sessions := d.world.sessions.set i ⟨s.profile, pc'⟩ } := by
    simp [serviceStep, stepAt, hget, Session.step, hstep]
  have hdesktop : desktopStep host d (.session i b)
      = some { d with world :=
        { d.world with shared := m', sessions := d.world.sessions.set i ⟨s.profile, pc'⟩ } } := by
    simp only [desktopStep, hworld]
  have hless := (SessionPc.step_move hstep).stepsLeft h.stop
  exact ⟨_, _, hdesktop, h.step hdesktop, totalLeft_set hget hless⟩

/-- **After the window has been closed everything ends.** Its state is final, the stop request
stands and no session is started any more; each of the sessions there are takes at most twenty more
steps, and they can all come to their ends without the window. -/
theorem closed_window_ends (table : RouteTable) (dir : ProfilesDir) (entries : List StoredFile)
    (hrun : Run (desktopStep host) anyStep (desktopInit host table dir entries) acts d)
    (hpc : d.pc = .closed) :
    (∀ bs d', Run (desktopStep host) anyStep d bs d' → d'.pc = .closed
        ∧ d'.world.shared.stopSignal = true
        ∧ d'.world.sessions.length = d.world.sessions.length
        ∧ ∀ i < d.world.sessions.length, bs.countP (·.isOf i) ≤ 20)
      ∧ ∃ bs d', Run (desktopStep host) anyStep d bs d' ∧ AllEnded d'
        ∧ bs.length ≤ 20 * d.world.sessions.length := by
  have hholds := holds_of_run hrun
  rw [hpc] at hholds
  -- seen as a run of the service the sessions are in order
  obtain ⟨bs, hservice⟩ := hrun.follow desktop_follows
  have hclosed : ClosedDown d.world.sessions.length d :=
    ⟨hpc, hholds.2, allOrderly_of_run hservice, rfl⟩
  constructor
  · intro bs d' hmore
    have hthen : ClosedDown d.world.sessions.length d' :=
      hmore.invariant (P := ClosedDown d.world.sessions.length) hclosed
        fun _ _ _ hu _ hst => hu.step hst
    refine ⟨hthen.pc, hthen.stop, hthen.length, fun i hi => ?_⟩
    have hbound := stepsLeftAt_le hclosed.orderly i
    have hcount := hmore.countP_le (P := ClosedDown d.world.sessions.length)
      (fun d => stepsLeftAt i d.world) (·.isOf i) hclosed
      fun u b u' hu _ hst => ⟨hu.step hst, hu.stepsLeftAt_step hi hst⟩
    omega
  · have hbound := totalLeft_le hclosed.orderly
    have hto : ∃ bs d', Run (desktopStep host) anyStep d bs d'
        ∧ ClosedDown d.world.sessions.length d' ∧ AllEnded d'
        ∧ bs.length ≤ totalLeft d.world.sessions := by
      refine exists_run_to (fun d => totalLeft d.world.sessions) (fun u hu hnot => ?_) hclosed
      obtain ⟨a, u', hst, hu', hless⟩ := hu.exists_step hnot
      exact ⟨a, u', trivial, hst, hu', hless⟩
    obtain ⟨bs, d', hmore, -, hdone, hlen⟩ := hto
    exact ⟨bs, d', hmore, hdone, Nat.le_trans hlen hbound⟩

/-- A window opened on the directory of `reimported`, whose profile is started. -/
def startedOffice : List DesktopAction := [.go, .go, .toggle] ++ List.replicate 9 .go

/-- The profile that is deleted has just been started. -/
theorem deleted_profile_stops_office : ∃ d d' : Desktop,
    d'.world.shared.activeProfileName = some "office".toList
      ∧ d'.world.shared.stopSignal = true ∧ d.app.list.items = ["office".toList]
      ∧ ∀ item ∈ d'.app.list.items, ¬ SameName item "office".toList := by
  have hexec : (exec (storeStep plainHost) storeInit reimported).any (fun s =>
      (exec (desktopStep plainHost) (desktopInit plainHost ∅ s.dir s.dir.files)
        (startedOffice ++ [.delete, .go, .go])).any fun d =>
          (desktopStep plainHost d (.deleteFiles [sampleFile "office" "c"] (fun _ => none) [])).any
            fun d' => decide (d.pc = .deleteFiles "office".toList
              ∧ d.app.list.items = ["office".toList]
              ∧ d'.world.shared.activeProfileName = some "office".toList)
              && (deleteProfile plainHost d.dir "office".toList [sampleFile "office" "c"]
                fun _ => none).2.isOk) = true := by
    decide +kernel
  obtain ⟨s, -, hs⟩ := Run.of_exec_any hexec
  obtain ⟨d, hrun, hd⟩ := Run.of_exec_any hs
  obtain ⟨d', hstep, hd'⟩ := (Option.any_eq_true _ _).mp hd
  obtain ⟨hcheck, hok⟩ := Bool.and_eq_true_iff.mp hd'
  obtain ⟨hpc, hitems, hname⟩ := of_decide_eq_true hcheck
  obtain ⟨hstops, hgone⟩ := deleted_profile_stops ∅ s.dir s.dir.files hrun hpc hstep
  refine ⟨d, d', hname, hstops hname, hitems, hgone ?_⟩
  cases hresult : (deleteProfile plainHost d.dir "office".toList [sampleFile "office" "c"]
      fun _ => none).2 with
  | ok => rfl
  | error e => rw [hresult] at hok; cases hok

/-- The window is closed while a session is running. -/
theorem closed_window_ends_office : ∃ d : Desktop, d.pc = .closed
    ∧ d.world.sessions.length = 1
    ∧ (∀ bs d', Run (desktopStep plainHost) anyStep d bs d' → bs.countP (·.isOf 0) ≤ 20)
    ∧ ∃ bs d', Run (desktopStep plainHost) anyStep d bs d' ∧ AllEnded d' ∧ bs.length ≤ 20 := by
  have hexec : (exec (storeStep plainHost) storeInit reimported).any (fun s =>
      (exec (desktopStep plainHost) (desktopInit plainHost ∅ s.dir s.dir.files)
        (startedOffice ++ [.close, .go, .go, .go, .go])).any fun d =>
          decide (d.pc = .closed ∧ d.world.sessions.length = 1)) = true := by
    decide +kernel
  obtain ⟨s, -, hs⟩ := Run.of_exec_any hexec
  obtain ⟨d, hrun, hd⟩ := Run.of_exec_any hs
  obtain ⟨hpc, hlength⟩ := of_decide_eq_true hd
  obtain ⟨hmore, hend⟩ := closed_window_ends ∅ s.dir s.dir.files hrun hpc
  rw [hlength] at hmore hend
  exact ⟨d, hpc, hlength, fun bs d' hrun' => (hmore bs d' hrun').2.2.2 0 Nat.one_pos, hend⟩

end Phobos
