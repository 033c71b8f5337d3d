import PhobosClient.Service.Display
import PhobosClient.Store.Contents

/-!
# PhobosClient — the window (`src/gui.rs`)

`AppState` and the handlers of `window_proc`, over the tunnel service and the directory of the
profiles. The window procedure is one thread: a handler runs to its end before the next message is
taken. The sessions go on meanwhile, so every access of a handler to the service is a step of its
own, and `WindowPc` says where the handler stands.

A file that is dropped on the window and a file chosen with the button are imported in the same way
(`importFile`); a drop of several files is several such steps. `disk` is whatever other programs do
to the directory.

Not modelled: fonts, layout, drawing, the clipboard and the tabs, and the texts that show the parsed
configuration and the statistics.
-/

namespace Phobos

open Text

/-- The list box: its strings, and the one that is selected. -/
structure ListBox where
  items : List Text
  curSel : Option Nat
  deriving DecidableEq

/-- `LB_SETCURSEL`, after which nothing is selected where there is no such string. -/
def ListBox.setCurSel (list : ListBox) (sel : Option Nat) : ListBox :=
  { list with curSel := sel.filter fun i => decide (i < list.items.length) }

structure AppState where
  profiles : List PhobosProfile
  selectedIndex : Option Nat
  list : ListBox
  details : Details

namespace AppState

/-- The profile that is selected. -/
def selected (app : AppState) : Option PhobosProfile :=
  app.selectedIndex.bind fun idx => app.profiles[idx]?

/-- `reload_profiles`, with what `load_all_profiles` has returned. -/
def reloadProfiles (app : AppState) (profiles : List PhobosProfile) : AppState :=
  { app with
    profiles
    selectedIndex :=
      if profiles.isEmpty then none
      else match app.selectedIndex with
        | some sel => if profiles.length ≤ sel then some (profiles.length - 1) else some sel
        | none => some 0 }

/-- `update_listbox`. -/
def updateListbox (app : AppState) : AppState :=
  { app with
    list := (⟨app.profiles.map PhobosProfile.clientName, none⟩ : ListBox).setCurSel
      app.selectedIndex }

/-- Select the first profile of that name. -/
def selectName (app : AppState) (clientName : Text) : AppState :=
  match app.profiles.findIdx? fun p => p.clientName == clientName with
  | some pos => { app with selectedIndex := some pos }
  | none => app

end AppState

/-- Where the window procedure stands. -/
inductive WindowPc where
  /-- in the message loop -/
  | idle
  /-- `update_details` before it reads the name -/
  | refresh
  /-- `update_details` before it reads the status -/
  | refreshNamed (activeProfileName : Option Text)
  /-- in the call that the toggle button makes -/
  | calling
  /-- the delete button before it reads the name -/
  | deleteReads (name : Text)
  | deleteStops (name : Text)
  /-- the delete button before it removes the files -/
  | deleteFiles (name : Text)
  /-- `WM_CLOSE` before it reads the status -/
  | closeReads
  | closeStops
  /-- `WM_DESTROY` before it stops the service -/
  | destroy
  | destroyStops
  /-- the message loop has ended -/
  | closed
  deriving DecidableEq

/-- In `update_details`. -/
def WindowPc.refreshing : WindowPc → Bool
  | refresh | refreshNamed _ => true
  | _ => false

/-- In `update_details`, after it has read the name. -/
def WindowPc.hasRead : WindowPc → Bool
  | refreshNamed _ => true
  | _ => false

structure Desktop where
  app : AppState
  pc : WindowPc
  world : World
  dir : ProfilesDir

inductive DesktopAction where
  | session (i : Nat) (a : SessionAction)
  /-- the handler goes on -/
  | go
  | select (cur : Nat)
  | importFile (source : SourceFile) (choices : ImportChoices) (entries : List StoredFile)
  | delete
  /-- the files are removed, and the rest is loaded again -/
  | deleteFiles (entries : List StoredFile) (removeError : Text → Option String)
      (left : List StoredFile)
  | toggle
  | timer
  | close
  | disk (dir : ProfilesDir)

variable (host : Host)

/-- `run_gui` up to the message loop: `WM_CREATE` fills the list and goes on to the details. -/
def desktopInit (table : RouteTable) (dir : ProfilesDir) (entries : List StoredFile) : Desktop where
  app :=
    let profiles := loadAllProfiles host entries
    AppState.updateListbox
      { profiles
        selectedIndex := if profiles.isEmpty then none else some 0
        list := ⟨[], none⟩
        details := ⟨"Интерфейс: 123", disconnectedText, "Подключить"⟩ }
  pc := .refresh
  world := serviceInit table
  dir := dir

/-- The handler makes an access to the service, and goes on at `next`. -/
def Desktop.call (d : Desktop) (a : GuiAction) (next : World → WindowPc) : Option Desktop :=
  match guiStep d.world a with
  | some world => some { d with world, pc := next world }
  | none => none

/-- The next access of the handler. -/
def desktopGo (d : Desktop) : Option Desktop :=
  match d.pc with
  | .refresh =>
    match d.app.selected with
    | some _ => some { d with pc := .refreshNamed d.world.shared.activeProfileName }
    | none =>
      some { d with
        app := { d.app with
          details := updateDetails d.app.profiles d.app.selectedIndex none .disconnected }
        pc := .idle }
  | .refreshNamed activeProfileName =>
    some { d with
      app := { d.app with
        details := updateDetails d.app.profiles d.app.selectedIndex activeProfileName
          d.world.shared.status }
      pc := .idle }
  | .calling => d.call .go fun world => if world.gui = .idle then .refresh else .calling
  | .deleteReads name =>
    if d.world.shared.activeProfileName == some name then d.call .stop fun _ => .deleteStops name
    else some { d with pc := .deleteFiles name }
  | .deleteStops name => d.call .go fun _ => .deleteFiles name
  | .closeReads =>
    if d.world.shared.status.isActive then d.call .stop fun _ => .closeStops
    else some { d with pc := .destroy }
  | .closeStops => d.call .go fun _ => .destroy
  | .destroy => d.call .stop fun _ => .destroyStops
  | .destroyStops => d.call .go fun _ => .closed
  | .idle | .deleteFiles _ | .closed => none

/-- One step of the window procedure, of a session, or of another program. -/
def desktopStep (d : Desktop) : DesktopAction → Option Desktop
  | .session i a =>
    match serviceStep d.world (.session i a) with
    | some world => some { d with world }
    | none => none
  | .go => desktopGo d
  | .select cur =>
    match d.pc with
    | .idle =>
      if cur < d.app.list.items.length then
        some { d with
          app := { d.app with
            selectedIndex := some cur
            list := { d.app.list with curSel := some cur } }
          pc := .refresh }
      else none
    | _ => none
  | .importFile source choices entries =>
    match d.pc with
    | .idle =>
      match importProfile host d.dir source choices with
      | (dir, .ok profile) =>
        if entries.Perm dir.files then
          some { d with
            app := ((d.app.reloadProfiles (loadAllProfiles host entries)).selectName
              profile.clientName).updateListbox
            pc := .refresh
            dir }
        else none
      | (dir, .error _) => some { d with dir }
    | _ => none
  | .delete =>
    match d.pc with
    | .idle =>
      match d.app.selected with
      | some profile => some { d with pc := .deleteReads profile.clientName }
      | none => some d
    | _ => none
  | .deleteFiles entries removeError left =>
    match d.pc with
    | .deleteFiles name =>
      let dir := (deleteProfile host d.dir name entries removeError).1
      if entries.Perm d.dir.files ∧ left.Perm dir.files then
        some { d with
          app := (d.app.reloadProfiles (loadAllProfiles host left)).updateListbox
          pc := .refresh
          dir }
      else none
    | _ => none
  | .toggle =>
    match d.pc with
    | .idle =>
      match d.app.selected with
      | some profile => d.call (.toggle profile) fun _ => .calling
      | none => some d
    | _ => none
  | .timer =>
    match d.pc with
    | .idle => some { d with pc := .refresh }
    | _ => none
  | .close =>
    match d.pc with
    | .idle => some { d with pc := .closeReads }
    | _ => none
  | .disk dir => some { d with dir }

/-! ## What a step can do -/

/-- The effects of a step on the window and the directory. -/
inductive WindowEffect : Desktop → DesktopAction → Desktop → Prop where
  /-- a session moves, or another program -/
  | others {d : Desktop} {a : DesktopAction} {world : World} {dir : ProfilesDir}
      (ha : (∃ i b, a = .session i b ∧ dir = d.dir) ∨ a = .disk dir) :
      WindowEffect d a { d with world, dir }
  /-- the window procedure moves, and shows nothing new -/
  | moves {d : Desktop} {a : DesktopAction} {world : World} {pc : WindowPc}
      (hbefore : d.pc.refreshing = false) (hafter : pc.hasRead = false) :
      WindowEffect d a { d with world, pc }
  | readName {d : Desktop} (hpc : d.pc = .refresh) :
      WindowEffect d .go { d with pc := .refreshNamed d.world.shared.activeProfileName }
  | details {d : Desktop} {activeProfileName : Option Text}
      (hpc : d.pc = .refreshNamed activeProfileName) :
      WindowEffect d .go { d with
        app := { d.app with
          details := updateDetails d.app.profiles d.app.selectedIndex activeProfileName
            d.world.shared.status }
        pc := .idle }
  | noDetails {d : Desktop} (hselected : d.app.selected = none) :
      WindowEffect d .go { d with
        app := { d.app with
          details := updateDetails d.app.profiles d.app.selectedIndex none .disconnected }
        pc := .idle }
  | select {d : Desktop} {cur : Nat} (hcur : cur < d.app.list.items.length) :
      WindowEffect d (.select cur) { d with
        app := { d.app with
          selectedIndex := some cur
          list := { d.app.list with curSel := some cur } }
        pc := .refresh }
  | imported {d : Desktop} {source : SourceFile} {choices : ImportChoices}
      {entries : List StoredFile} {dir : ProfilesDir} {profile : PhobosProfile}
      (himport : importProfile host d.dir source choices = (dir, .ok profile))
      (hentries : entries.Perm dir.files) :
      WindowEffect d (.importFile source choices entries) { d with
        app := ((d.app.reloadProfiles (loadAllProfiles host entries)).selectName
          profile.clientName).updateListbox
        pc := .refresh
        dir }
  | importFailed {d : Desktop} {source : SourceFile} {choices : ImportChoices}
      {entries : List StoredFile} {dir : ProfilesDir} {e : String}
      (himport : importProfile host d.dir source choices = (dir, .error e)) :
      WindowEffect d (.importFile source choices entries) { d with dir }
  | deleted {d : Desktop} {name : Text} {entries left : List StoredFile}
      {removeError : Text → Option String} {dir : ProfilesDir} {result : Except String Unit}
      (hpc : d.pc = .deleteFiles name)
      (hdelete : deleteProfile host d.dir name entries removeError = (dir, result))
      (hentries : entries.Perm d.dir.files) (hleft : left.Perm dir.files) :
      WindowEffect d (.deleteFiles entries removeError left) { d with
        app := (d.app.reloadProfiles (loadAllProfiles host left)).updateListbox
        pc := .refresh
        dir }

variable {host} {d d' : Desktop} {a : DesktopAction}

/-- A call of the service moves the window procedure and the service, and nothing else. -/
theorem Desktop.call_effect {b : GuiAction} {next : World → WindowPc}
    (hbefore : d.pc.refreshing = false) (hnext : ∀ world, (next world).hasRead = false)
    (h : d.call b next = some d') : WindowEffect host d a d' := by
  unfold Desktop.call at h
  split at h <;> cases h
  exact .moves hbefore (hnext _)

/-- The window procedure goes on with what it is at. -/
theorem desktopGo_effect (h : desktopGo d = some d') : WindowEffect host d .go d' := by
  unfold desktopGo at h
  split at h
  · next hpc =>
    split at h
    · -- with a profile selected the name is read first
      cases h; exact .readName hpc
    · next hselected => cases h; exact .noDetails hselected
  · next hpc => cases h; exact .details hpc
  · next hpc =>
    -- the call may go on, or has returned
    refine Desktop.call_effect (by rw [hpc]; rfl) (fun world => ?_) h
    split <;> rfl
  · next hpc =>
    split at h
    · exact Desktop.call_effect (by rw [hpc]; rfl) (fun _ => rfl) h
    · cases h; exact .moves (by rw [hpc]; rfl) rfl
  · next hpc => exact Desktop.call_effect (by rw [hpc]; rfl) (fun _ => rfl) h
  · next hpc =>
    split at h
    · exact Desktop.call_effect (by rw [hpc]; rfl) (fun _ => rfl) h
    · cases h; exact .moves (by rw [hpc]; rfl) rfl
  · next hpc => exact Desktop.call_effect (by rw [hpc]; rfl) (fun _ => rfl) h
  · next hpc => exact Desktop.call_effect (by rw [hpc]; rfl) (fun _ => rfl) h
  · next hpc => exact Desktop.call_effect (by rw [hpc]; rfl) (fun _ => rfl) h
  all_goals cases h

/-- **Every step has one of the effects.** -/
theorem desktopStep_effect (h : desktopStep host d a = some d') : WindowEffect host d a d' := by
  cases a with
  | session i b =>
    simp only [desktopStep] at h
    split at h <;> cases h
    exact .others (.inl ⟨i, b, rfl, rfl⟩)
  | go => exact desktopGo_effect h
  | select cur =>
    simp only [desktopStep] at h
    split at h
    · split at h
      · next hcur => cases h; exact .select hcur
      · cases h
    · cases h
  | importFile source choices entries =>
    simp only [desktopStep] at h
    split at h
    · split at h
      · next himport =>
        split at h
        · next hentries => cases h; exact .imported himport hentries
        · cases h
      · next himport => cases h; exact .importFailed himport
    · cases h
  | delete =>
    simp only [desktopStep] at h
    split at h
    · next hpc =>
      split at h
      · cases h; exact .moves (by rw [hpc]; rfl) rfl
      · cases h; exact .moves (by rw [hpc]; rfl) (by rw [hpc]; rfl)
    · cases h
  | deleteFiles entries removeError left =>
    simp only [desktopStep] at h
    split at h
    · next name hpc =>
      split at h
      · next hperm => cases h; exact .deleted hpc rfl hperm.1 hperm.2
      · cases h
    · cases h
  | toggle =>
    simp only [desktopStep] at h
    split at h
    · next hpc =>
      split at h
      · exact Desktop.call_effect (by rw [hpc]; rfl) (fun _ => rfl) h
      · cases h; exact .moves (by rw [hpc]; rfl) (by rw [hpc]; rfl)
    · cases h
  | timer =>
    simp only [desktopStep] at h
    split at h <;> cases h
    next hpc => exact .moves (by rw [hpc]; rfl) rfl
  | close =>
    simp only [desktopStep] at h
    split at h <;> cases h
    next hpc => exact .moves (by rw [hpc]; rfl) rfl
  | disk dir =>
    cases h
    exact .others (.inr rfl)

end Phobos
