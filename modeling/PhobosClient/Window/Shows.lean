import PhobosClient.Window.Model

/-!
# PhobosClient — what the window shows

The list box keeps its own strings and its own selection; the handlers keep them in step with
`AppState` by hand. **`window_mirrors`**: they never get out of step, whatever other programs do to
the directory and however the sessions interleave, and the details are those of the selected
profile whenever the window procedure is not about to refresh them.

As long as no operation of the store breaks off half way, the window and the store agree as well:
**`window_shows_store`**: the list names each profile that was imported and not deleted since, just
once, and after an import the imported profile is the selected one.
-/

namespace Phobos

open Text Steps Ledger

/-! ## Selections -/

namespace AppState

/-- Something is selected unless there is nothing to select. -/
structure WellSelected (app : AppState) : Prop where
  none_iff : app.selectedIndex = none ↔ app.profiles = []
  lt : ∀ i, app.selectedIndex = some i → i < app.profiles.length

/-- The list box shows the profiles and the selection. -/
structure Mirrors (app : AppState) : Prop where
  selection : app.WellSelected
  items : app.list.items = app.profiles.map PhobosProfile.clientName
  curSel : app.list.curSel = app.selectedIndex

variable {app : AppState}

/-- A selection that is in range. -/
theorem WellSelected.of_lt {i : Nat} (hsel : app.selectedIndex = some i)
    (hlt : i < app.profiles.length) : app.WellSelected where
  none_iff := by
    rw [hsel]
    exact iff_of_false (Option.some_ne_none i) fun hnil => by
      rw [hnil] at hlt
      exact absurd hlt (Nat.not_lt_zero i)
  lt := fun j hj => by
    rw [hsel] at hj
    cases hj
    exact hlt

/-- After a load an index that is out of range becomes that of the last profile. -/
theorem wellSelected_reloadProfiles (app : AppState) (profiles : List PhobosProfile) :
    (app.reloadProfiles profiles).WellSelected := by
  cases profiles with
  | nil => exact ⟨by simp [reloadProfiles], by simp [reloadProfiles]⟩
  | cons p ps =>
    cases hsel : app.selectedIndex with
    | none => exact .of_lt (by simp [reloadProfiles, hsel]) (Nat.succ_pos _)
    | some sel =>
      by_cases hlen : (p :: ps).length ≤ sel
      · exact .of_lt (by simp only [reloadProfiles, hsel, if_pos hlen]; rfl) (Nat.lt_succ_self _)
      · exact .of_lt (by simp only [reloadProfiles, hsel, if_neg hlen]; rfl) (Nat.not_le.mp hlen)

/-- A name that is in the list has an index in range. -/
theorem WellSelected.selectName (h : app.WellSelected) (clientName : Text) :
    (app.selectName clientName).WellSelected := by
  unfold AppState.selectName
  split
  · next pos hpos => exact .of_lt rfl (List.findIdx?_eq_some_iff_getElem.mp hpos).1
  · exact h

/-- The list box is filled from the state, and then mirrors it. -/
theorem WellSelected.updateListbox (h : app.WellSelected) : app.updateListbox.Mirrors where
  selection := ⟨h.none_iff, h.lt⟩
  items := rfl
  curSel := by
    show (app.selectedIndex.filter fun i => decide (i < (app.profiles.map _).length)) = _
    cases hsel : app.selectedIndex with
    | none => exact hsel.symm
    | some i =>
      -- the box has as many strings as there are profiles, so the index is in range
      rw [Option.filter_some, List.length_map, if_pos (decide_eq_true (h.lt i hsel))]
      exact hsel.symm

/-- The details are on another part of the window. -/
theorem Mirrors.fillIn (h : app.Mirrors) (details : Details) :
    Mirrors { app with details } :=
  ⟨⟨h.selection.none_iff, h.selection.lt⟩, h.items, h.curSel⟩

end AppState

/-! ## The window over runs -/

variable {host : Host} {table : RouteTable} {dir : ProfilesDir} {entries : List StoredFile}
  {d d' d₀ : Desktop} {a : DesktopAction} {acts : List DesktopAction}

/-- A run from `d₀` has come to `d` in the middle of `update_details`, which has read this name in
the service. -/
structure Reading (host : Host) (d₀ : Desktop) (name : Option Text) (d : Desktop) : Prop where
  pc : d.pc = .refreshNamed name
  read : ∃ acts u u' between, Run (desktopStep host) anyStep d₀ acts u ∧ u.pc = .refresh
    ∧ u.world.shared.activeProfileName = name ∧ desktopStep host u .go = some u'
    ∧ Run (desktopStep host) (fun d _ => d.pc = .refreshNamed name) u' between d

/-- The last refresh has filled in the details for the selected profile, with the name that it has
read and the status in the state `v` in which it has ended; without a selection it reads nothing. -/
inductive Refreshed (host : Host) (d₀ d : Desktop) : Prop where
  | selected {name : Option Text} {v v' : Desktop} {after : List DesktopAction}
      (hread : Reading host d₀ name v) (hend : desktopStep host v .go = some v')
      (hsince : Run (desktopStep host) (fun d _ => d.pc.refreshing = false) v' after d)
      (hdetails : d.app.details = updateDetails d.app.profiles d.app.selectedIndex name
        v.world.shared.status)
  | unselected (hselected : d.app.selected = none)
      (hdetails : d.app.details = updateDetails d.app.profiles d.app.selectedIndex none
        .disconnected)

/-- The list box and the details are those of the state. -/
structure Shown (host : Host) (d₀ d : Desktop) : Prop where
  mirrors : d.app.Mirrors
  reading : ∀ name, d.pc = .refreshNamed name → Reading host d₀ name d
  details : d.pc.refreshing = false → Refreshed host d₀ d

/-- Other steps come between the two that read. -/
theorem Reading.step {name : Option Text} (h : Reading host d₀ name d)
    (hstep : desktopStep host d a = some d') (hpc : d'.pc = .refreshNamed name) :
    Reading host d₀ name d' := by
  obtain ⟨acts, u, u', between, hrun, hu, hname, hgo, hbetween⟩ := h.read
  exact ⟨hpc, acts, u, u', _, hrun, hu, hname, hgo, .snoc hbetween h.pc hstep⟩

/-- The details stay until the next refresh. -/
theorem Refreshed.step (h : Refreshed host d₀ d) (hstep : desktopStep host d a = some d')
    (hpc : d.pc.refreshing = false) (happ : d'.app = d.app) : Refreshed host d₀ d' := by
  cases h with
  | selected hread hend hsince hdetails =>
    exact .selected hread hend (.snoc hsince hpc hstep) (by rw [happ, hdetails])
  | unselected hselected hdetails =>
    exact .unselected (by rw [happ, hselected]) (by rw [happ, hdetails])

/-- The window is opened with its list box filled. -/
theorem mirrors_desktopInit : (desktopInit host table dir entries).app.Mirrors := by
  refine AppState.WellSelected.updateListbox ⟨?_, ?_⟩
  · cases loadAllProfiles host entries <;> simp
  · cases loadAllProfiles host entries <;> simp

/-- The details come with the first refresh. -/
theorem Shown.init :
    Shown host (desktopInit host table dir entries) (desktopInit host table dir entries) where
  mirrors := mirrors_desktopInit
  reading := by intro name hpc; cases hpc
  details := by intro hnot; cases hnot

/-- A handler that loads or selects something goes on to refresh the details. -/
theorem Shown.of_refresh (hmirrors : d.app.Mirrors) (hpc : d.pc = .refresh) :
    Shown host d₀ d where
  mirrors := hmirrors
  reading := by
    intro name hread
    rw [hpc] at hread
    cases hread
  details := by
    intro hnot
    rw [hpc] at hnot
    cases hnot

/-- What the window shows does not change as long as the window procedure is out of the way. -/
theorem Shown.stay (h : Shown host d₀ d) (hstep : desktopStep host d a = some d')
    (happ : d'.app = d.app) (hpc : d'.pc = d.pc) : Shown host d₀ d' where
  mirrors := happ.symm ▸ h.mirrors
  reading := fun name hread => (h.reading name (hpc ▸ hread)).step hstep hread
  details := fun hnot =>
    have hbefore : d.pc.refreshing = false := hpc ▸ hnot
    (h.details hbefore).step hstep hbefore happ

/-- **Every step keeps the window in step with its state.** -/
theorem Shown.step (hrun : Run (desktopStep host) anyStep d₀ acts d) (h : Shown host d₀ d)
    (hstep : desktopStep host d a = some d') : Shown host d₀ d' := by
  cases desktopStep_effect hstep with
  | others | importFailed => exact h.stay hstep rfl rfl
  | moves hbefore hafter =>
    refine ⟨h.mirrors, fun name hread => ?_, fun _ => (h.details hbefore).step hstep hbefore rfl⟩
    cases hread
    cases hafter
  | readName hpc =>
    refine ⟨h.mirrors, fun name hread => ?_, fun hnot => by cases hnot⟩
    cases hread
    -- the name is read here, and held until the status is read
    exact ⟨rfl, acts, d, _, [], hrun, hpc, rfl, hstep, .nil _⟩
  | details hpc =>
    -- the status is read, and the texts are filled in
    refine ⟨h.mirrors.fillIn _, (fun name hread => by cases hread), fun _ => ?_⟩
    exact .selected (h.reading _ hpc) hstep (.nil _) rfl
  | noDetails hselected =>
    refine ⟨h.mirrors.fillIn _, (fun name hread => by cases hread), fun _ => ?_⟩
    exact .unselected hselected rfl
  | @select cur hcur =>
    -- the strings of the box are those of the profiles
    have hlt : cur < d.app.profiles.length := by
      rw [h.mirrors.items, List.length_map] at hcur
      exact hcur
    exact .of_refresh ⟨.of_lt rfl hlt, h.mirrors.items, rfl⟩ rfl
  | imported =>
    exact .of_refresh
      ((AppState.wellSelected_reloadProfiles _ _).selectName _).updateListbox rfl
  | deleted => exact .of_refresh (AppState.wellSelected_reloadProfiles _ _).updateListbox rfl

/-- Whatever a run is restricted to. -/
theorem shown_of_run {ok : Desktop → DesktopAction → Prop}
    (hrun : Run (desktopStep host) ok (desktopInit host table dir entries) acts d) :
    Shown host (desktopInit host table dir entries) d :=
  hrun.history (P := fun _ d => Shown host (desktopInit host table dir entries) d) .init
    fun _ _ _ _ hbefore h _ hst => h.step (hbefore.mono fun _ _ _ => trivial) hst

/-- **The window mirrors its state.** The strings of the list box are the names of the profiles;
its selection is the selected profile, and there is one unless there are no profiles; and once the
details have been refreshed they are those of the selected profile, for the name and the status
that the last refresh has read in the service. -/
theorem window_mirrors (table : RouteTable) (dir : ProfilesDir) (entries : List StoredFile)
    (hrun : Run (desktopStep host) anyStep (desktopInit host table dir entries) acts d) :
    Shown host (desktopInit host table dir entries) d :=
  shown_of_run hrun

/-! ## The window and the store -/

/-- An operation of the store succeeds, or fails without a trace; and no other program changes the
directory. -/
def storeWhole (host : Host) (d : Desktop) : DesktopAction → Bool
  | .importFile source choices _ =>
    let (dir, result) := importProfile host d.dir source choices
    result.isOk || decide (dir.files = d.dir.files)
  | .deleteFiles entries removeError _ =>
    match d.pc with
    | .deleteFiles name =>
      let (dir, result) := deleteProfile host d.dir name entries removeError
      result.isOk || decide (dir.files = d.dir.files)
    | _ => true
  | .disk _ => false
  | _ => true

/-- A directory is its files. -/
theorem ProfilesDir.eq_of_files {a b : ProfilesDir} (h : a.files = b.files) : a = b := by
  cases a
  cases b
  cases h
  rfl

/-- The call of the store that a handler makes, if it succeeds. -/
def storeCall (host : Host) (d : Desktop) : DesktopAction → List StoreCall
  | .importFile source choices _ =>
    match d.pc with
    | .idle =>
      if (importProfile host d.dir source choices).2.isOk then [.importProfile source choices]
      else []
    | _ => []
  | .deleteFiles entries removeError _ =>
    match d.pc with
    | .deleteFiles name =>
      if (deleteProfile host d.dir name entries removeError).2.isOk then
        [.deleteProfile name entries removeError]
      else []
    | _ => []
  | _ => []

/-- The successful calls of the store in a run of the window. -/
def storeCalls (host : Host) : Desktop → List DesktopAction → List StoreCall :=
  observed (desktopStep host) (storeCall host)

/-- The calls of the window have brought the store from `s` to `t`; the directory is that of `t`,
and the window has loaded it. -/
structure Stored (host : Host) (s : StoreState) (calls : List StoreCall) (d : Desktop)
    (t : StoreState) : Prop where
  run : Run (storeStep host) anyStep s calls t
  dir : t.dir = d.dir
  loaded : ∃ entries, entries.Perm d.dir.files ∧ d.app.profiles = loadAllProfiles host entries

/-- A selection is not a change of the list. -/
theorem selectName_profiles (app : AppState) (clientName : Text) :
    (app.selectName clientName).profiles = app.profiles := by
  unfold AppState.selectName
  split <;> rfl

/-- The window makes no call. -/
theorem Stored.stay {s t : StoreState} {calls : List StoreCall} (h : Stored host s calls d t)
    (hcall : storeCall host d a = []) (hdir : d'.dir = d.dir)
    (hloaded : d'.app.profiles = d.app.profiles) :
    Stored host s (calls ++ storeCall host d a) d' t := by
  rw [hcall, List.append_nil]
  exact ⟨h.run, h.dir.trans hdir.symm, hdir.symm ▸ hloaded.symm ▸ h.loaded⟩

/-- The store has taken a step, and the window has loaded what is left. -/
theorem Stored.extend {s t u : StoreState} {calls : List StoreCall} {call : StoreCall}
    (h : Stored host s calls d t) (hmade : storeCall host d a = [call])
    (hcall : storeStep host t call = some u) (hdir : u.dir = d'.dir)
    (hentries : entries.Perm d'.dir.files)
    (hloaded : d'.app.profiles = loadAllProfiles host entries) :
    Stored host s (calls ++ storeCall host d a) d' u := by
  rw [hmade]
  exact ⟨.snoc h.run trivial hcall, hdir, entries, hentries, hloaded⟩

/-- An import that is recorded is a call of the store; the window loads what it leaves. -/
theorem Stored.imports {s t : StoreState} {calls : List StoreCall} {source : SourceFile}
    {choices : ImportChoices} (h : Stored host s calls d t)
    (hok : storeWhole host d (.importFile source choices entries) = true)
    (hstep : desktopStep host d (.importFile source choices entries) = some d') :
    ∃ u, Stored host s (calls ++ storeCall host d (.importFile source choices entries)) d' u := by
  simp only [desktopStep] at hstep
  split at hstep
  · next hpc =>
    split at hstep
    · next dir profile himport =>
      split at hstep
      · next hentries =>
        cases hstep
        -- the handler makes the call, and the store takes the same step
        have hmade : storeCall host d (.importFile source choices entries)
            = [.importProfile source choices] := by
          simp only [storeCall, hpc, himport]
          rfl
        have hcall : storeStep host t (.importProfile source choices)
            = some ⟨dir, t.history ++ [.put profile.clientName profile]⟩ := by
          simp only [storeStep, h.dir, himport]
        exact ⟨_, h.extend hmade hcall rfl hentries (selectName_profiles _ _)⟩
      · cases hstep
    · next dir e himport =>
      -- the import has failed without a trace
      cases hstep
      simp only [storeWhole, himport] at hok
      cases ProfilesDir.eq_of_files (of_decide_eq_true hok)
      have hnone : storeCall host d (.importFile source choices entries) = [] := by
        simp only [storeCall, hpc, himport]
        rfl
      exact ⟨t, h.stay hnone rfl rfl⟩
  · cases hstep

/-- And so is a deletion. -/
theorem Stored.deletes {s t : StoreState} {calls : List StoreCall} {left : List StoredFile}
    {removeError : Text → Option String} (h : Stored host s calls d t)
    (hok : storeWhole host d (.deleteFiles entries removeError left) = true)
    (hstep : desktopStep host d (.deleteFiles entries removeError left) = some d') :
    ∃ u, Stored host s (calls ++ storeCall host d (.deleteFiles entries removeError left)) d' u := by
  obtain ⟨name, hpc⟩ : ∃ name, d.pc = .deleteFiles name := by
    cases hpc : d.pc with
    | deleteFiles name => exact ⟨name, rfl⟩
    | _ => simp only [desktopStep, hpc] at hstep; cases hstep
  obtain ⟨dir, result, hdelete⟩ : ∃ dir result,
      deleteProfile host d.dir name entries removeError = (dir, result) := ⟨_, _, rfl⟩
  simp only [desktopStep, hpc, hdelete] at hstep
  simp only [storeWhole, hpc, hdelete] at hok
  split at hstep <;> cases hstep
  next hperm =>
    cases result with
    | error e =>
      -- nothing has been removed, and the window loads the same files again
      cases ProfilesDir.eq_of_files (of_decide_eq_true hok)
      have hnone : storeCall host d (.deleteFiles entries removeError left) = [] := by
        simp only [storeCall, hpc, hdelete]
        rfl
      rw [hnone, List.append_nil]
      exact ⟨t, h.run, h.dir, left, hperm.2, rfl⟩
    | ok =>
      -- the deletion is recorded
      have hmade : storeCall host d (.deleteFiles entries removeError left)
          = [.deleteProfile name entries removeError] := by
        simp only [storeCall, hpc, hdelete]
        rfl
      have hcall : storeStep host t (.deleteProfile name entries removeError)
          = some ⟨dir, t.history ++ [.remove name]⟩ := by
        simp only [storeStep, h.dir, if_pos hperm.1, hdelete]
      exact ⟨_, h.extend hmade hcall rfl hperm.2 rfl⟩

/-- **Every step of the window is at most one call of the store.** -/
theorem Stored.step {s t : StoreState} {calls : List StoreCall} (h : Stored host s calls d t)
    (hok : storeWhole host d a = true) (hstep : desktopStep host d a = some d') :
    ∃ u, Stored host s (calls ++ storeCall host d a) d' u := by
  cases a with
  | importFile => exact h.imports hok hstep
  | deleteFiles => exact h.deletes hok hstep
  | disk => cases hok
  | session =>
    simp only [desktopStep] at hstep
    split at hstep <;> cases hstep
    exact ⟨t, h.stay rfl rfl rfl⟩
  | _ =>
    -- the other handlers neither load nor write files
    cases desktopStep_effect hstep with
    | others ha => obtain ⟨_, _, ha, -⟩ | ha := ha <;> cases ha
    | _ => exact ⟨t, h.stay rfl rfl rfl⟩

/-- The calls of a run, one after the other. -/
theorem stored_of_run {s : StoreState} (hentries : entries.Perm s.dir.files)
    (hrun : Run (desktopStep host) (fun d a => storeWhole host d a = true)
      (desktopInit host table s.dir entries) acts d) :
    ∃ t, Stored host s (storeCalls host (desktopInit host table s.dir entries) acts) d t := by
  refine hrun.history (P := fun acts d => ∃ t, Stored host s
    (storeCalls host (desktopInit host table s.dir entries) acts) d t) ?_ ?_
  · exact ⟨s, .nil s, rfl, entries, hentries, rfl⟩
  · rintro acts v b u hbefore ⟨t, hv⟩ hok hst
    -- the call of the last step comes last
    rw [storeCalls, hbefore.observed_snoc]
    exact hv.step hok hst

/-- A list without repeated names has one profile of a name, which is the one selected by it. -/
theorem selected_selectName {app : AppState} {profile : PhobosProfile}
    (hnodup : (app.profiles.map PhobosProfile.clientName).Nodup) (hmem : profile ∈ app.profiles) :
    (app.selectName profile.clientName).updateListbox.selected = some profile := by
  unfold AppState.selectName
  split
  · next pos hpos =>
    obtain ⟨hlt, hname, -⟩ := List.findIdx?_eq_some_iff_getElem.mp hpos
    have hname : app.profiles[pos].clientName = profile.clientName := by simpa using hname
    show app.profiles[pos]? = some profile
    rw [List.getElem?_eq_getElem hlt, Option.some.injEq]
    -- names are not repeated, so the first one is the one meant
    exact List.inj_on_of_nodup_map hnodup (List.getElem_mem hlt) hmem hname
  · next hnone =>
    -- the profile is in the list, so its name is found
    rw [List.findIdx?_eq_none_iff] at hnone
    have hnot := hnone profile hmem
    simp at hnot

/-- What the window does after an import that has succeeded. -/
theorem desktopStep_import {source : SourceFile} {choices : ImportChoices} {profile : PhobosProfile}
    (hstep : desktopStep host d (.importFile source choices entries) = some d')
    (hok : (importProfile host d.dir source choices).2 = .ok profile) :
    ∃ dir, entries.Perm dir.files
      ∧ d' = { d with
        app := ((d.app.reloadProfiles (loadAllProfiles host entries)).selectName
          profile.clientName).updateListbox
        pc := .refresh
        dir }
      ∧ importProfile host d.dir source choices = (dir, .ok profile) := by
  simp only [desktopStep] at hstep
  split at hstep
  · split at hstep
    · next dir loaded himport =>
      rw [himport] at hok
      cases hok
      split at hstep
      · next hentries => cases hstep; exact ⟨dir, hentries, rfl, himport⟩
      · cases hstep
    · next himport =>
      rw [himport] at hok
      cases hok
  · cases hstep

/-- **The window shows the store.** The window is opened on a directory that the program itself has
filled, and no operation of the store breaks off. Then the directory is what the calls of the
window's handlers have made of it, the list box names the recorded profiles, each once; and the
profile that a successful import returns is the selected one after it. The names imported are to
differ in more than letter case. -/
theorem window_shows_store {calls : List StoreCall} {s : StoreState}
    (hstore : Run (storeStep host) anyStep storeInit calls s) (hentries : entries.Perm s.dir.files)
    (hrun : Run (desktopStep host) (fun d a => storeWhole host d a = true)
      (desktopInit host table s.dir entries) acts d) :
    ∃ t, Run (storeStep host) anyStep s
        (storeCalls host (desktopInit host table s.dir entries) acts) t
      ∧ t.dir = d.dir
      ∧ (DistinctNames t.history → d.app.list.items.Nodup
        ∧ ∀ name, name ∈ d.app.list.items ↔
          ∃ profile, profile.clientName = name ∧ RecordedProfile t.history profile)
      ∧ ∀ source choices entries' d' profile,
        desktopStep host d (.importFile source choices entries') = some d' →
        (importProfile host d.dir source choices).2 = .ok profile →
        DistinctNames (t.history ++ [.put profile.clientName profile]) →
        d'.app.selected = some profile := by
  obtain ⟨t, hcalls, hdir, entries', hperm, hloaded⟩ := stored_of_run hentries hrun
  refine ⟨t, hcalls, hdir, fun hnames => ?_, fun source choices entries' d' profile hstep
    hok hnames => ?_⟩
  · have hcontents := contents_of_run (hstore.trans hcalls) hnames
    rw [hdir] at hcontents
    rw [(shown_of_run hrun).mirrors.items, hloaded]
    refine ⟨hcontents.nodup_loadAllProfiles hperm, fun name => ?_⟩
    rw [List.mem_map]
    refine exists_congr fun profile => ?_
    rw [hcontents.mem_loadAllProfiles hperm, and_comm]
  · obtain ⟨dir, hentries', rfl, himport⟩ := desktopStep_import hstep hok
    have hcall : storeStep host t (.importProfile source choices)
        = some ⟨dir, t.history ++ [.put profile.clientName profile]⟩ := by
      simp only [storeStep, hdir, himport]
    have hcontents := contents_of_run
      (hstore.trans (hcalls.trans (.single trivial hcall))) hnames
    refine selected_selectName (hcontents.nodup_loadAllProfiles hentries') ?_
    exact (hcontents.mem_loadAllProfiles hentries').mpr (recorded_put.mpr (.inl ⟨rfl, rfl⟩))

/-- A window opened on the directory of `reimported`: the profile there is deleted, and another one
added. -/
def replacedOffice : List DesktopAction :=
  [.go, .go, .delete, .go,
    .deleteFiles [sampleFile "office" "c"] (fun _ => none) [], .go,
    .importFile (sampleSource "shop.conf" "d") ⟨0, .written⟩ [sampleFile "shop" "d"], .go, .go]

/-- The profile that was there is deleted, and another one is imported. -/
theorem window_mirrors_replaced : ∃ d₀ d : Desktop, d.app.list.items = ["shop".toList]
    ∧ d.pc = .idle ∧ d.app.details.toggle = "Подключить" ∧ Shown plainHost d₀ d := by
  have hexec : (exec (storeStep plainHost) storeInit reimported).any (fun s =>
      (exec (desktopStep plainHost) (desktopInit plainHost ∅ s.dir s.dir.files) replacedOffice).any
        fun d => decide (d.app.list.items = ["shop".toList] ∧ d.pc = .idle
          ∧ d.app.details.toggle = "Подключить")) = true := by
    decide +kernel
  obtain ⟨s, -, hs⟩ := Run.of_exec_any hexec
  obtain ⟨d, hrun, hd⟩ := Run.of_exec_any hs
  obtain ⟨hitems, hidle, htoggle⟩ := of_decide_eq_true hd
  exact ⟨_, d, hitems, hidle, htoggle, window_mirrors ∅ s.dir s.dir.files hrun⟩

/-- The two calls have left one profile in the directory, and the list box names it. -/
theorem window_shows_store_replaced : ∃ (s t : StoreState) (d : Desktop) (calls : List StoreCall),
    d.app.list.items = ["shop".toList] ∧ d.app.list.curSel = some 0
      ∧ calls = storeCalls plainHost (desktopInit plainHost ∅ s.dir s.dir.files) replacedOffice
      ∧ calls.length = 2 ∧ Run (storeStep plainHost) anyStep s calls t ∧ t.dir = d.dir := by
  have hexec : (exec (storeStep plainHost) storeInit reimported).any (fun s =>
      (execIf (desktopStep plainHost) (storeWhole plainHost)
        (desktopInit plainHost ∅ s.dir s.dir.files) replacedOffice).any fun d =>
          decide (d.app.list.items = ["shop".toList] ∧ d.app.list.curSel = some 0
            ∧ (storeCalls plainHost (desktopInit plainHost ∅ s.dir s.dir.files)
              replacedOffice).length = 2)) = true := by
    decide +kernel
  obtain ⟨s, hstore, hs⟩ := Run.of_exec_any hexec
  obtain ⟨d, hrun, hd⟩ := Run.of_execIf_any hs
  obtain ⟨hitems, hselected, hlength⟩ := of_decide_eq_true hd
  obtain ⟨t, hcalls, hdir, -⟩ := window_shows_store hstore (List.Perm.refl _) hrun
  exact ⟨s, t, d, _, hitems, hselected, rfl, hlength, hcalls, hdir⟩

end Phobos
