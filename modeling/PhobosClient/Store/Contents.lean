import PhobosClient.Lib.Ledger
import PhobosClient.Lib.Steps
import PhobosClient.Store.Profiles

/-!
# PhobosClient — the profile store as a map from names to profiles

A run of successful imports and deletions, starting from an empty directory. Its history is a
ledger: an import puts the profile that it returned under its name, a deletion removes the
names that are equal to its argument up to ASCII case.

**`load_all_profiles_recorded`**: as long as no two imported names differ in case only, the
directory holds what the ledger has recorded. `Contents` is the invariant: every file carries
the name of a recorded profile and loads as that profile, and every recorded profile has its
file. One lemma per operation preserves it (`Contents.imported`, `Contents.deleted`).
-/

namespace Phobos

open Text FileName Steps Ledger

abbrev ProfileEvent := Event Text PhobosProfile

/-- How `delete_profile` compares names. -/
def SameName (a b : Text) : Prop := eqIgnoreAsciiCase a b = true

instance (a b : Text) : Decidable (SameName a b) :=
  inferInstanceAs (Decidable (eqIgnoreAsciiCase a b = true))

/-- The profile is the last import under its name, and not deleted since. -/
abbrev RecordedProfile (history : List ProfileEvent) (profile : PhobosProfile) : Prop :=
  Recorded SameName history profile.clientName profile

/-- No two imported names are equal only up to letter case. -/
def DistinctNames (history : List ProfileEvent) : Prop :=
  ∀ a p b q, Event.put a p ∈ history → Event.put b q ∈ history → SameName a b → a = b

/-! ## Runs -/

inductive StoreCall where
  | importProfile (source : SourceFile) (choices : ImportChoices)
  | deleteProfile (clientName : Text) (entries : List StoredFile)
      (removeError : Text → Option String)

structure StoreState where
  dir : ProfilesDir
  history : List ProfileEvent

def storeInit : StoreState := ⟨.empty, []⟩

/-- A successful call. The directory is listed in any order. -/
def storeStep (host : Host) (s : StoreState) : StoreCall → Option StoreState
  | .importProfile source choices =>
    match importProfile host s.dir source choices with
    | (dir, .ok profile) => some ⟨dir, s.history ++ [.put profile.clientName profile]⟩
    | (_, .error _) => none
  | .deleteProfile clientName entries removeError =>
    if entries.Perm s.dir.files then
      match deleteProfile host s.dir clientName entries removeError with
      | (dir, .ok ()) => some ⟨dir, s.history ++ [.remove clientName]⟩
      | (_, .error _) => none
    else none

/-! ## The invariant -/

/-- The file has the name of the profile and loads as it. -/
structure FileOf (host : Host) (profile : PhobosProfile) (f : StoredFile) : Prop where
  safe : SafeName profile.clientName
  name : f.name = storedName profile.clientName
  loads : loadStored host f = .ok profile

/-- The directory holds the recorded profiles. -/
structure Contents (host : Host) (dir : ProfilesDir) (history : List ProfileEvent) : Prop where
  sound : ∀ f ∈ dir.files, ∃ profile, RecordedProfile history profile ∧ FileOf host profile f
  complete : ∀ profile, RecordedProfile history profile → ∃ f ∈ dir.files, FileOf host profile f

variable {host : Host} {dir dir' : ProfilesDir} {history : List ProfileEvent}
  {profile : PhobosProfile} {f : StoredFile}

/-- An empty directory has nothing on record. -/
theorem contents_empty : Contents host .empty [] where
  sound := fun _ hf => absurd hf List.not_mem_nil
  complete := fun _ h => absurd h not_recorded_nil

/-- A file has the name of one profile only. -/
theorem FileOf.name_iff {p q : PhobosProfile} (hp : FileOf host p f) (hq : SafeName q.clientName) :
    f.name = storedName q.clientName ↔ p.clientName = q.clientName := by
  rw [hp.name]
  exact ⟨hp.safe.storedName_inj hq, congrArg storedName⟩

/-- **Importing** records the profile and leaves the others alone. -/
theorem Contents.imported (h : Contents host dir history) {payload : Bytes}
    (hfile : FileOf host profile ⟨storedName profile.clientName, payload⟩)
    (hnames : DistinctNames (history ++ [.put profile.clientName profile])) :
    Contents host (dir.write (storedName profile.clientName) payload)
      (history ++ [.put profile.clientName profile]) := by
  -- a file whose name differs in case only would be that of such a profile
  have hcase : ∀ f ∈ dir.files,
      eqIgnoreAsciiCase f.name (storedName profile.clientName) = true →
      f.name = storedName profile.clientName := by
    intro f hf hname
    obtain ⟨q, hq, hqfile⟩ := h.sound f hf
    rw [hqfile.name] at hname
    have hsame : SameName q.clientName profile.clientName :=
      hqfile.safe.storedName_case hfile.safe hname
    refine (hqfile.name_iff hfile.safe).mpr (hnames _ q _ profile ?_ ?_ hsame)
    · exact List.mem_append_left _ hq.mem
    · exact List.mem_append_right _ List.mem_cons_self
  constructor
  · intro f hf
    rcases (ProfilesDir.mem_write hcase).mp hf with rfl | ⟨hne, hf⟩
    · exact ⟨profile, recorded_put.mpr (.inl ⟨rfl, rfl⟩), hfile⟩
    · obtain ⟨q, hq, hqfile⟩ := h.sound f hf
      refine ⟨q, recorded_put.mpr (.inr ⟨fun heq => hne ?_, hq⟩), hqfile⟩
      exact (hqfile.name_iff hfile.safe).mpr heq.symm
  · intro q hq
    rcases recorded_put.mp hq with ⟨_, rfl⟩ | ⟨hne, hq⟩
    · exact ⟨_, (ProfilesDir.mem_write hcase).mpr (.inl rfl), hfile⟩
    · obtain ⟨f, hf, hqfile⟩ := h.complete q hq
      refine ⟨f, (ProfilesDir.mem_write hcase).mpr (.inr ⟨fun heq => hne ?_, hf⟩), hqfile⟩
      exact ((hqfile.name_iff hfile.safe).mp heq).symm

/-! ## Deletions -/

/-- What is left after the loop over the files. -/
theorem mem_deleteEntries {clientName : Text} {removeError : Text → Option String}
    {entries : List StoredFile} {found found' : Bool}
    (h : deleteEntries host clientName removeError dir found entries = (dir', .ok found')) :
    f ∈ dir'.files ↔ f ∈ dir.files ∧ ∀ g ∈ entries, matchesProfile host clientName g = true →
      eqIgnoreAsciiCase f.name g.name = false := by
  induction entries generalizing dir found with
  | nil =>
    cases h
    simp
  | cons g entries ih =>
    unfold deleteEntries at h
    cases hmatch : matchesProfile host clientName g with
    | false =>
      simp only [hmatch, Bool.false_eq_true, if_false] at h
      rw [ih h]
      simp [hmatch]
    | true =>
      simp only [hmatch, if_true] at h
      cases hremove : removeError g.name with
      | some e => simp only [hremove] at h; cases h
      | none =>
        simp only [hremove] at h
        -- the file goes, and with it every other of that name in any spelling
        rw [ih h, ProfilesDir.mem_remove]
        simp [hmatch, and_assoc]

theorem FileOf.matches_iff (hfile : FileOf host profile f) (clientName : Text) :
    matchesProfile host clientName f = true ↔ SameName profile.clientName clientName := by
  rw [matchesProfile, hfile.loads]
  rfl

/-- **Deleting** removes the profiles of that name, up to case, and no others. -/
theorem Contents.deleted (h : Contents host dir history) {clientName : Text}
    {entries : List StoredFile} {removeError : Text → Option String}
    (hentries : entries.Perm dir.files)
    (hdelete : deleteProfile host dir clientName entries removeError = (dir', .ok ())) :
    Contents host dir' (history ++ [.remove clientName]) := by
  -- each file goes or stays by itself, since no two have the same name
  have hmem : ∀ f, f ∈ dir'.files ↔
      f ∈ dir.files ∧ ¬ matchesProfile host clientName f = true := by
    intro f
    unfold deleteProfile at hdelete
    split at hdelete
    · cases hdelete
    · next hloop =>
      cases hdelete
      rw [mem_deleteEntries hloop]
      refine and_congr_right fun hf => ⟨fun hall hmatch => ?_, fun hno g hg hmatch => ?_⟩
      · have hself := hall f (hentries.mem_iff.mpr hf) hmatch
        rw [eqIgnoreAsciiCase_iff.mpr rfl] at hself
        cases hself
      · refine Bool.eq_false_iff.mpr fun hname => hno ?_
        rw [ProfilesDir.eq_of_case hf (hentries.mem_iff.mp hg) hname]
        exact hmatch
    · cases hdelete
  constructor
  · intro f hf
    obtain ⟨hf, hno⟩ := (hmem f).mp hf
    obtain ⟨q, hq, hqfile⟩ := h.sound f hf
    rw [hqfile.matches_iff] at hno
    exact ⟨q, recorded_remove.mpr ⟨hno, hq⟩, hqfile⟩
  · intro q hq
    obtain ⟨hno, hq⟩ := recorded_remove.mp hq
    obtain ⟨f, hf, hqfile⟩ := h.complete q hq
    exact ⟨f, (hmem f).mpr ⟨hf, fun hmatch => hno ((hqfile.matches_iff _).mp hmatch)⟩, hqfile⟩

/-! ## Loading -/

theorem FileOf.loadEntry (hfile : FileOf host profile f) : loadEntry host f = some profile := by
  rw [Phobos.loadEntry, hfile.name, hfile.safe.extension_storedName]
  simp only [show isProfileExtension "enc".toList = true by decide, hfile.loads]
  rfl

/-- What is loaded is what is recorded, in whatever order the directory is listed. -/
theorem Contents.mem_loadAllProfiles (h : Contents host dir history) {entries : List StoredFile}
    (hentries : entries.Perm dir.files) :
    profile ∈ loadAllProfiles host entries ↔ RecordedProfile history profile := by
  unfold loadAllProfiles
  rw [(List.mergeSort_perm _ _).mem_iff, List.mem_filterMap]
  constructor
  · rintro ⟨f, hf, hload⟩
    obtain ⟨q, hq, hqfile⟩ := h.sound f (hentries.mem_iff.mp hf)
    rw [hqfile.loadEntry] at hload
    cases hload
    exact hq
  · intro hrecorded
    obtain ⟨f, hf, hfile⟩ := h.complete profile hrecorded
    exact ⟨f, hentries.mem_iff.mpr hf, hfile.loadEntry⟩

theorem Contents.name_of_loadEntry (h : Contents host dir history) (hf : f ∈ dir.files)
    (hload : loadEntry host f = some profile) : f.name = storedName profile.clientName := by
  obtain ⟨q, _, hqfile⟩ := h.sound f hf
  rw [hqfile.loadEntry] at hload
  cases hload
  exact hqfile.name

/-- No name is loaded twice. -/
theorem Contents.nodup_loadAllProfiles (h : Contents host dir history)
    {entries : List StoredFile} (hentries : entries.Perm dir.files) :
    ((loadAllProfiles host entries).map PhobosProfile.clientName).Nodup := by
  unfold loadAllProfiles
  rw [((List.mergeSort_perm _ _).map _).nodup_iff]
  have hnodup : entries.Pairwise fun f g => f ≠ g :=
    (hentries.map _).nodup_iff.mpr dir.distinct |>.of_map
  refine List.pairwise_map.mpr (List.pairwise_filterMap.mpr ?_)
  refine hnodup.imp_of_mem fun {f g} hf hg hne p hp q hq heq => hne ?_
  have hf := hentries.mem_iff.mp hf
  have hg := hentries.mem_iff.mp hg
  -- equal names are stored under equal file names
  have hname : f.name = g.name := by
    rw [h.name_of_loadEntry hf hp, h.name_of_loadEntry hg hq, heq]
  exact ProfilesDir.eq_of_case hf hg (eqIgnoreAsciiCase_iff.mpr (congrArg _ hname))

/-! ## Runs -/

/-- A call writes a file, or removes those of a name. -/
theorem storeStep_cases {s t : StoreState} {call : StoreCall} (h : storeStep host s call = some t) :
    (∃ profile payload, FileOf host profile ⟨storedName profile.clientName, payload⟩ ∧
      t = ⟨s.dir.write (storedName profile.clientName) payload,
        s.history ++ [.put profile.clientName profile]⟩) ∨
    ∃ clientName entries removeError dir, entries.Perm s.dir.files ∧
      deleteProfile host s.dir clientName entries removeError = (dir, .ok ()) ∧
      t = ⟨dir, s.history ++ [.remove clientName]⟩ := by
  unfold storeStep at h
  split at h
  · split at h
    · next himport =>
      cases h
      -- what is written loads as the profile that the import returns
      obtain ⟨payload, rfl, hsafe, hload⟩ := importProfile_ok himport
      exact .inl ⟨_, payload, ⟨hsafe, rfl, hload⟩, rfl⟩
    · cases h
  · split at h
    · next hentries =>
      split at h
      · next hdelete =>
        cases h
        exact .inr ⟨_, _, _, _, hentries, hdelete, rfl⟩
      · cases h
    · cases h

/-- A call adds one event. -/
theorem storeStep_history {s t : StoreState} {call : StoreCall}
    (h : storeStep host s call = some t) : ∃ event, t.history = s.history ++ [event] := by
  rcases storeStep_cases h with ⟨_, _, _, rfl⟩ | ⟨_, _, _, _, _, _, rfl⟩
  · exact ⟨_, rfl⟩
  · exact ⟨_, rfl⟩

theorem DistinctNames.of_append {h h' : List ProfileEvent} (hnames : DistinctNames (h ++ h')) :
    DistinctNames h :=
  fun a p b q ha hb => hnames a p b q (List.mem_append_left _ ha) (List.mem_append_left _ hb)

/-- **Every call keeps the directory to its record.** -/
theorem Contents.step {s t : StoreState} {call : StoreCall} (h : Contents host s.dir s.history)
    (hstep : storeStep host s call = some t) (hnames : DistinctNames t.history) :
    Contents host t.dir t.history := by
  rcases storeStep_cases hstep with ⟨_, _, hfile, rfl⟩ | ⟨_, _, _, _, hentries, hdelete, rfl⟩
  · exact h.imported hfile hnames
  · exact h.deleted hentries hdelete

/-- And so does every run. -/
theorem contents_of_run {calls : List StoreCall} {s : StoreState}
    (hrun : Run (storeStep host) anyStep storeInit calls s) (hnames : DistinctNames s.history) :
    Contents host s.dir s.history := by
  refine hrun.invariant (P := fun s => DistinctNames s.history → Contents host s.dir s.history)
    (fun _ => contents_empty) (fun s call t hs _ hstep hnames => ?_) hnames
  obtain ⟨event, hhistory⟩ := storeStep_history hstep
  have hbefore : DistinctNames s.history := by
    rw [hhistory] at hnames
    exact hnames.of_append
  exact (hs hbefore).step hstep hnames

/-- **The store is a map from names to profiles.** What is loaded is, for each name that was
imported and not deleted since, the profile that its last import returned; and a call changes
nothing about the names that it does not touch. -/
theorem load_all_profiles_recorded {calls : List StoreCall} {s : StoreState}
    (hrun : Run (storeStep host) anyStep storeInit calls s) (hnames : DistinctNames s.history) :
    (∀ entries, entries.Perm s.dir.files →
      ((loadAllProfiles host entries).map PhobosProfile.clientName).Nodup ∧
      ∀ profile, profile ∈ loadAllProfiles host entries ↔ RecordedProfile s.history profile) ∧
    ∀ call t, storeStep host s call = some t → DistinctNames t.history →
      ∃ event, t.history = s.history ++ [event] ∧
        ∀ entries entries', entries.Perm s.dir.files → entries'.Perm t.dir.files →
          ∀ profile, ¬ event.Ends SameName profile.clientName →
            (profile ∈ loadAllProfiles host entries' ↔ profile ∈ loadAllProfiles host entries) := by
  have hcontents := contents_of_run hrun hnames
  refine ⟨fun entries hentries => ⟨hcontents.nodup_loadAllProfiles hentries,
    fun profile => hcontents.mem_loadAllProfiles hentries⟩, fun call t hstep hnames' => ?_⟩
  obtain ⟨event, hhistory⟩ := storeStep_history hstep
  refine ⟨event, hhistory, fun entries entries' hentries hentries' profile hother => ?_⟩
  rw [(hcontents.step hstep hnames').mem_loadAllProfiles hentries',
    hcontents.mem_loadAllProfiles hentries, hhistory, RecordedProfile, recorded_snoc]
  -- the event is about another profile, so it makes no difference to this one
  constructor
  · rintro (rfl | ⟨_, hrecorded⟩)
    · exact absurd rfl hother
    · exact hrecorded
  · exact fun hrecorded => .inr ⟨hother, hrecorded⟩

/-! ## Sample runs -/

/-- A host without DPAPI, where the bytes are handed through, on inputs that are not gzip. -/
def plainHost : Host where
  casing := CaseData.basic
  base64Decode _ := .error "Invalid symbol"
  parseIpAddr _ := none
  dpapiProtect _ bytes := .ok bytes
  dpapiUnprotect bytes := .ok bytes
  gunzip _ := ⟨[], some "invalid gzip header"⟩
  tarEntries stream :=
    match stream.error with
    | some e => .ok [.error e]
    | none => .ok []
  utf8Error _ := "invalid utf-8 sequence"
  profilesDir := "profiles"
  unprotect_protect := by
    rintro _ _ _ h
    cases h
    rfl
  gunzip_rejects := fun _ _ => ⟨_, rfl⟩
  tarEntries_unreadable := fun e => ⟨e, [], rfl⟩

def sampleConf (target : String) : Bytes :=
  Utf8.encode ("[instance]\ntarget=" ++ target ++ "\nkey=k").toList

def sampleSource (fileName target : String) : SourceFile where
  path := ⟨fileName, some fileName.toList⟩
  isFile := true
  read := .contents (sampleConf target)
  reread := .ok (sampleConf target)
  stable := by
    rintro _ _ h h'
    cases h
    cases h'
    rfl

def importSample (fileName target : String) : StoreCall :=
  .importProfile (sampleSource fileName target) ⟨0, .written⟩

/-- The file that importing a sample leaves. -/
def sampleFile (clientName target : String) : StoredFile :=
  ⟨storedName clientName.toList, dpapiMagic ++ sampleConf target⟩

def deleteSample (clientName : String) (entries : List StoredFile) : StoreCall :=
  .deleteProfile clientName.toList entries fun _ => none

/-- Two profiles, the first one imported twice, and the second one deleted. -/
def reimported : List StoreCall :=
  [importSample "office.conf" "a", importSample "home.enc" "b", importSample "office.tgz" "c",
    deleteSample "HOME" [sampleFile "home" "b", sampleFile "office" "c"]]

/-- A profile that is deleted under another spelling of its name. -/
def deletedOther : List StoreCall :=
  [importSample "Foo.conf" "a", deleteSample "foo" [sampleFile "Foo" "a"]]

/-- The events of `reimported`. -/
def isReimported : List (Event Text PhobosProfile) → Bool
  | [.put a _, .put b _, .put c office, .remove name] => decide (a = "office".toList ∧
      b = "home".toList ∧ c = "office".toList ∧ name = "HOME".toList ∧
      office.clientName = c ∧ office.target = "c".toList)
  | _ => false

/-- What is left is the second import of `office`. -/
theorem load_all_profiles_recorded_reimported :
    ∃ s office, Run (storeStep plainHost) anyStep storeInit reimported s ∧
      DistinctNames s.history ∧ office.clientName = "office".toList ∧
      office.target = "c".toList ∧ office ∈ loadAllProfiles plainHost s.dir.files := by
  have hexec : (exec (storeStep plainHost) storeInit reimported).any (fun s =>
      isReimported s.history) = true := by decide +kernel
  obtain ⟨s, hrun, hcheck⟩ := Run.of_exec_any hexec
  unfold isReimported at hcheck
  split at hcheck
  · next a p b q c office name hhistory =>
    obtain ⟨rfl, rfl, rfl, rfl, hname, htarget⟩ := of_decide_eq_true hcheck
    have hnames : DistinctNames s.history := by
      intro a p b q ha hb hsame
      rw [hhistory] at ha hb
      simp only [List.mem_cons, Event.put.injEq, List.not_mem_nil, or_false, reduceCtorEq] at ha hb
      rcases ha with ⟨rfl, _⟩ | ⟨rfl, _⟩ | ⟨rfl, _⟩ <;>
        rcases hb with ⟨rfl, _⟩ | ⟨rfl, _⟩ | ⟨rfl, _⟩ <;>
        first | rfl | exact absurd hsame (by decide)
    -- the removal is of another name
    have hrecorded : RecordedProfile s.history office := by
      rw [RecordedProfile, hname, hhistory]
      refine ⟨[.put _ p, .put _ q], [.remove _], rfl, fun e he => ?_⟩
      rw [List.mem_singleton.mp he]
      have hother : ¬ SameName "office".toList "HOME".toList := by decide
      exact hother
    exact ⟨s, office, hrun, hnames, hname, htarget,
      (((load_all_profiles_recorded hrun hnames).1 _ (List.Perm.refl _)).2 office).mpr hrecorded⟩
  · cases hcheck

/-- The events of `deletedOther`. -/
def isDeletedOther : List (Event Text PhobosProfile) → Bool
  | [.put a profile, .remove name] => decide (a = "Foo".toList ∧ name = "foo".toList ∧
      profile.clientName = a)
  | _ => false

/-- With names compared exactly the map would be lost: deleting `foo` has deleted `Foo`. -/
theorem load_all_profiles_recorded_other_case :
    ∃ s profile, Run (storeStep plainHost) anyStep storeInit deletedOther s ∧
      DistinctNames s.history ∧ profile.clientName = "Foo".toList ∧
      Recorded (fun a b => a = b) s.history profile.clientName profile ∧
      loadAllProfiles plainHost s.dir.files = [] := by
  have hexec : (exec (storeStep plainHost) storeInit deletedOther).any (fun s =>
      isDeletedOther s.history && s.dir.files.isEmpty) = true := by decide +kernel
  obtain ⟨s, hrun, hcheck⟩ := Run.of_exec_any hexec
  obtain ⟨hcheck, hempty⟩ := Bool.and_eq_true_iff.mp hcheck
  have hfiles : s.dir.files = [] := List.isEmpty_iff.mp hempty
  unfold isDeletedOther at hcheck
  split at hcheck
  · next a profile name hhistory =>
    obtain ⟨rfl, rfl, hname⟩ := of_decide_eq_true hcheck
    have hnames : DistinctNames s.history := by
      intro a p b q ha hb _
      rw [hhistory] at ha hb
      simp only [List.mem_cons, Event.put.injEq, List.not_mem_nil, or_false, reduceCtorEq] at ha hb
      rw [ha.1, hb.1]
    -- the names differ, but in their case only
    have hrecorded : Recorded (fun a b => a = b) s.history profile.clientName profile := by
      rw [hname, hhistory]
      refine ⟨[], [.remove _], rfl, fun e he => ?_⟩
      rw [List.mem_singleton.mp he]
      have hother : "Foo".toList ≠ "foo".toList := by decide
      exact hother
    exact ⟨s, profile, hrun, hnames, hname, hrecorded, by simp [loadAllProfiles, hfiles]⟩
  · cases hcheck

end Phobos
