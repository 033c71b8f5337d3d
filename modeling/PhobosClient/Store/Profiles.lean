import Mathlib.Data.Char
import Mathlib.Data.List.Lex
import PhobosClient.Config.Archive

/-!
# PhobosClient — the profile store (`src/profile_store.rs`)

Profiles are files of one directory. `import_profile` copies a source that loads, protected
by DPAPI, under the name of the profile; `load_all_profiles` and `delete_profile` load every
file again to find out what it is.

Windows looks file names up without regard to letter case, so `ProfilesDir` has no two names
that are equal up to case. The order in which a directory is listed is not fixed: `entries` is
any order of its files.

**`load_imported`**: what an import has stored loads as the profile that the import returned,
although file name, extension and protection differ.
-/

namespace Phobos

open Text FileName

/-! ## The directory -/

structure StoredFile where
  name : Text
  bytes : Bytes
  deriving DecidableEq

structure ProfilesDir where
  files : List StoredFile
  distinct : (files.map fun f => f.name.map Char.toLower).Nodup

namespace ProfilesDir

def empty : ProfilesDir := ⟨[], List.nodup_nil⟩

/-- `fs::write`: a file of this name keeps its spelling. -/
def write (dir : ProfilesDir) (name : Text) (bytes : Bytes) : ProfilesDir :=
  if h : dir.files.any fun f => eqIgnoreAsciiCase f.name name then
    { files := dir.files.map fun f => if eqIgnoreAsciiCase f.name name then { f with bytes } else f
      distinct := by
        have hnames : ∀ f : StoredFile,
            (if eqIgnoreAsciiCase f.name name then { f with bytes } else f).name = f.name := by
          intro f
          split <;> rfl
        rw [List.map_map]
        simpa only [Function.comp_def, hnames] using dir.distinct }
  else
    { files := dir.files ++ [⟨name, bytes⟩]
      distinct := by
        rw [List.map_append, List.map_singleton, List.nodup_append]
        refine ⟨dir.distinct, List.nodup_singleton _, fun folded hfolded other hother heq => h ?_⟩
        obtain ⟨f, hf, rfl⟩ := List.mem_map.mp hfolded
        rw [List.mem_singleton.mp hother] at heq
        exact List.any_eq_true.mpr ⟨f, hf, beq_iff_eq.mpr heq⟩ }

/-- `fs::remove_file`. -/
def remove (dir : ProfilesDir) (name : Text) : ProfilesDir where
  files := dir.files.filter fun f => !eqIgnoreAsciiCase f.name name
  distinct := dir.distinct.sublist (List.filter_sublist.map _)

end ProfilesDir

/-! ## The operations -/

/-- The source of an import. Both readings of it see the same bytes. -/
structure SourceFile where
  path : FilePath
  isFile : Bool
  read : FileRead
  reread : Except String Bytes
  stable : ∀ raw raw', read = .contents raw → reread = .ok raw' → raw' = raw

/-- What becomes of a write: done, refused, or broken off after some bytes. -/
inductive WriteOutcome where
  | written
  | refused (e : String)
  | brokenOff (e : String) (count : Nat)

/-- What the operating system chooses during an import. -/
structure ImportChoices where
  salt : Nat
  outcome : WriteOutcome

variable (host : Host)

/-- The path of a file in the directory of the profiles. -/
def storedPath (name : Text) : FilePath where
  display := host.profilesDir ++ "\\" ++ String.ofList name
  fileName := some name

def isProfileExtension (ext : Text) : Bool :=
  eqIgnoreAsciiCase ext "enc".toList || eqIgnoreAsciiCase ext "gz".toList ||
    eqIgnoreAsciiCase ext "tgz".toList || eqIgnoreAsciiCase ext "conf".toList

def loadStored (file : StoredFile) : Except String PhobosProfile :=
  loadFromFile host (storedPath host file.name) (.contents file.bytes)

/-- The body of the loop of `load_all_profiles`. -/
def loadEntry (file : StoredFile) : Option PhobosProfile :=
  match extension file.name with
  | some ext => if isProfileExtension ext then (loadStored host file).toOption else none
  | none => none

def loadAllProfiles (entries : List StoredFile) : List PhobosProfile :=
  (entries.filterMap (loadEntry host)).mergeSort fun a b =>
    decide (host.casing.toLowercase a.clientName ≤ host.casing.toLowercase b.clientName)

def isSupportedProfilePath (path : FilePath) : Bool :=
  let filename := host.casing.toLowercase (path.fileName.getD [])
  ".tar.gz".toList.isSuffixOf filename || ".tgz".toList.isSuffixOf filename ||
    ".conf".toList.isSuffixOf filename || ".enc".toList.isSuffixOf filename

/-- The protected form of a file: what is protected already is kept. -/
def sealed (salt : Nat) (raw : Bytes) : Except String Bytes :=
  if dpapiMagic.isPrefixOf raw then .ok raw
  else match host.dpapiProtect salt raw with
    | .error e => .error e
    | .ok enc => .ok (dpapiMagic ++ enc)

/-- The name of the file that an import writes. -/
def storedName (clientName : Text) : Text := sanitizeClientName clientName ++ ".enc".toList

def importProfile (dir : ProfilesDir) (source : SourceFile) (choices : ImportChoices) :
    ProfilesDir × Except String PhobosProfile :=
  if !source.read.pathExists || !source.isFile then
    (dir, .error s!"Файл не найден или не является обычным файлом: {source.path.display}")
  else if !isSupportedProfilePath host source.path then
    (dir, .error s!"Неподдерживаемый формат файла: {source.path.display}. Поддерживаются .tar.gz, .tgz, .conf, .enc")
  else match loadFromFile host source.path source.read with
    | .error e => (dir, .error e)
    | .ok profile =>
      match source.reread with
      | .error e => (dir, .error s!"Не удалось прочитать исходный файл профиля: {e}")
      | .ok raw =>
        match sealed host choices.salt raw with
        | .error e => (dir, .error e)
        | .ok payload =>
          let target := storedName profile.clientName
          match choices.outcome with
          | .written => (dir.write target payload, .ok profile)
          | .refused e => (dir, .error s!"Не удалось сохранить зашифрованный профиль: {e}")
          | .brokenOff e count =>
            (dir.write target (payload.take count),
              .error s!"Не удалось сохранить зашифрованный профиль: {e}")

/-- Whether a file is one that `delete_profile` removes: by the name of its profile, or by its
own when it does not load. -/
def matchesProfile (clientName : Text) (file : StoredFile) : Bool :=
  match loadStored host file with
  | .ok profile => eqIgnoreAsciiCase profile.clientName clientName
  | .error _ =>
    let stem := fileStem file.name
    let cleanStem := trimStartMatches "phobos-".toList (trimEndMatches ".tar".toList stem)
    eqIgnoreAsciiCase cleanStem clientName || eqIgnoreAsciiCase stem clientName

/-- The loop of `delete_profile`. `removeError` is how the system refuses to remove a file. -/
def deleteEntries (clientName : Text) (removeError : Text → Option String) (dir : ProfilesDir)
    (found : Bool) : List StoredFile → ProfilesDir × Except String Bool
  | [] => (dir, .ok found)
  | file :: entries =>
    if matchesProfile host clientName file then
      match removeError file.name with
      | some e =>
        let display := (storedPath host file.name).display
        (dir, .error s!"Не удалось удалить файл профиля '{display}': {e}")
      | none => deleteEntries clientName removeError (dir.remove file.name) true entries
    else deleteEntries clientName removeError dir found entries

def deleteProfile (dir : ProfilesDir) (clientName : Text) (entries : List StoredFile)
    (removeError : Text → Option String) : ProfilesDir × Except String Unit :=
  match deleteEntries host clientName removeError dir false entries with
  | (dir, .error e) => (dir, .error e)
  | (dir, .ok true) => (dir, .ok ())
  | (dir, .ok false) => (dir, .error s!"Профиль '{String.ofList clientName}' не найден")

/-! ## Names of stored files -/

theorem SafeName.storedName_eq {name : Text} (h : SafeName name) :
    storedName name = name ++ ".enc".toList := by
  rw [storedName, h.sanitizeClientName_eq]

theorem SafeName.fileStem_storedName {name : Text} (h : SafeName name) :
    fileStem (storedName name) = name := by
  rw [h.storedName_eq]
  exact fileStem_append h.ne_nil (by decide) (by decide)

theorem SafeName.extension_storedName {name : Text} (h : SafeName name) :
    extension (storedName name) = some "enc".toList := by
  rw [h.storedName_eq]
  exact extension_append h.ne_nil (by decide) (by decide)

/-- Different names are stored under different file names. -/
theorem SafeName.storedName_inj {a b : Text} (ha : SafeName a) (hb : SafeName b)
    (h : storedName a = storedName b) : a = b := by
  rw [ha.storedName_eq, hb.storedName_eq] at h
  exact List.append_cancel_right h

/-- File names are equal up to case when the names are. -/
theorem SafeName.storedName_case {a b : Text} (ha : SafeName a) (hb : SafeName b)
    (h : eqIgnoreAsciiCase (storedName a) (storedName b) = true) :
    eqIgnoreAsciiCase a b = true := by
  rw [eqIgnoreAsciiCase_iff] at h ⊢
  rw [ha.storedName_eq, hb.storedName_eq, List.map_append, List.map_append] at h
  exact List.append_cancel_right h

/-! ## The directory after a write and a removal -/

namespace ProfilesDir

variable {dir : ProfilesDir} {f g : StoredFile}

/-- A directory has one file of a name. -/
theorem eq_of_case (hf : f ∈ dir.files) (hg : g ∈ dir.files)
    (h : eqIgnoreAsciiCase f.name g.name = true) : f = g :=
  List.inj_on_of_nodup_map dir.distinct hf hg (eqIgnoreAsciiCase_iff.mp h)

/-- A removal takes the files of that name, in any spelling. -/
theorem mem_remove {name : Text} :
    g ∈ (dir.remove name).files ↔ g ∈ dir.files ∧ eqIgnoreAsciiCase g.name name = false := by
  simp [remove]

/-- A write where no other spelling of the name is in use. -/
theorem mem_write {name : Text} {bytes : Bytes}
    (hcase : ∀ f ∈ dir.files, eqIgnoreAsciiCase f.name name = true → f.name = name) :
    g ∈ (dir.write name bytes).files ↔ g = ⟨name, bytes⟩ ∨ g.name ≠ name ∧ g ∈ dir.files := by
  have hself : eqIgnoreAsciiCase name name = true := eqIgnoreAsciiCase_iff.mpr rfl
  unfold write
  split
  · next hany =>
    -- a file of this name is there, and its contents are replaced
    obtain ⟨f, hf, hname⟩ := List.any_eq_true.mp hany
    have hf_name := hcase f hf hname
    constructor
    · intro hg
      obtain ⟨f', hf', rfl⟩ := List.mem_map.mp hg
      cases hname' : eqIgnoreAsciiCase f'.name name with
      | true => exact .inl (by simp [hcase f' hf' hname'])
      | false =>
        refine .inr ⟨?_, by simpa using hf'⟩
        rintro heq
        simp only [Bool.false_eq_true, if_false] at heq
        rw [heq, hself] at hname'
        cases hname'
    · rintro (rfl | ⟨hne, hg⟩)
      · exact List.mem_map.mpr ⟨f, hf, by simp [hf_name, hself]⟩
      · refine List.mem_map.mpr ⟨g, hg, if_neg fun hname' => hne (hcase g hg hname')⟩
  · next hany =>
    have hfresh : ∀ f ∈ dir.files, f.name ≠ name := by
      intro f hf heq
      exact hany (List.any_eq_true.mpr ⟨f, hf, by rw [heq, hself]⟩)
    rw [List.mem_append, List.mem_singleton]
    constructor
    · rintro (hg | hg)
      · exact .inr ⟨hfresh g hg, hg⟩
      · exact .inl hg
    · rintro (hg | ⟨_, hg⟩)
      · exact .inr hg
      · exact .inl hg

end ProfilesDir

/-! ## What is stored loads again -/

variable {host} {raw payload : Bytes} {salt : Nat} {profile : PhobosProfile}

/-- What has been sealed opens to what it was made of. -/
theorem unsealed_sealed (h : sealed host salt raw = .ok payload) :
    unsealed host payload = unsealed host raw := by
  unfold sealed at h
  split at h
  · cases h
    rfl
  · next hplain =>
    cases hprotect : host.dpapiProtect salt raw with
    | error e => rw [hprotect] at h; cases h
    | ok enc =>
      rw [hprotect] at h
      cases h
      -- the seal is recognised by its magic
      have hmagic : dpapiMagic.isPrefixOf (dpapiMagic ++ enc) = true :=
        List.isPrefixOf_iff_prefix.mpr (List.prefix_append _ _)
      rw [unsealed, if_pos hmagic, List.drop_left, host.unprotect_protect salt raw enc hprotect,
        unsealed, if_neg hplain]

/-- A load reads the file once. -/
theorem loadFromFile_ok {path : FilePath} {file : FileRead}
    (h : loadFromFile host path file = .ok profile) : ∃ raw bytes,
      file = .contents raw ∧ unsealed host raw = .ok bytes ∧
      loadFromBytes host bytes path = .ok profile := by
  unfold loadFromFile at h
  cases file with
  | missing => cases h
  | openFailed e => cases h
  | readFailed e => cases h
  | contents raw =>
    cases hraw : unsealed host raw with
    | error e => simp only [hraw] at h; cases h
    | ok bytes =>
      simp only [hraw] at h
      exact ⟨raw, bytes, rfl, hraw, h⟩

/-- **What an import has stored loads as what it returned.** -/
theorem load_imported {path : FilePath} (h : loadFromFile host path (.contents raw) = .ok profile)
    (hsealed : sealed host salt raw = .ok payload) :
    SafeName profile.clientName ∧
      loadStored host ⟨storedName profile.clientName, payload⟩ = .ok profile := by
  obtain ⟨_, bytes, hfile, hraw, hbytes⟩ := loadFromFile_ok h
  cases hfile
  have hsafe := loadFromBytes_safeName hbytes
  refine ⟨hsafe, ?_⟩
  have hstem : (storedPath host (storedName profile.clientName)).stem = profile.clientName :=
    hsafe.fileStem_storedName
  simp only [loadStored, loadFromFile, unsealed_sealed hsealed, hraw]
  exact loadFromBytes_own_name hbytes hstem

/-- What a successful import has done. -/
theorem importProfile_ok {dir dir' : ProfilesDir} {source : SourceFile} {choices : ImportChoices}
    (h : importProfile host dir source choices = (dir', .ok profile)) :
    ∃ payload, dir' = dir.write (storedName profile.clientName) payload ∧
      SafeName profile.clientName ∧
      loadStored host ⟨storedName profile.clientName, payload⟩ = .ok profile := by
  simp only [importProfile] at h
  split at h
  · cases h
  · split at h
    · cases h
    · cases hload : loadFromFile host source.path source.read with
      | error e => simp only [hload] at h; cases h
      | ok loaded =>
        simp only [hload] at h
        cases hreread : source.reread with
        | error e => simp only [hreread] at h; cases h
        | ok raw =>
          simp only [hreread] at h
          cases hsealed : sealed host choices.salt raw with
          | error e => simp only [hsealed] at h; cases h
          | ok payload =>
            simp only [hsealed] at h
            cases hwrite : choices.outcome with
            | refused e => simp only [hwrite] at h; cases h
            | brokenOff e count => simp only [hwrite] at h; cases h
            | written =>
              simp only [hwrite] at h
              cases h
              obtain ⟨raw', _, hread, _⟩ := loadFromFile_ok hload
              -- the file is read twice, and has not changed in between
              obtain rfl := source.stable _ _ hread hreread
              rw [hread] at hload
              exact ⟨payload, rfl, load_imported hload hsealed⟩

end Phobos
