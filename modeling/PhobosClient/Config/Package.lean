import PhobosClient.Config.Archive

/-!
# PhobosClient — what a package loads as (`src/archive.rs`)

`load_from_tar_gz` walks over the entries of an archive with three variables that it overwrites
as it goes. Only entries whose name ends in `.conf` write to them, `wg-obfuscator.conf` to one and
any other to the two others, so that with one of each the order does not matter
(`scanEntries_stored`). The name that is taken from the path of the archive never survives, since
the stem of a WireGuard configuration always takes its place (`stem_of_conf`).

The entries are as they are stored: the components of a path, and bytes. The limit on their number
is tested before an entry is looked at.
-/

namespace Phobos

open Text FileName

/-- A component of a path, as `Path::components` lists them. -/
inductive PathComponent where
  | drive (name : Text)
  | rootDir
  | curDir
  | parentDir
  | normal (name : Text)

/-- `Path::file_name`: the last component, when it is a name. -/
def pathFileName (path : List PathComponent) : Option Text :=
  match path.getLast? with
  | some (.normal name) => some name
  | _ => none

structure StoredEntry where
  path : List PathComponent
  contents : Bytes

namespace StoredEntry

variable (env : Externals) (entry : StoredEntry)

/-- The entry as the loader meets it. -/
def toTarEntry : TarEntry := ⟨.ok (pathFileName entry.path), ⟨entry.contents, none⟩⟩

/-- The name that the loader compares. -/
def lowerName : Text := env.casing.toLowercase ((pathFileName entry.path).getD [])

def isConf : Bool := ".conf".toList.isSuffixOf (entry.lowerName env)

def isObfuscatorConf : Bool := entry.lowerName env = obfuscatorConf

/-- At most 1 MiB of valid UTF-8. -/
structure Readable : Prop where
  size : entry.contents.length ≤ 1024 * 1024
  utf8 : (Utf8.decode entry.contents).isSome = true

/-- The text of a readable entry. -/
def text : Text := (Utf8.decode entry.contents).getD []

/-- The name of the profile that a WireGuard configuration brings. -/
def stem : Text := ((pathFileName entry.path).map fileStem).getD []

end StoredEntry

/-- A package: up to 256 entries, of which exactly two have names in `.conf`, in any order. One is
`obf`, the configuration of the obfuscator, the other is `wg`, that of WireGuard. -/
structure Package (env : Externals) (entries : List StoredEntry) (obf wg : StoredEntry) : Prop where
  count : entries.length ≤ 256
  confs : (entries.filter (StoredEntry.isConf env)).Perm [obf, wg]
  obf_name : obf.isObfuscatorConf env = true
  wg_name : wg.isObfuscatorConf env = false
  obf_readable : obf.Readable
  wg_readable : wg.Readable

/-- The readers yield the entries as they are stored. -/
def Stores (host : Host) (bytes : Bytes) (entries : List StoredEntry) : Prop :=
  host.tarEntries (host.gunzip bytes) = .ok (entries.map fun entry => .ok entry.toTarEntry)

variable {env : Externals} {entry obf wg : StoredEntry}

/-! ## One entry -/

/-- The limit on the size lets it pass. -/
theorem StoredEntry.Readable.readToString (h : entry.Readable) :
    readToString maxConfEntrySize entry.toTarEntry.body = .ok entry.text := by
  have htake : entry.contents.take maxConfEntrySize = entry.contents :=
    List.take_of_length_le h.size
  obtain ⟨text, htext⟩ := Option.isSome_iff_exists.mp h.utf8
  unfold Phobos.readToString StoredEntry.text
  rw [show entry.toTarEntry.body.bytes = entry.contents from rfl,
    show entry.toTarEntry.body.error = none from rfl, ite_self, htake, htext]
  rfl

/-- An entry with another name is passed over, whatever it holds. -/
theorem scanEntry_other (h : entry.isConf env = false) (st : TarScan) :
    scanEntry env st entry.toTarEntry = .ok st := by
  have hsuffix : ¬ ".conf".toList.isSuffixOf (entry.lowerName env) = true := by
    rw [show ".conf".toList.isSuffixOf (entry.lowerName env) = false from h]
    exact Bool.false_ne_true
  have hobf : entry.lowerName env ≠ obfuscatorConf := by
    intro heq
    rw [heq] at hsuffix
    exact hsuffix (by decide)
  unfold StoredEntry.lowerName at hsuffix hobf
  simp only [scanEntry, StoredEntry.toTarEntry, if_neg hobf, if_neg hsuffix]

/-- The configuration of the obfuscator is stored, whatever was there. -/
theorem scanEntry_obf (hname : entry.isObfuscatorConf env = true) (h : entry.Readable)
    (st : TarScan) :
    scanEntry env st entry.toTarEntry = .ok { st with obfConfContent := some entry.text } := by
  have hobf : env.casing.toLowercase ((pathFileName entry.path).getD []) = obfuscatorConf :=
    of_decide_eq_true hname
  have hpath : entry.toTarEntry.path = .ok (pathFileName entry.path) := rfl
  simp only [scanEntry, hpath, if_pos hobf, h.readToString]

/-- A WireGuard configuration brings its text and its name. -/
theorem scanEntry_wg (hconf : entry.isConf env = true) (hname : entry.isObfuscatorConf env = false)
    (h : entry.Readable) (st : TarScan) : scanEntry env st entry.toTarEntry
      = .ok { st with wgConfContent := some entry.text, clientName := entry.stem } := by
  have hobf : env.casing.toLowercase ((pathFileName entry.path).getD []) ≠ obfuscatorConf :=
    of_decide_eq_false hname
  have hsuffix : ".conf".toList.isSuffixOf
      (env.casing.toLowercase ((pathFileName entry.path).getD [])) = true := hconf
  -- the name of the file gives the client its name
  have hstem : entry.stem ≠ [] ∧ entry.stem ≠ "wg-obfuscator".toList := by
    have hsuffix := List.isSuffixOf_iff_suffix.mp hsuffix
    unfold StoredEntry.stem
    cases hfile : pathFileName entry.path with
    | none =>
      rw [hfile] at hsuffix
      exact absurd hsuffix not_conf_nil
    | some name =>
      rw [hfile] at hsuffix hobf
      exact stem_of_conf hsuffix hobf
  have hpath : entry.toTarEntry.path = .ok (pathFileName entry.path) := rfl
  have hname : (if entry.stem ≠ [] ∧ entry.stem ≠ "wg-obfuscator".toList then entry.stem
      else st.clientName) = entry.stem := if_pos hstem
  simp only [scanEntry, hpath, if_neg hobf, if_pos hsuffix, h.readToString]
  rw [StoredEntry.stem] at hname ⊢
  rw [hname]

/-! ## The loop -/

/-- **Only configurations count.** The loop over a permitted number of stored entries is the loop
over those whose names end in `.conf`. Induction on the entries. -/
theorem scanEntries_filter (entries : List StoredEntry) {count : Nat}
    (hcount : count + entries.length ≤ maxTarEntries) (st : TarScan) :
    scanEntries env count st (entries.map fun entry => .ok entry.toTarEntry)
      = (entries.filter (StoredEntry.isConf env)).foldlM
        (fun st entry => scanEntry env st entry.toTarEntry) st := by
  induction entries generalizing count st with
  | nil => rfl
  | cons entry entries ih =>
    rw [List.length_cons] at hcount
    have hrest := fun st => @ih (count + 1) (by omega) st
    rw [List.map_cons, scanEntries, if_neg (by omega)]
    -- an entry that is no configuration is passed over
    cases hconf : entry.isConf env with
    | false =>
      rw [scanEntry_other hconf, List.filter_cons_of_neg (by rw [hconf]; decide)]
      exact hrest st
    | true =>
      rw [List.filter_cons_of_pos hconf, List.foldlM_cons]
      cases hentry : scanEntry env st entry.toTarEntry with
      | error e => rfl
      | ok st' => exact hrest st'

theorem perm_pair {α : Type*} {l : List α} {a b : α} (h : l.Perm [a, b]) :
    l = [a, b] ∨ l = [b, a] := by
  obtain ⟨x, y, rfl⟩ := List.length_eq_two.mp h.length_eq
  rcases List.mem_pair.mp (h.subset List.mem_cons_self) with rfl | rfl
  · rw [List.perm_singleton.mp ((List.perm_cons x).mp h)]
    exact .inl rfl
  · rw [List.perm_singleton.mp ((List.perm_cons x).mp (h.trans (List.Perm.swap ..)))]
    exact .inr rfl

/-- **What the loop ends with**, from any name: the two texts, and the name of the WireGuard
configuration. -/
theorem scanEntries_stored {entries : List StoredEntry} (h : Package env entries obf wg)
    (clientName : Text) :
    scanEntries env 0 ⟨none, none, clientName⟩ (entries.map fun entry => .ok entry.toTarEntry)
      = .ok ⟨some wg.text, some obf.text, wg.stem⟩ := by
  have hwg : wg.isConf env = true := by
    have hmem := h.confs.symm.subset (List.mem_cons_of_mem obf List.mem_cons_self)
    exact (List.mem_filter.mp hmem).2
  have hobf := scanEntry_obf h.obf_name h.obf_readable
  have hname := scanEntry_wg hwg h.wg_name h.wg_readable
  have hcount : 0 + entries.length ≤ maxTarEntries := by
    rw [Nat.zero_add]
    exact h.count
  rw [scanEntries_filter entries hcount]
  have hpair : ∀ (a b : StoredEntry) (st : TarScan), [a, b].foldlM
      (fun st entry => scanEntry env st entry.toTarEntry) st
      = (scanEntry env st a.toTarEntry).bind fun st => scanEntry env st b.toTarEntry := by
    intro a b st
    rw [List.foldlM_cons]
    refine bind_congr fun st => ?_
    rw [List.foldlM_cons]
    exact bind_pure _
  -- one of the two comes first
  rcases perm_pair h.confs with heq | heq
  · rw [heq, hpair, hobf]
    exact hname _
  · rw [heq, hpair, hname]
    exact hobf _

/-- More entries than permitted are an error, if no entry before is one. -/
theorem scanEntries_tooMany (env : Externals) (entries : List (Except String TarEntry))
    {count : Nat} (hroom : count ≤ maxTarEntries) (hcount : maxTarEntries < count + entries.length)
    (st : TarScan) : ∃ e, scanEntries env count st entries = .error e := by
  induction entries generalizing count st with
  | nil =>
    rw [List.length_nil] at hcount
    omega
  | cons entry entries ih =>
    rw [List.length_cons] at hcount
    unfold scanEntries
    split
    · -- the count has run over
      exact ⟨_, rfl⟩
    · next hnext =>
      cases entry with
      | error e => exact ⟨_, rfl⟩
      | ok entry =>
        dsimp only
        cases scanEntry env st entry with
        | error e => exact ⟨_, rfl⟩
        | ok st' => exact ih (by omega) (by omega) st'

/-! ## The archive -/

variable {host : Host}

/-- A package is built from its two configurations, under the name of one of them. -/
theorem loadFromTarGz_stored {bytes : Bytes} {entries : List StoredEntry}
    (hstores : Stores host bytes entries) (h : Package host.toExternals entries obf wg)
    (path : FilePath) :
    loadFromTarGz host bytes path
      = combineAndBuild host.toExternals wg.text obf.text wg.stem := by
  unfold loadFromTarGz
  rw [show host.tarEntries (host.gunzip bytes) = _ from hstores]
  simp only [scanEntries_stored h]
  rfl

/-- The limit on the entries stops the load. -/
theorem loadFromTarGz_tooMany {bytes : Bytes} {entries : List (Except String TarEntry)}
    (hentries : host.tarEntries (host.gunzip bytes) = .ok entries) (hcount : 256 < entries.length)
    (path : FilePath) : ∃ e, loadFromTarGz host bytes path = .error e := by
  unfold loadFromTarGz
  rw [hentries]
  dsimp only
  obtain ⟨e, hscan⟩ := scanEntries_tooMany host.toExternals entries
    (Nat.zero_le maxTarEntries) (by rwa [Nat.zero_add]) ⟨none, none, _⟩
  exact ⟨e, by rw [hscan]⟩

/-- **A package loads the same in whatever archive it comes.** It loads as what its two
configurations build, under the name of the one for WireGuard. So two archives with the same two
configurations load as the same profile, or fail with the same error: the order of the entries,
other entries, the directories that the configurations lie in and the paths of the archives make
no difference. Archives with more than 256 entries do not load. -/
theorem loadFromTarGz_package (host : Host) :
    (∀ bytes bytes' entries entries' obf obf' wg wg', Stores host bytes entries →
        Stores host bytes' entries' → Package host.toExternals entries obf wg →
        Package host.toExternals entries' obf' wg' → obf'.contents = obf.contents →
        wg'.contents = wg.contents → pathFileName wg'.path = pathFileName wg.path →
        ∀ path path', loadFromTarGz host bytes' path' = loadFromTarGz host bytes path)
      ∧ (∀ bytes entries obf wg, Stores host bytes entries →
        Package host.toExternals entries obf wg → ∀ path, loadFromTarGz host bytes path
          = combineAndBuild host.toExternals wg.text obf.text wg.stem)
      ∧ ∀ bytes entries, host.tarEntries (host.gunzip bytes) = .ok entries →
        256 < entries.length → ∀ path, ∃ e, loadFromTarGz host bytes path = .error e := by
  refine ⟨?_, fun bytes entries obf wg hstores hpackage => loadFromTarGz_stored hstores hpackage,
    fun bytes entries hentries hcount => loadFromTarGz_tooMany hentries hcount⟩
  intro bytes bytes' entries entries' obf obf' wg wg' hstores hstores' h h' hobf hwg hname path
    path'
  -- neither the other entries nor the name of the archive matter
  have hobfText : obf'.text = obf.text := by rw [StoredEntry.text, hobf]; rfl
  have hwgText : wg'.text = wg.text := by rw [StoredEntry.text, hwg]; rfl
  have hstem : wg'.stem = wg.stem := by rw [StoredEntry.stem, hname]; rfl
  rw [loadFromTarGz_stored hstores h, loadFromTarGz_stored hstores' h', hobfText, hwgText, hstem]

/-! ## Sample archives -/

def sampleObf : StoredEntry :=
  ⟨[.normal "phobos".toList, .normal "WG-Obfuscator.conf".toList],
    Utf8.encode "[instance]\ntarget=a\nkey=k".toList⟩

def sampleWg : StoredEntry :=
  ⟨[.curDir, .normal "office.conf".toList], Utf8.encode "[Interface]".toList⟩

/-- The two configurations, or the same in the other order with a file between them. -/
def sampleEntries (reordered : Bool) : List StoredEntry :=
  if reordered then [sampleWg, ⟨[.normal "README".toList], []⟩, sampleObf]
  else [sampleObf, sampleWg]

def sampleArchive (reordered : Bool) : Bytes := gzipMagic ++ if reordered then [1] else []

/-- A host without DPAPI whose readers know the sample archives. -/
def packageHost : Host where
  casing := CaseData.basic
  base64Decode _ := .error "Invalid symbol"
  parseIpAddr _ := none
  dpapiProtect _ _ := .error "DPAPI is not available"
  dpapiUnprotect _ := .error "DPAPI is not available"
  gunzip bytes :=
    if gzipMagic.isPrefixOf bytes then ⟨bytes, none⟩ else ⟨[], some "invalid gzip header"⟩
  tarEntries stream :=
    match stream.error with
    | some e => .ok [.error e]
    | none => .ok ((sampleEntries (stream.bytes == sampleArchive true)).map
        fun entry => .ok entry.toTarEntry)
  utf8Error _ := "invalid utf-8 sequence"
  profilesDir := "profiles"
  unprotect_protect := by
    intro _ _ _ h
    cases h
  gunzip_rejects := fun bytes h =>
    ⟨_, if_neg fun hprefix => h (List.isPrefixOf_iff_prefix.mp hprefix)⟩
  tarEntries_unreadable := fun e => ⟨e, [], rfl⟩

theorem stores_sampleArchive (reordered : Bool) :
    Stores packageHost (sampleArchive reordered) (sampleEntries reordered) := by
  cases reordered <;> rfl

theorem package_sampleEntries (reordered : Bool) :
    Package packageHost.toExternals (sampleEntries reordered) sampleObf sampleWg where
  count := by cases reordered <;> decide
  confs := by
    cases reordered with
    | false => exact List.Perm.refl _
    | true => exact List.Perm.swap ..
  obf_name := by decide
  wg_name := by decide
  obf_readable := ⟨by decide, by decide⟩
  wg_readable := ⟨by decide, by decide⟩

/-- The same two configurations in another order, next to a README, under another name. -/
theorem loadFromTarGz_package_reordered : ∃ profile : PhobosProfile,
    loadFromTarGz packageHost (sampleArchive false) ⟨"a.tar.gz", some "a.tar.gz".toList⟩
        = .ok profile
      ∧ loadFromTarGz packageHost (sampleArchive true) ⟨"backup.tgz", some "backup.tgz".toList⟩
        = .ok profile
      ∧ profile.clientName = "office".toList ∧ profile.target = "a".toList := by
  have hload : (loadFromTarGz packageHost (sampleArchive false)
      ⟨"a.tar.gz", some "a.tar.gz".toList⟩).toOption.any (fun profile =>
        decide (profile.clientName = "office".toList ∧ profile.target = "a".toList)) = true := by
    decide +kernel
  obtain ⟨profile, hprofile, hfields⟩ := (Option.any_eq_true _ _).mp hload
  have hok := ok_of_toOption hprofile
  refine ⟨profile, hok, ?_, of_decide_eq_true hfields⟩
  rw [← hok]
  exact (loadFromTarGz_package packageHost).1 _ _ _ _ sampleObf sampleObf sampleWg sampleWg
    (stores_sampleArchive false) (stores_sampleArchive true) (package_sampleEntries false)
    (package_sampleEntries true) rfl rfl rfl _ _

end Phobos
