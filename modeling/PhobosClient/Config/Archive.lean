import PhobosClient.Config.Merged
import PhobosClient.Config.Rewrite
import PhobosClient.Lib.FileName
import PhobosClient.Lib.Utf8
import PhobosClient.Wire.Obfuscator

/-!
# PhobosClient — reading profiles (`src/archive.rs`)

A profile is read from a gzipped tar archive or from one merged configuration, and either may
be protected by DPAPI. `load_from_file` tries the archive first for the file names of
archives, then the configuration, then both once more. What the operating system and other
crates do stands in `Host`, with what the code relies on.
-/

namespace Phobos

open Text FileName

/-! ## The host -/

/-- What reading a stream to its end yields: bytes, and the error that ends them, if any. -/
structure ReadResult where
  bytes : Bytes
  error : Option String

structure TarEntry where
  /-- The last component of its path, when it has one that is Unicode. -/
  path : Except String (Option Text)
  body : ReadResult

def gzipMagic : Bytes := [0x1F, 0x8B]

/-- The operating system and the crates that the profile code is built on. -/
structure Host extends Externals where
  /-- DPAPI mixes random bytes into what it returns: `salt` stands for them. -/
  dpapiProtect : (salt : Nat) → Bytes → Except String Bytes
  dpapiUnprotect : Bytes → Except String Bytes
  gunzip : Bytes → ReadResult
  /-- `Archive::entries`, over the decompressed stream. -/
  tarEntries : ReadResult → Except String (List (Except String TarEntry))
  /-- The text of the `Utf8Error` of bytes that are not UTF-8. -/
  utf8Error : Bytes → String
  /-- How the directory of the profiles is displayed. -/
  profilesDir : String
  unprotect_protect : ∀ salt bytes sealed, dpapiProtect salt bytes = .ok sealed →
    dpapiUnprotect sealed = .ok bytes
  gunzip_rejects : ∀ bytes, ¬ gzipMagic <+: bytes → ∃ e, gunzip bytes = ⟨[], some e⟩
  /-- The first entry of a stream that fails at once is the error. -/
  tarEntries_unreadable : ∀ e, ∃ e' rest, tarEntries ⟨[], some e⟩ = .ok (.error e' :: rest)

/-- A path: how it is displayed, and its last component when it has one that is Unicode. -/
structure FilePath where
  display : String
  fileName : Option Text

/-- What opening and reading a file comes to. -/
inductive FileRead where
  | missing
  | openFailed (e : String)
  | readFailed (e : String)
  | contents (raw : Bytes)

/-- `Path::exists`. -/
def FileRead.pathExists : FileRead → Bool
  | .missing => false
  | _ => true

def dpapiMagic : Bytes := Utf8.encode "PHOBOS_DPAPI_V1\x00".toList
def maxConfEntrySize : Nat := 1024 * 1024
def maxTarEntries : Nat := 256

/-! ## Building a profile -/

def isSafeChar (c : Char) : Bool := c.isAlphanum || c = '-' || c = '_' || c = '.'

def isTrimmedChar (c : Char) : Bool := c = '.' || c = ' ' || c = '_'

def sanitizeClientName (raw : Text) : Text :=
  let sanitized := raw.map fun c => if isSafeChar c then c else '_'
  let clean := trimMatches isTrimmedChar sanitized
  if clean = [] ∨ clean = "..".toList then "phobos".toList else clean

def combineAndBuild (env : Externals) (wgConfRaw obfConfRaw clientName : Text) :
    Except String PhobosProfile :=
  let obfParams := parseInstanceSection env obfConfRaw
  match obfParams.lookup "target".toList with
  | none => .error "Missing 'target' in obfuscator configuration"
  | some target =>
    match obfParams.lookup "key".toList with
    | none => .error "Missing 'key' in obfuscator configuration"
    | some keyStr =>
      let number (bits : Nat) (key : Text) := (obfParams.lookup key).bind (parseUnsigned bits)
      let localPort := .ofNat 16 ((number 16 "source-lport".toList).getD 13255)
      .ok {
        clientName := sanitizeClientName clientName
        target
        key := Utf8.encode keyStr
        masking := ((obfParams.lookup "masking".toList).map env.casing.toUppercase).getD
          "STUN".toList
        localPort
        maxDummy := (number 64 "max-dummy".toList).getD defaultMaxDummy
        obfuscateBytes := (number 64 "obfuscate-bytes".toList).getD 0
        rawWgConf := wgConfRaw
        readyWgConfContent := rewriteEndpointToLoopback env wgConfRaw localPort
        readyWgConfPath := none }

def loadFromConfString (env : Externals) (content clientName : Text) :
    Except String PhobosProfile :=
  let (wgConf, obfConf) := splitMergedConf content
  combineAndBuild env wgConf obfConf clientName

/-! ## Archives -/

/-- `read_to_string` on at most `limit` bytes of the stream. -/
def readToString (limit : Nat) (body : ReadResult) : Except String Text :=
  -- an error behind the limit is not met
  match if body.bytes.length < limit then body.error else none with
  | some e => .error e
  | none =>
    match Utf8.decode (body.bytes.take limit) with
    | some s => .ok s
    | none => .error "stream did not contain valid UTF-8"

/-- What the loop over the entries has found. -/
structure TarScan where
  wgConfContent : Option Text
  obfConfContent : Option Text
  clientName : Text

def obfuscatorConf : Text := "wg-obfuscator.conf".toList

/-- The body of the loop, for an entry that could be read. -/
def scanEntry (env : Externals) (st : TarScan) (entry : TarEntry) : Except String TarScan :=
  match entry.path with
  | .error e => .error s!"Invalid tar path: {e}"
  | .ok fileName =>
    let fname := env.casing.toLowercase (fileName.getD [])
    if fname = obfuscatorConf then
      match readToString maxConfEntrySize entry.body with
      | .error e => .error s!"Failed to read wg-obfuscator.conf: {e}"
      | .ok s => .ok { st with obfConfContent := some s }
    else if ".conf".toList.isSuffixOf fname then
      match readToString maxConfEntrySize entry.body with
      | .error e => .error s!"Failed to read {String.ofList fname}: {e}"
      | .ok s =>
        let stem := (fileName.map fileStem).getD []
        .ok { st with
          wgConfContent := some s
          clientName :=
            if stem ≠ [] ∧ stem ≠ "wg-obfuscator".toList then stem else st.clientName }
    else .ok st

/-- The loop over the entries, after `count` of them. -/
def scanEntries (env : Externals) (count : Nat) (st : TarScan) :
    List (Except String TarEntry) → Except String TarScan
  | [] => .ok st
  | entry :: entries =>
    if count + 1 > maxTarEntries then
      .error s!"Archive contains too many entries (exceeds limit of {maxTarEntries})"
    else match entry with
      | .error e => .error s!"Corrupted tar entry: {e}"
      | .ok entry =>
        match scanEntry env st entry with
        | .error e => .error e
        | .ok st => scanEntries env (count + 1) st entries

/-- What follows the loop. -/
def buildScanned (env : Externals) (st : TarScan) : Except String PhobosProfile :=
  match st.obfConfContent with
  | none =>
    .error "wg-obfuscator.conf not found inside tar.gz archive. Is this a Phobos package?"
  | some obfConf =>
    match st.wgConfContent with
    | none => .error "WireGuard .conf file not found inside tar.gz archive."
    | some wgConf => combineAndBuild env wgConf obfConf st.clientName

/-- The stem of the file name, a hint at the name of the profile. -/
def FilePath.stem (path : FilePath) : Text := (path.fileName.map fileStem).getD "phobos".toList

variable (host : Host)

def loadFromTarGz (bytes : Bytes) (originalPath : FilePath) : Except String PhobosProfile :=
  let stem := trimEndMatches ".tar".toList originalPath.stem
  let clientName := if "phobos-".toList.isPrefixOf stem then stem.drop "phobos-".length else stem
  match host.tarEntries (host.gunzip bytes) with
  | .error e => .error s!"Failed to read tar.gz entries: {e}"
  | .ok entries =>
    match scanEntries host.toExternals 0 ⟨none, none, clientName⟩ entries with
    | .error e => .error e
    | .ok st => buildScanned host.toExternals st

/-! ## Files -/

/-- The protection is taken off. -/
def unsealed (raw : Bytes) : Except String Bytes :=
  if dpapiMagic.isPrefixOf raw then host.dpapiUnprotect (raw.drop dpapiMagic.length) else .ok raw

def isArchiveName (filename : Text) : Bool :=
  ".tar.gz".toList.isSuffixOf filename || ".tgz".toList.isSuffixOf filename ||
    ".enc".toList.isSuffixOf filename

/-- The attempts at unprotected bytes, in their order. -/
def loadFromBytes (bytes : Bytes) (path : FilePath) : Except String PhobosProfile :=
  let filename := host.casing.toLowercase (path.fileName.getD [])
  let fromTarGz := loadFromTarGz host bytes path
  let fromConf := (Utf8.decode bytes).map fun content =>
    loadFromConfString host.toExternals content path.stem
  -- 1. as tar.gz, when it has such a name
  match isArchiveName filename, fromTarGz with
  | true, .ok profile => .ok profile
  | _, _ =>
    -- 2. as a configuration
    match fromConf with
    | some (.ok profile) => .ok profile
    | _ =>
      -- 3. as tar.gz anyway, then the error of the configuration
      match fromTarGz with
      | .ok profile => .ok profile
      | .error _ =>
        match fromConf with
        | some result => result
        | none =>
          .error s!"File is neither valid tar.gz nor valid UTF-8 conf: {host.utf8Error bytes}"

def loadFromFile (path : FilePath) (file : FileRead) : Except String PhobosProfile :=
  match file with
  | .missing => .error s!"File not found: {path.display}"
  | .openFailed e => .error s!"Failed to open file: {e}"
  | .readFailed e => .error s!"Failed to read file: {e}"
  | .contents raw =>
    match unsealed host raw with
    | .error e => .error e
    | .ok bytes => loadFromBytes host bytes path

/-! ## Names -/

/-- What sanitizing makes: a name that it leaves alone. -/
structure SafeName (name : Text) : Prop where
  safe : ∀ c ∈ name, isSafeChar c = true
  trimmed : Trimmed isTrimmedChar name
  ne_nil : name ≠ []

theorem safeName_sanitizeClientName (raw : Text) : SafeName (sanitizeClientName raw) := by
  simp only [sanitizeClientName]
  split
  · refine ⟨List.all_eq_true.mp (by decide), ⟨?_, ?_⟩, by decide⟩
    · rintro c ⟨⟩
      rfl
    · rintro c ⟨⟩
      rfl
  · next hclean =>
    -- a character of the result is one of the mapped ones
    refine ⟨fun c hc => ?_, trimmed_trimMatches _, fun hnil => hclean (.inl hnil)⟩
    obtain ⟨d, _, rfl⟩ := List.mem_map.mp (trimMatches_subset _ hc)
    split
    · assumption
    · rfl

theorem SafeName.sanitizeClientName_eq {name : Text} (h : SafeName name) :
    sanitizeClientName name = name := by
  have hmap : (name.map fun c => if isSafeChar c then c else '_') = name := by
    refine (List.map_congr_left fun c hc => ?_).trans (List.map_id name)
    exact if_pos (h.safe c hc)
  have hdots : name ≠ "..".toList := by
    rintro rfl
    exact absurd (h.trimmed.head '.' rfl) (by decide)
  simp only [sanitizeClientName, hmap, trimMatches_eq_self h.trimmed]
  rw [if_neg fun hor => hor.elim h.ne_nil hdots]

example : sanitizeClientName "../../etc/passwd".toList = "etc_passwd".toList := by decide

/-- A name that can stand in a path. -/
structure ClientName (name : Text) : Prop where
  ne_nil : name ≠ []
  chars : ∀ c ∈ name, c.isAlphanum = true ∨ c = '-' ∨ c = '_' ∨ c = '.'
  head : ∀ c, name.head? = some c → c ≠ '.' ∧ c ≠ '_'
  last : ∀ c, name.getLast? = some c → c ≠ '.' ∧ c ≠ '_'

theorem isSafeChar_iff (c : Char) :
    isSafeChar c = true ↔ c.isAlphanum = true ∨ c = '-' ∨ c = '_' ∨ c = '.' := by
  simp only [isSafeChar, Bool.or_eq_true, decide_eq_true_eq, or_assoc]

/-- A safe character is no blank, so trimming comes down to dots and underscores. -/
theorem isTrimmedChar_iff {c : Char} (hc : isSafeChar c = true) :
    isTrimmedChar c = false ↔ c ≠ '.' ∧ c ≠ '_' := by
  have hblank : c ≠ ' ' := by
    rintro rfl
    exact absurd hc (by decide)
  simp [isTrimmedChar, hblank]

theorem safeName_iff (name : Text) : SafeName name ↔ ClientName name := by
  constructor
  · intro h
    refine ⟨h.ne_nil, fun c hc => (isSafeChar_iff c).mp (h.safe c hc), fun c hc => ?_,
      fun c hc => ?_⟩
    · exact (isTrimmedChar_iff (h.safe c (List.mem_of_head? hc))).mp (h.trimmed.head c hc)
    · exact (isTrimmedChar_iff (h.safe c (List.mem_of_getLast? hc))).mp (h.trimmed.last c hc)
  · intro h
    have hsafe : ∀ c ∈ name, isSafeChar c = true := fun c hc =>
      (isSafeChar_iff c).mpr (h.chars c hc)
    refine ⟨hsafe, ⟨fun c hc => ?_, fun c hc => ?_⟩, h.ne_nil⟩
    · exact (isTrimmedChar_iff (hsafe c (List.mem_of_head? hc))).mpr (h.head c hc)
    · exact (isTrimmedChar_iff (hsafe c (List.mem_of_getLast? hc))).mpr (h.last c hc)

/-- **What sanitizing makes of any text**: a name of one path component, which it leaves alone,
as it does every other such name. -/
theorem sanitizeClientName_spec (raw : Text) :
    ClientName (sanitizeClientName raw)
      ∧ sanitizeClientName raw ≠ ".".toList ∧ sanitizeClientName raw ≠ "..".toList
      ∧ (∀ c ∈ sanitizeClientName raw, c ≠ '/' ∧ c ≠ '\\' ∧ c ≠ ':')
      ∧ sanitizeClientName (sanitizeClientName raw) = sanitizeClientName raw
      ∧ (ClientName raw → sanitizeClientName raw = raw) := by
  have hsafe := safeName_sanitizeClientName raw
  have hname := (safeName_iff _).mp hsafe
  -- both dotted names begin with a dot
  have hdots : ∀ rest, sanitizeClientName raw ≠ '.' :: rest := by
    intro rest hdot
    rw [hdot] at hname
    exact (hname.head '.' rfl).1 rfl
  refine ⟨hname, hdots _, hdots _, fun c hc => ?_, hsafe.sanitizeClientName_eq,
    fun hraw => ((safeName_iff raw).mpr hraw).sanitizeClientName_eq⟩
  have hc := hsafe.safe c hc
  refine ⟨?_, ?_, ?_⟩
  · rintro rfl
    exact absurd hc (by decide)
  · rintro rfl
    exact absurd hc (by decide)
  · rintro rfl
    exact absurd hc (by decide)

variable {env : Externals} {wgConf obfConf a b : Text} {profile : PhobosProfile}

/-- A profile gets its name sanitized. -/
theorem combineAndBuild_clientName (h : combineAndBuild env wgConf obfConf a = .ok profile) :
    profile.clientName = sanitizeClientName a := by
  simp only [combineAndBuild] at h
  split at h
  · cases h
  · split at h
    · cases h
    · cases h
      rfl

/-- Nothing else depends on the name. -/
theorem combineAndBuild_congr (hname : sanitizeClientName a = sanitizeClientName b) :
    combineAndBuild env wgConf obfConf a = combineAndBuild env wgConf obfConf b := by
  simp only [combineAndBuild, hname]

/-- Building a profile again under its own name gives it again. -/
theorem combineAndBuild_own_name (h : combineAndBuild env wgConf obfConf a = .ok profile) :
    combineAndBuild env wgConf obfConf profile.clientName = .ok profile := by
  rw [← h, combineAndBuild_clientName h]
  exact combineAndBuild_congr (safeName_sanitizeClientName a).sanitizeClientName_eq

/-! ## The name of an archive is found inside it -/

theorem not_conf_nil : ¬ ".conf".toList <:+ env.casing.toLowercase [] := by
  show ¬ ".conf".toList <:+ []
  decide

/-- The stem of a WireGuard configuration in an archive is never one that is passed over. -/
theorem stem_of_conf {name : Text} (hconf : ".conf".toList <:+ env.casing.toLowercase name)
    (hobf : env.casing.toLowercase name ≠ obfuscatorConf) :
    fileStem name ≠ [] ∧ fileStem name ≠ "wg-obfuscator".toList := by
  have hascii : ∀ c ∈ "wg-obfuscator".toList, c.toNat < 128 := Char.ascii_of_all (by decide)
  rcases fileStem_cases name with hself | ⟨hne, after, hname, hafter⟩
  · rw [hself]
    constructor <;> rintro rfl
    · exact not_conf_nil hconf
    · -- without an extension there is no suffix `.conf`
      have hlower := CaseData.lowerFrom_ascii (u := env.casing) hascii [] []
      rw [List.append_nil, show env.casing.lowerFrom _ [] = [] from rfl] at hlower
      rw [CaseData.toLowercase, hlower] at hconf
      exact absurd hconf (by decide)
  · refine ⟨hne, fun hstem => hobf ?_⟩
    -- the lower case splits at its last dot as the name does
    have hlower : env.casing.toLowercase name = "wg-obfuscator".toList ++ '.' ::
        env.casing.lowerFrom ("wg-obfuscator.".toList.reverse) after := by
      have hdot : ∀ c ∈ "wg-obfuscator.".toList, c.toNat < 128 :=
        Char.ascii_of_all (by decide)
      rw [hname, hstem, CaseData.toLowercase]
      exact CaseData.lowerFrom_ascii hdot [] after
    obtain ⟨front, hfront⟩ := hconf
    have hsplit : splitLastDot (front ++ '.' :: "conf".toList) = some (front, "conf".toList) :=
      splitLastDot_append (by decide)
    rw [show front ++ '.' :: "conf".toList = _ from hfront, hlower,
      splitLastDot_append fun h => hafter (CaseData.dot_mem_lowerFrom h)] at hsplit
    rw [hlower, (Prod.mk.inj (Option.some.inj hsplit)).2]
    rfl

/-- Two scans that have found the same configurations, and the same name once they have found
a WireGuard configuration. -/
structure Alike (s t : TarScan) : Prop where
  obfConf : s.obfConfContent = t.obfConfContent
  wgConf : s.wgConfContent = t.wgConfContent
  clientName : s.wgConfContent ≠ none → s.clientName = t.clientName

theorem Alike.scanEntry {s t s' : TarScan} (h : Alike s t) {entry : TarEntry}
    (hs : scanEntry env s entry = .ok s') :
    ∃ t', Phobos.scanEntry env t entry = .ok t' ∧ Alike s' t' := by
  simp only [Phobos.scanEntry] at hs ⊢
  cases hpath : entry.path with
  | error e => rw [hpath] at hs; cases hs
  | ok fileName =>
    simp only [hpath] at hs ⊢
    split at hs
    · next hobf =>
      rw [if_pos hobf]
      cases hread : readToString maxConfEntrySize entry.body with
      | error e => rw [hread] at hs; cases hs
      | ok text =>
        rw [hread] at hs
        cases hs
        exact ⟨_, rfl, rfl, h.wgConf, h.clientName⟩
    · next hobf =>
      rw [if_neg hobf]
      split at hs
      · next hconf =>
        rw [if_pos hconf]
        cases hread : readToString maxConfEntrySize entry.body with
        | error e => rw [hread] at hs; cases hs
        | ok text =>
          rw [hread] at hs
          cases hs
          -- the stem takes the place of both names
          have hstem : (fileName.map fileStem).getD [] ≠ [] ∧
              (fileName.map fileStem).getD [] ≠ "wg-obfuscator".toList := by
            have hsuffix := List.isSuffixOf_iff_suffix.mp hconf
            cases fileName with
            | none => exact absurd hsuffix not_conf_nil
            | some name => exact stem_of_conf hsuffix hobf
          exact ⟨_, rfl, h.obfConf, rfl, fun _ => by simp only [if_pos hstem]⟩
      · next hconf =>
        cases hs
        exact ⟨t, if_neg hconf, h⟩

/-- Induction on the entries. -/
theorem Alike.scanEntries {s t s' : TarScan} (h : Alike s t) {count : Nat}
    {entries : List (Except String TarEntry)}
    (hs : scanEntries env count s entries = .ok s') :
    ∃ t', Phobos.scanEntries env count t entries = .ok t' ∧ Alike s' t' := by
  induction entries generalizing count s t with
  | nil => cases hs; exact ⟨t, rfl, h⟩
  | cons entry entries ih =>
    unfold Phobos.scanEntries at hs ⊢
    split at hs
    · cases hs
    · next hcount =>
      rw [if_neg hcount]
      cases entry with
      | error e => cases hs
      | ok entry =>
        simp only at hs ⊢
        cases hentry : Phobos.scanEntry env s entry with
        | error e => rw [hentry] at hs; cases hs
        | ok s₁ =>
          rw [hentry] at hs
          obtain ⟨t₁, ht₁, h₁⟩ := h.scanEntry hentry
          rw [ht₁]
          exact ih h₁ hs

/-- Scans that are alike are built alike. -/
theorem Alike.buildScanned {s t : TarScan} (h : Alike s t)
    (hs : buildScanned env s = .ok profile) : Phobos.buildScanned env t = .ok profile := by
  unfold Phobos.buildScanned at hs ⊢
  rw [← h.obfConf, ← h.wgConf]
  cases hobf : s.obfConfContent with
  | none => rw [hobf] at hs; cases hs
  | some obfConf =>
    rw [hobf] at hs
    cases hwg : s.wgConfContent with
    | none => rw [hwg] at hs; cases hs
    | some wgConf =>
      rw [hwg] at hs
      rw [← h.clientName (by rw [hwg]; exact Option.some_ne_none _)]
      exact hs

variable {host}

/-- **A profile in an archive does not depend on the path of the archive.** -/
theorem loadFromTarGz_path {bytes : Bytes} {path : FilePath}
    (h : loadFromTarGz host bytes path = .ok profile) (path' : FilePath) :
    loadFromTarGz host bytes path' = .ok profile := by
  simp only [loadFromTarGz] at h ⊢
  cases hentries : host.tarEntries (host.gunzip bytes) with
  | error e => rw [hentries] at h; cases h
  | ok entries =>
    simp only [hentries] at h ⊢
    split at h
    · cases h
    · next st hscan =>
      have hinit : ∀ name name', Alike ⟨none, none, name⟩ ⟨none, none, name'⟩ :=
        fun name name' => ⟨rfl, rfl, fun hne => absurd rfl hne⟩
      obtain ⟨st', hscan', halike⟩ := (hinit _ _).scanEntries hscan
      rw [hscan']
      exact halike.buildScanned h

theorem buildScanned_ok {st : TarScan} (h : buildScanned env st = .ok profile) :
    ∃ wgConf obfConf, combineAndBuild env wgConf obfConf st.clientName = .ok profile := by
  unfold buildScanned at h
  split at h
  · cases h
  · split at h
    · cases h
    · exact ⟨_, _, h⟩

theorem loadFromTarGz_safeName {bytes : Bytes} {path : FilePath}
    (h : loadFromTarGz host bytes path = .ok profile) : SafeName profile.clientName := by
  simp only [loadFromTarGz] at h
  split at h
  · cases h
  · split at h
    · cases h
    · obtain ⟨_, _, hbuild⟩ := buildScanned_ok h
      rw [combineAndBuild_clientName hbuild]
      exact safeName_sanitizeClientName _

/-- What loads as an archive is not a text. -/
theorem decode_of_tarGz {bytes : Bytes} {path : FilePath}
    (h : loadFromTarGz host bytes path = .ok profile) : Utf8.decode bytes = none := by
  by_cases hmagic : gzipMagic <+: bytes
  · obtain ⟨rest, rfl⟩ := hmagic
    exact Utf8.decode_stray (by decide) (by decide) rest
  · obtain ⟨e, hgunzip⟩ := host.gunzip_rejects bytes hmagic
    obtain ⟨e', rest, hentries⟩ := host.tarEntries_unreadable e
    simp only [loadFromTarGz, hgunzip, hentries] at h
    cases h

/-! ## Loading a file -/

theorem ok_of_toOption {ε α : Type*} {result : Except ε α} {a : α}
    (h : result.toOption = some a) : result = .ok a := by
  cases result with
  | ok b =>
    cases h
    rfl
  | error e => cases h

/-- The order of the attempts does not matter: at most one of them can succeed. -/
theorem loadFromBytes_ok_iff {bytes : Bytes} {path : FilePath} :
    loadFromBytes host bytes path = .ok profile ↔
      loadFromTarGz host bytes path = .ok profile ∨ ∃ content,
        Utf8.decode bytes = some content ∧
        loadFromConfString host.toExternals content path.stem = .ok profile := by
  simp only [loadFromBytes]
  cases htar : loadFromTarGz host bytes path with
  | ok p =>
    rw [decode_of_tarGz htar]
    cases isArchiveName (host.casing.toLowercase (path.fileName.getD [])) <;> simp
  | error e =>
    cases hdecode : Utf8.decode bytes with
    | none =>
      cases isArchiveName (host.casing.toLowercase (path.fileName.getD [])) <;> simp
    | some content =>
      cases hconf : loadFromConfString host.toExternals content path.stem <;>
      cases isArchiveName (host.casing.toLowercase (path.fileName.getD [])) <;> simp [hconf]

/-- A loaded profile has a safe name. -/
theorem loadFromBytes_safeName {bytes : Bytes} {path : FilePath}
    (h : loadFromBytes host bytes path = .ok profile) : SafeName profile.clientName := by
  rcases loadFromBytes_ok_iff.mp h with htar | ⟨content, _, hconf⟩
  · exact loadFromTarGz_safeName htar
  · rw [combineAndBuild_clientName hconf]
    exact safeName_sanitizeClientName _

/-- **Loading again under the name of the profile.** -/
theorem loadFromBytes_own_name {bytes : Bytes} {path path' : FilePath}
    (h : loadFromBytes host bytes path = .ok profile) (hpath : path'.stem = profile.clientName) :
    loadFromBytes host bytes path' = .ok profile := by
  rcases loadFromBytes_ok_iff.mp h with htar | ⟨content, hdecode, hconf⟩
  · exact loadFromBytes_ok_iff.mpr (.inl (loadFromTarGz_path htar path'))
  · refine loadFromBytes_ok_iff.mpr (.inr ⟨content, hdecode, ?_⟩)
    rw [hpath]
    exact combineAndBuild_own_name hconf

end Phobos
