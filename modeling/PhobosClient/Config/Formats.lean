import PhobosClient.Config.Again
import PhobosClient.Config.Instance
import PhobosClient.Config.Package

/-!
# PhobosClient — two formats of a package (`src/archive.rs`)

A profile comes as an archive with two configurations in it, or as one text with the sections of
both. The text is split by `split_merged_conf`, and from there on both are built in the same way.

**`readSections_splitMergedConf`**: the split keeps every section whole and in order, those of the
obfuscator in one half and the others, behind what comes before the first header, in the other.
What the readers of both halves make of them depends on the sections only, so
**`merged_agrees`**: an archive and a merged text with the same sections load as the same profile,
up to its name, which the files give, and to blank lines and line ends in the two texts that it
keeps.
-/

namespace Phobos

open Text

/-! ## The split, by sections -/

/-- A section that goes to the half of the obfuscator. -/
def ConfSection.isObf (s : ConfSection) : Bool :=
  s.named "instance".toList || s.named "socks5".toList

/-- The splitter trims its lines itself. -/
theorem splitFlag_trim (inInstance : Bool) (l : Text) :
    splitFlag inInstance (trim l) = splitFlag inInstance l := by
  rw [splitFlag, splitFlag, trim_trim]

/-- A blank line changes nothing. -/
theorem splitFlag_nil (inInstance : Bool) : splitFlag inInstance [] = inInstance := by
  cases inInstance <;> rfl

theorem content_cons_nil {l : Text} (hblank : trim l = []) (ls : List Text) :
    content (l :: ls) = content ls := by
  rw [content_cons, hblank]
  rfl

theorem content_cons_line {l : Text} (hblank : trim l ≠ []) (ls : List Text) :
    content (l :: ls) = trim l :: content ls := by
  rw [content_cons, if_neg]
  rwa [List.isEmpty_iff]

/-- Splitting lines and leaving blank ones out: the order does not matter. -/
theorem content_splitLines (inInstance : Bool) (ls : List Text) :
    splitLines inInstance (content ls)
      = (content (splitLines inInstance ls).1, content (splitLines inInstance ls).2) := by
  induction ls generalizing inInstance with
  | nil => rfl
  | cons l ls ih =>
    by_cases hblank : trim l = []
    · -- a blank line goes to the half of the line before it, and is lost in either
      have hflag : splitFlag inInstance l = inInstance := by
        rw [← splitFlag_trim, hblank, splitFlag_nil]
      rw [content_cons_nil hblank, ih]
      cases inInstance with
      | true => rw [splitLines_obf hflag, content_cons_nil hblank]
      | false => rw [splitLines_wg hflag, content_cons_nil hblank]
    · rw [content_cons_line hblank]
      cases hflag : splitFlag inInstance l with
      | true =>
        rw [splitLines_obf hflag, splitLines_obf ((splitFlag_trim _ _).trans hflag), ih,
          content_cons_line hblank]
      | false =>
        rw [splitLines_wg hflag, splitLines_wg ((splitFlag_trim _ _).trans hflag), ih,
          content_cons_line hblank]

/-- Lines without a header stay in the half that they are in. -/
theorem splitLines_body {body : List Text} (hclean : Clean body)
    (hbody : ∀ l ∈ body, sectionHeader l = none) (inInstance : Bool) (rest : List Text) :
    splitLines inInstance (body ++ rest)
      = if inInstance then ((splitLines true rest).1, body ++ (splitLines true rest).2)
        else (body ++ (splitLines false rest).1, (splitLines false rest).2) := by
  induction body with
  | nil => cases inInstance <;> rfl
  | cons l ls ih =>
    obtain ⟨hl, hls⟩ := List.forall_mem_cons.mp hbody
    have hrest := ih (fun m hm => hclean m (List.mem_cons_of_mem _ hm)) hls
    -- no line of a body is a header
    have hflag : splitFlag inInstance l = inInstance := by
      rw [← splitFlag_trim, (hclean l List.mem_cons_self).1, splitFlag,
        (hclean l List.mem_cons_self).1, hl]
    rw [List.cons_append]
    cases inInstance with
    | true => rw [splitLines_obf hflag, hrest]; rfl
    | false => rw [splitLines_wg hflag, hrest]; rfl

/-- A header decides which half the lines behind it go to. -/
theorem splitFlag_sectionHeader {s : ConfSection} (htrim : trim s.header = s.header)
    (hheader : (sectionHeader s.header).isSome = true) (inInstance : Bool) :
    splitFlag inInstance s.header = s.isObf := by
  obtain ⟨sec, hsec⟩ := Option.isSome_iff_exists.mp hheader
  rw [splitFlag_header (by rw [htrim, hsec]), ConfSection.isObf, ConfSection.named,
    ConfSection.named, hsec]

theorem sectionLines_cons (s : ConfSection) (secs : List ConfSection) :
    sectionLines (s :: secs) = s.header :: (s.body ++ sectionLines secs) := rfl

/-- Every section goes to its half. -/
theorem splitLines_sectionLines {secs : List ConfSection} (hclean : Clean (sectionLines secs))
    (hheader : ∀ s ∈ secs, (sectionHeader s.header).isSome = true)
    (hbody : ∀ s ∈ secs, ∀ l ∈ s.body, sectionHeader l = none) (inInstance : Bool) :
    splitLines inInstance (sectionLines secs)
      = (sectionLines (secs.filter fun s => !s.isObf),
        sectionLines (secs.filter ConfSection.isObf)) := by
  induction secs generalizing inInstance with
  | nil => rfl
  | cons s secs ih =>
    obtain ⟨hs, hsecs⟩ := List.forall_mem_cons.mp hheader
    obtain ⟨hlines, hrest⟩ := List.forall_mem_cons.mp hbody
    rw [sectionLines_cons] at hclean
    obtain ⟨⟨htrim, -⟩, hclean⟩ := List.forall_mem_cons.mp hclean
    obtain ⟨hcleanBody, hcleanRest⟩ := List.forall_mem_append.mp hclean
    -- a section goes to one half as a whole
    have hflag := splitFlag_sectionHeader htrim hs inInstance
    have hsplit := ih hcleanRest hsecs hrest
    rw [sectionLines_cons]
    cases hobf : s.isObf with
    | true =>
      rw [splitLines_obf (hflag.trans hobf), splitLines_body hcleanBody hlines, if_pos rfl, hsplit,
        List.filter_cons_of_neg (by rw [hobf]; decide), List.filter_cons_of_pos hobf]
      rfl
    | false =>
      rw [splitLines_wg (hflag.trans hobf), splitLines_body hcleanBody hlines,
        if_neg Bool.false_ne_true, hsplit, List.filter_cons_of_pos (by rw [hobf]; rfl),
        List.filter_cons_of_neg (by rw [hobf]; decide)]
      rfl

/-- **The split takes a configuration apart by its sections.** -/
theorem readSections_splitMergedConf (conf : Text) :
    readSections (splitMergedConf conf).1
        = ((readSections conf).1, (readSections conf).2.filter fun s => !s.isObf)
      ∧ readSections (splitMergedConf conf).2
        = ([], (readSections conf).2.filter ConfSection.isObf) := by
  have hwg : ∀ l ∈ (splitLines false (lines conf)).1, '\n' ∉ l :=
    fun l hl => newline_not_mem_lines (mem_splitLines (.inl hl))
  have hobf : ∀ l ∈ (splitLines false (lines conf)).2, '\n' ∉ l :=
    fun l hl => newline_not_mem_lines (mem_splitLines (.inr hl))
  have hgrouped : Grouped (readSections conf).1 (readSections conf).2 := grouped_sectionsOf _
  have hclean : Clean ((readSections conf).1 ++ sectionLines (readSections conf).2) :=
    readSections_lines conf ▸ clean_content (lines conf)
  obtain ⟨hfront, hlines⟩ := List.forall_mem_append.mp hclean
  -- the lines in front of the first header belong to WireGuard
  have hsplit : (content (splitLines false (lines conf)).1,
      content (splitLines false (lines conf)).2)
      = ((readSections conf).1 ++ sectionLines ((readSections conf).2.filter fun s => !s.isObf),
        sectionLines ((readSections conf).2.filter ConfSection.isObf)) := by
    rw [← content_splitLines, ← readSections_lines, splitLines_body hfront hgrouped.front,
      if_neg Bool.false_ne_true, splitLines_sectionLines hlines hgrouped.header hgrouped.body]
  obtain ⟨hfst, hsnd⟩ := Prod.mk.inj hsplit
  -- a choice of the sections is made of sections
  have hsub : ∀ keep : ConfSection → Bool, Grouped (readSections conf).1
      ((readSections conf).2.filter keep) := fun keep =>
    ⟨hgrouped.front, fun s hs => hgrouped.header s (List.mem_filter.mp hs).1,
      fun s hs => hgrouped.body s (List.mem_filter.mp hs).1⟩
  constructor
  · show sectionsOf (content (lines (join "\n".toList (splitLines false (lines conf)).1))) = _
    rw [content_lines_joinLf hwg, hfst]
    exact sectionsOf_append_sectionLines (hsub _)
  · show sectionsOf (content (lines (join "\n".toList (splitLines false (lines conf)).2))) = _
    rw [content_lines_joinLf hobf, hsnd]
    exact sectionsOf_append_sectionLines
      ⟨List.forall_mem_nil _, (hsub _).header, (hsub _).body⟩

/-! ## What is built from the halves -/

theorem scanLine_trims (env : Externals) :
    Trims fun st l => (.ok (scanLine env st l) : Except Empty _) where
  trim := by
    intro st l
    simp only [scanLine, trim_trim]
  blank := fun _ => rfl

/-- The settings of the obfuscator depend on the sections only. -/
theorem parseInstanceSection_congr {env : Externals} {conf conf' : Text}
    (h : readSections conf = readSections conf') :
    parseInstanceSection env conf = parseInstanceSection env conf' := by
  have hcontent : content (lines conf) = content (lines conf') := by
    rw [← readSections_lines, h, readSections_lines]
  have hcollect : collectInstance env conf = collectInstance env conf' := by
    rw [collectInstance, ← instanceLine_trims.foldl_content, hcontent,
      instanceLine_trims.foldl_content, collectInstance]
  have hscan : (lines conf).foldl (scanLine env) ∅ = (lines conf').foldl (scanLine env) ∅ := by
    rw [← (scanLine_trims env).foldl_content, hcontent, (scanLine_trims env).foldl_content]
  simp only [parseInstanceSection, hcollect]
  split
  · next hempty => rw [hempty, hscan]
  · rfl

/-- The same profile, up to its name and to how the two texts that it keeps are laid out. -/
structure SameProfile (env : Externals) (p q : PhobosProfile) : Prop where
  settings : { p with
    clientName := q.clientName
    rawWgConf := q.rawWgConf
    readyWgConfContent := q.readyWgConfContent } = q
  raw : readSections p.rawWgConf = readSections q.rawWgConf
  ready : readSections p.readyWgConfContent = readSections q.readyWgConfContent
  parsed : WireGuardConfig.parse env p.rawWgConf = WireGuardConfig.parse env q.rawWgConf

/-- The same profile, or the same error. -/
inductive SameResult (env : Externals) :
    Except String PhobosProfile → Except String PhobosProfile → Prop where
  | ok {p q : PhobosProfile} (h : SameProfile env p q) : SameResult env (.ok p) (.ok q)
  | error (e : String) : SameResult env (.error e) (.error e)

/-- Texts with the same sections have the same result, name apart. -/
theorem combineAndBuild_same {env : Externals} {wg wg' obf obf' : Text}
    (hwg : readSections wg = readSections wg') (hobf : readSections obf = readSections obf')
    (name name' : Text) :
    SameResult env (combineAndBuild env wg obf name) (combineAndBuild env wg' obf' name') := by
  simp only [combineAndBuild, parseInstanceSection_congr hobf]
  cases (parseInstanceSection env obf').lookup "target".toList with
  | none => exact .error _
  | some target =>
    cases (parseInstanceSection env obf').lookup "key".toList with
    | none => exact .error _
    | some key =>
      refine .ok ⟨rfl, hwg, ?_, parse_congr hwg⟩
      show readSections (rewriteEndpointToLoopback env wg _)
        = readSections (rewriteEndpointToLoopback env wg' _)
      rw [readSections_rewrite, readSections_rewrite, hwg]

/-! ## The two formats -/

/-- The merged text has the sections of both configurations of the package, each in their order. -/
structure Merges (content : Text) (obf wg : StoredEntry) : Prop where
  wg : readSections wg.text
    = ((readSections content).1, (readSections content).2.filter fun s => !s.isObf)
  obf : readSections obf.text = ([], (readSections content).2.filter ConfSection.isObf)

/-- A merged text loads as the package does. -/
theorem loadFromConfString_same {host : Host} {bytes : Bytes} {entries : List StoredEntry}
    {obf wg : StoredEntry} {content : Text} (hstores : Stores host bytes entries)
    (hpackage : Package host.toExternals entries obf wg) (hmerges : Merges content obf wg)
    (path : FilePath) (name : Text) : SameResult host.toExternals (loadFromTarGz host bytes path)
      (loadFromConfString host.toExternals content name) := by
  obtain ⟨hwg, hobf⟩ := readSections_splitMergedConf content
  rw [loadFromTarGz_stored hstores hpackage]
  exact combineAndBuild_same (hmerges.wg.trans hwg.symm) (hmerges.obf.trans hobf.symm) _ _

/-- What the readers of archives can read is not a text. -/
theorem decode_of_stores {host : Host} {bytes : Bytes} {entries : List StoredEntry}
    (hstores : Stores host bytes entries) : Utf8.decode bytes = none := by
  by_cases hmagic : gzipMagic <+: bytes
  · obtain ⟨rest, rfl⟩ := hmagic
    exact Utf8.decode_stray (by decide) (by decide) rest
  · obtain ⟨e, hgunzip⟩ := host.gunzip_rejects bytes hmagic
    obtain ⟨e', rest, hentries⟩ := host.tarEntries_unreadable e
    rw [Stores, hgunzip, hentries] at hstores
    cases entries with
    | nil => cases hstores
    | cons entry entries => cases hstores

/-- The same profile, named after the configuration in the archive and after the merged file. -/
structure SameButName (env : Externals) (wg : StoredEntry) (path : FilePath)
    (p q : PhobosProfile) : Prop where
  same : SameProfile env p q
  archived : p.clientName = sanitizeClientName wg.stem
  merged : q.clientName = sanitizeClientName path.stem

/-- **An archive and a merged text load as the same profile**, apart from the name: the one is
called after the configuration in the archive, the other after the merged file. -/
theorem merged_agrees {host : Host} {bytes bytes' : Bytes} {entries : List StoredEntry}
    {obf wg : StoredEntry} {content : Text} (path path' : FilePath)
    (hstores : Stores host bytes entries) (hpackage : Package host.toExternals entries obf wg)
    (hmerges : Merges content obf wg) (hdecode : Utf8.decode bytes' = some content) :
    (∀ p, loadFromBytes host bytes path = .ok p →
        ∃ q, loadFromBytes host bytes' path' = .ok q
          ∧ SameButName host.toExternals wg path' p q)
      ∧ ∀ q, loadFromBytes host bytes' path' = .ok q →
        ∃ p, loadFromBytes host bytes path = .ok p
          ∧ SameButName host.toExternals wg path' p q := by
  have hsame := loadFromConfString_same hstores hpackage hmerges path path'.stem
  have hstored := loadFromTarGz_stored hstores hpackage path
  -- what each of the two is called
  have hnames : ∀ p q, loadFromTarGz host bytes path = .ok p →
      loadFromConfString host.toExternals content path'.stem = .ok q →
      SameProfile host.toExternals p q → SameButName host.toExternals wg path' p q := by
    intro p q hp hq h
    exact ⟨h, combineAndBuild_clientName (hstored.symm.trans hp), combineAndBuild_clientName hq⟩
  constructor
  · intro p hp
    have htar : loadFromTarGz host bytes path = .ok p := by
      rcases loadFromBytes_ok_iff.mp hp with htar | ⟨_, hbytes, -⟩
      · exact htar
      · rw [decode_of_stores hstores] at hbytes
        cases hbytes
    rw [htar] at hsame
    cases hresult : loadFromConfString host.toExternals content path'.stem with
    | error e =>
      rw [hresult] at hsame
      cases hsame
    | ok q =>
      rw [hresult] at hsame
      cases hsame with
      | ok h =>
        exact ⟨q, loadFromBytes_ok_iff.mpr (.inr ⟨content, hdecode, hresult⟩),
          hnames p q htar hresult h⟩
  · intro q hq
    have hconf : loadFromConfString host.toExternals content path'.stem = .ok q := by
      rcases loadFromBytes_ok_iff.mp hq with htar | ⟨content', hdecode', hconf⟩
      · rw [decode_of_tarGz htar] at hdecode
        cases hdecode
      · rw [hdecode] at hdecode'
        cases hdecode'
        exact hconf
    rw [hconf] at hsame
    cases hresult : loadFromTarGz host bytes path with
    | error e =>
      rw [hresult] at hsame
      cases hsame
    | ok p =>
      rw [hresult] at hsame
      cases hsame with
      | ok h => exact ⟨p, loadFromBytes_ok_iff.mpr (.inl hresult), hnames p q hresult hconf h⟩

/-- The sample package in one text, the other way round and with blank lines. -/
def mergedOffice : Text := "\n[instance]\n target=a\r\n\nkey=k\n[Interface]\n".toList

theorem merges_mergedOffice : Merges mergedOffice sampleObf sampleWg where
  wg := by
    rw [show sampleWg.text = "[Interface]".toList from
      congrArg (Option.getD · []) (Utf8.decode_encode _)]
    rfl
  obf := by
    rw [show sampleObf.text = "[instance]\ntarget=a\nkey=k".toList from
      congrArg (Option.getD · []) (Utf8.decode_encode _)]
    rfl

/-- A package, and the two configurations in one text. -/
theorem merged_agrees_office : ∃ p q : PhobosProfile,
    loadFromBytes packageHost (sampleArchive true) ⟨"a.tgz", some "a.tgz".toList⟩ = .ok p
    ∧ loadFromBytes packageHost (Utf8.encode mergedOffice) ⟨"b.conf", some "b.conf".toList⟩ = .ok q
    ∧ q.target = "a".toList
    ∧ SameButName packageHost.toExternals sampleWg ⟨"b.conf", some "b.conf".toList⟩ p q := by
  have hload : (loadFromBytes packageHost (Utf8.encode mergedOffice)
      ⟨"b.conf", some "b.conf".toList⟩).toOption.any
        (fun q => decide (q.target = "a".toList)) = true := by decide +kernel
  obtain ⟨q, hq, htarget⟩ := (Option.any_eq_true _ _).mp hload
  have hq := ok_of_toOption hq
  have hagrees := merged_agrees ⟨"a.tgz", some "a.tgz".toList⟩
    ⟨"b.conf", some "b.conf".toList⟩ (stores_sampleArchive true)
    (package_sampleEntries true) merges_mergedOffice (Utf8.decode_encode _)
  obtain ⟨p, hp, hsame⟩ := hagrees.2 q hq
  exact ⟨p, q, hp, hq, of_decide_eq_true htarget, hsame⟩

end Phobos
