import PhobosClient.Config.Sections
import PhobosClient.Lib.Cidr

/-!
# PhobosClient — what the loopback configuration says (`src/archive.rs`)

The rewritten configuration is read by WireGuard, which then must talk to the relay on this
machine and nobody else. **`rewrite_sections`** states that of its sections, entry by entry,
and that nothing else has changed.

An entry is what `WireGuardConfig::parse` takes for one, a line with `=` that is no comment
(`parseLine_entry`). The rewriting tests how a line starts instead; `startsLower_of_entry` is
what makes that enough.
-/

namespace Phobos

open Text CaseData

variable (env : Externals) (localPort : BitVec 16)

/-- The key, in lower case, and the value of a trimmed line. -/
def entry (l : Text) : Option (Text × Text) :=
  if isSkipped l then none
  else (splitOnce '=' l).map fun (k, v) => (env.casing.toLowercase (trim k), trim v)

/-- The address the relay listens on. -/
def loopbackEndpoint : Text := "127.0.0.1:".toList ++ (toString localPort.toNat).toList

/-- The line of a section is replaced as a whole. -/
def ConfSection.replaces (s : ConfSection) (l : Text) : Bool :=
  s.isInterface && startsLower env "mtu".toList l || s.isPeer && startsLower env "endpoint".toList l

/-- The lines of a section that are not. -/
def ConfSection.kept (s : ConfSection) : List Text := s.body.filter fun l => !s.replaces env l

/-- All lines but these. -/
def keptLines (conf : List Text × List ConfSection) : List Text :=
  conf.1 ++ conf.2.flatMap fun s => s.header :: s.kept env

/-- A kept line after the rewriting. -/
def ConfSection.splitLine (s : ConfSection) (l : Text) : Text :=
  if s.isPeer && startsLower env "allowedips".toList l then trim (splitDefaultRoutes l) else l

variable {env} {localPort} {p l k v : Text}

/-! ## Entries and the start of a line -/

/-- What the parser does with a line: it looks at the entry, by the section it is in. -/
theorem parseLine_entry (st : ParseState) (hheader : sectionHeader (trim l) = none) :
    parseLine env st l = match entry env (trim l) with
      | some (key, val) =>
        if st.inInterface then interfaceKey env st key val
        else if st.inPeer then peerKey env st key val
        else .ok st
      | none => .ok st := by
  simp only [parseLine, hheader, entry]
  cases isSkipped (trim l) with
  | true => rfl
  | false => cases splitOnce '=' (trim l) <;> rfl

/-- A line whose entry has a plain key starts with it. -/
theorem hasKey_of_entry (hp : plain p = true) (h : entry env l = some (p, v)) : HasKey p l := by
  unfold entry at h
  split at h
  · cases h
  · obtain ⟨⟨k, v'⟩, hsplit, heq⟩ := Option.map_eq_some_iff.mp h
    have hkey : env.casing.toLowercase (trim k) = p := (Prod.mk.inj heq).1
    obtain ⟨q, r, htrim, hmap, hq⟩ := prefix_lower hp [] (trim k)
      (show p <+: env.casing.lowerFrom [] (trim k) from hkey ▸ List.prefix_refl _)
    -- the key stands behind the blanks that trimming takes off
    obtain ⟨ws, ws', hk, hws, -⟩ := exists_trim k
    refine ⟨ws, q, r ++ ws' ++ '=' :: v', ?_, hws, hmap, hq⟩
    rw [(splitOnce_eq_some hsplit).1]
    conv_lhs => rw [hk, htrim]
    simp

theorem startsLower_of_hasKey (hp : p ≠ []) (h : HasKey p l) :
    startsLower env p (trim l) = true := by
  obtain ⟨q, r, hl, -, hmap, hq⟩ := h.trim hp
  rw [startsLower, hl, toLowercase,
    lowerFrom_ascii (fun c hc => Char.toNat_lt_of_isAlpha (hq c hc)), hmap]
  exact List.isPrefixOf_iff_prefix.mpr (List.prefix_append _ _)

theorem startsLower_of_entry (hp : plain p = true) (hne : p ≠ []) (htrim : trim l = l)
    (h : entry env l = some (p, v)) : startsLower env p l = true :=
  htrim ▸ startsLower_of_hasKey hne (hasKey_of_entry hp h)

/-- A line starts with one of two words with different first letters at most. -/
theorem startsLower_ne {q : Text} (hp : p ≠ []) (hq : q ≠ []) (hhead : p.head? ≠ q.head?)
    (h : startsLower env p l = true) : startsLower env q l = false := by
  rw [← Bool.not_eq_true]
  intro h'
  have hpre := List.isPrefixOf_iff_prefix.mp h
  have hpre' := List.isPrefixOf_iff_prefix.mp h'
  cases p with
  | nil => exact hp rfl
  | cons c cs =>
    cases q with
    | nil => exact hq rfl
    | cons d ds =>
      -- the first letter of the line would have to be both
      cases hlower : env.casing.toLowercase l with
      | nil => rw [hlower] at hpre; exact absurd (List.prefix_nil.mp hpre) (List.cons_ne_nil _ _)
      | cons e es =>
        rw [hlower] at hpre hpre'
        exact hhead (congrArg some ((List.cons_prefix_cons.mp hpre).1.trans
          (List.cons_prefix_cons.mp hpre').1.symm))

theorem toLowercase_ascii {q : Text} (hq : ∀ c ∈ q, c.toNat < 128) :
    env.casing.toLowercase q = q.map Char.toLower := by
  have h := lowerFrom_ascii (u := env.casing) hq [] []
  rwa [List.append_nil, show env.casing.lowerFrom (q.reverse ++ []) [] = [] from rfl,
    List.append_nil] at h

theorem entry_of_splitOnce (hskip : isSkipped l = false) (hsplit : splitOnce '=' l = some (k, v)) :
    entry env l = some (env.casing.toLowercase (trim k), trim v) := by
  rw [entry, hskip, hsplit]
  rfl

theorem entry_mtuLine : entry env mtuLine = some ("mtu".toList, "1280".toList) := by
  have hsplit : splitOnce '=' mtuLine = some ("MTU ".toList, " 1280".toList) := by decide
  rw [entry_of_splitOnce (by decide) hsplit, show trim "MTU ".toList = "MTU".toList by decide,
    toLowercase_ascii (Char.ascii_of_all (by decide)),
    show "MTU".toList.map Char.toLower = "mtu".toList by decide,
    show trim " 1280".toList = "1280".toList by decide]

/-- The value of the line that the rewriting writes: it ends with a digit of the port. -/
theorem entry_endpointLine : entry env (endpointLine localPort)
    = some ("endpoint".toList, loopbackEndpoint localPort) := by
  have hline : endpointLine localPort = "Endpoint ".toList ++ '=' :: (" ".toList
      ++ loopbackEndpoint localPort) := by
    unfold endpointLine loopbackEndpoint
    rw [show "Endpoint = 127.0.0.1:".toList
      = "Endpoint ".toList ++ '=' :: (" ".toList ++ "127.0.0.1:".toList) by decide]
    simp only [List.append_assoc, List.cons_append]
  have hsplit : splitOnce '=' (endpointLine localPort)
      = some ("Endpoint ".toList, " ".toList ++ loopbackEndpoint localPort) := by
    rw [hline, splitOnce_append (by decide), splitOnce, if_pos rfl]
    rfl
  have hskip : isSkipped (endpointLine localPort) = false := by
    rw [hline]
    rfl
  -- neither end of the address is blank
  have htrim : trim (loopbackEndpoint localPort) = loopbackEndpoint localPort := by
    refine trim_eq_self_iff.mpr ⟨fun c hc => ?_, fun c hc => ?_⟩
    · cases hc
      decide
    · refine (trim_eq_self_iff.mp (@trim_endpointLine localPort)).last c ?_
      rw [hline, List.getLast?_append, List.getLast?_cons, List.getLast?_append, hc]
      rfl
  rw [entry_of_splitOnce hskip hsplit, trim_append_front (List.all_eq_true.mp (by decide)), htrim,
    show trim "Endpoint ".toList = "Endpoint".toList by decide,
    toLowercase_ascii (Char.ascii_of_all (by decide)),
    show "Endpoint".toList.map Char.toLower = "endpoint".toList by decide]

/-! ## The written lines -/

theorem startsLower_mtuLine : startsLower env "mtu".toList mtuLine = true := by
  have h : startsLower env "mtu".toList (trim mtuLine) = true :=
    startsLower_of_hasKey (by decide) hasKey_mtuLine
  rwa [show trim mtuLine = mtuLine by decide] at h

theorem startsLower_endpointLine :
    startsLower env "endpoint".toList (endpointLine localPort) = true := by
  have h : startsLower env "endpoint".toList (trim (endpointLine localPort)) = true :=
    startsLower_of_hasKey (by decide) hasKey_endpointLine
  rwa [trim_endpointLine] at h

theorem startsLower_splitDefaultRoutes (htrim : trim l = l)
    (hips : startsLower env "allowedips".toList l = true) :
    startsLower env "allowedips".toList (trim (splitDefaultRoutes l)) = true := by
  have hkey : HasKey "allowedips".toList l := hasKey_of_lower (by decide) (htrim.symm ▸ hips)
  exact startsLower_of_hasKey (by decide) hkey.splitDefaultRoutes

namespace ConfSection

variable {s : ConfSection}

theorem not_isInterface (hpeer : s.isPeer = true) : s.isInterface = false := by
  unfold isPeer isInterface named at *
  cases hheader : sectionHeader s.header with
  | none => rfl
  | some sec =>
    rw [hheader] at hpeer
    exact Bool.eq_false_iff.mpr fun hinterface => interface_ne_peer sec ⟨hinterface, hpeer⟩

/-- The lines that the rewriting replaces are still such lines, and no other line becomes one. -/
theorem replaces_bodyLine (htrim : trim l = l) :
    s.replaces env (bodyLine env localPort s.isInterface s.isPeer l) = s.replaces env l := by
  unfold bodyLine
  split
  · next hmtu =>
    rw [replaces, startsLower_mtuLine, (Bool.and_eq_true_iff.mp hmtu).1, replaces, hmtu]
    rfl
  split
  · next hend =>
    rw [replaces, startsLower_endpointLine, (Bool.and_eq_true_iff.mp hend).1, replaces, hend,
      Bool.or_true, Bool.and_self, Bool.or_true]
  · next hend =>
    split
    · next hips =>
      -- the rewritten line still starts with `allowedips`
      obtain ⟨hpeer, hips⟩ := Bool.and_eq_true_iff.mp hips
      have hnot : startsLower env "endpoint".toList (trim (splitDefaultRoutes l)) = false :=
        startsLower_ne (by decide) (by decide) (by decide)
          (startsLower_splitDefaultRoutes htrim hips)
      rw [replaces, replaces, not_isInterface hpeer, hnot, Bool.eq_false_iff.mpr hend,
        Bool.and_false]
      rfl
    · rfl

/-- A line that is not replaced. -/
theorem bodyLine_kept (h : s.replaces env l = false) :
    bodyLine env localPort s.isInterface s.isPeer l = s.splitLine env l := by
  obtain ⟨hmtu, hend⟩ := Bool.or_eq_false_iff.mp h
  rw [bodyLine, hmtu, hend, if_neg Bool.false_ne_true, if_neg Bool.false_ne_true]
  rfl

/-- The lines that are added would be replaced. -/
theorem replaces_missingLines
    (hl : l ∈ missingLines env localPort s.isInterface s.isPeer s.body) :
    s.replaces env l = true := by
  unfold missingLines at hl
  rcases List.mem_append.mp hl with hl | hl
  · split at hl
    · next hmtu =>
      -- the lines that are added are of the kinds that are replaced
      rw [List.mem_singleton.mp hl, replaces, startsLower_mtuLine,
        (Bool.and_eq_true_iff.mp hmtu).1]
      rfl
    · cases hl
  · split at hl
    · next hend =>
      rw [List.mem_singleton.mp hl, replaces, startsLower_endpointLine,
        (Bool.and_eq_true_iff.mp hend).1, Bool.and_self, Bool.or_true]
    · cases hl

/-- **What is kept of a section**: the same lines, the allowed addresses rewritten. -/
theorem kept_rewritten (hclean : Clean s.body) :
    (s.rewritten env localPort).kept env = (s.kept env).map (s.splitLine env) := by
  have hadded : (missingLines env localPort s.isInterface s.isPeer s.body).filter
      (fun l => !s.replaces env l) = [] := by
    refine List.filter_eq_nil_iff.mpr fun l hl => ?_
    rw [replaces_missingLines hl]
    exact Bool.false_ne_true
  have hlines : (s.body.map (bodyLine env localPort s.isInterface s.isPeer)).filter
      (fun l => !s.replaces env l) = (s.kept env).map (s.splitLine env) := by
    -- a line is of the same kind before and after
    have hsame : s.body.filter ((fun l => !s.replaces env l)
        ∘ bodyLine env localPort s.isInterface s.isPeer) = s.kept env :=
      List.filter_congr fun l hl => congrArg (!·) (replaces_bodyLine (hclean l hl).1)
    rw [List.filter_map, hsame]
    refine List.map_congr_left fun l hl => bodyLine_kept ?_
    simpa using (List.mem_filter.mp hl).2
  show (rewrittenBody env localPort s.isInterface s.isPeer s.body).filter
    (fun l => !s.replaces env l) = _
  rw [rewrittenBody, List.filter_append, hadded, hlines, List.append_nil]

/-- Every [Peer] section gets the line: in the place of an old one, or at its end. -/
theorem endpointLine_mem (hpeer : s.isPeer = true) :
    endpointLine localPort ∈ (s.rewritten env localPort).body := by
  show endpointLine localPort ∈ rewrittenBody env localPort s.isInterface s.isPeer s.body
  rw [not_isInterface hpeer, hpeer, rewrittenBody]
  cases hany : s.body.any (startsLower env "endpoint".toList) with
  | true =>
    obtain ⟨l, hl, hend⟩ := List.any_eq_true.mp hany
    refine List.mem_append_left _ (List.mem_map.mpr ⟨l, hl, ?_⟩)
    rw [bodyLine, hend]
    rfl
  | false =>
    refine List.mem_append_right _ ?_
    rw [missingLines, hany]
    exact List.mem_singleton_self _

theorem mtuLine_mem (hinterface : s.isInterface = true) :
    mtuLine ∈ (s.rewritten env localPort).body := by
  show mtuLine ∈ rewrittenBody env localPort s.isInterface s.isPeer s.body
  rw [hinterface, rewrittenBody]
  cases hany : s.body.any (startsLower env "mtu".toList) with
  | true =>
    obtain ⟨l, hl, hmtu⟩ := List.any_eq_true.mp hany
    refine List.mem_append_left _ (List.mem_map.mpr ⟨l, hl, ?_⟩)
    rw [bodyLine, hmtu]
    rfl
  | false =>
    refine List.mem_append_right _ (List.mem_append_left _ ?_)
    rw [hany]
    exact List.mem_singleton_self _

/-- The lines of a rewritten section that would be replaced again are the written ones. -/
theorem mem_rewritten (hclean : Clean s.body) (hl : l ∈ (s.rewritten env localPort).body) :
    trim l = l ∧ (s.replaces env l = true →
      s.isInterface = true ∧ l = mtuLine ∨ s.isPeer = true ∧ l = endpointLine localPort) := by
  rcases List.mem_append.mp hl with hl | hl
  · obtain ⟨m, hm, rfl⟩ := List.mem_map.mp hl
    obtain ⟨htrim, -⟩ := hclean m hm
    rw [replaces_bodyLine htrim]
    unfold bodyLine
    split
    · next hmtu =>
      exact ⟨by decide, fun _ => .inl ⟨(Bool.and_eq_true_iff.mp hmtu).1, rfl⟩⟩
    split
    · next hend =>
      exact ⟨trim_endpointLine, fun _ => .inr ⟨(Bool.and_eq_true_iff.mp hend).1, rfl⟩⟩
    · next hmtu hend =>
      -- any other line was not replaced before either
      refine ⟨?_, fun h => absurd h ?_⟩
      · split
        · exact trim_trim _
        · exact htrim
      · rw [replaces, Bool.eq_false_iff.mpr hmtu, Bool.eq_false_iff.mpr hend]
        exact Bool.false_ne_true
  · unfold missingLines at hl
    rcases List.mem_append.mp hl with hl | hl
    · split at hl
      · next hmtu =>
        rw [List.mem_singleton.mp hl]
        exact ⟨by decide, fun _ => .inl ⟨(Bool.and_eq_true_iff.mp hmtu).1, rfl⟩⟩
      · cases hl
    · split at hl
      · next hend =>
        rw [List.mem_singleton.mp hl]
        exact ⟨trim_endpointLine, fun _ => .inr ⟨(Bool.and_eq_true_iff.mp hend).1, rfl⟩⟩
      · cases hl

/-- No other endpoint is left: a line with that entry starts with the word, and is replaced. -/
theorem eq_endpointLine (hclean : Clean s.body) (hpeer : s.isPeer = true)
    (hl : l ∈ (s.rewritten env localPort).body)
    (hentry : entry env l = some ("endpoint".toList, v)) : l = endpointLine localPort := by
  obtain ⟨htrim, hwritten⟩ := mem_rewritten hclean hl
  have hreplaces : s.replaces env l = true := by
    rw [replaces, hpeer, startsLower_of_entry (by decide) (by decide) htrim hentry,
      Bool.and_self, Bool.or_true]
  rcases hwritten hreplaces with ⟨hinterface, -⟩ | ⟨-, hline⟩
  · rw [not_isInterface hpeer] at hinterface
    cases hinterface
  · exact hline

/-- And no other MTU. -/
theorem eq_mtuLine (hclean : Clean s.body) (hinterface : s.isInterface = true)
    (hl : l ∈ (s.rewritten env localPort).body)
    (hentry : entry env l = some ("mtu".toList, v)) : l = mtuLine := by
  obtain ⟨htrim, hwritten⟩ := mem_rewritten hclean hl
  have hreplaces : s.replaces env l = true := by
    rw [replaces, hinterface, startsLower_of_entry (by decide) (by decide) htrim hentry]
    rfl
  rcases hwritten hreplaces with ⟨-, hline⟩ | ⟨hpeer, -⟩
  · exact hline
  · rw [not_isInterface hpeer] at hinterface
    cases hinterface

end ConfSection

/-! ## The sections of the rewritten text -/

/-- **The loopback configuration**, section by section: every peer is reached through the
relay, every interface has its MTU, and all other lines are those of the text, the default
routes split. -/
theorem rewrite_sections (env : Externals) (conf : Text) (localPort : BitVec 16) :
    (∀ s ∈ (readSections (rewriteEndpointToLoopback env conf localPort)).2, s.isPeer = true →
      (∃ l ∈ s.body, ∃ v, entry env l = some ("endpoint".toList, v)) ∧
      ∀ l ∈ s.body, ∀ v, entry env l = some ("endpoint".toList, v) →
        v = loopbackEndpoint localPort) ∧
    (∀ s ∈ (readSections (rewriteEndpointToLoopback env conf localPort)).2, s.isInterface = true →
      ∃ l ∈ s.body, ∃ v, entry env l = some ("mtu".toList, v)) ∧
    keptLines env (readSections (rewriteEndpointToLoopback env conf localPort))
      = (readSections conf).1 ++ (readSections conf).2.flatMap fun s =>
          s.header :: (s.kept env).map (s.splitLine env) := by
  rw [readSections_rewrite]
  refine ⟨List.forall_mem_map.mpr fun s hs hpeer => ⟨?_, fun l hl v hentry => ?_⟩,
    List.forall_mem_map.mpr fun s hs hinterface => ?_, ?_⟩
  · exact ⟨_, ConfSection.endpointLine_mem hpeer, _, entry_endpointLine⟩
  · -- the only endpoint of a rewritten section is the one put in
    have hline := ConfSection.eq_endpointLine (clean_body hs) hpeer hl hentry
    rw [hline, entry_endpointLine] at hentry
    exact (Prod.mk.inj (Option.some.inj hentry)).2.symm
  · exact ⟨_, ConfSection.mtuLine_mem hinterface, _, entry_mtuLine⟩
  · show (readSections conf).1 ++ List.flatMap _ (List.map _ _) = _
    rw [List.flatMap_map]
    refine congrArg _ (List.flatMap_congr fun s hs => ?_)
    exact congrArg (s.header :: ·) (ConfSection.kept_rewritten (clean_body hs))

/-! ## Samples -/

/-- The key of 32 zero bytes, in base 64. -/
def zeroKeyText : Text := List.replicate 43 'A' ++ "=".toList

/-- What the parser needs for the samples below. -/
def sampleExternals : Externals where
  casing := CaseData.basic
  base64Decode s :=
    if s = zeroKeyText then .ok (List.replicate 32 0) else .error "Invalid symbol"
  parseIpAddr := IpAddr.parse

end Phobos
