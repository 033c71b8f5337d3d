import PhobosClient.Config.Loopback
import PhobosClient.Lib.Replace

/-!
# PhobosClient — rewriting a second time (`src/archive.rs`)

The loopback configuration of a profile is a configuration like any other: it is exported for
WireGuard, and can come back in a package. **`rewrite_rewrite`**: rewriting it again, for whatever
port, gives what rewriting the first text for that port gives. MTU and endpoint are replaced by
themselves, nothing is missing any more, and no default route is left to be split
(`noDefaultRoutes_rewrite`): the texts of the halves have no new default route in them, not even
across their ends (`Settled`).
-/

namespace Phobos

open Text

/-! ## Default routes -/

/-- No default route comes about where the halves have been put in, -/
theorem settled_ipv4 : Settled "0.0.0.0/0".toList "0.0.0.0/0".toList
    "0.0.0.0/1, 128.0.0.0/1".toList :=
  ⟨by decide, by decide, by decide⟩

/-- of either family. -/
theorem settled_ipv6 : Settled "::/0".toList "::/0".toList "::/1, 8000::/1".toList :=
  ⟨by decide, by decide, by decide⟩

/-- The halves of the IPv6 route make no IPv4 route. -/
theorem settled_ipv4_ipv6 : Settled "0.0.0.0/0".toList "::/0".toList "::/1, 8000::/1".toList :=
  ⟨by decide, by decide, by decide⟩

/-- The text of neither default route is in the line. -/
def Split (l : Text) : Prop := ¬ "0.0.0.0/0".toList <:+: l ∧ ¬ "::/0".toList <:+: l

/-- What has been split is split. -/
theorem split_splitDefaultRoutes (l : Text) : Split (splitDefaultRoutes l) where
  left := settled_ipv4_ipv6.not_infix (by decide) (by decide)
    (not_infix_replace settled_ipv4 (by decide))
  right := not_infix_replace settled_ipv6 (by decide)

theorem trim_isInfix (l : Text) : trim l <:+: l :=
  (List.rdropWhile_prefix isWhitespace _).isInfix.trans (List.dropWhile_suffix _).isInfix

/-- What is inside a line without default routes has none. -/
theorem Split.within {l l' : Text} (h : Split l) (hin : l' <:+: l) : Split l' :=
  ⟨fun h' => h.1 (h'.trans hin), fun h' => h.2 (h'.trans hin)⟩

/-- Then there is nothing left to replace. -/
theorem splitDefaultRoutes_of_split {l : Text} (h : Split l) : splitDefaultRoutes l = l := by
  rw [splitDefaultRoutes, replace_of_not_infix (by decide) h.1,
    replace_of_not_infix (by decide) h.2]

theorem splitDefaultRoutes_splitDefaultRoutes (l : Text) :
    splitDefaultRoutes (splitDefaultRoutes l) = splitDefaultRoutes l :=
  splitDefaultRoutes_of_split (split_splitDefaultRoutes l)

namespace ConfSection

variable {env : Externals} {p q : BitVec 16} {s : ConfSection} {l : Text}

/-! ## A section -/

/-- The lines that are put in are rewritten as any others: -/
theorem bodyLine_mtuLine (hinterface : s.isInterface = true) :
    bodyLine env q s.isInterface s.isPeer mtuLine = mtuLine := by
  rw [bodyLine, hinterface, startsLower_mtuLine]
  rfl

/-- the endpoint gets the new port. -/
theorem bodyLine_endpointLine (hpeer : s.isPeer = true) :
    bodyLine env q s.isInterface s.isPeer (endpointLine p) = endpointLine q := by
  rw [bodyLine, not_isInterface hpeer, hpeer, startsLower_endpointLine]
  rfl

/-- A line that has been rewritten is rewritten to what the line itself is. -/
theorem bodyLine_bodyLine (htrim : trim l = l) :
    bodyLine env q s.isInterface s.isPeer (bodyLine env p s.isInterface s.isPeer l)
      = bodyLine env q s.isInterface s.isPeer l := by
  by_cases hmtu : (s.isInterface && startsLower env "mtu".toList l) = true
  · have hline : ∀ port, bodyLine env port s.isInterface s.isPeer l = mtuLine :=
      fun port => if_pos hmtu
    -- the MTU does not depend on the port
    rw [hline, hline, bodyLine_mtuLine (Bool.and_eq_true_iff.mp hmtu).1]
  by_cases hend : (s.isPeer && startsLower env "endpoint".toList l) = true
  · have hline : ∀ port, bodyLine env port s.isInterface s.isPeer l = endpointLine port :=
      fun port => (if_neg hmtu).trans (if_pos hend)
    rw [hline, hline, bodyLine_endpointLine (Bool.and_eq_true_iff.mp hend).1]
  by_cases hips : (s.isPeer && startsLower env "allowedips".toList l) = true
  · have hline : ∀ port, bodyLine env port s.isInterface s.isPeer l
        = trim (splitDefaultRoutes l) :=
      fun port => (if_neg hmtu).trans ((if_neg hend).trans (if_pos hips))
    obtain ⟨hpeer, hstarts⟩ := Bool.and_eq_true_iff.mp hips
    -- the line of ranges is one of ranges still, and of nothing else
    have hstarts' := startsLower_splitDefaultRoutes htrim hstarts
    have hnot : startsLower env "endpoint".toList (trim (splitDefaultRoutes l)) = false :=
      startsLower_ne (by decide) (by decide) (by decide) hstarts'
    rw [hline, hline, bodyLine, not_isInterface hpeer, hpeer, hnot, hstarts']
    show trim (splitDefaultRoutes (trim (splitDefaultRoutes l))) = _
    rw [← trim_splitDefaultRoutes, splitDefaultRoutes_splitDefaultRoutes]
  · have hline : bodyLine env p s.isInterface s.isPeer l = l :=
      (if_neg hmtu).trans ((if_neg hend).trans (if_neg hips))
    rw [hline]

/-- The lines that were added become those that would have been added. -/
theorem map_bodyLine_missingLines :
    (missingLines env p s.isInterface s.isPeer s.body).map
        (bodyLine env q s.isInterface s.isPeer)
      = missingLines env q s.isInterface s.isPeer s.body := by
  unfold missingLines
  rw [List.map_append]
  congr 1
  · split
    · next hmissing =>
      rw [List.map_singleton, bodyLine_mtuLine (Bool.and_eq_true_iff.mp hmissing).1]
    · rfl
  · split
    · next hmissing =>
      rw [List.map_singleton, bodyLine_endpointLine (Bool.and_eq_true_iff.mp hmissing).1]
    · rfl

/-- A rewritten section has everything. -/
theorem missingLines_rewritten :
    missingLines env q s.isInterface s.isPeer (s.rewritten env p).body = [] := by
  have hmtu : (s.isInterface && !(s.rewritten env p).body.any (startsLower env "mtu".toList))
      = false := by
    cases hinterface : s.isInterface with
    | false => rfl
    | true =>
      -- the line is there by now
      rw [List.any_eq_true.mpr ⟨_, mtuLine_mem hinterface, startsLower_mtuLine⟩]
      rfl
  have hend : (s.isPeer && !(s.rewritten env p).body.any (startsLower env "endpoint".toList))
      = false := by
    cases hpeer : s.isPeer with
    | false => rfl
    | true =>
      rw [List.any_eq_true.mpr ⟨_, endpointLine_mem hpeer, startsLower_endpointLine⟩]
      rfl
  rw [missingLines, hmtu, hend]
  rfl

/-- An `AllowedIPs` line of a rewritten section was one before, and has been split. -/
theorem split_of_rewritten (hpeer : s.isPeer = true) (hl : l ∈ (s.rewritten env p).body)
    (hips : startsLower env "allowedips".toList l = true) : Split l := by
  have hnotMtu : l ≠ mtuLine := by
    rintro rfl
    have hmtu : startsLower env "allowedips".toList mtuLine = false :=
      startsLower_ne (by decide) (by decide) (by decide) startsLower_mtuLine
    rw [hmtu] at hips
    cases hips
  have hnotEndpoint : l ≠ endpointLine p := by
    rintro rfl
    have hend : startsLower env "allowedips".toList (endpointLine p) = false :=
      startsLower_ne (by decide) (by decide) (by decide) startsLower_endpointLine
    rw [hend] at hips
    cases hips
  rcases List.mem_append.mp hl with hmap | hmissing
  · obtain ⟨l₀, -, rfl⟩ := List.mem_map.mp hmap
    simp only [bodyLine, not_isInterface hpeer, hpeer, Bool.false_and, Bool.true_and,
      Bool.false_eq_true, if_false] at hnotEndpoint hips ⊢
    split
    · next hend => exact absurd (if_pos hend) hnotEndpoint
    · split
      · -- a line of ranges comes out split
        exact (split_splitDefaultRoutes l₀).within (trim_isInfix _)
      · next hend hnot =>
        rw [if_neg hend, if_neg hnot] at hips
        exact absurd hips hnot
  · -- the lines that are added are of other kinds
    rcases List.mem_append.mp hmissing with hmtu | hend
    · split at hmtu
      · exact absurd (List.mem_singleton.mp hmtu) hnotMtu
      · cases hmtu
    · split at hend
      · exact absurd (List.mem_singleton.mp hend) hnotEndpoint
      · cases hend

/-- A section that is rewritten twice has been rewritten once. -/
theorem rewritten_rewritten (hclean : Clean s.body) :
    (s.rewritten env p).rewritten env q = s.rewritten env q := by
  have hbody : (s.rewritten env p).body.map (bodyLine env q s.isInterface s.isPeer)
      = (s.rewritten env q).body := by
    show List.map _ (List.map _ _ ++ _) = List.map _ _ ++ _
    rw [List.map_append, List.map_map, map_bodyLine_missingLines]
    refine congrArg (· ++ _) (List.map_congr_left fun l hl => ?_)
    exact bodyLine_bodyLine (hclean l hl).1
  show (⟨s.header, _ ++ missingLines env q s.isInterface s.isPeer (s.rewritten env p).body⟩ :
    ConfSection) = _
  rw [missingLines_rewritten, List.append_nil]
  exact congrArg (ConfSection.mk s.header) hbody

end ConfSection

/-! ## A configuration -/

/-- The parser depends on the sections only. -/
theorem parse_congr {env : Externals} {conf conf' : Text}
    (h : readSections conf = readSections conf') :
    WireGuardConfig.parse env conf = WireGuardConfig.parse env conf' := by
  have hcontent : content (lines conf) = content (lines conf') := by
    rw [← readSections_lines, h, readSections_lines]
  unfold WireGuardConfig.parse
  rw [← (parseLine_trims env).foldlM_content, hcontent, (parseLine_trims env).foldlM_content]

/-- No `AllowedIPs` line of a [Peer] section has a default route in it. -/
def NoDefaultRoutes (env : Externals) (conf : Text) : Prop :=
  ∀ s ∈ (readSections conf).2, s.isPeer = true → ∀ l ∈ s.body,
    startsLower env "allowedips".toList l = true → Split l

/-- **No default route is left**, wherever it stood in its line. -/
theorem noDefaultRoutes_rewrite (env : Externals) (conf : Text) (p : BitVec 16) :
    NoDefaultRoutes env (rewriteEndpointToLoopback env conf p) := by
  rw [NoDefaultRoutes, readSections_rewrite]
  exact List.forall_mem_map.mpr fun s _ hpeer l hl hips =>
    ConfSection.split_of_rewritten (s := s) hpeer hl hips

/-- **Rewriting a second time.** -/
theorem rewrite_rewrite (env : Externals) (conf : Text) (p q : BitVec 16) :
    readSections (rewriteEndpointToLoopback env (rewriteEndpointToLoopback env conf p) q)
        = readSections (rewriteEndpointToLoopback env conf q)
      ∧ WireGuardConfig.parse env
          (rewriteEndpointToLoopback env (rewriteEndpointToLoopback env conf p) q)
        = WireGuardConfig.parse env (rewriteEndpointToLoopback env conf q)
      ∧ NoDefaultRoutes env (rewriteEndpointToLoopback env conf p) := by
  have hsections :
      readSections (rewriteEndpointToLoopback env (rewriteEndpointToLoopback env conf p) q)
        = readSections (rewriteEndpointToLoopback env conf q) := by
    rw [readSections_rewrite, readSections_rewrite, readSections_rewrite, List.map_map]
    refine congrArg (Prod.mk _) (List.map_congr_left fun s hs => ?_)
    exact ConfSection.rewritten_rewritten (clean_body hs)
  exact ⟨hsections, parse_congr hsections, noDefaultRoutes_rewrite env conf p⟩

end Phobos
