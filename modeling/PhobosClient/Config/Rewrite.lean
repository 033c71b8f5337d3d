import PhobosClient.Config.Fields

/-!
# PhobosClient — rewriting a configuration for the loopback relay (`src/archive.rs`)

`rewrite_endpoint_to_loopback` goes over the lines of a configuration with section flags of
its own. It replaces the lines of a section that start with `mtu`, `endpoint` or `allowedips`
and adds a missing MTU or endpoint where a section ends.

**`parse_rewrite`**: reading the rewritten text gives what reading the text gives, the MTU and
the allowed addresses apart. The two loops stay in step: they see the same headers, and the
lines that the rewriting adds, replaces and puts in their place are all inert.
-/

namespace Phobos

open Text CaseData

structure RewriteState where
  endpointSeen : Bool
  mtuSeen : Bool
  inInterface : Bool
  inPeer : Bool

def mtuLine : Text := "MTU = 1280".toList

def endpointLine (localPort : BitVec 16) : Text :=
  "Endpoint = 127.0.0.1:".toList ++ (toString localPort.toNat).toList

/-- What is added where a section ends. -/
def closeSection (localPort : BitVec 16) (st : RewriteState) : List Text :=
  (if st.inInterface && !st.mtuSeen then [mtuLine] else []) ++
    if st.inPeer && !st.endpointSeen then [endpointLine localPort] else []

/-- The default routes of an `AllowedIPs` line, in two halves each. -/
def splitDefaultRoutes (line : Text) : Text :=
  replace "::/0".toList "::/1, 8000::/1".toList
    (replace "0.0.0.0/0".toList "0.0.0.0/1, 128.0.0.0/1".toList line)

variable (env : Externals) (localPort : BitVec 16)

/-- The body of the loop over the lines: the next state, and the lines that are put out. -/
def rewriteLine (st : RewriteState) (line : Text) : RewriteState × List Text :=
  let trimmed := trim line
  match sectionHeader trimmed with
  | some sec =>
    (⟨false, false, eqIgnoreAsciiCase sec "interface".toList,
        eqIgnoreAsciiCase sec "peer".toList⟩,
      closeSection localPort st ++ [line])
  | none =>
    if st.inInterface && "mtu".toList.isPrefixOf (env.casing.toLowercase trimmed) then
      ({ st with mtuSeen := true }, [mtuLine])
    else if st.inPeer && "endpoint".toList.isPrefixOf (env.casing.toLowercase trimmed) then
      ({ st with endpointSeen := true }, [endpointLine localPort])
    else if st.inPeer && "allowedips".toList.isPrefixOf (env.casing.toLowercase trimmed) then
      (st, [splitDefaultRoutes line])
    else (st, [line])

def rewriteLines (st : RewriteState) : List Text → List Text
  | [] => closeSection localPort st
  | l :: ls =>
    let (st, out) := rewriteLine env localPort st l
    out ++ rewriteLines st ls

def rewriteEndpointToLoopback (env : Externals) (conf : Text) (localPort : BitVec 16) : Text :=
  join "\r\n".toList (rewriteLines env localPort ⟨false, false, false, false⟩ (lines conf))

variable {env} {localPort} {p l : Text}

/-! ## The lines that are put out -/

theorem hasKey_mtuLine : HasKey "mtu".toList mtuLine :=
  ⟨[], "MTU".toList, " = 1280".toList, by decide, List.forall_mem_nil _, by decide,
    List.all_eq_true.mp (by decide)⟩

theorem hasKey_endpointLine : HasKey "endpoint".toList (endpointLine localPort) :=
  ⟨[], "Endpoint".toList, " = 127.0.0.1:".toList ++ (toString localPort.toNat).toList,
    rfl, List.forall_mem_nil _, by decide, List.all_eq_true.mp (by decide)⟩

/-- Splitting the default routes leaves the key alone: a match begins with `0` or `:`. -/
theorem HasKey.splitDefaultRoutes (h : HasKey p l) : HasKey p (splitDefaultRoutes l) := by
  obtain ⟨ws, q, r, rfl, hws, hmap, hq⟩ := h
  -- no match begins before the key ends
  have hws0 : '0' ∉ ws := fun hmem => absurd (hws '0' hmem) (by decide)
  have hwsc : ':' ∉ ws := fun hmem => absurd (hws ':' hmem) (by decide)
  have hq0 : '0' ∉ q := fun hmem => absurd (hq '0' hmem) (by decide)
  have hqc : ':' ∉ q := fun hmem => absurd (hq ':' hmem) (by decide)
  refine ⟨ws, q, Phobos.splitDefaultRoutes r, ?_, hws, hmap, hq⟩
  show replace (':' :: ":/0".toList) _ (replace ('0' :: ".0.0.0/0".toList) _ _) = _
  rw [replace_append hws0, replace_append hq0, replace_append hwsc, replace_append hqc]
  rfl

/-! ## In step -/

/-- The rewriting and the parser are in the same section. -/
structure InStep (r : RewriteState) (st : ParseState) : Prop where
  interface : r.inInterface = st.inInterface
  peer : r.inPeer = st.inPeer
  one : ¬ (st.inInterface = true ∧ st.inPeer = true)

theorem InStep.in_peer {r : RewriteState} {st : ParseState} (h : InStep r st)
    (hpeer : r.inPeer = true) : st.inInterface = false ∧ st.inPeer = true := by
  have hst : st.inPeer = true := h.peer ▸ hpeer
  exact ⟨Bool.eq_false_iff.mpr fun hi => h.one ⟨hi, hst⟩, hst⟩

/-- What is added at the end of a section is inert. -/
theorem InStep.closeSection {r : RewriteState} {st : ParseState} (h : InStep r st)
    (ls : List Text) : readCore env st (closeSection localPort r ++ ls) = readCore env st ls := by
  unfold Phobos.closeSection
  -- a section is not both, so one of the two lines is added at most
  have hpeer : readCore env st ((if r.inPeer && !r.endpointSeen then [endpointLine localPort]
      else []) ++ ls) = readCore env st ls := by
    split
    · next hend =>
      have hin := h.in_peer (Bool.and_eq_true_iff.mp hend).1
      exact (inert_endpoint hasKey_endpointLine hin).readCore_cons ls
    · rfl
  split
  · next hmtu =>
    have hin : st.inInterface = true := h.interface ▸ (Bool.and_eq_true_iff.mp hmtu).1
    rw [List.append_assoc, List.singleton_append,
      (inert_mtu hasKey_mtuLine hin).readCore_cons, hpeer]
  · exact hpeer

theorem interface_ne_peer (sec : Text) : ¬ (eqIgnoreAsciiCase sec "interface".toList = true ∧
    eqIgnoreAsciiCase sec "peer".toList = true) := by
  rintro ⟨hinterface, hpeer⟩
  rw [eqIgnoreAsciiCase_ne hinterface (by decide)] at hpeer
  cases hpeer

theorem InStep.of_sections {r : RewriteState} {st st' : ParseState} (h : InStep r st)
    (hsec : st'.sections = st.sections) : InStep r st' := by
  obtain ⟨hi, hp⟩ := Prod.mk.inj hsec
  exact ⟨hi ▸ h.interface, hp ▸ h.peer, hi ▸ hp ▸ h.one⟩

/-- **The two loops stay in step**: reading what the rewriting puts out is reading the lines
themselves. Induction on the lines, for any pair of states in step. -/
theorem readCore_rewriteLines {r : RewriteState} {st : ParseState} (h : InStep r st)
    (ls : List Text) :
    readCore env st (rewriteLines env localPort r ls) = readCore env st ls := by
  induction ls generalizing r st with
  | nil =>
    have hclose : readCore env st (Phobos.closeSection localPort r ++ []) = readCore env st [] :=
      h.closeSection []
    rwa [List.append_nil] at hclose
  | cons l ls ih =>
    rw [rewriteLines]
    cases hheader : sectionHeader (Text.trim l) with
    | some sec =>
      simp only [rewriteLine, hheader]
      -- the lines that close the section before are read over
      rw [List.append_assoc, h.closeSection, List.singleton_append, readCore_cons, readCore_cons,
        parseLine_header hheader]
      exact ih ⟨rfl, rfl, interface_ne_peer sec⟩
    | none =>
      simp only [rewriteLine, hheader]
      split
      · next hmtu =>
        obtain ⟨hin, hpre⟩ := Bool.and_eq_true_iff.mp hmtu
        have hst : st.inInterface = true := h.interface ▸ hin
        rw [List.singleton_append, (inert_mtu hasKey_mtuLine hst).readCore_cons,
          (inert_mtu (hasKey_of_lower (by decide) hpre) hst).readCore_cons]
        exact ih ⟨h.interface, h.peer, h.one⟩
      split
      · next hend =>
        obtain ⟨hin, hpre⟩ := Bool.and_eq_true_iff.mp hend
        have hst := h.in_peer hin
        rw [List.singleton_append, (inert_endpoint hasKey_endpointLine hst).readCore_cons,
          (inert_endpoint (hasKey_of_lower (by decide) hpre) hst).readCore_cons]
        exact ih ⟨h.interface, h.peer, h.one⟩
      split
      · next hips =>
        obtain ⟨hin, hpre⟩ := Bool.and_eq_true_iff.mp hips
        have hst := h.in_peer hin
        have hkey : HasKey "allowedips".toList l := hasKey_of_lower (by decide) hpre
        rw [List.singleton_append, (inert_allowedIps hkey.splitDefaultRoutes hst).readCore_cons,
          (inert_allowedIps hkey hst).readCore_cons]
        exact ih h
      · -- any other line is passed on, and no such line changes the section
        rw [List.singleton_append, readCore_cons, readCore_cons]
        cases hline : parseLine env st l with
        | error e => rfl
        | ok st' => exact ih (h.of_sections (parseLine_sections hheader hline))

/-! ## From lines to texts -/

theorem newline_not_mem_endpointLine : '\n' ∉ endpointLine localPort := by
  intro hmem
  rcases List.mem_append.mp hmem with h | h
  · exact absurd h (by decide)
  · rw [Nat.toString_eq_repr, Nat.repr, String.toList_ofList] at h
    -- a newline is not a digit
    have hdigit := Nat.isDigit_of_mem_toDigits (by decide) (by decide) h
    exact absurd hdigit (by decide)

theorem newline_not_mem_closeSection (r : RewriteState) :
    ∀ l ∈ closeSection localPort r, '\n' ∉ l := by
  intro l hl
  unfold closeSection at hl
  rcases List.mem_append.mp hl with h | h
  · split at h
    · rw [List.mem_singleton.mp h]
      decide
    · cases h
  · split at h
    · rw [List.mem_singleton.mp h]
      exact newline_not_mem_endpointLine
    · cases h

theorem newline_not_mem_rewriteLines {ls : List Text} (hls : ∀ l ∈ ls, '\n' ∉ l)
    (r : RewriteState) : ∀ l ∈ rewriteLines env localPort r ls, '\n' ∉ l := by
  induction ls generalizing r with
  | nil => exact newline_not_mem_closeSection r
  | cons l ls ih =>
    have hl : '\n' ∉ l := hls l List.mem_cons_self
    have hone : ∀ m ∈ (rewriteLine env localPort r l).2, '\n' ∉ m := by
      intro m hm
      unfold rewriteLine at hm
      simp only at hm
      split at hm
      · rcases List.mem_append.mp hm with h | h
        · exact newline_not_mem_closeSection r m h
        · exact List.mem_singleton.mp h ▸ hl
      split at hm
      · rw [List.mem_singleton.mp hm]
        decide
      split at hm
      · rw [List.mem_singleton.mp hm]
        exact newline_not_mem_endpointLine
      split at hm
      · rw [List.mem_singleton.mp hm]
        exact not_mem_replaceFrom (by decide) (not_mem_replaceFrom (by decide) hl 0) 0
      · exact List.mem_singleton.mp hm ▸ hl
    intro m hm
    rcases List.mem_append.mp hm with h | h
    · exact hone m h
    · exact ih (fun k hk => hls k (List.mem_cons_of_mem _ hk)) _ m h

/-- A reader sees the lines that were put out. -/
theorem content_lines_rewrite (conf : Text) :
    content (lines (rewriteEndpointToLoopback env conf localPort))
      = content (rewriteLines env localPort ⟨false, false, false, false⟩ (lines conf)) :=
  content_lines_join (List.forall_mem_singleton.mpr rfl) (by decide)
    (newline_not_mem_rewriteLines (fun _ hl => newline_not_mem_lines hl) _)

/-- The lines of the rewritten text are read like those that were put out. -/
theorem readCore_rewrite (st : ParseState) (conf : Text) :
    readCore env st (lines (rewriteEndpointToLoopback env conf localPort))
      = readCore env st (rewriteLines env localPort ⟨false, false, false, false⟩ (lines conf)) := by
  unfold readCore
  rw [← (parseLine_trims env).foldlM_content, content_lines_rewrite,
    (parseLine_trims env).foldlM_content]

/-- The rewriting changes none of the other fields, and no error. -/
theorem parse_rewrite_core (env : Externals) (conf : Text) (localPort : BitVec 16) :
    (WireGuardConfig.parse env (rewriteEndpointToLoopback env conf localPort)).map
        WireGuardConfig.core
      = (WireGuardConfig.parse env conf).map WireGuardConfig.core := by
  rw [parse_core, parse_core, readCore_rewrite,
    readCore_rewriteLines ⟨rfl, rfl, fun h => Bool.false_ne_true h.1⟩]

/-- **Rewriting changes only the MTU and the allowed addresses of what is read**, and no
error. -/
theorem parse_rewrite (env : Externals) (conf : Text) (localPort : BitVec 16) :
    (∀ e, WireGuardConfig.parse env (rewriteEndpointToLoopback env conf localPort) = .error e ↔
      WireGuardConfig.parse env conf = .error e) ∧
    ∀ w, WireGuardConfig.parse env conf = .ok w →
      ∃ mtu allowedIps, WireGuardConfig.parse env (rewriteEndpointToLoopback env conf localPort)
        = .ok { w with mtu, allowedIps } := by
  have hcore := parse_rewrite_core env conf localPort
  cases hold : WireGuardConfig.parse env conf with
  | error e =>
    rw [hold] at hcore
    cases hnew : WireGuardConfig.parse env (rewriteEndpointToLoopback env conf localPort) with
    | error e' =>
      rw [hnew] at hcore
      cases hcore
      exact ⟨fun _ => Iff.rfl, fun w h => by cases h⟩
    | ok w' => rw [hnew] at hcore; cases hcore
  | ok w =>
    rw [hold] at hcore
    cases hnew : WireGuardConfig.parse env (rewriteEndpointToLoopback env conf localPort) with
    | error e => rw [hnew] at hcore; cases hcore
    | ok w' =>
      rw [hnew] at hcore
      refine ⟨fun e => ⟨nofun, nofun⟩, fun v hv => ?_⟩
      cases hv
      have heq : w'.core = w.core := Except.ok.inj hcore
      refine ⟨w'.mtu, w'.allowedIps, congrArg Except.ok ?_⟩
      -- a configuration is its core with its own MTU and addresses
      calc w' = { w'.core with mtu := w'.mtu, allowedIps := w'.allowedIps } := rfl
        _ = { w.core with mtu := w'.mtu, allowedIps := w'.allowedIps } := by rw [heq]
        _ = { w with mtu := w'.mtu, allowedIps := w'.allowedIps } := rfl

end Phobos
