import PhobosClient.Config.Loopback
import PhobosClient.Lib.Assignments

/-!
# PhobosClient — a configuration by its entries (`src/wg_config.rs`)

What `WireGuardConfig::parse` collects in its mutable variables is decided by the entries of the
[Interface] and of the [Peer] sections, in the order of the text: a variable that only the
entries of one kind of section change ends as if these stood alone (`Projects.interface_only`,
`Projects.peer_only`). Which section an entry stands in does not matter to the loop, and that is
how several [Peer] sections come to be mixed.
-/

namespace Phobos

open Text Assignments

variable (env : Externals)

/-- The entries of a section. -/
def ConfSection.entries (s : ConfSection) : List (Text × Text) := s.body.filterMap (entry env)

def interfaceSections (conf : Text) : List ConfSection :=
  (readSections conf).2.filter ConfSection.isInterface

def peerSections (conf : Text) : List ConfSection :=
  (readSections conf).2.filter ConfSection.isPeer

def interfaceEntries (conf : Text) : List (Text × Text) :=
  (interfaceSections conf).flatMap (ConfSection.entries env)

def peerEntries (conf : Text) : List (Text × Text) :=
  (peerSections conf).flatMap (ConfSection.entries env)

variable {V : Type*}

/-- A view of the parser's state that the entries drive: `onInterface` and `onPeer` say how. -/
structure Projects (view : ParseState → V) (onInterface onPeer : V → Text × Text → V) : Prop where
  flags : ∀ st inInterface inPeer, view { st with inInterface, inPeer } = view st
  interface : ∀ st st' key val, interfaceKey env st key val = .ok st' →
    view st' = onInterface (view st) (key, val)
  peer : ∀ st st' key val, peerKey env st key val = .ok st' →
    view st' = onPeer (view st) (key, val)

/-- What an entry does in a section of this kind. -/
def onEntry (onInterface onPeer : V → Text × Text → V) (inInterface inPeer : Bool) :
    V → Text × Text → V :=
  if inInterface then onInterface else if inPeer then onPeer else fun v _ => v

variable {env} {view : ParseState → V} {onInterface onPeer : V → Text × Text → V}
variable {st st' : ParseState}

theorem Projects.parseLine (hview : Projects env view onInterface onPeer) {l : Text}
    (hheader : sectionHeader (trim l) = none) (h : parseLine env st l = .ok st') :
    view st' = (entry env (trim l)).toList.foldl
      (onEntry onInterface onPeer st.inInterface st.inPeer) (view st) := by
  rw [parseLine_entry st hheader] at h
  cases hentry : entry env (trim l) with
  | none =>
    rw [hentry] at h
    cases h
    rfl
  | some kv =>
    obtain ⟨key, val⟩ := kv
    simp only [hentry] at h
    simp only [Option.toList_some, List.foldl_cons, List.foldl_nil, onEntry]
    split at h
    · next hin =>
      rw [if_pos hin]
      -- the flags say whose entry it is; outside both sections nothing happens
      exact hview.interface _ _ _ _ h
    · next hin =>
      rw [if_neg hin]
      split at h
      · next hpeer =>
        rw [if_pos hpeer]
        exact hview.peer _ _ _ _ h
      · next hpeer =>
        rw [if_neg hpeer]
        cases h
        rfl

/-- **The lines that were read, by sections.** Induction on the lines, for any section they
begin in. -/
theorem Projects.foldlM (hview : Projects env view onInterface onPeer) {ls : List Text}
    (hclean : Clean ls) (h : ls.foldlM (Phobos.parseLine env) st = .ok st') :
    view st' = (sectionsOf ls).2.foldl
      (fun v s => (s.entries env).foldl (onEntry onInterface onPeer s.isInterface s.isPeer) v)
      (((sectionsOf ls).1.filterMap (entry env)).foldl
        (onEntry onInterface onPeer st.inInterface st.inPeer) (view st)) := by
  induction ls generalizing st with
  | nil =>
    cases h
    rfl
  | cons l ls ih =>
    obtain ⟨htrim, -⟩ := hclean l List.mem_cons_self
    have hrest : Clean ls := fun m hm => hclean m (List.mem_cons_of_mem _ hm)
    rw [List.foldlM_cons] at h
    cases hline : Phobos.parseLine env st l with
    | error e => rw [hline] at h; cases h
    | ok st₁ =>
      rw [hline] at h
      rw [ih hrest h]
      cases hheader : sectionHeader l with
      | some sec =>
        -- a header: the entries behind it belong to its section
        rw [parseLine_header (htrim.symm ▸ hheader)] at hline
        cases hline
        rw [sectionsOf_header (by rw [hheader]; rfl)]
        simp only [List.foldl_cons, List.filterMap_nil, List.foldl_nil, ConfSection.isInterface,
          ConfSection.isPeer, ConfSection.named, hheader, hview.flags]
        rfl
      | none =>
        -- any other line: its entry comes first
        have hfirst := hview.parseLine (htrim.symm ▸ hheader) hline
        obtain ⟨hin, hpeer⟩ := Prod.mk.inj (parseLine_sections (htrim.symm ▸ hheader) hline)
        rw [htrim] at hfirst
        rw [sectionsOf_line hheader, hin, hpeer, hfirst]
        cases hentry : entry env l with
        | none => rw [List.filterMap_cons_none hentry]; rfl
        | some kv => rw [List.filterMap_cons_some hentry]; rfl

/-- The state that a successful parse ends in. -/
theorem parse_ok_state {conf : Text} {w : WireGuardConfig}
    (h : WireGuardConfig.parse env conf = .ok w) :
    ∃ st, (content (lines conf)).foldlM (Phobos.parseLine env) parseInit = .ok st
      ∧ parseFinish st = .ok w := by
  unfold WireGuardConfig.parse at h
  rw [← (parseLine_trims env).foldlM_content] at h
  cases hread : (content (lines conf)).foldlM (Phobos.parseLine env) parseInit with
  | error e => rw [hread] at h; cases h
  | ok st =>
    rw [hread] at h
    exact ⟨st, rfl, h⟩

/-- What a configuration takes over from the state. -/
structure Finished (st : ParseState) (w : WireGuardConfig) : Prop where
  clientIpv4 : st.clientIpv4 = some w.clientIpv4
  clientIpv4Prefix : st.clientIpv4Prefix = w.clientIpv4Prefix
  dnsServers : w.dnsServers ≠ []
  mtu : st.mtu = w.mtu
  peerPublicKey : st.peerPublicKey = some w.peerPublicKey
  presharedKey : st.presharedKey = w.presharedKey
  persistentKeepalive : st.persistentKeepalive = w.persistentKeepalive
  allowedIps : st.allowedIps = w.allowedIps

theorem finished {w : WireGuardConfig} (h : parseFinish st = .ok w) : Finished st w := by
  unfold parseFinish at h
  split at h
  · cases h
  split at h
  · cases h
  · next key hkey =>
    split at h
    · cases h
    · next addr haddr =>
      cases h
      -- key and address are asked for, the servers have a default
      refine ⟨haddr, rfl, ?_, rfl, hkey, rfl, rfl, rfl⟩
      dsimp only
      split
      · exact List.cons_ne_nil _ _
      · next hservers => exact fun hnil => hservers (List.isEmpty_iff.mpr hnil)

theorem Projects.read (hview : Projects env view onInterface onPeer) {conf : Text}
    (h : (content (lines conf)).foldlM (Phobos.parseLine env) parseInit = .ok st) :
    view st = (readSections conf).2.foldl
      (fun v s => (s.entries env).foldl (onEntry onInterface onPeer s.isInterface s.isPeer) v)
      (view parseInit) := by
  -- without flags the entries before the first header do nothing
  have hfront : ∀ kvs : List (Text × Text),
      kvs.foldl (onEntry onInterface onPeer parseInit.inInterface parseInit.inPeer)
        (view parseInit) = view parseInit := fun _ => List.foldl_fixed _
  rw [hview.foldlM (clean_content _) h, hfront]
  rfl

/-- What only [Interface] entries change. -/
theorem Projects.interface_only (hview : Projects env view onInterface fun v _ => v) {conf : Text}
    (h : (content (lines conf)).foldlM (Phobos.parseLine env) parseInit = .ok st) :
    view st = (interfaceEntries env conf).foldl onInterface (view parseInit) := by
  rw [hview.read h, interfaceEntries, interfaceSections]
  generalize view parseInit = v
  induction (readSections conf).2 generalizing v with
  | nil => rfl
  | cons s secs ih =>
    rw [List.foldl_cons, ih]
    cases hin : s.isInterface with
    | true => simp [List.filter_cons_of_pos, hin, onEntry]
    | false => simp [hin, onEntry]

/-- What only [Peer] entries change. -/
theorem Projects.peer_only (hview : Projects env view (fun v _ => v) onPeer) {conf : Text}
    (h : (content (lines conf)).foldlM (Phobos.parseLine env) parseInit = .ok st) :
    view st = (peerEntries env conf).foldl onPeer (view parseInit) := by
  rw [hview.read h, peerEntries, peerSections]
  generalize view parseInit = v
  induction (readSections conf).2 generalizing v with
  | nil => rfl
  | cons s secs ih =>
    rw [List.foldl_cons, ih]
    cases hpeer : s.isPeer with
    | true => simp [List.filter_cons_of_pos, hpeer, onEntry, ConfSection.not_isInterface hpeer]
    | false => simp [hpeer, onEntry]

end Phobos
