import PhobosClient.Config.Entries

/-!
# PhobosClient — the MTU of a configuration (`src/wg_config.rs`, `src/archive.rs`)

The tunnel of this program takes the last `MTU` value of a text, and 1280 at most. In the
rewritten text every value is 1280. **`rewrite_mtu_le_iff`**: the two agree on "at most" for
every text whose last value is 1280 or more, and for one without a value; a smaller one is
raised.
-/

namespace Phobos

open Text

variable (env : Externals)

/-- The MTU that a line of an [Interface] section sets. -/
def mtuEntry (l : Text) : Option Nat :=
  match entry env l with
  | some (key, val) => if key = "mtu".toList then parseUnsigned 64 val else none
  | none => none

/-- The MTU values of lines in a section that is an [Interface], or is not. -/
def bodyMtus (inInterface : Bool) (body : List Text) : List Nat :=
  if inInterface then body.filterMap (mtuEntry env) else []

/-- The MTU values of a text, first to last. -/
def mtuValues (conf : Text) : List Nat :=
  (readSections conf).2.flatMap fun s => bodyMtus env s.isInterface s.body

variable {env}

/-! ## The text as it is -/

/-- The MTU that an entry of an [Interface] section sets. -/
def mtuValue (kv : Text × Text) : Option Nat :=
  if kv.1 = "mtu".toList then parseUnsigned 64 kv.2 else none

/-- A line about the MTU is an entry of the text. -/
theorem mtuEntry_eq (l : Text) : mtuEntry env l = (entry env l).bind mtuValue := by
  unfold mtuEntry
  cases entry env l <;> rfl

/-- The values are those of the [Interface] entries. -/
theorem mtuValues_eq (conf : Text) :
    mtuValues env conf = (interfaceEntries env conf).filterMap mtuValue := by
  have hbody : ∀ s : ConfSection,
      s.body.filterMap (mtuEntry env) = (s.entries env).filterMap mtuValue := fun s => by
    rw [ConfSection.entries, List.filterMap_filterMap]
    exact List.filterMap_congr fun l _ => mtuEntry_eq l
  rw [mtuValues, interfaceEntries, interfaceSections]
  induction (readSections conf).2 with
  | nil => rfl
  | cons s secs ih =>
    rw [List.flatMap_cons, ih, bodyMtus, hbody]
    cases hin : s.isInterface with
    | true => rw [List.filter_cons_of_pos hin, List.flatMap_cons, List.filterMap_append]; rfl
    | false => rw [List.filter_cons_of_neg (by rw [hin]; exact Bool.false_ne_true)]; rfl

/-- Only [Interface] entries change the MTU. -/
theorem projects_mtu : Projects env ParseState.mtu
    (fun m kv => ((mtuValue kv).map (min · 1280)).getD m) fun m _ => m where
  flags _ _ _ := rfl
  interface _ _ _ _ h := (interfaceKey_frame h).2
  peer _ _ _ _ h := (peerKey_frame h).2

/-- Only the last value counts. -/
theorem foldl_min_last (ms : List Nat) (d : Nat) :
    ms.foldl (fun _ m => min m 1280) d = (ms.getLast?.map (min · 1280)).getD d := by
  induction ms using List.reverseRecOn with
  | nil => rfl
  | append_singleton ms m ih => simp

/-- The MTU of the tunnel: the last value of the text, and 1280 at most. -/
theorem parse_mtu {conf : Text} {w : WireGuardConfig}
    (h : WireGuardConfig.parse env conf = .ok w) :
    w.mtu = ((mtuValues env conf).getLast?.map (min · 1280)).getD 1280 := by
  obtain ⟨st, hread, hfinish⟩ := parse_ok_state h
  have hfold : st.mtu = (mtuValues env conf).foldl (fun _ m => min m 1280) 1280 := by
    rw [projects_mtu.interface_only hread, mtuValues_eq, List.foldl_filterMap]
    congr 1
    funext m kv
    cases mtuValue kv <;> rfl
  rw [← (finished hfinish).mtu, hfold, foldl_min_last]

/-! ## The rewritten text -/

/-- The rewritten text has no other value than 1280. -/
theorem mtuValues_rewrite {conf : Text} {localPort : BitVec 16} {m : Nat}
    (hm : m ∈ mtuValues env (rewriteEndpointToLoopback env conf localPort)) : m = 1280 := by
  rw [mtuValues, readSections_rewrite] at hm
  obtain ⟨s', hs', hm⟩ := List.mem_flatMap.mp hm
  obtain ⟨s, hs, rfl⟩ := List.mem_map.mp hs'
  unfold bodyMtus at hm
  split at hm
  · next hinterface =>
    obtain ⟨l, hl, hmtu⟩ := List.mem_filterMap.mp hm
    unfold mtuEntry at hmtu
    cases hentry : entry env l with
    | none => rw [hentry] at hmtu; cases hmtu
    | some kv =>
      obtain ⟨key, val⟩ := kv
      simp only [hentry] at hmtu
      split at hmtu
      · next hkey =>
        subst hkey
        -- the only line with that entry is the one that was written
        have hline := ConfSection.eq_mtuLine (clean_body hs) hinterface hl hentry
        rw [hline, entry_mtuLine] at hentry
        cases hentry
        exact (Option.some.inj hmtu).symm
      · cases hmtu
  · cases hm

/-- The rewritten text is read whenever the text is. -/
theorem parse_rewrite_isOk {conf : Text} (localPort : BitVec 16) {w : WireGuardConfig}
    (h : WireGuardConfig.parse env conf = .ok w) :
    ∃ w', WireGuardConfig.parse env (rewriteEndpointToLoopback env conf localPort) = .ok w' := by
  have hcore := parse_rewrite_core env conf localPort
  rw [h] at hcore
  cases hnew : WireGuardConfig.parse env (rewriteEndpointToLoopback env conf localPort) with
  | error e => rw [hnew] at hcore; cases hcore
  | ok w' => exact ⟨w', rfl⟩

/-- So this is what it parses to. -/
theorem rewrite_mtu {conf : Text} {localPort : BitVec 16} {w : WireGuardConfig}
    (h : WireGuardConfig.parse env (rewriteEndpointToLoopback env conf localPort) = .ok w) :
    w.mtu = 1280 := by
  rw [parse_mtu h]
  cases hlast : (mtuValues env (rewriteEndpointToLoopback env conf localPort)).getLast? with
  | none => rfl
  | some m =>
    rw [mtuValues_rewrite (List.mem_of_getLast? hlast)]
    rfl

/-- **Which MTU the exported configuration has**, compared with that of the tunnel: it is not
larger exactly when the last value of the text is 1280 or more, or there is none. -/
theorem rewrite_mtu_le_iff (env : Externals) (conf : Text) (localPort : BitVec 16)
    (w : WireGuardConfig) (hparse : WireGuardConfig.parse env conf = .ok w) :
    (∃ w', WireGuardConfig.parse env (rewriteEndpointToLoopback env conf localPort) = .ok w'
        ∧ w'.mtu ≤ w.mtu)
      ↔ ∀ m, (mtuValues env conf).getLast? = some m → 1280 ≤ m := by
  obtain ⟨w₁, hrewrite⟩ := parse_rewrite_isOk localPort hparse
  have hold := parse_mtu hparse
  constructor
  · rintro ⟨w', hw', hle⟩ m hlast
    -- a smaller value has been raised
    rw [rewrite_mtu hw', hold, hlast] at hle
    exact Nat.le_trans hle (Nat.min_le_left m 1280)
  · intro hlast
    refine ⟨w₁, hrewrite, ?_⟩
    rw [rewrite_mtu hrewrite, hold]
    cases hm : (mtuValues env conf).getLast? with
    | none => exact Nat.le_refl _
    | some m => exact Nat.le_min.mpr ⟨hlast m hm, Nat.le_refl _⟩

/-! ## Sample configurations -/

def sampleWgConf (mtu : String) : Text :=
  "[Interface]\nPrivateKey = ".toList ++ zeroKeyText
    ++ "\nAddress = 10.8.0.2/32\nMTU = ".toList ++ mtu.toList
    ++ "\n[Peer]\nPublicKey = ".toList ++ zeroKeyText ++ "\n".toList

def parsesWithMtu (conf : Text) (mtu : Nat) : Bool :=
  match WireGuardConfig.parse sampleExternals conf with
  | .ok w => decide (w.mtu = mtu)
  | .error _ => false

theorem of_parsesWithMtu {conf : Text} {mtu : Nat} (h : parsesWithMtu conf mtu = true) :
    ∃ w, WireGuardConfig.parse sampleExternals conf = .ok w ∧ w.mtu = mtu := by
  unfold parsesWithMtu at h
  split at h
  · next w hparse => exact ⟨w, hparse, of_decide_eq_true h⟩
  · cases h

theorem rewrite_mtu_le_iff_1420 :
    ∃ w, WireGuardConfig.parse sampleExternals (sampleWgConf "1420") = .ok w ∧ w.mtu = 1280 ∧
      ∃ w', WireGuardConfig.parse sampleExternals
          (rewriteEndpointToLoopback sampleExternals (sampleWgConf "1420") 13255) = .ok w'
        ∧ w'.mtu ≤ w.mtu := by
  obtain ⟨w, hparse, hmtu⟩ := of_parsesWithMtu
    (show parsesWithMtu (sampleWgConf "1420") 1280 = true by decide +kernel)
  have hlast : (mtuValues sampleExternals (sampleWgConf "1420")).getLast? = some 1420 := by
    decide +kernel
  refine ⟨w, hparse, hmtu, (rewrite_mtu_le_iff _ _ _ w hparse).mpr fun m hm => ?_⟩
  rw [hlast] at hm
  cases hm
  decide

/-- The exported configuration has 1280 where the tunnel has 1200. -/
theorem rewrite_mtu_raises_1200 :
    ∃ w, WireGuardConfig.parse sampleExternals (sampleWgConf "1200") = .ok w ∧ w.mtu = 1200 ∧
      ¬ ∃ w', WireGuardConfig.parse sampleExternals
          (rewriteEndpointToLoopback sampleExternals (sampleWgConf "1200") 13255) = .ok w'
        ∧ w'.mtu ≤ w.mtu := by
  obtain ⟨w, hparse, hmtu⟩ := of_parsesWithMtu
    (show parsesWithMtu (sampleWgConf "1200") 1200 = true by decide +kernel)
  refine ⟨w, hparse, hmtu, ?_⟩
  rintro ⟨w', hparse', hle⟩
  rw [rewrite_mtu hparse', hmtu] at hle
  exact absurd hle (by decide)

end Phobos
