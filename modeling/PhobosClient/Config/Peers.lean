import PhobosClient.Config.Entries

/-!
# PhobosClient — which peer a configuration describes (`src/wg_config.rs`)

A [Peer] section describes a peer: the last public key, preshared key and keepalive that it sets,
and all its allowed ranges (`ConfSection.peer`). The parser keeps one variable for each of them
and resets none at a header, so a text with several [Peer] sections is read as if it were one
section with the entries of all (`parse_peer`): a preshared key goes over to the next peer, and
the allowed ranges pile up.

**`parse_one_peer_iff`**: the result describes one of the peers exactly when that peer has the
last word on every key, and no other has allowed ranges.
-/

namespace Phobos

open Text Assignments

/-- The peer fields of a configuration. -/
structure Peer where
  publicKey : Option Key32
  presharedKey : Option Key32
  persistentKeepalive : Option (BitVec 16)
  allowedIps : List Text
  deriving DecidableEq

variable (env : Externals)

def keyValue (val : Text) : Option Key32 := (decodeKey32 env val).toOption

/-- The peer that entries describe. -/
def describedPeer (entries : List (Text × Text)) : Peer where
  publicKey := ((valuesOf "publickey".toList entries).filterMap (keyValue env)).getLast?
  presharedKey := ((valuesOf "presharedkey".toList entries).filterMap (keyValue env)).getLast?
  persistentKeepalive :=
    ((valuesOf "persistentkeepalive".toList entries).filterMap keepaliveValue).getLast?
  allowedIps := (valuesOf "allowedips".toList entries).flatMap fun val => (val.splitOn ',').map trim

def ConfSection.peer (s : ConfSection) : Peer := describedPeer env (s.entries env)

def WireGuardConfig.peer (w : WireGuardConfig) : Peer :=
  ⟨some w.peerPublicKey, w.presharedKey, w.persistentKeepalive, w.allowedIps⟩

def ParseState.peer (st : ParseState) : Peer :=
  ⟨st.peerPublicKey, st.presharedKey, st.persistentKeepalive, st.allowedIps⟩

namespace Peer

def empty : Peer := ⟨none, none, none, []⟩

/-- What is known of a peer, and then something more. -/
def merge (p q : Peer) : Peer :=
  ⟨q.publicKey.or p.publicKey, q.presharedKey.or p.presharedKey,
    q.persistentKeepalive.or p.persistentKeepalive, p.allowedIps ++ q.allowedIps⟩

/-- Among these peers, `p` gives the last value that any of them gives. -/
def GivesLast {α : Type} (field : Peer → Option α) (peers : List Peer) (p : Peer) : Prop :=
  ∀ v, (peers.filterMap field).getLast? = some v → field p = some v

end Peer

variable {env}

/-! ## All peers are read as one -/

@[simp] theorem describedPeer_nil : describedPeer env [] = Peer.empty := rfl

/-- What is given later wins, and ranges are added up. -/
theorem describedPeer_append (kvs kvs' : List (Text × Text)) :
    describedPeer env (kvs ++ kvs') = (describedPeer env kvs).merge (describedPeer env kvs') := by
  simp only [describedPeer, Peer.merge, valuesOf_append, List.filterMap_append,
    List.getLast?_append, List.flatMap_append]

/-- What one entry says. -/
theorem describedPeer_single (key val : Text) :
    describedPeer env [(key, val)] =
      ⟨if key = "publickey".toList then keyValue env val else none,
        if key = "presharedkey".toList then keyValue env val else none,
        if key = "persistentkeepalive".toList then keepaliveValue val else none,
        if key = "allowedips".toList then (val.splitOn ',').map trim else []⟩ := by
  have hvalues : ∀ k, valuesOf k [(key, val)] = if key = k then [val] else [] := by
    intro k
    unfold valuesOf
    split <;> simp [*]
  have hlast : ∀ {α : Type} (f : Text → Option α) (k : Text),
      ((if key = k then [val] else []).filterMap f).getLast? = if key = k then f val else none := by
    intro α f k
    split
    · exact getLast?_filterMap_cons f val []
    · rfl
  simp only [describedPeer, hvalues, hlast]
  congr 1
  split <;> simp

/-- What the parser knows of the peer depends on the entries of [Peer] only. -/
theorem peer_projects : Projects env ParseState.peer (fun p _ => p)
    fun p kv => p.merge (describedPeer env [kv]) where
  flags := fun _ _ _ => rfl
  interface := by
    intro st st' key val h
    cases interfaceKey_set h with
    | address =>
      -- an address is not about the peer
      obtain ⟨v4, len, v6, hfold⟩ := addAddresses_eq env st (val.splitOn ',')
      rw [hfold]
      rfl
    | _ => rfl
  peer := by
    intro st st' key val h
    cases peerKey_set h with
    | publicKey hdecode =>
      rw [describedPeer_single, if_pos rfl, if_neg (by decide), if_neg (by decide),
        if_neg (by decide), keyValue, hdecode]
      simp [ParseState.peer, Peer.merge, Except.toOption]
    | presharedKey hdecode =>
      rw [describedPeer_single, if_neg (by decide), if_pos rfl, if_neg (by decide),
        if_neg (by decide), keyValue, hdecode]
      simp [ParseState.peer, Peer.merge, Except.toOption]
    | allowedIps =>
      rw [describedPeer_single, if_neg (by decide), if_neg (by decide), if_neg (by decide),
        if_pos rfl]
      simp [ParseState.peer, Peer.merge]
    | keepalive =>
      rw [describedPeer_single, if_neg (by decide), if_neg (by decide), if_pos rfl,
        if_neg (by decide)]
      simp [ParseState.peer, Peer.merge]
    | other hpublic hshared hips hkeepalive =>
      rw [describedPeer_single, if_neg hpublic, if_neg hshared, if_neg hkeepalive, if_neg hips]
      simp [ParseState.peer, Peer.merge]

/-- **The peer of a configuration**: what the entries of all [Peer] sections describe together. -/
theorem parse_peer {conf : Text} {w : WireGuardConfig}
    (h : WireGuardConfig.parse env conf = .ok w) :
    w.peer = describedPeer env (peerEntries env conf) := by
  obtain ⟨st, hread, hfinish⟩ := parse_ok_state h
  have hfin := finished hfinish
  -- entry by entry is the same as all at once
  have hmerge : ∀ (kvs : List (Text × Text)) (p : Peer),
      kvs.foldl (fun p kv => p.merge (describedPeer env [kv])) p
        = p.merge (describedPeer env kvs) := by
    intro kvs p
    induction kvs generalizing p with
    | nil => simp [Peer.merge, Peer.empty]
    | cons kv kvs ih =>
      have hcons : describedPeer env (kv :: kvs)
          = (describedPeer env [kv]).merge (describedPeer env kvs) := describedPeer_append [kv] kvs
      rw [List.foldl_cons, ih, hcons]
      simp only [Peer.merge, Option.or_assoc, List.append_assoc]
  have hview := peer_projects.peer_only hread
  rw [hmerge] at hview
  have hstart : (ParseState.peer parseInit).merge (describedPeer env (peerEntries env conf))
      = describedPeer env (peerEntries env conf) := by
    simp [ParseState.peer, parseInit, Peer.merge]
  rw [← hstart, ← hview, ParseState.peer, hfin.peerPublicKey, hfin.presharedKey,
    hfin.persistentKeepalive, hfin.allowedIps]
  rfl

/-- Field by field: the last value of any peer, and the ranges of all. -/
theorem describedPeer_flatMap (secs : List ConfSection) :
    describedPeer env (secs.flatMap (ConfSection.entries env)) =
      ⟨((secs.map (ConfSection.peer env)).filterMap Peer.publicKey).getLast?,
        ((secs.map (ConfSection.peer env)).filterMap Peer.presharedKey).getLast?,
        ((secs.map (ConfSection.peer env)).filterMap Peer.persistentKeepalive).getLast?,
        (secs.map (ConfSection.peer env)).flatMap Peer.allowedIps⟩ := by
  induction secs with
  | nil => rfl
  | cons s secs ih =>
    rw [List.flatMap_cons, describedPeer_append, ih]
    simp only [Peer.merge, List.map_cons, getLast?_filterMap_cons, List.flatMap_cons]
    rfl

/-! ## When they are one -/

/-- The [Peer] section `s`, among those before and behind it, has the last word: on every key it
says what the last section that says anything says, and the others have no allowed ranges. -/
structure HasLastWord (env : Externals) (conf : Text) (front : List ConfSection) (s : ConfSection)
    (back : List ConfSection) : Prop where
  sections : peerSections conf = front ++ s :: back
  ranges : ∀ t ∈ front ++ back, valuesOf "allowedips".toList (t.entries env) = []
  publicKey : (s.peer env).GivesLast Peer.publicKey ((peerSections conf).map (ConfSection.peer env))
  presharedKey :
    (s.peer env).GivesLast Peer.presharedKey ((peerSections conf).map (ConfSection.peer env))
  persistentKeepalive :
    (s.peer env).GivesLast Peer.persistentKeepalive ((peerSections conf).map (ConfSection.peer env))

theorem givesLast_iff {α : Type} (field : Peer → Option α) {peers : List Peer} {p : Peer}
    (hp : p ∈ peers) : p.GivesLast field peers ↔ field p = (peers.filterMap field).getLast? := by
  unfold Peer.GivesLast
  cases hlast : (peers.filterMap field).getLast? with
  | some v => simp
  | none =>
    -- nobody says anything, and so neither does `p`
    have hnone := List.filterMap_eq_nil_iff.mp (List.getLast?_eq_none_iff.mp hlast)
    simp [hnone p hp]

/-- The ranges of one peer are those of all exactly when the others have none. -/
theorem allowedIps_eq_iff (front : List ConfSection) (s : ConfSection) (back : List ConfSection) :
    (s.peer env).allowedIps
        = ((front ++ s :: back).map (ConfSection.peer env)).flatMap Peer.allowedIps
      ↔ ∀ t ∈ front ++ back, valuesOf "allowedips".toList (t.entries env) = [] := by
  have hnil : ∀ t : ConfSection, (t.peer env).allowedIps = []
      ↔ valuesOf "allowedips".toList (t.entries env) = [] := by
    intro t
    show (valuesOf _ _).flatMap _ = [] ↔ _
    rw [List.flatMap_eq_nil_iff, List.eq_nil_iff_forall_not_mem]
    refine forall_congr' fun val => imp_congr_right fun _ => ?_
    simp [List.splitOn_ne_nil]
  have hflat : ∀ ts : List ConfSection, (ts.map (ConfSection.peer env)).flatMap Peer.allowedIps = []
      ↔ ∀ t ∈ ts, valuesOf "allowedips".toList (t.entries env) = [] := by
    intro ts
    rw [List.flatMap_map, List.flatMap_eq_nil_iff]
    exact forall_congr' fun t => imp_congr_right fun _ => hnil t
  rw [List.map_append, List.map_cons, List.flatMap_append, List.flatMap_cons]
  constructor
  · intro heq
    -- there is no room for the ranges of the others
    have hlen := congrArg List.length heq
    simp only [List.length_append] at hlen
    have hfront := (hflat front).mp (List.eq_nil_of_length_eq_zero (by omega))
    have hback := (hflat back).mp (List.eq_nil_of_length_eq_zero (by omega))
    intro t ht
    exact (List.mem_append.mp ht).elim (hfront t) (hback t)
  · intro hothers
    have hfront := (hflat front).mpr fun t ht => hothers t (List.mem_append_left _ ht)
    have hback := (hflat back).mpr fun t ht => hothers t (List.mem_append_right _ ht)
    rw [hfront, hback, List.nil_append, List.append_nil]

/-- **When the result describes one peer**: exactly when a [Peer] section has the last word on
every key, and no other has allowed ranges. -/
theorem parse_one_peer_iff (env : Externals) (conf : Text) (w : WireGuardConfig)
    (hparse : WireGuardConfig.parse env conf = .ok w) :
    (∃ s ∈ peerSections conf, s.peer env = w.peer)
      ↔ ∃ front s back, HasLastWord env conf front s back := by
  have hw : w.peer = _ := (parse_peer hparse).trans (describedPeer_flatMap (peerSections conf))
  constructor
  · rintro ⟨s, hs, heq⟩
    -- the others are those before it and those behind it
    obtain ⟨front, back, hsplit⟩ := List.append_of_mem hs
    have hmem : s.peer env ∈ (peerSections conf).map (ConfSection.peer env) :=
      List.mem_map_of_mem hs
    rw [hw] at heq
    refine ⟨front, s, back, hsplit, (allowedIps_eq_iff front s back).mp ?_,
      (givesLast_iff _ hmem).mpr ?_, (givesLast_iff _ hmem).mpr ?_, (givesLast_iff _ hmem).mpr ?_⟩
    · rw [← hsplit, heq]
    · rw [heq]
    · rw [heq]
    · rw [heq]
  · rintro ⟨front, s, back, h⟩
    have hs : s ∈ peerSections conf := by
      rw [h.sections]
      exact List.mem_append_right _ List.mem_cons_self
    have hmem : s.peer env ∈ (peerSections conf).map (ConfSection.peer env) :=
      List.mem_map_of_mem hs
    have hranges := (allowedIps_eq_iff front s back).mpr h.ranges
    rw [← h.sections] at hranges
    refine ⟨s, hs, ?_⟩
    rw [hw, ← (givesLast_iff _ hmem).mp h.publicKey, ← (givesLast_iff _ hmem).mp h.presharedKey,
      ← (givesLast_iff _ hmem).mp h.persistentKeepalive, ← hranges]

/-- The only [Peer] section has the last word. -/
theorem hasLastWord_of_single {conf : Text} {s : ConfSection} (h : peerSections conf = [s]) :
    HasLastWord env conf [] s [] := by
  have hgives : ∀ {α : Type} (field : Peer → Option α),
      (s.peer env).GivesLast field ((peerSections conf).map (ConfSection.peer env)) := by
    intro α field
    rw [h]
    exact (givesLast_iff field List.mem_cons_self).mpr (getLast?_filterMap_cons field _ []).symm
  exact ⟨h, List.forall_mem_nil _, hgives _, hgives _, hgives _⟩

/-! ## Sample configurations -/

/-- The key of 32 bytes of one, in base 64. -/
def onesKeyText : Text := (List.replicate 10 "AQEB".toList).flatten ++ "AQE=".toList

/-- An environment that knows two keys. -/
def twoKeyExternals : Externals :=
  { sampleExternals with
    base64Decode := fun s =>
      if s = zeroKeyText then .ok (List.replicate 32 0)
      else if s = onesKeyText then .ok (List.replicate 32 1)
      else .error "Invalid symbol" }

/-- A peer with a preshared key, and perhaps another one without. -/
def samplePeers (second : Bool) : Text :=
  "[Interface]\nPrivateKey = ".toList ++ zeroKeyText ++ "\nAddress = 10.8.0.2/32\n".toList
    ++ "[Peer]\nPublicKey = ".toList ++ zeroKeyText
    ++ "\nPresharedKey = ".toList ++ zeroKeyText ++ "\n".toList
    ++ if second then "[Peer]\nPublicKey = ".toList ++ onesKeyText ++ "\n".toList else []

theorem parse_ok_of_isOk {conf : Text}
    (h : (WireGuardConfig.parse env conf).toOption.isSome = true) :
    ∃ w, WireGuardConfig.parse env conf = .ok w := by
  cases hparse : WireGuardConfig.parse env conf with
  | error e => rw [hparse] at h; cases h
  | ok w => exact ⟨w, rfl⟩

/-- A configuration with a single peer. -/
theorem parse_one_peer_iff_single :
    ∃ w, WireGuardConfig.parse twoKeyExternals (samplePeers false) = .ok w
      ∧ ∃ s ∈ peerSections (samplePeers false), s.peer twoKeyExternals = w.peer := by
  obtain ⟨w, hparse⟩ := parse_ok_of_isOk
    (show (WireGuardConfig.parse twoKeyExternals (samplePeers false)).toOption.isSome = true by
      decide +kernel)
  obtain ⟨s, hs⟩ : ∃ s, peerSections (samplePeers false) = [s] :=
    List.length_eq_one_iff.mp (by decide +kernel)
  exact ⟨w, hparse, (parse_one_peer_iff _ _ w hparse).mpr ⟨[], s, [], hasLastWord_of_single hs⟩⟩

/-- The second peer is reached with the preshared key of the first. -/
theorem parse_two_peers_mixed :
    ∃ w, WireGuardConfig.parse twoKeyExternals (samplePeers true) = .ok w
      ∧ ¬ ∃ s ∈ peerSections (samplePeers true), s.peer twoKeyExternals = w.peer := by
  obtain ⟨w, hparse⟩ := parse_ok_of_isOk
    (show (WireGuardConfig.parse twoKeyExternals (samplePeers true)).toOption.isSome = true by
      decide +kernel)
  have hnone : ∀ s ∈ peerSections (samplePeers true),
      s.peer twoKeyExternals ≠ describedPeer twoKeyExternals
        (peerEntries twoKeyExternals (samplePeers true)) := by
    decide +kernel
  refine ⟨w, hparse, ?_⟩
  rintro ⟨s, hs, heq⟩
  exact hnone s hs (heq.trans (parse_peer hparse))

end Phobos
