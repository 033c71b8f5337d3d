import PhobosClient.Config.WgConfig

/-!
# PhobosClient — what one line changes (`src/wg_config.rs`)

Two kinds of lines matter to a program that edits configurations. A line without a header
leaves the section flags alone (`parseLine_sections`). And the MTU and the allowed addresses
have no effect on the other fields (**`readCore_congr`**), so a line that sets only these is
*inert*: it may be left out or replaced by another one.

Which line sets which field is decided by the lower case of its key. `HasKey` speaks about
the text of the line instead, and `inert_mtu`, `inert_endpoint` and `inert_allowedIps` find
the lines inert that start with these words.
-/

namespace Phobos

open Text CaseData

variable (env : Externals) {p l : Text}

/-! ## Reading up to the changeable fields -/

/-- A state with other values in the fields that the rewriting may change. -/
def ParseState.patch (st : ParseState) (mtu : Nat) (allowedIps : List Text) : ParseState :=
  { st with mtu, allowedIps }

/-- A state without these fields. -/
def ParseState.core (st : ParseState) : ParseState := st.patch 0 []

section

variable (st : ParseState) (mtu : Nat) (allowedIps : List Text)

theorem takeAddress_patch (ip : Option IpAddr) (prefixLen : Option (BitVec 8)) :
    takeAddress (st.patch mtu allowedIps) ip prefixLen
      = (takeAddress st ip prefixLen).patch mtu allowedIps := by
  unfold takeAddress
  cases ip with
  | none => rfl
  | some ip =>
    cases ip with
    | v4 v4 =>
      rw [show (st.patch mtu allowedIps).clientIpv4 = st.clientIpv4 from rfl]
      cases st.clientIpv4.isNone <;> rfl
    | v6 v6 =>
      rw [show (st.patch mtu allowedIps).clientIpv6 = st.clientIpv6 from rfl]
      cases st.clientIpv6.isNone <;> rfl

theorem addAddress_patch (part : Text) :
    addAddress env (st.patch mtu allowedIps) part
      = (addAddress env st part).patch mtu allowedIps := by
  simp only [addAddress]
  cases splitOnce '/' (Text.trim part) with
  | none => exact takeAddress_patch ..
  | some parts => exact takeAddress_patch ..

theorem addAddresses_patch (parts : List Text) :
    parts.foldl (addAddress env) (st.patch mtu allowedIps)
      = (parts.foldl (addAddress env) st).patch mtu allowedIps := by
  induction parts generalizing st with
  | nil => rfl
  | cons part parts ih => rw [List.foldl_cons, addAddress_patch, ih, List.foldl_cons]

/-- No key of [Interface] reads the two fields. -/
theorem interfaceKey_patch (key val : Text) :
    (interfaceKey env (st.patch mtu allowedIps) key val).map ParseState.core
      = (interfaceKey env st key val).map ParseState.core := by
  unfold interfaceKey
  split
  · cases decodeKey32 env val <;> rfl
  split
  · rw [addAddresses_patch]
    rfl
  split
  · rfl
  split
  · cases parseUnsigned 64 val <;> rfl
  · rfl

/-- Nor does one of [Peer]. -/
theorem peerKey_patch (key val : Text) :
    (peerKey env (st.patch mtu allowedIps) key val).map ParseState.core
      = (peerKey env st key val).map ParseState.core := by
  unfold peerKey
  split
  · cases decodeKey32 env val <;> rfl
  split
  · cases decodeKey32 env val <;> rfl
  split
  · rfl
  split
  · cases parseUnsigned 16 val with
    | none => rfl
    | some pk => by_cases hpk : pk > 0 <;> simp only [hpk, if_true, if_false] <;> rfl
  · rfl

/-- So no line does. -/
theorem parseLine_patch (l : Text) :
    (parseLine env (st.patch mtu allowedIps) l).map ParseState.core
      = (parseLine env st l).map ParseState.core := by
  simp only [parseLine]
  cases isSkipped (Text.trim l) with
  | true => rfl
  | false =>
    cases sectionHeader (Text.trim l) with
    | some sec => rfl
    | none =>
      cases splitOnce '=' (Text.trim l) with
      | none => rfl
      | some kv =>
        show Except.map _ (if st.inInterface then _ else if st.inPeer then _ else _) = _
        cases st.inInterface with
        | true => exact interfaceKey_patch ..
        | false =>
          cases st.inPeer with
          | true => exact peerKey_patch ..
          | false => rfl

/-- Reading lines, seen without the changeable fields. -/
def readCore (st : ParseState) (ls : List Text) : Except String ParseState :=
  (ls.foldlM (parseLine env) st).map ParseState.core

theorem readCore_cons (st : ParseState) (l : Text) (ls : List Text) :
    readCore env st (l :: ls) = (parseLine env st l).bind fun st' => readCore env st' ls :=
  map_foldlM_cons _ st l ls

/-- **The changeable fields have no effect on the others.** -/
theorem readCore_congr {a b : ParseState} (hab : a.core = b.core) (ls : List Text) :
    readCore env a ls = readCore env b ls := by
  induction ls generalizing a b with
  | nil => exact congrArg Except.ok hab
  | cons l ls ih =>
    have hb : a.patch b.mtu b.allowedIps = b := by
      show a.core.patch b.mtu b.allowedIps = b
      rw [hab]
      rfl
    have hline := parseLine_patch env a b.mtu b.allowedIps l
    rw [hb] at hline
    rw [readCore_cons, readCore_cons]
    cases ha : parseLine env a l with
    | error e =>
      rw [ha] at hline
      cases hb : parseLine env b l with
      | error e' => rw [hb] at hline; cases hline; rfl
      | ok b' => rw [hb] at hline; cases hline
    | ok a' =>
      rw [ha] at hline
      cases hb : parseLine env b l with
      | error e' => rw [hb] at hline; cases hline
      | ok b' =>
        rw [hb] at hline
        exact ih (Except.ok.inj hline).symm

end

/-- A line that changes no other field. -/
def Inert (env : Externals) (st : ParseState) (l : Text) : Prop :=
  ∃ st', parseLine env st l = .ok st' ∧ st'.core = st.core

/-- Inert lines may be left out, and others put in their place. -/
theorem Inert.readCore_cons {env : Externals} {st : ParseState} (h : Inert env st l) (ls : List Text) :
    readCore env st (l :: ls) = readCore env st ls := by
  obtain ⟨st', hline, hcore⟩ := h
  rw [Phobos.readCore_cons, hline]
  exact readCore_congr env hcore ls

/-! ## Sections -/

variable {env}

/-- The parser's section flags. -/
def ParseState.sections (st : ParseState) : Bool × Bool := (st.inInterface, st.inPeer)

/-- A state with other values in the fields that an `Address` line may set. -/
def ParseState.withAddress (st : ParseState) (v4 : Option Ipv4Addr) (prefixLen : BitVec 8)
    (v6 : Option Ipv6Addr) : ParseState :=
  { st with clientIpv4 := v4, clientIpv4Prefix := prefixLen, clientIpv6 := v6 }

/-- An address moves the three fields that are about it. -/
theorem takeAddress_eq (st : ParseState) (ip : Option IpAddr) (prefixLen : Option (BitVec 8)) :
    ∃ v4 len v6, takeAddress st ip prefixLen = st.withAddress v4 len v6 := by
  unfold takeAddress
  cases ip with
  | none => exact ⟨_, _, _, rfl⟩
  | some ip => cases ip <;> simp only <;> split <;> exact ⟨_, _, _, rfl⟩

theorem addAddresses_eq (env : Externals) (st : ParseState) (parts : List Text) :
    ∃ v4 len v6, parts.foldl (addAddress env) st = st.withAddress v4 len v6 := by
  induction parts generalizing st with
  | nil => exact ⟨_, _, _, rfl⟩
  | cons part parts ih =>
    have hpart : ∃ v4 len v6, addAddress env st part = st.withAddress v4 len v6 := by
      simp only [addAddress]
      cases splitOnce '/' (Text.trim part) <;> exact takeAddress_eq ..
    obtain ⟨v4, len, v6, hpart⟩ := hpart
    obtain ⟨v4', len', v6', hrest⟩ := ih (st.withAddress v4 len v6)
    exact ⟨v4', len', v6', by rw [List.foldl_cons, hpart, hrest]; rfl⟩

/-- **What an entry of [Interface] can do**, key by key. -/
inductive InterfaceSet (env : Externals) (st : ParseState) : Text → Text → ParseState → Prop where
  | privateKey {val : Text} {bytes : Key32} (hdecode : decodeKey32 env val = .ok bytes) :
      InterfaceSet env st "privatekey".toList val { st with privateKey := some bytes }
  | address {val : Text} :
      InterfaceSet env st "address".toList val ((val.splitOn ',').foldl (addAddress env) st)
  | dns {val : Text} : InterfaceSet env st "dns".toList val { st with
      dnsServers := st.dnsServers ++
        (val.splitOn ',').filterMap fun part => env.parseIpAddr (Text.trim part) }
  | mtu {val : Text} : InterfaceSet env st "mtu".toList val { st with
      mtu := ((parseUnsigned 64 val).map (min · 1280)).getD st.mtu }
  | other {key val : Text} (hprivate : key ≠ "privatekey".toList) (haddress : key ≠ "address".toList)
      (hdns : key ≠ "dns".toList) (hmtu : key ≠ "mtu".toList) : InterfaceSet env st key val st

/-- The value of a `PersistentKeepalive` entry; zero is none. -/
def keepaliveValue (val : Text) : Option (BitVec 16) :=
  (parseUnsigned 16 val).bind fun pk => if pk > 0 then some (.ofNat 16 pk) else none

/-- **What an entry of [Peer] can do**, key by key. -/
inductive PeerSet (env : Externals) (st : ParseState) : Text → Text → ParseState → Prop where
  | publicKey {val : Text} {bytes : Key32} (hdecode : decodeKey32 env val = .ok bytes) :
      PeerSet env st "publickey".toList val { st with peerPublicKey := some bytes }
  | presharedKey {val : Text} {bytes : Key32} (hdecode : decodeKey32 env val = .ok bytes) :
      PeerSet env st "presharedkey".toList val { st with presharedKey := some bytes }
  | allowedIps {val : Text} : PeerSet env st "allowedips".toList val { st with
      allowedIps := st.allowedIps ++ (val.splitOn ',').map Text.trim }
  | keepalive {val : Text} : PeerSet env st "persistentkeepalive".toList val { st with
      persistentKeepalive := (keepaliveValue val).or st.persistentKeepalive }
  | other {key val : Text} (hpublic : key ≠ "publickey".toList)
      (hshared : key ≠ "presharedkey".toList) (hips : key ≠ "allowedips".toList)
      (hkeepalive : key ≠ "persistentkeepalive".toList) : PeerSet env st key val st

/-- Every entry of [Interface] is one of these. -/
theorem interfaceKey_set {st st' : ParseState} {key val : Text}
    (h : interfaceKey env st key val = .ok st') : InterfaceSet env st key val st' := by
  unfold interfaceKey at h
  split at h
  · next hkey =>
    subst hkey
    cases hdecode : decodeKey32 env val <;> rw [hdecode] at h <;> cases h
    exact .privateKey hdecode
  split at h
  · next hkey => cases hkey; cases h; exact .address
  split at h
  · next hkey => cases hkey; cases h; exact .dns
  split at h
  · next hkey =>
    subst hkey
    -- a number that does not parse leaves the MTU alone
    have hset := @InterfaceSet.mtu env st val
    cases hnum : parseUnsigned 64 val <;> rw [hnum] at h hset <;> cases h <;> exact hset
  · next hprivate haddress hdns hmtu =>
    cases h
    exact .other hprivate haddress hdns hmtu

/-- Every entry of [Peer] is one of these. -/
theorem peerKey_set {st st' : ParseState} {key val : Text}
    (h : peerKey env st key val = .ok st') : PeerSet env st key val st' := by
  unfold peerKey at h
  split at h
  · next hkey =>
    subst hkey
    cases hdecode : decodeKey32 env val <;> rw [hdecode] at h <;> cases h
    exact .publicKey hdecode
  split at h
  · next hkey =>
    subst hkey
    cases hdecode : decodeKey32 env val <;> rw [hdecode] at h <;> cases h
    exact .presharedKey hdecode
  split at h
  · next hkey => cases hkey; cases h; exact .allowedIps
  split at h
  · next hkey =>
    subst hkey
    -- so does one of the keepalive, and a zero
    have hset := @PeerSet.keepalive env st val
    unfold keepaliveValue at hset
    cases hnum : parseUnsigned 16 val with
    | none => rw [hnum] at h hset; cases h; exact hset
    | some pk =>
      rw [hnum, Option.bind_some] at hset
      rw [hnum] at h
      simp only at h
      split at h
      · next hpos => rw [if_pos hpos] at hset; cases h; exact hset
      · next hpos => rw [if_neg hpos] at hset; cases h; exact hset
  · next hpublic hshared hips hkeepalive =>
    cases h
    exact .other hpublic hshared hips hkeepalive

/-- An entry of [Interface] leaves the sections alone, and so the MTU but for its own entry. -/
theorem interfaceKey_frame {st st' : ParseState} {key val : Text}
    (h : interfaceKey env st key val = .ok st') : st'.sections = st.sections
      ∧ st'.mtu = ((if key = "mtu".toList then parseUnsigned 64 val else none).map
        (min · 1280)).getD st.mtu := by
  cases interfaceKey_set h with
  | privateKey hdecode => rw [if_neg (by decide)]; exact ⟨rfl, rfl⟩
  | address =>
    obtain ⟨v4, len, v6, hfold⟩ := addAddresses_eq env st (val.splitOn ',')
    rw [if_neg (by decide), hfold]
    exact ⟨rfl, rfl⟩
  | dns => rw [if_neg (by decide)]; exact ⟨rfl, rfl⟩
  | mtu => rw [if_pos rfl]; exact ⟨rfl, rfl⟩
  | other _ _ _ hmtu => rw [if_neg hmtu]; exact ⟨rfl, rfl⟩

theorem peerKey_frame {st st' : ParseState} {key val : Text}
    (h : peerKey env st key val = .ok st') :
    st'.sections = st.sections ∧ st'.mtu = st.mtu := by
  cases peerKey_set h <;> exact ⟨rfl, rfl⟩

/-- Only headers change the section. -/
theorem parseLine_sections {st st' : ParseState} (hheader : sectionHeader (Text.trim l) = none)
    (h : parseLine env st l = .ok st') : st'.sections = st.sections := by
  simp only [parseLine, hheader] at h
  split at h
  · cases h
    rfl
  split at h
  · split at h
    · exact (interfaceKey_frame h).1
    split at h
    · exact (peerKey_frame h).1
    · cases h
      rfl
  · cases h
    rfl

/-! ## Lines with a key -/

/-- The line starts with the word `p`, up to ASCII case. -/
def HasKey (p l : Text) : Prop :=
  ∃ ws q r, l = ws ++ (q ++ r) ∧ (∀ c ∈ ws, isWhitespace c = true) ∧
    q.map Char.toLower = p ∧ ∀ c ∈ q, c.isAlpha = true

theorem word_of_alpha {q : Text} (hne : q ≠ []) (hq : ∀ c ∈ q, c.isAlpha = true) : Word q where
  head := fun c hc => Char.not_isWhitespace_of_isAlpha (hq c (List.mem_of_mem_head? hc))
  last := fun c hc => Char.not_isWhitespace_of_isAlpha (hq c (List.mem_of_mem_getLast? hc))
  ne_nil := hne

/-- What trimming leaves of a line with a key. -/
theorem HasKey.trim (h : HasKey p l) (hp : p ≠ []) :
    ∃ q r, Text.trim l = q ++ r ∧ q ≠ [] ∧ q.map Char.toLower = p ∧ ∀ c ∈ q, c.isAlpha = true := by
  obtain ⟨ws, q, r, rfl, hws, hmap, hq⟩ := h
  have hne : q ≠ [] := by
    rintro rfl
    exact hp hmap.symm
  exact ⟨q, trimEnd r, trim_word hws (word_of_alpha hne hq), hne, hmap, hq⟩

/-- The test of the rewriting finds a key. -/
theorem hasKey_of_lower (hp : plain p = true)
    (h : p.isPrefixOf (env.casing.toLowercase (Text.trim l)) = true) : HasKey p l := by
  obtain ⟨q, r, htrim, hmap, hq⟩ := prefix_lower hp [] _ (List.isPrefixOf_iff_prefix.mp h)
  have hend : l.dropWhile isWhitespace
      = Text.trim l ++ (l.dropWhile isWhitespace).rtakeWhile isWhitespace :=
    (List.rdropWhile_append_rtakeWhile ..).symm
  refine ⟨l.takeWhile isWhitespace, q, r ++ (l.dropWhile isWhitespace).rtakeWhile isWhitespace,
    ?_, fun c hc => List.mem_takeWhile_imp hc, hmap, hq⟩
  rw [← List.append_assoc q, ← htrim, ← hend, List.takeWhile_append_dropWhile]

/-- A line with a key is read as a value for a key that starts with it, or ignored. -/
theorem parseLine_hasKey (h : HasKey p l) (hp : p ≠ []) (st : ParseState) :
    parseLine env st l = .ok st ∨ ∃ rest val, parseLine env st l =
      if st.inInterface then interfaceKey env st (p ++ rest) val
      else if st.inPeer then peerKey env st (p ++ rest) val
      else .ok st := by
  obtain ⟨q, r, htrim, hne, hmap, hq⟩ := h.trim hp
  have halpha : ∀ c : Char, c.isAlpha = false → (q ++ r).head? ≠ some c := by
    intro c hc hhead
    cases q with
    | nil => exact hne rfl
    | cons d ds =>
      cases hhead
      rw [hq c List.mem_cons_self] at hc
      cases hc
  -- the line begins with a letter, so it is no comment and no header
  have hskip : isSkipped (q ++ r) = false := by
    have hempty : (q ++ r).isEmpty = false := by
      cases q with
      | nil => exact absurd rfl hne
      | cons => rfl
    rw [isSkipped, decide_eq_false (halpha '#' (by decide)),
      decide_eq_false (halpha ';' (by decide)), hempty]
    rfl
  have hheader : sectionHeader (q ++ r) = none := if_neg fun h => halpha '[' (by decide) h.1
  have heq : '=' ∉ q := fun hmem => absurd (hq '=' hmem) (by decide)
  rw [parseLine, htrim, hskip, hheader, splitOnce_append heq]
  cases hsplit : splitOnce '=' r with
  | none => exact .inl rfl
  | some kv =>
    obtain ⟨k, v⟩ := kv
    -- what follows the word belongs to the key as well
    refine .inr ⟨env.casing.lowerFrom (q.reverse ++ []) (trimEnd k), Text.trim v, ?_⟩
    have hkey : env.casing.toLowercase (Text.trim (q ++ k))
        = p ++ env.casing.lowerFrom (q.reverse ++ []) (trimEnd k) := by
      have hword := trim_word (r := k) (fun c hc => absurd hc List.not_mem_nil)
        (word_of_alpha hne hq)
      have hascii : ∀ c ∈ q, c.toNat < 128 := fun c hc => Char.toNat_lt_of_isAlpha (hq c hc)
      rw [show q ++ k = [] ++ (q ++ k) from rfl, hword, toLowercase, lowerFrom_ascii hascii, hmap]
    rw [← hkey]
    rfl

/-- Keys with different first letters. -/
theorem append_ne {q : Text} (hp : p ≠ []) (hhead : p.head? ≠ q.head?) (rest : Text) :
    p ++ rest ≠ q := by
  rintro rfl
  cases p with
  | nil => exact hp rfl
  | cons c cs => exact hhead rfl

/-- A line that gives the MTU, -/
theorem inert_mtu (h : HasKey "mtu".toList l) {st : ParseState} (hst : st.inInterface = true) :
    Inert env st l := by
  rcases parseLine_hasKey h (by decide) st with hok | ⟨rest, val, hline⟩
  · exact ⟨st, hok, rfl⟩
  · rw [if_pos hst] at hline
    unfold interfaceKey at hline
    rw [if_neg (append_ne (by decide) (by decide) rest),
      if_neg (append_ne (by decide) (by decide) rest),
      if_neg (append_ne (by decide) (by decide) rest)] at hline
    split at hline
    · cases hnum : parseUnsigned 64 val with
      | none => rw [hnum] at hline; exact ⟨st, hline, rfl⟩
      | some m => rw [hnum] at hline; exact ⟨_, hline, rfl⟩
    · exact ⟨st, hline, rfl⟩

/-- one that gives the endpoint, -/
theorem inert_endpoint (h : HasKey "endpoint".toList l) {st : ParseState}
    (hst : st.inInterface = false ∧ st.inPeer = true) : Inert env st l := by
  rcases parseLine_hasKey h (by decide) st with hok | ⟨rest, val, hline⟩
  · exact ⟨st, hok, rfl⟩
  · rw [hst.1, hst.2, if_neg Bool.false_ne_true, if_pos rfl] at hline
    unfold peerKey at hline
    rw [if_neg (append_ne (by decide) (by decide) rest),
      if_neg (append_ne (by decide) (by decide) rest),
      if_neg (append_ne (by decide) (by decide) rest),
      if_neg (append_ne (by decide) (by decide) rest)] at hline
    exact ⟨st, hline, rfl⟩

/-- and one that gives ranges. -/
theorem inert_allowedIps (h : HasKey "allowedips".toList l) {st : ParseState}
    (hst : st.inInterface = false ∧ st.inPeer = true) : Inert env st l := by
  rcases parseLine_hasKey h (by decide) st with hok | ⟨rest, val, hline⟩
  · exact ⟨st, hok, rfl⟩
  · rw [hst.1, hst.2, if_neg Bool.false_ne_true, if_pos rfl] at hline
    unfold peerKey at hline
    rw [if_neg (append_ne (by decide) (by decide) rest),
      if_neg (append_ne (by decide) (by decide) rest)] at hline
    split at hline
    · exact ⟨_, hline, rfl⟩
    · rw [if_neg (append_ne (by decide) (by decide) rest)] at hline
      exact ⟨st, hline, rfl⟩

/-! ## Configurations -/

/-- A configuration without the changeable fields. -/
def WireGuardConfig.core (w : WireGuardConfig) : WireGuardConfig :=
  { w with mtu := 0, allowedIps := [] }

/-- The end of the parse does not depend on them either. -/
theorem parseFinish_core (st : ParseState) :
    (parseFinish st.core).map WireGuardConfig.core = (parseFinish st).map WireGuardConfig.core := by
  obtain ⟨privateKey, clientIpv4, _, _, _, _, peerPublicKey, _, _, _, _, _⟩ := st
  cases privateKey with
  | none => rfl
  | some privateKey =>
    cases peerPublicKey with
    | none => rfl
    | some peerPublicKey => cases clientIpv4 <;> rfl

/-- Reading a text, seen without the changeable fields. -/
theorem parse_core (conf : Text) :
    (WireGuardConfig.parse env conf).map WireGuardConfig.core
      = (readCore env parseInit (lines conf)).bind fun st =>
        (parseFinish st).map WireGuardConfig.core := by
  unfold WireGuardConfig.parse readCore
  cases (lines conf).foldlM (parseLine env) parseInit with
  | error e => rfl
  | ok st => exact (parseFinish_core st).symm

end Phobos
