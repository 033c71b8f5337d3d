import PhobosClient.Config.Mtu
import PhobosClient.Config.Peers

/-!
# PhobosClient — the address of a configuration (`src/wg_config.rs`)

`Address` lines are lists of elements, with or without a prefix length. The tunnel gets the first
IPv4 address among them and the prefix length written behind it; an element that does not parse
is passed over, and a prefix length that does not parse is 32 (`parse_address`).

A prefix length that parses is any number up to 255. **`parse_fields_iff`**: the fields of a
configuration are in their ranges exactly when the prefix length of that element is.
-/

namespace Phobos

open Text Assignments

variable (env : Externals)

/-- The elements of the `Address` lines, first to last. -/
def addressElements (conf : Text) : List Text :=
  (valuesOf "address".toList (interfaceEntries env conf)).flatMap fun val =>
    (val.splitOn ',').map trim

/-- What stands before the `/`. -/
def addressPart (element : Text) : Text := ((splitOnce '/' element).map Prod.fst).getD element

/-- The prefix length behind the `/`, when there is one that parses. -/
def prefixPart (element : Text) : Option Nat :=
  ((splitOnce '/' element).map Prod.snd).bind (parseUnsigned 8)

/-- The IPv4 address of an element. -/
def elementIpv4 (element : Text) : Option Ipv4Addr :=
  match env.parseIpAddr (addressPart element) with
  | some (.v4 v4) => some v4
  | _ => none

/-- The first element with an IPv4 address. -/
def firstIpv4 (conf : Text) : Option Text :=
  (addressElements env conf).find? fun element => (elementIpv4 env element).isSome

/-- An element, as the state keeps address and prefix length. -/
def keepFirst (kept : Option Ipv4Addr × BitVec 8) (element : Text) :
    Option Ipv4Addr × BitVec 8 :=
  match kept.1, elementIpv4 env element with
  | none, some v4 =>
    (some v4, if (splitOnce '/' element).isSome then .ofNat 8 ((prefixPart element).getD 32)
      else kept.2)
  | _, _ => kept

def ParseState.address (st : ParseState) : Option Ipv4Addr × BitVec 8 :=
  (st.clientIpv4, st.clientIpv4Prefix)

variable {env}

/-! ## The first IPv4 address -/

/-- The first IPv4 address is taken, with its prefix length. -/
theorem takeAddress_address (st : ParseState) (ip : Option IpAddr)
    (prefixLen : Option (BitVec 8)) : (takeAddress st ip prefixLen).address =
      match st.clientIpv4, ip with
      | none, some (.v4 v4) => (some v4, prefixLen.getD st.clientIpv4Prefix)
      | _, _ => st.address := by
  unfold takeAddress
  cases ip with
  | none => cases st.clientIpv4 <;> rfl
  | some ip =>
    cases ip with
    | v4 v4 => cases hkept : st.clientIpv4 <;> rfl
    | v6 v6 =>
      -- an IPv6 address goes to a field of its own
      have hother : (if st.clientIpv6.isNone then { st with clientIpv6 := some v6 } else st).address
          = st.address := by
        split <;> rfl
      refine hother.trans ?_
      cases st.clientIpv4 <;> rfl

/-- An element of the list is one step of `keepFirst`. -/
theorem addAddress_address (st : ParseState) (part : Text) :
    (addAddress env st part).address = keepFirst env st.address (trim part) := by
  have hfirst : st.address.1 = st.clientIpv4 := rfl
  have hsecond : st.address.2 = st.clientIpv4Prefix := rfl
  unfold addAddress keepFirst elementIpv4 addressPart prefixPart
  dsimp only
  rw [hfirst, hsecond]
  cases splitOnce '/' (trim part) with
  | none =>
    -- without a slash the prefix is the default one
    simp only [takeAddress_address, Option.map_none, Option.getD_none, Option.isSome_none]
    cases st.clientIpv4 <;> cases env.parseIpAddr (trim part) with
    | none => rfl
    | some ip => cases ip <;> rfl
  | some parts =>
    simp only [takeAddress_address, Option.map_some, Option.getD_some, Option.isSome_some]
    cases st.clientIpv4 <;> cases env.parseIpAddr parts.1 with
    | none => rfl
    | some ip => cases ip <;> rfl

/-- And so is the list. -/
theorem addAddresses_address (st : ParseState) (parts : List Text) :
    (parts.foldl (addAddress env) st).address
      = (parts.map trim).foldl (keepFirst env) st.address := by
  induction parts generalizing st with
  | nil => rfl
  | cons part parts ih => rw [List.foldl_cons, ih, addAddress_address]; rfl

/-- What an entry of [Interface] does to the address. -/
def onAddress (env : Externals) (kept : Option Ipv4Addr × BitVec 8) (kv : Text × Text) :
    Option Ipv4Addr × BitVec 8 :=
  ((valuesOf "address".toList [kv]).flatMap fun val => (val.splitOn ',').map trim).foldl
    (keepFirst env) kept

/-- The other keys say nothing about it. -/
theorem onAddress_of_ne {key : Text} (h : key ≠ "address".toList)
    (kept : Option Ipv4Addr × BitVec 8) (val : Text) : onAddress env kept (key, val) = kept := by
  have hvalues : valuesOf "address".toList [(key, val)] = [] := valuesOf_concat_ne h [] val
  rw [onAddress, hvalues]
  rfl

/-- What the parser knows of the address depends on the entries of [Interface] only. -/
theorem address_projects :
    Projects env ParseState.address (onAddress env) fun kept _ => kept where
  flags := fun _ _ _ => rfl
  interface := by
    intro st st' key val h
    cases interfaceKey_set h with
    | address =>
      have hvalues : valuesOf "address".toList [("address".toList, val)] = [val] :=
        valuesOf_concat_self _ [] val
      rw [addAddresses_address, onAddress, hvalues, List.flatMap_singleton]
    | privateKey => rw [onAddress_of_ne (by decide)]; rfl
    | dns => rw [onAddress_of_ne (by decide)]; rfl
    | mtu => rw [onAddress_of_ne (by decide)]; rfl
    | other _ haddress => rw [onAddress_of_ne haddress]
  peer := by
    intro st st' key val h
    cases peerKey_set h <;> rfl

/-- Entry by entry or element by element: the same. -/
theorem foldl_onAddress (kvs : List (Text × Text)) (kept : Option Ipv4Addr × BitVec 8) :
    kvs.foldl (onAddress env) kept
      = ((valuesOf "address".toList kvs).flatMap fun val => (val.splitOn ',').map trim).foldl
        (keepFirst env) kept := by
  induction kvs generalizing kept with
  | nil => rfl
  | cons kv kvs ih =>
    have hcons : valuesOf "address".toList (kv :: kvs)
        = valuesOf "address".toList [kv] ++ valuesOf "address".toList kvs :=
      valuesOf_append _ [kv] kvs
    rw [List.foldl_cons, ih, hcons, List.flatMap_append, List.foldl_append]
    rfl

/-- Once an address is kept, it stays. -/
theorem foldl_keepFirst_some (elements : List Text) (v4 : Ipv4Addr) (prefixLen : BitVec 8) :
    elements.foldl (keepFirst env) (some v4, prefixLen) = (some v4, prefixLen) :=
  List.foldl_fixed' (fun _ => rfl) elements

/-- **Address and prefix length are those of the first element with an IPv4 address.** An element
without a prefix length gets 32, which nothing has changed before it. -/
theorem foldl_keepFirst (env : Externals) (elements : List Text) :
    elements.foldl (keepFirst env) (none, 32)
      = match elements.find? fun element => (elementIpv4 env element).isSome with
        | some element =>
          (elementIpv4 env element, .ofNat 8 ((prefixPart element).getD 32))
        | none => (none, 32) := by
  induction elements with
  | nil => rfl
  | cons element elements ih =>
    cases hv4 : elementIpv4 env element with
    | none =>
      -- not an IPv4 address: nothing is taken yet
      have hkeep : keepFirst env (none, 32) element = (none, 32) := by
        unfold keepFirst
        rw [hv4]
      rw [List.foldl_cons, hkeep, ih, List.find?_cons_of_neg (by rw [hv4]; decide)]
    | some v4 =>
      have hkeep : keepFirst env (none, 32) element
          = (some v4, .ofNat 8 ((prefixPart element).getD 32)) := by
        unfold keepFirst prefixPart
        rw [hv4]
        cases splitOnce '/' element <;> rfl
      -- what has been taken first is kept
      rw [List.foldl_cons, hkeep, foldl_keepFirst_some, List.find?_cons_of_pos (by rw [hv4]; rfl)]
      simp only [hv4]

/-- The address of a configuration: the first element with an IPv4 address, and what it says of
the prefix length. -/
theorem parse_address {conf : Text} {w : WireGuardConfig}
    (h : WireGuardConfig.parse env conf = .ok w) :
    ∃ element, firstIpv4 env conf = some element
      ∧ elementIpv4 env element = some w.clientIpv4
      ∧ w.clientIpv4Prefix = .ofNat 8 ((prefixPart element).getD 32) := by
  obtain ⟨st, hread, hfinish⟩ := parse_ok_state h
  have hfin := finished hfinish
  have hview := address_projects.interface_only hread
  rw [foldl_onAddress, ParseState.address, hfin.clientIpv4, hfin.clientIpv4Prefix] at hview
  have hfold := foldl_keepFirst env (addressElements env conf)
  have hfirst : (addressElements env conf).find? (fun element => (elementIpv4 env element).isSome)
      = firstIpv4 env conf := rfl
  rw [hfirst] at hfold
  have hkept : (some w.clientIpv4, w.clientIpv4Prefix)
      = (addressElements env conf).foldl (keepFirst env) (none, 32) := hview
  rw [hfold] at hkept
  cases hel : firstIpv4 env conf with
  | none => rw [hel] at hkept; cases hkept
  | some element =>
    rw [hel] at hkept
    obtain ⟨haddr, hlen⟩ := Prod.mk.inj hkept
    exact ⟨element, rfl, haddr.symm, hlen⟩

/-! ## The ranges of the fields -/

/-- A number that has been read fits its type. -/
theorem parseUnsigned_lt {bits n : Nat} {s : Text} (h : parseUnsigned bits s = some n) :
    n < 2 ^ bits := by
  -- with or without a sign, the digits that are read
  have hread : ∀ digits : Text, (if digits.isEmpty || !digits.all Char.isDigit then none
      else
        let n := digits.foldl (fun n c => n * 10 + (c.toNat - 48)) 0
        if n < 2 ^ bits then some n else none) = some n → n < 2 ^ bits := by
    intro digits hdigits
    dsimp only at hdigits
    split at hdigits
    · cases hdigits
    · split at hdigits
      · next hlt => cases hdigits; exact hlt
      · cases hdigits
  exact hread _ h

theorem prefixPart_lt {element : Text} {n : Nat} (h : prefixPart element = some n) : n < 256 := by
  obtain ⟨text, -, hparse⟩ := Option.bind_eq_some_iff.mp h
  exact parseUnsigned_lt hparse

/-- A keepalive of zero is none. -/
theorem keepaliveValue_ne_zero {val : Text} : keepaliveValue val ≠ some 0 := by
  intro h
  obtain ⟨pk, hparse, hpositive⟩ := Option.bind_eq_some_iff.mp h
  have hlt : pk < 65536 := parseUnsigned_lt hparse
  split at hpositive
  · next hpos =>
    have hnat := congrArg BitVec.toNat (Option.some.inj hpositive)
    rw [BitVec.toNat_ofNat, Nat.mod_eq_of_lt hlt] at hnat
    exact absurd hnat (Nat.ne_of_gt hpos)
  · cases hpositive

/-- A keepalive of zero is none. -/
theorem parse_keepalive_ne_zero {conf : Text} {w : WireGuardConfig}
    (h : WireGuardConfig.parse env conf = .ok w) : w.persistentKeepalive ≠ some 0 := by
  intro hzero
  have hpeer := congrArg Peer.persistentKeepalive (parse_peer h)
  have hlast : ((valuesOf "persistentkeepalive".toList (peerEntries env conf)).filterMap
      keepaliveValue).getLast? = some 0 := hpeer.symm.trans hzero
  obtain ⟨val, -, hval⟩ := List.mem_filterMap.mp (List.mem_of_getLast? hlast)
  exact keepaliveValue_ne_zero hval

/-- The MTU is cut off at 1280, and 1280 is the default. -/
theorem parse_mtu_le {conf : Text} {w : WireGuardConfig}
    (h : WireGuardConfig.parse env conf = .ok w) : w.mtu ≤ 1280 := by
  rw [parse_mtu h]
  cases (mtuValues env conf).getLast? with
  | none => exact Nat.le_refl _
  | some m => exact Nat.min_le_right m 1280

/-- **When the fields are in their ranges.** Address and prefix length come from the first element
with an IPv4 address; MTU, name servers and keepalive are in their ranges for every text, and the
prefix length exactly when that element does not write a number above 32. -/
theorem parse_fields_iff (env : Externals) (conf : Text) (w : WireGuardConfig)
    (hparse : WireGuardConfig.parse env conf = .ok w) :
    ((∃ element, firstIpv4 env conf = some element
          ∧ elementIpv4 env element = some w.clientIpv4
          ∧ w.clientIpv4Prefix.toNat = (prefixPart element).getD 32)
        ∧ w.clientIpv4Prefix.toNat ≤ 32
        ∧ w.mtu ≤ 1280 ∧ w.dnsServers ≠ [] ∧ w.persistentKeepalive ≠ some 0)
      ↔ ∀ element, firstIpv4 env conf = some element →
          ∀ n, prefixPart element = some n → n ≤ 32 := by
  obtain ⟨first, hfirst, hv4, hlen⟩ := parse_address hparse
  have hnat : w.clientIpv4Prefix.toNat = (prefixPart first).getD 32 := by
    rw [hlen, BitVec.toNat_ofNat]
    -- the length has been read as a `u8`
    refine Nat.mod_eq_of_lt ?_
    cases hpart : prefixPart first with
    | none => decide
    | some n => exact prefixPart_lt hpart
  obtain ⟨st, -, hfinish⟩ := parse_ok_state hparse
  constructor
  · rintro ⟨-, hle, -⟩ element helement n hn
    rw [hfirst] at helement
    cases helement
    rw [hnat, hn] at hle
    exact hle
  · intro hsmall
    -- the other fields are right in any case
    refine ⟨⟨first, hfirst, hv4, hnat⟩, ?_, parse_mtu_le hparse, (finished hfinish).dnsServers,
      parse_keepalive_ne_zero hparse⟩
    rw [hnat]
    cases hpart : prefixPart first with
    | none => exact Nat.le_refl _
    | some n => exact hsmall first hfirst n hpart

/-! ## Sample configurations -/

def sampleAddress (address : String) : Text :=
  "[Interface]\nPrivateKey = ".toList ++ zeroKeyText ++ "\nAddress = ".toList ++ address.toList
    ++ "\n[Peer]\nPublicKey = ".toList ++ zeroKeyText ++ "\n".toList

/-- An element that is no address, and one with a prefix of 24. -/
theorem parse_fields_iff_24 :
    ∃ w, WireGuardConfig.parse sampleExternals (sampleAddress "x, 10.8.0.2/24") = .ok w
      ∧ w.clientIpv4Prefix.toNat ≤ 32 := by
  obtain ⟨w, hparse⟩ := parse_ok_of_isOk
    (show (WireGuardConfig.parse sampleExternals
      (sampleAddress "x, 10.8.0.2/24")).toOption.isSome = true by decide +kernel)
  have hfirst : firstIpv4 sampleExternals (sampleAddress "x, 10.8.0.2/24")
      = some "10.8.0.2/24".toList := by
    decide +kernel
  refine ⟨w, hparse, ((parse_fields_iff _ _ w hparse).mpr fun element helement n hn => ?_).2.1⟩
  rw [hfirst] at helement
  cases helement
  cases (show prefixPart "10.8.0.2/24".toList = some 24 by decide).symm.trans hn
  decide

/-- A prefix length of 200 is taken as it stands. -/
theorem parse_prefix_200 :
    ∃ w, WireGuardConfig.parse sampleExternals (sampleAddress "10.8.0.2/200") = .ok w
      ∧ ¬ w.clientIpv4Prefix.toNat ≤ 32 := by
  obtain ⟨w, hparse⟩ := parse_ok_of_isOk
    (show (WireGuardConfig.parse sampleExternals
      (sampleAddress "10.8.0.2/200")).toOption.isSome = true by decide +kernel)
  have hfirst : firstIpv4 sampleExternals (sampleAddress "10.8.0.2/200")
      = some "10.8.0.2/200".toList := by
    decide +kernel
  obtain ⟨element, helement, -, hlen⟩ := parse_address hparse
  rw [hfirst] at helement
  cases helement
  refine ⟨w, hparse, ?_⟩
  rw [hlen]
  decide

end Phobos
