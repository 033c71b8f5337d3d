import PhobosClient.Config.Types
import PhobosClient.Lib.Casing

/-!
# PhobosClient — reading a WireGuard configuration (`src/wg_config.rs`)

`parse` goes over the lines with two section flags and one accumulator for every field, and
fails at the first key that does not decode. What it needs from other crates and from the
standard library's address parser stands in `Externals`.

A line counts only for what is left of it after trimming (`parseLine_trims`).
-/

namespace Phobos

open Text

/-- Functions of other crates and tables that the parsers use: the error of `base64Decode` is
the text it is displayed with. -/
structure Externals where
  casing : CaseData
  base64Decode : Text → Except String Bytes
  parseIpAddr : Text → Option IpAddr

/-- The name between the brackets, when the trimmed line is a section header. -/
def sectionHeader (trimmed : Text) : Option Text :=
  if trimmed.head? = some '[' ∧ trimmed.getLast? = some ']' then
    some (trim trimmed.tail.dropLast)
  else none

/-- A line that is skipped: blank or a comment. -/
def isSkipped (trimmed : Text) : Bool :=
  trimmed.head? = some '#' || trimmed.head? = some ';' || trimmed.isEmpty

structure ParseState where
  privateKey : Option Key32
  clientIpv4 : Option Ipv4Addr
  clientIpv4Prefix : BitVec 8
  clientIpv6 : Option Ipv6Addr
  dnsServers : List IpAddr
  mtu : Nat
  peerPublicKey : Option Key32
  presharedKey : Option Key32
  persistentKeepalive : Option (BitVec 16)
  allowedIps : List Text
  inInterface : Bool
  inPeer : Bool

def parseInit : ParseState :=
  ⟨none, none, 32, none, [], 1280, none, none, none, [], false, false⟩

variable (env : Externals)

def decodeKey32 (val : Text) : Except String Key32 :=
  match env.base64Decode (trim val) with
  | .error e => .error s!"Base64 decode error: {e}"
  | .ok bytes =>
    if h : bytes.length = 32 then .ok ⟨bytes, h⟩
    else .error s!"Expected 32 bytes key, got {bytes.length} bytes"

/-- An address is kept when it is the first of its family; an IPv4 address written without a
prefix length leaves that as it is. -/
def takeAddress (st : ParseState) (ip : Option IpAddr) (prefixLen : Option (BitVec 8)) :
    ParseState :=
  match ip with
  | some (.v4 v4) =>
    if st.clientIpv4.isNone then
      { st with
        clientIpv4 := some v4
        clientIpv4Prefix := prefixLen.getD st.clientIpv4Prefix }
    else st
  | some (.v6 v6) => if st.clientIpv6.isNone then { st with clientIpv6 := some v6 } else st
  | none => st

/-- One of the comma-separated parts of an `Address` line. -/
def addAddress (st : ParseState) (part : Text) : ParseState :=
  let part := trim part
  match splitOnce '/' part with
  | some (ipStr, prefixStr) =>
    let prefixLen := .ofNat 8 ((parseUnsigned 8 prefixStr).getD 32)
    takeAddress st (env.parseIpAddr ipStr) (some prefixLen)
  | none => takeAddress st (env.parseIpAddr part) none

def interfaceKey (st : ParseState) (key val : Text) : Except String ParseState :=
  if key = "privatekey".toList then
    match decodeKey32 env val with
    | .error e => .error s!"Invalid PrivateKey in [Interface]: {e}"
    | .ok bytes => .ok { st with privateKey := some bytes }
  else if key = "address".toList then
    .ok ((val.splitOn ',').foldl (addAddress env) st)
  else if key = "dns".toList then
    .ok { st with
      dnsServers := st.dnsServers ++
        (val.splitOn ',').filterMap fun part => env.parseIpAddr (trim part) }
  else if key = "mtu".toList then
    match parseUnsigned 64 val with
    | some m => .ok { st with mtu := min m 1280 }
    | none => .ok st
  else .ok st

def peerKey (st : ParseState) (key val : Text) : Except String ParseState :=
  if key = "publickey".toList then
    match decodeKey32 env val with
    | .error e => .error s!"Invalid PublicKey in [Peer]: {e}"
    | .ok bytes => .ok { st with peerPublicKey := some bytes }
  else if key = "presharedkey".toList then
    match decodeKey32 env val with
    | .error e => .error s!"Invalid PresharedKey in [Peer]: {e}"
    | .ok bytes => .ok { st with presharedKey := some bytes }
  else if key = "allowedips".toList then
    .ok { st with allowedIps := st.allowedIps ++ (val.splitOn ',').map trim }
  else if key = "persistentkeepalive".toList then
    match parseUnsigned 16 val with
    | some pk => if pk > 0 then .ok { st with persistentKeepalive := some (.ofNat 16 pk) } else .ok st
    | none => .ok st
  else .ok st

/-- The body of the loop over the lines. -/
def parseLine (st : ParseState) (line : Text) : Except String ParseState :=
  let trimmed := trim line
  if isSkipped trimmed then .ok st
  else match sectionHeader trimmed with
    | some sec =>
      .ok { st with
        inInterface := eqIgnoreAsciiCase sec "interface".toList
        inPeer := eqIgnoreAsciiCase sec "peer".toList }
    | none =>
      match splitOnce '=' trimmed with
      | some (k, v) =>
        let key := env.casing.toLowercase (trim k)
        let val := trim v
        if st.inInterface then interfaceKey env st key val
        else if st.inPeer then peerKey env st key val
        else .ok st
      | none => .ok st

/-- What follows the loop: missing fields, and the default name servers. -/
def parseFinish (st : ParseState) : Except String WireGuardConfig :=
  match st.privateKey with
  | none => .error "Missing PrivateKey in [Interface]"
  | some privateKey =>
    match st.peerPublicKey with
    | none => .error "Missing PublicKey in [Peer]"
    | some peerPublicKey =>
      match st.clientIpv4 with
      | none => .error "Missing IPv4 Address in [Interface]"
      | some clientIpv4 =>
        .ok {
          privateKey, clientIpv4, peerPublicKey
          clientIpv4Prefix := st.clientIpv4Prefix
          clientIpv6 := st.clientIpv6
          dnsServers :=
            if st.dnsServers.isEmpty then [.v4 (.ofOctets 1 1 1 1), .v4 (.ofOctets 8 8 8 8)]
            else st.dnsServers
          mtu := st.mtu
          presharedKey := st.presharedKey
          persistentKeepalive := st.persistentKeepalive
          allowedIps := st.allowedIps }

/-- `WireGuardConfig::parse`. -/
def WireGuardConfig.parse (conf : Text) : Except String WireGuardConfig :=
  match (lines conf).foldlM (parseLine env) parseInit with
  | .error e => .error e
  | .ok st => parseFinish st

theorem parseLine_trims : Trims (parseLine env) where
  trim := by
    intro st l
    simp only [parseLine, trim_trim]
  blank := fun st => rfl

theorem isSkipped_of_header {trimmed sec : Text} (h : sectionHeader trimmed = some sec) :
    isSkipped trimmed = false := by
  unfold sectionHeader at h
  split at h
  · next hbrackets =>
    cases trimmed with
    | nil => cases hbrackets.1
    | cons c cs =>
      cases hbrackets.1
      rfl
  · cases h

variable {env}

/-- A header only sets the section flags. -/
theorem parseLine_header {l sec : Text} (hheader : sectionHeader (trim l) = some sec)
    (st : ParseState) : parseLine env st l = .ok { st with
      inInterface := eqIgnoreAsciiCase sec "interface".toList
      inPeer := eqIgnoreAsciiCase sec "peer".toList } := by
  simp only [parseLine, isSkipped_of_header hheader, hheader]
  rfl

end Phobos
