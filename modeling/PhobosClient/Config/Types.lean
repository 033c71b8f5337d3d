import PhobosClient.Lib.IpAddr
import PhobosClient.Lib.Text
import PhobosClient.Wire.Crc8

/-!
# PhobosClient — configurations and profiles (`src/wg_config.rs`, `src/archive.rs`)

The two records that the parsers build and the tunnel reads.
-/

namespace Phobos

/-- A 32-byte key: `[u8; 32]`. -/
abbrev Key32 := { bytes : Bytes // bytes.length = 32 }

structure WireGuardConfig where
  privateKey : Key32
  clientIpv4 : Ipv4Addr
  clientIpv4Prefix : BitVec 8
  clientIpv6 : Option Ipv6Addr
  dnsServers : List IpAddr
  mtu : Nat
  peerPublicKey : Key32
  presharedKey : Option Key32
  persistentKeepalive : Option (BitVec 16)
  allowedIps : List Text
  deriving DecidableEq

structure PhobosProfile where
  clientName : Text
  target : Text
  key : Bytes
  masking : Text
  localPort : BitVec 16
  maxDummy : Nat
  obfuscateBytes : Nat
  rawWgConf : Text
  readyWgConfContent : Text
  readyWgConfPath : Option Text
  deriving DecidableEq

end Phobos
