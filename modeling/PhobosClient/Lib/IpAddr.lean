/-!
# IpAddr — IPv4 and IPv6 addresses

Addresses as bit vectors, as routing and configuration files use them, and socket addresses.
-/

abbrev Ipv4Addr := BitVec 32
abbrev Ipv6Addr := BitVec 128

inductive IpAddr where
  | v4 (addr : Ipv4Addr)
  | v6 (addr : Ipv6Addr)
  deriving DecidableEq

namespace IpAddr

def isIpv6 : IpAddr → Bool
  | .v4 _ => false
  | .v6 _ => true

/-- The all-zero address of a family. -/
def unspecified (isV6 : Bool) : IpAddr :=
  if isV6 then .v6 0 else .v4 0

end IpAddr

/-- The IPv4 address with the given four octets. -/
def Ipv4Addr.ofOctets (a b c d : BitVec 8) : Ipv4Addr := a ++ b ++ c ++ d

/-- The four octets of an address, first to last. -/
def Ipv4Addr.octets (addr : Ipv4Addr) : List (BitVec 8) :=
  [addr.extractLsb' 24 8, addr.extractLsb' 16 8, addr.extractLsb' 8 8, addr.extractLsb' 0 8]

/-- Dotted decimal notation. -/
def Ipv4Addr.display (addr : Ipv4Addr) : String :=
  String.intercalate "." (addr.octets.map fun octet => toString octet.toNat)

example : (Ipv4Addr.ofOctets 10 25 0 2).display = "10.25.0.2" := by decide

structure SocketAddrV4 where
  ip : Ipv4Addr
  port : BitVec 16
  deriving DecidableEq

def SocketAddrV4.display (addr : SocketAddrV4) : String :=
  s!"{addr.ip.display}:{addr.port.toNat}"

structure SocketAddr where
  ip : IpAddr
  port : BitVec 16
  deriving DecidableEq
