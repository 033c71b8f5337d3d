import PhobosClient.Lib.IpAddr
import PhobosClient.Lib.LongestMatch
import PhobosClient.Lib.Text

/-!
# Cidr — address blocks and their text

A block is an address with a prefix length; the bits behind the prefix do not count. The
readers follow Rust's standard library: IPv4 addresses are four decimal octets without leading
zeros; IPv6 addresses are eight groups of up to four hexadecimal digits, in which one `::` may
stand for one or more groups of zeros and an IPv4 address for the last two. A prefix length is
a decimal number without leading zeros.

Blocks of prefix length 0 and 1 are what a default route is and what it is split into: the
addresses of a family (`Cidr.whole_covers`) and those with the same leading bit
(`Cidr.half_covers`).
-/

open Text

/-! ## Reading addresses -/

/-- A decimal number without leading zeros. -/
def readDecimal (s : Text) : Option Nat :=
  if s.isEmpty || !s.all Char.isDigit || (s.head? = some '0' && 1 < s.length) then none
  else some (s.foldl (fun n c => n * 10 + (c.toNat - 48)) 0)

def hexDigit (c : Char) : Option Nat :=
  if c.isDigit then some (c.toNat - '0'.toNat)
  else if 'a' ≤ c ∧ c ≤ 'f' then some (c.toNat - 'a'.toNat + 10)
  else if 'A' ≤ c ∧ c ≤ 'F' then some (c.toNat - 'A'.toNat + 10)
  else none

def readOctet (s : Text) : Option (BitVec 8) :=
  (readDecimal s).bind fun n => if n < 256 then some (.ofNat 8 n) else none

/-- `Ipv4Addr::from_str`. -/
def Ipv4Addr.parse (s : Text) : Option Ipv4Addr :=
  match (s.splitOn '.').mapM readOctet with
  | some [a, b, c, d] => some (.ofOctets a b c d)
  | _ => none

def readGroup (s : Text) : Option (BitVec 16) :=
  if s.isEmpty || 4 < s.length then none
  else (s.mapM hexDigit).map fun digits => .ofNat 16 (digits.foldl (fun n d => n * 16 + d) 0)

/-- The groups at the end of an IPv6 address: the last two may be written as an IPv4 address. -/
def readGroups : List Text → Option (List (BitVec 16))
  | [] => some []
  | [last] =>
    match Ipv4Addr.parse last with
    | some addr => some [addr.extractLsb' 16 16, addr.extractLsb' 0 16]
    | none => (readGroup last).map fun g => [g]
  | group :: rest => (readGroup group).bind fun g => (readGroups rest).map (g :: ·)

/-- What stands before and after the first `::`. -/
def splitZeros : Text → Option (Text × Text)
  | [] => none
  | c :: cs =>
    if c = ':' ∧ cs.head? = some ':' then some ([], cs.tail)
    else (splitZeros cs).map fun (front, back) => (c :: front, back)

def Ipv6Addr.ofGroups (groups : List (BitVec 16)) : Ipv6Addr :=
  groups.foldl (fun addr g => addr <<< 16 ||| g.setWidth 128) 0

/-- `Ipv6Addr::from_str`. -/
def Ipv6Addr.parse (s : Text) : Option Ipv6Addr :=
  let fields (s : Text) := if s.isEmpty then [] else s.splitOn ':'
  match splitZeros s with
  | none =>
    (readGroups (fields s)).bind fun groups =>
      if groups.length = 8 then some (.ofGroups groups) else none
  | some (front, back) =>
    ((fields front).mapM readGroup).bind fun head => (readGroups (fields back)).bind fun tail =>
      if head.length + tail.length < 8 then
        some (.ofGroups (head ++ (List.replicate (8 - head.length - tail.length) 0 ++ tail)))
      else none

namespace IpAddr

/-- `IpAddr::from_str`. -/
def parse (s : Text) : Option IpAddr :=
  match Ipv4Addr.parse s with
  | some addr => some (.v4 addr)
  | none => (Ipv6Addr.parse s).map .v6

/-- The number of bits. -/
def width : IpAddr → Nat
  | .v4 _ => 32
  | .v6 _ => 128

/-- The leading bit: which half of its family the address is in. -/
def msb : IpAddr → Bool
  | .v4 addr => addr.msb
  | .v6 addr => addr.msb

end IpAddr

example : IpAddr.parse "fe80::a:10.1.2.3".toList
    = some (.v6 0xfe800000000000000000000a0a010203) := by decide

/-! ## Blocks -/

structure Cidr where
  addr : IpAddr
  prefixLen : Nat
  le : prefixLen ≤ addr.width
  deriving DecidableEq

namespace Cidr

/-- The block contains the address. -/
def Covers (c : Cidr) (a : IpAddr) : Prop :=
  match c.addr, a with
  | .v4 net, .v4 a => LongestMatch.Covers net c.prefixLen a
  | .v6 net, .v6 a => LongestMatch.Covers net c.prefixLen a
  | _, _ => False

/-- An address and a prefix length with a `/` between them. -/
def parse (s : Text) : Option Cidr :=
  (splitOnce '/' s).bind fun (addr, len) =>
    (IpAddr.parse addr).bind fun addr => (readDecimal len).bind fun len =>
      if h : len ≤ addr.width then some ⟨addr, len, h⟩ else none

/-- The block of all addresses of a family, written with some address of it. -/
def whole (addr : IpAddr) : Cidr := ⟨addr, 0, Nat.zero_le _⟩

/-- The block of all addresses of a family with the same leading bit. -/
def half (addr : IpAddr) : Cidr := ⟨addr, 1, by cases addr <;> simp [IpAddr.width]⟩

variable {c : Cidr} {addr a : IpAddr}

theorem eq_whole (h : c.prefixLen = 0) : c = whole c.addr := by
  obtain ⟨addr, len, hle⟩ := c
  subst h
  rfl

@[simp] theorem whole_covers : (whole addr).Covers a ↔ addr.isIpv6 = a.isIpv6 := by
  cases addr <;> cases a <;> simp [Covers, whole, IpAddr.isIpv6]

@[simp] theorem half_covers :
    (half addr).Covers a ↔ addr.isIpv6 = a.isIpv6 ∧ addr.msb = a.msb := by
  cases addr <;> cases a <;> simp [Covers, half, IpAddr.isIpv6, IpAddr.msb,
    LongestMatch.covers_one]

end Cidr

/-! ## The characters of a block -/

theorem isDigit_of_readDecimal {s : Text} {n : Nat} (h : readDecimal s = some n) :
    ∀ c ∈ s, c.isDigit = true := by
  unfold readDecimal at h
  split at h
  · cases h
  · next hdigits =>
    simp only [Bool.or_eq_true, not_or, Bool.not_eq_true', Bool.not_eq_false] at hdigits
    exact List.all_eq_true.mp hdigits.1.2

/-- Only the number zero begins with a zero. -/
theorem readDecimal_cases {s : Text} {n : Nat} (h : readDecimal s = some n) :
    s = ['0'] ∧ n = 0 ∨ s.head? ≠ some '0' ∧ n ≠ 0 := by
  have hdigit := isDigit_of_readDecimal h
  unfold readDecimal at h
  split at h
  · cases h
  · next hcanonical =>
    cases h
    simp only [Bool.or_eq_true, not_or, Bool.and_eq_true, decide_eq_true_eq, not_and,
      Nat.not_lt] at hcanonical
    obtain ⟨⟨hne, -⟩, hzero⟩ := hcanonical
    cases s with
    | nil => exact absurd rfl hne
    | cons c cs =>
      by_cases hc : c = '0'
      · subst hc
        have hlen := hzero rfl
        rw [List.length_cons] at hlen
        obtain rfl : cs = [] := List.length_eq_zero_iff.mp (by omega)
        exact .inl ⟨rfl, rfl⟩
      · refine .inr ⟨fun hhead => hc (Option.some.inj hhead), ?_⟩
        have hgrow : ∀ (cs : Text) (n : Nat),
            n ≤ cs.foldl (fun n c => n * 10 + (c.toNat - 48)) n := by
          intro cs
          induction cs with
          | nil => exact fun n => Nat.le_refl n
          | cons d ds ih =>
            intro n
            have hstep : n ≤ n * 10 + (d.toNat - 48) := by omega
            exact Nat.le_trans hstep (ih _)
        have hpos : 0 < c.toNat - 48 := by
          have hdigit := hdigit c List.mem_cons_self
          have hne : c.toNat ≠ '0'.toNat := fun h => hc (Char.toNat_inj.mp h)
          simp only [Char.isDigit, Bool.and_eq_true, decide_eq_true_eq, ge_iff_le,
            UInt32.le_iff_toNat_le] at hdigit
          have hge : 48 ≤ c.toNat := hdigit.1
          have hne : c.toNat ≠ 48 := hne
          omega
        have := hgrow cs (0 * 10 + (c.toNat - 48))
        rw [List.foldl_cons]
        omega

theorem exists_of_mapM {α β : Type} {f : α → Option β} {xs : List α} {ys : List β}
    (h : xs.mapM f = some ys) : ∀ x ∈ xs, ∃ y, f x = some y := by
  induction xs generalizing ys with
  | nil => exact List.forall_mem_nil _
  | cons x xs ih =>
    rw [List.mapM_cons] at h
    cases hx : f x with
    | none => rw [hx] at h; cases h
    | some y =>
      cases hxs : xs.mapM f with
      | none => rw [hx, hxs] at h; cases h
      | some ys' => exact List.forall_mem_cons.mpr ⟨⟨y, hx⟩, ih hxs⟩

/-- The text of an IPv4 address has no colon. -/
theorem colon_notMem_of_parse {s : Text} {addr : Ipv4Addr} (h : Ipv4Addr.parse s = some addr) :
    ':' ∉ s := by
  intro hmem
  unfold Ipv4Addr.parse at h
  split at h
  · next a b c d hoctets =>
    rcases mem_splitOn (c := '.') hmem with hdot | ⟨p, hp, hcolon⟩
    · cases hdot
    · obtain ⟨octet, hoctet⟩ := exists_of_mapM hoctets p hp
      obtain ⟨n, hn, -⟩ := Option.bind_eq_some_iff.mp hoctet
      cases isDigit_of_readDecimal hn ':' hcolon
  · cases h

theorem IpAddr.parse_v4 {s : Text} {addr : Ipv4Addr} (h : parse s = some (.v4 addr)) :
    Ipv4Addr.parse s = some addr := by
  unfold parse at h
  split at h
  · next hv4 =>
    cases h
    exact hv4
  · obtain ⟨_, -, h⟩ := Option.map_eq_some_iff.mp h
    cases h

namespace Cidr

variable {s a d : Text} {c : Cidr} {addr : IpAddr} {n : Nat}

theorem parse_append (ha : '/' ∉ a) (haddr : IpAddr.parse a = some addr)
    (hd : readDecimal d = some n) (hle : n ≤ addr.width) :
    parse (a ++ '/' :: d) = some ⟨addr, n, hle⟩ := by
  rw [parse, splitOnce_append ha, splitOnce, if_pos rfl]
  simp [haddr, hd, hle]

theorem parse_eq_some (h : parse s = some c) : ∃ a d, s = a ++ '/' :: d ∧ '/' ∉ a
    ∧ IpAddr.parse a = some c.addr ∧ readDecimal d = some c.prefixLen := by
  obtain ⟨⟨a, d⟩, hsplit, h⟩ := Option.bind_eq_some_iff.mp h
  obtain ⟨addr, haddr, h⟩ := Option.bind_eq_some_iff.mp h
  obtain ⟨n, hn, h⟩ := Option.bind_eq_some_iff.mp h
  obtain ⟨hs, ha⟩ := splitOnce_eq_some hsplit
  split at h
  · cases h
    exact ⟨a, d, hs, ha, haddr, hn⟩
  · cases h

end Cidr
