import PhobosClient.Lib.LongestMatch
import PhobosClient.Routes.Manager

/-!
# PhobosClient — where packets go (`src/wintun_adapter.rs`)

The routes that `install_routes` adds are read by the system under longest-prefix matching.
This module says what they do to the destinations.

* **`installRoutes_routes`** — IPv4: the two halves beat every default route and lose to
  every longer one, and the host route beats them both for the server.
* **`closesIpv6_iff`** — IPv6: the halves are optional and their refusal is only reported, so
  a default route through another interface keeps its destinations exactly where the half
  over them is missing.

Everything follows from which of the manager's keys cover a destination (§ the keys) and
which entries an installation leaves (`mem_installRoutes`).
-/

namespace Phobos

open LongestMatch

/-- The route covers the destination: the families agree and the network covers the address. -/
def RouteKey.Covers (k : RouteKey) (a : IpAddr) : Prop :=
  match k.dest, a with
  | .v4 net, .v4 a => LongestMatch.Covers net k.prefixLen a
  | .v6 net, .v6 a => LongestMatch.Covers net k.prefixLen a
  | _, _ => False

namespace RouteTable

/-- The routes of the table that serve a destination. -/
def Serves (table : RouteTable) (a : IpAddr) (k : RouteKey) : Prop :=
  Longest RouteKey.prefixLen (fun k => k ∈ table ∧ k.Covers a) k

/-- A destination is served, and by routes of this interface only. -/
def RoutedTo (table : RouteTable) (ifIndex : Nat) (a : IpAddr) : Prop :=
  (∃ k, table.Serves a k) ∧ ∀ k, table.Serves a k → k.ifIndex = ifIndex

/-- A destination is served by a default route of another interface. -/
def ServedByDefault (table : RouteTable) (ifIndex : Nat) (a : IpAddr) : Prop :=
  ∃ k, table.Serves a k ∧ k.prefixLen = 0 ∧ k.ifIndex ≠ ifIndex

end RouteTable

theorem RouteKey.Covers.prefixLen_le {k : RouteKey} {a : IpAddr} (h : k.Covers a) :
    k.prefixLen ≤ 128 := by
  unfold RouteKey.Covers at h
  split at h
  · exact Nat.le_trans h.len_le (by decide)
  · exact h.len_le
  · cases h

/-- A destination that some route covers is served. -/
theorem RouteTable.exists_serves {table : RouteTable} {a : IpAddr} {k : RouteKey}
    (hk : k ∈ table) (hcovers : k.Covers a) : ∃ k', table.Serves a k' :=
  exists_longest (fun k (h : k ∈ table ∧ k.Covers a) => h.2.prefixLen_le) ⟨hk, hcovers⟩

/-- A destination that some half covers, and no longer route, goes where the halves go. -/
theorem RouteTable.routedTo_of_half {table : RouteTable} {a : IpAddr} {ifIndex : Nat}
    (hcovers : ∀ k ∈ table, k.Covers a →
      k.prefixLen = 0 ∨ k.prefixLen = 1 ∧ k.ifIndex = ifIndex)
    (hhalf : ∃ k, (k ∈ table ∧ k.Covers a) ∧ k.prefixLen = 1) : table.RoutedTo ifIndex a := by
  have hle : ∀ k, k ∈ table ∧ k.Covers a → k.prefixLen ≤ 1 := by
    rintro k ⟨hk, hcover⟩
    rcases hcovers k hk hcover with hzero | ⟨hone, -⟩
    · omega
    · omega
  obtain ⟨half, hmem⟩ := hhalf
  refine ⟨⟨half, (longest_iff hle ⟨half, hmem⟩).mpr hmem⟩, fun k hk => ?_⟩
  -- the longest entries are the halves
  obtain ⟨⟨hmem, hcover⟩, hone⟩ := (longest_iff hle ⟨half, hmem⟩).mp hk
  rcases hcovers k hmem hcover with hzero | ⟨-, hif⟩
  · omega
  · exact hif

namespace VpnRouteManager

/-! ## What the manager's keys cover -/

section

variable (m : VpnRouteManager) (a : Ipv4Addr) (a6 : Ipv6Addr)

@[simp] theorem hostKey_covers : m.hostKey.Covers (.v4 a) ↔ m.serverIp = a := covers_width

@[simp] theorem lowerKey_covers : m.lowerKey.Covers (.v4 a) ↔ a.msb = false := by
  have hmsb : (Ipv4Addr.ofOctets 0 0 0 0).msb = false := by decide
  rw [show m.lowerKey.Covers (.v4 a) ↔ _ from covers_one (by decide), hmsb]
  exact eq_comm

@[simp] theorem upperKey_covers : m.upperKey.Covers (.v4 a) ↔ a.msb = true := by
  have hmsb : (Ipv4Addr.ofOctets 128 0 0 0).msb = true := by decide
  rw [show m.upperKey.Covers (.v4 a) ↔ _ from covers_one (by decide), hmsb]
  exact eq_comm

@[simp] theorem lowerKeyV6_covers : m.lowerKeyV6.Covers (.v6 a6) ↔ a6.msb = false := by
  have hmsb : (0 : Ipv6Addr).msb = false := by decide
  rw [show m.lowerKeyV6.Covers (.v6 a6) ↔ _ from covers_one (by decide), hmsb]
  exact eq_comm

@[simp] theorem upperKeyV6_covers : m.upperKeyV6.Covers (.v6 a6) ↔ a6.msb = true := by
  have hmsb : upperHalfV6.msb = true := by decide
  rw [show m.upperKeyV6.Covers (.v6 a6) ↔ _ from covers_one (by decide), hmsb]
  exact eq_comm

end

section

variable {m m' : VpnRouteManager} {faults : InstallFaults} {os os' : RouteOs} {k : RouteKey}

/-- The keys by name. -/
theorem mem_keys_iff : k ∈ m.keys ↔ k = m.hostKey ∨ k = m.lowerKey ∨ k = m.upperKey
    ∨ m.hasIpv6 = true ∧ (k = m.lowerKeyV6 ∨ k = m.upperKeyV6) := by
  cases h6 : m.hasIpv6 <;> simp [keys, h6]

/-- The accepted additions by name. -/
theorem mem_creations_iff : (k, none) ∈ m.creations faults ↔
    k = m.hostKey ∧ faults.host = none ∨ k = m.lowerKey ∧ faults.lower = none
      ∨ k = m.upperKey ∧ faults.upper = none
      ∨ m.hasIpv6 = true ∧ (k = m.lowerKeyV6 ∧ faults.lowerV6 = none
        ∨ k = m.upperKeyV6 ∧ faults.upperV6 = none) := by
  cases h6 : m.hasIpv6 <;> simp [creations, h6, eq_comm]

/-- An accepted addition is one of the keys. -/
theorem mem_keys_of_mem_creations (h : (k, none) ∈ m.creations faults) : k ∈ m.keys := by
  rw [← map_fst_creations m faults]
  exact List.mem_map.mpr ⟨_, h, rfl⟩

/-- The one long key is the host route; it covers the server only. -/
theorem notMem_keys_of_long {a : IpAddr} (ha : a ≠ .v4 m.serverIp) (hlong : 2 ≤ k.prefixLen)
    (hcovers : k.Covers a) : k ∉ m.keys := by
  rw [mem_keys_iff]
  rintro (rfl | rfl | rfl | ⟨-, rfl | rfl⟩)
  · cases a with
    | v4 a => exact ha (congrArg IpAddr.v4 ((hostKey_covers m a).mp hcovers).symm)
    | v6 a => exact hcovers
  all_goals exact absurd hlong (show ¬ 2 ≤ 1 by decide)

/-! ## IPv4 -/

/-- Which entries cover an IPv4 destination after a successful installation. -/
theorem covers_v4_cases (hok : m.installRoutes faults os = (.ok (), m', os')) {a : Ipv4Addr}
    (hmem : k ∈ os'.table) (hcovers : k.Covers (.v4 a)) :
    k = m.hostKey ∧ m.serverIp = a ∨ k.prefixLen = 1 ∧ k.ifIndex = m.adapterIfIndex
      ∨ k ∈ os.table := by
  rcases (mem_installRoutes hok k).mp hmem with hnew | ⟨-, hold⟩
  · -- a new entry: the IPv6 halves cover no IPv4 address
    rcases mem_creations_iff.mp hnew with ⟨rfl, -⟩ | ⟨rfl, -⟩ | ⟨rfl, -⟩ | ⟨-, ⟨rfl, -⟩ | ⟨rfl, -⟩⟩
    · exact .inl ⟨rfl, (hostKey_covers m a).mp hcovers⟩
    · exact .inr (.inl ⟨rfl, rfl⟩)
    · exact .inr (.inl ⟨rfl, rfl⟩)
    · cases hcovers
    · cases hcovers
  · exact .inr (.inr hold)

/-- One of the two halves covers every IPv4 destination. -/
theorem exists_half (hok : m.installRoutes faults os = (.ok (), m', os')) (a : Ipv4Addr) :
    ∃ k, (k ∈ os'.table ∧ k.Covers (.v4 a)) ∧ k.prefixLen = 1 := by
  obtain ⟨hl, hu, -⟩ := table_installRoutes hok
  cases hmsb : a.msb with
  | false =>
    have hmem : m.lowerKey ∈ os'.table :=
      (mem_installRoutes hok _).mpr (.inl (mem_creations_iff.mpr (.inr (.inl ⟨rfl, hl⟩))))
    exact ⟨m.lowerKey, ⟨hmem, (lowerKey_covers m a).mpr hmsb⟩, rfl⟩
  | true =>
    have hmem : m.upperKey ∈ os'.table :=
      (mem_installRoutes hok _).mpr (.inl (mem_creations_iff.mpr (.inr (.inr (.inl ⟨rfl, hu⟩)))))
    exact ⟨m.upperKey, ⟨hmem, (upperKey_covers m a).mpr hmsb⟩, rfl⟩

/-- A destination that only default routes served goes to the adapter. -/
theorem routedTo_adapter (hok : m.installRoutes faults os = (.ok (), m', os')) {a : Ipv4Addr}
    (ha : a ≠ m.serverIp) (hdefault : ∀ k, os.table.Serves (.v4 a) k → k.prefixLen = 0) :
    os'.table.RoutedTo m.adapterIfIndex (.v4 a) := by
  -- an old entry is no longer than the best one, which was a default route
  have hold : ∀ k, k ∈ os.table → k.Covers (.v4 a) → k.prefixLen = 0 := by
    intro k hk hcovers
    obtain ⟨best, hbest⟩ := RouteTable.exists_serves hk hcovers
    have hle : k.prefixLen ≤ best.prefixLen := hbest.len_le k ⟨hk, hcovers⟩
    rw [hdefault best hbest] at hle
    omega
  refine RouteTable.routedTo_of_half (fun k hk hcovers => ?_) (exists_half hok a)
  rcases covers_v4_cases hok hk hcovers with ⟨-, hserver⟩ | hhalf | hmem
  · exact absurd hserver.symm ha
  · exact .inr hhalf
  · exact .inl (hold k hmem hcovers)

/-- The server goes to the physical interface. -/
theorem routedTo_physical (hok : m.installRoutes faults os = (.ok (), m', os'))
    (hhost : faults.host = none)
    (hserver : ∀ k ∈ os.table, ¬ (k.dest = .v4 m.serverIp ∧ k.prefixLen = 32)) :
    os'.table.RoutedTo m.physicalIfIndex (.v4 m.serverIp) := by
  have hmem : m.hostKey ∈ os'.table :=
    (mem_installRoutes hok _).mpr (.inl (mem_creations_iff.mpr (.inl ⟨rfl, hhost⟩)))
  have hex : ∃ k, (k ∈ os'.table ∧ k.Covers (.v4 m.serverIp)) ∧ k.prefixLen = 32 :=
    ⟨m.hostKey, ⟨hmem, (hostKey_covers m _).mpr rfl⟩, rfl⟩
  -- no IPv4 route is longer than the host route
  have hle : ∀ k, k ∈ os'.table ∧ k.Covers (.v4 m.serverIp) → k.prefixLen ≤ 32 := by
    rintro ⟨ifIndex, dest, len, hop⟩ ⟨-, hcovers⟩
    cases dest with
    | v4 net => exact LongestMatch.Covers.len_le hcovers
    | v6 net => cases hcovers
  refine ⟨?_, fun k hk => ?_⟩
  · obtain ⟨k, hk⟩ := hex
    exact ⟨k, (longest_iff hle ⟨k, hk⟩).mpr hk⟩
  · obtain ⟨⟨hmem, hcovers⟩, hlen⟩ := (longest_iff hle hex).mp hk
    rcases covers_v4_cases hok hmem hcovers with ⟨rfl, -⟩ | ⟨hone, -⟩ | hold
    · rfl
    · omega
    · -- an earlier full-length route to the server
      obtain ⟨ifIndex, dest, len, hop⟩ := k
      cases hlen
      cases dest with
      | v4 net =>
        have hnet : net = m.serverIp := covers_width.mp hcovers
        exact absurd ⟨congrArg IpAddr.v4 hnet, rfl⟩ (hserver _ hold)
      | v6 net => cases hcovers

/-- A destination with a longer route keeps it. -/
theorem serves_iff_of_long (hok : m.installRoutes faults os = (.ok (), m', os')) {a : IpAddr}
    (ha : a ≠ .v4 m.serverIp) (hlong : ∃ k, os.table.Serves a k ∧ 2 ≤ k.prefixLen)
    (k : RouteKey) : os'.table.Serves a k ↔ os.table.Serves a k := by
  obtain ⟨k₀, hk₀, hlen₀⟩ := hlong
  refine longest_congr (n := 2) (fun k hk => and_congr_left fun hcovers => ?_)
    ⟨k₀, hk₀.mem, hlen₀⟩
  -- no key of the manager is that long, the host route apart
  have hnot := notMem_keys_of_long ha hk hcovers
  rw [mem_installRoutes hok]
  constructor
  · exact fun h => .inr ⟨hnot, h⟩
  · rintro (hnew | ⟨-, h⟩)
    · exact absurd (mem_keys_of_mem_creations hnew) hnot
    · exact h

/-- **Where IPv4 packets go after a successful installation** whose host route was accepted:
what only a default route served, or none, goes to the adapter; the server goes to the
physical interface; a destination with a longer route keeps its routes and their metrics. -/
theorem installRoutes_routes {table : RouteTable}
    (hok : m.installRoutes faults ⟨table, []⟩ = (.ok (), m', os')) (hhost : faults.host = none)
    (hserver : ∀ k ∈ table, ¬ (k.dest = .v4 m.serverIp ∧ k.prefixLen = 32)) :
    (∀ a : Ipv4Addr, a ≠ m.serverIp → (∀ k, table.Serves (.v4 a) k → k.prefixLen = 0) →
        os'.table.RoutedTo m.adapterIfIndex (.v4 a))
      ∧ os'.table.RoutedTo m.physicalIfIndex (.v4 m.serverIp)
      ∧ (∀ a : IpAddr, a ≠ .v4 m.serverIp → (∃ k, table.Serves a k ∧ 2 ≤ k.prefixLen) →
        ∀ k, (os'.table.Serves a k ↔ table.Serves a k)
          ∧ (table.Serves a k → os'.table.lookup k = table.lookup k)) := by
  refine ⟨fun a ha hdefault => routedTo_adapter hok ha hdefault,
    routedTo_physical hok hhost hserver,
    fun a ha hlong k => ⟨serves_iff_of_long hok ha hlong k, ?_⟩⟩
  intro hk
  obtain ⟨k₀, hk₀, hlen₀⟩ := hlong
  have hlen : 2 ≤ k.prefixLen := Nat.le_trans hlen₀ (hk.len_le k₀ hk₀.mem)
  exact lookup_installRoutes hok (notMem_keys_of_long ha hlen hk.mem.2)

end

/-- A host with one default route through interface 12: after an installation with adapter
40 all the facts hold. -/
theorem installRoutes_routes_single_default :
    let m := new (some (.ofOctets 192 168 1 1)) (.ofOctets 203 0 113 7) 12 40
      (.ofOctets 10 25 0 2) false
    let table : RouteTable := Finmap.singleton
      (routeKey 12 (.v4 0) 0 (some (.v4 (.ofOctets 192 168 1 1)))) 25
    let os' := (m.installRoutes ⟨none, none, none, none, none⟩ ⟨table, []⟩).2.2
    (∀ a : Ipv4Addr, a ≠ m.serverIp → (∀ k, table.Serves (.v4 a) k → k.prefixLen = 0) →
        os'.table.RoutedTo m.adapterIfIndex (.v4 a))
      ∧ os'.table.RoutedTo m.physicalIfIndex (.v4 m.serverIp)
      ∧ (∀ a : IpAddr, a ≠ .v4 m.serverIp → (∃ k, table.Serves a k ∧ 2 ≤ k.prefixLen) →
        ∀ k, (os'.table.Serves a k ↔ table.Serves a k)
          ∧ (table.Serves a k → os'.table.lookup k = table.lookup k)) := by
  intro m table os'
  have hok : m.installRoutes ⟨none, none, none, none, none⟩ ⟨table, []⟩ = (.ok (), _, os') := rfl
  refine installRoutes_routes hok rfl ?_
  intro k hk hhost
  have hkey : k = routeKey 12 (.v4 0) 0 (some (.v4 (.ofOctets 192 168 1 1))) := by
    simpa [table] using hk
  subst hkey
  exact absurd hhost.2 (by decide)

/-! ## IPv6 -/

/-- How the system takes the half over an IPv6 destination. -/
def halfFaultV6 (faults : InstallFaults) (a : Ipv6Addr) : Fault :=
  if a.msb then faults.upperV6 else faults.lowerV6

section

variable {m m' : VpnRouteManager} {faults : InstallFaults} {os os' : RouteOs} {k : RouteKey}

/-- Which entries cover an IPv6 destination after a successful installation. -/
theorem covers_v6_cases (hok : m.installRoutes faults os = (.ok (), m', os')) {a : Ipv6Addr}
    (hmem : k ∈ os'.table) (hcovers : k.Covers (.v6 a)) :
    ((m.hasIpv6 = true ∧ halfFaultV6 faults a = none) ∧ k.prefixLen = 1
        ∧ k.ifIndex = m.adapterIfIndex)
      ∨ k ∈ os.table := by
  rcases (mem_installRoutes hok k).mp hmem with hnew | ⟨-, hold⟩
  · rcases mem_creations_iff.mp hnew with ⟨rfl, -⟩ | ⟨rfl, -⟩ | ⟨rfl, -⟩
      | ⟨h6, ⟨rfl, hf⟩ | ⟨rfl, hf⟩⟩
    · cases hcovers
    · cases hcovers
    · cases hcovers
    · rw [lowerKeyV6_covers] at hcovers
      exact .inl ⟨⟨h6, by simp [halfFaultV6, hcovers, hf]⟩, rfl, rfl⟩
    · rw [upperKeyV6_covers] at hcovers
      exact .inl ⟨⟨h6, by simp [halfFaultV6, hcovers, hf]⟩, rfl, rfl⟩
  · exact .inr hold

/-- With IPv6 and its half accepted, a destination that a default route served goes to the
adapter. -/
theorem routedTo_adapter_v6 (hok : m.installRoutes faults os = (.ok (), m', os')) {a : Ipv6Addr}
    (hdefault : os.table.ServedByDefault m.adapterIfIndex (.v6 a)) (h6 : m.hasIpv6 = true)
    (hhalf : halfFaultV6 faults a = none) : os'.table.RoutedTo m.adapterIfIndex (.v6 a) := by
  obtain ⟨best, hbest, hzero, -⟩ := hdefault
  -- as in `routedTo_adapter`
  have hold : ∀ k, k ∈ os.table → k.Covers (.v6 a) → k.prefixLen = 0 := by
    intro k hk hcovers
    have hle : k.prefixLen ≤ best.prefixLen := hbest.len_le k ⟨hk, hcovers⟩
    omega
  have hex : ∃ k, (k ∈ os'.table ∧ k.Covers (.v6 a)) ∧ k.prefixLen = 1 := by
    cases hmsb : a.msb with
    | false =>
      have hnew : (m.lowerKeyV6, none) ∈ m.creations faults := by
        simp only [halfFaultV6, hmsb, Bool.false_eq_true, if_false] at hhalf
        exact mem_creations_iff.mpr (.inr (.inr (.inr ⟨h6, .inl ⟨rfl, hhalf⟩⟩)))
      exact ⟨m.lowerKeyV6, ⟨(mem_installRoutes hok _).mpr (.inl hnew),
        (lowerKeyV6_covers m a).mpr hmsb⟩, rfl⟩
    | true =>
      have hnew : (m.upperKeyV6, none) ∈ m.creations faults := by
        simp only [halfFaultV6, hmsb, if_true] at hhalf
        exact mem_creations_iff.mpr (.inr (.inr (.inr ⟨h6, .inr ⟨rfl, hhalf⟩⟩)))
      exact ⟨m.upperKeyV6, ⟨(mem_installRoutes hok _).mpr (.inl hnew),
        (upperKeyV6_covers m a).mpr hmsb⟩, rfl⟩
  refine RouteTable.routedTo_of_half (fun k hk hcovers => ?_) hex
  rcases covers_v6_cases hok hk hcovers with ⟨-, hhalf⟩ | hmem
  · exact .inr hhalf
  · exact .inl (hold k hmem hcovers)

/-- Without the half over it, such a destination stays where it was. -/
theorem not_routedTo_adapter_v6 (hok : m.installRoutes faults os = (.ok (), m', os'))
    {a : Ipv6Addr} (hdefault : os.table.ServedByDefault m.adapterIfIndex (.v6 a))
    (hhalf : ¬ (m.hasIpv6 = true ∧ halfFaultV6 faults a = none)) :
    ¬ os'.table.RoutedTo m.adapterIfIndex (.v6 a) := by
  obtain ⟨best, hbest, hzero, hother⟩ := hdefault
  have hkept : best ∈ os'.table := by
    refine (mem_installRoutes hok best).mpr (.inr ⟨?_, hbest.mem.1⟩)
    rw [mem_keys_iff]
    -- none of the keys has prefix length 0
    rintro (rfl | rfl | rfl | ⟨-, rfl | rfl⟩) <;> cases hzero
  have hserves : os'.table.Serves (.v6 a) best := by
    refine ⟨⟨hkept, hbest.mem.2⟩, ?_⟩
    rintro k ⟨hk, hcovers⟩
    rcases covers_v6_cases hok hk hcovers with ⟨habsurd, -⟩ | hmem
    · exact absurd habsurd hhalf
    · exact hbest.len_le k ⟨hmem, hcovers⟩
  exact fun hrouted => hother (hrouted.2 best hserves)

/-- After a successful installation the adapter serves every IPv6 destination that a default
route of another interface served before. -/
def ClosesIpv6 (m : VpnRouteManager) (faults : InstallFaults) (table : RouteTable) : Prop :=
  ∀ m' os', m.installRoutes faults ⟨table, []⟩ = (.ok (), m', os') →
    ∀ a : Ipv6Addr, table.ServedByDefault m.adapterIfIndex (.v6 a) →
      os'.table.RoutedTo m.adapterIfIndex (.v6 a)

/-- **When no IPv6 destination leaks.** Success on the two IPv4 halves is enough for success
to be reported; the IPv6 destinations of another default route are taken over exactly if the
tunnel has an IPv6 address and the system accepts the half over each of them. -/
theorem closesIpv6_iff (m : VpnRouteManager) (faults : InstallFaults) (table : RouteTable) :
    m.ClosesIpv6 faults table ↔ (faults.lower = none → faults.upper = none →
      ∀ a : Ipv6Addr, table.ServedByDefault m.adapterIfIndex (.v6 a) →
        m.hasIpv6 = true ∧ halfFaultV6 faults a = none) := by
  constructor
  · intro hcloses hl hu a hdefault
    obtain ⟨m', os', hok⟩ := installRoutes_isOk (m := m) hl hu ⟨table, []⟩
    by_contra hhalf
    exact not_routedTo_adapter_v6 hok hdefault hhalf (hcloses m' os' hok a hdefault)
  · intro h m' os' hok a hdefault
    obtain ⟨hl, hu, -⟩ := table_installRoutes hok
    obtain ⟨h6, hhalf⟩ := h hl hu a hdefault
    exact routedTo_adapter_v6 hok hdefault h6 hhalf

/-- A tunnel without an IPv6 address on a host whose interface 12 has the default route
`::/0`: all creations are accepted, and `2001:db8::1` still leaves through interface 12. -/
theorem closesIpv6_no_address :
    ¬ ClosesIpv6
      (new (some (.ofOctets 192 168 1 1)) (.ofOctets 203 0 113 7) 12 40 (.ofOctets 10 25 0 2) false)
      ⟨none, none, none, none, none⟩
      (Finmap.singleton (routeKey 12 (.v6 0) 0 (some (.v6 0xfe800000000000000000000000000001))) 25)
    := by
  intro hcloses
  let key := routeKey 12 (.v6 0) 0 (some (.v6 0xfe800000000000000000000000000001))
  have hdefault : RouteTable.ServedByDefault (Finmap.singleton key 25) 40
      (.v6 0x20010db8000000000000000000000001) := by
    refine ⟨key, ⟨⟨(Finmap.mem_singleton key key 25).mpr rfl, covers_zero⟩, ?_⟩, rfl, by decide⟩
    rintro k ⟨hk, -⟩
    rw [(Finmap.mem_singleton k key 25).mp hk]
  obtain ⟨m', os', hok⟩ : ∃ m' os', installRoutes (new (some (.ofOctets 192 168 1 1))
      (.ofOctets 203 0 113 7) 12 40 (.ofOctets 10 25 0 2) false) ⟨none, none, none, none, none⟩
      ⟨Finmap.singleton key 25, []⟩ = (.ok (), m', os') := installRoutes_isOk rfl rfl _
  exact not_routedTo_adapter_v6 hok hdefault (fun h => Bool.false_ne_true h.1)
    (hcloses m' os' hok _ hdefault)

end

end VpnRouteManager

end Phobos
