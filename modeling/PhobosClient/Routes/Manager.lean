import PhobosClient.Routes.Table

/-!
# PhobosClient — the VPN route manager (`src/wintun_adapter.rs`)

`install_routes` adds a host route to the server, the two halves of the IPv4 space and, with
IPv6, the two halves of the IPv6 space. Only the two IPv4 halves are fatal. The flag that
lets `remove_routes` do anything is set at the very end.

**`clean_on_error_iff`**: when `install_routes` fails, dropping the manager leaves none of
the routes it created exactly if it had created none; the flag is still unset, so the drop
removes nothing.
-/

namespace Phobos

structure VpnRouteManager where
  serverIp : Ipv4Addr
  gatewayIp : Option Ipv4Addr
  physicalIfIndex : Nat
  adapterIfIndex : Nat
  adapterIp : Ipv4Addr
  hasIpv6 : Bool
  routesInstalled : Bool

/-- How the system takes the five creations of `install_routes`. -/
structure InstallFaults where
  host : Fault
  lower : Fault
  upper : Fault
  lowerV6 : Fault
  upperV6 : Fault

/-- The fault patterns that leave nothing behind: no fatal creation is refused, or the first
half and the host route before it both are. -/
def InstallFaults.LeavesNone (faults : InstallFaults) : Prop :=
  (faults.lower = none ∧ faults.upper = none) ∨
    (faults.lower.isSome = true ∧ faults.host.isSome = true)

instance (faults : InstallFaults) : Decidable faults.LeavesNone :=
  inferInstanceAs (Decidable ((_ = none ∧ _ = none) ∨ (_ = true ∧ _ = true)))

namespace VpnRouteManager

/-- `new`, with the gateway that `get_best_route_gateway` finds. -/
def new (gatewayIp : Option Ipv4Addr) (serverIp : Ipv4Addr)
    (physicalIfIndex adapterIfIndex : Nat) (adapterIp : Ipv4Addr) (hasIpv6 : Bool) :
    VpnRouteManager :=
  { serverIp, gatewayIp, physicalIfIndex, adapterIfIndex, adapterIp, hasIpv6
    routesInstalled := false }

/-- The first address of the upper half of the IPv6 space, `8000::`. -/
def upperHalfV6 : Ipv6Addr := 0x80000000000000000000000000000000

def installRoutes (m : VpnRouteManager) (faults : InstallFaults) (os : RouteOs) :
    Except String Unit × VpnRouteManager × RouteOs :=
  let gwOpt := m.gatewayIp.map IpAddr.v4
  -- 1. direct host route to the server; a failure is only reported
  let (_, os) := addIpRoute faults.host os m.physicalIfIndex (.v4 m.serverIp) 32 gwOpt 1
  -- 2. the two IPv4 halves; a failure is returned
  let (res, os) :=
    addIpRoute faults.lower os m.adapterIfIndex (.v4 (.ofOctets 0 0 0 0)) 1 none 1
  match res with
  | .error e => (.error s!"Failed to add 0.0.0.0/1 route: {e}", m, os)
  | .ok () =>
    let (res, os) :=
      addIpRoute faults.upper os m.adapterIfIndex (.v4 (.ofOctets 128 0 0 0)) 1 none 1
    match res with
    | .error e => (.error s!"Failed to add 128.0.0.0/1 route: {e}", m, os)
    | .ok () =>
      -- 3. the two IPv6 halves; a failure is only reported
      let os :=
        if m.hasIpv6 then
          let (_, os) := addIpRoute faults.lowerV6 os m.adapterIfIndex (.v6 0) 1 none 1
          let (_, os) := addIpRoute faults.upperV6 os m.adapterIfIndex (.v6 upperHalfV6) 1 none 1
          os
        else os
      (.ok (), { m with routesInstalled := true }, os)

def removeRoutes (m : VpnRouteManager) (os : RouteOs) : VpnRouteManager × RouteOs :=
  if !m.routesInstalled then (m, os)
  else
    let gwOpt := m.gatewayIp.map IpAddr.v4
    let (_, os) := deleteIpRoute os m.physicalIfIndex (.v4 m.serverIp) 32 gwOpt
    let (_, os) := deleteIpRoute os m.adapterIfIndex (.v4 (.ofOctets 0 0 0 0)) 1 none
    let (_, os) := deleteIpRoute os m.adapterIfIndex (.v4 (.ofOctets 128 0 0 0)) 1 none
    let os :=
      if m.hasIpv6 then
        let (_, os) := deleteIpRoute os m.adapterIfIndex (.v6 0) 1 none
        let (_, os) := deleteIpRoute os m.adapterIfIndex (.v6 upperHalfV6) 1 none
        os
      else os
    ({ m with routesInstalled := false }, os)

/-- `Drop`. -/
def drop (m : VpnRouteManager) (os : RouteOs) : RouteOs := (m.removeRoutes os).2

/-! ## What an installation may leave behind

`keys` lists what `install_routes` adds, in the order in which `remove_routes` deletes it. -/

section

variable (m : VpnRouteManager)

/-- The key of the host route to the server. -/
def hostKey : RouteKey :=
  routeKey m.physicalIfIndex (.v4 m.serverIp) 32 (m.gatewayIp.map IpAddr.v4)

/-- The keys of the two IPv4 halves. -/
def lowerKey : RouteKey := routeKey m.adapterIfIndex (.v4 (.ofOctets 0 0 0 0)) 1 none
def upperKey : RouteKey := routeKey m.adapterIfIndex (.v4 (.ofOctets 128 0 0 0)) 1 none

/-- The keys of the two IPv6 halves. -/
def lowerKeyV6 : RouteKey := routeKey m.adapterIfIndex (.v6 0) 1 none
def upperKeyV6 : RouteKey := routeKey m.adapterIfIndex (.v6 upperHalfV6) 1 none

def keys : List RouteKey :=
  m.hostKey :: m.lowerKey :: m.upperKey ::
    if m.hasIpv6 then [m.lowerKeyV6, m.upperKeyV6] else []

/-- The additions of a successful installation, with how the system takes each. -/
def creations (faults : InstallFaults) : List (RouteKey × Fault) :=
  (m.hostKey, faults.host) :: (m.lowerKey, faults.lower) :: (m.upperKey, faults.upper) ::
    if m.hasIpv6 then [(m.lowerKeyV6, faults.lowerV6), (m.upperKeyV6, faults.upperV6)] else []

@[simp] theorem map_fst_creations (faults : InstallFaults) :
    (m.creations faults).map Prod.fst = m.keys := by
  cases h6 : m.hasIpv6 <;> simp [creations, keys, h6]

theorem nodup_keys : m.keys.Nodup := by
  cases h6 : m.hasIpv6 <;>
    simp [keys, h6, hostKey, lowerKey, upperKey, lowerKeyV6, upperKeyV6, routeKey, upperHalfV6,
      Ipv4Addr.ofOctets]

end

variable {m m' : VpnRouteManager} {faults : InstallFaults} {os os' : RouteOs}
  {ks : List RouteKey}

/-- **The table after a successful installation**: every addition has been made in turn. -/
theorem table_installRoutes (hok : m.installRoutes faults os = (.ok (), m', os')) :
    faults.lower = none ∧ faults.upper = none ∧ m' = { m with routesInstalled := true }
      ∧ os'.table = (m.creations faults).foldl (fun t c => t.add c.1 c.2 1) os.table := by
  cases hl : faults.lower with
  | some e => simp [installRoutes, hl] at hok
  | none =>
    cases hu : faults.upper with
    | some e => simp [installRoutes, hl, hu] at hok
    | none =>
      refine ⟨rfl, rfl, ?_⟩
      cases h6 : m.hasIpv6 with
      | false =>
        simp only [installRoutes, hl, hu, addIpRoute_none, h6, Bool.false_eq_true, if_false] at hok
        cases hok
        refine ⟨rfl, ?_⟩
        simp only [table_addIpRoute, creations, h6, hl, hu, Bool.false_eq_true, if_false,
          List.foldl_cons, List.foldl_nil]
        rfl
      | true =>
        simp only [installRoutes, hl, hu, addIpRoute_none, h6, if_true] at hok
        cases hok
        refine ⟨rfl, ?_⟩
        simp only [table_addIpRoute, creations, h6, hl, hu, if_true, List.foldl_cons,
          List.foldl_nil]
        rfl

/-- An addition that succeeds on both IPv4 halves succeeds as a whole. -/
theorem installRoutes_isOk (hl : faults.lower = none) (hu : faults.upper = none) (os : RouteOs) :
    ∃ m' os', m.installRoutes faults os = (.ok (), m', os') := by
  simp only [installRoutes, hl, hu, addIpRoute_none]
  exact ⟨_, _, rfl⟩

/-- The table after a removal. -/
theorem table_removeRoutes (h : m.routesInstalled = true) (os : RouteOs) :
    (m.removeRoutes os).2.table = m.keys.foldl (fun t key => t.erase key) os.table := by
  cases h6 : m.hasIpv6 <;> simp [removeRoutes, h, keys, h6, hostKey, lowerKey, upperKey,
    lowerKeyV6, upperKeyV6]

/-- **What an installation makes of one entry.** The table holds what was accepted, and of the
earlier entries those that are not under one of the manager's keys. -/
theorem lookup_installRoutes (hok : m.installRoutes faults os = (.ok (), m', os'))
    {k : RouteKey} (hk : k ∉ m.keys) : os'.table.lookup k = os.table.lookup k := by
  obtain ⟨-, -, -, htable⟩ := table_installRoutes hok
  rw [htable]
  exact RouteTable.lookup_foldl_add_of_notMem 1 _ _ (by rwa [map_fst_creations])

theorem mem_installRoutes (hok : m.installRoutes faults os = (.ok (), m', os')) (k : RouteKey) :
    k ∈ os'.table ↔ (k, none) ∈ m.creations faults ∨ k ∉ m.keys ∧ k ∈ os.table := by
  by_cases hk : k ∈ m.keys
  · obtain ⟨-, -, -, htable⟩ := table_installRoutes hok
    obtain ⟨⟨key, fault⟩, hmem, rfl⟩ : ∃ c ∈ m.creations faults, c.1 = k := by
      rw [← map_fst_creations m faults] at hk
      exact List.mem_map.mp hk
    have hnodup : ((m.creations faults).map Prod.fst).Nodup := by
      rw [map_fst_creations]
      exact m.nodup_keys
    -- the keys are distinct, so the last word on a key is its only addition
    have hlookup := RouteTable.lookup_foldl_add 1 (m.creations faults) os.table hnodup hmem
    rw [← htable] at hlookup
    rw [← Finmap.lookup_isSome, hlookup]
    cases fault with
    | none => simp [hmem]
    | some e =>
      have hnot : (key, none) ∉ m.creations faults := by
        intro hnone
        have := List.inj_on_of_nodup_map hnodup hnone hmem rfl
        cases this
      simp [hnot, hk]
  · -- a key that is not the manager's is not among its additions
    have hnot : (k, none) ∉ m.creations faults := by
      intro hmem
      refine hk ?_
      rw [← map_fst_creations m faults]
      exact List.mem_map.mpr ⟨_, hmem, rfl⟩
    rw [← Finmap.lookup_isSome, lookup_installRoutes hok hk, Finmap.lookup_isSome]
    simp [hnot, hk]

/-- A manager that has not finished its installation removes nothing. -/
theorem removeRoutes_of_not_installed (h : m.routesInstalled = false) (os : RouteOs) :
    m.removeRoutes os = (m, os) := by
  rw [removeRoutes, h]
  rfl

theorem removeRoutes_not_installed : (m.removeRoutes os).1.routesInstalled = false := by
  cases h : m.routesInstalled with
  | false => rw [removeRoutes_of_not_installed h, h]
  | true => simp [removeRoutes, h]

/-- **A manager that has finished its installation removes all its keys**, and no entry of
another key comes back. -/
theorem removeRoutes_within (h : m.routesInstalled = true) (hos : os.Within (m.keys ++ ks)) :
    (m.removeRoutes os).2.Within ks := by
  have hrest := ((hos.delete).delete).delete
  cases h6 : m.hasIpv6 with
  | false =>
    rw [h6] at hrest
    simpa [removeRoutes, h, h6] using hrest
  | true =>
    rw [h6] at hrest
    have hrest := (RouteOs.Within.delete hrest).delete
    simpa [removeRoutes, h, h6] using hrest

/-- Adding one of the manager's own keys. -/
theorem add_own (fault : Fault) (metric : Nat) {ifIndex : Nat} {dest : IpAddr} {prefixLen : Nat}
    {nextHop : Option IpAddr} (hos : os.Within (m.keys ++ ks))
    (hkey : routeKey ifIndex dest prefixLen nextHop ∈ m.keys) :
    (addIpRoute fault os ifIndex dest prefixLen nextHop metric).2.Within (m.keys ++ ks) :=
  hos.add fault metric (List.mem_append_left ks hkey)

/-- **A successful installation** sets the flag and leaves at most its own keys behind. -/
theorem installRoutes_ok (hok : m.installRoutes faults os = (.ok (), m', os'))
    (hos : os.Within ks) :
    m' = { m with routesInstalled := true } ∧ os'.Within (m.keys ++ ks) := by
  cases hl : faults.lower with
  | some e => simp [installRoutes, hl] at hok
  | none =>
    cases hu : faults.upper with
    | some e => simp [installRoutes, hl, hu] at hok
    | none =>
      have hstart : os.Within (m.keys ++ ks) := hos.mono fun _ => List.mem_append_right _
      -- the additions in order, each with the faults that a success allows
      have hhost := add_own faults.host 1 hstart
        (show m.hostKey ∈ m.keys by simp [keys])
      have hlower := add_own none 1 hhost
        (show m.lowerKey ∈ m.keys by simp [keys])
      have hupper := add_own none 1 hlower
        (show m.upperKey ∈ m.keys by simp [keys])
      by_cases h6 : m.hasIpv6 = true
      · have hlowerV6 := add_own faults.lowerV6 1 hupper
          (show m.lowerKeyV6 ∈ m.keys by simp [keys, h6])
        have hupperV6 := add_own faults.upperV6 1 hlowerV6
          (show m.upperKeyV6 ∈ m.keys by simp [keys, h6])
        simp only [installRoutes, hl, hu, addIpRoute_none, if_pos h6] at hok hupperV6
        cases hok
        exact ⟨rfl, hupperV6⟩
      · simp only [installRoutes, hl, hu, addIpRoute_none, if_neg h6] at hok hupper
        cases hok
        exact ⟨rfl, hupper⟩

/-- **A failing installation** leaves the manager as it was; under `LeavesNone` it leaves no
entry of its own behind. -/
theorem installRoutes_error {e : String} (herr : m.installRoutes faults os = (.error e, m', os'))
    (hos : os.Within ks) : m' = m ∧ (faults.LeavesNone → os'.Within ks) := by
  cases hl : faults.lower with
  | none =>
    cases hu : faults.upper with
    | none => simp [installRoutes, hl, hu] at herr
    | some e' =>
      simp only [installRoutes, hl, hu, addIpRoute_none, addIpRoute_some] at herr
      cases herr
      exact ⟨rfl, by simp [InstallFaults.LeavesNone, hl, hu]⟩
  | some e' =>
    simp only [installRoutes, hl] at herr
    cases hh : faults.host with
    | none =>
      rw [hh] at herr
      simp only [addIpRoute_none, addIpRoute_some] at herr
      cases herr
      exact ⟨rfl, by simp [InstallFaults.LeavesNone, hl, hh]⟩
    | some e'' =>
      -- nothing has been created before: the host route was refused as well
      have hhost : (addIpRoute (some e'') os m.physicalIfIndex (.v4 m.serverIp) 32
        (m.gatewayIp.map IpAddr.v4) 1).2.Within ks := hos.add_refused _ _ _ _ _ _
      have hlower := hhost.add_refused e' m.adapterIfIndex (.v4 (.ofOctets 0 0 0 0)) 1 none 1
      rw [hh] at herr
      simp only [addIpRoute_some] at herr hlower
      cases herr
      exact ⟨rfl, fun _ => hlower⟩

/-- The first half stays when the second one is refused. -/
theorem installRoutes_upper_refused {e : ErrorCode} (hl : faults.lower = none)
    (hu : faults.upper = some e) : ∃ err os', m.installRoutes faults os = (.error err, m, os') ∧
      m.lowerKey ∈ os'.created ∧ m.lowerKey ∈ os'.table := by
  have hne : m.lowerKey ≠ m.upperKey := by
    simp [lowerKey, upperKey, routeKey, Ipv4Addr.ofOctets]
  simp only [installRoutes, hl, hu, addIpRoute_none, addIpRoute_some]
  refine ⟨_, _, rfl, ?_, ?_⟩
  · exact List.mem_append_right _ (List.mem_singleton_self _)
  · exact Finmap.mem_erase.mpr ⟨hne, Finmap.mem_insert.mpr (.inl rfl)⟩

/-- The host route stays when the first half is refused. -/
theorem installRoutes_lower_refused {e : ErrorCode} (hh : faults.host = none)
    (hl : faults.lower = some e) : ∃ err os', m.installRoutes faults os = (.error err, m, os') ∧
      m.hostKey ∈ os'.created ∧ m.hostKey ∈ os'.table := by
  have hne : m.hostKey ≠ m.lowerKey := by simp [hostKey, lowerKey, routeKey]
  simp only [installRoutes, hh, hl, addIpRoute_none, addIpRoute_some]
  refine ⟨_, _, rfl, ?_, ?_⟩
  · exact List.mem_append_right _ (List.mem_singleton_self _)
  · exact Finmap.mem_erase.mpr ⟨hne, Finmap.mem_insert.mpr (.inl rfl)⟩

/-! ## Failing installations -/

/-- When `install_routes` fails and the manager is dropped, none of the routes created by
this call is left in the table. -/
def CleanOnError (m : VpnRouteManager) (faults : InstallFaults) (table : RouteTable) : Prop :=
  ∀ e m' os, m.installRoutes faults ⟨table, []⟩ = (.error e, m', os) →
    ∀ k ∈ os.created, k ∉ (m'.drop os).table

section

variable (gateway : Option Ipv4Addr) (server : Ipv4Addr) (physical adapter : Nat)
  (adapterIp : Ipv4Addr) (hasIpv6 : Bool) (faults : InstallFaults) (table : RouteTable)

/-- **A failing installation cleans up exactly when it has created nothing.** -/
theorem clean_on_error_iff :
    CleanOnError (new gateway server physical adapter adapterIp hasIpv6) faults table
      ↔ faults.LeavesNone := by
  constructor
  · intro hclean
    cases hl : faults.lower with
    | none =>
      cases hu : faults.upper with
      | none => exact .inl ⟨hl, hu⟩
      | some e =>
        -- the first half was created and is still there
        obtain ⟨err, os', hrun, hcreated, hmem⟩ := installRoutes_upper_refused hl hu
        exact absurd hmem (hclean err _ os' hrun _ hcreated)
    | some e =>
      cases hh : faults.host with
      | none =>
        -- the same for the host route
        obtain ⟨err, os', hrun, hcreated, hmem⟩ := installRoutes_lower_refused hh hl
        exact absurd hmem (hclean err _ os' hrun _ hcreated)
      | some _ => exact .inr ⟨by rw [hl]; rfl, by rw [hh]; rfl⟩
  · intro hleaves e m' os herr k hk hmem
    have hempty : RouteOs.Within ⟨table, []⟩ [] := fun k hk => absurd hk List.not_mem_nil
    obtain ⟨rfl, hwithin⟩ := installRoutes_error herr hempty
    -- the flag is not set, so dropping the manager removes nothing
    rw [drop, removeRoutes_of_not_installed rfl] at hmem
    exact List.not_mem_nil (hwithin hleaves k hk hmem)

/-- The half `0.0.0.0/1` stays behind when `128.0.0.0/1` is refused with access denied. -/
theorem clean_on_error_upper_refused :
    ¬ CleanOnError
      (new (some (.ofOctets 192 168 1 1)) (.ofOctets 203 0 113 7) 12 40 (.ofOctets 10 25 0 2) false)
      ⟨none, none, some ⟨5, by decide, by decide⟩, none, none⟩ ∅ := by
  intro hclean
  have hleft := hclean _ _ _ rfl
    (routeKey 40 (.v4 (.ofOctets 0 0 0 0)) 1 none) (by decide)
  exact hleft (by decide)

end

end VpnRouteManager

end Phobos
