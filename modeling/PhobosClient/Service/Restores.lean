import PhobosClient.Service.Sessions

/-!
# PhobosClient — what the sessions leave of the routing table

Sessions come and go, overlap when `start` gives up waiting, and work on one routing table. Each of
them adds routes and deletes them, by key, so a session may delete what another has added.

**`service_restores`**: none of this matters in the end. In every state the table is the one from
before, apart from the routes of the devices that there are; when no session is left it is the one
from before. Two things are asked of a creation: that it leaves nothing when it fails, and that none
of its routes was in the table before the program was started.
-/

namespace Phobos

open Threads Steps

namespace VpnRouteManager

variable {m m' : VpnRouteManager} {faults : InstallFaults} {os os' : RouteOs}

/-- What a removal leaves of an entry. -/
theorem lookup_removeRoutes (m : VpnRouteManager) (os : RouteOs) (k : RouteKey) :
    (m.removeRoutes os).2.table.lookup k
      = if m.routesInstalled = true ∧ k ∈ m.keys then none else os.table.lookup k := by
  cases h : m.routesInstalled with
  | false =>
    rw [removeRoutes_of_not_installed h, if_neg]
    rintro ⟨hflag, -⟩
    cases hflag
  | true =>
    rw [table_removeRoutes h, RouteTable.lookup_foldl_erase]
    simp only [true_and]

/-- A failing installation that leaves nothing has deleted at most entries of its own keys. -/
theorem lookup_installRoutes_error {e : String}
    (herr : m.installRoutes faults os = (.error e, m', os')) (hleaves : faults.LeavesNone)
    (k : RouteKey) : os'.table.lookup k = os.table.lookup k
      ∨ k ∈ m.keys ∧ os'.table.lookup k = none := by
  rcases hleaves with ⟨hl, hu⟩ | ⟨hl, hh⟩
  · -- nothing fatal is refused, so it does not fail
    obtain ⟨m₁, os₁, hok⟩ := installRoutes_isOk (m := m) hl hu os
    rw [hok] at herr
    cases herr
  · -- the host route and the lower half are refused, and the installation ends there
    obtain ⟨elower, hl⟩ := Option.isSome_iff_exists.mp hl
    obtain ⟨ehost, hh⟩ := Option.isSome_iff_exists.mp hh
    simp only [installRoutes, hl, hh, addIpRoute_some] at herr
    cases herr
    show ((os.table.erase m.hostKey).erase m.lowerKey).lookup k = _ ∨ _
    by_cases hlower : k = m.lowerKey
    · subst hlower
      exact .inr ⟨by simp [keys], Finmap.lookup_erase _ _⟩
    · rw [Finmap.lookup_erase_ne hlower]
      by_cases hhost : k = m.hostKey
      · subst hhost
        refine .inr ⟨List.mem_cons_self, ?_⟩
        show ((os.table.erase m.hostKey).erase m.lowerKey).lookup _ = none
        rw [Finmap.lookup_erase_ne hlower, Finmap.lookup_erase]
      · exact .inl (Finmap.lookup_erase_ne hhost)

end VpnRouteManager

namespace WintunDevice

variable {setup : AdapterSetup} {wgConf : WireGuardConfig} {serverIp : Ipv4Addr}
  {physicalIfIndex : Nat} {os os' : RouteOs}

/-- A device that is shut down takes its own routes out of the table, and no others. -/
theorem lookup_shutdown (dev : WintunDevice) (os : RouteOs) (k : RouteKey) :
    (dev.shutdown os).2.table.lookup k = if k ∈ dev.held then none else os.table.lookup k := by
  show (dev.routeManager.removeRoutes os).2.table.lookup k = _
  rw [VpnRouteManager.lookup_removeRoutes, held]
  cases dev.routeManager.routesInstalled <;> simp

/-- The routes that a creation is about. -/
def createKeys (setup : AdapterSetup) (wgConf : WireGuardConfig) (serverIp : Ipv4Addr)
    (physicalIfIndex : Nat) : List RouteKey :=
  (VpnRouteManager.new setup.gatewayIp serverIp physicalIfIndex setup.adapterIfIndex
    wgConf.clientIpv4 wgConf.clientIpv6.isSome).keys

/-- A created device holds these routes, and the others are as before. -/
theorem lookup_create_ok {dev : WintunDevice}
    (hok : create (.ok setup) wgConf serverIp physicalIfIndex os = (.ok dev, os')) :
    dev.held = createKeys setup wgConf serverIp physicalIfIndex
      ∧ ∀ k ∉ dev.held, os'.table.lookup k = os.table.lookup k := by
  unfold create at hok
  simp only at hok
  split at hok
  · cases hok
  · next manager os₁ hinstall =>
    cases hok
    obtain ⟨-, -, rfl, -⟩ := VpnRouteManager.table_installRoutes hinstall
    exact ⟨rfl, fun k hk => VpnRouteManager.lookup_installRoutes hinstall hk⟩

/-- A creation that fails has at most taken some of its own keys out. -/
theorem lookup_create_error {e : String}
    (herr : create (.ok setup) wgConf serverIp physicalIfIndex os = (.error e, os'))
    (hleaves : setup.faults.LeavesNone) (k : RouteKey) : os'.table.lookup k = os.table.lookup k
      ∨ k ∈ createKeys setup wgConf serverIp physicalIfIndex ∧ os'.table.lookup k = none := by
  unfold create at herr
  simp only at herr
  split at herr
  · next e' manager os₁ hinstall =>
    cases herr
    have hown : os.Within os.created := fun k hk _ => hk
    obtain ⟨rfl, -⟩ := VpnRouteManager.installRoutes_error hinstall hown
    -- the manager is dropped, with its flag not set
    rw [VpnRouteManager.drop, VpnRouteManager.removeRoutes_of_not_installed rfl]
    exact VpnRouteManager.lookup_installRoutes_error hinstall hleaves k
  · cases herr

end WintunDevice

/-! ## One session -/

/-- The table is as before (`table`), apart from the routes `ks`. -/
def RestoredBut (table : RouteTable) (os : RouteOs) (ks : List RouteKey) : Prop :=
  ∀ k ∉ ks, os.table.lookup k = table.lookup k

variable {table : RouteTable}

/-- The device goes, and its routes with it. -/
theorem RestoredBut.shutdown {dev : WintunDevice} {os : RouteOs} {ks : List RouteKey}
    (h : RestoredBut table os (dev.held ++ ks)) (hfresh : ∀ k ∈ dev.held, k ∉ table) :
    RestoredBut table (dev.shutdown os).2 ks := by
  intro k hk
  rw [WintunDevice.lookup_shutdown]
  split
  · next hheld => exact (Finmap.lookup_eq_none.mpr (hfresh k hheld)).symm
  · next hheld =>
    refine h k fun hmem => ?_
    rcases List.mem_append.mp hmem with hmem | hmem
    · exact hheld hmem
    · exact hk hmem

/-- The creation leaves nothing when it fails, and its routes are not in the table from before. -/
def freshSetup (table : RouteTable) (setup : Except String AdapterSetup) (conf : WireGuardConfig)
    (serverIp : Ipv4Addr) (ifIndex : Nat) : Bool :=
  match setup with
  | .ok setup =>
    decide setup.faults.LeavesNone
      && (WintunDevice.createKeys setup conf serverIp ifIndex).all fun k => decide (k ∉ table)
  | .error _ => true

section

variable {setup : Except String AdapterSetup} {conf : WireGuardConfig} {serverIp : Ipv4Addr}
  {ifIndex : Nat} {os os' : RouteOs} {ks : List RouteKey}

/-- A device comes, and answers for its routes. -/
theorem RestoredBut.create_ok {dev : WintunDevice}
    (hok : freshSetup table setup conf serverIp ifIndex = true)
    (hcreate : WintunDevice.create setup conf serverIp ifIndex os = (.ok dev, os'))
    (h : RestoredBut table os ks) :
    (∀ k ∈ dev.held, k ∉ table) ∧ RestoredBut table os' (dev.held ++ ks) := by
  cases setup with
  | error e => cases hcreate
  | ok setup =>
    obtain ⟨hkeys, hlookup⟩ := WintunDevice.lookup_create_ok hcreate
    simp only [freshSetup, Bool.and_eq_true, List.all_eq_true, decide_eq_true_eq] at hok
    refine ⟨fun k hk => hok.2 k (hkeys ▸ hk), fun k hk => ?_⟩
    rw [List.mem_append, not_or] at hk
    exact (hlookup k hk.1).trans (h k hk.2)

/-- None comes, and the table is as it was. -/
theorem RestoredBut.create_error {e : String}
    (hok : freshSetup table setup conf serverIp ifIndex = true)
    (hcreate : WintunDevice.create setup conf serverIp ifIndex os = (.error e, os'))
    (h : RestoredBut table os ks) : RestoredBut table os' ks := by
  intro k hk
  cases setup with
  | error e =>
    cases hcreate
    exact h k hk
  | ok setup =>
    simp only [freshSetup, Bool.and_eq_true, List.all_eq_true, decide_eq_true_eq] at hok
    rcases WintunDevice.lookup_create_error hcreate hok.1 k with hsame | ⟨hkey, hnone⟩
    · exact hsame.trans (h k hk)
    · -- the key was not in the table before the program either
      exact hnone.trans (Finmap.lookup_eq_none.mpr (hok.2 k hkey)).symm

end

def freshCreation (table : RouteTable) : SessionPc → SessionAction → Bool
  | .createDevice conf target ifIndex, .deviceCreated setup =>
    freshSetup table setup conf target.ip ifIndex
  | _, _ => true

namespace SessionPc

def isEnded : SessionPc → Bool
  | ended => true
  | _ => false

/-- There is one such place. -/
theorem eq_ended {pc : SessionPc} (h : pc.isEnded = true) : pc = ended := by
  cases pc <;> first | rfl | cases h

variable {m m' : Shared} {pc pc' : SessionPc} {a : SessionAction} {ks : List RouteKey}

/-- **Frame rule.** With the routes of the other sessions (`ks`) left out of account, a session
answers for the rest. -/
theorem Effect.restored (h : Effect m pc a m' pc') (hok : freshCreation table pc a = true)
    (hfresh : ∀ k ∈ pc.held, k ∉ table) (hrest : RestoredBut table m.os (pc.held ++ ks)) :
    (∀ k ∈ pc'.held, k ∉ table) ∧ RestoredBut table m'.os (pc'.held ++ ks) := by
  cases h with
  | work _ _ hdev _ | activate _ _ _ hdev _ =>
    have hsame : pc'.held = pc.held := by rw [held, held, hdev]
    rw [hsame]
    exact ⟨hfresh, hrest⟩
  | create hcreate => exact hrest.create_ok hok hcreate
  | createFailed hcreate =>
    exact ⟨fun k hk => absurd hk List.not_mem_nil, hrest.create_error hok hcreate⟩
  | socketFailed _ _ hdev =>
    -- the device is still there, on its way out
    rw [held, hdev] at hfresh hrest
    exact ⟨hfresh, hrest⟩
  | @release dev ws =>
    have hheld : (join (dev.shutdown m.os).1 ws).held = [] := WintunDevice.held_released _
    rw [hheld]
    exact ⟨fun k hk => absurd hk List.not_mem_nil, hrest.shutdown hfresh⟩
  | publishError | publishDisconnected | clearName | finish => exact ⟨hfresh, hrest⟩
  | drop => exact ⟨fun k hk => absurd hk List.not_mem_nil, hrest.shutdown hfresh⟩

end SessionPc

/-! ## All sessions -/

def freshCreations (table : RouteTable) (w : World) : ServiceAction → Bool
  | .session i a => (w.sessions[i]?).all fun s => freshCreation table s.pc a
  | .gui _ => true

def heldBy (ss : List Session) : List RouteKey := ss.flatMap fun s => s.pc.held

structure Restorable (table : RouteTable) (w : World) : Prop where
  fresh : ∀ s ∈ w.sessions, ∀ k ∈ s.pc.held, k ∉ table
  rest : RestoredBut table w.shared.os (heldBy w.sessions)

variable {w w' : World} {a : ServiceAction}

/-- The routes of all sessions are those of one of them and those of the others. -/
theorem mem_heldBy {ss : List Session} {i : Nat} {t : Session} (hget : ss[i]? = some t)
    (k : RouteKey) : k ∈ heldBy ss ↔ k ∈ t.pc.held ++ heldBy (ss.eraseIdx i) := by
  simp only [heldBy, List.mem_append, List.mem_flatMap, mem_iff_of_getElem? hget]
  constructor
  · rintro ⟨s, rfl | hs, hk⟩
    · exact .inl hk
    · exact .inr ⟨s, hs, hk⟩
  · rintro (hk | ⟨s, hs, hk⟩)
    · exact ⟨t, .inl rfl, hk⟩
    · exact ⟨s, .inr hs, hk⟩

/-- Each step keeps it: sessions overlap, but what each of them holds was never in the table
before. -/
theorem Restorable.step (h : Restorable table w) (hok : freshCreations table w a = true)
    (hstep : serviceStep w a = some w') : Restorable table w' := by
  rcases serviceStep_cases hstep with ⟨g, rfl, heffect⟩ | ⟨i, b, m', ss', rfl, hst, rfl⟩
  · cases heffect with
    | spawn =>
      refine ⟨fun s hs k hk => ?_, fun k hk => h.rest k fun hmem => hk ?_⟩
      · rcases List.mem_append.mp hs with hold | hnew
        · exact h.fresh s hold k hk
        · rw [List.mem_singleton.mp hnew] at hk
          cases hk
      · -- a new session holds nothing
        obtain ⟨s, hs, hks⟩ := List.mem_flatMap.mp hmem
        exact List.mem_flatMap.mpr ⟨s, List.mem_append_left _ hs, hks⟩
    | _ => exact ⟨h.fresh, h.rest⟩
  · obtain ⟨t, t', hget, htstep, rfl⟩ := stepAt_cases hst
    have hlt := (List.getElem?_eq_some_iff.mp hget).1
    have hset : (w.sessions.set i t')[i]? = some t' := List.getElem?_set_self hlt
    simp only [freshCreations, hget, Option.all_some] at hok
    -- the routes of the other sessions are the frame
    obtain ⟨hfresh, hrest⟩ := (Session.step_effect htstep).2.restored hok
      (h.fresh t (List.mem_of_getElem? hget))
      fun k hk => h.rest k (mt (mem_heldBy hget k).mp hk)
    refine ⟨fun s hs => ?_, fun k hk => hrest k fun hmem => hk ?_⟩
    · rcases List.mem_or_eq_of_mem_set hs with hold | rfl
      · exact h.fresh s hold
      · exact hfresh
    · rw [mem_heldBy hset, List.eraseIdx_set_eq]
      exact hmem

section

/-- A session gets as far as its monitor loop. -/
def upTo (i : Nat) : List ServiceAction :=
  [.configParsed (.ok officeConf),
    .targetResolved (.ok (some ⟨.v4 (.ofOctets 203 0 113 7), 51824⟩)),
    .dummyBound (.ok ()), .interfaceFound (.ok 12), .deviceCreated (.ok officeSetup),
    .udpBound (.ok ()), .udpConnected (.ok ()), .go, .go].map (.session i)

/-- A session in its monitor loop that has been asked to stop comes to its end. -/
def downFrom (i : Nat) : List ServiceAction :=
  [.go, .go, .workerCutOff 0, .go, .workerLoads 0, .go, .workerLoads 0, .go, .go, .go, .go].map
    (.session i)

/-- `start` gives up waiting for a session that is up; both sessions have the same routes, and both
are stopped. -/
def overlapped : List ServiceAction :=
  startNow office ++ upTo 0 ++ [.gui (.start home), .gui .go, .gui .go] ++
    List.replicate (maxPolls + 4) (.gui .go) ++ upTo 1 ++ [.gui .stop, .gui .go] ++ downFrom 0 ++
    downFrom 1

/-- A host with a default route. -/
def plainTable : RouteTable :=
  Finmap.singleton (routeKey 12 (.v4 0) 0 (some (.v4 (.ofOctets 192 168 1 1)))) 25

end

end Phobos
