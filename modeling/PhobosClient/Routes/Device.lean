import PhobosClient.Config.Types
import PhobosClient.Routes.Manager

/-!
# PhobosClient — the Wintun device (`src/wintun_adapter.rs`)

A `WintunDevice` owns a driver session and a route manager; it exists only once all its
routes are installed. Shutting it down closes the session and removes the routes, and a
device that has been shut down has the type `ReleasedDevice`, so that whoever holds one holds
no routes. Dropping a device shuts it down.
-/

namespace Phobos

structure WintunDevice where
  sessionOpen : Bool
  routeManager : VpnRouteManager

/-- A device whose routes have been removed. -/
abbrev ReleasedDevice := { dev : WintunDevice // dev.routeManager.routesInstalled = false }

/-- What the system answers while the adapter is set up: its interface, the gateway towards
the server and how it takes the routes. -/
structure AdapterSetup where
  adapterIfIndex : Nat
  gatewayIp : Option Ipv4Addr
  faults : InstallFaults

namespace WintunDevice

/-- `create`. The steps before the routes either fail with a text or yield an
`AdapterSetup`; the manager of a failed installation is dropped on the way out. -/
def create (setup : Except String AdapterSetup) (wgConf : WireGuardConfig) (serverIp : Ipv4Addr)
    (physicalIfIndex : Nat) (os : RouteOs) : Except String WintunDevice × RouteOs :=
  match setup with
  | .error e => (.error e, os)
  | .ok setup =>
    let manager := VpnRouteManager.new setup.gatewayIp serverIp physicalIfIndex
      setup.adapterIfIndex wgConf.clientIpv4 wgConf.clientIpv6.isSome
    match manager.installRoutes setup.faults os with
    | (.error e, manager, os) => (.error e, manager.drop os)
    | (.ok (), manager, os) => (.ok ⟨true, manager⟩, os)

def shutdown (dev : WintunDevice) (os : RouteOs) : ReleasedDevice × RouteOs :=
  (⟨⟨false, (dev.routeManager.removeRoutes os).1⟩,
      VpnRouteManager.removeRoutes_not_installed⟩,
    (dev.routeManager.removeRoutes os).2)

/-- `Drop`. -/
def drop (dev : WintunDevice) (os : RouteOs) : RouteOs := (dev.shutdown os).2

/-- The routes a device answers for. -/
def held (dev : WintunDevice) : List RouteKey :=
  if dev.routeManager.routesInstalled then dev.routeManager.keys else []

theorem held_released (dev : ReleasedDevice) : dev.val.held = [] := by
  rw [held, dev.property]
  rfl

variable {setup : Except String AdapterSetup} {wgConf : WireGuardConfig} {serverIp : Ipv4Addr}
  {physicalIfIndex : Nat} {os os' : RouteOs} {ks : List RouteKey}

/-- Shutting a device down removes the routes it answers for. -/
theorem shutdown_within (dev : WintunDevice) (hos : os.Within (dev.held ++ ks)) :
    (dev.shutdown os).2.Within ks := by
  show (dev.routeManager.removeRoutes os).2.Within ks
  cases h : dev.routeManager.routesInstalled with
  | false =>
    rw [VpnRouteManager.removeRoutes_of_not_installed h]
    rw [held, h] at hos
    exact hos
  | true =>
    rw [held, h] at hos
    exact VpnRouteManager.removeRoutes_within h hos

/-- The setups that leave no route behind when they fail. -/
def LeavesNone (setup : Except String AdapterSetup) : Prop :=
  ∀ s, setup = .ok s → s.faults.LeavesNone

/-- **A created device** answers for every route that creating it left. -/
theorem create_ok {dev : WintunDevice}
    (hok : create setup wgConf serverIp physicalIfIndex os = (.ok dev, os'))
    (hos : os.Within ks) : os'.Within (dev.held ++ ks) := by
  cases setup with
  | error e => simp [create] at hok
  | ok setup =>
    unfold create at hok
    simp only at hok
    split at hok
    · cases hok
    · next manager os₁ hinstall =>
      cases hok
      -- the flag is set, so the device holds the keys of its manager
      obtain ⟨rfl, hwithin⟩ := VpnRouteManager.installRoutes_ok hinstall hos
      exact hwithin

/-- **A failed creation** leaves nothing, unless its faults are of the kind that does. -/
theorem create_error {e : String}
    (herr : create setup wgConf serverIp physicalIfIndex os = (.error e, os'))
    (hleaves : LeavesNone setup) (hos : os.Within ks) : os'.Within ks := by
  cases setup with
  | error e' =>
    cases herr
    exact hos
  | ok setup =>
    unfold create at herr
    simp only at herr
    split at herr
    · next e' manager os₁ hinstall =>
      cases herr
      obtain ⟨rfl, hwithin⟩ := VpnRouteManager.installRoutes_error hinstall hos
      -- the manager is dropped, which removes nothing after a failure
      rw [VpnRouteManager.drop, VpnRouteManager.removeRoutes_of_not_installed rfl]
      exact hwithin (hleaves setup rfl)
    · cases herr

end WintunDevice

end Phobos
