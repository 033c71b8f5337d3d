import PhobosClient.Routes.Device

/-!
# PhobosClient — tearing a device down (`src/wintun_adapter.rs`)

`remove_routes` is reached up to three times for one device: by `shutdown`, by the drop of the
device, which shuts it down, and by the drop of its route manager after that. In between, other
programs may edit the routing table.

**`teardown_restores`**: whatever the order of the calls, the first one undoes the
installation exactly, and the later ones do nothing. The first half is
`table_removeRoutes_installRoutes` — the two lists of routes, written out separately in the
source, have the same keys —, the second the flag that the first call clears.
-/

namespace Phobos

/-- The calls that reach `remove_routes`. -/
inductive TeardownCall where
  | shutdown
  | deviceDrop
  | managerDrop

/-- What happens to the table while a device is torn down: a call, or an edit by someone
else. -/
inductive TeardownEvent where
  | call (c : TeardownCall)
  | edit (f : RouteTable → RouteTable)

/-- A call on the device and the table. -/
def TeardownCall.run : TeardownCall → WintunDevice × RouteOs → WintunDevice × RouteOs
  | .shutdown, (dev, os) => ((dev.shutdown os).1.val, (dev.shutdown os).2)
  | .deviceDrop, (dev, os) => ((dev.shutdown os).1.val, dev.drop os)
  | .managerDrop, (dev, os) =>
    ({ dev with routeManager := (dev.routeManager.removeRoutes os).1 }, dev.routeManager.drop os)

def TeardownEvent.run : TeardownEvent → WintunDevice × RouteOs → WintunDevice × RouteOs
  | .call c, s => c.run s
  | .edit f, (dev, os) => (dev, { os with table := f os.table })

/-- What an event alone makes of the table: calls count as nothing. -/
def TeardownEvent.edited : TeardownEvent → RouteTable → RouteTable
  | .call _, table => table
  | .edit f, table => f table

namespace VpnRouteManager

variable {m m' : VpnRouteManager} {faults : InstallFaults} {os os' : RouteOs}

/-- **Removal undoes installation**, whichever of the optional routes were refused, when the
table held none of the manager's keys before. -/
theorem table_removeRoutes_installRoutes (hkeys : ∀ k ∈ m.keys, k ∉ os.table)
    (hok : m.installRoutes faults os = (.ok (), m', os')) :
    (m'.removeRoutes os').2.table = os.table := by
  obtain ⟨-, -, rfl, -⟩ := table_installRoutes hok
  rw [table_removeRoutes rfl]
  apply Finmap.ext_lookup
  intro k
  -- the keys do not depend on the flag
  have hsame : { m with routesInstalled := true : VpnRouteManager }.keys = m.keys := rfl
  rw [RouteTable.lookup_foldl_erase, hsame]
  by_cases hk : k ∈ m.keys
  · rw [if_pos hk, Finmap.lookup_eq_none.mpr (hkeys k hk)]
  · rw [if_neg hk, lookup_installRoutes hok hk]

end VpnRouteManager

/-- A call removes the manager's routes and leaves the manager without any. -/
theorem TeardownCall.run_spec (c : TeardownCall) (dev : WintunDevice) (os : RouteOs) :
    (c.run (dev, os)).1.routeManager.routesInstalled = false
      ∧ (c.run (dev, os)).2 = (dev.routeManager.removeRoutes os).2 := by
  cases c with
  | shutdown => exact ⟨(dev.shutdown os).1.property, rfl⟩
  | deviceDrop => exact ⟨(dev.shutdown os).1.property, rfl⟩
  | managerDrop => exact ⟨VpnRouteManager.removeRoutes_not_installed, rfl⟩

/-- One event on a device without routes: only an edit changes the table. -/
theorem TeardownEvent.run_released (e : TeardownEvent) {dev : WintunDevice}
    (h : dev.routeManager.routesInstalled = false) (os : RouteOs) :
    (e.run (dev, os)).1.routeManager.routesInstalled = false
      ∧ (e.run (dev, os)).2.table = e.edited os.table := by
  cases e with
  | call c =>
    obtain ⟨hflag, hos⟩ := c.run_spec dev os
    rw [VpnRouteManager.removeRoutes_of_not_installed h] at hos
    exact ⟨hflag, congrArg RouteOs.table hos⟩
  | edit f => exact ⟨h, rfl⟩

/-- A whole run of events on a device without routes. -/
theorem foldl_run_released (events : List TeardownEvent) :
    ∀ (dev : WintunDevice) (os : RouteOs), dev.routeManager.routesInstalled = false →
      (events.foldl (fun s e => e.run s) (dev, os)).2.table
        = events.foldl (fun t e => e.edited t) os.table := by
  induction events with
  | nil => exact fun _ _ _ => rfl
  | cons e events ih =>
    intro dev os h
    obtain ⟨hflag, htable⟩ := e.run_released h os
    rw [List.foldl_cons, List.foldl_cons, ← htable]
    exact ih _ _ hflag

/-- **Teardown restores the table.** After a successful installation on a table without the
manager's keys, one or more calls in any order leave the initial table; with edits by others
in between, they leave what the edits alone would have made of it, so every call after the
first changes nothing, not even an entry equal to one of the manager's own. -/
theorem teardown_restores {m m' : VpnRouteManager} {faults : InstallFaults} {table : RouteTable}
    {os' : RouteOs} (hkeys : ∀ k ∈ m.keys, k ∉ table)
    (hok : m.installRoutes faults ⟨table, []⟩ = (.ok (), m', os')) (sessionOpen : Bool)
    (first : TeardownCall) :
    (∀ calls : List TeardownCall,
        ((first :: calls).foldl (fun s c => c.run s) (⟨sessionOpen, m'⟩, os')).2.table = table)
      ∧ ∀ events : List TeardownEvent,
        ((.call first :: events).foldl (fun s e => e.run s) (⟨sessionOpen, m'⟩, os')).2.table
          = events.foldl (fun t e => e.edited t) table := by
  obtain ⟨hflag, hos⟩ := first.run_spec ⟨sessionOpen, m'⟩ os'
  have hfirst : (first.run (⟨sessionOpen, m'⟩, os')).2.table = table := by
    rw [hos]
    exact VpnRouteManager.table_removeRoutes_installRoutes hkeys hok
  have hevents : ∀ events : List TeardownEvent,
      ((.call first :: events).foldl (fun s e => e.run s) (⟨sessionOpen, m'⟩, os')).2.table
        = events.foldl (fun t e => e.edited t) table := by
    intro events
    have hrun := foldl_run_released events _ (first.run (⟨sessionOpen, m'⟩, os')).2 hflag
    rw [hfirst] at hrun
    exact hrun
  refine ⟨fun calls => ?_, hevents⟩
  -- calls alone are events that edit nothing
  have hcalls := hevents (calls.map .call)
  have hnone : (calls.map TeardownEvent.call).foldl (fun t e => e.edited t) table = table := by
    rw [List.foldl_map]
    exact List.foldl_fixed' (fun _ => rfl) calls
  rw [hnone, List.foldl_cons, List.foldl_map] at hcalls
  exact hcalls

/-- A manager with IPv6 whose host route and lower IPv6 half are refused, torn down by all
three paths: 0.0.0.0/1 is there until the first of them. -/
theorem teardown_restores_refused :
    let m := VpnRouteManager.new (some (.ofOctets 192 168 1 1)) (.ofOctets 203 0 113 7) 12 40
      (.ofOctets 10 25 0 2) true
    let e : ErrorCode := ⟨5, by decide, by decide⟩
    let installed := m.installRoutes ⟨some e, none, none, some e, none⟩ ⟨∅, []⟩
    m.lowerKey ∈ installed.2.2.table
      ∧ m.lowerKey ∉ (TeardownCall.shutdown.run (⟨true, installed.2.1⟩, installed.2.2)).2.table
      ∧ (∀ calls : List TeardownCall,
        ((.shutdown :: calls).foldl (fun s c => c.run s)
          (⟨true, installed.2.1⟩, installed.2.2)).2.table = ∅)
      ∧ ∀ events : List TeardownEvent,
        ((.call .shutdown :: events).foldl (fun s e => e.run s)
          (⟨true, installed.2.1⟩, installed.2.2)).2.table
          = events.foldl (fun t e => e.edited t) ∅ := by
  intro m e installed
  have hok : m.installRoutes ⟨some e, none, none, some e, none⟩ ⟨∅, []⟩
      = (.ok (), installed.2.1, installed.2.2) := rfl
  obtain ⟨hcalls, hevents⟩ :=
    teardown_restores (fun _ _ => Finmap.notMem_empty) hok true .shutdown
  refine ⟨by decide +kernel, ?_, hcalls, hevents⟩
  have hgone : (TeardownCall.shutdown.run (⟨true, installed.2.1⟩, installed.2.2)).2.table = ∅ :=
    hcalls []
  rw [hgone]
  exact Finmap.notMem_empty

end Phobos
