import Mathlib.Data.Finmap
import PhobosClient.Lib.IpAddr

/-!
# PhobosClient — the system routing table (`src/windows_net.rs`)

The table behind `CreateIpForwardEntry2` and `DeleteIpForwardEntry2` is keyed by interface,
destination network and next hop. Creating an entry whose key exists reports 5010 and
deleting an absent one reports 1168; both count as success for the callers. Whether the
system refuses a creation for another reason is an input of every call (`Fault`); deletions
do not fail.

`RouteOs` also logs which keys were created, so that one can say of a run of calls which
entries it made.
-/

namespace Phobos

structure RouteKey where
  ifIndex : Nat
  dest : IpAddr
  prefixLen : Nat
  nextHop : IpAddr
  deriving DecidableEq

/-- The routing table: the metric of every entry. -/
abbrev RouteTable := Finmap fun _ : RouteKey => Nat

structure RouteOs where
  table : RouteTable
  created : List RouteKey

/-- An error code of a creation that was refused: neither success nor "already exists". -/
structure ErrorCode where
  code : Nat
  ne_zero : code ≠ 0
  ne_exists : code ≠ 5010
  deriving DecidableEq

/-- How the system takes a creation: it carries it out, or refuses it with an error. -/
abbrev Fault := Option ErrorCode

def createIpForwardEntry2 (fault : Fault) (os : RouteOs) (key : RouteKey) (metric : Nat) :
    Nat × RouteOs :=
  match fault with
  | some e => (e.code, os)
  | none =>
    if key ∈ os.table then (5010, os)
    else (0, ⟨os.table.insert key metric, os.created ++ [key]⟩)

def deleteIpForwardEntry2 (os : RouteOs) (key : RouteKey) : Nat × RouteOs :=
  if key ∈ os.table then (0, ⟨os.table.erase key, os.created⟩) else (1168, os)

/-- The row both calls fill in: without a next hop it is the unspecified address. -/
def routeKey (ifIndex : Nat) (dest : IpAddr) (prefixLen : Nat) (nextHop : Option IpAddr) :
    RouteKey :=
  { ifIndex, dest, prefixLen
    nextHop := match nextHop with
      | some gw => gw
      | none => .unspecified dest.isIpv6 }

def deleteIpRoute (os : RouteOs) (ifIndex : Nat) (dest : IpAddr) (prefixLen : Nat)
    (nextHop : Option IpAddr) : Except String Unit × RouteOs :=
  let (res, os) := deleteIpForwardEntry2 os (routeKey ifIndex dest prefixLen nextHop)
  if res = 0 ∨ res = 1168 then (.ok (), os)
  else (.error s!"DeleteIpForwardEntry2 failed: error code {res}", os)

def addIpRoute (fault : Fault) (os : RouteOs) (ifIndex : Nat) (dest : IpAddr) (prefixLen : Nat)
    (nextHop : Option IpAddr) (metric : Nat) : Except String Unit × RouteOs :=
  let (_, os) := deleteIpRoute os ifIndex dest prefixLen nextHop
  let (res, os) := createIpForwardEntry2 fault os (routeKey ifIndex dest prefixLen nextHop) metric
  if res ≠ 0 ∧ res ≠ 5010 then
    (.error s!"CreateIpForwardEntry2 failed: error code {res}", os)
  else (.ok (), os)

/-! ## What the two calls do -/

section

variable (os : RouteOs) (ifIndex : Nat) (dest : IpAddr) (prefixLen : Nat)
  (nextHop : Option IpAddr) (metric : Nat)

/-- Deleting a route removes its key and nothing else. -/
@[simp] theorem deleteIpRoute_eq : deleteIpRoute os ifIndex dest prefixLen nextHop
    = (.ok (), ⟨os.table.erase (routeKey ifIndex dest prefixLen nextHop), os.created⟩) := by
  by_cases hmem : routeKey ifIndex dest prefixLen nextHop ∈ os.table
  · simp only [deleteIpRoute, deleteIpForwardEntry2, if_pos hmem, true_or, if_true]
  · -- an absent key: erasing it changes nothing
    have herase : os.table.erase (routeKey ifIndex dest prefixLen nextHop) = os.table := by
      apply Finmap.ext_lookup
      intro k
      by_cases hk : k = routeKey ifIndex dest prefixLen nextHop
      · rw [hk, Finmap.lookup_erase, Finmap.lookup_eq_none.mpr hmem]
      · exact Finmap.lookup_erase_ne hk
    simp only [deleteIpRoute, deleteIpForwardEntry2, if_neg hmem, or_true, if_true, herase]

/-- Adding a route replaces the entry of its key: the old one is deleted first, so the
creation never meets an existing entry. -/
@[simp] theorem addIpRoute_none : addIpRoute none os ifIndex dest prefixLen nextHop metric
    = (.ok (), ⟨(os.table.erase (routeKey ifIndex dest prefixLen nextHop)).insert
        (routeKey ifIndex dest prefixLen nextHop) metric,
        os.created ++ [routeKey ifIndex dest prefixLen nextHop]⟩) := by
  simp only [addIpRoute, deleteIpRoute_eq, createIpForwardEntry2,
    if_neg Finmap.notMem_erase_self, ne_eq, not_true_eq_false, false_and, if_false]

/-- A refused addition has still deleted the old entry. -/
@[simp] theorem addIpRoute_some (e : ErrorCode) :
    addIpRoute (some e) os ifIndex dest prefixLen nextHop metric
      = (.error s!"CreateIpForwardEntry2 failed: error code {e.code}",
        ⟨os.table.erase (routeKey ifIndex dest prefixLen nextHop), os.created⟩) := by
  simp only [addIpRoute, deleteIpRoute_eq, createIpForwardEntry2]
  rw [if_pos ⟨e.ne_zero, e.ne_exists⟩]

end

/-! ## The table as a map

What the two calls do to the table alone, and what a whole list of additions or deletions
makes of one entry. -/

namespace RouteTable

/-- What adding a route makes of the table. -/
def add (table : RouteTable) (key : RouteKey) (fault : Fault) (metric : Nat) : RouteTable :=
  match fault with
  | none => (table.erase key).insert key metric
  | some _ => table.erase key

theorem lookup_add_self (table : RouteTable) (key : RouteKey) (fault : Fault) (metric : Nat) :
    (table.add key fault metric).lookup key = if fault = none then some metric else none := by
  cases fault with
  | none => exact Finmap.lookup_insert _
  | some e => exact Finmap.lookup_erase key table

theorem lookup_add_ne {key k : RouteKey} (h : k ≠ key) (table : RouteTable) (fault : Fault)
    (metric : Nat) : (table.add key fault metric).lookup k = table.lookup k := by
  cases fault with
  | none =>
    rw [add, Finmap.lookup_insert_of_ne _ h]
    exact Finmap.lookup_erase_ne h
  | some e => exact Finmap.lookup_erase_ne h

/-- Additions of other keys leave an entry alone. -/
theorem lookup_foldl_add_of_notMem {k : RouteKey} (metric : Nat) :
    ∀ (cs : List (RouteKey × Fault)) (table : RouteTable), k ∉ cs.map Prod.fst →
      (cs.foldl (fun t c => t.add c.1 c.2 metric) table).lookup k = table.lookup k := by
  intro cs
  induction cs with
  | nil => exact fun table _ => rfl
  | cons c cs ih =>
    intro table h
    simp only [List.map_cons, List.mem_cons, not_or] at h
    rw [List.foldl_cons, ih _ h.2, lookup_add_ne h.1]

/-- **What additions of distinct keys leave.** An accepted one its entry, a refused one
nothing under its key. -/
theorem lookup_foldl_add {key : RouteKey} {fault : Fault} (metric : Nat) :
    ∀ (cs : List (RouteKey × Fault)) (table : RouteTable), (cs.map Prod.fst).Nodup →
      (key, fault) ∈ cs → (cs.foldl (fun t c => t.add c.1 c.2 metric) table).lookup key
        = if fault = none then some metric else none := by
  intro cs
  induction cs with
  | nil => exact fun table _ h => absurd h List.not_mem_nil
  | cons c cs ih =>
    intro table hnodup hmem
    rw [List.map_cons, List.nodup_cons] at hnodup
    rw [List.foldl_cons]
    -- the addition of this key, or one before it
    rcases List.mem_cons.mp hmem with rfl | hmem
    · rw [lookup_foldl_add_of_notMem metric cs _ hnodup.1, lookup_add_self]
    · exact ih _ hnodup.2 hmem

/-- What a list of deletions leaves. -/
theorem lookup_foldl_erase (k : RouteKey) :
    ∀ (ks : List RouteKey) (table : RouteTable),
      (ks.foldl (fun t key => t.erase key) table).lookup k
        = if k ∈ ks then none else table.lookup k := by
  intro ks
  induction ks with
  | nil => exact fun table => rfl
  | cons key ks ih =>
    intro table
    rw [List.foldl_cons, ih]
    by_cases hk : k = key
    · subst hk
      simp [Finmap.lookup_erase]
    · simp [hk, Finmap.lookup_erase_ne]

end RouteTable

theorem table_addIpRoute (fault : Fault) (os : RouteOs) (ifIndex : Nat) (dest : IpAddr)
    (prefixLen : Nat) (nextHop : Option IpAddr) (metric : Nat) :
    (addIpRoute fault os ifIndex dest prefixLen nextHop metric).2.table
      = os.table.add (routeKey ifIndex dest prefixLen nextHop) fault metric := by
  cases fault with
  | none => rw [addIpRoute_none]; rfl
  | some e => rw [addIpRoute_some]; rfl

/-! ## Entries that calls have left behind -/

namespace RouteOs

/-- Every entry that the logged calls created and that is still there has a key of `ks`. -/
def Within (os : RouteOs) (ks : List RouteKey) : Prop :=
  ∀ k ∈ os.created, k ∈ os.table → k ∈ ks

variable {os : RouteOs} {ks : List RouteKey} {ifIndex : Nat} {dest : IpAddr} {prefixLen : Nat}
  {nextHop : Option IpAddr}

theorem Within.mono {ks' : List RouteKey} (h : os.Within ks) (hsub : ∀ k ∈ ks, k ∈ ks') :
    os.Within ks' :=
  fun k hk hmem => hsub k (h k hk hmem)

/-- An addition, refused or not, leaves at most its own key behind. -/
theorem Within.add (fault : Fault) (metric : Nat) (h : os.Within ks)
    (hkey : routeKey ifIndex dest prefixLen nextHop ∈ ks) :
    (addIpRoute fault os ifIndex dest prefixLen nextHop metric).2.Within ks := by
  cases fault with
  | none =>
    rw [addIpRoute_none]
    intro k hk hmem
    -- an entry created before, or by this call
    rcases List.mem_append.mp hk with hold | hnew
    · rcases Finmap.mem_insert.mp hmem with heq | hmem
      · exact heq ▸ hkey
      · exact h k hold (Finmap.mem_erase.mp hmem).2
    · exact List.mem_singleton.mp hnew ▸ hkey
  | some e =>
    rw [addIpRoute_some]
    exact fun k hk hmem => h k hk (Finmap.mem_erase.mp hmem).2

/-- A refused addition leaves nothing new behind. -/
theorem Within.add_refused (e : ErrorCode) (ifIndex : Nat) (dest : IpAddr) (prefixLen : Nat)
    (nextHop : Option IpAddr) (metric : Nat) (h : os.Within ks) :
    (addIpRoute (some e) os ifIndex dest prefixLen nextHop metric).2.Within ks := by
  rw [addIpRoute_some]
  exact fun k hk hmem => h k hk (Finmap.mem_erase.mp hmem).2

/-- A deletion takes its key off the list. -/
theorem Within.delete (h : os.Within (routeKey ifIndex dest prefixLen nextHop :: ks)) :
    (deleteIpRoute os ifIndex dest prefixLen nextHop).2.Within ks := by
  rw [deleteIpRoute_eq]
  intro k hk hmem
  have hne := (Finmap.mem_erase.mp hmem).1
  have hin := h k hk (Finmap.mem_erase.mp hmem).2
  exact (List.mem_cons.mp hin).resolve_left hne

end RouteOs

end Phobos
