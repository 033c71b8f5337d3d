import Mathlib.Data.List.Basic

/-!
# Threads — a pool of threads over shared memory

A thread is given by a partial step function on the shared memory `M` and its own state `T`.
`stepAt` lets the thread at one position of a pool take a step. **`stepAt_cases`** says what
such a step can do to the pool; the two rules after it are the ones invariants use: a property
of every thread survives when the moving thread keeps it (`stepAt_forall`), and a property of
every thread but the newest survives likewise (`stepAt_allButLast`).
-/

namespace Threads

variable {M T A : Type*}

/-- The thread at position `i` takes the step `a`. -/
def stepAt (step : M → T → A → Option (M × T)) (m : M) (pool : List T) (i : Nat) (a : A) :
    Option (M × List T) :=
  match pool[i]? with
  | none => none
  | some t =>
    match step m t a with
    | none => none
    | some (m', t') => some (m', pool.set i t')

/-- `P` holds of every thread of the pool except the newest one. -/
def AllButLast (P : T → Prop) (pool : List T) : Prop :=
  ∀ (i : Nat) (t : T), pool[i]? = some t → i + 1 < pool.length → P t

variable {step : M → T → A → Option (M × T)} {m m' : M} {pool pool' : List T} {i : Nat} {a : A}

theorem stepAt_cases (h : stepAt step m pool i a = some (m', pool')) :
    ∃ t t', pool[i]? = some t ∧ step m t a = some (m', t') ∧ pool' = pool.set i t' := by
  unfold stepAt at h
  cases ht : pool[i]? with
  | none => rw [ht] at h; cases h
  | some t =>
    simp only [ht] at h
    cases hs : step m t a with
    | none => rw [hs] at h; cases h
    | some r =>
      obtain ⟨m₁, t'⟩ := r
      rw [hs] at h
      cases h
      exact ⟨t, t', rfl, hs, rfl⟩

theorem forall_set {P : T → Prop} {t' : T} (hpool : ∀ t ∈ pool, P t) (ht' : P t') :
    ∀ u ∈ pool.set i t', P u := by
  intro u hu
  rcases List.mem_or_eq_of_mem_set hu with hold | rfl
  · exact hpool u hold
  · exact ht'

/-- **What every thread satisfies and the moving thread keeps, every thread satisfies.** -/
theorem stepAt_forall {P : T → Prop} (h : stepAt step m pool i a = some (m', pool'))
    (hpool : ∀ t ∈ pool, P t) (hkeep : ∀ t t', P t → step m t a = some (m', t') → P t') :
    ∀ t ∈ pool', P t := by
  obtain ⟨t, t', hget, hst, rfl⟩ := stepAt_cases h
  exact forall_set hpool (hkeep t t' (hpool t (List.mem_of_getElem? hget)) hst)

theorem AllButLast.set {P : T → Prop} {t t' : T} (hpool : AllButLast P pool)
    (hget : pool[i]? = some t) (hkeep : P t → P t') : AllButLast P (pool.set i t') := by
  intro j u hu hlt
  rw [List.length_set] at hlt
  by_cases hij : i = j
  · subst hij
    rw [List.getElem?_set_self (by omega)] at hu
    cases hu
    exact hkeep (hpool i t hget hlt)
  · rw [List.getElem?_set_ne hij] at hu
    exact hpool j u hu hlt

theorem stepAt_allButLast {P : T → Prop} (h : stepAt step m pool i a = some (m', pool'))
    (hpool : AllButLast P pool) (hkeep : ∀ t t', P t → step m t a = some (m', t') → P t') :
    AllButLast P pool' := by
  obtain ⟨t, t', hget, hst, rfl⟩ := stepAt_cases h
  exact hpool.set hget fun ht => hkeep t t' ht hst

/-- **A thread with `P` is still there** after a step of a thread that keeps `P` if it has it. -/
theorem stepAt_exists {P : T → Prop} (h : stepAt step m pool i a = some (m', pool'))
    (hex : ∃ t ∈ pool, P t) (hkeep : ∀ t t', P t → step m t a = some (m', t') → P t') :
    ∃ t ∈ pool', P t := by
  obtain ⟨t, t', hget, hst, rfl⟩ := stepAt_cases h
  obtain ⟨u, hu, hPu⟩ := hex
  obtain ⟨j, hj⟩ := List.mem_iff_getElem?.mp hu
  by_cases hij : i = j
  · subst hij
    rw [hget] at hj
    cases hj
    have hlt := (List.getElem?_eq_some_iff.mp hget).1
    exact ⟨t', List.mem_of_getElem? (List.getElem?_set_self hlt), hkeep t t' hPu hst⟩
  · rw [← List.getElem?_set_ne hij (a := t')] at hj
    exact ⟨u, List.mem_of_getElem? hj, hPu⟩

/-- The newest thread stays the newest; it is the one before, or that one after its step. -/
theorem stepAt_getLast? (h : stepAt step m pool i a = some (m', pool')) {u : T}
    (hu : pool.getLast? = some u) :
    ∃ u', pool'.getLast? = some u' ∧ (u' = u ∨ step m u a = some (m', u')) := by
  obtain ⟨t, t', hget, hst, rfl⟩ := stepAt_cases h
  have hlt := (List.getElem?_eq_some_iff.mp hget).1
  rw [List.getLast?_eq_getElem?] at hu ⊢
  rw [List.length_set]
  by_cases hi : i = pool.length - 1
  · subst hi
    rw [hget] at hu
    cases hu
    exact ⟨t', List.getElem?_set_self hlt, .inr hst⟩
  · rw [List.getElem?_set_ne hi]
    exact ⟨u, hu, .inl rfl⟩

/-- A pool is the thread at one position and the threads at the others. -/
theorem mem_iff_of_getElem? {t : T} (hget : pool[i]? = some t) (u : T) :
    u ∈ pool ↔ u = t ∨ u ∈ pool.eraseIdx i := by
  rw [List.mem_eraseIdx_iff_getElem?]
  constructor
  · intro hu
    obtain ⟨j, hj⟩ := List.mem_iff_getElem?.mp hu
    by_cases hji : j = i
    · rw [hji, hget] at hj
      exact .inl (Option.some.inj hj).symm
    · exact .inr ⟨j, hji, hj⟩
  · rintro (rfl | ⟨j, -, hj⟩)
    · exact List.mem_of_getElem? hget
    · exact List.mem_of_getElem? hj

/-- A pool whose threads all satisfy `P` may be extended by any thread. -/
theorem AllButLast.snoc {P : T → Prop} (hpool : ∀ t ∈ pool, P t) (new : T) :
    AllButLast P (pool ++ [new]) := by
  intro i t hget hlt
  have hi : i < pool.length := by
    rw [List.length_append, List.length_singleton] at hlt
    omega
  rw [List.getElem?_append_left hi] at hget
  exact hpool t (List.mem_of_getElem? hget)

/-- Two positions whose threads both lack `P` are both the newest. -/
theorem AllButLast.unique {P : T → Prop} (hpool : AllButLast P pool) {j : Nat} {t u : T}
    (hi : pool[i]? = some t) (hj : pool[j]? = some u) (ht : ¬ P t) (hu : ¬ P u) : i = j := by
  have hilt := (List.getElem?_eq_some_iff.mp hi).1
  have hjlt := (List.getElem?_eq_some_iff.mp hj).1
  have hilast : ¬ i + 1 < pool.length := fun hlt => ht (hpool i t hi hlt)
  have hjlast : ¬ j + 1 < pool.length := fun hlt => hu (hpool j u hj hlt)
  omega

end Threads
