import Mathlib.Data.Option.Basic

/-!
# Locks — who holds a lock

A lock is `none` while it is free, and otherwise names the thread that holds it. A thread takes it
in one step and gives it back in a later one; in between it stands in the code that the lock
guards. `Held` says that the lock and the places of the threads agree.

A step of a thread takes the lock, gives it back, or does neither (`LockMove`), and all three keep
the two in agreement (**`Held.move`**). So no two threads stand in the guarded code
(**`Held.unique`**).

With several locks, threads may wait for each other. They do not do so for ever if the locks have
ranks, and whoever holds one waits only for one of a higher rank: the chain of those who wait ends
at a thread that can go on (**`exists_unblocked`**).
-/

namespace Locks

variable {T : Type*} {lock lock' : Option T} {inside inside' : T → Bool} {t u : T}

/-- The lock is held by the thread that stands in the code it guards. -/
def Held (lock : Option T) (inside : T → Bool) : Prop := ∀ t, lock = some t ↔ inside t = true

/-- What a step of the thread `t` does to the lock, with where the thread stands before it and
after it. -/
inductive LockMove (t : T) : Option T → Bool → Option T → Bool → Prop where
  | keep {lock : Option T} {inside : Bool} : LockMove t lock inside lock inside
  | take : LockMove t none false (some t) true
  | giveBack {lock : Option T} : LockMove t lock true none false

/-- **The lock stays with the thread that is inside**, whatever a thread does. -/
theorem Held.move (h : Held lock inside) (hmove : LockMove t lock (inside t) lock' (inside' t))
    (hothers : ∀ u, u ≠ t → inside' u = inside u) : Held lock' inside' := by
  intro u
  have hu := h u
  have ht := h t
  generalize hbefore : inside t = before at hmove ht
  generalize hafter : inside' t = after at hmove
  by_cases hut : u = t
  · subst hut
    rw [hafter]
    cases hmove with
    | keep => exact ht
    | take => exact iff_of_true rfl rfl
    | giveBack => exact iff_of_false (fun h => by cases h) Bool.false_ne_true
  · rw [hothers u hut]
    cases hmove with
    | keep => exact hu
    | take =>
      -- nobody held the lock before
      refine iff_of_false (fun hmine => hut (Option.some.inj hmine).symm) fun hin => ?_
      cases hu.mpr hin
    | giveBack =>
      -- `t` held it, so nobody else did
      refine iff_of_false (fun h => by cases h) fun hin => hut ?_
      exact Option.some.inj ((hu.mpr hin).symm.trans (ht.mpr rfl))

/-- **Mutual exclusion.** -/
theorem Held.unique (h : Held lock inside) (ht : inside t = true) (hu : inside u = true) :
    t = u :=
  Option.some.inj (((h t).mpr ht).symm.trans ((h u).mpr hu))

theorem Held.of_free (hout : ∀ t, inside t = false) : Held none inside :=
  fun t => iff_of_false (fun h => by cases h) (Bool.not_eq_true _ ▸ hout t)

/-- **Ranked locks do not deadlock.** Whichever thread one starts from, either it can go on, or a
thread that holds a lock can. -/
theorem exists_unblocked {L : Type*} {lock : L → Option T} {inside : L → T → Bool}
    {waits : T → Option L} {rank : L → Nat} {n : Nat} (hheld : ∀ l, Held (lock l) (inside l))
    (horder : ∀ {t l l'}, inside l t = true → waits t = some l' → rank l < rank l')
    (hrank : ∀ l, rank l < n) (t : T) :
    ∃ u, (∀ l, waits u = some l → lock l = none) ∧ (u = t ∨ ∃ l, inside l u = true) := by
  -- the higher the lock that `t` waits for, the shorter the chain
  have hchain : ∀ k t, (∀ l, waits t = some l → n ≤ rank l + k) →
      ∃ u, (∀ l, waits u = some l → lock l = none) ∧ (u = t ∨ ∃ l, inside l u = true) := by
    intro k
    induction k with
    | zero =>
      intro t hlow
      refine ⟨t, fun l hl => ?_, Or.inl rfl⟩
      exact absurd (hrank l) (Nat.not_lt.mpr (hlow l hl))
    | succ k ih =>
      intro t hlow
      cases hwaits : waits t with
      | none =>
        refine ⟨t, fun l hl => ?_, Or.inl rfl⟩
        rw [hwaits] at hl
        cases hl
      | some l =>
        cases hlock : lock l with
        | none =>
          refine ⟨t, fun l' hl' => ?_, Or.inl rfl⟩
          cases hwaits.symm.trans hl'
          exact hlock
        | some v =>
          -- the holder waits higher up, if it waits
          have hin : inside l v = true := (hheld l v).mp hlock
          have hhigher : ∀ l', waits v = some l' → n ≤ rank l' + k := by
            intro l' hl'
            have hup := horder hin hl'
            have hbound := hlow l hwaits
            omega
          obtain ⟨u, hu, hwho⟩ := ih v hhigher
          refine ⟨u, hu, Or.inr ?_⟩
          rcases hwho with rfl | hholds
          · exact ⟨l, hin⟩
          · exact hholds
  exact hchain n t fun l _ => Nat.le_add_left n (rank l)

end Locks
