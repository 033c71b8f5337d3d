import PhobosClient.Lib.Steps

/-!
# Progress — steps that use up a measure

Rules about a number that the steps of a run never raise. If certain steps lower it, a run has at
most so many of them (`Run.countP_le`, or `Run.countP_le_refilled` where other steps raise it by a
fixed amount); and if some step that lowers it can be taken in every state but the final ones, a
final state can be reached, in at most so many steps (`exists_run_to`).
-/

namespace Steps

variable {S A : Type*} {step : S → A → Option S} {ok : S → A → Prop}

/-- **A run has no more busy steps than the measure allows**, where some steps refill it. -/
theorem Run.countP_le_refilled {P : S → Prop} {s t : S} {as : List A} (hrun : Run step ok s as t)
    (measure : S → Nat) (busy refills : A → Bool) (k : Nat) (hs : P s)
    (hstep : ∀ v a w, P v → ok v a → step v a = some w →
      P w ∧ measure w + (busy a).toNat ≤ measure v + k * (refills a).toNat) :
    as.countP busy + measure t ≤ measure s + k * as.countP refills := by
  have hboth : P t ∧ as.countP busy + measure t ≤ measure s + k * as.countP refills := by
    refine hrun.history
      (P := fun as t => P t ∧ as.countP busy + measure t ≤ measure s + k * as.countP refills)
      ⟨hs, by simp⟩ fun bs v a w _ hv hok hst => ?_
    obtain ⟨hw, hlast⟩ := hstep v a w hv.1 hok hst
    have hsum := hv.2
    -- the last step counts once, or not at all
    have hcount : ∀ p : A → Bool, (bs ++ [a]).countP p = bs.countP p + (p a).toNat := by
      intro p
      rw [List.countP_append, List.countP_singleton]
      cases p a <;> rfl
    refine ⟨hw, ?_⟩
    rw [hcount, hcount, Nat.mul_add]
    omega
  exact hboth.2

/-- The same for a measure that no step raises. -/
theorem Run.countP_le {P : S → Prop} {s t : S} {as : List A} (hrun : Run step ok s as t)
    (measure : S → Nat) (busy : A → Bool) (hs : P s)
    (hstep : ∀ v a w, P v → ok v a → step v a = some w →
      P w ∧ measure w + (busy a).toNat ≤ measure v) :
    as.countP busy + measure t ≤ measure s := by
  -- no refill: the factor is zero
  have hbound := hrun.countP_le_refilled measure busy busy 0 hs fun v a w hv hok hst => by
    obtain ⟨hw, hlast⟩ := hstep v a w hv hok hst
    exact ⟨hw, by omega⟩
  omega

/-- **Where no state but a final one is stuck, a final state can be reached.** Induction on the
measure. -/
theorem exists_run_to {P Final : S → Prop} (measure : S → Nat)
    (hstep : ∀ v, P v → ¬ Final v →
      ∃ a w, ok v a ∧ step v a = some w ∧ P w ∧ measure w < measure v) {s : S} (hs : P s) :
    ∃ as t, Run step ok s as t ∧ P t ∧ Final t ∧ as.length ≤ measure s := by
  induction hm : measure s using Nat.strongRecOn generalizing s with
  | ind m ih =>
    by_cases hfinal : Final s
    · exact ⟨[], s, .nil s, hs, hfinal, Nat.zero_le _⟩
    · -- one step on, the measure is smaller
      obtain ⟨a, w, hok, hst, hw, hlt⟩ := hstep s hs hfinal
      obtain ⟨as, t, hrun, ht, hdone, hlen⟩ := ih (measure w) (hm ▸ hlt) hw rfl
      refine ⟨a :: as, t, ?_, ht, hdone, ?_⟩
      · have hfirst : Run step ok s [a] w := .single hok hst
        exact hfirst.trans hrun
      · rw [List.length_cons]
        omega

end Steps
