import PhobosClient.Lib.Steps

/-!
# Refine — a detailed machine that follows a coarser one

`Simulates step step' f g`: seen through `f`, every step of the detailed machine is the step of the
coarse one that `g` names, or none at all. **`Run.simulate`** carries this over to whole runs, so
what holds of all runs of the coarse machine holds of the detailed one seen through `f`. `Follows`
is the same without the names, for machines whose actions do not tell which step it is.
-/

namespace Steps

variable {S A S' A' : Type*}

def Simulates (step : S → A → Option S) (step' : S' → A' → Option S') (f : S → S')
    (g : A → Option A') : Prop :=
  ∀ s a t, step s a = some t →
    match g a with
    | some b => step' (f s) b = some (f t)
    | none => f t = f s

def Follows (step : S → A → Option S) (step' : S' → A' → Option S') (f : S → S') : Prop :=
  ∀ s a t, step s a = some t → f t = f s ∨ ∃ b, step' (f s) b = some (f t)

variable {step : S → A → Option S} {step' : S' → A' → Option S'} {ok : S → A → Prop} {f : S → S'}
  {g : A → Option A'}

/-- Induction on the run: every step is the step of its name, or is not seen. -/
theorem Run.simulate (hsim : Simulates step step' f g) {s t : S} {as : List A}
    (hrun : Run step ok s as t) : Run step' anyStep (f s) (as.filterMap g) (f t) := by
  induction hrun with
  | nil => exact .nil _
  | @snoc t u as a run hok hst ih =>
    have hstep := hsim t a u hst
    rw [List.filterMap_append]
    cases hg : g a with
    | none =>
      rw [hg] at hstep
      -- a step that is not seen: the coarse machine waits
      rw [List.filterMap_cons_none hg, List.filterMap_nil, List.append_nil, hstep]
      exact ih
    | some b =>
      rw [hg] at hstep
      rw [List.filterMap_cons_some hg, List.filterMap_nil]
      exact .snoc ih trivial hstep

/-- **The runs of a machine that follows another** are runs of that one. -/
theorem Run.follow (hfollows : Follows step step' f) {s t : S} {as : List A}
    (hrun : Run step ok s as t) : ∃ bs, Run step' anyStep (f s) bs (f t) := by
  induction hrun with
  | nil => exact ⟨[], .nil _⟩
  | @snoc t u as a run hok hst ih =>
    obtain ⟨bs, hbs⟩ := ih
    rcases hfollows t a u hst with hsame | ⟨b, hb⟩
    · rw [hsame]
      exact ⟨bs, hbs⟩
    · exact ⟨bs ++ [b], .snoc hbs trivial hb⟩

end Steps
