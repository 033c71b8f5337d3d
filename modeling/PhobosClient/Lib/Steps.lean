import Mathlib.Data.List.Basic

/-!
# Steps — guarded runs of a labelled state machine

A system is a partial step function `step : S → A → Option S`: the action names the thread
that moves and every choice it makes, so one function covers all interleavings. `Run step ok
s as t` says that the actions `as`, in this order, lead from `s` to `t`, and that each of
them met the guard `ok` in the state it was taken from. The guard is how a run is restricted
("no thread takes that branch"); `fun _ _ => True` restricts nothing.

Runs grow at their end, so `Run.invariant` is the usual invariant rule and `Run.history`
the rule for invariants that also speak about the actions so far. What an action means may
depend on the state it is taken in: `observed` collects the meanings along a run.
-/

namespace Steps

variable {S A : Type*} (step : S → A → Option S) (ok : S → A → Prop)

inductive Run : S → List A → S → Prop where
  | nil (s : S) : Run s [] s
  | snoc {s t u : S} {as : List A} {a : A}
      (run : Run s as t) (hok : ok t a) (hstep : step t a = some u) : Run s (as ++ [a]) u

/-- Run the actions in order; `none` when one of them is not enabled or fails the test. -/
def execIf (test : S → A → Bool) : S → List A → Option S
  | s, [] => some s
  | s, a :: as => if test s a then (step s a).bind fun t => execIf test t as else none

/-- Run the actions in order; `none` when one of them is not enabled. -/
def exec : S → List A → Option S := execIf step fun _ _ => true

/-- The guard `ok` that restricts nothing. -/
def anyStep : S → A → Prop := fun _ _ => True

/-- What `obs` sees of the actions, each in the state it is taken in. -/
def observed {B : Type*} (obs : S → A → List B) : S → List A → List B
  | _, [] => []
  | s, a :: as => obs s a ++ (step s a).elim [] fun t => observed obs t as

variable {step ok}

/-- **Invariants over runs that may look at the actions so far.** -/
theorem Run.history {P : List A → S → Prop} {s t : S} {as : List A}
    (hrun : Run step ok s as t) (hinit : P [] s)
    (hstep : ∀ bs v a w, Run step ok s bs v → P bs v → ok v a → step v a = some w →
      P (bs ++ [a]) w) : P as t := by
  induction hrun with
  | nil => exact hinit
  | snoc run hok hst ih => exact hstep _ _ _ _ run (ih) hok hst

/-- **The invariant rule.** What one permitted step preserves, a whole run preserves. -/
theorem Run.invariant {P : S → Prop} {s t : S} {as : List A}
    (hrun : Run step ok s as t) (hinit : P s)
    (hstep : ∀ v a w, P v → ok v a → step v a = some w → P w) : P t :=
  hrun.history (P := fun _ v => P v) hinit fun _ v a w _ hv => hstep v a w hv

theorem Run.trans {s t u : S} {as bs : List A} (h₁ : Run step ok s as t)
    (h₂ : Run step ok t bs u) : Run step ok s (as ++ bs) u := by
  induction h₂ with
  | nil => rwa [List.append_nil]
  | snoc run hok hst ih =>
    rw [← List.append_assoc]
    exact .snoc ih hok hst

/-- What is seen of a run is what has been seen before, and what its last step shows. -/
theorem Run.observed_snoc {B : Type*} {obs : S → A → List B} {s t : S} {as : List A}
    (hrun : Run step ok s as t) (a : A) :
    observed step obs s (as ++ [a]) = observed step obs s as ++ obs t a := by
  -- for the induction any further actions are appended
  have happend : ∀ bs, observed step obs s (as ++ bs)
      = observed step obs s as ++ observed step obs t bs := by
    induction hrun with
    | nil => exact fun bs => rfl
    | @snoc t u as b run hok hst ih =>
      intro bs
      have hlast : ∀ cs, observed step obs t (b :: cs)
          = obs t b ++ observed step obs u cs := by
        intro cs
        rw [observed, hst, Option.elim_some]
      rw [List.append_assoc, ih, ih, List.singleton_append, hlast, hlast, observed,
        List.append_nil, List.append_assoc]
  rw [happend, observed]
  cases step t a with
  | none => rw [Option.elim_none, List.append_nil]
  | some u => rw [Option.elim_some, observed, List.append_nil]

/-- A weaker guard permits more runs. -/
theorem Run.mono {ok' : S → A → Prop} (hok : ∀ s a, ok s a → ok' s a) {s t : S} {as : List A}
    (hrun : Run step ok s as t) : Run step ok' s as t := by
  induction hrun with
  | nil => exact .nil _
  | snoc _ h hst ih => exact .snoc ih (hok _ _ h) hst

theorem Run.single {s t : S} {a : A} (hok : ok s a) (hstep : step s a = some t) :
    Run step ok s [a] t :=
  .snoc (.nil s) hok hstep

/-- A computed execution is a run under the test it passed. -/
theorem Run.of_execIf {test : S → A → Bool} {s t : S} {as : List A}
    (h : execIf step test s as = some t) : Run step (fun s a => test s a = true) s as t := by
  induction as generalizing s with
  | nil => cases h; exact .nil _
  | cons a as ih =>
    unfold execIf at h
    split at h
    · next htest =>
      obtain ⟨v, hv, hrest⟩ := Option.bind_eq_some_iff.mp h
      have hfirst : Run step (fun s a => test s a = true) s [a] v := .single htest hv
      exact hfirst.trans (ih hrest)
    · cases h

/-- An execution whose last state passes a check is a run to such a state. -/
theorem Run.of_execIf_any {test : S → A → Bool} {s : S} {as : List A} {p : S → Bool}
    (h : (execIf step test s as).any p = true) :
    ∃ t, Run step (fun s a => test s a = true) s as t ∧ p t = true := by
  cases hexec : execIf step test s as with
  | none => rw [hexec] at h; cases h
  | some t =>
    rw [hexec] at h
    exact ⟨t, .of_execIf hexec, h⟩

theorem Run.of_exec_any {s : S} {as : List A} {p : S → Bool}
    (h : (exec step s as).any p = true) : ∃ t, Run step anyStep s as t ∧ p t = true := by
  obtain ⟨t, hrun, hp⟩ := Run.of_execIf_any h
  exact ⟨t, hrun.mono fun _ _ _ => trivial, hp⟩

end Steps
