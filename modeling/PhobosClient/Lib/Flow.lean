import Mathlib.Algebra.Order.Group.Multiset

/-!
# Flow — what goes in comes out

The events of a system carry items in and out of it; an `ItemFlow` says which. What is in between is
`pending`. In a `Balanced` flow the items leave in the order they came in, none twice and none
left out; in a `Conserved` one this holds up to the order, for flows that several threads work on.

Both are invariants of runs for one reason: a step adds events at the end, and what it changes
about `pending` is what these events carry (`Balanced.extend`, `Conserved.extend`).
-/

/-- Which items an event carries in, and which out. -/
structure ItemFlow (E B : Type*) where
  input : E → List B
  output : E → List B

namespace ItemFlow

variable {E B : Type*} {f : ItemFlow E B} {events new : List E} {pending pending' : List B}
  {loose loose' : Multiset B}

/-- What came in is what went out, followed by what is pending. -/
def Balanced (f : ItemFlow E B) (events : List E) (pending : List B) : Prop :=
  events.flatMap f.input = events.flatMap f.output ++ pending

/-- What came in is what went out and what is pending, in some order. -/
def Conserved (f : ItemFlow E B) (events : List E) (loose : Multiset B) : Prop :=
  (events.flatMap f.input : Multiset B) = events.flatMap f.output + loose

theorem Balanced.nil : f.Balanced [] [] := rfl

theorem Conserved.nil : f.Conserved [] 0 := rfl

/-- **The step of a flow**: the new events take from the front of what is pending, and add at
its end. -/
theorem Balanced.extend (h : f.Balanced events pending)
    (hnew : pending ++ new.flatMap f.input = new.flatMap f.output ++ pending') :
    f.Balanced (events ++ new) pending' := by
  rw [Balanced, List.flatMap_append, List.flatMap_append, List.append_assoc, ← hnew,
    ← List.append_assoc, ← h]

/-- Events that carry nothing leave a flow alone. -/
theorem Balanced.frame (h : f.Balanced events pending)
    (hin : new.flatMap f.input = []) (hout : new.flatMap f.output = []) :
    f.Balanced (events ++ new) pending :=
  h.extend (by rw [hin, hout, List.append_nil, List.nil_append])

theorem Conserved.extend (h : f.Conserved events loose)
    (hnew : loose + (new.flatMap f.input : Multiset B)
      = (new.flatMap f.output : Multiset B) + loose') :
    f.Conserved (events ++ new) loose' := by
  have h : (events.flatMap f.input : Multiset B) = events.flatMap f.output + loose := h
  rw [Conserved, List.flatMap_append, List.flatMap_append, ← Multiset.coe_add,
    ← Multiset.coe_add, h, add_assoc, hnew, add_assoc]

/-- **One of several holders** takes a step; the others hold what they held. -/
theorem Conserved.extend_part {part part' rest : Multiset B} (h : f.Conserved events loose)
    (hloose : loose = part + rest) (hloose' : loose' = part' + rest)
    (hnew : part + (new.flatMap f.input : Multiset B)
      = (new.flatMap f.output : Multiset B) + part') :
    f.Conserved (events ++ new) loose' := by
  refine h.extend ?_
  rw [hloose, hloose', add_right_comm, hnew, add_assoc]

/-- Whatever has gone out came in. -/
theorem Conserved.mem_input (h : f.Conserved events loose) {b : B}
    (hb : b ∈ events.flatMap f.output) : b ∈ events.flatMap f.input := by
  have hb : b ∈ (events.flatMap f.output : Multiset B) + loose :=
    Multiset.mem_add.mpr (.inl hb)
  rw [← h] at hb
  exact hb

end ItemFlow
