import Mathlib.Data.List.Induction

/-!
# Ledger — what a history of insertions and removals leaves

A store of values under keys, seen from its history alone: an event puts a value under a key
or removes a key. A value is *recorded* when it was put and no later event ended it; a later
value for the key does, and so does a removal of a key that `same` takes for this one.

The history grows at its end, and `recorded_put` and `recorded_remove` say what one event
changes. At most one value is recorded under a key (`Recorded.unique`).
-/

namespace Ledger

variable {K V : Type*}

inductive Event (K V : Type*) where
  | put (key : K) (value : V)
  | remove (key : K)

variable (same : K → K → Prop)

/-- What is recorded under the key does not outlive the event. -/
def Event.Ends (key : K) : Event K V → Prop
  | .put k _ => k = key
  | .remove k => same key k

def Recorded (history : List (Event K V)) (key : K) (value : V) : Prop :=
  ∃ earlier later, history = earlier ++ .put key value :: later ∧ ∀ e ∈ later, ¬ e.Ends same key

variable {same} {history : List (Event K V)} {key key' : K} {value value' : V}

theorem not_recorded_nil : ¬ Recorded same ([] : List (Event K V)) key value := by
  rintro ⟨earlier, later, h, _⟩
  cases earlier <;> cases h

/-- One more event: it is the insertion, or it leaves the record alone. -/
theorem recorded_snoc {e : Event K V} : Recorded same (history ++ [e]) key value ↔
    e = .put key value ∨ ¬ e.Ends same key ∧ Recorded same history key value := by
  constructor
  · rintro ⟨earlier, later, h, hlater⟩
    rcases List.eq_nil_or_concat later with rfl | ⟨later, last, rfl⟩
    · -- the insertion is the last event
      obtain ⟨_, hlast⟩ := List.append_inj' h rfl
      exact .inl (List.cons.inj hlast).1
    · rw [List.concat_eq_append, ← List.cons_append, ← List.append_assoc] at h
      obtain ⟨hhistory, hlast⟩ := List.append_inj' h rfl
      obtain rfl := (List.cons.inj hlast).1
      refine .inr ⟨hlater _ (by simp), earlier, later, hhistory, fun e' he' => hlater _ ?_⟩
      simp [he']
  · rintro (rfl | ⟨hend, earlier, later, rfl, hlater⟩)
    · exact ⟨history, [], rfl, fun e he => absurd he List.not_mem_nil⟩
    · refine ⟨earlier, later ++ [e], by simp, fun e' he' => ?_⟩
      rcases List.mem_append.mp he' with he' | he'
      · exact hlater e' he'
      · rw [List.mem_singleton.mp he']
        exact hend

theorem recorded_put : Recorded same (history ++ [.put key' value']) key value ↔
    key' = key ∧ value' = value ∨ key' ≠ key ∧ Recorded same history key value := by
  rw [recorded_snoc, Event.put.injEq]
  rfl

theorem recorded_remove : Recorded same (history ++ [.remove key']) key value ↔
    ¬ same key key' ∧ Recorded same history key value := by
  rw [recorded_snoc]
  constructor
  · rintro (h | h)
    · cases h
    · exact h
  · exact .inr

/-- Values put under different keys may be put in either order. -/
theorem recorded_put_comm {a b : K} {v w : V} (hne : a ≠ b) :
    Recorded same (history ++ [.put a v] ++ [.put b w]) key value ↔
      Recorded same (history ++ [.put b w] ++ [.put a v]) key value := by
  rw [recorded_put, recorded_put, recorded_put, recorded_put]
  constructor
  · rintro (⟨rfl, hw⟩ | ⟨hb, ⟨rfl, hv⟩ | ⟨ha, hrest⟩⟩)
    · exact .inr ⟨hne, .inl ⟨rfl, hw⟩⟩
    · exact .inl ⟨rfl, hv⟩
    · exact .inr ⟨ha, .inr ⟨hb, hrest⟩⟩
  · rintro (⟨rfl, hv⟩ | ⟨ha, ⟨rfl, hw⟩ | ⟨hb, hrest⟩⟩)
    · exact .inr ⟨hne.symm, .inl ⟨rfl, hv⟩⟩
    · exact .inl ⟨rfl, hw⟩
    · exact .inr ⟨hb, .inr ⟨ha, hrest⟩⟩

theorem Recorded.mem (h : Recorded same history key value) : Event.put key value ∈ history := by
  obtain ⟨earlier, later, rfl, _⟩ := h
  exact List.mem_append_right _ List.mem_cons_self

theorem Recorded.unique (h : Recorded same history key value)
    (h' : Recorded same history key value') : value = value' := by
  induction history using List.reverseRecOn with
  | nil => exact absurd h not_recorded_nil
  | append_singleton history e ih =>
    -- the last event recorded the value, or both are from before it
    rcases recorded_snoc.mp h with rfl | ⟨hend, hrest⟩
    · rcases recorded_put.mp h' with ⟨_, heq⟩ | ⟨hne, _⟩
      · exact heq
      · exact absurd rfl hne
    · rcases recorded_snoc.mp h' with rfl | ⟨_, hrest'⟩
      · exact absurd rfl hend
      · exact ih hrest hrest'

end Ledger
