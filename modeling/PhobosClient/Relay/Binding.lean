import Mathlib.Data.List.Induction
import PhobosClient.Relay.Model

/-!
# PhobosClient — who the relay is bound to

The binding in closed form: among the datagrams the client loop has processed, the *claims*
are the first valid one and every handshake initiation, and the relay is bound to the sender
of the last claim (`boundAfter_eq_some_iff`). A datagram is let through when its sender is
the bound client once it has been processed (`rebind_accepts_iff`).

`relay_client_inv` connects this to the running relay: in every interleaving of the two
loops the lock holds exactly `boundAfter` of the datagrams processed so far. The server loop
only ever delivers to an address it has read there (`relay_server_inv`).
-/

namespace Phobos

open Steps

variable {Addr : Type*}

/-- An initiation is a valid packet. -/
theorem isValid_of_isHandshake {d : Datagram Addr} (h : isHandshake d = true) :
    isValid d = true := by
  rw [isHandshake, beq_iff_eq] at h
  rw [isValid, h]
  rfl

/-! ## The binding as a fold over the datagrams -/

variable [DecidableEq Addr]

/-- The binding after one datagram has been processed. -/
def bindStep (clientAddr : Option Addr) (d : Datagram Addr) : Option Addr :=
  if isValid d then (rebind clientAddr d).1 else clientAddr

/-- The binding after the datagrams `ds`, starting with no bound client. -/
def boundAfter (ds : List (Datagram Addr)) : Option Addr := ds.foldl bindStep none

/-- The datagram at index `i` claims the relay: it is a handshake initiation, or the first
valid datagram of all. -/
def Claims (ds : List (Datagram Addr)) (i : Nat) : Prop :=
  ∃ d, ds[i]? = some d ∧ (isHandshake d = true
    ∨ isValid d = true ∧ ∀ j, j < i → ∀ e, ds[j]? = some e → isValid e = false)

/-- Nobody is bound at first. -/
@[simp] theorem boundAfter_nil : boundAfter ([] : List (Datagram Addr)) = none := rfl

/-- The last datagram is the last to bind. -/
@[simp] theorem boundAfter_concat (ds : List (Datagram Addr)) (d : Datagram Addr) :
    boundAfter (ds ++ [d]) = bindStep (boundAfter ds) d := by
  simp [boundAfter]

/-- Nobody is bound exactly as long as nothing valid has arrived. -/
theorem boundAfter_eq_none_iff (ds : List (Datagram Addr)) :
    boundAfter ds = none ↔ ∀ d ∈ ds, isValid d = false := by
  induction ds using List.reverseRecOn with
  | nil => simp
  | append_singleton ds d ih =>
    rw [boundAfter_concat, bindStep]
    cases hv : isValid d with
    | false => simp [ih, or_imp, forall_and, hv]
    | true =>
      constructor
      · -- a valid datagram always leaves somebody bound
        intro h
        simp only [if_true, rebind] at h
        split at h
        · cases h
        · split at h
          · split at h <;> cases h
          · cases h
      · intro h
        have := h d (by simp)
        rw [hv] at this
        cases this

/-- The claims of a longer sequence: those of the shorter one, and the new datagram when it
is a handshake or the first valid one. -/
theorem claims_concat_iff (ds : List (Datagram Addr)) (d : Datagram Addr) (i : Nat) :
    Claims (ds ++ [d]) i ↔ Claims ds i ∨ i = ds.length
      ∧ (isHandshake d = true ∨ isValid d = true ∧ boundAfter ds = none) := by
  have hold : ∀ j, j < ds.length → (ds ++ [d])[j]? = ds[j]? := fun j hj =>
    List.getElem?_append_left hj
  have hnew : (ds ++ [d])[ds.length]? = some d := by simp
  rcases Nat.lt_trichotomy i ds.length with hi | rfl | hi
  · have hbefore : (∀ j, j < i → ∀ e, (ds ++ [d])[j]? = some e → isValid e = false)
        ↔ ∀ j, j < i → ∀ e, ds[j]? = some e → isValid e = false := by
      constructor <;> intro h j hj e he <;> refine h j hj e ?_
      · rw [hold j (by omega), he]
      · rwa [hold j (by omega)] at he
    simp only [Claims, hold i hi, hbefore]
    constructor
    · exact Or.inl
    · rintro (h | ⟨h, -⟩)
      · exact h
      · omega
  · rw [boundAfter_eq_none_iff]
    have hbefore : (∀ j, j < ds.length → ∀ e, (ds ++ [d])[j]? = some e → isValid e = false)
        ↔ ∀ e ∈ ds, isValid e = false := by
      constructor
      · intro h e he
        obtain ⟨j, hj, hget⟩ := List.getElem_of_mem he
        refine h j hj e ?_
        rw [hold j hj, List.getElem?_eq_getElem hj, hget]
      · intro h j hj e he
        rw [hold j hj] at he
        exact h e (List.mem_of_getElem? he)
    constructor
    · rintro ⟨e, he, hclaim⟩
      rw [hnew] at he
      cases he
      -- at the new index the claim is that of the new datagram
      refine Or.inr ⟨rfl, ?_⟩
      rwa [hbefore] at hclaim
    · rintro (⟨e, he, -⟩ | ⟨-, hclaim⟩)
      · simp at he
      · refine ⟨d, hnew, ?_⟩
        rwa [hbefore]
  · constructor
    · rintro ⟨e, he, -⟩
      rw [List.getElem?_eq_none (by simp; omega)] at he
      cases he
    · rintro (⟨e, he, -⟩ | ⟨h, -⟩)
      · rw [List.getElem?_eq_none (by omega)] at he
        cases he
      · omega

/-- What one valid datagram does to the binding: a claim takes it over, any other leaves it. -/
theorem bindStep_eq (clientAddr : Option Addr) (d : Datagram Addr) :
    bindStep clientAddr d =
      if isHandshake d = true ∨ isValid d = true ∧ clientAddr = none then some d.src
      else clientAddr := by
  cases hv : isValid d with
  | false =>
    have hh : isHandshake d = false := by
      rw [Bool.eq_false_iff]
      intro h
      rw [isValid_of_isHandshake h] at hv
      cases hv
    simp [bindStep, hv, hh]
  | true =>
    cases clientAddr with
    | none => simp [bindStep, hv, rebind]
    | some current =>
      simp only [bindStep, hv, rebind, if_true]
      by_cases hsrc : current = d.src
      · simp [hsrc]
      · cases hh : isHandshake d <;> simp [hsrc]

/-- **The binding in closed form.** The bound client is the sender of the last claim. -/
theorem boundAfter_eq_some_iff (ds : List (Datagram Addr)) (a : Addr) :
    boundAfter ds = some a ↔ ∃ i d, ds[i]? = some d ∧ d.src = a ∧ Claims ds i
      ∧ ∀ j, i < j → ¬ Claims ds j := by
  induction ds using List.reverseRecOn with
  | nil => simp
  | append_singleton ds d ih =>
    rw [boundAfter_concat, bindStep_eq]
    simp only [claims_concat_iff]
    -- a claim is made by a datagram that is there
    have hbound : ∀ {i}, Claims ds i → i < ds.length := by
      rintro i ⟨e, he, -⟩
      by_contra hge
      rw [List.getElem?_eq_none (by omega)] at he
      cases he
    split
    · -- the new datagram claims the relay, and no index lies behind it
      rename_i hclaim
      constructor
      · intro h
        cases h
        refine ⟨ds.length, d, by simp, rfl, Or.inr ⟨rfl, hclaim⟩, ?_⟩
        rintro j hj (h | ⟨rfl, -⟩)
        · have := hbound h
          omega
        · omega
      · rintro ⟨i, e, he, hsrc, hi, hlast⟩
        have hlen : i = ds.length := by
          by_contra hne
          refine hlast ds.length ?_ (Or.inr ⟨rfl, hclaim⟩)
          rcases hi with h | ⟨h, -⟩
          · exact hbound h
          · exact absurd h hne
        subst hlen
        have : d = e := by simpa using he
        rw [this, hsrc]
    · rename_i hno
      rw [ih]
      simp only [hno, and_false, or_false]
      constructor
      · rintro ⟨i, e, he, hsrc, hi, hlast⟩
        refine ⟨i, e, ?_, hsrc, hi, hlast⟩
        rw [List.getElem?_append_left (hbound hi), he]
      · rintro ⟨i, e, he, hsrc, hi, hlast⟩
        refine ⟨i, e, ?_, hsrc, hi, hlast⟩
        rwa [List.getElem?_append_left (hbound hi)] at he

/-- The critical section lets a datagram through exactly when its sender is the bound
client afterwards. -/
theorem rebind_accepts_iff (clientAddr : Option Addr) (d : Datagram Addr) :
    (rebind clientAddr d).2 = true ↔ (rebind clientAddr d).1 = some d.src := by
  cases clientAddr with
  | none => simp [rebind]
  | some current =>
    by_cases hsrc : current = d.src
    · simp [rebind, hsrc]
    · -- a foreign datagram passes if it is a handshake, and is dropped otherwise
      cases hh : isHandshake d <;> simp [rebind, hsrc, hh]

/-- The binding passes from one client to another only on a handshake initiation of the
new one. -/
theorem handshake_of_bindStep_ne {a b : Addr} {d : Datagram Addr}
    (h : bindStep (some a) d = some b) (hne : a ≠ b) : isHandshake d = true ∧ d.src = b := by
  rw [bindStep_eq] at h
  split at h
  · rename_i hclaim
    -- somebody was bound, so it is no first datagram
    rcases hclaim with hh | ⟨-, hnone⟩
    · exact ⟨hh, Option.some.inj h⟩
    · cases hnone
  · exact absurd (Option.some.inj h) hne

end Phobos
