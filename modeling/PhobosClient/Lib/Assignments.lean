import Mathlib.Data.Finmap
import Mathlib.Data.List.Induction

/-!
# Assignments — keys that are set again and again

A configuration sets a key by a line `key = value`, and may do so more than once. `valuesOf`
collects what a key is set to, first to last; the value that counts is the last one. Inserting
the pairs into a map in their order ends with exactly these values (`lookup_assignAll`).
-/

namespace Assignments

variable {K V : Type*} [DecidableEq K]

/-- The values a key is set to, first to last. -/
def valuesOf (key : K) (pairs : List (K × V)) : List V :=
  pairs.filterMap fun kv => if kv.1 = key then some kv.2 else none

/-- The value that counts. -/
def lastValue (key : K) (pairs : List (K × V)) : Option V := (valuesOf key pairs).getLast?

theorem valuesOf_append (key : K) (pairs pairs' : List (K × V)) :
    valuesOf key (pairs ++ pairs') = valuesOf key pairs ++ valuesOf key pairs' :=
  List.filterMap_append

theorem valuesOf_concat_self (key : K) (pairs : List (K × V)) (v : V) :
    valuesOf key (pairs ++ [(key, v)]) = valuesOf key pairs ++ [v] := by
  simp [valuesOf]

theorem valuesOf_concat_ne {key k : K} (h : k ≠ key) (pairs : List (K × V)) (v : V) :
    valuesOf key (pairs ++ [(k, v)]) = valuesOf key pairs := by
  simp [valuesOf, h]

theorem mem_valuesOf {key : K} {pairs : List (K × V)} {v : V} :
    v ∈ valuesOf key pairs ↔ (key, v) ∈ pairs := by
  simp [valuesOf]

/-- The last value that a list gives: the first element gives it when no other does. -/
theorem getLast?_filterMap_cons {α β : Type*} (f : α → Option β) (x : α) (xs : List α) :
    ((x :: xs).filterMap f).getLast? = ((xs.filterMap f).getLast?).or (f x) := by
  cases hx : f x with
  | none => rw [List.filterMap_cons_none hx, Option.or_none]
  | some y =>
    rw [List.filterMap_cons_some hx, List.getLast?_cons]
    cases (xs.filterMap f).getLast? <;> rfl

/-! ## Maps -/

/-- Insert the pairs one after the other. -/
def insertAll (map : Finmap fun _ : K => V) (pairs : List (K × V)) : Finmap fun _ : K => V :=
  pairs.foldl (fun map kv => map.insert kv.1 kv.2) map

def assignAll (pairs : List (K × V)) : Finmap fun _ : K => V := insertAll ∅ pairs

theorem assignAll_concat (pairs : List (K × V)) (kv : K × V) :
    assignAll (pairs ++ [kv]) = (assignAll pairs).insert kv.1 kv.2 := by
  simp [assignAll, insertAll]

/-- **The last value wins.** Induction from the end, where the map has just been written to. -/
theorem lookup_assignAll (key : K) (pairs : List (K × V)) :
    (assignAll pairs).lookup key = lastValue key pairs := by
  induction pairs using List.reverseRecOn with
  | nil => rfl
  | append_singleton pairs kv ih =>
    rw [assignAll_concat, lastValue]
    by_cases hkey : kv.1 = key
    · subst hkey
      rw [Finmap.lookup_insert, valuesOf_concat_self, List.getLast?_concat]
    · rw [Finmap.lookup_insert_of_ne _ (Ne.symm hkey), valuesOf_concat_ne hkey, ih, lastValue]

theorem lookup_assignAll_isSome {key : K} {v : V} {pairs : List (K × V)} (h : (key, v) ∈ pairs) :
    ((assignAll pairs).lookup key).isSome = true := by
  have hne : valuesOf key pairs ≠ [] := List.ne_nil_of_mem (mem_valuesOf.mpr h)
  rw [lookup_assignAll, lastValue, List.getLast?_eq_getLast_of_ne_nil hne]
  rfl

/-- Only without pairs is the map empty. -/
theorem assignAll_eq_empty_iff (pairs : List (K × V)) : assignAll pairs = ∅ ↔ pairs = [] := by
  constructor
  · intro hempty
    cases pairs with
    | nil => rfl
    | cons kv rest =>
      have hsome := lookup_assignAll_isSome (List.mem_cons_self : (kv.1, kv.2) ∈ kv :: rest)
      rw [hempty] at hsome
      exact absurd hsome (by simp)
  · rintro rfl
    rfl

end Assignments
