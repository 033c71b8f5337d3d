import Mathlib.Data.List.Basic

/-!
# StreamMask — masking a list with a key stream

A stream cipher combines each element of a list with one key of a stream that is produced
from a state alone: the data never feeds back into the stream. `maskWith op next s xs` is
that loop. Because the stream does not see the data, masking twice from the same state
undoes itself as soon as `op` does (`maskWith_maskWith`), and the length is kept.

Nothing here depends on a particular cipher: `next` is any state machine and `op` any
binary operation.
-/

namespace StreamMask

variable {α κ σ : Type*}

/-- Combine the list with the keys that `next` produces from state `s`, one key per element. -/
def maskWith (op : α → κ → α) (next : σ → κ × σ) : σ → List α → List α
  | _, [] => []
  | s, a :: as => op a (next s).1 :: maskWith op next (next s).2 as

variable (op : α → κ → α) (next : σ → κ × σ)

@[simp] theorem maskWith_cons (s : σ) (a : α) (as : List α) :
    maskWith op next s (a :: as) = op a (next s).1 :: maskWith op next (next s).2 as := rfl

@[simp] theorem length_maskWith (s : σ) (xs : List α) :
    (maskWith op next s xs).length = xs.length := by
  induction xs generalizing s with
  | nil => rfl
  | cons a as ih => simp [ih]

/-- **Masking is an involution.** The second pass meets the same keys as the first, since the
stream is driven by the state only. Induction on the list, for every state. -/
theorem maskWith_maskWith (hop : ∀ a k, op (op a k) k = a) (s : σ) (xs : List α) :
    maskWith op next s (maskWith op next s xs) = xs := by
  induction xs generalizing s with
  | nil => rfl
  | cons a as ih => simp [hop, ih]

/-! ## The key stream itself -/

/-- The first `n` keys of the stream from state `s`. -/
def stream : σ → Nat → List κ
  | _, 0 => []
  | s, n + 1 => (next s).1 :: stream (next s).2 n

@[simp] theorem length_stream (s : σ) (n : Nat) : (stream next s n).length = n := by
  induction n generalizing s with
  | zero => rfl
  | succ n ih => simp [stream, ih]

/-- The state after `n` keys. -/
def stateAfter (s : σ) : Nat → σ
  | 0 => s
  | n + 1 => (next (stateAfter s n)).2

theorem stateAfter_next (s : σ) (n : Nat) :
    stateAfter next (next s).2 n = stateAfter next s (n + 1) := by
  induction n with
  | zero => rfl
  | succ n ih => rw [stateAfter, ih]; rfl

/-- Every key of the stream is made from the state after the keys before it. -/
theorem getElem?_stream (s : σ) {n i : Nat} (h : i < n) :
    (stream next s n)[i]? = some (next (stateAfter next s i)).1 := by
  induction n generalizing s i with
  | zero => omega
  | succ n ih =>
    cases i with
    | zero => rfl
    | succ i => rw [stream, List.getElem?_cons_succ, ih _ (by omega), stateAfter_next]

/-- Masking combines the list with the stream, position by position. -/
theorem maskWith_eq_zipWith (s : σ) (xs : List α) :
    maskWith op next s xs = List.zipWith op xs (stream next s xs.length) := by
  induction xs generalizing s with
  | nil => rfl
  | cons a as ih => simp [stream, ih]

end StreamMask
