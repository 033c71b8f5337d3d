import Mathlib.Data.List.GetD
import PhobosClient.Lib.StreamMask

/-!
# Checked — operations that fail instead of going wrong

An index outside of a slice, an overflow of `usize`, a random draw from an empty range and a
cast that drops digits are all errors here, and a program written with these operations gets a
value only when none of them happens. There is one lemma for each operation, which says when it
does not fail, and one rule for each kind of loop.

`usize` has 32 or 64 bits (`USize`), and no slice is longer than `isize::MAX`.
-/

namespace Checked

open StreamMask

/-- What can go wrong in an operation. -/
inductive Failure
  | index
  | slice
  | overflow
  | emptyRange
  | lossyCast
  | capacity
  deriving DecidableEq, Repr

def usizeMax : Nat := USize.size - 1

def isizeMax : Nat := USize.size / 2 - 1

/-- The contents of a byte slice or a byte vector. -/
def Slice := { bytes : List UInt8 // bytes.length ≤ isizeMax }

theorem isizeMax_ge : 2147483647 ≤ isizeMax := by
  have := USize.size_eq
  unfold isizeMax
  omega

theorem usizeMax_eq : usizeMax = 2 * isizeMax + 1 := by
  have := USize.size_eq
  unfold usizeMax isizeMax
  omega

theorem le_usizeMax {n : Nat} (h : n ≤ isizeMax) : n ≤ usizeMax := by
  rw [usizeMax_eq]
  omega

theorem toNat_le_usizeMax (n : USize) : n.toNat ≤ usizeMax :=
  Nat.le_sub_one_of_lt n.toNat_lt_size

variable {α κ σ : Type}

/-! ## The operations -/

/-- `a + b` -/
def add (a b : Nat) : Except Failure Nat :=
  if a + b ≤ usizeMax then .ok (a + b) else .error .overflow

/-- `a - b` -/
def sub (a b : Nat) : Except Failure Nat :=
  if b ≤ a then .ok (a - b) else .error .overflow

/-- `xs[i]` -/
def index (xs : List α) (i : Nat) : Except Failure α :=
  if h : i < xs.length then .ok xs[i] else .error .index

/-- `xs[i] = a` -/
def store (xs : List α) (i : Nat) (a : α) : Except Failure (List α) :=
  if i < xs.length then .ok (xs.set i a) else .error .index

/-- `&xs[start..stop]` -/
def slice (xs : List α) (start stop : Nat) : Except Failure (List α) :=
  if start ≤ stop ∧ stop ≤ xs.length then .ok ((xs.drop start).take (stop - start))
  else .error .slice

/-- `n as u16` -/
def toU16 (n : Nat) : Except Failure Nat :=
  if n ≤ 65535 then .ok n else .error .lossyCast

/-- `gen_range(lo..hi)`, with what the generator hands out for a range that is not empty. -/
def genRange (lo hi : Nat) (draw : α) : Except Failure α :=
  if lo < hi then .ok draw else .error .emptyRange

/-- Room for `n` bytes in a vector. -/
def reserve (n : Nat) : Except Failure Unit :=
  if n ≤ isizeMax then .ok () else .error .capacity

/-- `xs.extend_from_slice(ys)` -/
def extend (xs ys : List α) : Except Failure (List α) := do
  reserve (← add xs.length ys.length)
  return xs ++ ys

/-- `xs.resize(n, a)` -/
def resize (xs : List α) (n : Nat) (a : α) : Except Failure (List α) := do
  reserve n
  return xs.take n ++ List.replicate (n - xs.length) a

/-! ## When they do not fail -/

@[simp] theorem ok_bind {β : Type} (a : α) (f : α → Except Failure β) :
    (Except.ok a >>= f) = f a := rfl

theorem add_eq {a b : Nat} (h : a + b ≤ usizeMax) : add a b = .ok (a + b) := if_pos h

theorem sub_eq {a b : Nat} (h : b ≤ a) : sub a b = .ok (a - b) := if_pos h

theorem index_eq {xs : List α} {i : Nat} (h : i < xs.length) (d : α) :
    index xs i = .ok (xs.getD i d) := by
  rw [index, dif_pos h, List.getD_eq_getElem _ _ h]

@[simp] theorem index_zero (a : α) (as : List α) : index (a :: as) 0 = .ok a := rfl

@[simp] theorem index_succ (a : α) (as : List α) (i : Nat) :
    index (a :: as) (i + 1) = index as i := by
  simp [index]

theorem store_eq {xs : List α} {i : Nat} (h : i < xs.length) (a : α) :
    store xs i a = .ok (xs.set i a) := if_pos h

theorem slice_eq {xs : List α} {start stop : Nat} (h : start ≤ stop) (hstop : stop ≤ xs.length) :
    slice xs start stop = .ok ((xs.drop start).take (stop - start)) := if_pos ⟨h, hstop⟩

/-- `&xs[..n]` -/
theorem slice_zero {xs : List α} {n : Nat} (h : n ≤ xs.length) : slice xs 0 n = .ok (xs.take n) :=
  slice_eq (Nat.zero_le n) h

theorem toU16_eq {n : Nat} (h : n ≤ 65535) : toU16 n = .ok n := if_pos h

theorem genRange_eq {lo hi : Nat} (h : lo < hi) (draw : α) : genRange lo hi draw = .ok draw :=
  if_pos h

theorem reserve_eq {n : Nat} (h : n ≤ isizeMax) : reserve n = .ok () := if_pos h

theorem extend_eq {xs ys : List α} (h : xs.length + ys.length ≤ isizeMax) :
    extend xs ys = .ok (xs ++ ys) := by
  rw [extend, add_eq (le_usizeMax h), ok_bind, reserve_eq h]
  rfl

/-- Resizing to a larger size appends. -/
theorem resize_eq {xs : List α} {n : Nat} (h : xs.length + n ≤ isizeMax) (a : α) :
    resize xs (xs.length + n) a = .ok (xs ++ List.replicate n a) := by
  rw [resize, reserve_eq h, List.take_of_length_le (Nat.le_add_right _ _), Nat.add_sub_cancel_left]
  rfl

/-! ## Loops -/

/-- `for i in 0..n { xs[i] = f(i) }` -/
def fillFront (n : Nat) (f : Nat → Except Failure α) (xs : List α) : Except Failure (List α) :=
  (List.range n).foldlM (fun xs i => do store xs i (← f i)) xs

/-- Filling the front of an array never fails when the array is long enough. Induction on the
number of turns: after `n` of them the first `n` elements are new. -/
theorem fillFront_eq {f : Nat → Except Failure α} {g : Nat → α} {xs : List α} {n : Nat}
    (hn : n ≤ xs.length) (hf : ∀ i < n, f i = .ok (g i)) :
    fillFront n f xs = .ok ((List.range n).map g ++ xs.drop n) := by
  induction n with
  | zero => rfl
  | succ n ih =>
    have hfilled : fillFront n f xs = .ok ((List.range n).map g ++ xs.drop n) :=
      ih (by omega) (fun i hi => hf i (by omega))
    have hdrop : xs.drop n = xs[n] :: xs.drop (n + 1) := List.drop_eq_getElem_cons (by omega)
    have hlt : n < ((List.range n).map g ++ xs.drop n).length := by
      simp only [List.length_append, List.length_map, List.length_range, List.length_drop]
      omega
    -- the turn writes the first element that is still old
    have hset : ((List.range n).map g ++ xs.drop n).set n (g n)
        = (List.range (n + 1)).map g ++ xs.drop (n + 1) := by
      rw [List.set_append_right _ _ (by simp), List.length_map, List.length_range, Nat.sub_self,
        hdrop, List.set_cons_zero, List.range_succ, List.map_append, List.append_assoc]
      rfl
    rw [fillFront] at hfilled
    rw [fillFront, List.range_succ, List.foldlM_append, hfilled, ok_bind, List.foldlM_cons,
      hf n (Nat.lt_succ_self n), ok_bind, store_eq hlt, ok_bind, hset, List.range_succ]
    rfl

/-- `for b in buffer.iter_mut()`, with the variables that the body carries along. -/
def forEach (body : σ → α → Except Failure (α × σ)) : σ → List α → Except Failure (List α)
  | _, [] => .ok []
  | s, a :: as => do
    let (a, s) ← body s a
    let as ← forEach body s as
    return a :: as

/-- A loop whose body never fails while the invariant holds, and keeps it. Induction on the
buffer, for every state. -/
theorem forEach_eq {body : σ → α → Except Failure (α × σ)} {op : α → κ → α} {next : σ → κ × σ}
    {inv : σ → Prop} (hbody : ∀ s a, inv s → body s a = .ok (op a (next s).1, (next s).2))
    (hinv : ∀ s, inv s → inv (next s).2) (s : σ) (hs : inv s) (buffer : List α) :
    forEach body s buffer = .ok (maskWith op next s buffer) := by
  induction buffer generalizing s with
  | nil => rfl
  | cons a as ih =>
    rw [forEach, hbody s a hs]
    dsimp only [ok_bind]
    rw [ih _ (hinv s hs)]
    rfl

end Checked
