import Mathlib.Order.Nat

/-!
# LongestMatch — networks and longest-prefix matching

A network is an address with a prefix length; it covers the addresses that agree with it on
that many leading bits. Among the entries that match a destination, a router uses those of
the greatest length. `Longest len M` is that choice over any type of entries: `M` says which
entries match and `len` how long they are. Entries of the same length tie, and all of them
count.

Two facts carry the use of it. A change to a table that leaves the entries of length `n` and
more alone does not matter to a destination that one of these matches (`longest_congr`); and
once the greatest length is known, the longest entries are those of that length
(`longest_iff`).
-/

namespace LongestMatch

/-! ## Networks -/

section

variable {w : Nat} {net a : BitVec w} {len : Nat}

/-- The network `net` of prefix length `len` covers the address `a`. -/
def Covers (net : BitVec w) (len : Nat) (a : BitVec w) : Prop :=
  len ≤ w ∧ ∀ i < len, net.getMsbD i = a.getMsbD i

instance (net : BitVec w) (len : Nat) (a : BitVec w) : Decidable (Covers net len a) :=
  inferInstanceAs (Decidable (_ ∧ _))

theorem Covers.len_le (h : Covers net len a) : len ≤ w := h.1

@[simp] theorem covers_zero : Covers net 0 a := ⟨Nat.zero_le w, nofun⟩

/-- A network of prefix length 1 is the half of the address space with its leading bit. -/
theorem covers_one (hw : 0 < w) : Covers net 1 a ↔ net.msb = a.msb := by
  constructor
  · intro h
    exact h.2 0 Nat.one_pos
  · intro h
    refine ⟨hw, fun i hi => ?_⟩
    obtain rfl : i = 0 := by omega
    exact h

/-- A network of full prefix length is a single address. -/
theorem covers_width : Covers net w a ↔ net = a := by
  constructor
  · intro h
    exact BitVec.eq_of_getMsbD_eq fun i hi => h.2 i hi
  · rintro rfl
    exact ⟨Nat.le_refl w, fun _ _ => rfl⟩

end

/-! ## The longest match -/

section

variable {κ : Type*} (len : κ → Nat)

/-- `k` matches, and nothing that matches is longer. -/
structure Longest (M : κ → Prop) (k : κ) : Prop where
  mem : M k
  len_le : ∀ k', M k' → len k' ≤ len k

variable {len} {M M' : κ → Prop} {k k' : κ} {n : Nat}

/-- Of matching entries of bounded length some is longest. Induction on how far the length of
`k` is from the bound. -/
theorem exists_longest {bound : Nat} (hbound : ∀ k, M k → len k ≤ bound) (h : M k) :
    ∃ k', Longest len M k' := by
  induction hgap : bound - len k using Nat.strong_induction_on generalizing k with
  | _ gap ih =>
    by_cases hmax : ∀ k', M k' → len k' ≤ len k
    · exact ⟨k, h, hmax⟩
    · simp only [not_forall] at hmax
      obtain ⟨k', hk', hlonger⟩ := hmax
      have := hbound k' hk'
      exact ih (bound - len k') (by omega) hk' rfl

/-- When the greatest length is `n`, the longest entries are those of length `n`. -/
theorem longest_iff (hle : ∀ k, M k → len k ≤ n) (hex : ∃ k, M k ∧ len k = n) :
    Longest len M k ↔ M k ∧ len k = n := by
  obtain ⟨k₀, hk₀, hlen₀⟩ := hex
  constructor
  · intro h
    have := h.len_le k₀ hk₀
    have := hle k h.mem
    exact ⟨h.mem, by omega⟩
  · rintro ⟨hk, hlen⟩
    exact ⟨hk, fun k' hk' => hlen ▸ hle k' hk'⟩

/-- Two sets of entries that agree from length `n` on have the same longest entries, provided
there is an entry of that length. -/
theorem longest_congr (hagree : ∀ k, n ≤ len k → (M k ↔ M' k)) (hex : ∃ k, M k ∧ n ≤ len k) :
    Longest len M' k ↔ Longest len M k := by
  have transfer : ∀ {M M' : κ → Prop}, (∀ k, n ≤ len k → (M k ↔ M' k)) →
      (∃ k, M k ∧ n ≤ len k) → Longest len M k → Longest len M' k := by
    rintro M M' hagree ⟨k₀, hk₀, hlen₀⟩ h
    have hlen : n ≤ len k := Nat.le_trans hlen₀ (h.len_le k₀ hk₀)
    refine ⟨(hagree k hlen).mp h.mem, fun k' hk' => ?_⟩
    rcases Nat.lt_or_ge (len k') n with hshort | hlong
    · omega
    · exact h.len_le k' ((hagree k' hlong).mpr hk')
  obtain ⟨k₀, hk₀, hlen₀⟩ := hex
  constructor
  · exact transfer (fun k hk => (hagree k hk).symm) ⟨k₀, (hagree k₀ hlen₀).mp hk₀, hlen₀⟩
  · exact transfer hagree ⟨k₀, hk₀, hlen₀⟩

end

end LongestMatch
