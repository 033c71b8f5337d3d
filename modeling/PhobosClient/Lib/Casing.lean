import PhobosClient.Lib.Text

/-!
# Casing — full case mappings

`str::to_lowercase` and `str::to_uppercase` read the Unicode tables. `CaseData` is a version
of these tables, with the facts about them that every version has: ASCII letters map to ASCII
letters, and the Kelvin sign and the dotted capital I are the only other characters whose
lower case has ASCII in it.

**`prefix_lower`** turns a test on the lower case of a text into a fact about the text: when
it starts with a plain word, the text itself starts with that word up to ASCII case.
-/

theorem Char.toNat_lt_of_isAlpha {c : Char} (hc : c.isAlpha = true) : c.toNat < 128 := by
  rcases Bool.or_eq_true_iff.mp hc with hupper | hlower
  · have hle := UInt32.le_iff_toNat_le.mp (of_decide_eq_true hupper).2
    exact Nat.lt_of_le_of_lt hle (by decide)
  · have hle := UInt32.le_iff_toNat_le.mp (of_decide_eq_true (Bool.and_eq_true_iff.mp hlower).2)
    exact Nat.lt_of_le_of_lt hle (by decide)

theorem Char.ascii_of_all {s : Text} (h : s.all (fun c => c.toNat < 128) = true) :
    ∀ c ∈ s, c.toNat < 128 :=
  fun c hc => of_decide_eq_true (List.all_eq_true.mp h c hc)

/-- A statement about the ASCII characters is one about 128 numbers. -/
theorem Char.forall_ascii {P : Char → Prop} (h : ∀ n : Fin 128, P (Char.ofNat n)) {c : Char}
    (hc : c.toNat < 128) : P c := by
  have hofNat := h ⟨c.toNat, hc⟩
  rwa [Char.ofNat_toNat] at hofNat

/-- An ASCII character whose lower case is a letter is a letter. -/
theorem Char.isAlpha_of_toLower {c : Char} (hc : c.toNat < 128) :
    c.toLower.isLower = true → c.isAlpha = true :=
  Char.forall_ascii (P := fun c => c.toLower.isLower = true → c.isAlpha = true) (by decide) hc

theorem Char.not_isWhitespace_of_isAlpha {c : Char} (hc : c.isAlpha = true) :
    Text.isWhitespace c = false :=
  Char.forall_ascii (P := fun c => c.isAlpha = true → Text.isWhitespace c = false) (by decide)
    (Char.toNat_lt_of_isAlpha hc) hc

structure CaseData where
  lower : Char → Text
  upper : Char → Text
  cased : Char → Bool
  caseIgnorable : Char → Bool
  lower_ascii : ∀ c, c.toNat < 128 → lower c = [c.toLower]
  lower_kelvin : lower '\u212A' = ['k']
  lower_dottedI : lower '\u0130' = ['i', '\u0307']
  lower_other : ∀ c, 128 ≤ c.toNat → c ≠ '\u212A' → c ≠ '\u0130' →
    lower c ≠ [] ∧ ∀ d ∈ lower c, 128 ≤ d.toNat
  upper_ascii : ∀ c, c.toNat < 128 → upper c = [c.toUpper]

namespace CaseData

variable (u : CaseData)

/-- The first character that is not case-ignorable is a cased one. -/
def ignorableThenCased (s : Text) : Bool :=
  match s.dropWhile u.caseIgnorable with
  | c :: _ => u.cased c
  | [] => false

/-- The lower case of a capital sigma between `before`, reversed, and `after`. -/
def lowerSigma (before after : Text) : Char :=
  if u.ignorableThenCased before && !u.ignorableThenCased after then '\u03C2' else '\u03C3'

def lowerFrom (before : Text) : Text → Text
  | [] => []
  | c :: cs =>
    (if c = '\u03A3' then [u.lowerSigma before cs] else u.lower c) ++ lowerFrom (c :: before) cs

/-- `str::to_lowercase`. -/
def toLowercase (s : Text) : Text := u.lowerFrom [] s

/-- `str::to_uppercase`. -/
def toUppercase (s : Text) : Text := s.flatMap u.upper

/-- Tables that know ASCII and the two characters above only. -/
def basic : CaseData where
  lower c :=
    if c = '\u212A' then ['k'] else if c = '\u0130' then ['i', '\u0307'] else [c.toLower]
  upper c := [c.toUpper]
  cased c := c.isAlpha
  caseIgnorable c := c = '.' || c = ':' || c = '\''
  lower_ascii := by
    intro c hc
    rw [if_neg (by rintro rfl; exact absurd hc (by decide)),
      if_neg (by rintro rfl; exact absurd hc (by decide))]
  lower_kelvin := rfl
  lower_dottedI := rfl
  lower_other := by
    intro c hc hk hi
    rw [if_neg hk, if_neg hi]
    refine ⟨List.cons_ne_nil _ _, fun d hd => ?_⟩
    have hupper : ¬ (c.val ≥ 'A'.val ∧ c.val ≤ 'Z'.val) := fun h => by
      have halpha : c.isAlpha = true := Bool.or_eq_true_iff.mpr (.inl (decide_eq_true h))
      exact absurd (Char.toNat_lt_of_isAlpha halpha) (by omega)
    have hsame : c.toLower = c := dif_neg hupper
    rw [List.mem_singleton.mp hd, hsame]
    exact hc
  upper_ascii := fun _ _ => rfl

/-! ## ASCII words -/

variable {u}

/-- A word whose occurrence in a lower case can be traced back: lower case letters, no `k`,
and no `i` at the end. -/
def plain : Text → Bool
  | [] => true
  | c :: cs => c.isLower && c != 'k' && !(c == 'i' && cs.isEmpty) && plain cs

theorem lowerFrom_ascii {q : Text} (hq : ∀ c ∈ q, c.toNat < 128) (before r : Text) :
    u.lowerFrom before (q ++ r) = q.map Char.toLower ++ u.lowerFrom (q.reverse ++ before) r := by
  induction q generalizing before with
  | nil => rfl
  | cons c cs ih =>
    have hc : c.toNat < 128 := hq c List.mem_cons_self
    have hsigma : c ≠ '\u03A3' := by
      rintro rfl
      exact absurd hc (by decide)
    rw [List.cons_append, lowerFrom, if_neg hsigma, u.lower_ascii c hc,
      ih (fun d hd => hq d (List.mem_cons_of_mem _ hd))]
    simp

/-- Every ASCII character is found again in the lower case. -/
theorem mem_lowerFrom {c : Char} (hc : c.toNat < 128) {s before : Text} (h : c ∈ s) :
    c.toLower ∈ u.lowerFrom before s := by
  induction s generalizing before with
  | nil => cases h
  | cons d ds ih =>
    rw [lowerFrom]
    rcases List.mem_cons.mp h with rfl | h
    · have hsigma : c ≠ '\u03A3' := by
        rintro rfl
        exact absurd hc (by decide)
      rw [if_neg hsigma, u.lower_ascii c hc]
      exact List.mem_append_left _ (List.mem_singleton_self _)
    · exact List.mem_append_right _ (ih h)

theorem lowerSigma_ge (before after : Text) : 128 ≤ (u.lowerSigma before after).toNat := by
  unfold lowerSigma
  split <;> decide

/-- No lower case has a dot in it but that of a dot. -/
theorem dot_mem_lower {c : Char} (h : '.' ∈ u.lower c) : c = '.' := by
  by_cases hascii : c.toNat < 128
  · rw [u.lower_ascii c hascii, List.mem_singleton] at h
    exact Char.forall_ascii (P := fun c => '.' = c.toLower → c = '.') (by decide) hascii h
  · by_cases hkelvin : c = '\u212A'
    · rw [hkelvin, u.lower_kelvin] at h
      exact absurd h (by decide)
    · by_cases hdotted : c = '\u0130'
      · rw [hdotted, u.lower_dottedI] at h
        exact absurd h (by decide)
      · -- the other lower cases have no ASCII in them
        have hge := (u.lower_other c (by omega) hkelvin hdotted).2 '.' h
        exact absurd hge (by decide)

theorem dot_mem_lowerFrom {s before : Text} (h : '.' ∈ u.lowerFrom before s) : '.' ∈ s := by
  induction s generalizing before with
  | nil => cases h
  | cons c cs ih =>
    rw [lowerFrom] at h
    rcases List.mem_append.mp h with h | h
    · split at h
      · have hge := lowerSigma_ge (u := u) before cs
        rw [← List.mem_singleton.mp h] at hge
        exact absurd hge (by decide)
      · exact List.mem_cons.mpr (.inl (dot_mem_lower h).symm)
    · exact List.mem_cons_of_mem _ (ih h)

theorem isLower_ne {d : Char} (hd : d.isLower = true) {e : Char} (he : 128 ≤ e.toNat) : e ≠ d := by
  rintro rfl
  have halpha : e.isAlpha = true := Bool.or_eq_true_iff.mpr (.inr hd)
  exact absurd (Char.toNat_lt_of_isAlpha halpha) (by omega)

/-- **Reading back a lower case.** Induction on the word: each of its letters must come from
an ASCII character, since the two characters that mix ASCII into their lower case produce a
`k`, or an `i` with a combining dot behind it. -/
theorem prefix_lower {p : Text} (hp : plain p = true) (before s : Text)
    (hpre : p <+: u.lowerFrom before s) :
    ∃ q r, s = q ++ r ∧ q.map Char.toLower = p ∧ ∀ c ∈ q, c.isAlpha = true := by
  induction p generalizing before s with
  | nil => exact ⟨[], s, rfl, rfl, fun c hc => absurd hc List.not_mem_nil⟩
  | cons d ds ih =>
    simp only [plain, Bool.and_eq_true, Bool.not_eq_true'] at hp
    obtain ⟨⟨⟨hlower, hk⟩, hi⟩, hds⟩ := hp
    cases s with
    | nil => exact absurd (List.prefix_nil.mp hpre) (List.cons_ne_nil _ _)
    | cons c cs =>
      rw [lowerFrom] at hpre
      by_cases hsigma : c = '\u03A3'
      · rw [if_pos hsigma] at hpre
        have heq := (List.cons_prefix_cons.mp hpre).1
        exact absurd heq.symm (isLower_ne hlower (lowerSigma_ge before cs))
      · rw [if_neg hsigma] at hpre
        by_cases hascii : c.toNat < 128
        · rw [u.lower_ascii c hascii] at hpre
          obtain ⟨rfl, hrest⟩ := List.cons_prefix_cons.mp hpre
          obtain ⟨q, r, rfl, rfl, hq⟩ := ih hds _ _ hrest
          refine ⟨c :: q, r, rfl, rfl, fun e he => ?_⟩
          rcases List.mem_cons.mp he with rfl | he
          · exact Char.isAlpha_of_toLower hascii hlower
          · exact hq e he
        · by_cases hkelvin : c = '\u212A'
          · rw [hkelvin, u.lower_kelvin] at hpre
            -- the Kelvin sign: the word has no `k`
            rw [(List.cons_prefix_cons.mp hpre).1] at hk
            cases hk
          · by_cases hdotted : c = '\u0130'
            · rw [hdotted, u.lower_dottedI] at hpre
              obtain ⟨rfl, hrest⟩ := List.cons_prefix_cons.mp hpre
              -- the dotted capital: its `i` would end the word, or a combining dot follow it
              cases ds with
              | nil => cases hi
              | cons e es =>
                simp only [plain, Bool.and_eq_true] at hds
                have heq := (List.cons_prefix_cons.mp hrest).1
                exact absurd heq.symm (isLower_ne hds.1.1.1 (by decide))
            · obtain ⟨hne, hall⟩ := u.lower_other c (by omega) hkelvin hdotted
              cases hlow : u.lower c with
              | nil => exact absurd hlow hne
              | cons e es =>
                rw [hlow] at hpre hall
                have heq := (List.cons_prefix_cons.mp hpre).1
                exact absurd heq.symm (isLower_ne hlower (hall e List.mem_cons_self))

end CaseData
