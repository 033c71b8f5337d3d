import Mathlib.Data.List.Infix
import PhobosClient.Lib.Text

/-!
# Replace — what is found in a text after replacing

`Text.replace pat new` goes over a text once, from the left, and does not look at what it has
written. So a match of the pattern could be in the result all the same: in the new text, or across
one of its ends. `Settled c pat new` excludes both by comparing ends and beginnings of the three
words, and **`infix_of_infix_replace`** says that every match of `c` in the result was then in the
text before, at a place where `pat` did not match. For `c = pat` there are no such places
(`not_infix_replace`), so replacing a second time changes nothing (`replace_of_not_infix`).
-/

namespace Text

/-- No match of `c` begins in the new text, and one that runs into it could run into `pat`. -/
structure Settled (c pat new : Text) : Prop where
  fits : c.length ≤ new.length
  inside : ∀ w ∈ new.tails, w ≠ [] → ¬ w <+: c ∧ ¬ c <+: w
  across : ∀ v ∈ c.tails, v <+: new → v <+: pat

variable {c pat new s : Text}

theorem replace_cons {d : Char} (h : ¬ pat <+: d :: s) :
    replace pat new (d :: s) = d :: replace pat new s := by
  have hno : ¬ pat.isPrefixOf (d :: s) = true := fun hpre =>
    h (List.isPrefixOf_iff_prefix.mp hpre)
  rw [replace, replaceFrom, if_neg hno]
  rfl

/-- Along the matches that `replace` finds. -/
theorem replace_induction (hpat : pat ≠ []) {motive : Text → Prop} (nil : motive [])
    (found : ∀ r, motive r → motive (pat ++ r))
    (kept : ∀ d r, ¬ pat <+: d :: r → motive r → motive (d :: r)) (s : Text) : motive s := by
  induction hn : s.length using Nat.strong_induction_on generalizing s with
  | _ n ih =>
    by_cases hpre : pat <+: s
    · obtain ⟨r, rfl⟩ := hpre
      refine found r (ih r.length ?_ r rfl)
      have hpos := List.length_pos_of_ne_nil hpat
      rw [List.length_append] at hn
      omega
    · cases s with
      | nil => exact nil
      | cons d r =>
        refine kept d r hpre (ih r.length ?_ r rfl)
        rw [List.length_cons] at hn
        omega

/-- A text without a match is left alone. -/
theorem replace_of_not_infix (hpat : pat ≠ []) (h : ¬ pat <:+: s) : replace pat new s = s := by
  induction s using replace_induction hpat with
  | nil => rfl
  | found r ih => exact absurd (List.prefix_append pat r).isInfix h
  | kept d r hno ih =>
    rw [replace_cons hno, ih fun hr => h (hr.trans (List.suffix_cons d r).isInfix)]

/-- What the result begins with, the text begins with. -/
theorem Settled.prefix_of_replace (h : Settled c pat new) (hpat : pat ≠ []) (v : Text)
    (hv : v <:+ c) (hpre : v <+: replace pat new s) : v <+: s := by
  induction s using replace_induction hpat generalizing v with
  | nil => exact hpre
  | found r ih =>
    rw [replace_match hpat] at hpre
    -- the word ends inside of the new text
    have hle : v.length ≤ new.length := hv.length_le.trans h.fits
    have hnew : v <+: new :=
      List.prefix_of_prefix_length_le hpre (List.prefix_append new _) hle
    exact (h.across v ((List.mem_tails v c).mpr hv) hnew).trans (List.prefix_append pat r)
  | kept d r hno ih =>
    rw [replace_cons hno] at hpre
    cases v with
    | nil => exact List.nil_prefix
    | cons e v =>
      obtain ⟨rfl, htail⟩ := List.cons_prefix_cons.mp hpre
      exact List.cons_prefix_cons.mpr ⟨rfl, ih v ((List.suffix_cons e v).trans hv) htail⟩

/-- **A match in the result was in the text before**, where `pat` did not match. -/
theorem infix_of_infix_replace (h : Settled c pat new) (hpat : pat ≠ []) (hc : c ≠ [])
    (hin : c <:+: replace pat new s) : ∃ t, t <:+ s ∧ ¬ pat <+: t ∧ c <+: t := by
  induction s using replace_induction hpat with
  | nil => exact absurd (List.eq_nil_of_infix_nil hin) hc
  | found r ih =>
    rw [replace_match hpat] at hin
    rcases List.infix_append_iff_ne_nil.mp hin with hnew | hrest | ⟨c₁, c₂, hne, -, rfl, hc₁, -⟩
    · -- inside the new text
      obtain ⟨w, hpre, hw⟩ := List.infix_iff_prefix_suffix.mp hnew
      have hw_ne : w ≠ [] := by
        intro hnil
        rw [hnil] at hpre
        exact hc (List.eq_nil_of_prefix_nil hpre)
      exact absurd hpre (h.inside w ((List.mem_tails w new).mpr hw) hw_ne).2
    · obtain ⟨t, ht, hno, hpre⟩ := ih hrest
      exact ⟨t, ht.trans (List.suffix_append pat r), hno, hpre⟩
    · -- across its end
      exact absurd (List.prefix_append c₁ c₂)
        (h.inside c₁ ((List.mem_tails c₁ new).mpr hc₁) hne).1
  | kept d r hno ih =>
    rw [replace_cons hno] at hin
    rcases List.infix_cons_iff.mp hin with hpre | hrest
    · -- the word begins with the character that was kept
      rw [← replace_cons hno] at hpre
      exact ⟨d :: r, List.suffix_refl _, hno, h.prefix_of_replace hpat c (List.suffix_refl c) hpre⟩
    · obtain ⟨t, ht, hno', hpre⟩ := ih hrest
      exact ⟨t, ht.trans (List.suffix_cons d r), hno', hpre⟩

/-- **No match is left** of a pattern that is settled for itself. -/
theorem not_infix_replace (h : Settled pat pat new) (hpat : pat ≠ []) :
    ¬ pat <:+: replace pat new s := by
  intro hin
  obtain ⟨t, -, hno, hpre⟩ := infix_of_infix_replace h hpat hpat hin
  exact hno hpre

/-- A word that was not there before is not there afterwards. -/
theorem Settled.not_infix (h : Settled c pat new) (hpat : pat ≠ []) (hc : c ≠ [])
    (hno : ¬ c <:+: s) : ¬ c <:+: replace pat new s := by
  intro hin
  obtain ⟨t, ht, -, hpre⟩ := infix_of_infix_replace h hpat hc hin
  exact hno (List.infix_iff_prefix_suffix.mpr ⟨t, hpre, ht⟩)

end Text
