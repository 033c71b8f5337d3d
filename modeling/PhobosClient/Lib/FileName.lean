import PhobosClient.Lib.Text

/-!
# FileName — stems and extensions

`Path::file_stem` and `Path::extension` on the last component of a path, and the stripping of
a repeated word (`str::trim_start_matches`, `str::trim_end_matches`). A name is split at its last
dot, unless that dot is its first character; putting an extension on a stem and taking the stem
again gives it back (`fileStem_append`).
-/

namespace FileName

/-- The parts before and behind the last dot. -/
def splitLastDot : Text → Option (Text × Text)
  | [] => none
  | c :: cs =>
    match splitLastDot cs with
    | some (before, after) => some (c :: before, after)
    | none => if c = '.' then some ([], cs) else none

/-- `Path::file_stem`. -/
def fileStem (name : Text) : Text :=
  if name = "..".toList then name
  else match splitLastDot name with
    | some (c :: before, _) => c :: before
    | _ => name

/-- `Path::extension`. -/
def extension (name : Text) : Option Text :=
  if name = "..".toList then none
  else match splitLastDot name with
    | some (_ :: _, after) => some after
    | _ => none

/-- At most `n` times, the word is taken off the front. -/
def stripPrefixes (word : Text) : Nat → Text → Text
  | 0, s => s
  | n + 1, s => if word.isPrefixOf s then stripPrefixes word n (s.drop word.length) else s

/-- `str::trim_start_matches` with a non-empty word. -/
def trimStartMatches (word s : Text) : Text := stripPrefixes word s.length s

/-- `str::trim_end_matches` with a non-empty word. -/
def trimEndMatches (word s : Text) : Text := (trimStartMatches word.reverse s.reverse).reverse

example : trimEndMatches ".tar".toList "a.tar.tar".toList = "a".toList := by decide

variable {s ext before after : Text}

theorem splitLastDot_eq_none : splitLastDot s = none ↔ '.' ∉ s := by
  induction s with
  | nil => simp [splitLastDot]
  | cons c cs ih =>
    unfold splitLastDot
    cases hcs : splitLastDot cs with
    | some parts =>
      have hmem : ¬ '.' ∉ cs := fun h => by rw [ih.mpr h] at hcs; cases hcs
      simp [Decidable.not_not.mp hmem]
    | none =>
      have hmem := ih.mp hcs
      simp [hmem, eq_comm]

theorem splitLastDot_append (hext : '.' ∉ ext) :
    splitLastDot (s ++ '.' :: ext) = some (s, ext) := by
  induction s with
  | nil => rw [List.nil_append, splitLastDot, splitLastDot_eq_none.mpr hext, if_pos rfl]
  | cons c cs ih => rw [List.cons_append, splitLastDot, ih]

theorem eq_of_splitLastDot (h : splitLastDot s = some (before, after)) :
    s = before ++ '.' :: after ∧ '.' ∉ after := by
  induction s generalizing before with
  | nil => cases h
  | cons c cs ih =>
    unfold splitLastDot at h
    cases hcs : splitLastDot cs with
    | some parts =>
      rw [hcs] at h
      cases h
      obtain ⟨rfl, hafter⟩ := ih hcs
      exact ⟨rfl, hafter⟩
    | none =>
      rw [hcs] at h
      simp only [Option.ite_none_right_eq_some] at h
      obtain ⟨rfl, heq⟩ := h
      cases heq
      exact ⟨rfl, splitLastDot_eq_none.mp hcs⟩

theorem append_ne_dotdot (hs : s ≠ []) (hne : ext ≠ []) : s ++ '.' :: ext ≠ "..".toList := by
  intro heq
  have hlen : (s ++ '.' :: ext).length = 2 := by rw [heq]; rfl
  -- a stem, a dot and an extension are three characters at least
  have hstem := List.length_pos_iff.mpr hs
  have hlast := List.length_pos_iff.mpr hne
  rw [List.length_append, List.length_cons] at hlen
  omega

/-- The stem of a stem with an extension. -/
theorem fileStem_append (hs : s ≠ []) (hne : ext ≠ []) (hext : '.' ∉ ext) :
    fileStem (s ++ '.' :: ext) = s := by
  unfold fileStem
  rw [if_neg (append_ne_dotdot hs hne), splitLastDot_append hext]
  cases s with
  | nil => exact absurd rfl hs
  | cons c cs => rfl

theorem extension_append (hs : s ≠ []) (hne : ext ≠ []) (hext : '.' ∉ ext) :
    extension (s ++ '.' :: ext) = some ext := by
  unfold extension
  rw [if_neg (append_ne_dotdot hs hne), splitLastDot_append hext]
  cases s with
  | nil => exact absurd rfl hs
  | cons c cs => rfl

/-- A stem is the name, or what stands before its last dot. -/
theorem fileStem_cases (name : Text) : fileStem name = name ∨
    fileStem name ≠ [] ∧ ∃ after, name = fileStem name ++ '.' :: after ∧ '.' ∉ after := by
  unfold fileStem
  split
  · exact .inl rfl
  · split
    · next c before after hsplit =>
      obtain ⟨heq, hafter⟩ := eq_of_splitLastDot hsplit
      exact .inr ⟨List.cons_ne_nil _ _, after, heq, hafter⟩
    · exact .inl rfl

end FileName
