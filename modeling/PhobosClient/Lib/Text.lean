import Mathlib.Algebra.Group.Nat.Defs
import Mathlib.Data.List.DropRight

/-!
# Text — strings as lists of characters

The string operations that line-oriented formats are read and written with, as Rust's
standard library documents them: `lines`, `trim`, `split_once`, `replace`,
`eq_ignore_ascii_case` and the parsing of unsigned numbers.

Two facts carry most proofs about such formats. What stands before a word survives trimming,
splitting and replacing (`trim_word`, `splitOnce_append`, `replace_append`). And joining
lines and splitting them again gives back the same lines, up to trimming and blank lines:
**`content_lines_join`**, where `content` is what a reader sees that trims every line and
skips the blank ones.
-/

abbrev Text := List Char

namespace Text

/-- `char::is_whitespace`: the Unicode property `White_Space`. -/
def isWhitespace (c : Char) : Bool :=
  let n := c.toNat
  (0x09 ≤ n && n ≤ 0x0D) || n == 0x20 || n == 0x85 || n == 0xA0 || n == 0x1680 ||
    (0x2000 ≤ n && n ≤ 0x200A) || n == 0x2028 || n == 0x2029 || n == 0x202F || n == 0x205F ||
    n == 0x3000

/-- `str::trim_matches` with a set of characters. -/
def trimMatches (p : Char → Bool) (s : Text) : Text := (s.dropWhile p).rdropWhile p

def trimEnd (s : Text) : Text := s.rdropWhile isWhitespace

def trim (s : Text) : Text := trimEnd (s.dropWhile isWhitespace)

/-- `str::split_once` at a character. -/
def splitOnce (sep : Char) : Text → Option (Text × Text)
  | [] => none
  | c :: cs =>
    if c = sep then some ([], cs) else (splitOnce sep cs).map fun (k, v) => (c :: k, v)

/-- `str::eq_ignore_ascii_case`. `Char.toLower` changes ASCII letters only. -/
def eqIgnoreAsciiCase (s t : Text) : Bool := s.map Char.toLower == t.map Char.toLower

/-- The scan of `replace`, with the number of characters of a match still to be skipped. -/
def replaceFrom (pat new : Text) : Nat → Text → Text
  | _, [] => []
  | skip + 1, _ :: cs => replaceFrom pat new skip cs
  | 0, c :: cs =>
    if pat.isPrefixOf (c :: cs) then new ++ replaceFrom pat new (pat.length - 1) cs
    else c :: replaceFrom pat new 0 cs

/-- `str::replace` with a non-empty pattern: all matches, from the left. -/
def replace (pat new s : Text) : Text := replaceFrom pat new 0 s

/-- One trailing carriage return is taken off. -/
def stripCr (line : Text) : Text :=
  if line.getLast? = some '\r' then line.dropLast else line

/-- The lines of a text, when `line` has been read of the first one. -/
def linesFrom (line : Text) : Text → List Text
  | [] => if line.isEmpty then [] else [line]
  | c :: cs => if c = '\n' then stripCr line :: linesFrom [] cs else linesFrom (line ++ [c]) cs

/-- `str::lines`. Lines end with `\n` or `\r\n`; a last line without an end is kept as it is,
and an empty one is not there. -/
def lines (s : Text) : List Text := linesFrom [] s

def join (sep : Text) (ls : List Text) : Text := sep.intercalate ls

/-- `str::parse` for an unsigned type of the given width: a sign `+` is allowed, an overflow
is an error. -/
def parseUnsigned (bits : Nat) (s : Text) : Option Nat :=
  let digits := match s with
    | '+' :: ds => ds
    | ds => ds
  if digits.isEmpty || !digits.all Char.isDigit then none
  else
    let n := digits.foldl (fun n c => n * 10 + (c.toNat - 48)) 0
    if n < 2 ^ bits then some n else none

example : lines "a\r\nb\n\r\n c\r".toList = ["a".toList, "b".toList, [], " c\r".toList] := by
  decide

/-! ## Trimming -/

/-- Nothing is left to trim. -/
structure Trimmed (p : Char → Bool) (s : Text) : Prop where
  head : ∀ c ∈ s.head?, p c = false
  last : ∀ c ∈ s.getLast?, p c = false

variable {p : Char → Bool}

theorem trimMatches_eq_self {s : Text} (h : Trimmed p s) : trimMatches p s = s := by
  have hfront : s.dropWhile p = s := by
    cases s with
    | nil => rfl
    | cons c cs => exact List.dropWhile_cons_of_neg (by rw [h.head c rfl]; exact Bool.false_ne_true)
  rw [trimMatches, hfront]
  refine List.rdropWhile_eq_self_iff.mpr fun hne => ?_
  rw [h.last _ (List.getLast?_eq_getLast_of_ne_nil hne)]
  exact Bool.false_ne_true

theorem trimmed_trimMatches (s : Text) : Trimmed p (trimMatches p s) where
  head := by
    intro c hc
    -- the head is that of the text without its front
    obtain ⟨rest, hrest⟩ := List.rdropWhile_prefix p (s.dropWhile p)
    have hnot := List.head?_dropWhile_not p s
    rw [show s.dropWhile p = trimMatches p s ++ rest from hrest.symm, List.head?_append, hc] at hnot
    exact hnot
  last := by
    intro c hc
    have hne : trimMatches p s ≠ [] := by
      rintro hnil
      rw [hnil] at hc
      cases hc
    have hlast : ¬ p ((trimMatches p s).getLast hne) = true :=
      List.rdropWhile_last_not p (s.dropWhile p) hne
    rw [List.getLast?_eq_getLast_of_ne_nil hne] at hc
    rw [Option.some.inj hc] at hlast
    exact Bool.eq_false_iff.mpr hlast

/-- Trimming leaves a text alone exactly when its ends are visible. -/
theorem trim_eq_self_iff {s : Text} : trim s = s ↔ Trimmed isWhitespace s :=
  ⟨fun h => h ▸ trimmed_trimMatches s, trimMatches_eq_self⟩

theorem trimMatches_subset (s : Text) : trimMatches p s ⊆ s := by
  intro c hc
  have hfront := (List.rdropWhile_prefix p (s.dropWhile p)).subset hc
  exact (List.dropWhile_suffix p).subset hfront

/-! ## Words at the front of a text -/

/-- A word that survives trimming: it is not empty and has no whitespace at its ends. -/
structure Word (w : Text) : Prop where
  head : ∀ c ∈ w.head?, isWhitespace c = false
  last : ∀ c ∈ w.getLast?, isWhitespace c = false
  ne_nil : w ≠ []

variable {w r : Text}

theorem trimEnd_append (hw : Word w) : trimEnd (w ++ r) = w ++ trimEnd r := by
  induction r using List.reverseRecOn with
  | nil =>
    have hself : trimEnd w = w := by
      refine List.rdropWhile_eq_self_iff.mpr fun hne => ?_
      rw [hw.last _ (List.getLast?_eq_getLast_of_ne_nil hne)]
      exact Bool.false_ne_true
    rw [List.append_nil, hself, show trimEnd [] = [] from List.rdropWhile_nil _, List.append_nil]
  | append_singleton r c ih =>
    rw [← List.append_assoc]
    cases hc : isWhitespace c with
    | true =>
      rw [trimEnd, List.rdropWhile_concat_pos _ _ _ hc, trimEnd,
        List.rdropWhile_concat_pos _ _ _ hc]
      exact ih
    | false =>
      have hneg : ¬ isWhitespace c = true := by rw [hc]; exact Bool.false_ne_true
      rw [trimEnd, List.rdropWhile_concat_neg _ _ _ hneg, trimEnd,
        List.rdropWhile_concat_neg _ _ _ hneg, List.append_assoc]

theorem dropWhile_word (hw : Word w) :
    (w ++ r).dropWhile isWhitespace = w ++ r := by
  cases w with
  | nil => exact absurd rfl hw.ne_nil
  | cons c cs =>
    have hc := hw.head c rfl
    rw [List.cons_append, List.dropWhile_cons_of_neg (by rw [hc]; exact Bool.false_ne_true)]

/-- **A word at the front survives trimming**, and so does what it stands behind. -/
theorem trim_word {ws : Text} (hws : ∀ c ∈ ws, isWhitespace c = true) (hw : Word w) :
    trim (ws ++ (w ++ r)) = w ++ trimEnd r := by
  rw [trim, List.dropWhile_append_of_pos hws, dropWhile_word hw, trimEnd_append hw]

theorem eqIgnoreAsciiCase_iff {s t : Text} :
    eqIgnoreAsciiCase s t = true ↔ s.map Char.toLower = t.map Char.toLower :=
  beq_iff_eq

/-- A text equals, up to case, one of two different words at most. -/
theorem eqIgnoreAsciiCase_ne {s a b : Text} (ha : eqIgnoreAsciiCase s a = true)
    (hab : a.map Char.toLower ≠ b.map Char.toLower) : eqIgnoreAsciiCase s b = false :=
  Bool.eq_false_iff.mpr fun hb =>
    hab ((eqIgnoreAsciiCase_iff.mp ha).symm.trans (eqIgnoreAsciiCase_iff.mp hb))

@[simp] theorem trim_trim (s : Text) : trim (trim s) = trim s :=
  trim_eq_self_iff.mpr (trimmed_trimMatches s)

theorem splitOnce_append {sep : Char} (hw : sep ∉ w) :
    splitOnce sep (w ++ r) = (splitOnce sep r).map fun (k, v) => (w ++ k, v) := by
  induction w with
  | nil => simp
  | cons c cs ih =>
    obtain ⟨hc, hcs⟩ := List.ne_and_not_mem_of_not_mem_cons hw
    rw [List.cons_append, splitOnce, if_neg hc.symm, ih hcs, Option.map_map]
    rfl

/-- The text is split at the first separator. -/
theorem splitOnce_eq_some {sep : Char} {s k v : Text} (h : splitOnce sep s = some (k, v)) :
    s = k ++ sep :: v ∧ sep ∉ k := by
  induction s generalizing k with
  | nil => cases h
  | cons c cs ih =>
    rw [splitOnce] at h
    split at h
    · next hc =>
      cases h
      rw [hc]
      exact ⟨rfl, List.not_mem_nil⟩
    · next hc =>
      obtain ⟨⟨k', v'⟩, hsplit, heq⟩ := Option.map_eq_some_iff.mp h
      cases heq
      obtain ⟨hcs, hk⟩ := ih hsplit
      rw [hcs]
      exact ⟨rfl, List.not_mem_cons_of_ne_of_not_mem (Ne.symm hc) hk⟩

/-- Induction over the fields of a text between separators `c`: one field, and a field before
the rest. -/
theorem field_induction {c : Char} {P : Text → Prop} (single : ∀ p, c ∉ p → P p)
    (append : ∀ p r, c ∉ p → P p → P r → P (p ++ c :: r)) (s : Text) : P s := by
  induction hlen : s.length using Nat.strong_induction_on generalizing s with
  | _ n ih =>
    by_cases hmem : c ∈ s
    · obtain ⟨p, r, rfl, hp⟩ := List.eq_append_cons_of_mem hmem
      -- the rest behind the first separator is shorter
      refine append p r hp (single p hp) (ih r.length ?_ r rfl)
      rw [← hlen, List.length_append, List.length_cons]
      omega
    · exact single s hmem

/-- A character of a text is the separator or in one of the fields. -/
theorem mem_splitOn {c d : Char} {s : Text} (hd : d ∈ s) :
    d = c ∨ ∃ p ∈ s.splitOn c, d ∈ p := by
  induction s using field_induction (c := c) with
  | single p hp => exact .inr ⟨p, by simp [List.splitOn_eq_singleton hp], hd⟩
  | append p r hp _ ih =>
    rw [List.splitOn_append_cons_self, List.splitOn_eq_singleton hp]
    rcases List.mem_append.mp hd with hd | hd
    · exact .inr ⟨p, List.mem_cons_self, hd⟩
    · rcases List.mem_cons.mp hd with rfl | hd
      · exact .inl rfl
      · rcases ih hd with heq | ⟨q, hq, hmem⟩
        · exact .inl heq
        · exact .inr ⟨q, List.mem_cons_of_mem _ hq, hmem⟩

/-- A replacement leaves alone what stands before the first character a match can begin
with. -/
theorem replace_append {c : Char} {pat new : Text} (hw : c ∉ w) :
    replace (c :: pat) new (w ++ r) = w ++ replace (c :: pat) new r := by
  induction w with
  | nil => rfl
  | cons d ds ih =>
    obtain ⟨hd, hds⟩ := List.ne_and_not_mem_of_not_mem_cons hw
    have hno : ¬ (c :: pat).isPrefixOf (d :: (ds ++ r)) = true := by
      simp [List.isPrefixOf, hd]
    rw [List.cons_append, replace, replaceFrom, if_neg hno]
    exact congrArg (d :: ·) (ih hds)

theorem prefix_of_prefix_append {c : Char} {pat s r : Text} (hc : c ∉ pat)
    (h : pat <+: s ++ c :: r) : pat <+: s := by
  rcases List.prefix_or_prefix_of_prefix h (List.prefix_append s (c :: r)) with hpat | hs
  · exact hpat
  · obtain ⟨t, rfl⟩ := hs
    rw [List.prefix_append_right_inj] at h
    cases t with
    | nil => simp
    | cons d t =>
      rw [(List.cons_prefix_cons.mp h).1] at hc
      simp at hc

/-- A replacement sees the two sides of a character that its pattern does not contain one by
one. Induction on the first side, for any number of characters to be skipped in it. -/
theorem replace_append_cons {c : Char} {pat new : Text} (hpat : pat ≠ []) (hc : c ∉ pat)
    (s r : Text) : replace pat new (s ++ c :: r) = replace pat new s ++ c :: replace pat new r := by
  have hgo : ∀ (s : Text) (skip : Nat), skip ≤ s.length →
      replaceFrom pat new skip (s ++ c :: r)
        = replaceFrom pat new skip s ++ c :: replaceFrom pat new 0 r := by
    intro s
    induction s with
    | nil =>
      intro skip hskip
      obtain rfl : skip = 0 := by simpa using hskip
      -- the character itself begins no match
      have hno : ¬ pat.isPrefixOf (c :: r) = true := by
        intro h
        have hnil := prefix_of_prefix_append (s := []) hc (List.isPrefixOf_iff_prefix.mp h)
        exact hpat (List.prefix_nil.mp hnil)
      simp only [List.nil_append, replaceFrom, if_neg hno]
    | cons d ds ih =>
      intro skip hskip
      cases skip with
      | succ skip => exact ih skip (Nat.le_of_succ_le_succ hskip)
      | zero =>
        -- a match on the first side ends before the character
        have hiff : pat.isPrefixOf (d :: (ds ++ c :: r)) = pat.isPrefixOf (d :: ds) := by
          rw [Bool.eq_iff_iff, List.isPrefixOf_iff_prefix, List.isPrefixOf_iff_prefix]
          exact ⟨prefix_of_prefix_append (s := d :: ds) hc,
            fun h => h.trans (List.prefix_append (d :: ds) (c :: r))⟩
        rw [List.cons_append, replaceFrom, replaceFrom, hiff]
        split
        · next hmatch =>
          have hle := (List.isPrefixOf_iff_prefix.mp hmatch).length_le
          rw [List.length_cons] at hle
          rw [ih (pat.length - 1) (by omega), List.append_assoc]
        · rw [ih 0 (Nat.zero_le _)]
          rfl
  exact hgo s 0 (Nat.zero_le _)

/-- A replacement leaves alone a text without one of the characters of its pattern. -/
theorem replace_of_notMem {c : Char} {pat new s : Text} (hpat : c ∈ pat) (hs : c ∉ s) :
    replace pat new s = s := by
  have hgo : ∀ s : Text, c ∉ s → replaceFrom pat new 0 s = s := by
    intro s
    induction s with
    | nil => exact fun _ => rfl
    | cons d ds ih =>
      intro hs
      have hno : ¬ pat.isPrefixOf (d :: ds) = true := fun h =>
        hs ((List.isPrefixOf_iff_prefix.mp h).subset hpat)
      rw [replaceFrom, if_neg hno, ih fun h => hs (List.mem_cons_of_mem _ h)]
  exact hgo s hs

/-- A pattern of visible characters has no blanks in it. -/
theorem notMem_of_isWhitespace {pat : Text} (hpat : pat.all (fun c => !isWhitespace c) = true)
    {c : Char} (hc : isWhitespace c = true) : c ∉ pat := by
  intro hmem
  have hvisible := List.all_eq_true.mp hpat c hmem
  rw [hc] at hvisible
  cases hvisible

/-- Characters that the pattern does not contain are left alone at both ends of a text. -/
theorem replace_blank {pat new ws s ws' : Text} (hpat : pat ≠ []) (hws : ∀ c ∈ ws, c ∉ pat)
    (hws' : ∀ c ∈ ws', c ∉ pat) :
    replace pat new (ws ++ (s ++ ws')) = ws ++ (replace pat new s ++ ws') := by
  have hend : ∀ s ws' : Text, (∀ c ∈ ws', c ∉ pat) →
      replace pat new (s ++ ws') = replace pat new s ++ ws' := by
    intro s ws'
    induction ws' generalizing s with
    | nil => simp
    | cons c cs ih =>
      intro h
      have hcs : replace pat new ([] ++ cs) = [] ++ cs := ih [] fun d hd => h d (by simp [hd])
      rw [replace_append_cons hpat (h c List.mem_cons_self)]
      exact congrArg (fun t => replace pat new s ++ c :: t) hcs
  induction ws with
  | nil => exact hend s ws' hws'
  | cons c cs ih =>
    have hfront := @replace_append_cons c pat new hpat (hws c List.mem_cons_self) []
      (cs ++ (s ++ ws'))
    rw [ih fun d hd => hws d (List.mem_cons_of_mem _ hd)] at hfront
    exact hfront

/-- A prefix that contains a marker once lines up with the marker of the text. -/
theorem append_cons_prefix_iff {m : Char} {x y a b : Text} (hx : m ∉ x) (ha : m ∉ a) :
    x ++ m :: y <+: a ++ m :: b ↔ x = a ∧ y <+: b := by
  induction x generalizing a with
  | nil =>
    cases a with
    | nil => simp
    | cons d ds => simp [List.ne_and_not_mem_of_not_mem_cons ha]
  | cons c cs ih =>
    obtain ⟨hc, hcs⟩ := List.ne_and_not_mem_of_not_mem_cons hx
    cases a with
    | nil => simp [hc.symm]
    | cons d ds =>
      obtain ⟨-, hds⟩ := List.ne_and_not_mem_of_not_mem_cons ha
      rw [List.cons_append, List.cons_append, List.cons_prefix_cons, ih hcs hds, List.cons.injEq,
        and_assoc]

/-- A match at the front is replaced, and the scan goes on behind it. -/
theorem replace_match {pat new : Text} (hpat : pat ≠ []) (r : Text) :
    replace pat new (pat ++ r) = new ++ replace pat new r := by
  -- what has been matched is skipped character by character
  have hskip : ∀ s : Text, replaceFrom pat new s.length (s ++ r) = replaceFrom pat new 0 r := by
    intro s
    induction s with
    | nil => rfl
    | cons c cs ih => exact ih
  cases pat with
  | nil => exact absurd rfl hpat
  | cons c cs =>
    have hpre : (c :: cs).isPrefixOf (c :: (cs ++ r)) = true :=
      List.isPrefixOf_iff_prefix.mpr (List.prefix_append (c :: cs) r)
    rw [List.cons_append, replace, replaceFrom, if_pos hpre]
    exact congrArg (new ++ ·) (hskip cs)

section

/-! A pattern `x ++ m :: y` around a marker `m` that it contains once. -/

variable {m : Char} {x y new a b : Text}

theorem replaceFrom_marker_cons {c : Char} (hx : m ∉ x) (ha : m ∉ c :: a)
    (hno : ¬ (x = c :: a ∧ y <+: b)) : replace (x ++ m :: y) new (c :: a ++ m :: b)
      = c :: replace (x ++ m :: y) new (a ++ m :: b) := by
  have hskip : ¬ (x ++ m :: y).isPrefixOf (c :: (a ++ m :: b)) = true := fun h =>
    hno ((append_cons_prefix_iff hx ha).mp (List.isPrefixOf_iff_prefix.mp h))
  rw [List.cons_append, replace, replaceFrom, if_neg hskip]
  rfl

/-- A match ends the part before the marker and begins the part behind it; without one
nothing is replaced. -/
theorem replace_marker_eq_self (hx : m ∉ x) (ha : m ∉ a) (hb : m ∉ b)
    (hno : ¬ (x <:+ a ∧ y <+: b)) : replace (x ++ m :: y) new (a ++ m :: b) = a ++ m :: b := by
  induction a with
  | nil =>
    have hskip : ¬ (x ++ m :: y).isPrefixOf (m :: b) = true := fun h => by
      have hpre := List.isPrefixOf_iff_prefix.mp h
      obtain ⟨hnil, hy⟩ := (append_cons_prefix_iff (a := []) hx ha).mp hpre
      exact hno ⟨hnil ▸ List.suffix_refl _, hy⟩
    rw [List.nil_append, replace, replaceFrom, if_neg hskip]
    exact congrArg (m :: ·) (replace_of_notMem (c := m) (by simp) hb)
  | cons c cs ih =>
    obtain ⟨-, hcs⟩ := List.ne_and_not_mem_of_not_mem_cons ha
    rw [replaceFrom_marker_cons hx ha fun h => hno ⟨h.1 ▸ List.suffix_refl _, h.2⟩,
      ih hcs fun h => hno ⟨h.1.trans (List.suffix_cons c cs), h.2⟩]
    rfl

theorem replace_marker_match (hx : m ∉ x) (ha : m ∉ a) (hb : m ∉ b) :
    replace (x ++ m :: y) new (a ++ x ++ m :: (y ++ b)) = a ++ (new ++ b) := by
  induction a with
  | nil =>
    have hmatch := @replace_match (x ++ m :: y) new (by simp) b
    rw [replace_of_notMem (c := m) (by simp) hb] at hmatch
    simpa using hmatch
  | cons c cs ih =>
    obtain ⟨hc, hcs⟩ := List.ne_and_not_mem_of_not_mem_cons ha
    -- a match can only begin where the part before the marker is `x`
    have hlonger : ¬ (x = c :: (cs ++ x) ∧ y <+: y ++ b) := by
      intro h
      have hlen := congrArg List.length h.1
      simp only [List.length_cons, List.length_append] at hlen
      omega
    have hcons : m ∉ c :: (cs ++ x) := by simp [hc, hcs, hx]
    have hstep := @replaceFrom_marker_cons m x y new (cs ++ x) (y ++ b) c hx hcons hlonger
    rw [ih hcs] at hstep
    exact hstep

end

/-- Replacing does not introduce a character. -/
theorem not_mem_replaceFrom {c : Char} {pat new : Text} (hnew : c ∉ new) {s : Text} (hs : c ∉ s)
    (skip : Nat) : c ∉ replaceFrom pat new skip s := by
  induction s generalizing skip with
  | nil => simp [replaceFrom]
  | cons d ds ih =>
    obtain ⟨hd, hds⟩ := List.ne_and_not_mem_of_not_mem_cons hs
    cases skip with
    | succ skip => exact ih hds skip
    | zero =>
      unfold replaceFrom
      split
      · exact fun h => (List.mem_append.mp h).elim hnew (ih hds _)
      · exact fun h => (List.mem_cons.mp h).elim hd (ih hds 0)

/-! ## Lines and their content -/

/-- What a reader sees that trims every line and skips the blank ones. -/
def content (ls : List Text) : List Text := (ls.map trim).filter fun l => !l.isEmpty

theorem content_cons (l : Text) (ls : List Text) :
    content (l :: ls) = if (trim l).isEmpty then content ls else trim l :: content ls := by
  cases h : (trim l).isEmpty <;> simp [content, h]

theorem trimEnd_append_blank {s ws : Text} (hws : ∀ c ∈ ws, isWhitespace c = true) :
    trimEnd (s ++ ws) = trimEnd s := by
  induction ws using List.reverseRecOn with
  | nil => rw [List.append_nil]
  | append_singleton ws c ih =>
    have hc : isWhitespace c = true := hws c (by simp)
    rw [← List.append_assoc, trimEnd, List.rdropWhile_concat_pos _ _ _ hc]
    exact ih fun d hd => hws d (List.mem_append_left _ hd)

/-- Whitespace at the end of a line is trimmed away. -/
theorem trim_append_blank {s ws : Text} (hws : ∀ c ∈ ws, isWhitespace c = true) :
    trim (s ++ ws) = trim s := by
  unfold trim
  rw [List.dropWhile_append]
  split
  · next hempty =>
    have hdrop : ws.dropWhile isWhitespace = [] := List.dropWhile_eq_nil_iff.mpr hws
    rw [hdrop, List.isEmpty_iff.mp hempty]
  · exact trimEnd_append_blank hws

theorem trim_stripCr (s : Text) : trim (stripCr s) = trim s := by
  unfold stripCr
  split
  · next hlast =>
    have hne : s ≠ [] := by rintro rfl; cases hlast
    have hget : s.getLast hne = '\r' := by
      rw [List.getLast?_eq_getLast_of_ne_nil hne] at hlast
      exact Option.some.inj hlast
    conv => rhs; rw [← List.dropLast_append_getLast hne, hget]
    exact (trim_append_blank (List.forall_mem_singleton.mpr rfl)).symm
  · rfl

theorem linesFrom_end {line s : Text} (hs : '\n' ∉ s) :
    linesFrom line s = if (line ++ s).isEmpty then [] else [line ++ s] := by
  induction s generalizing line with
  | nil => rw [linesFrom, List.append_nil]
  | cons c cs ih =>
    obtain ⟨hc, hcs⟩ := List.ne_and_not_mem_of_not_mem_cons hs
    rw [linesFrom, if_neg hc.symm, ih hcs, List.append_assoc, List.singleton_append]

theorem linesFrom_newline {line s rest : Text} (hs : '\n' ∉ s) :
    linesFrom line (s ++ '\n' :: rest) = stripCr (line ++ s) :: linesFrom [] rest := by
  induction s generalizing line with
  | nil => rw [List.nil_append, linesFrom, if_pos rfl, List.append_nil]
  | cons c cs ih =>
    obtain ⟨hc, hcs⟩ := List.ne_and_not_mem_of_not_mem_cons hs
    rw [List.cons_append, linesFrom, if_neg hc.symm, ih hcs, List.append_assoc,
      List.singleton_append]

/-- **Joining and splitting again.** The line end may be `\n` or `\r\n`. -/
theorem content_lines_join {cr : Text} (hblank : ∀ c ∈ cr, isWhitespace c = true)
    (hcr : '\n' ∉ cr) {ls : List Text} (hls : ∀ l ∈ ls, '\n' ∉ l) :
    content (lines (join (cr ++ ['\n']) ls)) = content ls := by
  induction ls with
  | nil => rfl
  | cons l ls ih =>
    have hl : '\n' ∉ l := hls l List.mem_cons_self
    cases ls with
    | nil =>
      -- the last line stands without an end
      rw [join, List.intercalate_singleton, lines, linesFrom_end hl, List.nil_append]
      cases l <;> rfl
    | cons l' ls =>
      have hrest := ih fun m hm => hls m (List.mem_cons_of_mem _ hm)
      have hend : '\n' ∉ l ++ cr := fun h => (List.mem_append.mp h).elim hl hcr
      rw [join, List.intercalate_cons_cons, ← List.append_assoc, List.append_assoc (l ++ cr),
        List.singleton_append, lines, linesFrom_newline hend, List.nil_append]
      rw [content_cons, trim_stripCr, trim_append_blank hblank, content_cons]
      rw [show content (linesFrom [] (List.intercalate (cr ++ ['\n']) (l' :: ls)))
        = content (l' :: ls) from hrest]

/-- The lines of a text contain no newline. -/
theorem newline_not_mem_lines {s : Text} {l : Text} (hl : l ∈ lines s) : '\n' ∉ l := by
  have hstrip : ∀ line : Text, '\n' ∉ line → '\n' ∉ stripCr line := by
    intro line hline
    unfold stripCr
    split
    · exact fun h => hline (List.dropLast_subset _ h)
    · exact hline
  have hgo : ∀ (s line : Text), '\n' ∉ line → ∀ l ∈ linesFrom line s, '\n' ∉ l := by
    intro s
    induction s with
    | nil =>
      intro line hline l hl
      unfold linesFrom at hl
      split at hl
      · cases hl
      · rw [List.mem_singleton.mp hl]
        exact hline
    | cons c cs ih =>
      intro line hline l hl
      unfold linesFrom at hl
      split at hl
      · rcases List.mem_cons.mp hl with rfl | hl
        · exact hstrip line hline
        · exact ih [] List.not_mem_nil l hl
      · next hc =>
        refine ih (line ++ [c]) (fun h => ?_) l hl
        rcases List.mem_append.mp h with h | h
        · exact hline h
        · exact hc (List.mem_singleton.mp h).symm
  exact hgo s [] List.not_mem_nil l hl

/-! ## Readers -/

section

variable {σ ε : Type*} {f : σ → Text → Except ε σ}

/-- One line of a reader whose last state is looked at through `view`. -/
theorem map_foldlM_cons {τ : Type*} (view : σ → τ) (s : σ) (l : Text) (ls : List Text) :
    ((l :: ls).foldlM f s).map view = (f s l).bind fun s' => (ls.foldlM f s').map view := by
  rw [List.foldlM_cons]
  cases f s l <;> rfl

/-- A reader that trims every line and skips the blank ones. -/
structure Trims (f : σ → Text → Except ε σ) : Prop where
  trim : ∀ s l, f s l = f s (trim l)
  blank : ∀ s, f s [] = .ok s

/-- Such a reader sees the content of the lines only. -/
theorem Trims.foldlM_content (hf : Trims f) (s : σ) (ls : List Text) :
    (content ls).foldlM f s = ls.foldlM f s := by
  induction ls generalizing s with
  | nil => rfl
  | cons l ls ih =>
    rw [content_cons, List.foldlM_cons, hf.trim]
    split
    · next hempty =>
      rw [List.isEmpty_iff.mp hempty, hf.blank]
      exact ih s
    · rw [List.foldlM_cons]
      exact congrArg _ (funext fun s' => ih s')

/-- The same for a reader that cannot fail. -/
theorem Trims.foldl_content {g : σ → Text → σ}
    (hg : Trims fun s l => (.ok (g s l) : Except Empty σ)) (s : σ) (ls : List Text) :
    (content ls).foldl g s = ls.foldl g s := by
  have hok : ∀ ks : List Text, ks.foldlM (fun s l => (.ok (g s l) : Except Empty σ)) s
      = .ok (ks.foldl g s) := fun ks => List.foldlM_pure
  have hcontent := hg.foldlM_content s ls
  rw [hok, hok] at hcontent
  exact Except.ok.inj hcontent

end

end Text
