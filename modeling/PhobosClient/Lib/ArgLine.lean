import Mathlib.Data.List.Basic

/-!
# ArgLine — splitting a Windows command line into arguments

The documented rules, as a scanner over the characters of the line:

* space and tab outside quotes separate arguments;
* `2n` backslashes before a quote stand for `n` backslashes, and the quote opens or closes
  quoting; `2n + 1` stand for `n` backslashes and a literal quote;
* all other backslashes are literal;
* a doubled quote inside quotes is a literal quote.

Backslashes are therefore counted (`Arg.slashes`) until the character behind the run is
known. The lemmas below say what the scanner makes of the pieces an escaping function emits:
a run of backslashes, a plain character, a quote after a run, a separator.
-/

namespace ArgLine

/-- An argument being read: whether the scanner is inside quotes, the backslashes whose
meaning is still open, and the text so far. -/
structure Arg where
  quoted : Bool
  slashes : Nat
  text : List Char

def Arg.start : Arg := ⟨false, 0, []⟩

/-- The argument when it ends here: the open backslashes are literal. -/
def Arg.close (a : Arg) : List Char := a.text ++ List.replicate a.slashes '\\'

/-- The argument after a character that is neither backslash nor quote nor separator. -/
def Arg.push (a : Arg) (c : Char) : Arg := ⟨a.quoted, 0, a.close ++ [c]⟩

/-- The text after a quote has halved the open backslashes. -/
def Arg.halve (a : Arg) : List Char := a.text ++ List.replicate (a.slashes / 2) '\\'

def isSep (c : Char) : Bool := c == ' ' || c == '\t'

/-- Scan the line; `none` is between two arguments. -/
def scan : Option Arg → List Char → List (List Char)
  | none, [] => []
  | some a, [] => [a.close]
  | st, c :: cs =>
    let a := st.getD .start
    if c = '\\' then scan (some { a with slashes := a.slashes + 1 }) cs
    else if c = '"' then
      if a.slashes % 2 = 1 then scan (some ⟨a.quoted, 0, a.halve ++ ['"']⟩) cs
      else if a.quoted then
        match cs with
        | '"' :: cs' => scan (some ⟨true, 0, a.halve ++ ['"']⟩) cs'
        | cs => scan (some ⟨false, 0, a.halve⟩) cs
      else scan (some ⟨true, 0, a.halve⟩) cs
    else if isSep c && !a.quoted then
      match st with
      | none => scan none cs
      | some a => a.close :: scan none cs
    else scan (some (a.push c)) cs

/-- The arguments of a command line. -/
def parseArgs (line : List Char) : List (List Char) := scan none line

variable {a : Arg} {c : Char} {cs rest : List Char}

@[simp] theorem scan_some_nil : scan (some a) [] = [a.close] := rfl

/-- Outside an argument, anything but a separator starts one. -/
theorem scan_none_cons (hc : isSep c = false) :
    scan none (c :: cs) = scan (some .start) (c :: cs) := by
  conv_lhs => rw [scan.eq_def]
  conv_rhs => rw [scan.eq_def]
  simp only [hc, Option.getD_none, Option.getD_some, Bool.false_and, Bool.false_eq_true,
    if_false]

@[simp] theorem scan_slash :
    scan (some a) ('\\' :: cs) = scan (some { a with slashes := a.slashes + 1 }) cs := by
  conv_lhs => rw [scan.eq_def]
  simp

/-- A run of backslashes is counted. -/
theorem scan_slashes (n : Nat) : scan (some a) (List.replicate n '\\' ++ rest)
    = scan (some { a with slashes := a.slashes + n }) rest := by
  induction n generalizing a with
  | zero => rfl
  | succ n ih =>
    rw [List.replicate_succ, List.cons_append, scan_slash, ih]
    simp only [Nat.add_assoc, Nat.add_comm 1 n]

/-- A plain character makes the backslashes before it literal. -/
theorem scan_push (hs : c ≠ '\\') (hq : c ≠ '"') (hsep : (isSep c && !a.quoted) = false) :
    scan (some a) (c :: cs) = scan (some (a.push c)) cs := by
  conv_lhs => rw [scan.eq_def]
  simp only [if_neg hs, if_neg hq, Option.getD_some, hsep, Bool.false_eq_true, if_false]

/-- A quote behind an odd run is literal. -/
theorem scan_quote_odd (h : a.slashes % 2 = 1) : scan (some a) ('"' :: cs)
    = scan (some ⟨a.quoted, 0, a.halve ++ ['"']⟩) cs := by
  conv_lhs => rw [scan.eq_def]
  simp [h]

/-- A quote that starts an argument opens quoting. -/
theorem scan_quote_start : scan none ('"' :: cs) = scan (some ⟨true, 0, []⟩) cs := by
  conv_lhs => rw [scan.eq_def]
  simp [Arg.start, Arg.halve]

/-- A quote behind an even run closes quoting, unless it is doubled. -/
theorem scan_quote_close (hq : a.quoted = true) (h : a.slashes % 2 = 0)
    (hcs : cs.head? ≠ some '"') : scan (some a) ('"' :: cs)
    = scan (some ⟨false, 0, a.halve⟩) cs := by
  conv_lhs => rw [scan.eq_def]
  simp only [Option.getD_some, hq, h, if_true]
  rw [if_neg (by decide), if_neg (by decide)]
  split
  · exact absurd rfl hcs
  · rfl

/-- Outside quotes a separator ends the argument. -/
theorem scan_sep (hq : a.quoted = false) (hc : isSep c = true) :
    scan (some a) (c :: cs) = a.close :: scan none cs := by
  have hs : c ≠ '\\' := by rintro rfl; cases hc
  have hquote : c ≠ '"' := by rintro rfl; cases hc
  conv_lhs => rw [scan.eq_def]
  simp only [if_neg hs, if_neg hquote, Option.getD_some, hc, hq, Bool.not_false, Bool.and_self,
    if_true]

/-- Characters outside quotes that are neither quotes nor separators are taken literally,
backslashes included. Induction on the characters. -/
theorem scan_literal (hq : a.quoted = false) (hcs : ∀ c ∈ cs, c ≠ '"' ∧ isSep c = false) :
    ∃ a' : Arg, a'.quoted = false ∧ a'.close = a.close ++ cs
      ∧ ∀ rest, scan (some a) (cs ++ rest) = scan (some a') rest := by
  induction cs generalizing a with
  | nil => exact ⟨a, hq, by simp, fun _ => rfl⟩
  | cons c cs ih =>
    have hc := hcs c List.mem_cons_self
    have htail : ∀ c ∈ cs, c ≠ '"' ∧ isSep c = false := fun d hd =>
      hcs d (List.mem_cons_of_mem _ hd)
    by_cases hs : c = '\\'
    · subst hs
      obtain ⟨a', hq', hclose, hscan⟩ := ih (a := { a with slashes := a.slashes + 1 }) hq htail
      refine ⟨a', hq', ?_, fun rest => ?_⟩
      · rw [hclose]
        simp [Arg.close, List.replicate_succ']
      · rw [List.cons_append, scan_slash, hscan]
    · obtain ⟨a', hq', hclose, hscan⟩ := ih (a := a.push c) hq htail
      refine ⟨a', hq', ?_, fun rest => ?_⟩
      · rw [hclose]
        simp [Arg.close, Arg.push]
      · rw [List.cons_append, scan_push hs hc.1 (by rw [hc.2]; rfl), hscan]

end ArgLine
