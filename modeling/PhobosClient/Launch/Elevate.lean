import PhobosClient.Lib.ArgLine

/-!
# PhobosClient — relaunching with elevation (`src/windows_net.rs`)

`elevate_and_relaunch` hands its own arguments to a new process as one string: each argument
escaped by `escapeWindowsArg`, joined by single spaces and terminated by NUL. The new process
splits the string with the rules of `ArgLine`.

**`relaunch_args`**: it gets exactly the arguments it was meant to get. An escaped argument
is scanned back to itself whatever stands behind it, as long as that is the end of the line
or a space (`scan_escapeWindowsArg`); the joined line puts nothing else there.
-/

namespace Phobos

open ArgLine

/-- Characters that force quoting. -/
def needsQuotes (c : Char) : Bool :=
  c == ' ' || c == '\t' || c == '\n' || c == '\r' || c == '"'

/-- The loop over the characters, with the number of backslashes not yet written. -/
def escapeLoop : Nat → List Char → List Char
  | backslashes, [] => List.replicate (backslashes * 2) '\\'
  | backslashes, c :: cs =>
    if c = '\\' then escapeLoop (backslashes + 1) cs
    else if c = '"' then List.replicate (backslashes * 2 + 1) '\\' ++ '"' :: escapeLoop 0 cs
    else List.replicate backslashes '\\' ++ c :: escapeLoop 0 cs

/-- Safely escapes an argument for the Windows command line. -/
def escapeWindowsArg (arg : List Char) : List Char :=
  if arg.isEmpty then ['"', '"']
  else if !arg.any needsQuotes then arg
  else '"' :: (escapeLoop 0 arg ++ ['"'])

/-- `params_str` of `elevate_and_relaunch`. -/
def paramsStr (args : List (List Char)) : List Char :=
  [' '].intercalate (args.map escapeWindowsArg)

/-- The `lpParameters` argument of `ShellExecuteW`: null without arguments, else the string
with its terminator. -/
def lpParameters (args : List (List Char)) : Option (List Char) :=
  if args.isEmpty then none else some (paramsStr args ++ ['\x00'])

/-- The command line the new process sees: the characters before the first NUL. -/
def commandLine (lpParameters : Option (List Char)) : List Char :=
  (lpParameters.getD []).takeWhile (· ≠ '\x00')

/-! ## One escaped argument -/

/-- Inside quotes, what the loop writes is read back: the pending backslashes and the
characters still to come. Induction on these characters, for any pending count. -/
theorem scan_escapeLoop (cs : List Char) (backslashes : Nat) (text rest : List Char)
    (hrest : rest.head? ≠ some '"') :
    scan (some ⟨true, 0, text⟩) (escapeLoop backslashes cs ++ '"' :: rest)
      = scan (some ⟨false, 0, text ++ List.replicate backslashes '\\' ++ cs⟩) rest := by
  induction cs generalizing backslashes text with
  | nil =>
    -- the closing quote: an even run, so quoting ends
    rw [escapeLoop, scan_slashes, scan_quote_close rfl (by simp) hrest]
    simp [Arg.halve]
  | cons c cs ih =>
    by_cases hs : c = '\\'
    · subst hs
      rw [escapeLoop, if_pos rfl, ih]
      simp [List.replicate_succ']
    · by_cases hq : c = '"'
      · -- a quote of the argument: an odd run, so it is literal
        subst hq
        rw [escapeLoop, if_neg hs, if_pos rfl, List.append_assoc, scan_slashes,
          List.cons_append, scan_quote_odd (by simp), ih]
        have hhalf : (backslashes * 2 + 1) / 2 = backslashes := by omega
        simp [Arg.halve, hhalf]
      · rw [escapeLoop, if_neg hs, if_neg hq, List.append_assoc, scan_slashes,
          List.cons_append, scan_push hs hq (by simp), Arg.push, ih]
        simp [Arg.close]

/-- **An escaped argument is read back as itself.** Before the end of the line or a space, the
scanner is left outside quotes with exactly the argument. -/
theorem scan_escapeWindowsArg (arg : List Char) :
    ∃ a : Arg, a.quoted = false ∧ a.close = arg ∧ ∀ rest : List Char, rest.head? ≠ some '"' →
      scan none (escapeWindowsArg arg ++ rest) = scan (some a) rest := by
  unfold escapeWindowsArg
  split
  · -- the empty argument is a pair of quotes
    rename_i hempty
    refine ⟨⟨false, 0, []⟩, rfl, (List.isEmpty_iff.mp hempty).symm, fun rest hrest => ?_⟩
    show scan none ('"' :: '"' :: rest) = _
    rw [scan_quote_start, scan_quote_close rfl rfl hrest]
    rfl
  · rename_i hne
    split
    · -- nothing needs quoting: every character is literal
      rename_i hplain
      have hchars : ∀ c ∈ arg, c ≠ '"' ∧ isSep c = false := by
        intro c hc
        simp only [Bool.not_eq_true', List.any_eq_false] at hplain
        have := hplain c hc
        simp only [needsQuotes, Bool.or_eq_true, beq_iff_eq, not_or] at this
        exact ⟨this.2, by simp [isSep, this.1.1.1.1, this.1.1.1.2]⟩
      obtain ⟨a, hq, hclose, hscan⟩ := scan_literal (a := .start) rfl hchars
      refine ⟨a, hq, by simpa [Arg.close, Arg.start] using hclose, fun rest _ => ?_⟩
      cases arg with
      | nil => exact absurd rfl hne
      | cons c cs =>
        rw [List.cons_append, scan_none_cons (hchars c List.mem_cons_self).2]
        exact hscan rest
    · refine ⟨⟨false, 0, arg⟩, rfl, by simp [Arg.close], fun rest hrest => ?_⟩
      rw [List.cons_append, List.append_assoc, scan_quote_start]
      -- quoted: what the loop wrote stands between two quotes
      exact scan_escapeLoop arg 0 [] rest hrest

/-! ## The joined line -/

/-- The joined line is split back into the arguments. Induction on the arguments: each is
followed by a space or by the end of the line. -/
theorem parseArgs_paramsStr (args : List (List Char)) : parseArgs (paramsStr args) = args := by
  unfold parseArgs paramsStr
  induction args with
  | nil => rfl
  | cons arg args ih =>
    obtain ⟨a, hq, hclose, hscan⟩ := scan_escapeWindowsArg arg
    cases args with
    | nil =>
      have := hscan [] (by simp)
      simpa [List.intercalate, hclose] using this
    | cons next args =>
      -- the space ends the argument, and the scanner starts afresh
      rw [List.map_cons, List.map_cons, List.intercalate_cons_cons, List.append_assoc,
        List.singleton_append, hscan _ (by simp), scan_sep hq rfl, hclose, ← List.map_cons, ih]

/-- Escaping writes no character that the argument does not have, quotes and backslashes
apart. -/
theorem mem_escapeLoop {c : Char} {cs : List Char} {backslashes : Nat}
    (h : c ∈ escapeLoop backslashes cs) : c ∈ cs ∨ c = '\\' ∨ c = '"' := by
  induction cs generalizing backslashes with
  | nil =>
    rw [escapeLoop] at h
    exact Or.inr (Or.inl (List.eq_of_mem_replicate h))
  | cons d cs ih =>
    rw [escapeLoop] at h
    split at h
    · rcases ih h with hc | hc
      · exact Or.inl (List.mem_cons_of_mem _ hc)
      · exact Or.inr hc
    · split at h <;>
      · rcases List.mem_append.mp h with h | h
        · exact Or.inr (Or.inl (List.eq_of_mem_replicate h))
        · rcases List.mem_cons.mp h with rfl | h
          · simp_all
          · rcases ih h with hc | hc
            · exact Or.inl (List.mem_cons_of_mem _ hc)
            · exact Or.inr hc

theorem mem_escapeWindowsArg {c : Char} {arg : List Char} (h : c ∈ escapeWindowsArg arg) :
    c ∈ arg ∨ c = '\\' ∨ c = '"' := by
  unfold escapeWindowsArg at h
  split at h
  · simp_all
  · split at h
    · exact Or.inl h
    · rcases List.mem_cons.mp h with rfl | h
      · exact Or.inr (Or.inr rfl)
      · rcases List.mem_append.mp h with h | h
        · exact mem_escapeLoop h
        · exact Or.inr (Or.inr (List.mem_singleton.mp h))

/-- Arguments without NUL make a string without NUL. -/
theorem nul_not_mem_paramsStr {args : List (List Char)} (hnul : ∀ a ∈ args, '\x00' ∉ a) :
    '\x00' ∉ paramsStr args := by
  have hesc : ∀ a ∈ args, '\x00' ∉ escapeWindowsArg a := by
    intro a ha h
    rcases mem_escapeWindowsArg h with h | h | h
    · exact hnul a ha h
    · exact absurd h (by decide)
    · exact absurd h (by decide)
  unfold paramsStr
  induction args with
  | nil => exact List.not_mem_nil
  | cons arg args ih =>
    cases args with
    | nil => simpa using hesc
    | cons next args =>
      rw [List.map_cons, List.map_cons, List.intercalate_cons_cons, ← List.map_cons]
      simp only [List.mem_append, not_or]
      exact ⟨⟨hesc arg List.mem_cons_self, by decide⟩,
        ih (fun a ha => hnul a (List.mem_cons_of_mem _ ha))
          (fun a ha => hesc a (List.mem_cons_of_mem _ ha))⟩

/-- The string ends at its terminator, not before. -/
theorem commandLine_lpParameters {args : List (List Char)} (hnul : ∀ a ∈ args, '\x00' ∉ a) :
    commandLine (lpParameters args) = paramsStr args := by
  cases args with
  | nil => rfl
  | cons arg args =>
    have hmem : ∀ c ∈ paramsStr (arg :: args), decide (c ≠ '\x00') = true := by
      intro c hc
      rw [decide_eq_true_eq]
      rintro rfl
      exact nul_not_mem_paramsStr hnul hc
    show (paramsStr (arg :: args) ++ ['\x00']).takeWhile (· ≠ '\x00') = _
    rw [List.takeWhile_append_of_pos hmem]
    simp

/-- **The elevated process gets the arguments of this one.** -/
theorem relaunch_args (args : List (List Char)) (hnul : ∀ a ∈ args, '\x00' ∉ a) :
    parseArgs (paramsStr args) = args
      ∧ parseArgs (commandLine (lpParameters args)) = args := by
  rw [commandLine_lpParameters hnul]
  exact ⟨parseArgs_paramsStr args, parseArgs_paramsStr args⟩

/-- An empty argument, one that ends in a backslash after a space, and a quoted one. -/
theorem relaunch_args_mixed :
    let args := [[], ['a', ' ', '\\'], ['\\', '"', '\n'], ['\\']]
    parseArgs (paramsStr args) = args ∧ parseArgs (commandLine (lpParameters args)) = args :=
  relaunch_args _ (by decide)

end Phobos
