import Mathlib.Data.List.Basic
import PhobosClient.Lib.Steps
import PhobosClient.Lib.Text

/-!
# PhobosClient — the journal (`src/tunnel_service.rs`, `src/gui.rs`)

`start` and the sessions log lines, under one lock; the window shows them on its second tab.
`TunnelService::log` drops old lines when there are 2000, the sessions' own `log_fn` does not.
`update_logs` is called twice a second and compares nothing but the number of lines with the number
that it has shown.

**`journal_keeps_newest`**: the journal is the newest lines since it was cleared, all of them or at
least 1500. **`journal_shown`**: the count is as good as the lines, as long as fewer than 500 lines
are logged from one refresh to the next; `journal_stale` says that 500 would be too many. As long as
the window shows no lines, any number of them may come.

Two threads are at work: `clear` empties the journal first and the window afterwards, and the
sessions may log in between.
-/

namespace Phobos

open Steps

def maxLogs : Nat := 2000
def keptLogs : Nat := 1500

structure Journal where
  logs : List Text
  lastLogCount : Nat
  /-- the text that the control was given -/
  shown : Text
  /-- the handler of the clear button stands between its two parts -/
  clearing : Bool

inductive JournalAction where
  /-- `TunnelService::log` -/
  | log (line : Text)
  /-- `log_fn` of a session -/
  | sessionLog (line : Text)
  /-- `update_logs` -/
  | refresh
  | clear
  | clearShown

def journalInit : Journal := ⟨[], 0, [], false⟩

/-- `logs.join("\\r\\n")`. -/
def joinLines (lines : List Text) : Text := "\r\n".toList.intercalate lines

/-- `TunnelService::log`. -/
def logLine (logs : List Text) (line : Text) : List Text :=
  (if maxLogs ≤ logs.length then logs.drop (logs.length - keptLogs) else logs) ++ [line]

/-- `AppState::update_logs`. -/
def Journal.updateLogs (j : Journal) : Journal :=
  if j.logs.length ≠ j.lastLogCount then
    { j with lastLogCount := j.logs.length, shown := joinLines j.logs }
  else j

def journalStep (j : Journal) : JournalAction → Option Journal
  | .log line => if j.clearing then none else some { j with logs := logLine j.logs line }
  | .sessionLog line => some { j with logs := j.logs ++ [line] }
  | .refresh => if j.clearing then none else some j.updateLogs
  | .clear => if j.clearing then none else some { j with logs := [], clearing := true }
  | .clearShown =>
    if j.clearing then some { j with lastLogCount := 0, shown := [], clearing := false } else none

/-! ## What the journal keeps -/

def linesStep (lines : List Text) : JournalAction → List Text
  | .log line | .sessionLog line => lines ++ [line]
  | .clear => []
  | .refresh | .clearShown => lines

/-- The lines logged since the journal was cleared. -/
def linesSince (acts : List JournalAction) : List Text := acts.foldl linesStep []

def sessionLinesStep (n : Nat) : JournalAction → Nat
  | .sessionLog _ => n + 1
  | .log _ | .clear => 0
  | .refresh | .clearShown => n

/-- How many lines the sessions have logged since `TunnelService::log` was called. -/
def sessionLines (acts : List JournalAction) : Nat := acts.foldl sessionLinesStep 0

variable {acts : List JournalAction} {a : JournalAction} {j j' : Journal} {logs : List Text}

/-- One action more. -/
theorem linesSince_concat (acts : List JournalAction) (a : JournalAction) :
    linesSince (acts ++ [a]) = linesStep (linesSince acts) a := by
  rw [linesSince, List.foldl_append]
  rfl

/-- The same for the lines of the sessions. -/
theorem sessionLines_concat (acts : List JournalAction) (a : JournalAction) :
    sessionLines (acts ++ [a]) = sessionLinesStep (sessionLines acts) a := by
  rw [sessionLines, List.foldl_append]
  rfl

/-- The newest lines, not too few of them and not too many. -/
structure Newest (acts : List JournalAction) (logs : List Text) : Prop where
  suffix : logs <:+ linesSince acts
  enough : logs = linesSince acts ∨ keptLogs ≤ logs.length
  bounded : logs.length ≤ maxLogs + sessionLines acts

/-- `TunnelService::log` drops what is too old, and appends the line. -/
theorem Newest.log (h : Newest acts logs) (line : Text) :
    Newest (acts ++ [.log line]) (logLine logs line) := by
  have hlines : linesSince (acts ++ [.log line]) = linesSince acts ++ [line] :=
    linesSince_concat acts _
  have hsession : sessionLines (acts ++ [.log line]) = 0 := sessionLines_concat acts _
  unfold logLine
  split
  · next hfull =>
    have hkept : (logs.drop (logs.length - keptLogs)).length = keptLogs := by
      rw [List.length_drop]
      unfold maxLogs keptLogs at *
      omega
    refine ⟨?_, .inr ?_, ?_⟩
    · rw [hlines]
      -- what is left of the lines is still the end of them
      exact List.suffix_append_self_iff.mpr ((List.drop_suffix _ _).trans h.suffix)
    · rw [List.length_append, hkept]
      exact Nat.le_add_right _ _
    · rw [List.length_append, hkept, hsession]
      -- the drop makes more room than the line needs
      show 1500 + 1 ≤ 2000 + 0
      decide
  · next hroom =>
    refine ⟨?_, ?_, ?_⟩
    · rw [hlines]
      exact List.suffix_append_self_iff.mpr h.suffix
    · rw [hlines, List.length_append]
      exact h.enough.imp (congrArg (· ++ [line])) fun hle => Nat.le_add_right_of_le hle
    · rw [hsession, List.length_append, List.length_singleton]
      omega

/-- A session only appends. -/
theorem Newest.sessionLog (h : Newest acts logs) (line : Text) :
    Newest (acts ++ [.sessionLog line]) (logs ++ [line]) := by
  have hlines : linesSince (acts ++ [.sessionLog line]) = linesSince acts ++ [line] :=
    linesSince_concat acts _
  have hsession : sessionLines (acts ++ [.sessionLog line]) = sessionLines acts + 1 :=
    sessionLines_concat acts _
  have hbounded := h.bounded
  refine ⟨?_, ?_, ?_⟩
  · rw [hlines]
    exact List.suffix_append_self_iff.mpr h.suffix
  · rw [hlines, List.length_append]
    exact h.enough.imp (congrArg (· ++ [line])) fun hle => Nat.le_add_right_of_le hle
  · rw [hsession, List.length_append, List.length_singleton]
    -- one line more, and one line more allowed
    omega

/-- An empty journal has nothing to keep. -/
theorem Newest.clear : Newest (acts ++ [.clear]) [] := by
  have hlines : linesSince (acts ++ [.clear]) = [] := linesSince_concat acts _
  exact ⟨List.nil_suffix, .inl hlines.symm, Nat.zero_le _⟩

/-- Showing the journal does not change it. -/
theorem Newest.frame (h : Newest acts logs) (hlines : ∀ lines, linesStep lines a = lines)
    (hsession : ∀ n, sessionLinesStep n a = n) : Newest (acts ++ [a]) logs := by
  have hsame : linesSince (acts ++ [a]) = linesSince acts :=
    (linesSince_concat acts a).trans (hlines _)
  refine ⟨hsame ▸ h.suffix, hsame ▸ h.enough, ?_⟩
  rw [sessionLines_concat, hsession]
  exact h.bounded

/-- **Each action keeps the newest lines.** -/
theorem Newest.step (h : Newest acts j.logs) (hstep : journalStep j a = some j') :
    Newest (acts ++ [a]) j'.logs := by
  cases a with
  | log line =>
    simp only [journalStep] at hstep
    split at hstep <;> cases hstep
    exact h.log line
  | sessionLog line =>
    cases hstep
    exact h.sessionLog line
  | refresh =>
    simp only [journalStep] at hstep
    split at hstep <;> cases hstep
    have hlogs : j.updateLogs.logs = j.logs := by
      unfold Journal.updateLogs
      split <;> rfl
    rw [hlogs]
    exact h.frame (fun _ => rfl) fun _ => rfl
  | clear =>
    simp only [journalStep] at hstep
    split at hstep <;> cases hstep
    exact .clear
  | clearShown =>
    simp only [journalStep] at hstep
    split at hstep <;> cases hstep
    exact h.frame (fun _ => rfl) fun _ => rfl

/-- **The journal keeps the newest lines**: all that were logged since it was cleared, or at least
1500 of them; and never more than 2000 and those that the sessions have logged since `start` logged
a line. -/
theorem journal_keeps_newest (hrun : Run journalStep anyStep journalInit acts j) :
    Newest acts j.logs :=
  hrun.history (P := fun acts j => Newest acts j.logs)
    ⟨List.suffix_rfl, .inl rfl, Nat.zero_le _⟩ fun _ _ _ _ _ h _ hst => h.step hst

/-! ## What the window shows -/

def burstStep (n : Option Nat) : JournalAction → Option Nat
  | .log _ | .sessionLog _ => n.map (· + 1)
  | .refresh => some 0
  | .clear => none
  | .clearShown => n

/-- How many lines have been logged since the window was refreshed. They are not counted before the
first refresh and after the journal has been cleared, when the window shows no lines. -/
def burst (acts : List JournalAction) : Option Nat := acts.foldl burstStep none

/-- One action more. -/
theorem burst_concat (acts : List JournalAction) (a : JournalAction) :
    burst (acts ++ [a]) = burstStep (burst acts) a := by
  rw [burst, List.foldl_append]
  rfl

/-- Fewer than 500 lines have been logged at any time since the refresh before. -/
def Quiet (acts : List JournalAction) : Prop :=
  ∀ before, before <+: acts → ∀ n, burst before = some n → n < 500

/-- What is quiet was quiet before. -/
theorem Quiet.of_prefix {before : List JournalAction} (h : Quiet acts) (hpre : before <+: acts) :
    Quiet before :=
  fun first hfirst => h first (hfirst.trans hpre)

/-- What has become of the lines `seen` after `n` more: they are still there with `n` lines behind
them, or lines have been dropped, and then many at once. -/
def Grown (seen logs : List Text) (n : Nat) : Prop :=
  (∃ new, logs = seen ++ new ∧ new.length = n) ∨ logs.length + 500 ≤ seen.length + n

/-- Nothing has been logged. -/
theorem Grown.refl (logs : List Text) : Grown logs logs 0 := .inl ⟨[], by simp, rfl⟩

/-- A session logs a line. -/
theorem Grown.append {seen : List Text} {n : Nat} (h : Grown seen logs n) (line : Text) :
    Grown seen (logs ++ [line]) (n + 1) := by
  rcases h with ⟨new, rfl, rfl⟩ | hdropped
  · exact .inl ⟨new ++ [line], by simp, by simp⟩
  · -- lines have gone before, and this one does not bring them back
    refine .inr ?_
    rw [List.length_append, List.length_singleton]
    omega

/-- `TunnelService::log` does, and may make room for it. -/
theorem Grown.log {seen : List Text} {n : Nat} (h : Grown seen logs n) (line : Text) :
    Grown seen (logLine logs line) (n + 1) := by
  unfold logLine
  split
  · next hfull =>
    -- at least 500 lines go, whichever case we come from
    have hlength : logs.length ≤ seen.length + n := by
      rcases h with ⟨new, rfl, rfl⟩ | hdropped
      · exact Nat.le_of_eq List.length_append
      · omega
    refine .inr ?_
    rw [List.length_append, List.length_drop, List.length_singleton]
    unfold maxLogs keptLogs at *
    omega
  · exact h.append line

/-- With fewer than 500 new lines, the same length means the same lines. -/
theorem Grown.eq_of_length {seen : List Text} {n : Nat} (h : Grown seen logs n) (hn : n < 500)
    (hlength : logs.length = seen.length) : logs = seen := by
  rcases h with ⟨new, rfl, rfl⟩ | hdropped
  · rw [List.length_append, Nat.add_eq_left, List.length_eq_zero_iff] at hlength
    rw [hlength, List.append_nil]
  · -- 500 lines would have had to be logged to make up for those dropped
    omega

/-- Unless the journal is being cleared, the window shows no lines, or those that were in the
journal when the count was taken. -/
def InView (acts : List JournalAction) (j : Journal) : Prop :=
  j.clearing = false → ∃ seen, j.shown = joinLines seen ∧ j.lastLogCount = seen.length
    ∧ (seen = [] ∨ ∃ n, burst acts = some n ∧ Grown seen j.logs n)

/-- A refresh brings the window up to date. -/
theorem InView.refresh (h : InView acts j) (hquiet : Quiet acts) (hopen : j.clearing = false) :
    j.updateLogs.shown = joinLines j.logs ∧ j.updateLogs.lastLogCount = j.logs.length
      ∧ j.updateLogs.logs = j.logs := by
  obtain ⟨seen, hshown, hlast, hseen⟩ := h hopen
  unfold Journal.updateLogs
  split
  · exact ⟨rfl, rfl, rfl⟩
  · next hsame =>
    -- the count has not changed, so the lines have not
    have hlength : j.logs.length = seen.length := (not_not.mp hsame).trans hlast
    have hlogs : j.logs = seen := by
      rcases hseen with rfl | ⟨n, hn, hgrown⟩
      · exact List.length_eq_zero_iff.mp hlength
      · exact hgrown.eq_of_length (hquiet acts List.prefix_rfl n hn) hlength
    exact ⟨by rw [hshown, hlogs], not_not.mp hsame |>.symm, rfl⟩

/-- **Each action keeps the window in view of the journal.** -/
theorem InView.step (h : InView acts j) (hquiet : Quiet acts) (hstep : journalStep j a = some j') :
    InView (acts ++ [a]) j' := by
  have hcount := burst_concat acts a
  intro hopen
  cases a with
  | log line =>
    simp only [journalStep] at hstep
    split at hstep <;> cases hstep
    obtain ⟨seen, hshown, hlast, hseen⟩ := h hopen
    refine ⟨seen, hshown, hlast, hseen.imp_right ?_⟩
    rintro ⟨n, hn, hgrown⟩
    exact ⟨n + 1, by rw [hcount, hn]; rfl, hgrown.log line⟩
  | sessionLog line =>
    cases hstep
    obtain ⟨seen, hshown, hlast, hseen⟩ := h hopen
    refine ⟨seen, hshown, hlast, hseen.imp_right ?_⟩
    rintro ⟨n, hn, hgrown⟩
    exact ⟨n + 1, by rw [hcount, hn]; rfl, hgrown.append line⟩
  | refresh =>
    simp only [journalStep] at hstep
    split at hstep <;> cases hstep
    next hnot =>
    obtain ⟨hshown, hlast, hlogs⟩ := h.refresh hquiet (Bool.eq_false_iff.mpr hnot)
    refine ⟨j.logs, hshown, hlast, .inr ⟨0, hcount, ?_⟩⟩
    rw [hlogs]
    -- from here on the burst is counted again
    exact .refl _
  | clear =>
    -- the window still shows the lines that are gone, and is not refreshed now
    simp only [journalStep] at hstep
    split at hstep <;> cases hstep
    cases hopen
  | clearShown =>
    simp only [journalStep] at hstep
    split at hstep <;> cases hstep
    -- the window is empty, and its count is zero
    exact ⟨[], rfl, rfl, .inl rfl⟩

/-- **The window shows the journal.** If fewer than 500 lines have been logged at any time since the
refresh before, then after a refresh the text is that of the journal. -/
theorem journal_shown (hrun : Run journalStep anyStep journalInit acts j) (hquiet : Quiet acts)
    (hstep : journalStep j .refresh = some j') : j'.shown = joinLines j'.logs := by
  have hview : InView acts j := by
    refine hrun.history (P := fun acts j => Quiet acts → InView acts j) ?_ ?_ hquiet
    · exact fun _ _ => ⟨[], rfl, rfl, .inl rfl⟩
    · intro bs v b w _ hv _ hst hquiet
      -- the induction goes through the shorter runs, which are quiet as well
      have hbefore := hquiet.of_prefix (List.prefix_append bs [b])
      exact (hv hbefore).step hbefore hst
  simp only [journalStep] at hstep
  split at hstep <;> cases hstep
  next hnot =>
  obtain ⟨hshown, -, hlogs⟩ := hview.refresh hquiet (Bool.eq_false_iff.mpr hnot)
  rw [hshown, hlogs]

/-- Each line of a burst is an action of its own. -/
theorem burst_le (acts : List JournalAction) {n : Nat} (h : burst acts = some n) :
    n ≤ acts.length := by
  induction acts using List.reverseRecOn generalizing n with
  | nil => cases h
  | append_singleton acts a ih =>
    rw [burst_concat] at h
    rw [List.length_append, List.length_singleton]
    cases a with
    | log | sessionLog =>
      obtain ⟨m, hm, rfl⟩ := Option.map_eq_some_iff.mp h
      exact Nat.succ_le_succ (ih hm)
    | refresh => cases h; exact Nat.zero_le _
    | clear => cases h
    | clearShown => exact Nat.le_succ_of_le (ih h)

/-- Nothing is dropped while there is room. -/
theorem foldl_logLine (lines : List Text) (hroom : logs.length + lines.length ≤ maxLogs) :
    lines.foldl logLine logs = logs ++ lines := by
  induction lines generalizing logs with
  | nil => exact (List.append_nil logs).symm
  | cons line lines ih =>
    rw [List.length_cons] at hroom
    have hlog : logLine logs line = logs ++ [line] := by
      rw [logLine, if_neg (by omega)]
    rw [List.foldl_cons, hlog, ih, List.append_assoc, List.singleton_append]
    rw [List.length_append, List.length_singleton]
    omega

/-- Why 500 lines are too many: a full journal has as many lines after them as before, and the
window does not see that they are others. -/
theorem journal_stale (hfull : j.logs.length = maxLogs) (hseen : j.lastLogCount = maxLogs)
    {lines : List Text} (hlines : lines.length = 500) :
    lines.foldl logLine j.logs = j.logs.drop 500 ++ lines
      ∧ ({ j with logs := lines.foldl logLine j.logs } : Journal).updateLogs.shown = j.shown := by
  have hlogs : lines.foldl logLine j.logs = j.logs.drop 500 ++ lines := by
    cases lines with
    | nil => cases hlines
    | cons first lines =>
      -- the first one makes the room for the others
      have hfirst : logLine j.logs first = j.logs.drop 500 ++ [first] := by
        rw [logLine, if_pos (Nat.le_of_eq hfull.symm), hfull]
        rfl
      rw [List.foldl_cons, hfirst, foldl_logLine, List.append_assoc, List.singleton_append]
      rw [List.length_append, List.length_drop, List.length_singleton, hfull]
      rw [List.length_cons] at hlines
      unfold maxLogs
      omega
  refine ⟨hlogs, ?_⟩
  have hcount : (lines.foldl logLine j.logs).length = j.lastLogCount := by
    rw [hlogs, List.length_append, List.length_drop, hfull, hseen, hlines]
    rfl
  rw [Journal.updateLogs, if_neg (not_not.mpr hcount)]

/-- A profile is started, the journal is cleared, and the session logs a line before the window is
emptied. -/
def clearedJournal : List JournalAction :=
  [.log "start".toList, .sessionLog "parsed".toList, .refresh, .clear,
    .sessionLog "resolved".toList, .clearShown, .sessionLog "ready".toList]

/-- The two lines that come after the clear are there. -/
theorem journal_keeps_newest_cleared : ∃ j : Journal,
    j.logs = ["resolved".toList, "ready".toList] ∧ Newest clearedJournal j.logs := by
  have hexec : (exec journalStep journalInit clearedJournal).any (fun j =>
      decide (j.logs = ["resolved".toList, "ready".toList])) = true := by decide +kernel
  obtain ⟨j, hrun, hj⟩ := Run.of_exec_any hexec
  exact ⟨j, of_decide_eq_true hj, journal_keeps_newest hrun⟩

/-- And they are shown, one of them having come before the window was emptied. -/
theorem journal_shown_cleared : ∃ j j' : Journal, journalStep j .refresh = some j'
    ∧ j.shown = [] ∧ j'.logs = ["resolved".toList, "ready".toList]
    ∧ j'.shown = joinLines j'.logs := by
  have hexec : (exec journalStep journalInit clearedJournal).any (fun j =>
      decide (j.shown = []) && (journalStep j .refresh).any fun j' =>
        decide (j'.logs = ["resolved".toList, "ready".toList])) = true := by decide +kernel
  obtain ⟨j, hrun, hj⟩ := Run.of_exec_any hexec
  obtain ⟨hempty, hnext⟩ := Bool.and_eq_true_iff.mp hj
  obtain ⟨j', hstep, hlogs⟩ := (Option.any_eq_true _ _).mp hnext
  refine ⟨j, j', hstep, of_decide_eq_true hempty, of_decide_eq_true hlogs, ?_⟩
  refine journal_shown hrun (fun before hbefore n hn => ?_) hstep
  -- a run of seven actions is quiet
  have hlength : before.length ≤ 7 := hbefore.length_le
  have hle := burst_le before hn
  omega

end Phobos
