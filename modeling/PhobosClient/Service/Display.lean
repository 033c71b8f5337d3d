import PhobosClient.Service.Rest

/-!
# PhobosClient — what the window says of the service (`src/gui.rs`)

`update_details` fills the window in for the selected profile. Three of its texts are decided by
the service: the status, the button and the title of the group; the others show the parsed
configuration and the statistics, and are left out. Name and status are read under two locks, one
after the other.

The status text has a case for errors, under the test that the name in the service is that of the
profile. A session that fails publishes its error and then clears the name, so when its thread has
ended the test fails and the profile is shown as disconnected: **`error_never_shown`**. The name
stays away since only `start` sets it, and what `start` sets belongs to the newest session
(`NewestNamed`).
-/

namespace Phobos

open Threads Steps

/-- The texts of the window that the service decides. -/
structure Details where
  interfaceTitle : String
  status : String
  toggle : String

def disconnectedText : String := "○ Отключен"

def TunnelStatus.text : TunnelStatus → String
  | .connected => "● Подключен"
  | .connecting => "◌ Подключение..."
  | .error e => e
  | .disconnected => disconnectedText

/-- `AppState::update_details`. -/
def updateDetails (profiles : List PhobosProfile) (selectedIndex : Option Nat)
    (activeProfileName : Option Text) (currentStatus : TunnelStatus) : Details :=
  match selectedIndex.bind fun idx => profiles[idx]? with
  | some profile =>
    let isActive := activeProfileName == some profile.clientName
    { interfaceTitle := s!"Интерфейс: {String.ofList profile.clientName}"
      status := if isActive then currentStatus.text else disconnectedText
      toggle := if isActive && currentStatus != .disconnected then "Отключить" else "Подключить" }
  | none => ⟨"Интерфейс: (нет выбранного)", "Нет активного туннеля", "Подключить"⟩

/-- Without a name in the service every profile is shown as disconnected. -/
theorem updateDetails_unnamed {profiles : List PhobosProfile} {idx : Nat} {profile : PhobosProfile}
    (hselected : profiles[idx]? = some profile) (currentStatus : TunnelStatus) :
    (updateDetails profiles (some idx) none currentStatus).status = disconnectedText := by
  simp only [updateDetails, Option.bind_some, hselected]
  rfl

/-! ## Whose name it is -/

/-- A name is in the hands of `start`, or of the newest session, which will clear it. -/
def NewestNamed (w : World) : Prop :=
  w.shared.activeProfileName ≠ none →
    (∃ p, w.gui = .writeConnecting p ∨ w.gui = .spawn p) ∨
      ∃ s, w.sessions.getLast? = some s ∧ s.pc.cleared = false

variable {w w' : World} {a : ServiceAction}

namespace NewestNamed

/-- There is no name. -/
theorem init (table : RouteTable) : NewestNamed (serviceInit table) := fun h => absurd rfl h

/-- The name is in the hands of `start` until it spawns the session. -/
theorem gui_step {g : GuiAction} (hinv : NewestNamed w) (hstep : guiStep w g = some w') :
    NewestNamed w' := by
  cases guiStep_write hstep with
  | other hspawn hwrite =>
    -- neither the name nor the list of sessions changes
    exact fun h => (hinv h).elim (fun ⟨p, hp⟩ => (hp.elim (hwrite p) (hspawn p)).elim) .inr
  | @name _ p _ => exact fun _ => .inl ⟨p, .inl rfl⟩
  | @connecting _ p _ => exact fun _ => .inl ⟨p, .inr rfl⟩
  | @spawn _ p _ =>
    -- the new session is the newest one and takes over the name
    exact fun _ => .inr ⟨⟨p, .parseConfig⟩, List.getLast?_concat, rfl⟩

/-- Whichever session moves, a name that is still there is the newest one's. -/
theorem session_step {i : Nat} {b : SessionAction} {m' : Shared} {ss' : List Session}
    (hinv : NewestNamed w)
    (hstep : stepAt Session.step w.shared w.sessions i b = some (m', ss')) :
    NewestNamed ⟨m', w.gui, ss'⟩ := by
  intro hname
  have hname : m'.activeProfileName ≠ none := hname
  obtain ⟨t, t', -, hst, -⟩ := stepAt_cases hstep
  have hsame := (Session.step_effect hst).2.name_left hname
  rcases hinv (hsame ▸ hname) with hstart | ⟨s, hlast, hcleared⟩
  · exact .inl hstart
  · -- the newest session has not cleared a name that is still there
    obtain ⟨s', hlast', rfl | hmove⟩ := stepAt_getLast? hstep hlast
    · exact .inr ⟨s', hlast', hcleared⟩
    · refine .inr ⟨s', hlast', ?_⟩
      rw [← Bool.not_eq_true]
      intro hcleared'
      rcases (Session.step_effect hmove).2.cleared hcleared' with h | h
      · rw [hcleared] at h; cases h
      · exact hname h

/-- Both together. -/
theorem step (hinv : NewestNamed w) (hstep : serviceStep w a = some w') : NewestNamed w' := by
  rcases serviceStep_cases hstep with ⟨g, rfl, -⟩ | ⟨i, b, m', ss', rfl, hst, rfl⟩
  · exact hinv.gui_step hstep
  · exact hinv.session_step hst

end NewestNamed

/-! ## A session that fails -/

/-- A run in which a session for the profile, the last one to be started, has come to publish the
error `e` and has ended. -/
structure FailedRun (table : RouteTable) (profile : PhobosProfile) (e : String) (w : World) :
    Prop where
  run : ∃ bs u i dev cs, Run serviceStep anyStep (serviceInit table) bs u
    ∧ u.sessions[i]? = some ⟨profile, .publishError e dev⟩
    ∧ Run serviceStep anyStep u (.session i .go :: cs) w ∧ w.sessions.length = i + 1
  noStart : w.gui.inStart = false
  ended : w.sessions.getLast? = some ⟨profile, .ended⟩

/-- After the failure nobody is left to have a name. -/
theorem FailedRun.activeProfileName {table : RouteTable} {profile : PhobosProfile} {e : String}
    (h : FailedRun table profile e w) : w.shared.activeProfileName = none := by
  obtain ⟨bs, u, i, dev, cs, hbefore, -, hafter, -⟩ := h.run
  have hinv : NewestNamed w := (hbefore.trans hafter).invariant (.init table)
    fun v b x hv _ hstep => hv.step hstep
  by_contra hname
  have hnot := h.noStart
  -- `start` is not at work, and the newest session has cleared the name
  rcases hinv hname with ⟨p, hp | hp⟩ | ⟨s, hlast, hcleared⟩
  · rw [hp] at hnot; cases hnot
  · rw [hp] at hnot; cases hnot
  · rw [h.ended] at hlast
    cases hlast
    cases hcleared

/-- **The error of a failed session is never shown.** Whatever the error and the exit, once the
thread has ended and nothing else has been started, the status text is not the error, or the error
reads as the text for a disconnected tunnel. -/
theorem error_never_shown (table : RouteTable) {profile : PhobosProfile} {e : String}
    (hfailed : FailedRun table profile e w) {profiles : List PhobosProfile} {idx : Nat}
    (hselected : profiles[idx]? = some profile) (currentStatus : TunnelStatus) :
    let shown := (updateDetails profiles (some idx) w.shared.activeProfileName currentStatus).status
    ¬ (shown = e ∧ shown ≠ disconnectedText) := by
  rintro shown ⟨-, hother⟩
  -- the text is the one for a disconnected tunnel
  refine hother ?_
  show (updateDetails _ _ w.shared.activeProfileName _).status = _
  rw [hfailed.activeProfileName]
  exact updateDetails_unnamed hselected currentStatus

/-- The text of a configuration that does not parse. -/
def missingKey : String := "Missing PrivateKey in [Interface]"

/-- A session that fails at its first step. -/
theorem failedRun_missingKey : ∃ w, FailedRun ∅ office missingKey w
    ∧ w.shared.activeProfileName = none ∧ w.shared.status = .error missingKey := by
  have hbefore : exec serviceStep (serviceInit ∅)
      (startNow office ++ [.session 0 (.configParsed (.error missingKey))]) = some
        ⟨⟨.connecting, some office.clientName, false, ⟨∅, []⟩⟩, .idle,
          [⟨office, .publishError missingKey none⟩]⟩ := rfl
  have hafter : exec serviceStep
      ⟨⟨.connecting, some office.clientName, false, ⟨∅, []⟩⟩, .idle,
        [⟨office, .publishError missingKey none⟩]⟩
      [.session 0 .go, .session 0 .go, .session 0 .go] = some
        ⟨⟨.error missingKey, none, false, ⟨∅, []⟩⟩, .idle, [⟨office, .ended⟩]⟩ := rfl
  refine ⟨_, ⟨⟨_, _, 0, none, _, (Run.of_execIf hbefore).mono fun _ _ _ => trivial, rfl,
    (Run.of_execIf hafter).mono fun _ _ _ => trivial, rfl⟩, rfl, rfl⟩, rfl, rfl⟩

/-- The profile `office` has failed for want of a key, and is the second in the list. -/
theorem error_never_shown_missingKey : ∃ w, FailedRun ∅ office missingKey w ∧
    ¬ ((updateDetails [home, office] (some 1) w.shared.activeProfileName w.shared.status).status
        = missingKey
      ∧ (updateDetails [home, office] (some 1) w.shared.activeProfileName w.shared.status).status
        ≠ disconnectedText) := by
  obtain ⟨w, hfailed, -⟩ := failedRun_missingKey
  exact ⟨w, hfailed, error_never_shown ∅ hfailed rfl w.shared.status⟩

/-- The status is the error, and the window says that the tunnel is disconnected. -/
theorem missingKey_shown_disconnected : ∃ w, FailedRun ∅ office missingKey w
    ∧ w.shared.status = .error missingKey
    ∧ (updateDetails [office] (some 0) w.shared.activeProfileName w.shared.status).status
      ≠ missingKey := by
  obtain ⟨w, hfailed, hname, hstatus⟩ := failedRun_missingKey
  refine ⟨w, hfailed, hstatus, ?_⟩
  -- the name is gone, and with it the branch for errors
  rw [hname, updateDetails_unnamed rfl]
  decide

end Phobos
