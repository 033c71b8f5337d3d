import PhobosClient.Service.Sessions

/-!
# PhobosClient — the service at rest

Status and name are written in many places: `Connecting` by `start` and again by the session,
`Connected` by its monitor loop, the terminal values by every exit of the thread. Sessions
overlap when `start` has given up waiting, so the last write to a field may come from any of
them. What survives all of this is that somebody is still going to write: an active status
has an owner that has not published its end, and a name has an owner that has not cleared it
(`Owned`).

**`rest_is_settled`**: with no owner left — the GUI outside `start`, no session thread
running — there is no name, and the status is terminal. No run is excluded.
-/

namespace Phobos

open Threads Steps

/-- The GUI thread is inside `TunnelService::start`. -/
def GuiPc.inStart : GuiPc → Bool
  | check _ | requestStop _ | poll _ _ | clearStop _ | writeName _ | writeConnecting _
  | spawn _ => true
  | _ => false

/-- What a step of the GUI thread writes: the stop signal at most, the name, the status, or the
list of sessions. -/
inductive GuiWrite : World → World → Prop where
  | other {w : World} (hspawn : ∀ p, w.gui ≠ .spawn p) (hwrite : ∀ p, w.gui ≠ .writeConnecting p)
      (stopSignal : Bool) (gui : GuiPc) :
      GuiWrite w ⟨{ w.shared with stopSignal }, gui, w.sessions⟩
  | name {m : Shared} {p : PhobosProfile} {ss : List Session} :
      GuiWrite ⟨m, .writeName p, ss⟩
        ⟨{ m with activeProfileName := some p.clientName }, .writeConnecting p, ss⟩
  | connecting {m : Shared} {p : PhobosProfile} {ss : List Session} :
      GuiWrite ⟨m, .writeConnecting p, ss⟩ ⟨{ m with status := .connecting }, .spawn p, ss⟩
  | spawn {m : Shared} {p : PhobosProfile} {ss : List Session} :
      GuiWrite ⟨m, .spawn p, ss⟩ ⟨m, .idle, ss ++ [⟨p, .parseConfig⟩]⟩

/-- Every step of the GUI thread is one of these writes. -/
theorem guiStep_write {w w' : World} {g : GuiAction} (hstep : guiStep w g = some w') :
    GuiWrite w w' := by
  have heffect := guiStep_effect hstep
  obtain ⟨m, gui, ss⟩ := w
  cases gui with
  | writeName p =>
    cases g with
    | go => cases hstep; exact .name
    | _ => cases hstep
  | writeConnecting p =>
    cases g with
    | go => cases hstep; exact .connecting
    | _ => cases hstep
  | spawn p =>
    cases g with
    | go => cases hstep; exact .spawn
    | _ => cases hstep
  | clearStop p =>
    cases g with
    | go => cases hstep; exact .other (by simp) (by simp) false _
    | _ => cases hstep
  | _ =>
    cases heffect with
    | stay | pass | giveUp => exact .other (by simp) (by simp) m.stopSignal _
    | stop => exact .other (by simp) (by simp) true _

/-- Whoever has made the status active or has written the name will write the field again. -/
structure Owned (w : World) : Prop where
  status : w.shared.status.isActive = true →
    (∃ p, w.gui = .spawn p) ∨ ∃ s ∈ w.sessions, s.pc.published = false
  name : w.shared.activeProfileName ≠ none →
    (∃ p, w.gui = .writeConnecting p ∨ w.gui = .spawn p) ∨
      ∃ s ∈ w.sessions, s.pc.cleared = false

variable {w w' : World} {a : ServiceAction}

namespace Owned

/-- Nothing has been written. -/
theorem init (table : RouteTable) : Owned (serviceInit table) where
  status := fun h => by cases h
  name := fun h => absurd rfl h

/-- `start` owns what it writes until it hands it to the session that it spawns. -/
theorem gui_step {g : GuiAction} (hinv : Owned w) (hstep : guiStep w g = some w') :
    Owned w' := by
  cases guiStep_write hstep with
  | other hspawn hwrite =>
    -- outside the two last accesses of `start` the sessions own the fields
    exact ⟨fun h => (hinv.status h).elim (fun ⟨p, hp⟩ => absurd hp (hspawn p)) .inr,
      fun h => (hinv.name h).elim (fun ⟨p, hp⟩ => (hp.elim (hwrite p) (hspawn p)).elim) .inr⟩
  | @name _ p _ =>
    -- the name is owned by `start` until the session is spawned
    exact ⟨fun h => (hinv.status h).elim (fun ⟨_, hp⟩ => by cases hp) .inr,
      fun _ => .inl ⟨p, .inl rfl⟩⟩
  | @connecting _ p _ =>
    -- and so is the status
    exact ⟨fun _ => .inl ⟨p, rfl⟩, fun _ => .inl ⟨p, .inr rfl⟩⟩
  | @spawn _ p ss =>
    -- the new session takes over both fields
    have hnew : (⟨p, .parseConfig⟩ : Session) ∈ ss ++ [⟨p, .parseConfig⟩] :=
      List.mem_append_right _ (List.mem_singleton_self _)
    exact ⟨fun _ => .inr ⟨_, hnew, rfl⟩, fun _ => .inr ⟨_, hnew, rfl⟩⟩

/-- A session that writes a field for the last time leaves it settled. -/
theorem session_step {i : Nat} {b : SessionAction} {m' : Shared} {ss' : List Session}
    (hinv : Owned w) (hstep : stepAt Session.step w.shared w.sessions i b = some (m', ss')) :
    Owned ⟨m', w.gui, ss'⟩ := by
  obtain ⟨t, t', hget, hst, rfl⟩ := stepAt_cases hstep
  -- the effect says what the step writes: status, name, or neither
  have heffect := (Session.step_effect hst).2
  have hlt := (List.getElem?_eq_some_iff.mp hget).1
  have ht' : t' ∈ w.sessions.set i t' := List.mem_of_getElem? (List.getElem?_set_self hlt)
  constructor
  · intro hactive
    have hactive : m'.status.isActive = true := hactive
    -- while the status is active nobody publishes
    have hkeep : ∀ u u' : Session, u.pc.published = false →
        Session.step w.shared u b = some (m', u') → u'.pc.published = false := by
      intro u u' hu hust
      rw [← Bool.not_eq_true]
      intro hpub
      rcases (Session.step_effect hust).2.inactive hpub with h | h
      · rw [hu] at h; cases h
      · rw [hactive] at h; cases h
    cases hpub : t.pc.published with
    | false => exact .inr ⟨t', ht', hkeep t t' hpub hst⟩
    | true =>
      -- a session that has published leaves the status to its owner
      rw [(heffect.published hpub).2.1] at hactive
      exact (hinv.status hactive).imp id fun hex => stepAt_exists hstep hex hkeep
  · intro hname
    have hname : m'.activeProfileName ≠ none := hname
    -- while there is a name nobody has just cleared it
    have hkeep : ∀ u u' : Session, u.pc.cleared = false →
        Session.step w.shared u b = some (m', u') → u'.pc.cleared = false := by
      intro u u' hu hust
      rw [← Bool.not_eq_true]
      intro hcleared
      rcases (Session.step_effect hust).2.cleared hcleared with h | h
      · rw [hu] at h; cases h
      · exact hname h
    cases hcleared : t.pc.cleared with
    | false => exact .inr ⟨t', ht', hkeep t t' hcleared hst⟩
    | true =>
      rcases heffect.name with hsame | ⟨rfl, dev, hdev⟩
      · rw [hsame] at hname
        exact (hinv.name hname).imp id fun hex => stepAt_exists hstep hex hkeep
      · rw [hdev] at hcleared
        cases hcleared

/-- Both together. -/
theorem step (hinv : Owned w) (hstep : serviceStep w a = some w') : Owned w' := by
  rcases serviceStep_cases hstep with ⟨g, rfl, -⟩ | ⟨i, b, m', ss', rfl, hst, rfl⟩
  · exact hinv.gui_step hstep
  · exact hinv.session_step hst

end Owned

/-- **The service at rest.** Over all interleavings and outcomes, overlapping sessions
included: outside `start` and with every session thread at its end, no profile is named and
the status is `Disconnected` or an error. -/
theorem rest_is_settled (table : RouteTable) {as : List ServiceAction}
    (hrun : Run serviceStep anyStep (serviceInit table) as w) (hgui : w.gui.inStart = false)
    (hended : ∀ s ∈ w.sessions, s.pc = .ended) :
    w.shared.activeProfileName = none
      ∧ (w.shared.status = .disconnected ∨ ∃ e, w.shared.status = .error e) := by
  have howned : Owned w := hrun.invariant (.init table) fun v b u hinv _ hstep => hinv.step hstep
  constructor
  · by_contra hname
    -- an owner of the name is inside `start`, or has not cleared it
    rcases howned.name hname with ⟨p, hp | hp⟩ | ⟨s, hs, hcleared⟩
    · rw [hp] at hgui; cases hgui
    · rw [hp] at hgui; cases hgui
    · rw [hended s hs] at hcleared; cases hcleared
  · have hinactive : w.shared.status.isActive = false := by
      rw [← Bool.not_eq_true]
      intro hactive
      -- and one of the status is about to spawn, or has not published
      rcases howned.status hactive with ⟨p, hp⟩ | ⟨s, hs, hpub⟩
      · rw [hp] at hgui; cases hgui
      · rw [hended s hs] at hpub; cases hpub
    cases hstatus : w.shared.status with
    | disconnected => exact .inl rfl
    | error e => exact .inr ⟨e, rfl⟩
    | connecting | connected => rw [hstatus] at hinactive; cases hinactive

/-- Two sessions that overlap, since `start` gave up waiting for the first; the newer one ends
first. -/
def overlapping : List ServiceAction :=
  gaveUp ++ [.gui .go] ++
    [.configParsed (.error "Missing PrivateKey in [Interface]"), .go, .go, .go].map (.session 1) ++
    [.targetResolved (.ok none), .go, .go, .go].map (.session 0)

/-- Of two sessions that overlap, the older one has the last word. -/
theorem rest_is_settled_overlapping :
    ∃ w : World, w.sessions.length = 2 ∧ w.shared.activeProfileName = none
      ∧ (w.shared.status = .disconnected ∨ ∃ e, w.shared.status = .error e) := by
  have hexec : (exec serviceStep (serviceInit ∅) overlapping).any (fun w =>
      decide (w.sessions.length = 2) && !w.gui.inStart
        && w.sessions.all fun s => match s.pc with | .ended => true | _ => false) = true := by
    decide +kernel
  obtain ⟨w, hrun, hw⟩ := Run.of_exec_any hexec
  simp only [Bool.and_eq_true, decide_eq_true_eq, Bool.not_eq_true', List.all_eq_true] at hw
  obtain ⟨⟨hlen, hgui⟩, hended⟩ := hw
  refine ⟨w, hlen, rest_is_settled ∅ hrun hgui fun s hs => ?_⟩
  have h := hended s hs
  split at h
  · next hpc => exact hpc
  · cases h

end Phobos
