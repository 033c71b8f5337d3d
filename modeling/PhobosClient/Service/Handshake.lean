import PhobosClient.Service.Model

/-!
# PhobosClient — the restart handshake

Before `start` spawns a session it stops the one before and waits until it reads an inactive
status. If it never gives up waiting, the wait works: **`SingleSession.step`**. While a
session has not published its end the status is active, so an inactive status means that
every session has published, and until `start` returns no new one appears.

The invariant is stated for any property `Q` of threads that implies "has published its end",
is kept by every step, and holds of every session when `start` ends its wait: "published"
itself, or the stronger "over" that also asks for the routes.
-/

namespace Phobos

open Threads

/-- At most one session, the newest, lacks `Q`. -/
structure SingleSession (Q : SessionPc → Prop) (w : World) : Prop where
  older : AllButLast (fun s => Q s.pc) w.sessions
  active : ∀ s ∈ w.sessions, s.pc.published = false → w.shared.status.isActive = true
  settled : w.gui.pastWait = true → ∀ s ∈ w.sessions, Q s.pc
  armed : ∀ p, w.gui = .spawn p → w.shared.status.isActive = true

/-- What makes a property of threads usable in the invariant. -/
structure Stable (Q : SessionPc → Prop) : Prop where
  published : ∀ pc, Q pc → pc.published = true
  step : ∀ {m m' pc pc' a}, SessionPc.Effect m pc a m' pc' → Q pc → Q pc'

variable {Q : SessionPc → Prop} {w w' : World}

namespace SingleSession

/-- No session, and a GUI that is idle. -/
theorem init (table : RouteTable) : SingleSession Q (serviceInit table) where
  older := by intro i s hs; cases hs
  active := by intro s hs; cases hs
  settled := by intro h; cases h
  armed := by intro p h; cases h

/-- An inactive status means that every session has published its end. -/
theorem all_published (hinv : SingleSession Q w) (hstatus : w.shared.status.isActive = false) :
    ∀ s ∈ w.sessions, s.pc.published = true := by
  intro s hs
  cases hpub : s.pc.published with
  | true => rfl
  | false =>
    have hactive := hinv.active s hs hpub
    rw [hstatus] at hactive
    cases hactive

/-- The GUI ends its wait when all sessions have published, and spawns one more only after that. -/
theorem gui_step {a : GuiAction} (hinv : SingleSession Q w)
    (heffect : GuiEffect w a w') (hwait : givesUp w (.gui a) = false)
    (hpass : passes w (.gui a) = true → (∀ s ∈ w.sessions, s.pc.published = true) →
      ∀ s ∈ w.sessions, Q s.pc) : SingleSession Q w' := by
  -- a GUI thread that is not past the wait promises nothing about the status
  have hstay : ∀ {m : Shared} {gui : GuiPc}, gui.pastWait = false →
      (∀ s ∈ w.sessions, s.pc.published = false → m.status.isActive = true) →
      SingleSession Q ⟨m, gui, w.sessions⟩ := by
    intro m gui hgui hactive
    refine ⟨hinv.older, hactive, fun h => ?_, fun p h => absurd h (GuiPc.ne_spawn hgui p)⟩
    rw [show gui.pastWait = true from h] at hgui
    cases hgui
  cases heffect with
  | stay hgui => exact hstay hgui hinv.active
  | stop hgui => exact hstay hgui hinv.active
  | pass hp hstatus =>
    refine ⟨hinv.older, hinv.active, fun _ => hpass hp (hinv.all_published hstatus), ?_⟩
    intro p h
    cases h
  | giveUp hgiveUp => rw [hwait] at hgiveUp; cases hgiveUp
  | clearStop | writeName =>
    refine ⟨hinv.older, hinv.active, fun _ => hinv.settled rfl, ?_⟩
    intro p h
    cases h
  | writeConnecting =>
    -- `Connecting` is active, so whoever is still running has an active status
    exact ⟨hinv.older, fun _ _ _ => rfl, fun _ => hinv.settled rfl, fun _ _ => rfl⟩
  | spawn =>
    -- the new session may lack `Q`; all before it have it
    refine ⟨.snoc (hinv.settled rfl) _, fun _ _ _ => hinv.armed _ rfl, ?_, ?_⟩
    · intro h
      cases h
    · intro p h
      cases h

/-- The status after a session's step, seen from a session that has not published: the mover
publishes only its own end, and the others have published theirs. -/
theorem session_active (hQ : Stable Q) {i : Nat} {t t' : Session} {b : SessionAction}
    {m' : Shared} (hinv : SingleSession Q w) (hget : w.sessions[i]? = some t)
    (heffect : SessionPc.Effect w.shared t.pc b m' t'.pc) :
    ∀ s ∈ w.sessions.set i t', s.pc.published = false → m'.status.isActive = true := by
  intro s hs hpub
  obtain ⟨j, hj⟩ := List.mem_iff_getElem?.mp hs
  by_cases hij : i = j
  · -- the mover itself has not published
    subst hij
    have hlt := (List.getElem?_eq_some_iff.mp hget).1
    rw [List.getElem?_set_self hlt] at hj
    cases hj
    exact heffect.active (hinv.active t (List.mem_of_getElem? hget)) hpub
  · -- another session has not published, so the mover had
    rw [List.getElem?_set_ne hij] at hj
    have hbefore := hinv.active s (List.mem_of_getElem? hj) hpub
    cases htpub : t.pc.published with
    | true => rw [(heffect.published htpub).2.1]; exact hbefore
    | false =>
      refine absurd (hinv.older.unique hget hj ?_ ?_) hij
      · intro hq
        rw [hQ.published _ hq] at htpub
        cases htpub
      · intro hq
        rw [hQ.published _ hq] at hpub
        cases hpub

/-- Only a session that publishes its own end makes the status inactive. -/
theorem session_step (hQ : Stable Q) {i : Nat} {b : SessionAction} {m' : Shared}
    {ss' : List Session} (hinv : SingleSession Q w)
    (hstep : stepAt Session.step w.shared w.sessions i b = some (m', ss')) :
    SingleSession Q ⟨m', w.gui, ss'⟩ := by
  have hkeep : ∀ t t', Q t.pc → Session.step w.shared t b = some (m', t') → Q t'.pc :=
    fun t t' ht hst => hQ.step (Session.step_effect hst).2 ht
  refine ⟨stepAt_allButLast hstep hinv.older hkeep, ?_,
    fun h => stepAt_forall hstep (hinv.settled h) hkeep, ?_⟩
  · obtain ⟨t, t', hget, hst, rfl⟩ := stepAt_cases hstep
    exact hinv.session_active hQ hget (Session.step_effect hst).2
  · -- `start` is about to spawn: all sessions have published, so the status stays
    intro p hspawn
    obtain ⟨t, t', hget, hst, rfl⟩ := stepAt_cases hstep
    have ht := hinv.settled (by rw [hspawn]; rfl) t (List.mem_of_getElem? hget)
    rw [((Session.step_effect hst).2.published (hQ.published _ ht)).2.1]
    exact hinv.armed p hspawn

/-- **The wait works**, as long as `start` does not give up and an ended wait finds `Q`. -/
theorem step (hQ : Stable Q) {a : ServiceAction} (hinv : SingleSession Q w)
    (hwait : givesUp w a = false)
    (hpass : passes w a = true → (∀ s ∈ w.sessions, s.pc.published = true) →
      ∀ s ∈ w.sessions, Q s.pc)
    (hstep : serviceStep w a = some w') : SingleSession Q w' := by
  rcases serviceStep_cases hstep with ⟨g, rfl, heffect⟩ | ⟨i, b, m', ss', rfl, hst, rfl⟩
  · exact hinv.gui_step heffect hwait hpass
  · exact hinv.session_step hQ hst

end SingleSession

end Phobos
