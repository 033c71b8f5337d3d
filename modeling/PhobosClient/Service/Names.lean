import PhobosClient.Service.Sessions

/-!
# PhobosClient — the active profile name

An ending session publishes its end in two writes, first the status and then the name, and
`start` goes on after the first. So the second may fall after the name `start` writes for the
new session, and erase it.

**`active_name_kept`**: in runs in which `start` does not give up, and writes its name only when
the sessions that have ended have cleared theirs, the name is that of the running session, and the
toggle button pressed on its profile calls `stop`. That no clear is made later follows: while the
name is taken nobody is about to clear it (`Named.cleared`).
-/

namespace Phobos

open Threads Steps

/-- The thread has published its end, and its next step clears the name. -/
def SessionPc.clearing : SessionPc → Bool
  | clearName _ => true
  | _ => false

/-- The step by which `start` writes its name while a session that has published its end is still
to clear the name. -/
def namesEarly (w : World) : ServiceAction → Bool
  | .gui .go => match w.gui with
    | .writeName _ => w.sessions.any fun s => s.pc.clearing
    | _ => false
  | _ => false

/-- The steps after which the name stays with its owner. -/
def keepsName (w : World) (a : ServiceAction) : Bool := !givesUp w a && !namesEarly w a

/-- The name belongs to a `start` in progress or to a session that has not published. -/
def NameTaken (w : World) : Prop :=
  (∃ p, w.gui = .writeConnecting p ∨ w.gui = .spawn p) ∨
    ∃ s ∈ w.sessions, s.pc.published = false

/-- While a session has not published its end the name is that of its profile, and a toggle
on that profile stops it. -/
structure NameKept (w : World) : Prop where
  name : ∀ s ∈ w.sessions, s.pc.published = false →
    w.shared.activeProfileName = some s.profile.clientName
  toggle : ∀ p named w', w.gui = .toggleNamed p named →
    (∃ s ∈ w.sessions, s.pc.published = false ∧ s.profile.clientName = p.clientName) →
    serviceStep w (.gui .go) = some w' → w'.gui = .stop

/-- Who the name belongs to, and that nobody is about to erase it. -/
structure Named (w : World) : Prop where
  session : ∀ s ∈ w.sessions, s.pc.published = false →
    w.shared.activeProfileName = some s.profile.clientName
  start : ∀ p, w.gui = .writeConnecting p ∨ w.gui = .spawn p →
    w.shared.activeProfileName = some p.clientName
  toggle : ∀ p named, w.gui = .toggleNamed p named →
    (∃ s ∈ w.sessions, s.pc.published = false ∧ s.profile.clientName = p.clientName) →
    named = true
  cleared : NameTaken w → ∀ s ∈ w.sessions, s.pc.clearing = false

variable {w w' : World} {a : ServiceAction}

/-- What has been published stays so. -/
theorem SessionPc.published_stable : Stable fun pc => pc.published = true where
  published := fun _ h => h
  step := fun heffect hpub => (heffect.published hpub).1

/-- The clear follows the publication. -/
theorem SessionPc.published_of_clearing {pc : SessionPc} (h : pc.clearing = true) :
    pc.published = true := by
  cases pc with
  | clearName => rfl
  | _ => cases h

/-- The clear follows the publication, and is made once. -/
theorem SessionPc.Effect.clearing {m m' : Shared} {pc pc' : SessionPc} {b : SessionAction}
    (h : Effect m pc b m' pc') (hpub : pc.published = true) : pc'.clearing = false := by
  cases h with
  | clearName | drop | finish => rfl
  | work hno | activate _ hno | socketFailed _ hno => rw [hno] at hpub; cases hpub
  | _ => cases hpub

namespace Named

/-- There is no session, and no name. -/
theorem init (table : RouteTable) : Named (serviceInit table) where
  session := by intro s hs; cases hs
  start := by intro p h; rcases h with h | h <;> cases h
  toggle := by intro p named h; cases h
  cleared := by intro _ s hs; cases hs

/-- Outside of `start`, past its name, only a session can have taken the name. -/
theorem cleared_of_gui {m : Shared} {gui : GuiPc} (hinv : Named w)
    (hgui : ∀ p, gui ≠ .writeConnecting p ∧ gui ≠ .spawn p)
    (htaken : NameTaken ⟨m, gui, w.sessions⟩) : ∀ s ∈ w.sessions, s.pc.clearing = false := by
  rcases htaken with ⟨p, hp | hp⟩ | hsession
  · exact absurd hp (hgui p).1
  · exact absurd hp (hgui p).2
  · exact hinv.cleared (.inr hsession)

/-- `start` takes the name when nobody else has a right to it. -/
theorem gui_step {g : GuiAction} (hsingle : SingleSession (fun pc => pc.published = true) w)
    (hinv : Named w) (heffect : GuiEffect w g w') (hwait : givesUp w (.gui g) = false)
    (hearly : namesEarly w (.gui g) = false) : Named w' := by
  cases heffect with
  | stay hgui htoggle =>
    refine ⟨hinv.session, fun p h => ?_, ?_, hinv.cleared_of_gui fun p => ⟨?_, ?_⟩⟩
    · rcases h with rfl | rfl <;> cases hgui
    · -- `toggle` has just compared the names
      rintro p named h ⟨s, hs, hpub, hname⟩
      rw [htoggle p named h, hinv.session s hs hpub, hname]
      exact beq_self_eq_true _
    · rintro rfl
      cases hgui
    · exact GuiPc.ne_spawn hgui p
  | stop hgui htoggle =>
    refine ⟨hinv.session, fun p h => ?_, fun p named h => absurd h (htoggle p named),
      hinv.cleared_of_gui fun p => ⟨?_, GuiPc.ne_spawn hgui p⟩⟩
    · rcases h with rfl | rfl <;> cases hgui
    · rintro rfl
      cases hgui
  | giveUp hgiveUp => rw [hwait] at hgiveUp; cases hgiveUp
  | pass =>
    refine ⟨hinv.session, fun p h => ?_, (fun p named h => by cases h),
      hinv.cleared_of_gui fun p => ⟨(fun h => by cases h), (fun h => by cases h)⟩⟩
    rcases h with h | h <;> cases h
  | clearStop =>
    refine ⟨hinv.session, fun p h => ?_, (fun p named h => by cases h),
      hinv.cleared_of_gui fun p => ⟨(fun h => by cases h), (fun h => by cases h)⟩⟩
    rcases h with h | h <;> cases h
  | writeName =>
    -- every session has published its end, and by the guard has cleared the name as well
    refine ⟨fun s hs hpub => ?_, fun p h => ?_, (fun p named h => by cases h), fun _ s hs => ?_⟩
    · rw [hsingle.settled rfl s hs] at hpub
      cases hpub
    · rcases h with h | h <;> cases h
      rfl
    · exact Bool.eq_false_iff.mpr (List.any_eq_false.mp hearly s hs)
  | writeConnecting =>
    refine ⟨hinv.session, fun p h => ?_, (fun p named h => by cases h),
      fun _ => hinv.cleared (.inl ⟨_, .inl rfl⟩)⟩
    rcases h with h | h <;> cases h
    exact hinv.start _ (.inl rfl)
  | spawn =>
    -- the new session takes the name over from `start`
    refine ⟨fun s hs hpub => ?_, fun p h => ?_, (fun p named h => by cases h), fun _ s hs => ?_⟩
    · rcases List.mem_append.mp hs with hold | hnew
      · rw [hsingle.settled rfl s hold] at hpub
        cases hpub
      · rw [List.mem_singleton.mp hnew]
        exact hinv.start _ (.inr rfl)
    · rcases h with h | h <;> cases h
    · rcases List.mem_append.mp hs with hold | hnew
      · exact hinv.cleared (.inl ⟨_, .inr rfl⟩) s hold
      · rw [List.mem_singleton.mp hnew]
        rfl

/-- A session that has not published after a step had not published before it. -/
theorem unpublished_before {i : Nat} {b : SessionAction} {m' : Shared} {t t' s : Session}
    (hget : w.sessions[i]? = some t) (hst : Session.step w.shared t b = some (m', t'))
    (hs : s ∈ w.sessions.set i t') (hpub : s.pc.published = false) :
    ∃ u ∈ w.sessions, u.pc.published = false ∧ u.profile = s.profile := by
  rcases List.mem_or_eq_of_mem_set hs with hold | rfl
  · exact ⟨s, hold, hpub, rfl⟩
  · obtain ⟨hprofile, heffect⟩ := Session.step_effect hst
    refine ⟨t, List.mem_of_getElem? hget, ?_, hprofile.symm⟩
    cases htpub : t.pc.published with
    | false => rfl
    | true =>
      rw [(heffect.published htpub).1] at hpub
      cases hpub

/-- A session that publishes its end is the last one that had a right to the name. -/
theorem not_nameTaken_of_publishes {i : Nat} {m' : Shared} {t t' : Session}
    (hsingle : SingleSession (fun pc => pc.published = true) w) (hget : w.sessions[i]? = some t)
    (hbefore : t.pc.published = false) (hafter : t'.pc.published = true) :
    ¬ NameTaken ⟨m', w.gui, w.sessions.set i t'⟩ := by
  have hmem := List.mem_of_getElem? hget
  rintro (⟨p, hp⟩ | ⟨s, hs, hpub⟩)
  · -- past its wait `start` finds that all have published
    have hpast : w.gui.pastWait = true := by
      rcases hp with hp | hp <;> rw [show w.gui = _ from hp] <;> rfl
    rw [hsingle.settled hpast t hmem] at hbefore
    cases hbefore
  · obtain ⟨j, hj⟩ := List.mem_iff_getElem?.mp hs
    by_cases hij : i = j
    · subst hij
      rw [List.getElem?_set_self (List.getElem?_eq_some_iff.mp hget).1] at hj
      cases hj
      rw [hafter] at hpub
      cases hpub
    · rw [List.getElem?_set_ne hij] at hj
      refine hij (hsingle.older.unique hget hj ?_ ?_)
      · rw [hbefore]; exact Bool.false_ne_true
      · rw [hpub]; exact Bool.false_ne_true

/-- A session keeps the name until it has published its end, and clears it when nobody has taken
it. -/
theorem session_step {i : Nat} {b : SessionAction} {m' : Shared} {ss' : List Session}
    (hsingle : SingleSession (fun pc => pc.published = true) w) (hinv : Named w)
    (hstep : stepAt Session.step w.shared w.sessions i b = some (m', ss')) :
    Named ⟨m', w.gui, ss'⟩ := by
  obtain ⟨t, t', hget, hst, rfl⟩ := stepAt_cases hstep
  have hmem := List.mem_of_getElem? hget
  -- whoever has a right to the name after the step had it before
  have htaken : NameTaken ⟨m', w.gui, w.sessions.set i t'⟩ → NameTaken w := by
    rintro (hp | ⟨s, hs, hpub⟩)
    · exact .inl hp
    · obtain ⟨u, hu, hupub, -⟩ := unpublished_before hget hst hs hpub
      exact .inr ⟨u, hu, hupub⟩
  rcases (Session.step_effect hst).2.name with hname | ⟨rfl, dev, hdev⟩
  · refine ⟨fun s hs hpub => ?_, fun p h => ?_, fun p named h => ?_, fun h s hs => ?_⟩
    · -- a running session had the name before, and the step has not touched it
      obtain ⟨u, hu, hupub, hprofile⟩ := unpublished_before hget hst hs hpub
      show m'.activeProfileName = _
      rw [hname, ← hprofile]
      exact hinv.session u hu hupub
    · show m'.activeProfileName = _
      rw [hname]
      exact hinv.start p h
    · rintro ⟨s, hs, hpub, hclient⟩
      obtain ⟨u, hu, hupub, hprofile⟩ := unpublished_before hget hst hs hpub
      exact hinv.toggle p named h ⟨u, hu, hupub, by rw [hprofile, hclient]⟩
    · rcases List.mem_or_eq_of_mem_set hs with hold | rfl
      · exact hinv.cleared (htaken h) s hold
      · rw [← Bool.not_eq_true]
        intro hclearing
        -- only a session that has just published comes to its clear
        cases hpub : t.pc.published with
        | false =>
          exact not_nameTaken_of_publishes hsingle hget hpub
            (SessionPc.published_of_clearing hclearing) h
        | true =>
          rw [(Session.step_effect hst).2.clearing hpub] at hclearing
          cases hclearing
  · -- the name is cleared, so nobody has taken it
    have hclearing : t.pc.clearing = true := by rw [hdev]; rfl
    have hfree : ¬ NameTaken w := by
      intro h
      rw [hinv.cleared h t hmem] at hclearing
      cases hclearing
    refine ⟨fun s hs hpub => ?_, fun p h => ?_, fun p named h => ?_, fun h => ?_⟩
    · exact absurd (htaken (.inr ⟨s, hs, hpub⟩)) hfree
    · exact absurd (.inl ⟨p, h⟩) hfree
    · rintro ⟨s, hs, hpub, -⟩
      exact absurd (htaken (.inr ⟨s, hs, hpub⟩)) hfree
    · exact absurd (htaken h) hfree

/-- Both together. -/
theorem step (hsingle : SingleSession (fun pc => pc.published = true) w) (hinv : Named w)
    (hok : keepsName w a = true) (hstep : serviceStep w a = some w') : Named w' := by
  obtain ⟨hwait, hearly⟩ : givesUp w a = false ∧ namesEarly w a = false := by
    simpa only [keepsName, Bool.and_eq_true, Bool.not_eq_true'] using hok
  rcases serviceStep_cases hstep with ⟨g, rfl, heffect⟩ | ⟨i, b, m', ss', rfl, hst, rfl⟩
  · exact hinv.gui_step hsingle heffect hwait hearly
  · exact hinv.session_step hsingle hst

end Named

/-- A name that is kept is what the toggle button goes by. -/
theorem nameKept_of_run (table : RouteTable) {as : List ServiceAction}
    (hrun : Run serviceStep (fun w a => keepsName w a = true) (serviceInit table) as w) :
    NameKept w := by
  have hinv : SingleSession (fun pc => pc.published = true) w ∧ Named w := by
    refine hrun.invariant
      (P := fun w => SingleSession (fun pc => pc.published = true) w ∧ Named w) ?_ ?_
    · exact ⟨.init table, .init table⟩
    rintro v b u ⟨hsingle, hnamed⟩ hok hstep
    have hwait : givesUp v b = false := by
      simp only [keepsName, Bool.and_eq_true, Bool.not_eq_true'] at hok
      exact hok.1
    exact ⟨hsingle.step SessionPc.published_stable hwait (fun _ hpub => hpub) hstep,
      hnamed.step hsingle hok hstep⟩
  obtain ⟨hsingle, hnamed⟩ := hinv
  refine ⟨hnamed.session, fun p named w' hgui hrunning hstep => ?_⟩
  have hstop := hnamed.toggle p named hgui hrunning
  obtain ⟨s, hs, hpub, -⟩ := hrunning
  have hactive := hsingle.active s hs hpub
  -- the session is active, so the toggle does not take it for disconnected
  have hstatus : (w.shared.status != .disconnected) = true := by
    cases hst : w.shared.status with
    | disconnected => rw [hst] at hactive; cases hactive
    | _ => rfl
  simp only [serviceStep, guiStep, guiGo, hgui, hstop, hstatus] at hstep
  cases hstep
  rfl

/-- From a step that the guard excludes the run can go on so that the name is lost: `start` goes on
to its return, and then the clear is made. -/
theorem exists_not_nameKept (hearly : namesEarly w a = true) :
    ∃ bs w', Run serviceStep (fun w a => !givesUp w a) w (a :: bs) w' ∧ ¬ NameKept w' := by
  obtain ⟨m, gui, ss⟩ := w
  unfold namesEarly at hearly
  split at hearly
  · split at hearly
    · next p hgui =>
      cases hgui
      obtain ⟨⟨profile, pc⟩, hs, hclearing⟩ := List.any_eq_true.mp hearly
      obtain ⟨i, hget⟩ := List.mem_iff_getElem?.mp hs
      have hlt := (List.getElem?_eq_some_iff.mp hget).1
      cases pc with
      | clearName dev =>
        let new : Session := ⟨p, .parseConfig⟩
        let named : Shared :=
          { m with activeProfileName := some p.clientName, status := .connecting }
        -- `start` goes on to its end
        have hstart : Run serviceStep (fun w a => !givesUp w a) ⟨m, .writeName p, ss⟩
            [.gui .go, .gui .go, .gui .go] ⟨named, .idle, ss ++ [new]⟩ :=
          .of_execIf rfl
        -- and the name of the new session is erased
        have hclear : serviceStep ⟨named, .idle, ss ++ [new]⟩ (.session i .go)
            = some ⟨{ named with activeProfileName := none }, .idle,
              (ss ++ [new]).set i ⟨profile, .returning dev⟩⟩ := by
          simp [serviceStep, stepAt, List.getElem?_append_left hlt, hget, Session.step,
            SessionPc.step, SessionPc.goStep]
        have hrun := hstart.snoc rfl hclear
        have hnew : new ∈ (ss ++ [new]).set i ⟨profile, .returning dev⟩ := by
          rw [List.set_append_left _ _ hlt]
          exact List.mem_append_right _ (List.mem_singleton_self _)
        refine ⟨[.gui .go, .gui .go, .session i .go], _, hrun, fun hkept => ?_⟩
        -- which has only just begun
        cases hkept.name _ hnew rfl
      | _ => cases hclearing
    · cases hearly
  · cases hearly

/-- **The name is kept** in every run in which `start` neither gives up waiting nor writes its name
before the session that ended has cleared it; and every step that is excluded by this last condition
can be followed by others, of a `start` that does not give up, after which the name is lost. -/
theorem active_name_kept (table : RouteTable) :
    (∀ as w, Run serviceStep (fun w a => keepsName w a = true) (serviceInit table) as w →
        NameKept w)
      ∧ ∀ as w a, Run serviceStep (fun w a => !givesUp w a) (serviceInit table) as w →
        namesEarly w a = true →
        ∃ bs w', Run serviceStep (fun w a => !givesUp w a) w (a :: bs) w'
          ∧ ¬ NameKept w' :=
  ⟨fun _ _ hrun => nameKept_of_run table hrun, fun _ _ _ _ hearly => exists_not_nameKept hearly⟩

/-- The first session clears the name before `start` goes on. -/
def clearedFirst : List ServiceAction :=
  startNow office ++ untilDevice ++ connectAndStop ++
    .session 0 .go :: List.replicate 5 (.gui .go)

/-- The first session has published an error, and `start` is about to write its name. -/
def namesTooEarly : List ServiceAction :=
  startNow office ++ [.session 0 (.configParsed (.error "Missing PrivateKey in [Interface]")),
    .session 0 .go] ++ (startNow home).take 3

/-- The second session of a run has its name; in another run the name is written before the clear,
and is lost. -/
theorem active_name_kept_restarted :
    (∃ w, (w.sessions.length = 2 ∧ ∃ s ∈ w.sessions, s.pc.published = false) ∧ NameKept w)
      ∧ ∃ w bs w', namesEarly w (.gui .go) = true
        ∧ Run serviceStep (fun w a => !givesUp w a) w (.gui .go :: bs) w' ∧ ¬ NameKept w' := by
  have hfirst : (execIf serviceStep keepsName (serviceInit ∅) clearedFirst).any (fun w =>
      decide (w.sessions.length = 2 ∧ ∃ s ∈ w.sessions, s.pc.published = false)) = true := by
    decide +kernel
  have hearly : (execIf serviceStep (fun w a => !givesUp w a) (serviceInit ∅) namesTooEarly).any
      (fun w => namesEarly w (.gui .go)) = true := by
    decide +kernel
  obtain ⟨w, hrun, hw⟩ := Run.of_execIf_any hfirst
  obtain ⟨v, hbefore, hv⟩ := Run.of_execIf_any hearly
  obtain ⟨bs, v', hafter, hlost⟩ := (active_name_kept ∅).2 _ _ _ hbefore hv
  exact ⟨⟨w, of_decide_eq_true hw, (active_name_kept ∅).1 _ _ hrun⟩, v, bs, v', hv, hafter, hlost⟩

/-- A session whose configuration does not parse publishes the error, `start` returns for
another profile, and the session clears the name. -/
def clearedLate : List ServiceAction :=
  startNow office ++ [.session 0 (.configParsed (.error "Missing PrivateKey in [Interface]")),
    .session 0 .go] ++ startNow home ++ [.session 0 .go]

/-- The name is written, the session is spawned, and then the clear is made. -/
theorem active_name_kept_cleared_late :
    ∃ w, Run serviceStep (fun w a => !givesUp w a) (serviceInit ∅) clearedLate w ∧
      ¬ NameKept w := by
  have hexec : (execIf serviceStep (fun w a => !givesUp w a) (serviceInit ∅) clearedLate).any
      (fun w => decide (w.shared.activeProfileName = none ∧
        ∃ s ∈ w.sessions, s.pc.published = false)) = true := by
    decide +kernel
  obtain ⟨w, hrun, hw⟩ := Run.of_execIf_any hexec
  obtain ⟨hname, s, hs, hpub⟩ := of_decide_eq_true hw
  refine ⟨w, hrun, fun hkept => ?_⟩
  have hkept := hkept.name s hs hpub
  rw [hname] at hkept
  cases hkept

end Phobos
