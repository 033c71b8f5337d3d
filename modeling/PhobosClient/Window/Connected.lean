import PhobosClient.Service.Connected
import PhobosClient.Window.Stops

/-!
# PhobosClient — what the window says of a tunnel that is up

`update_details` reads the name in the service and then the status, and sessions may move in
between. **`shown_connected`**: when it fills in that the selected profile is connected, the tunnel
of that profile is up (`IsUp`), or has been asked to stop. The name that is read stays the name of
the newest session, since no `start` is at work while the details are refreshed.
-/

namespace Phobos

open Steps

variable {host : Host} {table : RouteTable} {dir : ProfilesDir} {entries : List StoredFile}
  {d d' : Desktop} {a : DesktopAction} {acts : List DesktopAction} {Seen Seen' : Nat → Prop}

/-- `start`, when it is called from the window, neither gives up waiting nor reads an error
early. -/
def windowWaitsOut (d : Desktop) : DesktopAction → Bool
  | .go => waitsOut d.world (.gui .go)
  | _ => true

/-- The guard is about the accesses of `start` only. -/
theorem waitsOut_of_calls {b : ServiceAction} (hok : windowWaitsOut d a = true) (hb : a.Calls b) :
    waitsOut d.world b = true := by
  cases a with
  | session i c => cases hb; rfl
  | toggle => obtain ⟨p, rfl⟩ := hb; rfl
  | go =>
    obtain ⟨g, rfl⟩ := hb
    cases g with
    | go => exact hok
    | _ => rfl
  | _ => cases hb

/-- The session moves by itself, and not by a handler. -/
theorem calls_session {i : Nat} {c : SessionAction} (h : a.Calls (.session i c)) :
    a = .session i c := by
  cases a with
  | session j b => cases h; rfl
  | toggle => obtain ⟨p, hp⟩ := h; cases hp
  | go => obtain ⟨g, hg⟩ := h; cases hg
  | _ => cases h

/-- What `update_details` has read is the name of the newest session. -/
structure ReadName (Seen : Nat → Prop) (d : Desktop) : Prop where
  sound : Sound Seen d.world
  holds : d.pc.Holds d.world
  read : ∀ name, d.pc = .refreshNamed (some name) → d.world.owner = some name

/-- Nothing has been read. -/
theorem ReadName.init : ReadName Seen (desktopInit host table dir entries) where
  sound := .init table
  holds := rfl
  read := by intro name h; cases h

/-- **What has been read stays the name of the newest session**, while the details are refreshed. -/
theorem ReadName.step (h : ReadName Seen d) (hok : windowWaitsOut d a = true)
    (hseen : ∀ j, Seen j → Seen' j) (hobserved : ∀ i, a = .session i (.observed true) → Seen' i)
    (hstep : desktopStep host d a = some d') : ReadName Seen' d' := by
  refine ⟨?_, desktopStep_holds h.holds hstep, ?_⟩
  · rcases desktopStep_serves hstep with hsame | ⟨b, hb, hserve⟩
    · rw [hsame]
      exact h.sound.mono hseen
    · refine h.sound.step (waitsOut_of_calls hok hb) hseen (fun i hbi => hobserved i ?_) hserve
      subst hbi
      exact calls_session hb
  · intro name hpc
    cases desktopStep_effect hstep with
    | readName =>
      -- the name in the service has an owner when it is read
      exact h.sound.owner name (WindowPc.refreshNamed.inj hpc)
    | others ha =>
      -- sessions do not change whose name it is
      rw [← h.read name hpc]
      rcases desktopStep_serves hstep with hsame | ⟨b, hb, hserve⟩
      · exact congrArg World.owner hsame
      · rcases ha with ⟨i, c, rfl, -⟩ | rfl
        · cases hb
          exact session_owner hserve
        · cases hb
    | importFailed => exact h.read name hpc
    | moves _ hafter =>
      cases hpc
      cases hafter
    | details | noDetails | select | imported | deleted => cases hpc

/-- In every run in which `start` waits. -/
theorem readName_of_run
    (hrun : Run (desktopStep host) (fun d a => windowWaitsOut d a = true)
      (desktopInit host table dir entries) acts d) :
    ReadName (fun i => .session i (.observed true) ∈ acts) d := by
  refine hrun.history
    (P := fun acts d => ReadName (fun i => .session i (.observed true) ∈ acts) d) .init ?_
  intro bs v a u _ hv hok hst
  refine hv.step hok (fun j hj => List.mem_append_left _ hj) (fun i ha => ?_) hst
  rw [ha]
  exact List.mem_append_right _ (List.mem_singleton_self _)

/-- The text for a connected tunnel is filled in for a connected tunnel of that name only. -/
theorem updateDetails_connected {app : AppState} {name : Option Text} {status : TunnelStatus}
    (herror : ∀ e, status = .error e → e ≠ TunnelStatus.connected.text)
    (h : (updateDetails app.profiles app.selectedIndex name status).status
      = TunnelStatus.connected.text) :
    status = .connected ∧ ∃ profile, app.selected = some profile
      ∧ name = some profile.clientName := by
  unfold updateDetails at h
  unfold AppState.selected
  cases hselected : app.selectedIndex.bind fun idx => app.profiles[idx]? with
  | none =>
    rw [hselected] at h
    -- without a selection the text is another one
    have h : "Нет активного туннеля" = TunnelStatus.connected.text := h
    exact absurd h (by decide)
  | some profile =>
    rw [hselected] at h
    simp only at h
    split at h
    · next hactive =>
      -- the text is that of the status, and an error does not read like it
      refine ⟨?_, profile, rfl, beq_iff_eq.mp hactive⟩
      cases status with
      | connected => rfl
      | error e => exact absurd h (herror e rfl)
      | connecting | disconnected => exact absurd h (by decide)
    · exact absurd h (by decide)

/-- **What the window shows as connected is up.** When the details come to say so, the newest
session is one of a profile with the name of the selected one, it has observed a handshake, and
unless it has been asked to stop the traffic is routed into its device. -/
theorem shown_connected (table : RouteTable) (dir : ProfilesDir) (entries : List StoredFile)
    (hrun : Run (desktopStep host) (fun d a => windowWaitsOut d a = true)
      (desktopInit host table dir entries) acts d)
    {read : Option Text} (hpc : d.pc = .refreshNamed read)
    (hstep : desktopStep host d .go = some d')
    (herror : ∀ e, d.world.shared.status = .error e → e ≠ TunnelStatus.connected.text)
    (hshown : d'.app.details.status = TunnelStatus.connected.text) :
    ∃ profile i s, d'.app.selected = some profile ∧ s.profile.clientName = profile.clientName
      ∧ IsUp (fun i => .session i (.observed true) ∈ acts) d'.world i s := by
  have hread := readName_of_run hrun
  simp only [desktopStep, desktopGo, hpc] at hstep
  cases hstep
  obtain ⟨hstatus, profile, hselected, rfl⟩ := updateDetails_connected herror hshown
  obtain ⟨i, s, hup⟩ := hread.sound.isUp hstatus
  refine ⟨profile, i, s, hselected, ?_, hup⟩
  -- no `start` is at work, so the owner of the name is the newest session
  have howner := hread.read _ hpc
  have hidle : d.world.gui = .idle := by
    have hholds := hread.holds
    rw [hpc] at hholds
    exact hholds
  have hlast : d.world.sessions.getLast? = some s := by
    rw [List.getLast?_eq_getElem?, ← hup.newest, Nat.add_sub_cancel]
    exact hup.get
  simp only [World.owner, hidle, hlast] at howner
  exact Option.some.inj howner

/-- The profile of a window is started, its session is connected, and the details are refreshed. -/
def connectedOffice : List DesktopAction :=
  startedOffice ++
    ([.configParsed (.ok officeConf),
      .targetResolved (.ok (some ⟨.v4 (.ofOctets 203 0 113 7), 51824⟩)),
      .dummyBound (.ok ()), .interfaceFound (.ok 12), .deviceCreated (.ok officeSetup),
      .udpBound (.ok ()), .udpConnected (.ok ()), .go, .go, .go, .observed true, .go].map
        (.session 0)) ++ [.timer, .go]

/-- The window shows `office` as connected. -/
theorem shown_connected_office : ∃ d d' : Desktop, desktopStep plainHost d .go = some d'
    ∧ d'.app.details.status = "● Подключен" ∧ d'.world.shared.stopSignal = false
    ∧ ∃ profile i s, d'.app.selected = some profile ∧ s.profile.clientName = profile.clientName
      ∧ IsUp (fun i => .session i (.observed true) ∈ connectedOffice) d'.world i s := by
  have hexec : (exec (storeStep plainHost) storeInit reimported).any (fun s =>
      (execIf (desktopStep plainHost) windowWaitsOut
        (desktopInit plainHost ∅ s.dir s.dir.files) connectedOffice).any fun d =>
          (desktopStep plainHost d .go).any fun d' =>
            decide (d.pc = .refreshNamed (some "office".toList)
              ∧ d.world.shared.status = .connected
              ∧ d'.app.details.status = "● Подключен"
              ∧ d'.world.shared.stopSignal = false)) = true := by
    decide +kernel
  obtain ⟨s, -, hs⟩ := Run.of_exec_any hexec
  obtain ⟨d, hrun, hd⟩ := Run.of_execIf_any hs
  obtain ⟨d', hstep, hd'⟩ := (Option.any_eq_true _ _).mp hd
  obtain ⟨hpc, hstatus, hshown, hstop⟩ := of_decide_eq_true hd'
  have herror : ∀ e, d.world.shared.status = .error e → e ≠ TunnelStatus.connected.text := by
    intro e he
    rw [hstatus] at he
    cases he
  exact ⟨d, d', hstep, hshown, hstop,
    shown_connected ∅ s.dir s.dir.files hrun hpc hstep herror hshown⟩

end Phobos
