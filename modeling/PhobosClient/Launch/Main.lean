import PhobosClient.Launch.Elevate
import PhobosClient.Window.Shows

/-!
# PhobosClient — starting the program (`src/main.rs`)

`main` looks at its arguments and decides what this process is for. Without the rights that the
adapter needs it starts the program once more, elevated, with its own arguments, and ends; a file
among the arguments is imported into the store before the mode is chosen, whichever it is.

**`launch_shows`**: a start that is granted elevation does just what a start with elevation does. It
starts the program once more at most, imports a file at most once, and if it is a window that opens,
the window names the profiles that the store has recorded, the one just imported among them.

Not modelled: what is printed, and the files that the import is about being files of the store.
-/

namespace Phobos

open Text Steps Ledger ArgLine

/-- A process: `env::args()`, and whether it is elevated. -/
structure Invocation where
  program : Text
  args : List Text
  isAdmin : Bool

/-- What `main` asks of the system. -/
structure Surroundings where
  /-- what there is at a path -/
  disk : Text → SourceFile
  choices : ImportChoices
  /-- the end of the request to run the program elevated, with these `lpParameters` -/
  elevate : Option Text → Except String Unit
  /-- the paths in the working directory -/
  here : List Text
  /-- what is typed when a path is asked for, line by line; `none` is a line that cannot be read -/
  typed : List (Option Text)

/-- What has become of the process. -/
inductive Outcome where
  | help
  /-- another process goes on, and this one has ended -/
  | relaunched (parameters : Option Text)
  | notElevated (e : String)
  /-- it waits for another line -/
  | waiting
  | loadFailed (e : String)
  | proxy (profile : PhobosProfile)
  | cli (profile : PhobosProfile)
  | gui

def isProxyFlag (a : Text) : Bool := a == "--proxy".toList || a == "-p".toList
def isCliFlag (a : Text) : Bool := a == "--cli".toList
def isHelpFlag (a : Text) : Bool := a == "--help".toList || a == "-h".toList

/-- `clean_path`. -/
def cleanPath (raw : Text) : Text := trimMatches (· = '\'') (trimMatches (· = '"') (trim raw))

namespace Invocation

def rawArgs (l : Invocation) : List Text := l.program :: l.args

def isProxyMode (l : Invocation) : Bool := l.rawArgs.any isProxyFlag
def isCliMode (l : Invocation) : Bool := l.rawArgs.any isCliFlag
def isHelp (l : Invocation) : Bool := l.rawArgs.any isHelpFlag

/-- The first argument that is no option. -/
def passedFile (l : Invocation) : Option Text :=
  (l.args.find? fun a => !"-".toList.isPrefixOf a).map cleanPath

end Invocation

section

variable (host : Host) (out : Surroundings)

def isPackage (path : Text) : Bool :=
  (out.disk path).isFile && isSupportedProfilePath host (out.disk path).path

/-- The loop of `find_or_prompt_package`. -/
def promptPackage : List (Option Text) → Option Text
  | [] => none
  | none :: typed => promptPackage typed
  | some line :: typed =>
    if isPackage host out (cleanPath line) then some (cleanPath line) else promptPackage typed

/-- `find_or_prompt_package`: `none` while it waits for a line. -/
def findOrPromptPackage : Option Text :=
  match out.here.filter (isPackage host out) with
  | [path] => some path
  | _ => promptPackage host out out.typed

/-- The file that was passed goes into the store; `main` does not look at the result. -/
def importPassed (l : Invocation) (dir : ProfilesDir) : ProfilesDir :=
  match l.passedFile with
  | some path =>
    if isPackage host out path then (importProfile host dir (out.disk path) out.choices).1 else dir
  | none => dir

/-- A profile for the modes without a window. -/
def loadPackage (l : Invocation) (run : PhobosProfile → Outcome) : Outcome :=
  match l.passedFile.or (findOrPromptPackage host out) with
  | none => .waiting
  | some path =>
    match loadFromFile host (out.disk path).path (out.disk path).read with
    | .ok profile => run profile
    | .error e => .loadFailed e

/-- The mode that the options select. -/
def selectMode (l : Invocation) : Outcome :=
  if l.isProxyMode then loadPackage host out l .proxy
  else if l.isCliMode then loadPackage host out l .cli
  else .gui

def main (l : Invocation) (dir : ProfilesDir) : ProfilesDir × Outcome :=
  if l.isHelp then (dir, .help)
  else if !l.isProxyMode && !l.isAdmin then
    match out.elevate (lpParameters l.args) with
    | .ok () => (dir, .relaunched (lpParameters l.args))
    | .error e => (dir, .notElevated e)
  else (importPassed host out l dir, selectMode host out l)

/-- The process that `ShellExecuteW` starts for the program `exe`. -/
def elevatedChild (exe : Text) (parameters : Option Text) : Invocation :=
  ⟨exe, parseArgs (commandLine parameters), true⟩

/-- A process, and the one that it starts. -/
def launch (exe : Text) (l : Invocation) (dir : ProfilesDir) : ProfilesDir × Outcome :=
  match main host out l dir with
  | (dir, .relaunched parameters) => main host out (elevatedChild exe parameters) dir
  | result => result

end

variable {host : Host} {out : Surroundings} {l : Invocation} {exe : Text} {dir dir' : ProfilesDir}
  {profile : PhobosProfile} {parameters : Option Text} {history : List ProfileEvent}

/-! ## Relaunching -/

/-- The program is called by a name that is none of its options. -/
def isOption (a : Text) : Bool := isProxyFlag a || isCliFlag a || isHelpFlag a

/-- Names that are no options make no difference. -/
theorem any_rawArgs {flag : Text → Bool} {program : Text} {args : List Text} {isAdmin : Bool}
    (hflag : flag program = false) :
    (Invocation.rawArgs ⟨program, args, isAdmin⟩).any flag = args.any flag := by
  rw [Invocation.rawArgs, List.any_cons, hflag]
  rfl

theorem isOption_eq_false {a : Text} (h : isOption a = false) :
    isProxyFlag a = false ∧ isCliFlag a = false ∧ isHelpFlag a = false := by
  simpa [isOption, and_assoc] using h

/-- What an elevated process does. -/
theorem main_admin (hadmin : l.isAdmin = true) (dir : ProfilesDir) :
    main host out l dir
      = if l.isHelp then (dir, .help)
        else (importPassed host out l dir, selectMode host out l) := by
  rw [main, hadmin, Bool.not_true, Bool.and_false, if_neg Bool.false_ne_true]

/-- It depends on the arguments alone. -/
theorem main_program {program : Text} {args : List Text} (hprogram : isOption program = false)
    (hexe : isOption exe = false) (dir : ProfilesDir) :
    main host out ⟨exe, args, true⟩ dir = main host out ⟨program, args, true⟩ dir := by
  -- the flags are read from all arguments, the name of the program among them
  obtain ⟨hproxy, hcli, hhelp⟩ := isOption_eq_false hprogram
  obtain ⟨hproxy', hcli', hhelp'⟩ := isOption_eq_false hexe
  rw [main_admin rfl, main_admin rfl]
  simp only [selectMode, Invocation.isHelp, Invocation.isProxyMode, Invocation.isCliMode,
    any_rawArgs hproxy, any_rawArgs hcli, any_rawArgs hhelp, any_rawArgs hproxy',
    any_rawArgs hcli', any_rawArgs hhelp']
  rfl

theorem loadPackage_ne_relaunched {run : PhobosProfile → Outcome}
    (hrun : ∀ profile, run profile ≠ .relaunched parameters) :
    loadPackage host out l run ≠ .relaunched parameters := by
  unfold loadPackage
  split
  · intro h
    cases h
  · split
    · exact hrun _
    · intro h
      cases h

theorem selectMode_ne_relaunched : selectMode host out l ≠ .relaunched parameters := by
  unfold selectMode
  split
  · refine loadPackage_ne_relaunched fun profile h => ?_
    cases h
  · split
    · refine loadPackage_ne_relaunched fun profile h => ?_
      cases h
    · intro h
      cases h

/-- With elevation a process does not relaunch itself. -/
theorem main_admin_ne_relaunched (hadmin : l.isAdmin = true) :
    (main host out l dir).2 ≠ .relaunched parameters := by
  rw [main_admin hadmin]
  split
  · intro h
    cases h
  · exact selectMode_ne_relaunched

/-- Unless elevation is refused, a process does what an elevated one does, or leaves it to another
one, with its own arguments and before it has touched the store. -/
theorem main_cases (host : Host) (l : Invocation) (dir : ProfilesDir)
    (hgrant : ∀ parameters, out.elevate parameters = .ok ()) :
    main host out l dir = (dir, .relaunched (lpParameters l.args))
      ∨ main host out l dir = main host out { l with isAdmin := true } dir := by
  have hadmin : main host out { l with isAdmin := true } dir = _ := main_admin rfl dir
  rw [hadmin]
  unfold main
  split
  · next hhelp => exact .inr (if_pos hhelp).symm
  · next hhelp =>
    split
    · exact .inl (by rw [hgrant])
    · exact .inr (if_neg hhelp).symm

/-- **The process that goes on does what an elevated one would have done.** -/
theorem launch_eq (host : Host) (hprogram : isOption l.program = false)
    (hexe : isOption exe = false)
    (hnul : ∀ a ∈ l.args, '\x00' ∉ a) (hgrant : ∀ parameters, out.elevate parameters = .ok ())
    (dir : ProfilesDir) :
    launch host out exe l dir = main host out { l with isAdmin := true } dir := by
  unfold launch
  rcases main_cases host l dir hgrant with hmain | hmain
  · rw [hmain]
    -- the elevated process reads the arguments back as they were
    show main host out (elevatedChild exe (lpParameters l.args)) dir = _
    rw [elevatedChild, commandLine_lpParameters hnul, parseArgs_paramsStr]
    exact main_program hprogram hexe dir
  · rw [hmain]
    split
    · next hrelaunched =>
      -- an elevated process does not relaunch itself
      refine absurd (congrArg Prod.snd hrelaunched) (main_admin_ne_relaunched rfl)
    · rfl

/-! ## The store and the window -/

/-- What imports is a file with a supported name. -/
theorem isPackage_of_import {path : Text}
    (h : (importProfile host dir (out.disk path) out.choices).2 = .ok profile) :
    isPackage host out path = true := by
  simp only [importProfile] at h
  split at h
  · cases h
  · next hfile =>
    split at h
    · cases h
    · next hname =>
      simp only [Bool.or_eq_true, Bool.not_eq_true', not_or, Bool.not_eq_false] at hfile hname
      rw [isPackage, hfile.2, hname]
      rfl

/-- An import that fails, but not in the middle of its write, leaves the directory alone. -/
theorem importProfile_error {source : SourceFile} {choices : ImportChoices} {e : String}
    (hwhole : ∀ e count, choices.outcome ≠ .brokenOff e count)
    (h : importProfile host dir source choices = (dir', .error e)) : dir' = dir := by
  simp only [importProfile] at h
  split at h
  · cases h; rfl
  · split at h
    · cases h; rfl
    · split at h
      · cases h; rfl
      · split at h
        · cases h; rfl
        · split at h
          · cases h; rfl
          · split at h
            · cases h
            · cases h; rfl
            · next hbroken => exact absurd hbroken (hwhole _ _)

/-- The file that was passed is imported, or it leaves the directory alone. -/
theorem importPassed_cases (host : Host) (l : Invocation) (dir : ProfilesDir)
    (hwhole : ∀ e count, out.choices.outcome ≠ .brokenOff e count) :
    (∃ path profile, l.passedFile = some path
        ∧ importProfile host dir (out.disk path) out.choices
          = (importPassed host out l dir, .ok profile))
      ∨ importPassed host out l dir = dir
        ∧ ∀ path profile, l.passedFile = some path →
          (importProfile host dir (out.disk path) out.choices).2 ≠ .ok profile := by
  unfold importPassed
  cases hpath : l.passedFile with
  | none =>
    refine .inr ⟨rfl, fun path profile hsome => ?_⟩
    cases hsome
  | some path =>
    obtain ⟨dir', result, himport⟩ : ∃ dir' result,
        importProfile host dir (out.disk path) out.choices = (dir', result) := ⟨_, _, rfl⟩
    cases result with
    | ok profile =>
      -- the import itself checks what `is_package` checks
      have hpackage : isPackage host out path = true :=
        isPackage_of_import (congrArg Prod.snd himport)
      refine .inl ⟨path, profile, rfl, ?_⟩
      show importProfile host dir (out.disk path) out.choices = (if isPackage host out path then
        (importProfile host dir (out.disk path) out.choices).1 else dir, .ok profile)
      rw [if_pos hpackage, himport]
    | error e =>
      refine .inr ⟨?_, fun other profile hother hok => ?_⟩
      · show (if isPackage host out path then
          (importProfile host dir (out.disk path) out.choices).1 else dir) = dir
        -- a failed import and no import at all leave the same directory
        rw [himport, importProfile_error hwhole himport]
        exact ite_self _
      · cases hother
        rw [himport] at hok
        cases hok

/-- An elevated process takes one call of the store at most. -/
theorem main_store (host : Host) (s : StoreState) (hadmin : l.isAdmin = true)
    (hwhole : ∀ e count, out.choices.outcome ≠ .brokenOff e count) :
    ∃ calls t, calls.length ≤ 1 ∧ Run (storeStep host) anyStep s calls t
      ∧ t.dir = (main host out l s.dir).1
      ∧ ∀ path profile, l.isHelp = false → l.passedFile = some path →
        (importProfile host s.dir (out.disk path) out.choices).2 = .ok profile →
        t.history = s.history ++ [.put profile.clientName profile] := by
  rw [main_admin hadmin]
  split
  · next hhelp =>
    refine ⟨[], s, Nat.zero_le 1, .nil s, rfl, fun path profile hnot => ?_⟩
    rw [hhelp] at hnot
    cases hnot
  · rcases importPassed_cases host l s.dir hwhole with
      ⟨path, profile, hpath, himport⟩ | ⟨hsame, hfails⟩
    · -- the import as a call of the store
      have hcall : storeStep host s (.importProfile (out.disk path) out.choices)
          = some ⟨importPassed host out l s.dir,
            s.history ++ [.put profile.clientName profile]⟩ := by
        simp only [storeStep, himport]
      refine ⟨[_], _, Nat.le_refl 1, .single trivial hcall, rfl,
        fun other profile' _ hother hok => ?_⟩
      rw [hpath] at hother
      cases hother
      rw [himport] at hok
      cases hok
      rfl
    · exact ⟨[], s, Nat.zero_le 1, .nil s, hsame.symm,
        fun path profile _ hpath hok => absurd hok (hfails path profile hpath)⟩

/-- A window that opens names the recorded profiles. -/
theorem Contents.window (h : Contents host dir history) (table : RouteTable)
    {entries : List StoredFile} (hentries : entries.Perm dir.files) :
    (desktopInit host table dir entries).app.list.items.Nodup
      ∧ ∀ name, name ∈ (desktopInit host table dir entries).app.list.items ↔
        ∃ profile, profile.clientName = name ∧ RecordedProfile history profile := by
  rw [mirrors_desktopInit.items]
  refine ⟨h.nodup_loadAllProfiles hentries, fun name => ?_⟩
  rw [List.mem_map]
  refine exists_congr fun profile => ?_
  show profile ∈ loadAllProfiles host entries ∧ _ ↔ _
  rw [h.mem_loadAllProfiles hentries, and_comm]

/-- **A start ends as an elevated one, and its window shows the file that was passed.** -/
theorem launch_shows (out : Surroundings) (exe : Text) (l : Invocation) {calls : List StoreCall}
    {s : StoreState}
    (hstore : Run (storeStep host) anyStep storeInit calls s)
    (hprogram : isOption l.program = false) (hexe : isOption exe = false)
    (hnul : ∀ a ∈ l.args, '\x00' ∉ a) (hgrant : ∀ parameters, out.elevate parameters = .ok ())
    (hwhole : ∀ e count, out.choices.outcome ≠ .brokenOff e count) :
    launch host out exe l s.dir = main host out { l with isAdmin := true } s.dir
      ∧ (∀ parameters, (launch host out exe l s.dir).2 ≠ .relaunched parameters)
      ∧ ∃ calls' t, calls'.length ≤ 1 ∧ Run (storeStep host) anyStep s calls' t
        ∧ t.dir = (launch host out exe l s.dir).1
        ∧ (∀ path profile, l.isHelp = false → l.passedFile = some path →
          (importProfile host s.dir (out.disk path) out.choices).2 = .ok profile →
          t.history = s.history ++ [.put profile.clientName profile])
        ∧ (DistinctNames t.history → ∀ table entries, entries.Perm t.dir.files →
          (desktopInit host table t.dir entries).app.list.items.Nodup
          ∧ ∀ name, name ∈ (desktopInit host table t.dir entries).app.list.items ↔
            ∃ profile, profile.clientName = name ∧ RecordedProfile t.history profile) := by
  have hlaunch := launch_eq host hprogram hexe hnul hgrant s.dir
  rw [hlaunch]
  refine ⟨rfl, fun parameters => main_admin_ne_relaunched rfl, ?_⟩
  obtain ⟨calls', t, hlength, hcalls, hdir, hput⟩ :=
    main_store host s (show Invocation.isAdmin { l with isAdmin := true } = true from rfl) hwhole
  refine ⟨calls', t, hlength, hcalls, hdir, hput, fun hnames table entries hentries => ?_⟩
  -- the run of the store so far, and the one call of this start
  exact (contents_of_run (hstore.trans hcalls) hnames).window table hentries

/-- There is one file, and elevation is granted. -/
def shopOutside : Surroundings where
  disk path :=
    if path = "shop.conf".toList then sampleSource "shop.conf" "d"
    else
      { path := ⟨String.ofList path, some path⟩
        isFile := false
        read := .missing
        reread := .error "os error 2"
        stable := by
          intro _ _ hread
          cases hread }
  choices := ⟨0, .written⟩
  elevate _ := .ok ()
  here := []
  typed := []

/-- The file is passed between quotes, and the process is not elevated. -/
def shopStart : Invocation := ⟨"phobos-client".toList, ["\"shop.conf\"".toList], false⟩

def Outcome.isGui : Outcome → Bool
  | gui => true
  | _ => false

theorem launch_shows_shop : ∃ dir : ProfilesDir,
    (launch plainHost shopOutside "C:\\phobos-client.exe".toList shopStart .empty).1 = dir
    ∧ (launch plainHost shopOutside "C:\\phobos-client.exe".toList shopStart .empty).2.isGui = true
    ∧ ∀ table, "shop".toList ∈ (desktopInit plainHost table dir dir.files).app.list.items := by
  have hgui : (launch plainHost shopOutside "C:\\phobos-client.exe".toList shopStart
      .empty).2.isGui = true := by decide +kernel
  have himport : (importProfile plainHost .empty (shopOutside.disk "shop.conf".toList)
      shopOutside.choices).2.toOption.any (fun profile =>
        decide (profile.clientName = "shop".toList)) = true := by decide +kernel
  obtain ⟨profile, hprofile, hname⟩ := (Option.any_eq_true _ _).mp himport
  have hname := of_decide_eq_true hname
  have hok := ok_of_toOption hprofile
  obtain ⟨-, -, calls, t, -, -, hdir, hput, hitems⟩ :=
    launch_shows shopOutside "C:\\phobos-client.exe".toList shopStart
      (.nil storeInit : Run (storeStep plainHost) anyStep storeInit [] storeInit)
      (by decide) (by decide) (by decide) (fun _ => rfl) fun e count hbroken => by cases hbroken
  have hhistory : t.history = [.put profile.clientName profile] :=
    hput _ profile (by decide) (by decide) hok
  have hnames : DistinctNames t.history := by
    intro a p b q ha hb _
    rw [hhistory, List.mem_singleton] at ha hb
    cases ha
    cases hb
    rfl
  refine ⟨t.dir, hdir.symm, hgui, fun table => ?_⟩
  refine ((hitems hnames table t.dir.files (List.Perm.refl _)).2 _).mpr ⟨profile, hname, ?_⟩
  have hrecorded : RecordedProfile ([] ++ [.put profile.clientName profile]) profile :=
    recorded_put.mpr (.inl ⟨rfl, rfl⟩)
  rw [hhistory]
  exact hrecorded

end Phobos
