import PhobosClient.Store.Contents

/-!
# PhobosClient — the order of the profiles (`src/profile_store.rs`)

A directory is listed in any order, and `load_all_profiles` sorts what it has loaded by the lower
case of the names. A sort leaves equal keys in the order in which they came, so that alone would
not make the list a function of the store.

**`load_all_profiles_ordered`**: it is one. The names of profiles are ASCII, so two with the same
lower case would be equal up to ASCII case (`SafeName.sameName`), which no two imported names are;
the keys are distinct, and there is one way to sort them.
-/

namespace Phobos

open Text Steps Ledger

/-- What the profiles are sorted by. -/
def sortKey (host : Host) (profile : PhobosProfile) : Text :=
  host.casing.toLowercase profile.clientName

def KeyBefore (host : Host) (p q : PhobosProfile) : Prop := sortKey host p < sortKey host q

variable {host : Host} {dir : ProfilesDir} {history : List ProfileEvent}
  {entries : List StoredFile}

theorem toNat_of_isSafeChar {c : Char} (hc : isSafeChar c = true) : c.toNat < 128 := by
  rcases (isSafeChar_iff c).mp hc with hletter | rfl | rfl | rfl
  · rcases Bool.or_eq_true_iff.mp hletter with halpha | hdigit
    · exact Char.toNat_lt_of_isAlpha halpha
    · have hle := UInt32.le_iff_toNat_le.mp
        (of_decide_eq_true (Bool.and_eq_true_iff.mp hdigit).2)
      exact Nat.lt_of_le_of_lt hle (by decide)
  · decide
  · decide
  · decide

theorem SafeName.ascii {name : Text} (h : SafeName name) : ∀ c ∈ name, c.toNat < 128 :=
  fun c hc => toNat_of_isSafeChar (h.safe c hc)

/-- A safe name is ASCII, so its lower case is simple. -/
theorem SafeName.toLowercase {name : Text} (h : SafeName name) :
    host.casing.toLowercase name = name.map Char.toLower := by
  have hlower := CaseData.lowerFrom_ascii (u := host.casing) h.ascii [] []
  rw [List.append_nil] at hlower
  rw [CaseData.toLowercase, hlower]
  exact List.append_nil _

/-- Names with the same key are equal up to ASCII case. -/
theorem SafeName.sameName {a b : Text} (ha : SafeName a) (hb : SafeName b)
    (h : host.casing.toLowercase a = host.casing.toLowercase b) : SameName a b := by
  rw [ha.toLowercase, hb.toLowercase] at h
  exact eqIgnoreAsciiCase_iff.mpr h

/-! ## The keys -/

/-- What is on record has been stored under a safe name. -/
theorem Contents.safeName (h : Contents host dir history) {profile : PhobosProfile}
    (hrecorded : RecordedProfile history profile) : SafeName profile.clientName := by
  obtain ⟨f, -, hfile⟩ := h.complete profile hrecorded
  exact hfile.safe

/-- Recorded profiles have different keys. -/
theorem Contents.sortKey_inj (h : Contents host dir history) (hnames : DistinctNames history)
    {p q : PhobosProfile} (hp : RecordedProfile history p) (hq : RecordedProfile history q)
    (hkey : sortKey host p = sortKey host q) : p = q := by
  have hsame : SameName p.clientName q.clientName := (h.safeName hp).sameName (h.safeName hq) hkey
  have hname := hnames _ p _ q hp.mem hq.mem hsame
  rw [RecordedProfile, hname] at hp
  exact hp.unique hq

/-- The list is sorted by lower-case names. -/
theorem pairwise_loadAllProfiles (host : Host) (entries : List StoredFile) :
    (loadAllProfiles host entries).Pairwise fun p q => sortKey host p ≤ sortKey host q := by
  have hsorted : (loadAllProfiles host entries).Pairwise fun p q =>
      decide (sortKey host p ≤ sortKey host q) = true := by
    refine List.pairwise_mergeSort (fun p q r hpq hqr => ?_) (fun p q => ?_) _
    · exact decide_eq_true ((of_decide_eq_true hpq).trans (of_decide_eq_true hqr))
    · rw [Bool.or_eq_true_iff, decide_eq_true_eq, decide_eq_true_eq]
      exact le_total _ _
  exact hsorted.imp of_decide_eq_true

/-- So the list is strictly ascending. -/
theorem Contents.keyBefore (h : Contents host dir history) (hnames : DistinctNames history)
    (hentries : entries.Perm dir.files) :
    (loadAllProfiles host entries).Pairwise (KeyBefore host) := by
  have hnodup := List.pairwise_map.mp (h.nodup_loadAllProfiles hentries)
  have hsorted := (pairwise_loadAllProfiles host entries).and hnodup
  refine hsorted.imp_of_mem fun {p q} hp hq hpq => lt_of_le_of_ne hpq.1 fun hkey => hpq.2 ?_
  have hrecorded := (h.mem_loadAllProfiles hentries).mp hp
  have hrecorded' := (h.mem_loadAllProfiles hentries).mp hq
  rw [h.sortKey_inj hnames hrecorded hrecorded' hkey]

/-- **The store has one list.** It is strictly ascending, and a store that records the same
profiles loads the same list, however they came there and however the directories are listed. -/
theorem load_all_profiles_ordered {calls : List StoreCall} {s : StoreState}
    (hrun : Run (storeStep host) anyStep storeInit calls s) (hnames : DistinctNames s.history)
    (hentries : entries.Perm s.dir.files) :
    (loadAllProfiles host entries).Pairwise (KeyBefore host)
      ∧ ∀ calls' t entries', Run (storeStep host) anyStep storeInit calls' t →
        DistinctNames t.history → entries'.Perm t.dir.files →
        (∀ profile, RecordedProfile s.history profile ↔ RecordedProfile t.history profile) →
        loadAllProfiles host entries = loadAllProfiles host entries' := by
  have hcontents := contents_of_run hrun hnames
  have hbefore := hcontents.keyBefore hnames hentries
  refine ⟨hbefore, fun calls' t entries' hrun' hnames' hentries' hsame => ?_⟩
  have hcontents' := contents_of_run hrun' hnames'
  have hbefore' := hcontents'.keyBefore hnames' hentries'
  -- both lists have the profiles on record
  have hmem : ∀ profile,
      profile ∈ loadAllProfiles host entries ↔ profile ∈ loadAllProfiles host entries' := by
    intro profile
    rw [hcontents.mem_loadAllProfiles hentries, hcontents'.mem_loadAllProfiles hentries']
    exact hsame profile
  have hne : ∀ {p q}, KeyBefore host p q → p ≠ q := by
    intro p q hpq heq
    rw [heq] at hpq
    exact lt_irrefl _ hpq
  -- a sorted list without repetitions is determined by its members
  have hperm := (List.perm_ext_iff_of_nodup (hbefore.imp hne) (hbefore'.imp hne)).mpr hmem
  exact hperm.eq_of_pairwise (fun p q _ _ hpq hqp => absurd (lt_trans hpq hqp) (lt_irrefl _))
    hbefore hbefore'

/-- Two profiles are imported, in one order and in the other. -/
def officeFirst : List StoreCall := [importSample "office.conf" "a", importSample "home.enc" "b"]
def homeFirst : List StoreCall := [importSample "home.enc" "b", importSample "office.conf" "a"]

/-- The events of the two runs, with the same two profiles. -/
def areSwapped : List ProfileEvent → List ProfileEvent → Bool
  | [.put a p, .put b q], [.put b' q', .put a' p'] =>
    decide (a = "office".toList ∧ b = "home".toList ∧ a' = a ∧ b' = b ∧ p' = p ∧ q' = q)
  | _, _ => false

/-- Two profiles, imported in either order. -/
theorem load_all_profiles_ordered_swapped : ∃ s t : StoreState,
    s.dir.files = [sampleFile "office" "a", sampleFile "home" "b"]
    ∧ t.dir.files = [sampleFile "home" "b", sampleFile "office" "a"]
    ∧ (loadAllProfiles plainHost s.dir.files).Pairwise (KeyBefore plainHost)
    ∧ loadAllProfiles plainHost s.dir.files = loadAllProfiles plainHost t.dir.files := by
  have hexec : (exec (storeStep plainHost) storeInit officeFirst).any (fun s =>
      (exec (storeStep plainHost) storeInit homeFirst).any fun t =>
        areSwapped s.history t.history
          && decide (s.dir.files = [sampleFile "office" "a", sampleFile "home" "b"]
            ∧ t.dir.files = [sampleFile "home" "b", sampleFile "office" "a"])) = true := by
    decide +kernel
  obtain ⟨s, hrun, hs⟩ := Run.of_exec_any hexec
  obtain ⟨t, hrun', ht⟩ := Run.of_exec_any hs
  obtain ⟨hswapped, hfiles⟩ := Bool.and_eq_true_iff.mp ht
  obtain ⟨hfiles, hfiles'⟩ := of_decide_eq_true hfiles
  refine ⟨s, t, hfiles, hfiles', ?_⟩
  unfold areSwapped at hswapped
  split at hswapped
  · next a p b q b' q' a' p' hhistory hhistory' =>
    obtain ⟨rfl, rfl, rfl, rfl, rfl, rfl⟩ := of_decide_eq_true hswapped
    have hnames : DistinctNames s.history := by
      intro a p b q ha hb hsame
      rw [hhistory] at ha hb
      simp only [List.mem_cons, Event.put.injEq, List.not_mem_nil, or_false] at ha hb
      rcases ha with ⟨rfl, _⟩ | ⟨rfl, _⟩ <;> rcases hb with ⟨rfl, _⟩ | ⟨rfl, _⟩ <;>
        first | rfl | exact absurd hsame (by decide)
    have hnames' : DistinctNames t.history := by
      intro a p b q ha hb hsame
      rw [hhistory'] at ha hb
      simp only [List.mem_cons, Event.put.injEq, List.not_mem_nil, or_false] at ha hb
      rcases ha with ⟨rfl, _⟩ | ⟨rfl, _⟩ <;> rcases hb with ⟨rfl, _⟩ | ⟨rfl, _⟩ <;>
        first | rfl | exact absurd hsame (by decide)
    obtain ⟨hsorted, hone⟩ := load_all_profiles_ordered hrun hnames (List.Perm.refl _)
    refine ⟨hsorted, hone homeFirst t _ hrun' hnames' (List.Perm.refl _) fun profile => ?_⟩
    have hne : "office".toList ≠ "home".toList := by decide
    have hcomm : RecordedProfile ([] ++ [.put _ p'] ++ [.put _ q']) profile
        ↔ RecordedProfile ([] ++ [.put _ q'] ++ [.put _ p']) profile := recorded_put_comm hne
    rw [hhistory, hhistory']
    exact hcomm
  · cases hswapped

end Phobos
