import PhobosClient.Config.Entries
import PhobosClient.Config.Merged

/-!
# PhobosClient — the settings of the obfuscator (`src/archive.rs`)

`parse_instance_section` collects the entries of the [instance] sections, the last one for every
key. When that leaves nothing it goes over all lines once more, for a text that was written
without the header, and takes the six keys it knows wherever they stand. What it tests is not the
header but the map: an [instance] section without entries counts as no section, and then the keys
of any other section are taken for those of the obfuscator.

**`parseInstanceSection_iff`**: a text with the header is read by its [instance] sections exactly
when one of them has an entry, or no line of the text has one of the six keys.
-/

namespace Phobos

open Text Assignments

variable (env : Externals)

def ConfSection.isInstance (s : ConfSection) : Bool := s.named "instance".toList

/-- The entries of the [instance] sections, first to last. -/
def instanceEntries (conf : Text) : List (Text × Text) :=
  ((readSections conf).2.filter ConfSection.isInstance).flatMap (ConfSection.entries env)

def isInstanceHeader (line : Text) : Bool :=
  match sectionHeader (trim line) with
  | some sec => eqIgnoreAsciiCase sec "instance".toList
  | none => false

def hasInstanceHeader (conf : Text) : Bool := (lines conf).any isInstanceHeader

/-- What the second loop takes from a line. -/
def knownEntry (line : Text) : Option (Text × Text) :=
  match splitOnce '=' (trim line) with
  | some (k, v) =>
    let key := env.casing.toLowercase (trim k)
    if knownKeys.contains key then some (key, trim v) else none
  | none => none

/-- The lines with one of the six keys, wherever they stand. -/
def knownEntries (conf : Text) : List (Text × Text) := (lines conf).filterMap (knownEntry env)

variable {env}

/-! ## The two loops -/

/-- A line of an [instance] section, or of another one. -/
theorem instanceLine_entry {l : Text} (hheader : sectionHeader (trim l) = none)
    (st : InstanceState) :
    instanceLine env st l = { st with
      params :=
        insertAll st.params (if st.inInstance then entry env (trim l) else none).toList } := by
  obtain ⟨params, inInstance⟩ := st
  simp only [instanceLine, hheader, entry]
  cases isSkipped (trim l) with
  | true => cases inInstance <;> rfl
  | false =>
    cases inInstance with
    | false => rfl
    | true => cases splitOnce '=' (trim l) <;> rfl

/-- **The first loop, by sections.** Induction on the lines, for any section they begin in. -/
theorem foldl_instanceLine {ls : List Text} (hclean : Clean ls) (st : InstanceState) :
    (ls.foldl (instanceLine env) st).params = insertAll st.params
      ((if st.inInstance then (sectionsOf ls).1.filterMap (entry env) else [])
        ++ ((sectionsOf ls).2.filter ConfSection.isInstance).flatMap (ConfSection.entries env)) := by
  induction ls generalizing st with
  | nil => cases st.inInstance <;> rfl
  | cons l ls ih =>
    obtain ⟨htrim, -⟩ := hclean l List.mem_cons_self
    have hrest : Clean ls := fun m hm => hclean m (List.mem_cons_of_mem _ hm)
    rw [List.foldl_cons, ih hrest]
    cases hheader : sectionHeader l with
    | some sec =>
      -- a header: the entries behind it belong to its section
      rw [instanceLine_header (htrim.symm ▸ hheader)]
      have hsection : (ConfSection.mk l (sectionsOf ls).1).isInstance
          = eqIgnoreAsciiCase sec "instance".toList := by
        simp only [ConfSection.isInstance, ConfSection.named, hheader]
      rw [sectionsOf_header (by rw [hheader]; rfl), List.filter_cons, hsection]
      cases eqIgnoreAsciiCase sec "instance".toList <;> cases st.inInstance <;> rfl
    | none =>
      -- any other line: its entry comes first
      rw [instanceLine_entry (htrim.symm ▸ hheader), sectionsOf_line hheader, htrim]
      cases hin : st.inInstance with
      | false => rfl
      | true =>
        cases hentry : entry env l with
        | none => simp only [if_true, List.filterMap_cons_none hentry]; rfl
        | some kv => simp only [if_true, List.filterMap_cons_some hentry]; rfl

theorem collectInstance_eq (env : Externals) (conf : Text) :
    collectInstance env conf = assignAll (instanceEntries env conf) := by
  unfold collectInstance
  rw [← instanceLine_trims.foldl_content, foldl_instanceLine (clean_content _)]
  rfl

theorem foldl_scanLine (ls : List Text) (params : Params) :
    ls.foldl (scanLine env) params = insertAll params (ls.filterMap (knownEntry env)) := by
  induction ls generalizing params with
  | nil => rfl
  | cons l ls ih =>
    have hline : scanLine env params l = insertAll params (knownEntry env l).toList := by
      unfold scanLine knownEntry
      cases splitOnce '=' (trim l) with
      | none => rfl
      | some kv => simp only [List.contains_iff_mem]; split <;> rfl
    rw [List.foldl_cons, ih, hline]
    cases hknown : knownEntry env l with
    | none => rw [List.filterMap_cons_none hknown]; rfl
    | some kv => rw [List.filterMap_cons_some hknown]; rfl

/-- **What is looked up**: the last entry of the [instance] sections, or, when they have none at
all, the last line anywhere. -/
theorem lookup_parseInstanceSection (env : Externals) (conf key : Text) :
    (parseInstanceSection env conf).lookup key =
      if instanceEntries env conf = [] then lastValue key (knownEntries env conf)
      else lastValue key (instanceEntries env conf) := by
  unfold parseInstanceSection
  simp only [collectInstance_eq, assignAll_eq_empty_iff]
  split
  · next hempty =>
    rw [hempty, foldl_scanLine, ← lookup_assignAll]
    rfl
  · exact lookup_assignAll key _

/-! ## Which texts are read by their sections -/

/-- **When the header counts.** With an [instance] header the settings are the entries of the
[instance] sections, the last one for every key, exactly when there is such an entry or none of
the six keys anywhere. -/
theorem parseInstanceSection_iff (env : Externals) (conf : Text) :
    (hasInstanceHeader conf = true →
        ∀ key, (parseInstanceSection env conf).lookup key
          = lastValue key (instanceEntries env conf))
      ↔ (hasInstanceHeader conf = true →
        instanceEntries env conf ≠ [] ∨ knownEntries env conf = []) := by
  refine imp_congr_right fun _ => ?_
  simp only [lookup_parseInstanceSection]
  by_cases hempty : instanceEntries env conf = []
  · simp only [hempty, if_true, ne_eq, not_true_eq_false, false_or]
    constructor
    · intro h
      -- a line with one of the keys would be found
      by_contra hne
      obtain ⟨kv, hkv⟩ := List.exists_mem_of_ne_nil _ hne
      have hsome := lookup_assignAll_isSome (show (kv.1, kv.2) ∈ knownEntries env conf from hkv)
      rw [lookup_assignAll, h kv.1] at hsome
      cases hsome
    · intro hnone key
      rw [hnone]
  · exact iff_of_true (fun key => if_neg hempty) (.inl hempty)

/-- An [instance] section with nothing in it, and a key that belongs to a proxy. -/
def emptyInstance : Text := "[instance]\n[socks5]\nkey = x\n".toList

/-- The key of another section is taken for the obfuscator's. -/
theorem parseInstanceSection_other_section :
    ¬ (hasInstanceHeader emptyInstance = true →
      ∀ key, (parseInstanceSection sampleExternals emptyInstance).lookup key
        = lastValue key (instanceEntries sampleExternals emptyInstance)) := by
  rw [parseInstanceSection_iff]
  decide +kernel

end Phobos
