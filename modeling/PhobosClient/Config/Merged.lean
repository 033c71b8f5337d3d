import Mathlib.Data.Finmap
import PhobosClient.Config.WgConfig

/-!
# PhobosClient — merged configurations (`src/archive.rs`)

A merged configuration holds the WireGuard sections and the `[instance]` section of the
obfuscator in one text. `split_merged_conf` takes the lines of `[instance]` and `[socks5]`
sections out; `parse_instance_section` reads the settings of the obfuscator.

**`split_merged_conf`**: nothing is lost. The reader of each half, on its half, ends where it
would on the whole text: the lines it does not get are those it would have ignored, and every
section that is kept still starts with its own header.
-/

namespace Phobos

open Text

/-- The key/value pairs of a section. -/
abbrev Params := Finmap fun _ : Text => Text

structure InstanceState where
  params : Params
  inInstance : Bool

/-- Whether the splitting is in a section of the obfuscator after this line. -/
def splitFlag (inInstance : Bool) (line : Text) : Bool :=
  match sectionHeader (trim line) with
  | some sec =>
    eqIgnoreAsciiCase sec "instance".toList || eqIgnoreAsciiCase sec "socks5".toList
  | none => inInstance

def splitLines : Bool → List Text → List Text × List Text
  | _, [] => ([], [])
  | inInstance, l :: ls =>
    let inInstance := splitFlag inInstance l
    let (wg, obf) := splitLines inInstance ls
    if inInstance then (wg, l :: obf) else (l :: wg, obf)

def splitMergedConf (conf : Text) : Text × Text :=
  let (wg, obf) := splitLines false (lines conf)
  (join "\n".toList wg, join "\n".toList obf)

variable (env : Externals)

/-- The body of the loop over the lines of `[instance]` sections. -/
def instanceLine (st : InstanceState) (line : Text) : InstanceState :=
  let trimmed := trim line
  if isSkipped trimmed then st
  else match sectionHeader trimmed with
    | some sec => { st with inInstance := eqIgnoreAsciiCase sec "instance".toList }
    | none =>
      if st.inInstance then
        match splitOnce '=' trimmed with
        | some (k, v) =>
          { st with params := st.params.insert (env.casing.toLowercase (trim k)) (trim v) }
        | none => st
      else st

/-- The map collected from the `[instance]` sections. -/
def collectInstance (conf : Text) : Params :=
  ((lines conf).foldl (instanceLine env) ⟨∅, false⟩).params

def knownKeys : List Text :=
  ["target", "key", "masking", "source-lport", "max-dummy", "obfuscate-bytes"].map String.toList

/-- The body of the second loop, over a text without the section. -/
def scanLine (params : Params) (line : Text) : Params :=
  match splitOnce '=' (trim line) with
  | some (k, v) =>
    let key := env.casing.toLowercase (trim k)
    if key ∈ knownKeys then params.insert key (trim v) else params
  | none => params

def parseInstanceSection (conf : Text) : Params :=
  let params := collectInstance env conf
  if params = ∅ then (lines conf).foldl (scanLine env) params else params

/-! ## The split -/

theorem splitLines_obf {inInstance : Bool} {l : Text} (h : splitFlag inInstance l = true)
    (ls : List Text) : splitLines inInstance (l :: ls)
      = ((splitLines true ls).1, l :: (splitLines true ls).2) := by
  simp only [splitLines, h]
  rfl

theorem splitLines_wg {inInstance : Bool} {l : Text} (h : splitFlag inInstance l = false)
    (ls : List Text) : splitLines inInstance (l :: ls)
      = (l :: (splitLines false ls).1, (splitLines false ls).2) := by
  simp only [splitLines, h]
  rfl

/-- A header switches to the obfuscator, or back. -/
theorem splitFlag_header {l sec : Text} (h : sectionHeader (trim l) = some sec)
    (inInstance : Bool) : splitFlag inInstance l =
      (eqIgnoreAsciiCase sec "instance".toList || eqIgnoreAsciiCase sec "socks5".toList) := by
  rw [splitFlag, h]

/-- The other lines stay with their section. -/
theorem splitFlag_other {l : Text} (h : sectionHeader (trim l) = none) (inInstance : Bool) :
    splitFlag inInstance l = inInstance := by
  rw [splitFlag, h]

/-- The halves are made of lines of the text. -/
theorem mem_splitLines {ls : List Text} {inInstance : Bool} {l : Text}
    (h : l ∈ (splitLines inInstance ls).1 ∨ l ∈ (splitLines inInstance ls).2) : l ∈ ls := by
  induction ls generalizing inInstance with
  | nil => exact h.elim id id
  | cons m ls ih =>
    cases hflag : splitFlag inInstance m with
    | true =>
      rw [splitLines_obf hflag] at h
      rcases h with h | h
      · exact List.mem_cons_of_mem _ (ih (.inl h))
      · rcases List.mem_cons.mp h with rfl | h
        · exact List.mem_cons_self
        · exact List.mem_cons_of_mem _ (ih (.inr h))
    | false =>
      rw [splitLines_wg hflag] at h
      rcases h with h | h
      · rcases List.mem_cons.mp h with rfl | h
        · exact List.mem_cons_self
        · exact List.mem_cons_of_mem _ (ih (.inl h))
      · exact List.mem_cons_of_mem _ (ih (.inr h))

/-! ## The WireGuard half -/

/-- A parser state outside all sections. -/
def ParseState.outside (st : ParseState) : ParseState :=
  { st with inInterface := false, inPeer := false }

variable {env} {l sec : Text}

/-- Outside the sections a line says nothing. -/
theorem parseLine_outside (st : ParseState) (h : sectionHeader (trim l) = none) :
    parseLine env st.outside l = .ok st.outside := by
  simp only [parseLine, h]
  cases isSkipped (trim l) with
  | true => rfl
  | false => cases splitOnce '=' (trim l) <;> rfl

/-- A section of the obfuscator is neither of the WireGuard sections. -/
theorem obfuscator_ne (h : (eqIgnoreAsciiCase sec "instance".toList ||
    eqIgnoreAsciiCase sec "socks5".toList) = true) :
    eqIgnoreAsciiCase sec "interface".toList = false ∧
      eqIgnoreAsciiCase sec "peer".toList = false := by
  rcases Bool.or_eq_true_iff.mp h with h | h
  · exact ⟨eqIgnoreAsciiCase_ne h (by decide), eqIgnoreAsciiCase_ne h (by decide)⟩
  · exact ⟨eqIgnoreAsciiCase_ne h (by decide), eqIgnoreAsciiCase_ne h (by decide)⟩

/-- Reading lines, seen without the section flags. -/
def readOutside (env : Externals) (st : ParseState) (ls : List Text) :
    Except String ParseState :=
  (ls.foldlM (parseLine env) st).map ParseState.outside

theorem readOutside_cons (st : ParseState) (l : Text) (ls : List Text) :
    readOutside env st (l :: ls)
      = (parseLine env st l).bind fun st' => readOutside env st' ls :=
  map_foldlM_cons _ st l ls

/-- The parser on the whole text, `a`, and on its half, `b`: they agree, or the splitting is
in a section that only the first one sees. -/
def WgInStep (inInstance : Bool) (a b : ParseState) : Prop :=
  if inInstance then a = b.outside else a = b

/-- In step, up to the section. -/
theorem WgInStep.outside {inInstance : Bool} {a b : ParseState} (h : WgInStep inInstance a b) :
    a.outside = b.outside := by
  cases inInstance with
  | true => rw [show a = b.outside from h]; rfl
  | false => rw [show a = b from h]

/-- **The WireGuard half.** Induction on the lines, for any pair of states in step. -/
theorem readOutside_splitLines {inInstance : Bool} {a b : ParseState}
    (h : WgInStep inInstance a b) (ls : List Text) :
    readOutside env b (splitLines inInstance ls).1 = readOutside env a ls := by
  induction ls generalizing inInstance a b with
  | nil => exact congrArg Except.ok h.outside.symm
  | cons l ls ih =>
    cases hheader : sectionHeader (trim l) with
    | some sec =>
      have hflag := splitFlag_header hheader inInstance
      rw [readOutside_cons a, parseLine_header hheader]
      cases hobf : eqIgnoreAsciiCase sec "instance".toList ||
          eqIgnoreAsciiCase sec "socks5".toList with
      | true =>
        -- the header and its section are taken out
        obtain ⟨hinterface, hpeer⟩ := obfuscator_ne hobf
        rw [splitLines_obf (hflag.trans hobf), hinterface, hpeer]
        have hstep : WgInStep true a.outside b := h.outside
        exact ih hstep
      | false =>
        -- a kept header puts both in the same section
        rw [splitLines_wg (hflag.trans hobf), readOutside_cons, parseLine_header hheader]
        have hstep : WgInStep false { a with
            inInterface := eqIgnoreAsciiCase sec "interface".toList
            inPeer := eqIgnoreAsciiCase sec "peer".toList } { b with
            inInterface := eqIgnoreAsciiCase sec "interface".toList
            inPeer := eqIgnoreAsciiCase sec "peer".toList } := by
          have hout := h.outside
          cases a
          cases b
          cases hout
          rfl
        exact ih hstep
    | none =>
      have hflag := splitFlag_other hheader inInstance
      cases inInstance with
      | true =>
        rw [splitLines_obf hflag, readOutside_cons a, show a = b.outside from h,
          parseLine_outside b hheader]
        have hstep : WgInStep true b.outside b := rfl
        exact ih hstep
      | false =>
        rw [splitLines_wg hflag, readOutside_cons, readOutside_cons, show a = b from h]
        cases parseLine env b l with
        | error e => rfl
        | ok st' =>
          have hstep : WgInStep false st' st' := rfl
          exact ih hstep

/-! ## The obfuscator's half -/

/-- The collecting loop on the whole text, `a`, and on its half, `b`. -/
def ObfInStep (inInstance : Bool) (a b : InstanceState) : Prop :=
  if inInstance then a = b else a = { b with inInstance := false }

theorem instanceLine_header (hheader : sectionHeader (trim l) = some sec) (st : InstanceState) :
    instanceLine env st l
      = { st with inInstance := eqIgnoreAsciiCase sec "instance".toList } := by
  simp only [instanceLine, isSkipped_of_header hheader, hheader]
  rfl

/-- Outside the section nothing is collected. -/
theorem instanceLine_outside (hheader : sectionHeader (trim l) = none) (params : Params) :
    instanceLine env ⟨params, false⟩ l = ⟨params, false⟩ := by
  simp only [instanceLine, hheader]
  cases isSkipped (trim l) <;> rfl

/-- **The obfuscator's half.** -/
theorem collect_splitLines {inInstance : Bool} {a b : InstanceState}
    (h : ObfInStep inInstance a b) (ls : List Text) :
    ((splitLines inInstance ls).2.foldl (instanceLine env) b).params
      = (ls.foldl (instanceLine env) a).params := by
  induction ls generalizing inInstance a b with
  | nil =>
    cases inInstance with
    | true => rw [show a = b from h]; rfl
    | false => rw [show a = { b with inInstance := false } from h]; rfl
  | cons l ls ih =>
    cases hheader : sectionHeader (trim l) with
    | some sec =>
      have hflag := splitFlag_header hheader inInstance
      have hparams : a.params = b.params := by
        cases inInstance with
        | true => rw [show a = b from h]
        | false => rw [show a = { b with inInstance := false } from h]
      rw [List.foldl_cons, instanceLine_header hheader]
      cases hobf : eqIgnoreAsciiCase sec "instance".toList ||
          eqIgnoreAsciiCase sec "socks5".toList with
      | true =>
        -- a header that goes along puts both in the same section
        rw [splitLines_obf (hflag.trans hobf), List.foldl_cons, instanceLine_header hheader,
          hparams]
        have hstep : ObfInStep true ⟨b.params, eqIgnoreAsciiCase sec "instance".toList⟩
          ⟨b.params, eqIgnoreAsciiCase sec "instance".toList⟩ := rfl
        exact ih hstep
      | false =>
        rw [splitLines_wg (hflag.trans hobf), (Bool.or_eq_false_iff.mp hobf).1, hparams]
        have hstep : ObfInStep false ⟨b.params, false⟩ b := rfl
        exact ih hstep
    | none =>
      have hflag := splitFlag_other hheader inInstance
      cases inInstance with
      | true =>
        rw [splitLines_obf hflag, List.foldl_cons, List.foldl_cons, show a = b from h]
        have hstep : ObfInStep true (instanceLine env b l) (instanceLine env b l) := rfl
        exact ih hstep
      | false =>
        rw [splitLines_wg hflag, List.foldl_cons, show a = ⟨b.params, false⟩ from h,
          instanceLine_outside hheader]
        have hstep : ObfInStep false ⟨b.params, false⟩ b := rfl
        exact ih hstep

/-! ## From lines to texts -/

theorem instanceLine_trims : Trims fun st l => (.ok (instanceLine env st l) : Except Empty _) where
  trim := by
    intro st l
    simp only [instanceLine, trim_trim]
  blank := fun _ => rfl

/-- Joining lines with `\n` and splitting them again keeps their content. -/
theorem content_lines_joinLf {ls : List Text} (hls : ∀ l ∈ ls, '\n' ∉ l) :
    content (lines (join "\n".toList ls)) = content ls := by
  have hjoin : content (lines (join ([] ++ ['\n']) ls)) = content ls :=
    content_lines_join (List.forall_mem_nil _) List.not_mem_nil hls
  exact hjoin

/-- What the parser makes of a text does not depend on the section it ends in. -/
theorem parse_outside (conf : Text) : WireGuardConfig.parse env conf
    = (readOutside env parseInit (lines conf)).bind parseFinish := by
  unfold WireGuardConfig.parse readOutside
  cases (lines conf).foldlM (parseLine env) parseInit <;> rfl

/-- **Splitting a merged configuration loses nothing.** -/
theorem split_merged_conf (env : Externals) (conf : Text) :
    WireGuardConfig.parse env (splitMergedConf conf).1 = WireGuardConfig.parse env conf ∧
    collectInstance env (splitMergedConf conf).2 = collectInstance env conf ∧
    (collectInstance env conf ≠ ∅ →
      parseInstanceSection env (splitMergedConf conf).2 = parseInstanceSection env conf) := by
  have hwg : ∀ l ∈ (splitLines false (lines conf)).1, '\n' ∉ l :=
    fun l hl => newline_not_mem_lines (mem_splitLines (.inl hl))
  have hobf : ∀ l ∈ (splitLines false (lines conf)).2, '\n' ∉ l :=
    fun l hl => newline_not_mem_lines (mem_splitLines (.inr hl))
  -- the obfuscator's half has all of its sections
  have hcollect : collectInstance env (splitMergedConf conf).2 = collectInstance env conf := by
    unfold collectInstance
    rw [← instanceLine_trims.foldl_content, show (splitMergedConf conf).2
      = join "\n".toList (splitLines false (lines conf)).2 from rfl, content_lines_joinLf hobf,
      instanceLine_trims.foldl_content]
    have hstep : ObfInStep false ⟨∅, false⟩ ⟨∅, false⟩ := rfl
    exact collect_splitLines hstep _
  refine ⟨?_, hcollect, fun hne => ?_⟩
  · rw [parse_outside, parse_outside conf]
    -- and the other half all that WireGuard reads
    have hread : readOutside env parseInit (lines (splitMergedConf conf).1)
        = readOutside env parseInit (splitLines false (lines conf)).1 := by
      unfold readOutside
      rw [← (parseLine_trims env).foldlM_content, show (splitMergedConf conf).1
        = join "\n".toList (splitLines false (lines conf)).1 from rfl, content_lines_joinLf hwg,
        (parseLine_trims env).foldlM_content]
    have hstep : WgInStep false parseInit parseInit := rfl
    rw [hread, readOutside_splitLines hstep]
  · -- with a pair collected, the second scan is not made
    unfold parseInstanceSection
    simp only [hcollect, if_neg hne]

end Phobos
