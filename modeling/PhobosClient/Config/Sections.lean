import PhobosClient.Config.Rewrite

/-!
# PhobosClient — a configuration by sections (`src/archive.rs`)

A reader of configurations sees the trimmed lines that are not blank, grouped under their
headers. `readSections` is that view of a text, and **`readSections_rewrite`** says what
`rewrite_endpoint_to_loopback` does to it: the sections stay, in their order and under their
headers, and each body is rewritten on its own (`ConfSection.rewritten`).

The rewriting itself runs over raw lines with flags that outlive a section. Two facts take it
apart: it depends on the trimmed lines only (`content_rewriteLines`), and a header resets all
it has remembered (`rewriteLines_append_header`).
-/

namespace Phobos

open Text CaseData

/-- A section: its header and the lines below it up to the next header. -/
structure ConfSection where
  header : Text
  body : List Text

/-- The lines before the first header, and the sections. -/
def sectionsOf : List Text → List Text × List ConfSection
  | [] => ([], [])
  | l :: ls =>
    let (body, secs) := sectionsOf ls
    if (sectionHeader l).isSome then ([], ⟨l, body⟩ :: secs) else (l :: body, secs)

def readSections (conf : Text) : List Text × List ConfSection := sectionsOf (content (lines conf))

namespace ConfSection

/-- The name between the brackets is this word, up to ASCII case. -/
def named (s : ConfSection) (word : Text) : Bool :=
  match sectionHeader s.header with
  | some sec => eqIgnoreAsciiCase sec word
  | none => false

def isInterface (s : ConfSection) : Bool := s.named "interface".toList
def isPeer (s : ConfSection) : Bool := s.named "peer".toList

/-- A section as the rewriting enters it. -/
def entered (s : ConfSection) : RewriteState := ⟨false, false, s.isInterface, s.isPeer⟩

end ConfSection

section

variable (env : Externals) (localPort : BitVec 16)

/-- The trimmed line starts with the word, up to case. -/
def startsLower (word l : Text) : Bool := word.isPrefixOf (env.casing.toLowercase l)

/-- What becomes of a trimmed line of a section with these flags. -/
def bodyLine (inInterface inPeer : Bool) (l : Text) : Text :=
  if inInterface && startsLower env "mtu".toList l then mtuLine
  else if inPeer && startsLower env "endpoint".toList l then endpointLine localPort
  else if inPeer && startsLower env "allowedips".toList l then trim (splitDefaultRoutes l)
  else l

/-- The entries that a section misses. -/
def missingLines (inInterface inPeer : Bool) (body : List Text) : List Text :=
  (if inInterface && !body.any (startsLower env "mtu".toList) then [mtuLine] else []) ++
    if inPeer && !body.any (startsLower env "endpoint".toList) then [endpointLine localPort] else []

/-- What becomes of the lines of a section: each on its own, and what is missing at the end. -/
def rewrittenBody (inInterface inPeer : Bool) (body : List Text) : List Text :=
  body.map (bodyLine env localPort inInterface inPeer)
    ++ missingLines env localPort inInterface inPeer body

def ConfSection.rewritten (s : ConfSection) : ConfSection :=
  ⟨s.header, rewrittenBody env localPort s.isInterface s.isPeer s.body⟩

end

variable {env : Externals} {localPort : BitVec 16}

/-! ## Only the trimmed lines count -/

theorem trim_append_front {ws s : Text} (hws : ∀ c ∈ ws, isWhitespace c = true) :
    trim (ws ++ s) = trim s := by
  rw [trim, List.dropWhile_append_of_pos hws, trim]

/-- A text is its trimmed self between blank ends. -/
theorem exists_trim (s : Text) : ∃ ws ws', s = ws ++ (trim s ++ ws')
    ∧ (∀ c ∈ ws, isWhitespace c = true) ∧ ∀ c ∈ ws', isWhitespace c = true := by
  refine ⟨s.takeWhile isWhitespace, (s.dropWhile isWhitespace).rtakeWhile isWhitespace, ?_,
    fun c hc => List.mem_takeWhile_imp hc, fun c hc => List.mem_rtakeWhile_imp hc⟩
  rw [trim, trimEnd, List.rdropWhile_append_rtakeWhile, List.takeWhile_append_dropWhile]

/-- Splitting default routes and trimming: the order does not matter for what is left. -/
theorem trim_splitDefaultRoutes (l : Text) :
    trim (splitDefaultRoutes l) = trim (splitDefaultRoutes (trim l)) := by
  have hfour : ∀ c, isWhitespace c = true → c ∉ "0.0.0.0/0".toList :=
    fun c hc => notMem_of_isWhitespace (by decide) hc
  have hsix : ∀ c, isWhitespace c = true → c ∉ "::/0".toList :=
    fun c hc => notMem_of_isWhitespace (by decide) hc
  obtain ⟨ws, ws', hl, hws, hws'⟩ := exists_trim l
  conv_lhs => rw [hl]
  rw [splitDefaultRoutes,
    replace_blank (by decide) (fun c hc => hfour c (hws c hc)) (fun c hc => hfour c (hws' c hc)),
    replace_blank (by decide) (fun c hc => hsix c (hws c hc)) (fun c hc => hsix c (hws' c hc)),
    trim_append_front hws, trim_append_blank hws']
  rfl

theorem content_append (ls ls' : List Text) : content (ls ++ ls') = content ls ++ content ls' := by
  simp [content]

theorem content_singleton_trim (l : Text) : content [trim l] = content [l] := by
  simp [content]

/-- The rewriting of one line looks at the trimmed line. -/
theorem rewriteLine_trim (st : RewriteState) (l : Text) :
    (rewriteLine env localPort st (trim l)).1 = (rewriteLine env localPort st l).1
      ∧ content (rewriteLine env localPort st (trim l)).2
        = content (rewriteLine env localPort st l).2 := by
  unfold rewriteLine
  simp only [trim_trim]
  split
  · -- a header is passed on as it stands
    refine ⟨rfl, ?_⟩
    rw [content_append, content_append, content_singleton_trim]
  split
  · exact ⟨rfl, rfl⟩
  split
  · exact ⟨rfl, rfl⟩
  split
  · refine ⟨rfl, ?_⟩
    rw [← content_singleton_trim, ← trim_splitDefaultRoutes, content_singleton_trim]
  · exact ⟨rfl, content_singleton_trim l⟩

/-- A blank line is passed on. -/
theorem rewriteLine_nil (st : RewriteState) : rewriteLine env localPort st [] = (st, [[]]) := by
  have hlower : env.casing.toLowercase [] = [] := rfl
  simp [rewriteLine, show trim [] = [] from rfl, show sectionHeader [] = none from rfl, hlower]

theorem content_rewriteLines (st : RewriteState) (ls : List Text) :
    content (rewriteLines env localPort st ls)
      = content (rewriteLines env localPort st (content ls)) := by
  induction ls generalizing st with
  | nil => rfl
  | cons l ls ih =>
    obtain ⟨hstate, hout⟩ := @rewriteLine_trim env localPort st l
    rw [rewriteLines, content_append, ih, ← hstate, ← hout, content_cons]
    split
    · next hblank =>
      -- a blank line is put out, and a reader skips it there too
      rw [List.isEmpty_iff.mp hblank, rewriteLine_nil]
      rfl
    · rw [rewriteLines, content_append]

/-! ## One section -/

/-- Lines as a reader sees them: trimmed and not blank. -/
def Clean (ls : List Text) : Prop := ∀ l ∈ ls, trim l = l ∧ l ≠ []

theorem clean_content (ls : List Text) : Clean (content ls) := by
  intro l hl
  obtain ⟨hmem, hne⟩ := List.mem_filter.mp hl
  obtain ⟨m, -, rfl⟩ := List.mem_map.mp hmem
  exact ⟨trim_trim m, by simpa using hne⟩

theorem content_singleton {l : Text} (htrim : trim l = l) (hne : l ≠ []) : content [l] = [l] := by
  simp [content, htrim, hne]

theorem content_mtuLine : content [mtuLine] = [mtuLine] := by decide

theorem isWhitespace_of_isDigit {c : Char} (hc : c.isDigit = true) : isWhitespace c = false := by
  have hascii : c.toNat < 128 := by
    simp only [Char.isDigit, Bool.and_eq_true, decide_eq_true_eq, UInt32.le_iff_toNat_le] at hc
    exact Nat.lt_of_le_of_lt hc.2 (by decide)
  exact Char.forall_ascii (P := fun c => c.isDigit = true → isWhitespace c = false)
    (by decide) hascii hc

/-- The line ends with a digit of the port. -/
theorem trim_endpointLine : trim (endpointLine localPort) = endpointLine localPort := by
  have hdigits : (toString localPort.toNat).toList = Nat.toDigits 10 localPort.toNat := by
    rw [Nat.toString_eq_repr, Nat.repr, String.toList_ofList]
  have hne : Nat.toDigits 10 localPort.toNat ≠ [] := Nat.toDigits_ne_nil
  -- the last character is a digit, so nothing is trimmed at the end
  have hend : trimEnd (" = 127.0.0.1:".toList ++ Nat.toDigits 10 localPort.toNat)
      = " = 127.0.0.1:".toList ++ Nat.toDigits 10 localPort.toNat := by
    have hdigit : ((Nat.toDigits 10 localPort.toNat).getLast hne).isDigit = true :=
      Nat.isDigit_of_mem_toDigits (by decide) (by decide) (List.getLast_mem hne)
    refine List.rdropWhile_eq_self_iff.mpr fun hne' => ?_
    rw [List.getLast_append_of_ne_nil _ hne, isWhitespace_of_isDigit hdigit]
    exact Bool.false_ne_true
  have hline : endpointLine localPort = [] ++ ("Endpoint".toList
      ++ (" = 127.0.0.1:".toList ++ Nat.toDigits 10 localPort.toNat)) := by
    have hsplit : "Endpoint = 127.0.0.1:".toList = "Endpoint".toList ++ " = 127.0.0.1:".toList := by
      decide
    unfold endpointLine
    rw [hdigits, hsplit, List.append_assoc, List.nil_append]
  rw [hline, trim_word (List.forall_mem_nil _)
    (word_of_alpha (by decide) (List.all_eq_true.mp (by decide))), hend, List.nil_append]

theorem content_endpointLine : content [endpointLine localPort] = [endpointLine localPort] :=
  content_singleton trim_endpointLine (List.append_ne_nil_of_left_ne_nil (by decide) _)

/-- What is left of a line with a key is not empty and begins with a letter. -/
theorem HasKey.trim_head {p l : Text} (h : HasKey p l) (hp : p ≠ []) :
    ∃ c cs, Text.trim l = c :: cs ∧ c.isAlpha = true := by
  obtain ⟨q, r, htrim, hne, -, hq⟩ := h.trim hp
  cases q with
  | nil => exact absurd rfl hne
  | cons c cs => exact ⟨c, cs ++ r, htrim, hq c List.mem_cons_self⟩

/-- The rewritten line of an `AllowedIPs` line. -/
theorem trim_splitDefaultRoutes_head {l : Text} (htrim : trim l = l)
    (hips : startsLower env "allowedips".toList l = true) :
    ∃ c cs, trim (splitDefaultRoutes l) = c :: cs ∧ c.isAlpha = true := by
  have hpre : "allowedips".toList.isPrefixOf (env.casing.toLowercase (trim l)) = true := by
    rw [htrim]
    exact hips
  exact (hasKey_of_lower (by decide) hpre).splitDefaultRoutes.trim_head (by decide)

/-- One line of a body. -/
theorem rewriteLine_body {l : Text} (htrim : trim l = l) (hne : l ≠ [])
    (hheader : sectionHeader l = none) (st : RewriteState)
    (hone : ¬ (st.inInterface = true ∧ st.inPeer = true)) :
    (rewriteLine env localPort st l).1
        = ⟨st.endpointSeen || st.inPeer && startsLower env "endpoint".toList l,
          st.mtuSeen || st.inInterface && startsLower env "mtu".toList l,
          st.inInterface, st.inPeer⟩
      ∧ content (rewriteLine env localPort st l).2
        = [bodyLine env localPort st.inInterface st.inPeer l] := by
  simp only [rewriteLine, htrim, hheader]
  unfold bodyLine startsLower
  split
  · next hmtu =>
    -- an MTU line: the section is no [Peer] section
    have hpeer : st.inPeer = false :=
      Bool.eq_false_iff.mpr fun h => hone ⟨(Bool.and_eq_true_iff.mp hmtu).1, h⟩
    refine ⟨?_, content_mtuLine⟩
    rw [hmtu, hpeer, Bool.or_true, Bool.false_and, Bool.or_false]
  · next hmtu =>
    rw [Bool.eq_false_iff.mpr hmtu, Bool.or_false]
    split
    · next hend =>
      -- an endpoint line, with the flag set
      refine ⟨?_, content_endpointLine⟩
      rw [hend, Bool.or_true]
    · next hend =>
      rw [Bool.eq_false_iff.mpr hend, Bool.or_false]
      split
      · next hips =>
        -- an `AllowedIPs` line is still not blank
        obtain ⟨c, cs, hhead, -⟩ :=
          trim_splitDefaultRoutes_head htrim (Bool.and_eq_true_iff.mp hips).2
        refine ⟨rfl, ?_⟩
        rw [← content_singleton_trim, content_singleton (trim_trim _) (by rw [hhead]; simp)]
      · exact ⟨rfl, content_singleton htrim hne⟩

/-- **One body.** The loop puts out the lines one by one, and adds what is missing when it
leaves the section. Induction on the lines, for any flags that say what has been seen. -/
theorem content_rewriteLines_body {body : List Text} (hclean : Clean body)
    (hbody : ∀ l ∈ body, sectionHeader l = none) (st : RewriteState)
    (hone : ¬ (st.inInterface = true ∧ st.inPeer = true)) :
    content (rewriteLines env localPort st body)
      = body.map (bodyLine env localPort st.inInterface st.inPeer) ++
        ((if st.inInterface && !(st.mtuSeen || body.any (startsLower env "mtu".toList))
            then [mtuLine] else []) ++
          if st.inPeer && !(st.endpointSeen || body.any (startsLower env "endpoint".toList))
            then [endpointLine localPort] else []) := by
  induction body generalizing st with
  | nil =>
    -- the end of the section: what has not been seen is added
    simp only [rewriteLines, closeSection, content_append, List.map_nil, List.any_nil,
      Bool.or_false, List.nil_append]
    congr 1
    · split
      · exact content_mtuLine
      · rfl
    · split
      · exact content_endpointLine
      · rfl
  | cons l ls ih =>
    obtain ⟨htrim, hne⟩ := hclean l List.mem_cons_self
    obtain ⟨hstate, hout⟩ := @rewriteLine_body env localPort _ htrim hne
      (hbody l List.mem_cons_self) st hone
    -- a line counts as seen only in its own section
    have hseen : ∀ inSection seen this rest : Bool,
        (inSection && !((seen || inSection && this) || rest))
          = (inSection && !(seen || (this || rest))) := by
      decide
    have hrest := ih (fun m hm => hclean m (List.mem_cons_of_mem _ hm))
      (fun m hm => hbody m (List.mem_cons_of_mem _ hm))
      ⟨st.endpointSeen || st.inPeer && startsLower env "endpoint".toList l,
        st.mtuSeen || st.inInterface && startsLower env "mtu".toList l,
        st.inInterface, st.inPeer⟩ hone
    rw [rewriteLines, content_append, hout, hstate, hrest]
    simp only [hseen, List.any_cons, List.map_cons, List.cons_append, List.nil_append]
    rfl

/-! ## Section by section -/

/-- A header closes the section before it and resets the flags. -/
theorem rewriteLines_append_header {h sec : Text} (hheader : sectionHeader (trim h) = some sec)
    (st : RewriteState) (body rest : List Text) :
    rewriteLines env localPort st (body ++ h :: rest)
      = rewriteLines env localPort st body ++ h :: rewriteLines env localPort
        ⟨false, false, eqIgnoreAsciiCase sec "interface".toList,
          eqIgnoreAsciiCase sec "peer".toList⟩ rest := by
  induction body generalizing st with
  | nil =>
    simp only [List.nil_append, rewriteLines, rewriteLine, hheader, List.append_assoc,
      List.singleton_append]
  | cons l ls ih => simp only [List.cons_append, rewriteLines, ih, List.append_assoc]

/-- Sections whose lines stand in the right place. -/
structure Grouped (pre : List Text) (secs : List ConfSection) : Prop where
  front : ∀ l ∈ pre, sectionHeader l = none
  header : ∀ s ∈ secs, (sectionHeader s.header).isSome = true
  body : ∀ s ∈ secs, ∀ l ∈ s.body, sectionHeader l = none

/-- The lines of sections, one after the other. -/
def sectionLines (secs : List ConfSection) : List Text := secs.flatMap fun s => s.header :: s.body

theorem sectionsOf_header {l : Text} (h : (sectionHeader l).isSome = true) (ls : List Text) :
    sectionsOf (l :: ls) = ([], ⟨l, (sectionsOf ls).1⟩ :: (sectionsOf ls).2) := by
  simp only [sectionsOf, h, if_true]

theorem sectionsOf_line {l : Text} (h : sectionHeader l = none) (ls : List Text) :
    sectionsOf (l :: ls) = (l :: (sectionsOf ls).1, (sectionsOf ls).2) := by
  rw [sectionsOf, h]
  rfl

theorem grouped_sectionsOf (ls : List Text) : Grouped (sectionsOf ls).1 (sectionsOf ls).2 := by
  induction ls with
  | nil => exact ⟨List.forall_mem_nil _, List.forall_mem_nil _, List.forall_mem_nil _⟩
  | cons l ls ih =>
    simp only [sectionsOf]
    split
    · next hheader =>
      refine ⟨List.forall_mem_nil _, ?_, ?_⟩
      · exact List.forall_mem_cons.mpr ⟨hheader, ih.header⟩
      · exact List.forall_mem_cons.mpr ⟨ih.front, ih.body⟩
    · next hheader =>
      refine ⟨List.forall_mem_cons.mpr ⟨by simpa using hheader, ih.front⟩, ih.header, ih.body⟩

theorem append_sectionLines_sectionsOf (ls : List Text) :
    (sectionsOf ls).1 ++ sectionLines (sectionsOf ls).2 = ls := by
  induction ls with
  | nil => rfl
  | cons l ls ih =>
    simp only [sectionsOf]
    split
    · exact congrArg (l :: ·) ih
    · exact congrArg (l :: ·) ih

/-- Grouping finds the sections again. -/
theorem sectionsOf_append_sectionLines {pre : List Text} {secs : List ConfSection}
    (h : Grouped pre secs) : sectionsOf (pre ++ sectionLines secs) = (pre, secs) := by
  have hpre : ∀ {pre rest : List Text}, (∀ l ∈ pre, sectionHeader l = none) →
      sectionsOf (pre ++ rest) = (pre ++ (sectionsOf rest).1, (sectionsOf rest).2) := by
    intro pre rest h
    induction pre with
    | nil => rfl
    | cons l ls ih =>
      obtain ⟨hl, hls⟩ := List.forall_mem_cons.mp h
      rw [List.cons_append, sectionsOf_line hl, ih hls]
      rfl
  induction secs generalizing pre with
  | nil => rw [hpre h.front]; simp [sectionLines, sectionsOf]
  | cons s secs ih =>
    obtain ⟨hs, hsecs⟩ := List.forall_mem_cons.mp h.header
    obtain ⟨hbody, hbodies⟩ := List.forall_mem_cons.mp h.body
    have hrest : sectionsOf (s.body ++ sectionLines secs) = (s.body, secs) :=
      ih ⟨hbody, hsecs, hbodies⟩
    have hlines : sectionLines (s :: secs) = s.header :: (s.body ++ sectionLines secs) := rfl
    rw [hpre h.front, hlines, sectionsOf_header hs, hrest, List.append_nil]

/-- A body that the loop enters with nothing seen. -/
theorem content_rewriteLines_entered {body : List Text} (hclean : Clean body)
    (hbody : ∀ l ∈ body, sectionHeader l = none) {st : RewriteState}
    (hone : ¬ (st.inInterface = true ∧ st.inPeer = true))
    (hnew : st.endpointSeen = false ∧ st.mtuSeen = false) :
    content (rewriteLines env localPort st body)
      = rewrittenBody env localPort st.inInterface st.inPeer body := by
  rw [content_rewriteLines_body hclean hbody st hone, hnew.1, hnew.2]
  rfl

/-- The rewriting of grouped lines, section by section. -/
theorem content_rewriteLines_sections {pre : List Text} {secs : List ConfSection}
    (h : Grouped pre secs) (hclean : Clean (pre ++ sectionLines secs)) (st : RewriteState)
    (hone : ¬ (st.inInterface = true ∧ st.inPeer = true))
    (hnew : st.endpointSeen = false ∧ st.mtuSeen = false) :
    content (rewriteLines env localPort st (pre ++ sectionLines secs))
      = rewrittenBody env localPort st.inInterface st.inPeer pre
        ++ sectionLines (secs.map (ConfSection.rewritten env localPort)) := by
  induction secs generalizing pre st with
  | nil =>
    rw [show sectionLines [] = [] from rfl, List.append_nil] at hclean ⊢
    rw [content_rewriteLines_entered hclean h.front hone hnew]
    simp [sectionLines]
  | cons s secs ih =>
    obtain ⟨hs, hsecs⟩ := List.forall_mem_cons.mp h.header
    obtain ⟨hsbody, hbodies⟩ := List.forall_mem_cons.mp h.body
    obtain ⟨sec, hsec⟩ := Option.isSome_iff_exists.mp hs
    have hlines : sectionLines (s :: secs) = s.header :: (s.body ++ sectionLines secs) := rfl
    rw [hlines] at hclean ⊢
    obtain ⟨htrim, hne⟩ := hclean s.header (by simp)
    have hflags : (⟨false, false, eqIgnoreAsciiCase sec "interface".toList,
        eqIgnoreAsciiCase sec "peer".toList⟩ : RewriteState) = s.entered := by
      simp only [ConfSection.entered, ConfSection.isInterface, ConfSection.isPeer,
        ConfSection.named, hsec]
    have hentered : ¬ (s.entered.inInterface = true ∧ s.entered.inPeer = true) := by
      rw [← hflags]
      exact interface_ne_peer sec
    have hpre : Clean pre := fun l hl => hclean l (List.mem_append_left _ hl)
    have hrest := ih ⟨hsbody, hsecs, hbodies⟩
      (fun l hl => hclean l (List.mem_append_right _ (List.mem_cons_of_mem _ hl)))
      s.entered hentered ⟨rfl, rfl⟩
    -- the lines before the header, the header, and the rest with its flags
    rw [rewriteLines_append_header (htrim.symm ▸ hsec), content_append,
      content_rewriteLines_entered hpre h.front hone hnew, hflags,
      ← List.singleton_append, content_append, content_singleton htrim hne, hrest]
    rfl

/-- No line that is put out in a body is a header. -/
theorem sectionHeader_rewrittenBody {body : List Text} (hclean : Clean body)
    (hbody : ∀ l ∈ body, sectionHeader l = none) (inInterface inPeer : Bool) :
    ∀ l ∈ rewrittenBody env localPort inInterface inPeer body, sectionHeader l = none := by
  have hletter : ∀ (c : Char) (cs : Text), c.isAlpha = true → sectionHeader (c :: cs) = none := by
    intro c cs hc
    refine if_neg fun h => ?_
    cases h.1
    cases hc
  have hmtu : sectionHeader mtuLine = none := by decide
  have hend : sectionHeader (endpointLine localPort) = none :=
    hletter 'E' ("ndpoint = 127.0.0.1:".toList ++ _) (by decide)
  intro l hl
  rcases List.mem_append.mp hl with hl | hl
  · obtain ⟨m, hm, rfl⟩ := List.mem_map.mp hl
    unfold bodyLine
    split
    · exact hmtu
    split
    · exact hend
    split
    · next hips =>
      obtain ⟨c, cs, hhead, hc⟩ := trim_splitDefaultRoutes_head (hclean m hm).1
        (Bool.and_eq_true_iff.mp hips).2
      rw [hhead]
      exact hletter c cs hc
    · exact hbody m hm
  · unfold missingLines at hl
    rcases List.mem_append.mp hl with hl | hl
    · split at hl
      · rwa [List.mem_singleton.mp hl]
      · cases hl
    · split at hl
      · rwa [List.mem_singleton.mp hl]
      · cases hl

theorem readSections_lines (conf : Text) :
    (readSections conf).1 ++ sectionLines (readSections conf).2 = content (lines conf) :=
  append_sectionLines_sectionsOf _

/-- The lines of a body are trimmed and not blank. -/
theorem clean_body {conf : Text} {s : ConfSection} (hs : s ∈ (readSections conf).2) :
    Clean s.body := by
  intro l hl
  refine clean_content (lines conf) l (readSections_lines conf ▸ List.mem_append_right _ ?_)
  exact List.mem_flatMap.mpr ⟨s, hs, List.mem_cons_of_mem _ hl⟩

/-- **What the rewriting does to a configuration.** The lines before the first header and the
headers stay; every section is rewritten on its own. -/
theorem readSections_rewrite (env : Externals) (conf : Text) (localPort : BitVec 16) :
    readSections (rewriteEndpointToLoopback env conf localPort)
      = ((readSections conf).1,
        (readSections conf).2.map (ConfSection.rewritten env localPort)) := by
  have hgrouped : Grouped (readSections conf).1 (readSections conf).2 := grouped_sectionsOf _
  have hclean : Clean ((readSections conf).1 ++ sectionLines (readSections conf).2) :=
    readSections_lines conf ▸ clean_content (lines conf)
  -- without flags the lines before the first header pass through
  have hfront : rewrittenBody env localPort false false (readSections conf).1
      = (readSections conf).1 := by
    show (readSections conf).1.map (fun l => l) ++ ([] ++ []) = _
    simp
  have hout : content (lines (rewriteEndpointToLoopback env conf localPort))
      = (readSections conf).1
        ++ sectionLines ((readSections conf).2.map (ConfSection.rewritten env localPort)) := by
    rw [content_lines_rewrite, content_rewriteLines, ← readSections_lines,
      content_rewriteLines_sections hgrouped hclean _ (fun h => Bool.false_ne_true h.1) ⟨rfl, rfl⟩,
      hfront]
  rw [readSections, hout]
  refine sectionsOf_append_sectionLines ⟨hgrouped.front, ?_, ?_⟩
  · intro s hs
    obtain ⟨t, ht, rfl⟩ := List.mem_map.mp hs
    exact hgrouped.header t ht
  · intro s hs
    obtain ⟨t, ht, rfl⟩ := List.mem_map.mp hs
    exact sectionHeader_rewrittenBody (clean_body ht) (hgrouped.body t ht) _ _

end Phobos
