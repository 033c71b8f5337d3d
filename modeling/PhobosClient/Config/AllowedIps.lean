import PhobosClient.Config.Loopback

/-!
# PhobosClient — the allowed addresses of the loopback configuration (`src/archive.rs`)

The rewriting replaces two substrings of an `AllowedIPs` line, `0.0.0.0/0` and `::/0`, in
order to write a default route as its two halves. What the line means is a set of addresses.
**`rewrite_allowedIps_iff`** says for which lists of blocks the replacement keeps that set and
leaves no block of prefix length 0.

It goes block by block (`parse_splitDefaultRoutes`): a block of prefix length 0 whose address
ends with one of the two spellings becomes the half that its address lies in, and the *upper*
half of the family of the spelling. So a default route is kept when its address lies in the
lower half, as in the usual spellings, and lost by half when it does not.
-/

namespace Phobos

open Text

/-! ## Lists of blocks -/

/-- The fields of a comma-separated list; blank ones do not count. -/
def listItems (v : Text) : List Text := content (v.splitOn ',')

/-- The list has this field, and it reads as this block. -/
def HasCidr (v t : Text) (c : Cidr) : Prop := t ∈ listItems v ∧ Cidr.parse t = some c

def IsCidrList (v : Text) : Prop := ∀ t ∈ listItems v, ∃ c, Cidr.parse t = some c

/-- The addresses that the list allows. -/
def allowedSet (v : Text) : Set IpAddr := {a | ∃ t c, HasCidr v t c ∧ c.Covers a}

/-- Those that it allows without its default routes. -/
def allowedWithoutDefault (v : Text) : Set IpAddr :=
  {a | ∃ t c, HasCidr v t c ∧ c.prefixLen ≠ 0 ∧ c.Covers a}

/-- The lower or the upper half of the addresses of a family. -/
def halfOf (isV6 upper : Bool) : Set IpAddr := {a | a.isIpv6 = isV6 ∧ a.msb = upper}

/-- A block is written like the IPv4 default route, up to what stands in front of it. -/
def WrittenV4 (t : Text) : Prop := "0.0.0.0/0".toList <:+ t

def WrittenV6 (t : Text) : Prop := "::/0".toList <:+ t

instance (t : Text) : Decidable (WrittenV4 t) :=
  inferInstanceAs (Decidable ("0.0.0.0/0".toList <:+ t))

instance (t : Text) : Decidable (WrittenV6 t) :=
  inferInstanceAs (Decidable ("::/0".toList <:+ t))

/-- The list has a default route that is written as `t` with the address `a`. -/
def HasDefault (v t : Text) (a : IpAddr) : Prop := HasCidr v t (.whole a)

/-- **When splitting default routes in two keeps what a list allows.** -/
structure SplitsEvenly (v : Text) : Prop where
  /-- Every default route has one of the two spellings. -/
  written : ∀ t a, HasDefault v t a → WrittenV4 t ∨ WrittenV6 t
  /-- The half that a default route's own address is in must be the lower one for one of them. -/
  lower : ∀ isV6, (∃ t a, HasDefault v t a ∧ a.isIpv6 = isV6) →
    (∃ t a, HasDefault v t a ∧ a.isIpv6 = isV6 ∧ a.msb = false)
      ∨ halfOf isV6 false ⊆ allowedWithoutDefault v
  /-- An IPv6 default route may end with an IPv4 address. -/
  upperV4 : (∃ t a, HasDefault v t a ∧ WrittenV4 t) →
    (∃ t a, HasDefault v t a ∧ a.isIpv6 = false) ∨ halfOf false true ⊆ allowedWithoutDefault v
  upperV6 : (∃ t a, HasDefault v t a ∧ a.isIpv6 = true) →
    (∃ t a, HasDefault v t a ∧ WrittenV6 t)
      ∨ (∃ t a, HasDefault v t a ∧ a.isIpv6 = true ∧ a.msb = true)
      ∨ halfOf true true ⊆ allowedWithoutDefault v

variable {p r v t : Text} {c : Cidr}

theorem listItems_single (hp : ',' ∉ p) : listItems p = content [p] := by
  rw [listItems, List.splitOn_eq_singleton hp]

/-- A comma ends an item. -/
theorem listItems_append (p r : Text) : listItems (p ++ ',' :: r) = listItems p ++ listItems r := by
  rw [listItems, List.splitOn_append_cons_self, content_append, listItems, listItems]

theorem comma_notMem_of_blank {ws : Text} (hws : ∀ c ∈ ws, isWhitespace c = true) : ',' ∉ ws :=
  fun hmem => absurd (hws ',' hmem) (by decide)

theorem content_singleton_congr (h : trim p = trim r) : content [p] = content [r] := by
  rw [← content_singleton_trim, h, content_singleton_trim]

/-- Blanks around a list do not matter. -/
theorem listItems_trim (v : Text) : listItems (trim v) = listItems v := by
  have hfront : ∀ {ws : Text}, (∀ c ∈ ws, isWhitespace c = true) →
      ∀ v, listItems (ws ++ v) = listItems v := by
    intro ws hws v
    have hcomma := comma_notMem_of_blank hws
    -- blanks in front belong to the first item, which is trimmed
    induction v using field_induction (c := ',') with
    | single p hp =>
      rw [listItems_single hp,
        listItems_single fun h => (List.mem_append.mp h).elim hcomma hp]
      exact content_singleton_congr (trim_append_front hws)
    | append p r hp hfirst _ =>
      rw [← List.append_assoc, listItems_append, hfirst, listItems_append]
  have hback : ∀ {ws : Text}, (∀ c ∈ ws, isWhitespace c = true) →
      ∀ v, listItems (v ++ ws) = listItems v := by
    intro ws hws v
    have hcomma := comma_notMem_of_blank hws
    -- and those behind to the last one
    induction v using field_induction (c := ',') with
    | single p hp =>
      rw [listItems_single hp,
        listItems_single fun h => (List.mem_append.mp h).elim hp hcomma]
      exact content_singleton_congr (trim_append_blank hws)
    | append p r hp _ ih =>
      rw [List.append_assoc, List.cons_append, listItems_append, ih, listItems_append]
  obtain ⟨ws, ws', hv, hws, hws'⟩ := exists_trim v
  conv_rhs => rw [hv]
  rw [hfront hws, hback hws']

/-! ## What the replacement makes of one block -/

/-- The blocks that a block becomes, by the text it is written with. -/
def splitCidr (t : Text) (c : Cidr) : List Cidr :=
  if c.prefixLen ≠ 0 then [c]
  else if WrittenV4 t then [.half c.addr, .half (.v4 (.ofOctets 128 0 0 0))]
  else if WrittenV6 t then [.half c.addr, .half (.v6 (.ofGroups [0x8000, 0, 0, 0, 0, 0, 0, 0]))]
  else [c]

/-- The replacement works item by item. -/
theorem splitDefaultRoutes_append (p r : Text) :
    splitDefaultRoutes (p ++ ',' :: r) = splitDefaultRoutes p ++ ',' :: splitDefaultRoutes r := by
  unfold splitDefaultRoutes
  rw [replace_append_cons (by decide) (by decide), replace_append_cons (by decide) (by decide)]

section

variable {x a d : Text}

/-- A block that is not written like one of the two default routes stays as it is. -/
theorem splitDefaultRoutes_other (ha : '/' ∉ a) (hd : '/' ∉ d)
    (hfour : ¬ ("0.0.0.0".toList <:+ a ∧ "0".toList <+: d))
    (hsix : ¬ ("::".toList <:+ a ∧ "0".toList <+: d)) :
    splitDefaultRoutes (a ++ '/' :: d) = a ++ '/' :: d := by
  show replace ("::".toList ++ '/' :: "0".toList) _
    (replace ("0.0.0.0".toList ++ '/' :: "0".toList) _ _) = _
  rw [replace_marker_eq_self (by decide) ha hd hfour,
    replace_marker_eq_self (by decide) ha hd hsix]

/-- The IPv4 default route becomes two halves, -/
theorem splitDefaultRoutes_v4 (hx : '/' ∉ x) :
    splitDefaultRoutes (x ++ "0.0.0.0".toList ++ '/' :: "0".toList)
      = x ++ "0.0.0.0".toList ++ '/' :: "1".toList ++ ',' :: " 128.0.0.0/1".toList := by
  have ha : '/' ∉ x ++ "0.0.0.0".toList := fun h => (List.mem_append.mp h).elim hx (by decide)
  -- the slash stands in the pattern once, so there is one match at most
  have hmatch : replace ("0.0.0.0".toList ++ '/' :: "0".toList) "0.0.0.0/1, 128.0.0.0/1".toList
      (x ++ "0.0.0.0".toList ++ '/' :: ("0".toList ++ []))
        = x ++ ("0.0.0.0/1, 128.0.0.0/1".toList ++ []) :=
    replace_marker_match (by decide) hx List.not_mem_nil
  have hsplit : x ++ ("0.0.0.0/1, 128.0.0.0/1".toList ++ [])
      = x ++ "0.0.0.0".toList ++ '/' :: "1".toList ++ ',' :: " 128.0.0.0/1".toList := by
    simp
  rw [List.append_nil, hsplit] at hmatch
  show replace ("::".toList ++ '/' :: "0".toList) _ (replace ("0.0.0.0".toList ++ '/' :: "0".toList)
    _ _) = _
  rw [hmatch, replace_append_cons (by decide) (by decide),
    replace_marker_eq_self (by decide) ha (by decide) fun h => absurd h.2 (by decide)]
  rfl

/-- and so does the IPv6 one. -/
theorem splitDefaultRoutes_v6 (hx : '/' ∉ x) :
    splitDefaultRoutes (x ++ "::".toList ++ '/' :: "0".toList)
      = x ++ "::".toList ++ '/' :: "1".toList ++ ',' :: " 8000::/1".toList := by
  have ha : '/' ∉ x ++ "::".toList := fun h => (List.mem_append.mp h).elim hx (by decide)
  -- the first replacement finds nothing: the two spellings end differently
  have hfour : ¬ "0.0.0.0".toList <:+ x ++ "::".toList := by
    rintro ⟨u, hu⟩
    have hlast := congrArg List.getLast? hu
    simp at hlast
  have hmatch : replace ("::".toList ++ '/' :: "0".toList) "::/1, 8000::/1".toList
      (x ++ "::".toList ++ '/' :: ("0".toList ++ [])) = x ++ ("::/1, 8000::/1".toList ++ []) :=
    replace_marker_match (by decide) hx List.not_mem_nil
  rw [List.append_nil] at hmatch
  show replace ("::".toList ++ '/' :: "0".toList) _ (replace ("0.0.0.0".toList ++ '/' :: "0".toList)
    _ _) = _
  rw [replace_marker_eq_self (by decide) ha (by decide) fun h => hfour h.1, hmatch]
  simp

/-- The first of two halves keeps the address of the block. -/
theorem listItems_half (htrim : trim (a ++ '/' :: d) = a ++ '/' :: d)
    (hcomma : ',' ∉ a) : listItems (a ++ '/' :: "1".toList) = [a ++ '/' :: "1".toList] := by
  have htrimmed := trim_eq_self_iff.mp htrim
  have hhead : Trimmed isWhitespace (a ++ '/' :: "1".toList) := by
    refine ⟨fun c hc => htrimmed.head c ?_, fun c hc => ?_⟩
    · rw [List.head?_append] at hc ⊢
      exact hc
    · rw [List.getLast?_append] at hc
      cases hc
      decide
  rw [listItems_single fun h => (List.mem_append.mp h).elim hcomma (by decide),
    content_singleton (trim_eq_self_iff.mpr hhead) (by simp)]

end

theorem suffix_default {x a : Text} :
    x ++ '/' :: "0".toList <:+ a ++ '/' :: "0".toList ↔ x <:+ a :=
  List.suffix_append_self_iff

/-- A block that is written as two. -/
theorem parse_halves {a d upperText : Text} {addr upper : IpAddr}
    (htrim : trim (a ++ '/' :: d) = a ++ '/' :: d) (hcomma : ',' ∉ a) (ha : '/' ∉ a)
    (haddr : IpAddr.parse a = some addr)
    (hsplit : splitDefaultRoutes (a ++ '/' :: d) = a ++ '/' :: "1".toList ++ ',' :: upperText)
    (hupper : (listItems upperText).map Cidr.parse = [some (.half upper)]) :
    (listItems (splitDefaultRoutes (a ++ '/' :: d))).map Cidr.parse
      = [some (.half addr), some (.half upper)] := by
  have hlower : Cidr.parse (a ++ '/' :: "1".toList) = some (.half addr) :=
    Cidr.parse_append ha haddr (by decide) _
  rw [hsplit, listItems_append, listItems_half htrim hcomma, List.map_append, hupper,
    List.map_singleton, hlower]
  rfl

/-- **One block**, and what it is written as afterwards. -/
theorem parse_splitDefaultRoutes (htrim : trim t = t) (hcomma : ',' ∉ t)
    (h : Cidr.parse t = some c) :
    (listItems (splitDefaultRoutes t)).map Cidr.parse = (splitCidr t c).map some := by
  obtain ⟨a, d, rfl, ha, haddr, hd⟩ := Cidr.parse_eq_some h
  have hacomma : ',' ∉ a := fun hmem => hcomma (List.mem_append_left _ hmem)
  have hdslash : '/' ∉ d := fun hmem => by cases isDigit_of_readDecimal hd '/' hmem
  have hitem : listItems (a ++ '/' :: d) = [a ++ '/' :: d] := by
    rw [listItems_single hcomma, content_singleton htrim (by simp)]
  unfold splitCidr
  rcases readDecimal_cases hd with ⟨rfl, hzero⟩ | ⟨hhead, hlen⟩
  · rw [if_neg (not_not_intro hzero)]
    split
    · next hfour =>
      -- written like `0.0.0.0/0`: the first half keeps what stands in front
      obtain ⟨x, rfl⟩ := (suffix_default (x := "0.0.0.0".toList)).mp hfour
      have hx : '/' ∉ x := fun hmem => ha (List.mem_append_left _ hmem)
      exact parse_halves htrim hacomma ha haddr (splitDefaultRoutes_v4 hx) (by decide)
    split
    · next hsix =>
      obtain ⟨x, rfl⟩ := (suffix_default (x := "::".toList)).mp hsix
      have hx : '/' ∉ x := fun hmem => ha (List.mem_append_left _ hmem)
      exact parse_halves htrim hacomma ha haddr (splitDefaultRoutes_v6 hx) (by decide)
    · next hfour hsix =>
      -- another spelling: left as it is
      rw [splitDefaultRoutes_other ha hdslash (fun h => hfour (suffix_default.mpr h.1))
        (fun h => hsix (suffix_default.mpr h.1)), hitem, List.map_singleton, h]
      rfl
  · -- no prefix length but 0 begins with a zero
    have hno : ¬ "0".toList <+: d := by
      rintro ⟨y, rfl⟩
      exact hhead rfl
    rw [if_pos hlen, splitDefaultRoutes_other ha hdslash (fun h => hno h.2) (fun h => hno h.2),
      hitem, List.map_singleton, h]
    rfl

/-! ## The list -/

theorem isCidrList_append : IsCidrList (p ++ ',' :: r) ↔ IsCidrList p ∧ IsCidrList r := by
  unfold IsCidrList
  rw [listItems_append, List.forall_mem_append]

/-- Field by field, for any list of blocks. -/
theorem parse_listItems_split (h : IsCidrList v) :
    (listItems (splitDefaultRoutes v)).map Cidr.parse
      = (listItems v).flatMap fun t => ((Cidr.parse t).toList.flatMap (splitCidr t)).map some := by
  induction v using field_induction (c := ',') with
  | single p hp =>
    have hitems : listItems (splitDefaultRoutes p) = listItems (splitDefaultRoutes (trim p)) := by
      rw [← listItems_trim, trim_splitDefaultRoutes, listItems_trim]
    have htrimmed : ',' ∉ trim p := fun hmem => hp (trimMatches_subset p hmem)
    -- an empty item is no item
    by_cases hblank : trim p = []
    · rw [hitems, ← listItems_trim p, hblank]
      rfl
    · have hitem : listItems p = [trim p] := by
        rw [← listItems_trim, listItems_single htrimmed, content_singleton (trim_trim p) hblank]
      obtain ⟨c, hc⟩ := h (trim p) (hitem ▸ List.mem_singleton_self _)
      rw [hitems, parse_splitDefaultRoutes (trim_trim p) htrimmed hc, hitem]
      simp [hc]
  | append p r hp hfirst ih =>
    obtain ⟨hpl, hrl⟩ := isCidrList_append.mp h
    rw [splitDefaultRoutes_append, listItems_append, List.map_append, hfirst hpl, ih hrl,
      listItems_append, List.flatMap_append]

/-- The blocks of the rewritten list. -/
theorem hasCidr_split_iff (h : IsCidrList v) {c' : Cidr} :
    (∃ t', HasCidr (trim (splitDefaultRoutes v)) t' c')
      ↔ ∃ t c, HasCidr v t c ∧ c' ∈ splitCidr t c := by
  have hmem : (∃ t', HasCidr (trim (splitDefaultRoutes v)) t' c')
      ↔ some c' ∈ (listItems (splitDefaultRoutes v)).map Cidr.parse := by
    unfold HasCidr
    rw [listItems_trim, List.mem_map]
  rw [hmem, parse_listItems_split h, List.mem_flatMap]
  constructor
  · rintro ⟨t, ht, hc'⟩
    -- each new item comes from an old one
    obtain ⟨_, hc', hsome⟩ := List.mem_map.mp hc'
    cases hsome
    obtain ⟨c, hc, hc'⟩ := List.mem_flatMap.mp hc'
    exact ⟨t, c, ⟨ht, Option.mem_toList.mp hc⟩, hc'⟩
  · rintro ⟨t, c, ⟨ht, hc⟩, hc'⟩
    refine ⟨t, ht, List.mem_map.mpr ⟨c', List.mem_flatMap.mpr ⟨c, ?_, hc'⟩, rfl⟩⟩
    exact Option.mem_toList.mpr hc

theorem isCidrList_split (h : IsCidrList v) : IsCidrList (trim (splitDefaultRoutes v)) := by
  intro t ht
  rw [listItems_trim] at ht
  have hmem : Cidr.parse t ∈ (listItems (splitDefaultRoutes v)).map Cidr.parse :=
    List.mem_map_of_mem ht
  rw [parse_listItems_split h] at hmem
  obtain ⟨_, -, hmem⟩ := List.mem_flatMap.mp hmem
  obtain ⟨c, -, hc⟩ := List.mem_map.mp hmem
  exact ⟨c, hc.symm⟩

/-! ## The halves -/

section

variable {a x : IpAddr}

/-- Only an IPv6 address is written with a colon. -/
theorem HasDefault.isIpv6 (h : HasDefault v t a) (hsix : WrittenV6 t) : a.isIpv6 = true := by
  obtain ⟨s, d, rfl, -, haddr, hd⟩ := Cidr.parse_eq_some h.2
  have hmem : ':' ∈ s ++ '/' :: d := hsix.subset (by decide)
  cases a with
  | v6 _ => rfl
  | v4 addr =>
    exfalso
    rcases List.mem_append.mp hmem with hs | hrest
    · exact colon_notMem_of_parse (IpAddr.parse_v4 haddr) hs
    · rcases List.mem_cons.mp hrest with hslash | hdmem
      · cases hslash
      · cases isDigit_of_readDecimal hd ':' hdmem

theorem not_written_both (hfour : WrittenV4 t) (hsix : WrittenV6 t) : False :=
  absurd (List.suffix_of_suffix_length_le hsix hfour (by decide)) (by decide)

/-- What the two halves of a default route cover. -/
theorem splitCidr_whole (hwritten : WrittenV4 t ∨ WrittenV6 t) :
    (∃ c' ∈ splitCidr t (.whole a), c'.Covers x) ↔
      a.isIpv6 = x.isIpv6 ∧ a.msb = x.msb
        ∨ x.msb = true ∧ (x.isIpv6 = false ∧ WrittenV4 t ∨ x.isIpv6 = true ∧ WrittenV6 t) := by
  -- the lower half has the address's family, the upper one its own
  have htwo : ∀ upper : IpAddr, upper.msb = true →
      ((∃ c' ∈ [Cidr.half a, .half upper], c'.Covers x) ↔
        a.isIpv6 = x.isIpv6 ∧ a.msb = x.msb ∨ x.msb = true ∧ x.isIpv6 = upper.isIpv6) := by
    intro upper hupper
    simp only [List.mem_cons, List.not_mem_nil, or_false, exists_eq_or_imp, exists_eq_left,
      Cidr.half_covers, hupper]
    refine or_congr_right ?_
    rw [and_comm, eq_comm, @eq_comm _ upper.isIpv6]
  have hlen : ¬ (Cidr.whole a).prefixLen ≠ 0 := not_not_intro rfl
  by_cases hfour : WrittenV4 t
  · -- the two ways of writing exclude each other
    have hsix : ¬ WrittenV6 t := fun hsix => not_written_both hfour hsix
    have hsplit : splitCidr t (.whole a) = [.half a, .half (.v4 (.ofOctets 128 0 0 0))] := by
      rw [splitCidr, if_neg hlen, if_pos hfour]
      rfl
    rw [hsplit, htwo _ (by decide)]
    simp [hfour, hsix, IpAddr.isIpv6]
  · have hsix : WrittenV6 t := hwritten.resolve_left hfour
    have hsplit : splitCidr t (.whole a)
        = [.half a, .half (.v6 (.ofGroups [0x8000, 0, 0, 0, 0, 0, 0, 0]))] := by
      rw [splitCidr, if_neg hlen, if_neg hfour, if_pos hsix]
      rfl
    rw [hsplit, htwo _ (by decide)]
    simp [hfour, hsix, IpAddr.isIpv6]

/-- No default route is left exactly when all have one of the two spellings. -/
theorem splitCidr_prefixLen (t : Text) (c : Cidr) : (∀ c' ∈ splitCidr t c, c'.prefixLen ≠ 0) ↔
    (c.prefixLen = 0 → WrittenV4 t ∨ WrittenV6 t) := by
  unfold splitCidr
  split
  · next hlen => simp [hlen]
  · next hlen =>
    split
    · next hfour => simp [hfour, Cidr.half]
    · next hfour =>
      split
      · next hsix => simp [hsix, Cidr.half]
      · next hsix => simp [hfour, hsix]

/-- An allowed address is allowed by a default route or without one. -/
theorem mem_allowedSet : x ∈ allowedSet v ↔
    x ∈ allowedWithoutDefault v ∨ ∃ t a, HasDefault v t a ∧ a.isIpv6 = x.isIpv6 := by
  constructor
  · rintro ⟨t, c, hc, hcovers⟩
    by_cases hlen : c.prefixLen = 0
    · rw [Cidr.eq_whole hlen] at hc hcovers
      exact .inr ⟨t, c.addr, hc, Cidr.whole_covers.mp hcovers⟩
    · exact .inl ⟨t, c, hc, hlen, hcovers⟩
  · rintro (⟨t, c, hc, -, hcovers⟩ | ⟨t, a, ha, hfamily⟩)
    · exact ⟨t, c, hc, hcovers⟩
    · exact ⟨t, .whole a, ha, Cidr.whole_covers.mpr hfamily⟩

/-- The same for the rewritten list, where a default route is two halves. -/
theorem mem_allowedSet_split (hlist : IsCidrList v)
    (hwritten : ∀ t a, HasDefault v t a → WrittenV4 t ∨ WrittenV6 t) :
    x ∈ allowedSet (trim (splitDefaultRoutes v)) ↔
      x ∈ allowedWithoutDefault v ∨ ∃ t a, HasDefault v t a ∧
        (a.isIpv6 = x.isIpv6 ∧ a.msb = x.msb ∨ x.msb = true ∧
          (x.isIpv6 = false ∧ WrittenV4 t ∨ x.isIpv6 = true ∧ WrittenV6 t)) := by
  have hmem : x ∈ allowedSet (trim (splitDefaultRoutes v)) ↔
      ∃ t c, HasCidr v t c ∧ ∃ c' ∈ splitCidr t c, c'.Covers x := by
    constructor
    · rintro ⟨t', c', hc', hcovers⟩
      obtain ⟨t, c, hc, hmem⟩ := (hasCidr_split_iff hlist).mp ⟨t', hc'⟩
      exact ⟨t, c, hc, c', hmem, hcovers⟩
    · rintro ⟨t, c, hc, c', hmem, hcovers⟩
      obtain ⟨t', hc'⟩ := (hasCidr_split_iff hlist).mpr ⟨t, c, hc, hmem⟩
      exact ⟨t', c', hc', hcovers⟩
  rw [hmem]
  constructor
  · rintro ⟨t, c, hc, c', hmem, hcovers⟩
    -- a default route is split, any other item stays as it is
    by_cases hlen : c.prefixLen = 0
    · rw [Cidr.eq_whole hlen] at hc hmem
      exact .inr ⟨t, c.addr, hc,
        (splitCidr_whole (hwritten t c.addr hc)).mp ⟨c', hmem, hcovers⟩⟩
    · rw [splitCidr, if_pos hlen] at hmem
      rw [List.mem_singleton.mp hmem] at hcovers
      exact .inl ⟨t, c, hc, hlen, hcovers⟩
  · rintro (⟨t, c, hc, hlen, hcovers⟩ | ⟨t, a, ha, hhalf⟩)
    · refine ⟨t, c, hc, c, ?_, hcovers⟩
      rw [splitCidr, if_pos hlen]
      exact List.mem_singleton_self c
    · exact ⟨t, .whole a, ha, (splitCidr_whole (hwritten t a ha)).mpr hhalf⟩

/-- Then the list allows what it has allowed before. -/
theorem SplitsEvenly.allowedSet_eq (hlist : IsCidrList v) (h : SplitsEvenly v) :
    allowedSet (trim (splitDefaultRoutes v)) = allowedSet v := by
  ext x
  rw [mem_allowedSet_split hlist h.written, mem_allowedSet]
  constructor
  · rintro (hrest | ⟨t, a, ha, ⟨hfamily, -⟩ | ⟨hupper, ⟨hv4, hfour⟩ | ⟨hv6, hsix⟩⟩⟩)
    · exact .inl hrest
    · exact .inr ⟨t, a, ha, hfamily⟩
    · -- the upper IPv4 half was added
      rcases h.upperV4 ⟨t, a, ha, hfour⟩ with ⟨t', a', ha', hfamily⟩ | hrest
      · exact .inr ⟨t', a', ha', hfamily.trans hv4.symm⟩
      · exact .inl (hrest ⟨hv4, hupper⟩)
    · exact .inr ⟨t, a, ha, (ha.isIpv6 hsix).trans hv6.symm⟩
  · rintro (hrest | ⟨t, a, ha, hfamily⟩)
    · exact .inl hrest
    · cases hmsb : x.msb with
      | false =>
        rcases h.lower x.isIpv6 ⟨t, a, ha, hfamily⟩ with ⟨t', a', ha', hfamily', hlow⟩ | hrest
        · exact .inr ⟨t', a', ha', .inl ⟨hfamily', hlow⟩⟩
        · exact .inl (hrest ⟨rfl, hmsb⟩)
      | true =>
        cases hv6 : x.isIpv6 with
        | false =>
          -- an IPv4 default route has the IPv4 spelling
          rcases h.written t a ha with hfour | hsix
          · exact .inr ⟨t, a, ha, .inr ⟨rfl, .inl ⟨rfl, hfour⟩⟩⟩
          · rw [ha.isIpv6 hsix, hv6] at hfamily
            cases hfamily
        | true =>
          rcases h.upperV6 ⟨t, a, ha, hfamily.trans hv6⟩ with
            ⟨t', a', ha', hsix⟩ | ⟨t', a', ha', hfamily', hhigh⟩ | hrest
          · exact .inr ⟨t', a', ha', .inr ⟨rfl, .inr ⟨rfl, hsix⟩⟩⟩
          · exact .inr ⟨t', a', ha', .inl ⟨hfamily', hhigh⟩⟩
          · exact .inl (hrest ⟨hv6, hmsb⟩)

/-- And only then, as long as every default route has one of the two spellings. -/
theorem splitsEvenly_of_allowedSet_eq (hlist : IsCidrList v)
    (hwritten : ∀ t a, HasDefault v t a → WrittenV4 t ∨ WrittenV6 t)
    (hset : allowedSet (trim (splitDefaultRoutes v)) = allowedSet v) : SplitsEvenly v := by
  have hiff := fun x => Set.ext_iff.mp hset x
  simp only [mem_allowedSet_split hlist hwritten, mem_allowedSet] at hiff
  refine ⟨hwritten, fun isV6 hdefault => ?_, fun hdefault => ?_, fun hdefault => ?_⟩
  · -- only a default route's own address adds lower addresses
    refine or_iff_not_imp_left.mpr fun hnone x ⟨hfamily, hlow⟩ => ?_
    obtain ⟨t, a, ha, hv6⟩ := hdefault
    rcases (hiff x).mpr (.inr ⟨t, a, ha, hv6.trans hfamily.symm⟩) with
      hrest | ⟨t', a', ha', ⟨hfamily', hlow'⟩ | ⟨hupper, -⟩⟩
    · exact hrest
    · exact absurd ⟨t', a', ha', hfamily'.trans hfamily, hlow'.trans hlow⟩ hnone
    · rw [hlow] at hupper
      cases hupper
  · -- what the IPv4 spelling adds must have been allowed
    refine or_iff_not_imp_left.mpr fun hnone x ⟨hfamily, hhigh⟩ => ?_
    obtain ⟨t, a, ha, hfour⟩ := hdefault
    rcases (hiff x).mp (.inr ⟨t, a, ha, .inr ⟨hhigh, .inl ⟨hfamily, hfour⟩⟩⟩) with
      hrest | ⟨t', a', ha', hfamily'⟩
    · exact hrest
    · exact absurd ⟨t', a', ha', hfamily'.trans hfamily⟩ hnone
  · -- the upper IPv6 half comes from the IPv6 spelling or from an address in it
    refine or_iff_not_imp_left.mpr fun hnosix => or_iff_not_imp_left.mpr fun hnohigh x hx => ?_
    obtain ⟨hfamily, hhigh⟩ := hx
    obtain ⟨t, a, ha, hv6⟩ := hdefault
    rcases (hiff x).mpr (.inr ⟨t, a, ha, hv6.trans hfamily.symm⟩) with
      hrest | ⟨t', a', ha', ⟨hfamily', hhigh'⟩ | ⟨-, ⟨hv4, -⟩ | ⟨-, hsix⟩⟩⟩
    · exact hrest
    · exact absurd ⟨t', a', ha', hfamily'.trans hfamily, hhigh'.trans hhigh⟩ hnohigh
    · rw [hfamily] at hv4
      cases hv4
    · exact absurd ⟨t', a', ha', hsix⟩ hnosix

/-- A default route stays if it is written in another way. -/
theorem prefixLen_split_iff (hlist : IsCidrList v) :
    (∀ t c, HasCidr (trim (splitDefaultRoutes v)) t c → c.prefixLen ≠ 0) ↔
      ∀ t a, HasDefault v t a → WrittenV4 t ∨ WrittenV6 t := by
  constructor
  · intro h t a ha
    refine (splitCidr_prefixLen t (.whole a)).mp (fun c' hc' => ?_) rfl
    obtain ⟨t', hc'⟩ := (hasCidr_split_iff hlist).mpr ⟨t, _, ha, hc'⟩
    exact h t' c' hc'
  · intro h t' c' hc'
    obtain ⟨t, c, hc, hmem⟩ := (hasCidr_split_iff hlist).mp ⟨t', hc'⟩
    refine (splitCidr_prefixLen t c).mpr (fun hlen => ?_) c' hmem
    rw [Cidr.eq_whole hlen] at hc
    exact h t c.addr hc

/-- **Which lists mean the same afterwards.** -/
theorem splitsEvenly_iff (hlist : IsCidrList v) :
    (allowedSet (trim (splitDefaultRoutes v)) = allowedSet v ∧
      ∀ t c, HasCidr (trim (splitDefaultRoutes v)) t c → c.prefixLen ≠ 0)
      ↔ SplitsEvenly v := by
  rw [prefixLen_split_iff hlist]
  exact ⟨fun h => splitsEvenly_of_allowedSet_eq hlist h.2 h.1,
    fun h => ⟨h.allowedSet_eq hlist, h.written⟩⟩

end

/-! ## The line -/

/-- The value of line `i` of section `j`, when it is an `AllowedIPs` entry of a [Peer]. -/
def allowedIpsAt (env : Externals) (conf : Text) (j i : Nat) : Option Text :=
  (readSections conf).2[j]?.bind fun s =>
    if s.isPeer then
      s.body[i]?.bind fun l => (entry env l).bind fun (key, val) =>
        if key = "allowedips".toList then some val else none
    else none

variable {env : Externals} {localPort : BitVec 16} {l : Text}

theorem trim_trimEnd (s : Text) : trim (trimEnd s) = trim s := by
  have hend : trimEnd s ++ s.rtakeWhile isWhitespace = s := List.rdropWhile_append_rtakeWhile ..
  conv_rhs => rw [← hend, trim_append_blank fun c hc => List.mem_rtakeWhile_imp hc]

/-- The key of an `AllowedIPs` entry: neither empty nor with a slash. -/
theorem slash_notMem_key {k : Text}
    (hkey : env.casing.toLowercase (trim k) = "allowedips".toList) : '/' ∉ k ∧ trim k ≠ [] := by
  have hslash : '/' ∉ trim k := by
    intro hmem
    have hlower : '/'.toLower ∈ env.casing.toLowercase (trim k) :=
      CaseData.mem_lowerFrom (by decide) hmem
    rw [hkey] at hlower
    exact absurd hlower (by decide)
  refine ⟨fun hmem => ?_, fun hnil => ?_⟩
  · obtain ⟨ws, we, hk, hws, hwe⟩ := exists_trim k
    rw [hk] at hmem
    rcases List.mem_append.mp hmem with h | h
    · exact absurd (hws '/' h) (by decide)
    · exact (List.mem_append.mp h).elim hslash fun h => absurd (hwe '/' h) (by decide)
  · rw [hnil] at hkey
    cases hkey

/-- The replacement changes the value of an entry and leaves its key. -/
theorem entry_splitDefaultRoutes (htrim : trim l = l)
    (hentry : entry env l = some ("allowedips".toList, v)) :
    entry env (trim (splitDefaultRoutes l))
      = some ("allowedips".toList, trim (splitDefaultRoutes v)) := by
  unfold entry at hentry
  split at hentry
  · cases hentry
  · next hskip =>
    obtain ⟨⟨k, v'⟩, hsplit, heq⟩ := Option.map_eq_some_iff.mp hentry
    obtain ⟨hkey, hv⟩ := Prod.mk.inj heq
    obtain ⟨hslash, hne⟩ := slash_notMem_key hkey
    obtain ⟨hl, heq⟩ := splitOnce_eq_some hsplit
    have hreplaced : splitDefaultRoutes l = k ++ '=' :: splitDefaultRoutes v' := by
      rw [hl]
      unfold splitDefaultRoutes
      rw [replace_append_cons (by decide) (by decide), replace_append_cons (by decide) (by decide),
        replace_of_notMem (c := '/') (by decide) hslash,
        replace_of_notMem (c := '/') (by decide) hslash]
    cases k with
    | nil => exact absurd rfl hne
    | cons c cs =>
      -- the line begins with its key, which trimming leaves alone
      have hword : Word (c :: cs ++ ['=']) := by
        refine ⟨fun d hd => ?_, fun d hd => ?_, by simp⟩
        · cases hd
          refine (trim_eq_self_iff.mp htrim).head c ?_
          rw [hl]
          rfl
        · rw [List.getLast?_append] at hd
          cases hd
          decide
      have htrimmed : trim (splitDefaultRoutes l)
          = c :: cs ++ '=' :: trimEnd (splitDefaultRoutes v') := by
        have h := trim_word (List.forall_mem_nil _) hword (r := splitDefaultRoutes v')
        rw [hreplaced]
        simpa using h
      have hstill : isSkipped (c :: cs ++ '=' :: trimEnd (splitDefaultRoutes v')) = false := by
        rw [hl] at hskip
        exact Bool.eq_false_iff.mpr hskip
      have hsplit : splitOnce '=' (c :: cs ++ '=' :: trimEnd (splitDefaultRoutes v'))
          = some (c :: cs ++ [], trimEnd (splitDefaultRoutes v')) := by
        rw [splitOnce_append heq, splitOnce, if_pos rfl]
        rfl
      rw [htrimmed, entry_of_splitOnce hstill hsplit, List.append_nil, hkey, trim_trimEnd, trim_splitDefaultRoutes v', hv]

/-- The rewritten line has the same place in its section. -/
theorem allowedIpsAt_rewrite {conf : Text} {j i : Nat} (h : allowedIpsAt env conf j i = some v) :
    allowedIpsAt env (rewriteEndpointToLoopback env conf localPort) j i
      = some (trim (splitDefaultRoutes v)) := by
  obtain ⟨s, hs, h⟩ := Option.bind_eq_some_iff.mp h
  split at h
  · next hpeer =>
    obtain ⟨l, hl, h⟩ := Option.bind_eq_some_iff.mp h
    obtain ⟨⟨key, val⟩, hentry, h⟩ := Option.bind_eq_some_iff.mp h
    simp only at h
    split at h
    · next hkey =>
      subst hkey
      cases h
      obtain ⟨htrim, -⟩ := clean_body (List.mem_of_getElem? hs) l (List.mem_of_getElem? hl)
      have hips : startsLower env "allowedips".toList l = true :=
        startsLower_of_entry (by decide) (by decide) htrim hentry
      have hend : startsLower env "endpoint".toList l = false :=
        startsLower_ne (by decide) (by decide) (by decide) hips
      have hline : bodyLine env localPort false true l = trim (splitDefaultRoutes l) := by
        rw [bodyLine, hend, hips]
        rfl
      have hbody : (s.rewritten env localPort).body[i]? = some (trim (splitDefaultRoutes l)) := by
        show (rewrittenBody env localPort s.isInterface s.isPeer s.body)[i]? = _
        rw [ConfSection.not_isInterface hpeer, hpeer, rewrittenBody, List.getElem?_append_left,
          List.getElem?_map, hl, Option.map_some, hline]
        rw [List.length_map]
        exact (List.getElem?_eq_some_iff.mp hl).1
      have hsection : (readSections (rewriteEndpointToLoopback env conf localPort)).2[j]?
          = some (s.rewritten env localPort) := by
        rw [readSections_rewrite, List.getElem?_map, hs, Option.map_some]
      have hstill : (s.rewritten env localPort).isPeer = true := hpeer
      rw [allowedIpsAt, hsection, Option.bind_some, if_pos hstill, hbody, Option.bind_some,
        entry_splitDefaultRoutes htrim hentry]
      rfl
    · cases h
  · cases h

/-- **The allowed addresses of the loopback configuration**: for every list of blocks in an
`AllowedIPs` entry of a [Peer], the entry of the rewritten text allows the same addresses
without a block of prefix length 0, exactly when the default routes split evenly. -/
theorem rewrite_allowedIps_iff (env : Externals) (conf : Text) (localPort : BitVec 16)
    (j i : Nat) (v : Text) (hentry : allowedIpsAt env conf j i = some v) (hlist : IsCidrList v) :
    (∃ v', allowedIpsAt env (rewriteEndpointToLoopback env conf localPort) j i = some v' ∧
      IsCidrList v' ∧ allowedSet v' = allowedSet v ∧ ∀ t c, HasCidr v' t c → c.prefixLen ≠ 0)
      ↔ SplitsEvenly v := by
  rw [← splitsEvenly_iff hlist, allowedIpsAt_rewrite hentry]
  constructor
  · rintro ⟨_, hv', -, hset, hlong⟩
    cases hv'
    exact ⟨hset, hlong⟩
  · rintro ⟨hset, hlong⟩
    exact ⟨_, rfl, isCidrList_split hlist, hset, hlong⟩

def samplePeer (allowedIps : String) : Text := "[Peer]\nAllowedIPs = ".toList ++ allowedIps.toList

theorem isCidrList_of_all (h : (listItems v).all (fun t => (Cidr.parse t).isSome) = true) :
    IsCidrList v :=
  fun t ht => Option.isSome_iff_exists.mp (List.all_eq_true.mp h t ht)

/-- Both default routes, as they are usually written. -/
theorem rewrite_allowedIps_iff_usual :
    ∃ v', allowedIpsAt sampleExternals (rewriteEndpointToLoopback sampleExternals
        (samplePeer "0.0.0.0/0, ::/0") 13255) 0 0 = some v' ∧ IsCidrList v' ∧
      allowedSet v' = allowedSet "0.0.0.0/0, ::/0".toList ∧
      ∀ t c, HasCidr v' t c → c.prefixLen ≠ 0 := by
  have hitems : listItems "0.0.0.0/0, ::/0".toList = ["0.0.0.0/0".toList, "::/0".toList] := by
    decide
  have hv4 : HasDefault "0.0.0.0/0, ::/0".toList "0.0.0.0/0".toList (.v4 0) :=
    ⟨by decide, by decide⟩
  have hv6 : HasDefault "0.0.0.0/0, ::/0".toList "::/0".toList (.v6 0) := ⟨by decide, by decide⟩
  refine (rewrite_allowedIps_iff sampleExternals (samplePeer "0.0.0.0/0, ::/0") 13255 0 0 _
    (by decide +kernel) (isCidrList_of_all (by decide))).mpr ⟨fun t a ha => ?_, fun isV6 _ => ?_,
    fun _ => .inl ⟨_, _, hv4, rfl⟩, fun _ => .inl ⟨_, _, hv6, by decide⟩⟩
  · have ht := ha.1
    rw [hitems] at ht
    simp only [List.mem_cons, List.not_mem_nil, or_false] at ht
    rcases ht with rfl | rfl
    · exact .inl (by decide)
    · exact .inr (by decide)
  · cases isV6 with
    | false => exact .inl ⟨_, _, hv4, rfl, by decide⟩
    | true => exact .inl ⟨_, _, hv6, rfl, by decide⟩

/-- Another spelling of the IPv6 default route is left as it is. -/
theorem rewrite_allowedIps_keeps_default :
    allowedIpsAt sampleExternals (samplePeer "0.0.0.0/0, ::0/0") 0 0
        = some "0.0.0.0/0, ::0/0".toList ∧
      IsCidrList "0.0.0.0/0, ::0/0".toList ∧
      ¬ ∃ v', allowedIpsAt sampleExternals (rewriteEndpointToLoopback sampleExternals
          (samplePeer "0.0.0.0/0, ::0/0") 13255) 0 0 = some v' ∧ IsCidrList v' ∧
        allowedSet v' = allowedSet "0.0.0.0/0, ::0/0".toList ∧
        ∀ t c, HasCidr v' t c → c.prefixLen ≠ 0 := by
  have hentry : allowedIpsAt sampleExternals (samplePeer "0.0.0.0/0, ::0/0") 0 0
      = some "0.0.0.0/0, ::0/0".toList := by decide +kernel
  refine ⟨hentry, isCidrList_of_all (by decide), ?_⟩
  rintro ⟨v', hv', -, -, hlong⟩
  rw [allowedIpsAt_rewrite hentry] at hv'
  cases hv'
  exact hlong "::0/0".toList (.whole (.v6 0)) ⟨by decide +kernel, by decide⟩ rfl

end Phobos
