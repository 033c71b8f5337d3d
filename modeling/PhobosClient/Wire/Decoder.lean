import PhobosClient.Wire.Obfuscator

/-!
# PhobosClient — what the decoder accepts (`src/obfuscator.rs`)

`decode` reads whatever the network delivers. Once the mask is taken off, a buffer is one of
two things to it: a packet with a plain header (version 0), which is passed on as it is, or a
packet whose header hides type and dummy length, which is cut and cleared. `PlainHeader` and
`HiddenHeader` name the two; a header can be both, with a dummy length of zero and a byte 1 of
zero, and then the two readings agree (`hiddenPayload_of_plain`).

**`decode_exact`**: the accepted buffers and the result, for every buffer and configuration.
-/

namespace Phobos

open ByteFields

/-- A plain WireGuard header: a known type and three reserved zero bytes. -/
def PlainHeader (buf : Bytes) : Prop :=
  ∃ t rest, buf = t :: 0 :: 0 :: 0 :: rest ∧ 1 ≤ t ∧ t ≤ 4

/-- The type that byte 1 hides in byte 0. -/
def hiddenType (buf : Bytes) : UInt8 := buf.getD 0 0 ^^^ buf.getD 1 0

/-- The 16-bit number of dummy bytes in bytes 2..4. -/
def dummyField (buf : Bytes) : Nat := u16OfLe (buf.getD 2 0) (buf.getD 3 0)

/-- A header that hides a known type and a dummy length the buffer has room for. -/
structure HiddenHeader (buf : Bytes) : Prop where
  dummyField_le : dummyField buf ≤ buf.length - 4
  one_le_type : 1 ≤ hiddenType buf
  type_le_four : hiddenType buf ≤ 4

/-- The packet behind a hidden header: the dummy bytes cut off, the reserved bytes cleared. -/
def hiddenPayload (buf : Bytes) : Bytes :=
  hiddenType buf :: 0 :: 0 :: 0 :: (buf.take (buf.length - dummyField buf)).drop 4

/-- A buffer with room for a header, byte by byte. -/
theorem exists_header {buf : Bytes} (h : 4 ≤ buf.length) :
    ∃ b0 b1 b2 b3 rest, buf = b0 :: b1 :: b2 :: b3 :: rest := by
  match buf, h with
  | b0 :: b1 :: b2 :: b3 :: rest, _ => exact ⟨b0, b1, b2, b3, rest, rfl⟩

theorem PlainHeader.four_le_length {buf : Bytes} (h : PlainHeader buf) : 4 ≤ buf.length := by
  obtain ⟨t, rest, rfl, -⟩ := h
  simp

/-- `is_obfuscated` tells the plain headers from all others. -/
theorem isObfuscated_eq_false_iff {buf : Bytes} (h : 4 ≤ buf.length) :
    isObfuscated buf = false ↔ PlainHeader buf := by
  obtain ⟨b0, b1, b2, b3, rest, rfl⟩ := exists_header h
  simp only [isObfuscated, Bool.or_eq_false_iff, decide_eq_false_iff_not, ne_eq, not_not]
  constructor
  · rintro ⟨⟨hge, hle⟩, hzero⟩
    -- the OR of three bytes is zero only if each of them is
    obtain ⟨h12, h3⟩ := UInt8.or_eq_zero_iff.mp hzero
    obtain ⟨h1, h2⟩ := UInt8.or_eq_zero_iff.mp h12
    subst h1 h2 h3
    exact ⟨b0, rest, rfl, UInt8.not_lt.mp hge, UInt8.not_lt.mp hle⟩
  · rintro ⟨t, rest', heq, hge, hle⟩
    cases heq
    exact ⟨⟨UInt8.not_lt.mpr hge, UInt8.not_lt.mpr hle⟩, rfl⟩

/-- A plain header is a hidden one that hides its type behind zero and has no dummy bytes. -/
theorem PlainHeader.hidden {buf : Bytes} (h : PlainHeader buf) : HiddenHeader buf := by
  obtain ⟨t, rest, rfl, hge, hle⟩ := h
  have htype : hiddenType (t :: 0 :: 0 :: 0 :: rest) = t := UInt8.xor_zero
  refine ⟨?_, htype.symm ▸ hge, htype.symm ▸ hle⟩
  simp [dummyField, u16OfLe]

/-- The two readings of a plain header agree. -/
theorem hiddenPayload_of_plain {buf : Bytes} (h : PlainHeader buf) : hiddenPayload buf = buf := by
  obtain ⟨t, rest, rfl, -⟩ := h
  have htype : hiddenType (t :: 0 :: 0 :: 0 :: rest) = t := UInt8.xor_zero
  have hdummy : dummyField (t :: 0 :: 0 :: 0 :: rest) = 0 := rfl
  rw [hiddenPayload, htype, hdummy, Nat.sub_zero, List.take_length]
  rfl

theorem plainHeader_hiddenPayload {buf : Bytes} (h : HiddenHeader buf) :
    PlainHeader (hiddenPayload buf) :=
  ⟨_, _, rfl, h.one_le_type, h.type_le_four⟩

theorem isKnownPacketType_iff (b : UInt8) :
    isKnownPacketType (u32OfLe b 0 0 0) = true ↔ 1 ≤ b ∧ b ≤ 4 := by
  rw [u32OfLe_zero_upper, isKnownPacketType, Bool.and_eq_true, decide_eq_true_eq,
    decide_eq_true_eq, UInt8.le_iff_toNat_le, UInt8.le_iff_toNat_le]
  rfl

namespace Obfuscator

variable (o : Obfuscator)

/-- What `decode` makes of a buffer with a plain header behind the mask. -/
theorem decode_plain {b : Bytes} (hplain : PlainHeader (o.xorFront (o.xorLen b.length) b)) :
    o.decode b = (true, o.xorFront (o.xorLen b.length) b) := by
  have hlen : 4 ≤ b.length := by simpa using hplain.four_le_length
  have hobf := (isObfuscated_eq_false_iff (hplain.four_le_length)).mpr hplain
  rw [decode, if_neg (by omega)]
  dsimp only
  rw [hobf]
  rfl

/-- What `decode` makes of any other buffer: it accepts exactly the hidden headers. -/
theorem decode_hidden {b : Bytes} (hlen : 4 ≤ b.length)
    (hplain : ¬ PlainHeader (o.xorFront (o.xorLen b.length) b)) :
    ((o.decode b).1 = true ↔ HiddenHeader (o.xorFront (o.xorLen b.length) b))
      ∧ (HiddenHeader (o.xorFront (o.xorLen b.length) b) →
        (o.decode b).2 = hiddenPayload (o.xorFront (o.xorLen b.length) b)) := by
  have hbuf : 4 ≤ (o.xorFront (o.xorLen b.length) b).length := by simpa using hlen
  have hobf : isObfuscated (o.xorFront (o.xorLen b.length) b) = true := by
    rw [← Bool.not_eq_false, isObfuscated_eq_false_iff hbuf]
    exact hplain
  rw [decode, if_neg (by omega)]
  dsimp only
  rw [hobf]
  -- the header byte by byte, as the source reads it
  obtain ⟨d0, d1, d2, d3, rest, hD⟩ := exists_header hbuf
  rw [hD]
  simp only [Bool.not_true, Bool.false_eq_true, if_false]
  by_cases hdummy : u16OfLe d2 d3 > (d0 :: d1 :: d2 :: d3 :: rest).length - 4
  · -- more dummy bytes announced than there is room for
    rw [if_pos hdummy]
    have hnot : ¬ HiddenHeader (d0 :: d1 :: d2 :: d3 :: rest) := fun h =>
      absurd h.dummyField_le (Nat.not_le_of_lt hdummy)
    exact ⟨⟨fun h => absurd h (by simp), fun h => absurd h hnot⟩, fun h => absurd h hnot⟩
  · -- the dummy bytes fit, and the type decides
    rw [if_neg hdummy]
    constructor
    · rw [isKnownPacketType_iff]
      exact ⟨fun h => ⟨Nat.le_of_not_lt hdummy, h.1, h.2⟩,
        fun h => ⟨h.one_le_type, h.type_le_four⟩⟩
    · intro _
      rw [hiddenPayload, List.drop_take]
      rfl

/-- The buffers that are accepted. -/
theorem decode_accepts_iff (b : Bytes) : (o.decode b).1 = true ↔ 4 ≤ b.length ∧
    (PlainHeader (o.xorFront (o.xorLen b.length) b)
      ∨ HiddenHeader (o.xorFront (o.xorLen b.length) b)) := by
  by_cases hlen : 4 ≤ b.length
  · by_cases hplain : PlainHeader (o.xorFront (o.xorLen b.length) b)
    · rw [o.decode_plain hplain]
      exact ⟨fun _ => ⟨hlen, .inl hplain⟩, fun _ => rfl⟩
    · rw [(o.decode_hidden hlen hplain).1]
      exact ⟨fun h => ⟨hlen, .inr h⟩, fun h => h.2.resolve_left hplain⟩
  · rw [decode, if_pos (by omega)]
    exact ⟨fun h => absurd h (by simp), fun h => absurd h.1 hlen⟩

/-- The result for a hidden header, plain ones included. -/
theorem decode_of_hidden {b : Bytes} (hlen : 4 ≤ b.length)
    (h : HiddenHeader (o.xorFront (o.xorLen b.length) b)) :
    o.decode b = (true, hiddenPayload (o.xorFront (o.xorLen b.length) b)) := by
  by_cases hplain : PlainHeader (o.xorFront (o.xorLen b.length) b)
  · rw [o.decode_plain hplain, hiddenPayload_of_plain hplain]
  · obtain ⟨htrue, hresult⟩ := o.decode_hidden hlen hplain
    exact Prod.ext (htrue.mpr h) (hresult h)

/-- **What `decode` accepts and what it returns.** `D` is the buffer with its mask taken off:
all of it, or the first `obfuscateBytes` bytes when that is set and the buffer is longer. -/
theorem decode_exact (b : Bytes) :
    let maskedBytes := fun len =>
      if 0 < o.obfuscateBytes ∧ o.obfuscateBytes < len then o.obfuscateBytes else len
    let unmask := fun buf : Bytes =>
      xorData (buf.take (maskedBytes buf.length)) o.key ++ buf.drop (maskedBytes buf.length)
    let D := unmask b
    ((o.decode b).1 = true ↔ 4 ≤ b.length ∧ (PlainHeader D ∨ HiddenHeader D))
      ∧ (PlainHeader D → o.decode b = (true, D))
      ∧ (4 ≤ b.length → HiddenHeader D → o.decode b = (true, hiddenPayload D))
      ∧ ((o.decode b).1 = true → PlainHeader (o.decode b).2)
      ∧ (∀ p, PlainHeader p → o.decode (unmask p) = (true, p)) := by
  intro maskedBytes unmask D
  -- the lengths of the statement are those of the model
  have hmasked : ∀ len, maskedBytes len = o.xorLen len := by
    intro len
    simp only [maskedBytes, xorLen, isPartial_iff]
  have hunmask : ∀ buf, unmask buf = o.xorFront (o.xorLen buf.length) buf := by
    intro buf
    simp only [unmask, hmasked, xorFront]
  have hD : D = o.xorFront (o.xorLen b.length) b := hunmask b
  have haccept := o.decode_accepts_iff b
  have hhidden : 4 ≤ b.length → HiddenHeader D → o.decode b = (true, hiddenPayload D) := by
    intro hlen h
    rw [hD] at h ⊢
    exact o.decode_of_hidden hlen h
  rw [← hD] at haccept
  refine ⟨haccept, ?_, hhidden, ?_, ?_⟩
  · intro hplain
    rw [o.decode_plain (hD ▸ hplain), hD]
  · intro htrue
    obtain ⟨hlen, hheader⟩ := haccept.mp htrue
    -- a plain header is a hidden one too, so one case is enough
    have h : HiddenHeader D := hheader.elim PlainHeader.hidden id
    rw [hhidden hlen h]
    exact plainHeader_hiddenPayload h
  · -- masking twice is the identity
    intro p hp
    have hback : o.xorFront (o.xorLen (unmask p).length) (unmask p) = p := by
      rw [hunmask, length_xorFront, xorFront_xorFront]
    rw [o.decode_plain (hback.symm ▸ hp), hback]

end Obfuscator

end Phobos
