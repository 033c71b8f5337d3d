import PhobosClient.Lib.ByteFields
import PhobosClient.Wire.Crc8

/-!
# PhobosClient — the obfuscator (`src/obfuscator.rs`)

`encode` hides the header of a WireGuard packet: byte 0 is XORed with a random byte that
byte 1 then carries, bytes 2..4 carry the number of dummy bytes appended, and the first
`obfuscateBytes` bytes (or all of them) are masked with `xorData`. `decode` undoes the mask
and reads the header back.

The two sides decide separately how much to mask: `encode` compares `obfuscateBytes` with
the length of the *original* packet, `decode` with the length of what arrives, dummy bytes
included. They agree because dummy bytes are only added when the whole packet is masked,
and then never beyond `obfuscateBytes` (`xorLen_encoded`).
-/

namespace Phobos

open ByteFields

def typeHandshake : Nat := 1
def typeHandshakeResp : Nat := 2
def typeCookie : Nat := 3
def typeData : Nat := 4

def maxDummyLengthTotal : Nat := 1024
def maxDummyLengthHandshake : Nat := 512
def defaultMaxDummy : Nat := 4

structure Obfuscator where
  key : Bytes
  maxDummy : Nat
  obfuscateBytes : Nat

/-- What `encode` draws from the random generator. Each field is one kind of draw, with the
range the generator guarantees for it. -/
structure Rng where
  /-- `gen_range(1..=255)` -/
  rnd : UInt8
  rnd_ne_zero : rnd ≠ 0
  /-- `gen_range(0..limit)` -/
  below : Nat → Nat
  below_lt : ∀ limit, 0 < limit → below limit < limit
  /-- `fill` of a slice of the given length -/
  fill : Nat → Bytes
  length_fill : ∀ n, (fill n).length = n

def packetType : Bytes → Option Nat
  | b0 :: b1 :: b2 :: b3 :: _ => some (u32OfLe b0 b1 b2 b3)
  | _ => none

def isKnownPacketType (t : Nat) : Bool :=
  decide (typeHandshake ≤ t) && decide (t ≤ typeData)

def isObfuscated : Bytes → Bool
  | b0 :: b1 :: b2 :: b3 :: _ =>
    decide (b0 < 1) || decide (b0 > 4) || decide ((b1 ||| b2 ||| b3) ≠ 0)
  | _ => false

namespace Obfuscator

variable (o : Obfuscator)

/-- Whether only the first `obfuscateBytes` bytes of a buffer of this length are masked. -/
def isPartial (len : Nat) : Bool :=
  decide (o.obfuscateBytes > 0) && decide (o.obfuscateBytes < len)

/-- The number of leading bytes of a buffer of this length that are masked. -/
def xorLen (len : Nat) : Nat :=
  if o.isPartial len then o.obfuscateBytes else len

/-- `xor_data(&mut buf[..xor_len], &self.key)` -/
def xorFront (xorLen : Nat) (buf : Bytes) : Bytes :=
  xorData (buf.take xorLen) o.key ++ buf.drop xorLen

/-- The room left for dummy bytes behind a packet of length `origLen` that is masked whole. -/
def dummyRoom (origLen : Nat) : Nat :=
  let maxDummy := maxDummyLengthTotal - origLen
  if o.obfuscateBytes > 0 then
    let partialRoom := (o.obfuscateBytes - origLen) + 1
    if partialRoom < maxDummy then partialRoom else maxDummy
  else maxDummy

/-- The number of dummy bytes `encode` appends. -/
def dummyLength (rng : Rng) (origLen packetType : Nat) : Nat :=
  if !o.isPartial origLen && decide (origLen < maxDummyLengthTotal) then
    let maxDummy := o.dummyRoom origLen
    if packetType = typeHandshake ∨ packetType = typeHandshakeResp then
      let limit := min maxDummy maxDummyLengthHandshake
      if limit > 0 then rng.below limit else 0
    else if packetType = typeCookie ∨ packetType = typeData then
      if o.maxDummy > 0 then
        let limit := min maxDummy o.maxDummy
        if limit > 0 then rng.below limit else 0
      else 0
    else 0
  else 0

/-- Encodes a plain WireGuard packet and appends dummy bytes if needed. Fewer than four
bytes are left alone. -/
def encode (rng : Rng) (buf : Bytes) : Bytes :=
  match buf with
  | b0 :: b1 :: b2 :: b3 :: rest =>
    let origLen := buf.length
    let dummyLength := o.dummyLength rng origLen (u32OfLe b0 b1 b2 b3)
    let buf := (b0 ^^^ rng.rnd) :: rng.rnd :: lowByte dummyLength :: highByte dummyLength
      :: (rest ++ rng.fill dummyLength)
    o.xorFront (if o.isPartial origLen then o.obfuscateBytes else buf.length) buf
  | _ => buf

/-- Decodes an obfuscated packet. The flag says whether a valid WireGuard packet came out;
the bytes are what the buffer holds then, also on failure. -/
def decode (buf : Bytes) : Bool × Bytes :=
  if buf.length < 4 then (false, buf)
  else
    let buf := o.xorFront (o.xorLen buf.length) buf
    if !isObfuscated buf then (true, buf)
    else
      match buf with
      | b0 :: b1 :: b2 :: b3 :: rest =>
        let b0 := b0 ^^^ b1
        let dummyLen := u16OfLe b2 b3
        if dummyLen > buf.length - 4 then (false, b0 :: b1 :: b2 :: b3 :: rest)
        else
          let realLen := buf.length - dummyLen
          (isKnownPacketType (u32OfLe b0 0 0 0), b0 :: 0 :: 0 :: 0 :: rest.take (realLen - 4))
      | _ => (false, buf)

/-! ## How much is masked

`xorFront` undoes itself for any number of leading bytes; the two sides only have to choose
the same number. -/

@[simp] theorem length_xorFront (n : Nat) (buf : Bytes) :
    (o.xorFront n buf).length = buf.length := by
  simp only [xorFront, List.length_append, length_xorData, List.length_take, List.length_drop]
  omega

@[simp] theorem xorFront_xorFront (n : Nat) (buf : Bytes) :
    o.xorFront n (o.xorFront n buf) = buf := by
  have hlen : (xorData (buf.take n) o.key).length = min n buf.length := by
    rw [length_xorData, List.length_take]
  -- a mask inside the buffer, or over all of it
  rcases Nat.le_total n buf.length with h | h
  · rw [Nat.min_eq_left h] at hlen
    simp only [xorFront]
    rw [List.take_left' hlen, List.drop_left' hlen, xorData_xorData, List.take_append_drop]
  · have htake : buf.take n = buf := List.take_of_length_le h
    have hdrop : buf.drop n = [] := List.drop_eq_nil_of_le h
    simp only [xorFront, htake, hdrop, List.append_nil]
    rw [List.take_of_length_le (by rw [length_xorData]; exact h),
      List.drop_eq_nil_of_le (by rw [length_xorData]; exact h), xorData_xorData,
      List.append_nil]

/-- `is_partial` as the two comparisons it makes. -/
theorem isPartial_iff (len : Nat) :
    o.isPartial len = true ↔ 0 < o.obfuscateBytes ∧ o.obfuscateBytes < len := by
  simp [isPartial]

/-- **What `encode` can draw.** Either no dummy bytes, or the packet is masked whole, is
shorter than `maxDummyLengthTotal`, and the dummy bytes fit the room behind it and stay below
the limit of its type. -/
theorem dummyLength_cases (rng : Rng) (origLen t : Nat) :
    o.dummyLength rng origLen t = 0
      ∨ o.isPartial origLen = false ∧ origLen < maxDummyLengthTotal
        ∧ o.dummyLength rng origLen t < o.dummyRoom origLen
        ∧ ((t = typeHandshake ∨ t = typeHandshakeResp)
            ∧ o.dummyLength rng origLen t < maxDummyLengthHandshake
          ∨ (t = typeCookie ∨ t = typeData) ∧ o.dummyLength rng origLen t < o.maxDummy) := by
  unfold dummyLength
  split
  · rename_i hwhole
    simp only [Bool.and_eq_true, Bool.not_eq_true', decide_eq_true_eq] at hwhole
    -- a draw below the smaller of two limits is below both
    have hdraw : ∀ cap, min (o.dummyRoom origLen) cap > 0 →
        rng.below (min (o.dummyRoom origLen) cap) < o.dummyRoom origLen
          ∧ rng.below (min (o.dummyRoom origLen) cap) < cap := fun cap hpos =>
      ⟨Nat.lt_of_lt_of_le (rng.below_lt _ hpos) (Nat.min_le_left _ _),
        Nat.lt_of_lt_of_le (rng.below_lt _ hpos) (Nat.min_le_right _ _)⟩
    dsimp only
    split
    · rename_i htype
      split
      · rename_i hpos
        obtain ⟨hroom, hcap⟩ := hdraw _ hpos
        exact Or.inr ⟨hwhole.1, hwhole.2, hroom, Or.inl ⟨htype, hcap⟩⟩
      · exact Or.inl rfl
    · split
      · rename_i htype
        split
        · split
          · rename_i hpos
            obtain ⟨hroom, hcap⟩ := hdraw _ hpos
            exact Or.inr ⟨hwhole.1, hwhole.2, hroom, Or.inr ⟨htype, hcap⟩⟩
          · exact Or.inl rfl
        · exact Or.inl rfl
      · exact Or.inl rfl
  · exact Or.inl rfl

/-- The dummy room ends at `maxDummyLengthTotal` bytes, and at `obfuscateBytes` when that is
set and the packet is masked whole. -/
theorem add_dummyRoom_le {origLen : Nat} (hlen : origLen < maxDummyLengthTotal)
    (hwhole : o.isPartial origLen = false) :
    origLen + o.dummyRoom origLen ≤ maxDummyLengthTotal
      ∧ (0 < o.obfuscateBytes → origLen + o.dummyRoom origLen ≤ o.obfuscateBytes + 1) := by
  -- a packet that is masked whole is not longer than `obfuscateBytes`
  have hge : 0 < o.obfuscateBytes → origLen ≤ o.obfuscateBytes := by
    intro hpos
    by_contra hlt
    rw [(o.isPartial_iff origLen).mpr ⟨hpos, by omega⟩] at hwhole
    cases hwhole
  unfold dummyRoom
  dsimp only
  split
  · rename_i hpos
    have := hge hpos
    split <;> exact ⟨by omega, fun _ => by omega⟩
  · rename_i hpos
    exact ⟨by omega, fun h => absurd h hpos⟩

/-- An encoded packet is no longer than the packet itself or 1023 bytes. -/
theorem add_dummyLength_le (rng : Rng) (origLen t : Nat) :
    origLen + o.dummyLength rng origLen t ≤ max origLen 1023 := by
  rcases o.dummyLength_cases rng origLen t with h | ⟨hwhole, hlen, hlt, -⟩
  · rw [h]
    omega
  · have := (o.add_dummyRoom_le hlen hwhole).1
    simp only [maxDummyLengthTotal] at this
    omega

/-- **Encoder and decoder mask the same bytes.** The decoder, which sees the dummy bytes
too, arrives at the number of masked bytes that the encoder used. -/
theorem xorLen_encoded (rng : Rng) (origLen t : Nat) :
    o.xorLen (origLen + o.dummyLength rng origLen t)
      = if o.isPartial origLen then o.obfuscateBytes
        else origLen + o.dummyLength rng origLen t := by
  rcases o.dummyLength_cases rng origLen t with h | ⟨hwhole, hlen, hlt, -⟩
  · rw [h, Nat.add_zero, xorLen]
  · have hbound := (o.add_dummyRoom_le hlen hwhole).2
    -- with its dummy bytes the packet is still not longer than `obfuscateBytes`
    have hpart : o.isPartial (origLen + o.dummyLength rng origLen t) = false := by
      rw [Bool.eq_false_iff]
      intro h
      obtain ⟨hpos, hshort⟩ := (o.isPartial_iff _).mp h
      have := hbound hpos
      omega
    rw [xorLen, hpart, hwhole]

/-! ## The round trip of one packet -/

/-- The buffer `encode` masks: the hidden header, the body and the dummy bytes. -/
def unmasked (rng : Rng) (t : UInt8) (rest : Bytes) (dummyLength : Nat) : Bytes :=
  (t ^^^ rng.rnd) :: rng.rnd :: lowByte dummyLength :: highByte dummyLength
    :: (rest ++ rng.fill dummyLength)

@[simp] theorem length_unmasked (rng : Rng) (t : UInt8) (rest : Bytes) (d : Nat) :
    (unmasked rng t rest d).length = rest.length + 4 + d := by
  simp only [unmasked, List.length_cons, List.length_append, rng.length_fill]
  omega

/-- The number of dummy bytes of a packet fits its 16-bit field. -/
theorem dummyLength_le (rng : Rng) (origLen t : Nat) :
    o.dummyLength rng origLen t ≤ 1023 := by
  have hle := o.add_dummyLength_le rng origLen t
  rcases o.dummyLength_cases rng origLen t with h | ⟨-, hlen, -⟩
  · omega
  · simp only [maxDummyLengthTotal] at hlen
    omega

/-- `encode` masks exactly the bytes the decoder will unmask. -/
theorem encode_eq_xorFront (rng : Rng) (b0 b1 b2 b3 : UInt8) (rest : Bytes) :
    let d := o.dummyLength rng (rest.length + 4) (u32OfLe b0 b1 b2 b3)
    o.encode rng (b0 :: b1 :: b2 :: b3 :: rest)
      = o.xorFront (o.xorLen (unmasked rng b0 rest d).length) (unmasked rng b0 rest d) := by
  intro d
  -- the encoder decides by the packet, `xorLen` by the finished buffer
  have hxor := o.xorLen_encoded rng (rest.length + 4) (u32OfLe b0 b1 b2 b3)
  have hlen : (b0 :: b1 :: b2 :: b3 :: rest).length = rest.length + 4 := rfl
  rw [length_unmasked, hxor]
  simp only [encode, hlen]
  rw [← length_unmasked rng b0 rest d]
  rfl

theorem encode_eq (rng : Rng) (t : UInt8) (rest : Bytes) :
    ∃ d, d ≤ 1023 ∧ rest.length + 4 + d ≤ max (rest.length + 4) 1023
      ∧ o.encode rng (t :: 0 :: 0 :: 0 :: rest)
        = o.xorFront (o.xorLen (unmasked rng t rest d).length) (unmasked rng t rest d) :=
  ⟨_, o.dummyLength_le rng _ _, o.add_dummyLength_le rng _ _,
    o.encode_eq_xorFront rng t 0 0 0 rest⟩

/-- The random byte in position 1 marks the header as hidden. -/
theorem isObfuscated_unmasked (rng : Rng) (t : UInt8) (rest : Bytes) (d : Nat) :
    isObfuscated (unmasked rng t rest d) = true := by
  simp only [unmasked, isObfuscated, Bool.or_eq_true, decide_eq_true_eq]
  right
  intro h
  exact rng.rnd_ne_zero (UInt8.or_eq_zero_iff.mp (UInt8.or_eq_zero_iff.mp h).1).1

/-- **A packet survives `encode` and `decode`.** -/
theorem decode_encode (rng : Rng) {t : UInt8} (ht : 1 ≤ t ∧ t ≤ 4) (rest : Bytes) :
    o.decode (o.encode rng (t :: 0 :: 0 :: 0 :: rest)) = (true, t :: 0 :: 0 :: 0 :: rest) := by
  obtain ⟨d, hd, -, henc⟩ := o.encode_eq rng t rest
  have hfield : u16OfLe (lowByte d) (highByte d) = d := u16OfLe_low_high (by omega)
  have hknown : isKnownPacketType t.toNat = true := by
    rw [isKnownPacketType, Bool.and_eq_true]
    exact ⟨decide_eq_true (UInt8.le_iff_toNat_le.mp ht.1),
      decide_eq_true (UInt8.le_iff_toNat_le.mp ht.2)⟩
  -- the decoder takes the same mask off and reads the two fields back
  rw [henc, decode, length_xorFront, xorFront_xorFront, length_unmasked, if_neg (by omega)]
  dsimp only
  rw [isObfuscated_unmasked]
  simp only [unmasked, hfield, List.length_cons, List.length_append, rng.length_fill,
    xor_xor_cancel_right, u32OfLe_zero_upper, hknown, Bool.not_true, Bool.false_eq_true,
    if_false]
  rw [if_neg (by omega), List.take_left' (by omega)]

end Obfuscator

end Phobos
