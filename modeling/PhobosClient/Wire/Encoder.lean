import Mathlib.Data.List.GetD
import PhobosClient.Wire.Decoder
import PhobosClient.Wire.Paths

/-!
# PhobosClient — what the encoder sends (`src/obfuscator.rs`)

Two questions about the bytes `encode` leaves for the wire. How many are there
(`encode_bounds`): the dummy bytes are drawn below several limits at once, and together they
keep a datagram within 1023 bytes, or within the packet's own length when that is larger. And
do they still show a WireGuard header: the mask byte `rnd` is drawn without a look at the key
stream, so the stream can undo it. `HeaderCancels` says when, and **`encode_hides_iff`** that
this is the only way.
-/

namespace Phobos

open ByteFields

namespace Obfuscator

variable (o : Obfuscator)

/-! ## Lengths -/

theorem length_encode (rng : Rng) (b0 b1 b2 b3 : UInt8) (rest : Bytes) :
    (o.encode rng (b0 :: b1 :: b2 :: b3 :: rest)).length
      = rest.length + 4 + o.dummyLength rng (rest.length + 4) (u32OfLe b0 b1 b2 b3) := by
  rw [encode_eq_xorFront, length_xorFront, length_unmasked]

theorem dummyField_unmasked (rng : Rng) (b0 : UInt8) (rest : Bytes) {d : Nat} (hd : d ≤ 1023) :
    dummyField (unmasked rng b0 rest d) = d :=
  u16OfLe_low_high (show d < 65536 by omega)

/-- The three ways to have no dummy bytes. -/
theorem dummyLength_eq_zero (rng : Rng) {len t : Nat}
    (h : 1024 ≤ len ∨ (0 < o.obfuscateBytes ∧ o.obfuscateBytes < len) ∨ ¬ (1 ≤ t ∧ t ≤ 4)) :
    o.dummyLength rng len t = 0 := by
  rcases o.dummyLength_cases rng len t with hzero | ⟨hwhole, hlen, -, htype⟩
  · exact hzero
  · exfalso
    have hpart : ¬ (0 < o.obfuscateBytes ∧ o.obfuscateBytes < len) := by
      rw [← isPartial_iff, hwhole]
      exact Bool.false_ne_true
    simp only [maxDummyLengthTotal, typeHandshake, typeHandshakeResp, typeCookie,
      typeData] at hlen htype
    -- each of the three conditions contradicts what a draw needs
    rcases h with h | h | h
    · omega
    · exact hpart h
    · omega

theorem dummyLength_handshake (rng : Rng) (len : Nat) {t : Nat} (ht : t = 1 ∨ t = 2) :
    o.dummyLength rng len t < 512 := by
  rcases o.dummyLength_cases rng len t with hzero | ⟨-, -, -, htype⟩
  · omega
  · simp only [maxDummyLengthHandshake, typeHandshake, typeHandshakeResp, typeCookie,
      typeData] at htype
    omega

theorem dummyLength_data (rng : Rng) {len t : Nat} (ht : t = 3 ∨ t = 4)
    (hpos : 0 < o.dummyLength rng len t) : o.dummyLength rng len t < o.maxDummy := by
  rcases o.dummyLength_cases rng len t with hzero | ⟨-, -, -, htype⟩
  · omega
  · simp only [typeHandshake, typeHandshakeResp, typeCookie, typeData] at htype
    omega

/-- A packet that is masked as a whole stays within the masked length. -/
theorem add_dummyLength_le_obfuscateBytes (rng : Rng) {len : Nat} (t : Nat) (hpos : 0 < len)
    (hfits : len ≤ o.obfuscateBytes) :
    len + o.dummyLength rng len t ≤ max len o.obfuscateBytes := by
  rcases o.dummyLength_cases rng len t with hzero | ⟨hwhole, hlen, hroom, -⟩
  · omega
  · -- the draw is below the room, which ends one past `obfuscateBytes`
    have := (o.add_dummyRoom_le hlen hwhole).2 (by omega)
    omega

/-- A datagram whose length has room in the length field is wrapped. -/
theorem stunWrap_encode (rng : Rng) {p : Bytes} (hlen : (o.encode rng p).length ≤ 65535)
    (txid : Txid) : ∃ w, stunWrapDataIndication txid (o.encode rng p) = some w
      ∧ sendPath o true rng txid p = w ∧ w.length = (o.encode rng p).length + 24 := by
  have hwrap := stunWrap_eq_some txid hlen
  refine ⟨_, hwrap, ?_, ?_⟩
  · show (stunWrapDataIndication txid (o.encode rng p)).getD (o.encode rng p) = _
    rw [hwrap]
    rfl
  · simp only [List.length_append, length_u16ToBe, txid.property]
    have hcookie : stunCookie.length = 4 := rfl
    omega

/-- **The length of what is sent.** `buf` is the buffer before it is masked, and the number `d`
in its header field is the number of bytes that `encode` appends. The arithmetic of the source
stays within its words: the plain difference is taken behind the comparison that makes it
positive, and one is added only after a packet's length has been taken off. -/
theorem encode_bounds (rng : Rng) (b0 b1 b2 b3 : UInt8) (rest : Bytes) :
    let p := b0 :: b1 :: b2 :: b3 :: rest
    let t := u32OfLe b0 b1 b2 b3
    let q := o.encode rng p
    let n := if 0 < o.obfuscateBytes ∧ o.obfuscateBytes < p.length then o.obfuscateBytes
      else q.length
    ∃ buf, q = xorData (buf.take n) o.key ++ buf.drop n ∧
      let d := dummyField buf
      q.length = p.length + d
        ∧ (1024 ≤ p.length ∨ (0 < o.obfuscateBytes ∧ o.obfuscateBytes < p.length)
            ∨ ¬ (1 ≤ t ∧ t ≤ 4) → d = 0)
        ∧ (t = 1 ∨ t = 2 → d < 512)
        ∧ (t = 3 ∨ t = 4 → 0 < d → d < o.maxDummy)
        ∧ q.length ≤ max p.length 1023
        ∧ (p.length ≤ o.obfuscateBytes → q.length ≤ max p.length o.obfuscateBytes)
        ∧ (p.length ≤ 65535 → ∀ txid, ∃ w, stunWrapDataIndication txid q = some w
            ∧ sendPath o true rng txid p = w ∧ w.length ≤ max p.length 1023 + 24) := by
  intro p t q n
  have hp : p.length = rest.length + 4 := rfl
  have hq : q.length = p.length + o.dummyLength rng p.length t :=
    o.length_encode rng b0 b1 b2 b3 rest
  have hle : q.length ≤ max p.length 1023 := by
    rw [hq]
    exact o.add_dummyLength_le rng p.length t
  -- the number of masked bytes, as the decoder computes it from what arrives
  have hn : n = o.xorLen (unmasked rng b0 rest (o.dummyLength rng p.length t)).length := by
    rw [length_unmasked, ← hp, o.xorLen_encoded]
    simp only [n, isPartial_iff, hq]
  refine ⟨unmasked rng b0 rest (o.dummyLength rng p.length t), ?_, ?_⟩
  · rw [hn]
    exact o.encode_eq_xorFront rng b0 b1 b2 b3 rest
  · rw [dummyField_unmasked rng b0 rest (o.dummyLength_le rng _ _)]
    refine ⟨hq, o.dummyLength_eq_zero rng, o.dummyLength_handshake rng p.length,
      o.dummyLength_data rng, hle, fun hfits => ?_, fun hmax txid => ?_⟩
    · rw [hq]
      exact o.add_dummyLength_le_obfuscateBytes rng t (by omega) hfits
    · -- what is sent fits the length field of the wrap, so the fallback is not taken
      obtain ⟨w, hwrap, hsent, hlen⟩ := o.stunWrap_encode rng (p := p)
        (show q.length ≤ 65535 by omega) txid
      refine ⟨w, hwrap, hsent, ?_⟩
      have hlen : w.length = q.length + 24 := hlen
      omega

/-! ## The header on the wire -/

/-- Masking meets every byte with its key byte; behind the masked part the key byte counts
as zero. -/
theorem getD_xorFront (hkey : o.key ≠ []) {n : Nat} {buf : Bytes} (hn : n ≤ buf.length)
    (i : Nat) : (o.xorFront n buf).getD i 0 = buf.getD i 0 ^^^ (keyStream o.key n).getD i 0 := by
  have htake : (buf.take n).length = n := List.length_take_of_le hn
  rw [xorFront, xorData_eq_zipWith hkey, htake]
  by_cases hi : i < n
  · have hibuf : i < buf.length := by omega
    rw [List.getD_append _ _ _ _ (by simp; omega)]
    rw [List.getD_eq_getElem?_getD, List.getElem?_zipWith]
    simp [List.getD_eq_getElem?_getD, hi, hibuf]
  · have hlen : (List.zipWith (· ^^^ ·) (buf.take n) (keyStream o.key n)).length = n := by simp [hn]
    rw [List.getD_append_right _ _ _ _ (by omega), hlen,
      List.getD_eq_default _ _ (by simpa using hi : (keyStream o.key n).length ≤ i), UInt8.xor_zero]
    simp [List.getD_eq_getElem?_getD, Nat.add_sub_cancel' (Nat.le_of_not_lt hi)]

end Obfuscator

/-- A plain header, byte by byte. -/
theorem plainHeader_iff {buf : Bytes} (h : 4 ≤ buf.length) :
    PlainHeader buf ↔ (1 ≤ buf.getD 0 0 ∧ buf.getD 0 0 ≤ 4)
      ∧ buf.getD 1 0 = 0 ∧ buf.getD 2 0 = 0 ∧ buf.getD 3 0 = 0 := by
  obtain ⟨b0, b1, b2, b3, rest, rfl⟩ := exists_header h
  constructor
  · rintro ⟨t, rest', heq, htype⟩
    cases heq
    exact ⟨htype, rfl, rfl, rfl⟩
  · rintro ⟨⟨hge, hle⟩, h1, h2, h3⟩
    have h1 : b1 = 0 := h1
    have h2 : b2 = 0 := h2
    have h3 : b3 = 0 := h3
    subst h1 h2 h3
    exact ⟨b0, rest, rfl, hge, hle⟩

/-- The key stream for `masked` bytes undoes the hidden header of a packet of type `t`: it
meets the mask byte `rnd` and the two bytes of the dummy length `d` with themselves, and
leaves a known type in byte 0. Behind the masked part there is no key byte, hence the
default. -/
structure HeaderCancels (key : Bytes) (masked : Nat) (t rnd : UInt8) (d : Nat) : Prop where
  rnd_eq : (keyStream key masked).getD 1 0 = rnd
  low_eq : (keyStream key masked).getD 2 0 = lowByte d
  high_eq : (keyStream key masked).getD 3 0 = highByte d
  one_le_type : 1 ≤ t ^^^ rnd ^^^ (keyStream key masked).getD 0 0
  type_le_four : t ^^^ rnd ^^^ (keyStream key masked).getD 0 0 ≤ 4

namespace Obfuscator

variable (o : Obfuscator)

/-- **When the header stays hidden.** Whatever the packet, the key, the configuration and the
draws: what `encode` leaves shows no plain header, and in particular is not the packet itself,
exactly if the key stream does not cancel the mask byte and the dummy length. -/
theorem encode_hides_iff (rng : Rng) (hkey : o.key ≠ []) {t : UInt8} (ht : 1 ≤ t ∧ t ≤ 4)
    (rest : Bytes) :
    let p := t :: 0 :: 0 :: 0 :: rest
    let d := o.dummyLength rng p.length t.toNat
    let masked := if 0 < o.obfuscateBytes ∧ o.obfuscateBytes < p.length then o.obfuscateBytes
      else p.length + d
    (isObfuscated (o.encode rng p) = true ∧ o.encode rng p ≠ p)
      ↔ ¬ HeaderCancels o.key masked t rng.rnd d := by
  intro p d masked
  have hp : p.length = rest.length + 4 := rfl
  have hd : o.dummyLength rng (rest.length + 4) (u32OfLe t 0 0 0) = d := by
    rw [u32OfLe_zero_upper, ← hp]
  have hmasked : o.xorLen (unmasked rng t rest d).length = masked := by
    rw [length_unmasked, ← hp, o.xorLen_encoded]
    simp only [masked, isPartial_iff]
    rfl
  have henc : o.encode rng p = o.xorFront masked (unmasked rng t rest d) := by
    rw [← hmasked, ← hd]
    exact o.encode_eq_xorFront rng t 0 0 0 rest
  have hle : masked ≤ (unmasked rng t rest d).length := by
    rw [length_unmasked]
    simp only [masked]
    split <;> omega
  have hlen : 4 ≤ (o.encode rng p).length := by
    rw [henc, length_xorFront, length_unmasked]
    omega
  have hplain : PlainHeader (o.encode rng p) ↔ HeaderCancels o.key masked t rng.rnd d := by
    rw [plainHeader_iff hlen, henc]
    simp only [o.getD_xorFront hkey hle, UInt8.xor_eq_zero_iff]
    constructor
    · rintro ⟨⟨hge, hle⟩, h1, h2, h3⟩
      exact ⟨h1.symm, h2.symm, h3.symm, hge, hle⟩
    · intro h
      exact ⟨⟨h.one_le_type, h.type_le_four⟩, h.rnd_eq.symm, h.low_eq.symm, h.high_eq.symm⟩
  rw [← hplain, ← isObfuscated_eq_false_iff hlen, Bool.not_eq_false]
  constructor
  · exact fun h => h.1
  · intro hobf
    refine ⟨hobf, fun heq => ?_⟩
    -- the packet itself shows a plain header
    have hpobf : isObfuscated p = false :=
      (isObfuscated_eq_false_iff (by omega)).mpr ⟨t, rest, rfl, ht⟩
    rw [heq, hpobf] at hobf
    cases hobf

/-- A handshake initiation of 148 bytes, the key `nCEh`, masking of the whole packet and the
draws 221 and 0: all four header bytes come out as they went in. -/
theorem encode_shows_handshake :
    let o : Obfuscator := ⟨[0x6e, 0x43, 0x45, 0x68], 4, 0⟩
    let rng : Rng := ⟨221, by decide, fun _ => 0, fun _ h => h, fun n => List.replicate n 0,
      fun _ => List.length_replicate⟩
    let p : Bytes := 1 :: 0 :: 0 :: 0 :: List.replicate 144 0
    ¬ (isObfuscated (o.encode rng p) = true ∧ o.encode rng p ≠ p) := by
  decide +kernel

/-- A keepalive of 32 bytes under the key `test`. -/
theorem encode_hides_keepalive :
    let o : Obfuscator := ⟨[0x74, 0x65, 0x73, 0x74], 4, 0⟩
    let rng : Rng := ⟨221, by decide, fun _ => 0, fun _ h => h, fun n => List.replicate n 0,
      fun _ => List.length_replicate⟩
    let p : Bytes := 4 :: 0 :: 0 :: 0 :: List.replicate 28 7
    (isObfuscated (o.encode rng p) = true ∧ o.encode rng p ≠ p)
      ↔ ¬ HeaderCancels o.key 32 4 221 0 :=
  Obfuscator.encode_hides_iff _ _ (by decide) (by decide) _

end Obfuscator

end Phobos
