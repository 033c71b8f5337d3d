import PhobosClient.Lib.Crc
import PhobosClient.Lib.StreamMask

/-!
# PhobosClient — the CRC-8 stream cipher (`src/crc8.rs`)

`xorData` masks a buffer with the running CRC-8 of the repeated key. The key bytes are
first shifted by `base`, the low byte of buffer length plus key length, so the stream
depends on the length of the buffer: sender and receiver agree on it only when they mask
buffers of the same length. That dependence is all the wire layer needs to know about the
cipher, and it is what `xorData_xorData` and `length_xorData` say.
-/

namespace Phobos

open StreamMask

abbrev Bytes := List UInt8

def maxXorKeyLength : Nat := 256

/-- The eight rounds of the inner loop of `init_crc8_table`, from `(crc, inbyte)`. -/
def crc8Rounds : Nat → UInt8 → UInt8 → UInt8
  | 0, crc, _ => crc
  | n + 1, crc, inbyte =>
    let mix := (crc ^^^ inbyte) &&& 0x01
    let crc := crc >>> 1
    let crc := if mix ≠ 0 then crc ^^^ 0x8C else crc
    crc8Rounds n crc (inbyte >>> 1)

/-- The Dallas/Maxim lookup table (polynomial `0x8C`). -/
def initCrc8Table : List UInt8 :=
  (List.range 256).map fun i => crc8Rounds 8 0 (UInt8.ofNat i)

/-- One turn of the loop over the buffer: the state is the running CRC and the key index
`ki`, the key handed out is the new CRC. -/
def xorStep (keyAdj : List UInt8) (keyLen : Nat) (s : UInt8 × Nat) : UInt8 × (UInt8 × Nat) :=
  let crc := initCrc8Table.getD (s.1 ^^^ keyAdj.getD s.2 0).toNat 0
  let ki := s.2 + 1
  (crc, (crc, if ki ≥ keyLen then 0 else ki))

/-- Applies the XOR stream cipher to `buffer`. -/
def xorData (buffer key : Bytes) : Bytes :=
  if buffer.isEmpty || key.isEmpty then buffer
  else
    let keyLen := min key.length maxXorKeyLength
    let key := key.take keyLen
    let base := UInt8.ofNat (buffer.length + keyLen)
    let keyAdj := key.map (· + base)
    maskWith (· ^^^ ·) (xorStep keyAdj keyLen) (0, 0) buffer

@[simp] theorem xor_xor_cancel_right (a b : UInt8) : a ^^^ b ^^^ b = a := by
  rw [UInt8.xor_assoc, UInt8.xor_self, UInt8.xor_zero]

@[simp] theorem length_xorData (buffer key : Bytes) :
    (xorData buffer key).length = buffer.length := by
  unfold xorData
  split <;> simp

/-- Masking never empties a buffer and never fills an empty one. -/
@[simp] theorem isEmpty_xorData (buffer key : Bytes) :
    (xorData buffer key).isEmpty = buffer.isEmpty := by
  rw [Bool.eq_iff_iff]
  simp only [List.isEmpty_iff_length_eq_zero, length_xorData]

/-- **The cipher is its own inverse.** The masked buffer has the same length, hence the same
`base` and the same stream. -/
@[simp] theorem xorData_xorData (buffer key : Bytes) :
    xorData (xorData buffer key) key = buffer := by
  by_cases h : (buffer.isEmpty || key.isEmpty) = true
  · have hx : xorData buffer key = buffer := by rw [xorData, if_pos h]
    rw [hx, hx]
  · have hx : ((xorData buffer key).isEmpty || key.isEmpty) ≠ true := by
      rwa [isEmpty_xorData]
    conv_lhs => rw [xorData, if_neg hx]
    simp only [length_xorData]
    rw [xorData, if_neg h]
    exact maskWith_maskWith _ _ xor_xor_cancel_right _ _

/-- The key bytes that meet a buffer of length `len`. -/
def keyStream (key : Bytes) (len : Nat) : Bytes :=
  let keyLen := min key.length maxXorKeyLength
  let base := UInt8.ofNat (len + keyLen)
  stream (xorStep ((key.take keyLen).map (· + base)) keyLen) (0, 0) len

@[simp] theorem length_keyStream (key : Bytes) (len : Nat) : (keyStream key len).length = len :=
  length_stream _ _ _

/-- The cipher XORs the buffer with a stream that only key and length decide. -/
theorem xorData_eq_zipWith {key : Bytes} (hkey : key ≠ []) (buffer : Bytes) :
    xorData buffer key = List.zipWith (· ^^^ ·) buffer (keyStream key buffer.length) := by
  cases buffer with
  | nil => rfl
  | cons b rest =>
    have hne : ((b :: rest).isEmpty || key.isEmpty) ≠ true := by simp [hkey]
    rw [xorData, if_neg hne]
    exact maskWith_eq_zipWith _ _ _ _

example : initCrc8Table.take 3 = [0, 0x5e, 0xbc] := by decide

/-! ## The stream is a CRC-8 -/

/-- The CRC-8 of a message by its bits: polynomial `0x8C`, start value 0. -/
def crc8 (message : Bytes) : UInt8 :=
  .ofBitVec (Crc.register 0x8C#8 0#8 (message.map UInt8.toBitVec))

/-- `mix` is the sum of the two lowest bits. -/
theorem mix_ne_zero_iff (crc inbyte : UInt8) : (crc ^^^ inbyte) &&& 0x01 ≠ 0
    ↔ (crc.toBitVec.getLsbD 0 ^^ inbyte.toBitVec.getLsbD 0) = true := by
  rw [← BitVec.getLsbD_xor, ← UInt8.toBitVec_xor, Ne, ← UInt8.toBitVec_inj, UInt8.toBitVec_and,
    show (0x01 : UInt8).toBitVec = 1#8 from rfl, BitVec.and_one_eq_setWidth_ofBool_getLsbD]
  cases (crc ^^^ inbyte).toBitVec.getLsbD 0 <;> decide

/-- The rounds of the table take the bits of the byte in one by one. -/
theorem toBitVec_crc8Rounds (n : Nat) (crc inbyte : UInt8) :
    (crc8Rounds n crc inbyte).toBitVec
      = (Crc.lowBits inbyte.toBitVec n).foldl (Crc.bitStep 0x8C#8) crc.toBitVec := by
  induction n generalizing crc inbyte with
  | zero => rfl
  | succ n ih =>
    have hshift : ∀ b : UInt8, (b >>> 1).toBitVec = b.toBitVec >>> 1 := fun _ => rfl
    rw [Crc.lowBits_succ, List.foldl_cons, crc8Rounds, ih, hshift]
    congr 1
    simp only [Crc.bitStep, mix_ne_zero_iff, ← hshift]
    split <;> rfl

/-- A look at the table. -/
theorem initCrc8Table_getD (b : UInt8) : initCrc8Table.getD b.toNat 0 = crc8Rounds 8 0 b := by
  have hlt := b.toNat_lt
  simp [initCrc8Table, List.getD_eq_getElem?_getD, hlt]

/-- **The table takes one byte further.** -/
theorem crc8_concat (message : Bytes) (b : UInt8) :
    initCrc8Table.getD (crc8 message ^^^ b).toNat 0 = crc8 (message ++ [b]) := by
  have hbits : (crc8 (message ++ [b])).toBitVec
      = (Crc.wordBits b.toBitVec).foldl (Crc.bitStep 0x8C#8) (crc8 message).toBitVec := by
    simp only [crc8, List.map_append, List.map_singleton, Crc.register_concat]
  rw [initCrc8Table_getD, ← UInt8.toBitVec_inj, toBitVec_crc8Rounds, hbits, Crc.foldl_wordBits]
  rfl

/-- The endless repetition of a key, shifted by `base`: its first `n` bytes. -/
def repeated (key : Bytes) (base : UInt8) (n : Nat) : Bytes :=
  (List.range n).map fun i => key.getD (i % key.length) 0 + base

/-- Where the loop stands after `n` turns: the CRC of the bytes so far, and an index that wraps
with the key. Induction on the turns. -/
theorem stateAfter_xorStep {key : Bytes} (hkey : key ≠ []) (base : UInt8) (n : Nat) :
    stateAfter (xorStep (key.map (· + base)) key.length) (0, 0) n
      = (crc8 (repeated key base n), n % key.length) := by
  have hpos : 0 < key.length := List.length_pos_of_ne_nil hkey
  induction n with
  | zero => rfl
  | succ n ih =>
    have hlt : n % key.length < key.length := Nat.mod_lt n hpos
    have hbyte : (key.map (· + base)).getD (n % key.length) 0
        = key.getD (n % key.length) 0 + base := by
      simp [List.getD_eq_getElem?_getD, hlt]
    have hrepeated : repeated key base (n + 1)
        = repeated key base n ++ [key.getD (n % key.length) 0 + base] := by
      rw [repeated, List.range_succ, List.map_append]
      rfl
    have hwrap : (if n % key.length + 1 ≥ key.length then 0 else n % key.length + 1)
        = (n + 1) % key.length := by
      rw [← Nat.mod_add_mod]
      split
      · next hge => rw [show n % key.length + 1 = key.length by omega, Nat.mod_self]
      · next hlt => rw [Nat.mod_eq_of_lt (Nat.lt_of_not_le hlt)]
    rw [stateAfter, ih, xorStep]
    dsimp only
    rw [hbyte, crc8_concat, ← hrepeated, hwrap]

theorem length_take_key (key : Bytes) :
    (key.take maxXorKeyLength).length = min key.length maxXorKeyLength := by
  rw [List.length_take, Nat.min_comm]

/-- The key bytes that meet a buffer, one by one. -/
theorem getElem?_keyStream {key : Bytes} (hkey : key ≠ []) {len i : Nat} (h : i < len) :
    (keyStream key len)[i]? = some (crc8 (repeated (key.take maxXorKeyLength)
      (UInt8.ofNat (len + (key.take maxXorKeyLength).length)) (i + 1))) := by
  have hk : key.take maxXorKeyLength ≠ [] := by
    simpa [maxXorKeyLength] using hkey
  have htake : key.take (min key.length maxXorKeyLength) = key.take maxXorKeyLength :=
    List.take_eq_take_iff.mpr (by omega)
  rw [keyStream, htake, ← length_take_key, getElem?_stream _ _ h]
  -- the key handed out is the CRC of the next state
  exact congrArg (fun s : UInt8 × Nat => some s.1)
    (stateAfter_xorStep hk (UInt8.ofNat (len + (key.take maxXorKeyLength).length)) (i + 1))

/-- **What `xor_data` computes.** With `k` the first 256 bytes of the key, byte `i` of the buffer
is XORed with the CRC-8 of the first `i + 1` bytes of the repeated `k`, each shifted by the sum
of the two lengths. -/
theorem xorData_crc8 (buffer key : Bytes) :
    let k := key.take 256
    let base := UInt8.ofNat ((buffer.length + k.length) % 256)
    let masked := xorData buffer key
    (buffer = [] ∨ key = [] → masked = buffer)
      ∧ (key ≠ [] → ∀ i b, buffer[i]? = some b →
          masked[i]? = some (b ^^^ crc8 (repeated k base (i + 1))))
      ∧ masked.length = buffer.length ∧ xorData masked key = buffer := by
  intro k base masked
  refine ⟨?_, ?_, length_xorData buffer key, xorData_xorData buffer key⟩
  · rintro (rfl | rfl)
    · rfl
    · exact if_pos (by simp)
  · intro hkey i b hb
    obtain ⟨hlt, -⟩ := List.getElem?_eq_some_iff.mp hb
    have hbase : base = UInt8.ofNat (buffer.length + k.length) := by
      rw [← UInt8.toNat_inj]
      simp [base]
    show (xorData buffer key)[i]? = _
    rw [xorData_eq_zipWith hkey, List.getElem?_zipWith, hb, getElem?_keyStream hkey hlt, hbase]
    rfl

example : xorData [0, 0, 0] [1, 2] = [crc8 [6], crc8 [6, 7], crc8 [6, 7, 6]] := by decide

end Phobos
