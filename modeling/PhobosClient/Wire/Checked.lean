import PhobosClient.Lib.Checked
import PhobosClient.Wire.Obfuscator
import PhobosClient.Wire.Stun

/-!
# PhobosClient — no step of the wire code can fail

The release build aborts on a panic, and these functions run on every datagram that arrives
from the network. Here they are once more with every index, slice, sum, difference, cast and
random range as the operation of `Checked` that fails when it goes wrong, in the order of the
source. Each of them never fails, and returns what the function of the same name returns
(`wire_never_fails`).

The guards depend on one another: the key is cut to the size of the array that takes it
(`keyAdjChecked_eq`), the random ranges are behind a test for zero (`dummyLengthChecked_eq`), and
the part that is masked lies in the buffer because `isPartial` compared the two lengths.
-/

namespace Phobos

open ByteFields Checked StreamMask

/-! ## The cipher -/

def initCrc8TableChecked : Except Failure (List UInt8) :=
  fillFront 256 (fun i => .ok (crc8Rounds 8 0 (UInt8.ofNat i))) (List.replicate 256 0)

/-- The loop over the key, into an array of 256 bytes. -/
def keyAdjChecked (key : Bytes) (keyLen : Nat) (base : UInt8) : Except Failure (List UInt8) :=
  fillFront keyLen (fun k => do return (← index key k) + base)
    (List.replicate maxXorKeyLength 0)

/-- The body of the loop over the buffer, which carries `crc` and `ki` along. -/
def xorBodyChecked (table keyAdj : List UInt8) (keyLen : Nat) (s : UInt8 × Nat) (b : UInt8) :
    Except Failure (UInt8 × (UInt8 × Nat)) := do
  let crc ← index table (s.1 ^^^ (← index keyAdj s.2)).toNat
  let ki ← add s.2 1
  return (b ^^^ crc, (crc, if ki ≥ keyLen then 0 else ki))

def xorDataChecked (buffer key : Bytes) : Except Failure Bytes := do
  if buffer.isEmpty || key.isEmpty then
    return buffer
  let table ← initCrc8TableChecked
  let keyLen := min key.length maxXorKeyLength
  let key ← slice key 0 keyLen
  let base := UInt8.ofNat (← add buffer.length keyLen)
  let keyAdj ← keyAdjChecked key keyLen base
  forEach (xorBodyChecked table keyAdj keyLen) (0, 0) buffer

theorem initCrc8TableChecked_eq : initCrc8TableChecked = .ok initCrc8Table := by
  have hroom : 256 ≤ (List.replicate 256 (0 : UInt8)).length :=
    Nat.le_of_eq List.length_replicate.symm
  rw [initCrc8TableChecked, fillFront_eq hroom (fun _ _ => rfl), List.drop_replicate, Nat.sub_self,
    List.replicate_zero, List.append_nil, initCrc8Table]

/-- The array holds the shifted key, and zeros behind it. -/
theorem keyAdjChecked_eq {key : Bytes} (hkey : key.length ≤ maxXorKeyLength) (base : UInt8) :
    keyAdjChecked key key.length base
      = .ok (key.map (· + base) ++ List.replicate (maxXorKeyLength - key.length) 0) := by
  have hroom : key.length ≤ (List.replicate maxXorKeyLength (0 : UInt8)).length := by
    rwa [List.length_replicate]
  -- every read of the loop is below the length of the key
  have hread : ∀ k < key.length,
      (do return (← index key k) + base : Except Failure UInt8) = .ok (key.getD k 0 + base) :=
    fun k hk => by rw [index_eq hk 0]; rfl
  have hfront : (List.range key.length).map (fun k => key.getD k 0 + base)
      = key.map (· + base) := by
    apply List.ext_getElem
    · simp
    · intro k _ hk
      rw [List.length_map] at hk
      rw [List.getElem_map, List.getElem_range, List.getD_eq_getElem _ _ hk, List.getElem_map]
  -- what the loop does not reach is still zero
  rw [keyAdjChecked, fillFront_eq hroom hread, hfront, List.drop_replicate]

/-- The index into the key stays below its length, which keeps it in the array and in
`usize`. -/
theorem xorBodyChecked_eq {key : Bytes} (hkey : key.length ≤ maxXorKeyLength) (base : UInt8)
    (s : UInt8 × Nat) (b : UInt8) (hs : s.2 < key.length) :
    xorBodyChecked initCrc8Table
        (key.map (· + base) ++ List.replicate (maxXorKeyLength - key.length) 0) key.length s b
      = .ok (b ^^^ (xorStep (key.map (· + base)) key.length s).1,
          (xorStep (key.map (· + base)) key.length s).2) := by
  have hlen : s.2 < (key.map (· + base)).length := by rwa [List.length_map]
  have hkeyAdj : index (key.map (· + base) ++ List.replicate (maxXorKeyLength - key.length) 0) s.2
      = .ok ((key.map (· + base)).getD s.2 0) := by
    -- the index is in front of the zeros behind the key
    rw [index_eq (by rw [List.length_append]; omega) 0, List.getD_append _ _ _ _ hlen]
  -- a byte is an index into a table of 256 entries
  have htable : ∀ i : UInt8, index initCrc8Table i.toNat = .ok (initCrc8Table.getD i.toNat 0) := by
    intro i
    apply index_eq
    rw [initCrc8Table, List.length_map, List.length_range]
    exact i.toNat_lt
  have hki : add s.2 1 = .ok (s.2 + 1) := by
    have hmax := isizeMax_ge
    simp only [maxXorKeyLength] at hkey
    exact add_eq (le_usizeMax (by omega))
  rw [xorBodyChecked, hkeyAdj, ok_bind, htable, ok_bind, hki]
  rfl

theorem xorStep_lt {keyAdj : List UInt8} {keyLen : Nat} (hpos : 0 < keyLen) (s : UInt8 × Nat) :
    (xorStep keyAdj keyLen s).2.2 < keyLen := by
  rw [xorStep]
  dsimp only
  split <;> omega

/-- **The cipher never fails**, for any buffer and any key. -/
theorem xorDataChecked_eq {buffer : Bytes} (hbuffer : buffer.length ≤ isizeMax) (key : Bytes) :
    xorDataChecked buffer key = .ok (xorData buffer key) := by
  unfold xorDataChecked xorData
  split
  · rfl
  · next hne =>
    simp only [Bool.or_eq_true, List.isEmpty_iff, not_or] at hne
    have hlen : (key.take (min key.length maxXorKeyLength)).length
        = min key.length maxXorKeyLength := by
      rw [List.length_take]
      omega
    have hpos : 0 < min key.length maxXorKeyLength :=
      Nat.lt_min.mpr ⟨List.length_pos_of_ne_nil hne.2, by decide⟩
    -- the sum that becomes `base`: a key of 256 bytes at most is added to a buffer
    have hsum : buffer.length + min key.length maxXorKeyLength ≤ usizeMax := by
      have := isizeMax_ge
      rw [usizeMax_eq]
      simp only [maxXorKeyLength]
      omega
    rw [initCrc8TableChecked_eq]
    dsimp only [ok_bind]
    rw [slice_zero (Nat.min_le_left _ _), ok_bind, add_eq hsum, ok_bind]
    generalize hcut : key.take (min key.length maxXorKeyLength) = cut at hlen
    rw [← hlen] at hpos ⊢
    have hcutLen : cut.length ≤ maxXorKeyLength := hlen ▸ Nat.min_le_right _ _
    rw [keyAdjChecked_eq hcutLen, ok_bind]
    -- the invariant of the loop: the index into the key is below its length
    exact forEach_eq (fun s b hs => xorBodyChecked_eq hcutLen _ s b hs)
      (fun s _ => xorStep_lt hpos s) _ hpos _

/-! ## The obfuscator -/

def isObfuscatedChecked (data : Bytes) : Except Failure Bool := do
  if data.length < 4 then
    return false
  let b0 ← index data 0
  if b0 < 1 || b0 > 4 then
    return true
  return ((← index data 1) ||| (← index data 2) ||| (← index data 3)) ≠ 0

namespace Obfuscator

variable (o : Obfuscator)

/-- `xor_data(&mut buf[..xor_len], &self.key)` -/
def xorFrontChecked (xorLen : Nat) (buf : Bytes) : Except Failure Bytes := do
  let front ← slice buf 0 xorLen
  return (← xorDataChecked front o.key) ++ buf.drop xorLen

def dummyRoomChecked (origLen : Nat) : Except Failure Nat := do
  let maxDummy ← sub maxDummyLengthTotal origLen
  if o.obfuscateBytes > 0 then
    let partialRoom ← add (o.obfuscateBytes - origLen) 1
    return if partialRoom < maxDummy then partialRoom else maxDummy
  return maxDummy

/-- The subtraction of `dummyRoomChecked` saturates, so only the `1` is added in `usize`. A draw
is made only below a limit that was compared with zero. -/
def dummyLengthChecked (rng : Rng) (origLen packetType : Nat) : Except Failure Nat := do
  if !o.isPartial origLen && decide (origLen < maxDummyLengthTotal) then
    let maxDummy ← o.dummyRoomChecked origLen
    if packetType = typeHandshake ∨ packetType = typeHandshakeResp then
      let limit := min maxDummy maxDummyLengthHandshake
      if limit > 0 then genRange 0 limit (rng.below limit) else return 0
    else if packetType = typeCookie ∨ packetType = typeData then
      if o.maxDummy > 0 then
        let limit := min maxDummy o.maxDummy
        if limit > 0 then genRange 0 limit (rng.below limit) else return 0
      else return 0
    else return 0
  else return 0

/-- `buf.resize(start + dummy_length, 0)` and `rng.fill(&mut buf[start..])` -/
def appendDummy (rng : Rng) (buf : Bytes) (dummyLength : Nat) : Except Failure Bytes := do
  if dummyLength > 0 then
    let start := buf.length
    let buf ← resize buf (← add start dummyLength) 0
    let dummy ← slice buf start buf.length
    return buf.take start ++ rng.fill dummy.length
  return buf

def encodeChecked (rng : Rng) (buf : Bytes) : Except Failure Bytes := do
  if buf.length < 4 then
    return buf
  let origLen := buf.length
  let isPartial := o.isPartial origLen
  let packetType := u32OfLe (← index buf 0) (← index buf 1) (← index buf 2) (← index buf 3)
  let rnd ← genRange 1 256 rng.rnd
  let buf ← store buf 0 ((← index buf 0) ^^^ rnd)
  let buf ← store buf 1 rnd
  let dummyLength ← o.dummyLengthChecked rng origLen packetType
  let buf ← store buf 2 (lowByte dummyLength)
  let buf ← store buf 3 (highByte dummyLength)
  let buf ← appendDummy rng buf dummyLength
  o.xorFrontChecked (if isPartial then o.obfuscateBytes else buf.length) buf

def decodeChecked (buf : Bytes) : Except Failure (Bool × Bytes) := do
  if buf.length < 4 then
    return (false, buf)
  let buf ← o.xorFrontChecked (o.xorLen buf.length) buf
  if !(← isObfuscatedChecked buf) then
    return (true, buf)
  let buf ← store buf 0 ((← index buf 0) ^^^ (← index buf 1))
  let dummyLen := u16OfLe (← index buf 2) (← index buf 3)
  if dummyLen > (← sub buf.length 4) then
    return (false, buf)
  let realLen ← sub buf.length dummyLen
  let buf := buf.take realLen
  let buf ← store buf 1 0
  let buf ← store buf 2 0
  let buf ← store buf 3 0
  let t := u32OfLe (← index buf 0) (← index buf 1) (← index buf 2) (← index buf 3)
  return (isKnownPacketType t, buf)

variable {o}

theorem xorFrontChecked_eq {xorLen : Nat} {buf : Bytes} (hbuf : buf.length ≤ isizeMax)
    (h : xorLen ≤ buf.length) : o.xorFrontChecked xorLen buf = .ok (o.xorFront xorLen buf) := by
  have hfront : (buf.take xorLen).length ≤ isizeMax :=
    Nat.le_trans (List.length_take_le' _ _) hbuf
  rw [xorFrontChecked, slice_zero h, ok_bind, xorDataChecked_eq hfront]
  rfl

/-- What is masked lies in the buffer. -/
theorem xorLen_le (len : Nat) : o.xorLen len ≤ len := by
  unfold xorLen
  split
  · next hpartial => exact Nat.le_of_lt ((o.isPartial_iff len).mp hpartial).2
  · exact Nat.le_refl len

theorem dummyRoomChecked_eq (hobf : o.obfuscateBytes ≤ usizeMax) {origLen : Nat}
    (hpos : 0 < origLen) (hlt : origLen < maxDummyLengthTotal) :
    o.dummyRoomChecked origLen = .ok (o.dummyRoom origLen) := by
  -- the saturating difference is smaller than `usize::MAX`, whatever was configured
  have hadd : (o.obfuscateBytes - origLen) + 1 ≤ usizeMax := by
    have := usizeMax_eq
    have := isizeMax_ge
    omega
  rw [dummyRoomChecked, dummyRoom, sub_eq (Nat.le_of_lt hlt), ok_bind]
  split
  · rw [add_eq hadd]
    rfl
  · rfl

theorem dummyLengthChecked_eq (hobf : o.obfuscateBytes ≤ usizeMax) (rng : Rng) {origLen : Nat}
    (hpos : 0 < origLen) (t : Nat) :
    o.dummyLengthChecked rng origLen t = .ok (o.dummyLength rng origLen t) := by
  -- both branches draw in the same way, behind a test for zero
  have hdraw : ∀ limit, (if limit > 0 then genRange 0 limit (rng.below limit) else return 0)
      = (.ok (if limit > 0 then rng.below limit else 0) : Except Failure Nat) := by
    intro limit
    split
    · next hlimit => exact genRange_eq hlimit _
    · rfl
  unfold dummyLengthChecked dummyLength
  split
  · next hwhole =>
    simp only [Bool.and_eq_true, decide_eq_true_eq] at hwhole
    -- from here the two functions branch alike
    rw [dummyRoomChecked_eq hobf hpos hwhole.2, ok_bind]
    dsimp only
    simp only [hdraw]
    split
    · rfl
    · split
      · split <;> rfl
      · rfl
  · rfl

/-- The dummy bytes overwrite the zeros that the buffer was extended with. -/
theorem appendDummy_eq (rng : Rng) {buf : Bytes} {dummyLength : Nat}
    (h : buf.length + dummyLength ≤ isizeMax) :
    appendDummy rng buf dummyLength = .ok (buf ++ rng.fill dummyLength) := by
  have hlen : (buf ++ List.replicate dummyLength (0 : UInt8)).length
      = buf.length + dummyLength := by
    rw [List.length_append, List.length_replicate]
  unfold appendDummy
  split
  · dsimp only
    rw [add_eq (le_usizeMax h), ok_bind, resize_eq h, ok_bind,
      slice_eq (by rw [hlen]; exact Nat.le_add_right _ _) (Nat.le_refl _), ok_bind]
    -- the old bytes stay, and the slice that is filled is the extension
    rw [List.take_left, List.drop_left, hlen, Nat.add_sub_cancel_left,
      List.take_of_length_le (Nat.le_of_eq List.length_replicate), List.length_replicate]
    rfl
  · next hnone =>
    have hzero : dummyLength = 0 := Nat.eq_zero_of_not_pos hnone
    have hfill : rng.fill 0 = [] := List.eq_nil_of_length_eq_zero (rng.length_fill 0)
    rw [hzero, hfill, List.append_nil]
    rfl

/-- The four indices are behind the test for a whole header. -/
theorem isObfuscatedChecked_eq (data : Bytes) :
    isObfuscatedChecked data = .ok (isObfuscated data) := by
  match data with
  | b0 :: b1 :: b2 :: b3 :: rest =>
    have hlong : ¬ (b0 :: b1 :: b2 :: b3 :: rest).length < 4 := by
      simp only [List.length_cons]
      omega
    rw [isObfuscatedChecked, if_neg hlong]
    simp only [isObfuscated, index_zero, index_succ, ok_bind]
    split
    · next h => rw [h]; rfl
    · next h => rw [Bool.eq_false_iff.mpr h]; rfl
  | [] | [_] | [_, _] | [_, _, _] => rfl

/-- **Encoding never fails.** The header exists, the draws are below limits that are not zero,
and the part that is masked lies in the buffer. -/
theorem encodeChecked_eq (hobf : o.obfuscateBytes ≤ usizeMax) (rng : Rng) {buf : Bytes}
    (hbuf : buf.length ≤ isizeMax) : o.encodeChecked rng buf = .ok (o.encode rng buf) := by
  match buf with
  | b0 :: b1 :: b2 :: b3 :: rest =>
    have hlong : ¬ (b0 :: b1 :: b2 :: b3 :: rest).length < 4 := by
      simp only [List.length_cons]
      omega
    have hroom := o.add_dummyLength_le rng (rest.length + 4) (u32OfLe b0 b1 b2 b3)
    have hdummy := dummyLengthChecked_eq hobf rng (Nat.succ_pos (rest.length + 3))
      (u32OfLe b0 b1 b2 b3)
    simp only [Nat.succ_eq_add_one, Nat.add_assoc, Nat.reduceAdd] at hdummy
    generalize hd : o.dummyLength rng (rest.length + 4) (u32OfLe b0 b1 b2 b3) = d at hroom hdummy
    have hmax := isizeMax_ge
    -- the grown buffer is still one that a vector can hold
    have hsize : (unmasked rng b0 rest d).length ≤ isizeMax := by
      simp only [List.length_cons] at hbuf
      rw [length_unmasked]
      omega
    have happend : appendDummy rng
        ((b0 ^^^ rng.rnd) :: rng.rnd :: lowByte d :: highByte d :: rest) d
        = .ok (unmasked rng b0 rest d) := by
      rw [appendDummy_eq rng (by simp only [List.length_cons, length_unmasked] at hsize ⊢; omega)]
      rfl
    -- what is masked: a packet longer than `obfuscateBytes`, or all of the buffer
    have hfront : (if o.isPartial (rest.length + 4) then o.obfuscateBytes
        else (unmasked rng b0 rest d).length) ≤ (unmasked rng b0 rest d).length := by
      split
      · next hpartial =>
        have := ((o.isPartial_iff _).mp hpartial).2
        rw [length_unmasked]
        omega
      · exact Nat.le_refl _
    rw [encodeChecked, if_neg hlong]
    simp only [index_zero, index_succ, ok_bind, genRange_eq (show 1 < 256 by decide), store,
      List.length_cons, List.set_cons_zero, List.set_cons_succ, Nat.zero_lt_succ, if_true,
      Nat.succ_lt_succ_iff, Nat.add_assoc, Nat.reduceAdd]
    rw [hdummy, ok_bind, happend, ok_bind, xorFrontChecked_eq hsize hfront, ← hd]
    rfl
  | [] | [_] | [_, _] | [_, _, _] => rfl

/-- **Decoding never fails**, whatever arrives: the number of dummy bytes is compared with the
length before it is subtracted, and the four bytes of the header are never cut off. -/
theorem decodeChecked_eq {buf : Bytes} (hbuf : buf.length ≤ isizeMax) :
    o.decodeChecked buf = .ok (o.decode buf) := by
  unfold decodeChecked decode
  split
  · rfl
  · next hlong =>
    have hlen : ¬ (o.xorFront (o.xorLen buf.length) buf).length < 4 := by rwa [length_xorFront]
    rw [xorFrontChecked_eq hbuf (xorLen_le _)]
    dsimp only [ok_bind]
    generalize o.xorFront (o.xorLen buf.length) buf = masked at hlen
    -- masking has not changed the length, so the header is there
    match masked with
    | b0 :: b1 :: b2 :: b3 :: rest =>
      rw [isObfuscatedChecked_eq, ok_bind]
      split
      · rfl
      · have hfour : 4 ≤ (b0 :: b1 :: b2 :: b3 :: rest).length := Nat.le_of_not_lt hlen
        simp only [index_zero, index_succ, ok_bind, store, List.length_cons, List.set_cons_zero,
          Nat.zero_lt_succ, if_true, Nat.add_assoc, Nat.reduceAdd]
        rw [sub_eq (Nat.le_add_left 4 rest.length), ok_bind]
        split
        · rfl
        · next hfits =>
          have hdummy : u16OfLe b2 b3 ≤ rest.length := Nat.le_of_not_lt hfits
          -- what is kept has the four bytes of the header
          have hreal : rest.length + 4 - u16OfLe b2 b3 = rest.length - u16OfLe b2 b3 + 4 := by omega
          rw [sub_eq (Nat.le_add_right_of_le hdummy), ok_bind, hreal, Nat.add_sub_cancel]
          simp only [List.take_succ_cons, List.length_cons, Nat.succ_lt_succ_iff, Nat.zero_lt_succ,
            if_true, ok_bind, List.set_cons_succ, List.set_cons_zero, index_zero, index_succ]
          rfl
    | [] | [_] | [_, _] | [_, _, _] =>
      simp only [List.length_cons, List.length_nil] at hlen
      omega

end Obfuscator

/-! ## STUN -/

def isStunPacketChecked (buf : Bytes) : Except Failure Bool := do
  if 8 ≤ buf.length then
    return (← slice buf 4 8) == stunCookie
  return false

/-- The vector grows by one field after the other. -/
def stunWrapDataIndicationChecked (txid : Txid) (payload : Bytes) :
    Except Failure (Option Bytes) := do
  if payload.length > 65535 then
    return none
  reserve (← add stunDataIndHeaderSize payload.length)
  let out ← extend [] (u16ToBe stunDataIndication)
  let out ← extend out (u16ToBe 0)
  let out ← extend out stunCookie
  let out ← extend out txid.val
  let out ← extend out (u16ToBe stunAttrData)
  let out ← extend out (u16ToBe (← toU16 payload.length))
  let out ← extend out payload
  return some out

def stunUnwrapDataIndicationChecked (buf : Bytes) : Except Failure (Option Bytes) := do
  if buf.length < stunDataIndHeaderSize then
    return none
  if !(← isStunPacketChecked buf) then
    return none
  if u16OfBe (← index buf 0) (← index buf 1) ≠ stunDataIndication then
    return none
  if u16OfBe (← index buf 20) (← index buf 21) ≠ stunAttrData then
    return none
  let dataLen := u16OfBe (← index buf 22) (← index buf 23)
  if (← add stunDataIndHeaderSize dataLen) > buf.length then
    return none
  return some (← slice buf stunDataIndHeaderSize (← add stunDataIndHeaderSize dataLen))

theorem isStunPacketChecked_eq (buf : Bytes) :
    isStunPacketChecked buf = .ok (isStunPacket buf) := by
  unfold isStunPacketChecked isStunPacket
  split
  · next hlen =>
    rw [slice_eq (by decide) hlen, decide_eq_true hlen]
    rfl
  · next hshort =>
    rw [decide_eq_false hshort]
    rfl

/-- **Wrapping never fails**: the length was compared with `u16::MAX`. -/
theorem stunWrapChecked_eq (txid : Txid) (payload : Bytes) :
    stunWrapDataIndicationChecked txid payload = .ok (stunWrapDataIndication txid payload) := by
  unfold stunWrapDataIndicationChecked stunWrapDataIndication
  split
  · rfl
  · next hlen =>
    have hlen : payload.length ≤ 65535 := Nat.le_of_not_lt hlen
    have hmax := isizeMax_ge
    have hroom : stunDataIndHeaderSize + payload.length ≤ isizeMax := by
      rw [stunDataIndHeaderSize]
      omega
    have hcookie : stunCookie.length = 4 := rfl
    have htxid : txid.val.length = 12 := txid.property
    -- every prefix of the datagram is shorter than the datagram
    rw [add_eq (le_usizeMax hroom), toU16_eq hlen]
    simp only [ok_bind, reserve_eq hroom]
    rw [extend_eq, ok_bind, extend_eq, ok_bind, extend_eq, ok_bind, extend_eq, ok_bind, extend_eq,
      ok_bind, extend_eq, ok_bind, extend_eq]
    · rfl
    all_goals
      simp only [List.length_append, length_u16ToBe, List.length_nil, hcookie, htxid]
      omega

/-- **Unwrapping never fails**, whatever arrives: the header is there before it is read, and the
payload before it is cut out. -/
theorem stunUnwrapChecked_eq (buf : Bytes) :
    stunUnwrapDataIndicationChecked buf = .ok (stunUnwrapDataIndication buf) := by
  unfold stunUnwrapDataIndicationChecked stunUnwrapDataIndication
  split
  · rfl
  · next hlong =>
    have hlong : 24 ≤ buf.length := Nat.le_of_not_lt hlong
    have hread : ∀ i < 24, index buf i = .ok (buf.getD i 0) :=
      fun i hi => index_eq (by omega) 0
    have hadd : ∀ hi lo : UInt8, add stunDataIndHeaderSize (u16OfBe hi lo)
        = .ok (stunDataIndHeaderSize + u16OfBe hi lo) := by
      intro hi lo
      have hmax := isizeMax_ge
      have hhi := hi.toNat_lt
      have hlo := lo.toNat_lt
      apply add_eq
      apply le_usizeMax
      rw [stunDataIndHeaderSize, u16OfBe]
      omega
    rw [isStunPacketChecked_eq, ok_bind]
    split
    · rfl
    · rw [hread 0 (by decide), hread 1 (by decide)]
      dsimp only [ok_bind]
      split
      · rfl
      · rw [hread 20 (by decide), hread 21 (by decide)]
        dsimp only [ok_bind]
        split
        · rfl
        · rw [hread 22 (by decide), hread 23 (by decide)]
          dsimp only [ok_bind]
          rw [hadd, ok_bind]
          split
          · rfl
          · next hfits =>
            rw [ok_bind, slice_eq (Nat.le_add_right _ _) (Nat.le_of_not_lt hfits),
              Nat.add_sub_cancel_left]
            rfl

/-! ## The wire code -/

/-- **No step of the wire code fails.** For every datagram and packet, every key, every
configured number and whatever the random generator hands out, each function returns a value,
and it is the one the model computes. -/
theorem wire_never_fails (buf : Slice) (key : Bytes) (maxDummy obfuscateBytes : USize)
    (rng : Rng) (txid : Txid) :
    let o : Obfuscator := ⟨key, maxDummy.toNat, obfuscateBytes.toNat⟩
    stunUnwrapDataIndicationChecked buf.val = .ok (stunUnwrapDataIndication buf.val)
      ∧ stunWrapDataIndicationChecked txid buf.val = .ok (stunWrapDataIndication txid buf.val)
      ∧ xorDataChecked buf.val key = .ok (xorData buf.val key)
      ∧ o.encodeChecked rng buf.val = .ok (o.encode rng buf.val)
      ∧ o.decodeChecked buf.val = .ok (o.decode buf.val) :=
  ⟨stunUnwrapChecked_eq buf.val, stunWrapChecked_eq txid buf.val,
    xorDataChecked_eq buf.property key,
    Obfuscator.encodeChecked_eq (toNat_le_usizeMax obfuscateBytes) rng buf.property,
    Obfuscator.decodeChecked_eq buf.property⟩

end Phobos
