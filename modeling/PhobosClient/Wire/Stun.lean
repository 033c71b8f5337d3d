import PhobosClient.Lib.ByteFields
import PhobosClient.Wire.Crc8

/-!
# PhobosClient — STUN Data Indication framing (`src/stun.rs`)

A payload travels behind a 24-byte header: message type `0x0115`, a zero length field, the
magic cookie, a random transaction id, the attribute type `0x0013` and the payload length
as a 16-bit big-endian number. `stunUnwrapDataIndication` checks exactly these fields, so
it gives back what `stunWrapDataIndication` wrapped (`stunUnwrap_of_wrap`).
-/

namespace Phobos

open ByteFields

def stunCookie : Bytes := [0x21, 0x12, 0xA4, 0x42]

def stunBindingReq : Nat := 0x0001
def stunBindingResp : Nat := 0x0101
def stunDataIndication : Nat := 0x0115

def stunAttrData : Nat := 0x0013

def stunDataIndHeaderSize : Nat := 24

/-- A STUN transaction id: the twelve random bytes of the header. -/
def Txid := { bytes : Bytes // bytes.length = 12 }

/-- Checks if the packet has the STUN magic cookie at offset 4..8. -/
def isStunPacket (buf : Bytes) : Bool :=
  decide (8 ≤ buf.length) && ((buf.drop 4).take 4 == stunCookie)

/-- Extracts the STUN message type. -/
def stunMessageType (buf : Bytes) : Option Nat :=
  if buf.length < 2 then none else some (u16OfBe (buf.getD 0 0) (buf.getD 1 0))

/-- Wraps the payload in a STUN Data Indication header. -/
def stunWrapDataIndication (txid : Txid) (payload : Bytes) : Option Bytes :=
  if payload.length > 65535 then none
  else some (u16ToBe stunDataIndication ++ u16ToBe 0 ++ stunCookie ++ txid.val
    ++ u16ToBe stunAttrData ++ u16ToBe payload.length ++ payload)

/-- Unwraps a STUN Data Indication packet, returning the inner payload. -/
def stunUnwrapDataIndication (buf : Bytes) : Option Bytes :=
  if buf.length < stunDataIndHeaderSize then none
  else if !isStunPacket buf then none
  else if u16OfBe (buf.getD 0 0) (buf.getD 1 0) ≠ stunDataIndication then none
  else if u16OfBe (buf.getD 20 0) (buf.getD 21 0) ≠ stunAttrData then none
  else
    let dataLen := u16OfBe (buf.getD 22 0) (buf.getD 23 0)
    if stunDataIndHeaderSize + dataLen > buf.length then none
    else some ((buf.drop stunDataIndHeaderSize).take dataLen)

/-! ## The wrapped datagram, byte by byte -/

/-- The transaction id as twelve named bytes. -/
theorem Txid.exists_bytes (txid : Txid) :
    ∃ a b c d e f g h i j k l, txid.val = [a, b, c, d, e, f, g, h, i, j, k, l] := by
  obtain ⟨bytes, hlen⟩ := txid
  match bytes, hlen with
  | [a, b, c, d, e, f, g, h, i, j, k, l], _ => exact ⟨a, b, c, d, e, f, g, h, i, j, k, l, rfl⟩

/-- Wrapping succeeds for every payload whose length fits the 16-bit field. -/
theorem stunWrap_eq_some {payload : Bytes} (txid : Txid) (h : payload.length ≤ 65535) :
    stunWrapDataIndication txid payload = some (u16ToBe stunDataIndication ++ u16ToBe 0
      ++ stunCookie ++ txid.val ++ u16ToBe stunAttrData ++ u16ToBe payload.length ++ payload) := by
  rw [stunWrapDataIndication, if_neg (by omega)]

/-- What a receiver sees in a wrapped datagram: the cookie, the Data Indication type, which
is not a Binding Response, and the payload behind the header. -/
theorem stunWrap_spec {payload wrapped : Bytes} {txid : Txid}
    (h : stunWrapDataIndication txid payload = some wrapped) :
    isStunPacket wrapped = true
      ∧ stunMessageType wrapped = some stunDataIndication
      ∧ stunUnwrapDataIndication wrapped = some payload := by
  have hlen : payload.length ≤ 65535 := by
    by_contra hgt
    rw [stunWrapDataIndication, if_pos (by omega)] at h
    cases h
  rw [stunWrap_eq_some txid hlen] at h
  obtain ⟨a, b, c, d, e, f, g, h', i, j, k, l, htx⟩ := txid.exists_bytes
  have hfield : u16OfBe (highByte payload.length) (lowByte payload.length) = payload.length :=
    u16OfBe_high_low (by omega)
  cases h
  rw [htx]
  have hstun : isStunPacket (u16ToBe stunDataIndication ++ u16ToBe 0 ++ stunCookie
      ++ [a, b, c, d, e, f, g, h', i, j, k, l] ++ u16ToBe stunAttrData
      ++ u16ToBe payload.length ++ payload) = true := by
    simp [isStunPacket, u16ToBe, stunCookie]
  have htype : u16OfBe (highByte stunDataIndication) (lowByte stunDataIndication)
      = stunDataIndication := by decide
  have hattr : u16OfBe (highByte stunAttrData) (lowByte stunAttrData) = stunAttrData := by decide
  refine ⟨hstun, ?_, ?_⟩
  · simp [stunMessageType, u16ToBe, stunCookie, htype]
  · rw [stunUnwrapDataIndication, hstun]
    simp [u16ToBe, stunCookie, stunDataIndHeaderSize, hfield, htype, hattr]
    omega

/-! ## The format -/

/-- The 24 bytes in front of a payload of `dataLen` bytes. The length field at 2..4 and the
transaction id at 8..20 may be anything. -/
structure DataIndHeader (header : Bytes) (dataLen : Nat) : Prop where
  length : header.length = 24
  messageType : u16At header 0 = 0x0115
  cookie : (header.drop 4).take 4 = [0x21, 0x12, 0xA4, 0x42]
  attrType : u16At header 20 = 0x0013
  dataLength : u16At header 22 = dataLen

variable {header body d : Bytes}

/-- The cookie is looked for in the header only. -/
theorem isStunPacket_append (hlen : header.length = 24) (body : Bytes) :
    isStunPacket (header ++ body) = true ↔ (header.drop 4).take 4 = stunCookie := by
  have htake : ((header ++ body).drop 4).take 4 = (header.drop 4).take 4 := by
    rw [List.drop_append_of_le_length (by omega),
      List.take_append_of_le_length (by rw [List.length_drop]; omega)]
  rw [isStunPacket, htake, Bool.and_eq_true, decide_eq_true_eq, beq_iff_eq, List.length_append]
  exact and_iff_right (by omega)

/-- What stands behind a header is the payload and what trails it. -/
theorem stunUnwrap_append (hlen : header.length = 24) (body d : Bytes) :
    stunUnwrapDataIndication (header ++ body) = some d
      ↔ DataIndHeader header d.length ∧ d <+: body := by
  have htype : u16OfBe ((header ++ body).getD 0 0) ((header ++ body).getD 1 0) = u16At header 0 :=
    u16At_append (by omega) body
  have hattr : u16OfBe ((header ++ body).getD 20 0) ((header ++ body).getD 21 0)
      = u16At header 20 := u16At_append (by omega) body
  have hdata : u16OfBe ((header ++ body).getD 22 0) ((header ++ body).getD 23 0)
      = u16At header 22 := u16At_append (by omega) body
  have hbody : (header ++ body).drop stunDataIndHeaderSize = body := List.drop_left' hlen
  have hroom : stunDataIndHeaderSize + u16At header 22 > (header ++ body).length
      ↔ ¬ u16At header 22 ≤ body.length := by
    rw [List.length_append, hlen, stunDataIndHeaderSize]
    omega
  have hlong : ¬ (header ++ body).length < stunDataIndHeaderSize := by
    rw [List.length_append, hlen, stunDataIndHeaderSize]
    omega
  -- the tests of the parser, in their order
  have hparse : stunUnwrapDataIndication (header ++ body) = some d
      ↔ (header.drop 4).take 4 = stunCookie ∧ u16At header 0 = stunDataIndication
        ∧ u16At header 20 = stunAttrData ∧ u16At header 22 ≤ body.length
        ∧ body.take (u16At header 22) = d := by
    rw [← isStunPacket_append hlen body, stunUnwrapDataIndication, if_neg hlong, htype, hattr,
      hdata, hbody]
    simp only [Option.ite_none_left_eq_some, hroom, Option.some.injEq, not_not, ne_eq,
      Bool.not_eq_true', Bool.not_eq_false]
  rw [hparse]
  constructor
  · rintro ⟨hcookie, hmessage, hattribute, hle, rfl⟩
    refine ⟨⟨hlen, hmessage, hcookie, hattribute, ?_⟩, List.take_prefix _ _⟩
    rw [List.length_take, Nat.min_eq_left hle]
  · rintro ⟨hheader, hprefix⟩
    have hle : u16At header 22 ≤ body.length := hheader.dataLength ▸ hprefix.length_le
    refine ⟨hheader.cookie, hheader.messageType, hheader.attrType, hle, ?_⟩
    rw [hheader.dataLength]
    exact (List.prefix_iff_eq_take.mp hprefix).symm

/-- What is wrapped: a header with a zero length field and the transaction id, and the payload. -/
theorem stunWrap_header (txid : Txid) {payload : Bytes} (h : payload.length ≤ 65535) :
    ∃ header, stunWrapDataIndication txid payload = some (header ++ payload)
      ∧ DataIndHeader header payload.length
      ∧ u16At header 2 = 0 ∧ (header.drop 8).take 12 = txid.val := by
  obtain ⟨a, b, c, d, e, f, g, h', i, j, k, l, htx⟩ := txid.exists_bytes
  have hfield : u16OfBe (highByte payload.length) (lowByte payload.length) = payload.length :=
    u16OfBe_high_low (by omega)
  have hmessage : u16OfBe (highByte 0x0115) (lowByte 0x0115) = 0x0115 := by decide
  have hattribute : u16OfBe (highByte 0x0013) (lowByte 0x0013) = 0x0013 := by decide
  have hzero : u16OfBe (highByte 0) (lowByte 0) = 0 := by decide
  refine ⟨_, stunWrap_eq_some txid h, ?_, ?_, ?_⟩
  · rw [htx]
    exact ⟨rfl, hmessage, rfl, hattribute, hfield⟩
  · rw [htx]
    exact hzero
  · rw [htx]
    rfl

/-- **The Data Indication format.** Unwrapping accepts exactly the headers of the format followed
by the payload and anything else; wrapping refuses exactly the payloads whose length does not
fit the field, and makes such a datagram, with a zero length field and nothing behind. -/
theorem stun_dataIndication_format (b d p : Bytes) (txid : Txid) :
    (stunUnwrapDataIndication b = some d ↔
        ∃ header trailing, DataIndHeader header d.length ∧ b = header ++ d ++ trailing)
      ∧ (stunWrapDataIndication txid p = none ↔ 65535 < p.length)
      ∧ (p.length ≤ 65535 → ∃ header, stunWrapDataIndication txid p = some (header ++ p)
          ∧ DataIndHeader header p.length
          ∧ u16At header 2 = 0 ∧ (header.drop 8).take 12 = txid.val) := by
  refine ⟨⟨fun h => ?_, ?_⟩, ?_, stunWrap_header txid⟩
  · have hlen : 24 ≤ b.length := by
      by_contra hshort
      have hlt : b.length < stunDataIndHeaderSize := Nat.lt_of_not_le hshort
      rw [stunUnwrapDataIndication, if_pos hlt] at h
      cases h
    have hfront : (b.take 24).length = 24 := by rw [List.length_take, Nat.min_eq_left hlen]
    rw [← List.take_append_drop 24 b] at h
    obtain ⟨hheader, trailing, htrailing⟩ := (stunUnwrap_append hfront _ _).mp h
    refine ⟨b.take 24, trailing, hheader, ?_⟩
    rw [List.append_assoc, htrailing, List.take_append_drop]
  · rintro ⟨header, trailing, hheader, rfl⟩
    rw [List.append_assoc]
    exact (stunUnwrap_append hheader.length _ _).mpr ⟨hheader, List.prefix_append _ _⟩
  · unfold stunWrapDataIndication
    split
    · next hlong => exact iff_of_true rfl hlong
    · next hshort => exact iff_of_false (Option.some_ne_none _) hshort

end Phobos
