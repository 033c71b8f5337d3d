import PhobosClient.Lib.Crc
import PhobosClient.Wire.Paths

/-!
# PhobosClient — STUN Binding Requests (`src/stun.rs`)

With STUN masking every sender also sends Binding Requests, to keep the server's view of the
conversation open. A request is a 20-byte header, with the same cookie as the framed packets and
another message type, and a fingerprint: the CRC-32 of the header, masked with a constant.

Requests and the responses to them share the socket with the packets, so both receivers have to
tell them apart. They go by the message type: **`receive_other_type`**: a datagram with the cookie
that is no Data Indication reaches neither the WireGuard engine nor the client of the relay.
-/

namespace Phobos

open ByteFields

def stunAttrFingerprint : Nat := 0x8028
def stunFingerprintXor : BitVec 32 := 0x5354554E#32

/-- `crc32fast::hash`: the reflected CRC-32 with polynomial `0xEDB88320`, started with ones and
complemented at the end. -/
def crc32 (message : Bytes) : BitVec 32 :=
  (message.flatMap fun b => Crc.wordBits b.toBitVec).foldl (Crc.bitStep 0xEDB88320#32) 0xFFFFFFFF#32
    ^^^ 0xFFFFFFFF#32

example : crc32 [0x31, 0x32, 0x33, 0x34, 0x35, 0x36, 0x37, 0x38, 0x39] = 0xCBF43926#32 := by
  decide +kernel

/-- `u32::to_be_bytes`. -/
def u32ToBe (n : BitVec 32) : Bytes :=
  [24, 16, 8, 0].map fun shift => UInt8.ofNat (n.toNat >>> shift)

/-- The header of a Binding Request; its length field counts the fingerprint attribute. -/
def bindingRequestHeader (txid : Txid) : Bytes :=
  u16ToBe stunBindingReq ++ u16ToBe 8 ++ stunCookie ++ txid.val

/-- Builds a STUN Binding Request (28 bytes) with CRC32 fingerprint. -/
def stunBuildBindingRequest (txid : Txid) : Bytes :=
  let pkt := bindingRequestHeader txid
  pkt ++ u16ToBe stunAttrFingerprint ++ u16ToBe 4 ++ u32ToBe (crc32 pkt ^^^ stunFingerprintXor)

theorem length_bindingRequestHeader (txid : Txid) : (bindingRequestHeader txid).length = 20 := by
  simp [bindingRequestHeader, stunCookie, txid.property]

/-- As long as the source says. -/
theorem length_stunBuildBindingRequest (txid : Txid) :
    (stunBuildBindingRequest txid).length = 28 := by
  simp [stunBuildBindingRequest, length_bindingRequestHeader, u32ToBe]

/-- It carries the magic cookie. -/
theorem isStunPacket_bindingRequest (txid : Txid) :
    isStunPacket (stunBuildBindingRequest txid) = true := by
  simp [isStunPacket, stunBuildBindingRequest, bindingRequestHeader, u16ToBe, stunCookie]

theorem stunMessageType_bindingRequest (txid : Txid) :
    stunMessageType (stunBuildBindingRequest txid) = some stunBindingReq := by
  have htype : u16OfBe (highByte stunBindingReq) (lowByte stunBindingReq) = stunBindingReq := by
    decide
  simp [stunMessageType, stunBuildBindingRequest, bindingRequestHeader, u16ToBe, stunCookie, htype]

/-! ## What is not a Data Indication -/

variable {raw : Bytes}

/-- Unwrapping looks at the type of the message. -/
theorem stunUnwrap_other_type (htype : stunMessageType raw ≠ some stunDataIndication) :
    stunUnwrapDataIndication raw = none := by
  unfold stunUnwrapDataIndication
  split
  · rfl
  · next hlen =>
    have hlong : ¬ raw.length < 2 := fun h => hlen (Nat.lt_trans h (by decide))
    rw [stunMessageType, if_neg hlong, Ne, Option.some.injEq] at htype
    rw [if_pos htype, ite_self]

/-- **Other STUN datagrams are ignored**, by the tunnel and by the relay. -/
theorem receive_other_type (o : Obfuscator) (hstun : isStunPacket raw = true)
    (htype : stunMessageType raw ≠ some stunDataIndication) :
    tunnelReceive o true raw = none ∧ serverReceive o true raw = none := by
  have hunwrap := stunUnwrap_other_type htype
  constructor
  · simp only [tunnelReceive, deStun, hunwrap, hstun, if_true]
  · simp only [serverReceive, serverPayload, hunwrap, hstun, if_true, ite_self]

theorem receive_bindingRequest (o : Obfuscator) (txid : Txid) :
    tunnelReceive o true (stunBuildBindingRequest txid) = none
      ∧ serverReceive o true (stunBuildBindingRequest txid) = none := by
  refine receive_other_type o (isStunPacket_bindingRequest txid) ?_
  rw [stunMessageType_bindingRequest]
  decide

/-! Settings, and draws of the generator, for examples. -/

def sampleRng : Rng :=
  ⟨9, by decide, fun _ => 0, fun _ h => h, fun n => List.replicate n 1,
    fun _ => List.length_replicate⟩

def sampleTxid : Txid := ⟨List.replicate 12 5, rfl⟩

def sampleObfuscator : Obfuscator := ⟨[115, 101, 99, 114, 101, 116], 4, 0⟩

end Phobos
