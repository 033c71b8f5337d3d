import PhobosClient.Wire.Obfuscator
import PhobosClient.Wire.Stun

/-!
# PhobosClient — the send path and the two receive paths

Every sender (`TunnelService::start`, `StandaloneTunnel::run`, the client loop of the relay)
encodes a packet and, with STUN masking, wraps it, falling back to the bare packet when it
cannot be wrapped. There are two receivers: the tunnel's UDP worker (`tunnelReceive`) and
the server loop of the relay (`serverReceive`). They test the datagram in different orders
and treat datagrams without the STUN cookie differently.

**`receive_send`**: either receiver gets back the very packet that was sent.
-/

namespace Phobos

/-- Encode a packet and frame it for the wire. -/
def sendPath (o : Obfuscator) (useStun : Bool) (rng : Rng) (txid : Txid) (packet : Bytes) :
    Bytes :=
  let obfBuf := o.encode rng packet
  if useStun then (stunWrapDataIndication txid obfBuf).getD obfBuf else obfBuf

/-- What the tunnel's UDP worker takes out of a STUN datagram; `none` is `continue`. A
datagram that is not STUN at all is passed on as it is. -/
def deStun (raw : Bytes) : Option Bytes :=
  match stunUnwrapDataIndication raw with
  | some payload => some payload
  | none => if isStunPacket raw then none else some raw

/-- The tunnel's UDP worker: the packet handed to the WireGuard engine, if any. -/
def tunnelReceive (o : Obfuscator) (useStun : Bool) (raw : Bytes) : Option Bytes :=
  match (if useStun then deStun raw else some raw) with
  | none => none
  | some payload =>
    let (ok, plain) := o.decode payload
    if !ok || plain.isEmpty then none else some plain

/-- What the relay's server loop takes out of a datagram; `none` is `continue`. -/
def serverPayload (useStun : Bool) (raw : Bytes) : Option Bytes :=
  if useStun then
    if isStunPacket raw then
      if stunMessageType raw = some stunBindingResp then none
      else stunUnwrapDataIndication raw
    else none
  else some raw

/-- The relay's server loop: the packet for the bound client, if any. -/
def serverReceive (o : Obfuscator) (useStun : Bool) (raw : Bytes) : Option Bytes :=
  if raw.isEmpty then none
  else
    match serverPayload useStun raw with
    | none => none
    | some payload =>
      let (ok, plain) := o.decode payload
      if ok then some plain else none

/-! ## The round trip -/

/-- An encoded packet still has a length that STUN framing can carry. -/
theorem length_encode_le (o : Obfuscator) (rng : Rng) (t : UInt8) {rest : Bytes}
    (hmax : (t :: 0 :: 0 :: 0 :: rest).length ≤ 65535) :
    (o.encode rng (t :: 0 :: 0 :: 0 :: rest)).length ≤ 65535 := by
  obtain ⟨d, -, hle, henc⟩ := o.encode_eq rng t rest
  rw [henc, Obfuscator.length_xorFront, Obfuscator.length_unmasked]
  simp only [List.length_cons] at hmax
  omega

/-- The frame of a packet: wrapped with STUN, bare without. Both receivers get the payload
out again. -/
theorem receive_payload_sendPath (o : Obfuscator) (useStun : Bool) (rng : Rng) (txid : Txid)
    {packet : Bytes} (hlen : (o.encode rng packet).length ≤ 65535) :
    (if useStun then deStun (sendPath o useStun rng txid packet)
        else some (sendPath o useStun rng txid packet)) = some (o.encode rng packet)
      ∧ serverPayload useStun (sendPath o useStun rng txid packet)
        = some (o.encode rng packet) := by
  cases useStun with
  | false => exact ⟨rfl, rfl⟩
  | true =>
    obtain ⟨wrapped, hwrap⟩ : ∃ wrapped,
        stunWrapDataIndication txid (o.encode rng packet) = some wrapped :=
      ⟨_, stunWrap_eq_some txid hlen⟩
    obtain ⟨hstun, htype, hunwrap⟩ := stunWrap_spec hwrap
    have hsend : sendPath o true rng txid packet = wrapped := by
      simp only [sendPath, hwrap, if_true, Option.getD_some]
    rw [hsend]
    constructor
    · simp only [if_true, deStun, hunwrap]
    · simp only [serverPayload, hstun, htype, hunwrap, if_true]
      rw [if_neg (by decide)]

/-- A framed packet is never the empty datagram that the server loop skips. -/
theorem sendPath_ne_nil (o : Obfuscator) (useStun : Bool) (rng : Rng) (txid : Txid)
    {packet : Bytes} (hlen : (o.encode rng packet).length ≤ 65535)
    (hne : o.encode rng packet ≠ []) : sendPath o useStun rng txid packet ≠ [] := by
  cases useStun with
  | false => exact hne
  | true =>
    have hwrap := stunWrap_eq_some txid hlen
    simp only [sendPath, hwrap, if_true, Option.getD_some]
    simp [hne]

/-- **What is sent is received.** A plain WireGuard packet of at most 65535 bytes, sent with
any key, any dummy and partial-masking settings, any random draw and with or without STUN
masking, comes out of both receive paths of an endpoint with the same settings unchanged. -/
theorem receive_send (o : Obfuscator) (useStun : Bool) (rng : Rng) (txid : Txid)
    (t : UInt8) (rest : Bytes) (ht : 1 ≤ t ∧ t ≤ 4)
    (hmax : (t :: 0 :: 0 :: 0 :: rest).length ≤ 65535) :
    let p := t :: 0 :: 0 :: 0 :: rest
    tunnelReceive o useStun (sendPath o useStun rng txid p) = some p
      ∧ serverReceive o useStun (sendPath o useStun rng txid p) = some p := by
  intro p
  have hlen : (o.encode rng p).length ≤ 65535 := length_encode_le o rng t hmax
  have hdec : o.decode (o.encode rng p) = (true, p) := o.decode_encode rng ht rest
  have hne : o.encode rng p ≠ [] := by
    intro h
    have hnil : o.decode [] = (false, []) := rfl
    rw [h, hnil] at hdec
    cases hdec
  obtain ⟨htunnel, hserver⟩ := receive_payload_sendPath o useStun rng txid hlen
  constructor
  · simp only [tunnelReceive, htunnel, hdec]
    rfl
  · have hsend := sendPath_ne_nil o useStun rng txid hlen hne
    simp only [serverReceive, hserver, hdec]
    rw [if_neg (by simpa using hsend)]
    rfl

/-- A four-byte data packet through STUN masking, a long key and a small partial setting. -/
theorem receive_send_short :
    let o : Obfuscator := ⟨List.replicate 300 7, 4, 2⟩
    let rng : Rng := ⟨9, by decide, fun _ => 0, fun _ h => h, fun n => List.replicate n 1,
      fun _ => List.length_replicate⟩
    let txid : Txid := ⟨List.replicate 12 5, rfl⟩
    tunnelReceive o true (sendPath o true rng txid [4, 0, 0, 0]) = some [4, 0, 0, 0]
      ∧ serverReceive o true (sendPath o true rng txid [4, 0, 0, 0]) = some [4, 0, 0, 0] :=
  receive_send _ _ _ _ 4 [] (by decide) (by decide)

end Phobos
