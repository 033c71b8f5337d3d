import PhobosClient.Relay.Receivers

/-!
# PhobosClient — framed packets

What the tunnel and the relay put on the wire is a WireGuard packet, encoded and framed. Both
receivers read the packet out again.
-/

namespace Phobos

open ByteFields

/-- A WireGuard message that fits a datagram. -/
def WireGuardPacket (p : Bytes) : Prop := PlainHeader p ∧ p.length ≤ 65535

/-- Both receivers get a framed packet back. -/
theorem receive_sendPath (o : Obfuscator) (useStun : Bool) {packet : Bytes}
    (hpacket : WireGuardPacket packet) (rng : Rng) (txid : Txid) :
    tunnelReceive o useStun (sendPath o useStun rng txid packet) = some packet
      ∧ serverReceive o useStun (sendPath o useStun rng txid packet) = some packet := by
  obtain ⟨⟨t, rest, rfl, hge, hle⟩, hmax⟩ := hpacket
  obtain ⟨htunnel, hserver⟩ :=
    receive_payload_sendPath o useStun rng txid (length_encode_le o rng t hmax)
  have hdecode := o.decode_encode rng ⟨hge, hle⟩ rest
  constructor
  · rw [tunnelReceive_eq, htunnel, Option.bind_some, hdecode, if_pos rfl]
  · rw [serverReceive_eq, hserver, Option.bind_some, hdecode, if_pos rfl]

/-- A known type is a header in the plain. -/
theorem plainHeader_of_packetType {buf : Bytes} {t : Nat} (h : packetType buf = some t)
    (hknown : isKnownPacketType t = true) : PlainHeader buf := by
  have hlen : 4 ≤ buf.length := by
    unfold packetType at h
    split at h
    · simp
    · cases h
  obtain ⟨b0, b1, b2, b3, rest, rfl⟩ := exists_header hlen
  cases h
  rw [isKnownPacketType, Bool.and_eq_true, decide_eq_true_eq, decide_eq_true_eq] at hknown
  obtain ⟨hge, hle⟩ := hknown
  -- the upper three bytes count at least 256 each
  simp only [u32OfLe, typeHandshake, typeData] at hge hle
  have h1 : b1 = 0 := UInt8.toNat_inj.mp (by rw [UInt8.toNat_zero]; omega)
  have h2 : b2 = 0 := UInt8.toNat_inj.mp (by rw [UInt8.toNat_zero]; omega)
  have h3 : b3 = 0 := UInt8.toNat_inj.mp (by rw [UInt8.toNat_zero]; omega)
  subst h1 h2 h3
  rw [UInt8.toNat_zero] at hge hle
  refine ⟨b0, rest, rfl, UInt8.le_iff_toNat_le.mpr ?_, UInt8.le_iff_toNat_le.mpr ?_⟩
  · exact hge
  · exact hle

end Phobos
