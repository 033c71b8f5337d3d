import PhobosClient.Relay.Model
import PhobosClient.Wire.Decoder

/-!
# PhobosClient — the relay's server loop and the tunnel's worker compared

Both take datagrams of the same server apart, with the same key and the same settings, and test
them in different orders: the server loop looks for the cookie and for Binding Responses before
it unwraps, the worker unwraps first and looks for the cookie afterwards. With STUN masking a
datagram without the cookie is dropped by the loop and read as it stands by the worker.

That is the only difference. **`serverTurn_agrees`**: what the loop forwards, the worker hands to
the WireGuard engine, and whatever only the worker lets through is such a datagram.
-/

namespace Phobos

open Steps

variable {Addr : Type*}

/-- One turn of the server loop for a datagram: what it sends, and to whom. -/
def serverTurn (o : Obfuscator) (isStun : Bool) (clientAddr : Option Addr) (raw : Bytes) :
    Option (Bytes × Addr) :=
  match serverReceive o isStun raw, clientAddr with
  | some payload, some client => some (payload, client)
  | _, _ => none

/-- A turn of the running loop that nothing interrupts delivers just that. -/
theorem exec_serverTurn [DecidableEq Addr] {o : Obfuscator} {isStun : Bool} {w : RelayState Addr}
    (hserver : w.server = .receiving) {raw payload : Bytes} {client : Addr} :
    (∃ w', exec (relayStep o isStun) w [.serverRecv raw, .serverLook, .serverSend] = some w'
        ∧ w'.delivered = w.delivered ++ [(payload, client)])
      ↔ serverTurn o isStun w.clientAddr raw = some (payload, client) := by
  cases hreceive : serverReceive o isStun raw with
  | none => simp [exec, execIf, relayStep, serverTurn, hserver, hreceive]
  | some p =>
    cases hclient : w.clientAddr with
    | none => simp [exec, execIf, relayStep, serverTurn, hserver, hreceive, hclient]
    | some c => simp [exec, execIf, relayStep, serverTurn, hserver, hreceive, hclient]

variable {o : Obfuscator} {isStun : Bool} {raw payload : Bytes}

/-- What the decoder accepts has a header, so it is never empty. -/
theorem decode_isEmpty (h : (o.decode payload).1 = true) :
    (o.decode payload).2.isEmpty = false := by
  obtain ⟨hlen, hheader⟩ := (o.decode_accepts_iff payload).mp h
  rw [o.decode_of_hidden hlen (hheader.elim PlainHeader.hidden id)]
  rfl

/-- Nothing comes out of an empty datagram, so the loop may skip it before it looks at it. -/
theorem serverReceive_eq (o : Obfuscator) (isStun : Bool) (raw : Bytes) :
    serverReceive o isStun raw = (serverPayload isStun raw).bind fun payload =>
      if (o.decode payload).1 then some (o.decode payload).2 else none := by
  unfold serverReceive
  split
  · next hempty =>
    rw [List.isEmpty_iff.mp hempty]
    cases isStun <;> rfl
  · cases serverPayload isStun raw <;> rfl

/-- The worker's test for an empty packet never decides. -/
theorem tunnelReceive_eq (o : Obfuscator) (isStun : Bool) (raw : Bytes) :
    tunnelReceive o isStun raw = (if isStun then deStun raw else some raw).bind fun payload =>
      if (o.decode payload).1 then some (o.decode payload).2 else none := by
  unfold tunnelReceive
  cases (if isStun then deStun raw else some raw) with
  | none => rfl
  | some payload =>
    simp only [Option.bind_some]
    cases hok : (o.decode payload).1 with
    | false => rfl
    | true => rw [decode_isEmpty hok]; rfl

/-- **With the cookie both unwrap alike**: a Binding Response is no Data Indication. -/
theorem deStun_of_isStunPacket (h : isStunPacket raw = true) :
    deStun raw = serverPayload true raw := by
  have hresponse : stunMessageType raw = some stunBindingResp →
      stunUnwrapDataIndication raw = none := by
    intro htype
    unfold stunMessageType at htype
    split at htype
    · cases htype
    · unfold stunUnwrapDataIndication
      split
      · rfl
      · rw [h, if_neg (by decide), if_pos]
        rw [Option.some.inj htype]
        decide
  simp only [deStun, serverPayload, h, if_true]
  split
  · next payload hunwrap =>
    have hother : stunMessageType raw ≠ some stunBindingResp := by
      intro htype
      rw [hresponse htype] at hunwrap
      cases hunwrap
    rw [if_neg hother, hunwrap]
  · next hunwrap => rw [hunwrap, ite_self]

/-- The datagrams that the two take apart differently. -/
theorem receivers_eq (h : isStun = true → isStunPacket raw = true) :
    serverReceive o isStun raw = tunnelReceive o isStun raw := by
  rw [serverReceive_eq, tunnelReceive_eq]
  cases isStun with
  | false => rfl
  | true => rw [if_pos rfl, deStun_of_isStunPacket (h rfl)]

/-- The cookie decides, in its four bytes. -/
theorem isStunPacket_iff : isStunPacket raw = true ↔ (raw.drop 4).take 4 = stunCookie := by
  rw [isStunPacket, Bool.and_eq_true, decide_eq_true_eq, beq_iff_eq]
  refine and_iff_right_of_imp fun h => ?_
  have hlen := congrArg List.length h
  rw [List.length_take, List.length_drop, show stunCookie.length = 4 from rfl] at hlen
  omega

/-- **The two receivers agree**, for every datagram, key, setting and masking, once a client is
bound: what the relay forwards is what the tunnel hands over, and a packet that only the tunnel
hands over came in a datagram without the cookie under STUN masking. -/
theorem serverTurn_agrees (o : Obfuscator) (isStun : Bool) (raw : Bytes) (client : Addr) :
    (∀ p, serverTurn o isStun (some client) raw = some (p, client) →
        tunnelReceive o isStun raw = some p)
      ∧ ∀ p, tunnelReceive o isStun raw = some p →
        serverTurn o isStun (some client) raw ≠ some (p, client) →
          isStun = true ∧ (raw.drop 4).take 4 ≠ stunCookie := by
  have hturn : ∀ p, serverTurn o isStun (some client) raw = some (p, client)
      ↔ serverReceive o isStun raw = some p := by
    intro p
    unfold serverTurn
    cases serverReceive o isStun raw <;> simp
  constructor
  · intro p hforward
    rw [hturn] at hforward
    by_cases hagree : isStun = true → isStunPacket raw = true
    · rw [← receivers_eq hagree, hforward]
    · -- without the cookie the relay forwards nothing
      obtain ⟨rfl, hcookie⟩ := Classical.not_imp.mp hagree
      rw [serverReceive_eq, serverPayload, if_pos rfl, if_neg hcookie] at hforward
      cases hforward
  · intro p htunnel hdropped
    rw [Ne, hturn] at hdropped
    have hdiffer : ¬ (isStun = true → isStunPacket raw = true) := fun hagree =>
      hdropped (receivers_eq hagree ▸ htunnel)
    obtain ⟨hstun, hcookie⟩ := Classical.not_imp.mp hdiffer
    exact ⟨hstun, fun h => hcookie (isStunPacket_iff.mpr h)⟩

end Phobos
