import PhobosClient.Relay.Binding

/-!
# PhobosClient — the relay over all interleavings

Two invariants of `relayStep`, each about one loop.

* **`relay_client_inv`** — the lock holds `boundAfter` of the datagrams the client loop has
  processed, and what it has sent upstream are exactly the `forwarded` ones.
* **`relay_server_inv`** — a payload on its way to an address was decoded from the datagram
  received last, and the address was read from the lock since (`ReadSince`).

The client loop alone writes the binding, so neither invariant depends on how the loops are
scheduled; together they give `relay_binding`. What goes upstream for a datagram is the packet made
of its own bytes (`Encoded`).
-/

namespace Phobos

open Steps

variable {Addr : Type*}

/-! ## What a run has processed -/

/-- The datagram an action takes from the loopback socket. -/
def RelayAction.input : RelayAction Addr → Option (Datagram Addr)
  | .clientRecv d => some d
  | _ => none

/-- The datagrams received from the loopback socket, in order. -/
def clientInputs (acts : List (RelayAction Addr)) : List (Datagram Addr) :=
  acts.filterMap RelayAction.input

/-- The datagram that still waits for the critical section. -/
def ClientPc.waiting : ClientPc Addr → List (Datagram Addr)
  | .binding d => [d]
  | _ => []

/-- The datagram let through but not sent yet. -/
def ClientPc.inFlight : ClientPc Addr → List (Datagram Addr)
  | .forwarding d => [d]
  | _ => []

/-- The datagram a packet sent upstream was made from. -/
def Upstream.origin? : Upstream Addr → Option (Datagram Addr)
  | .packet origin _ => some origin
  | .bindingRequest => none

variable [DecidableEq Addr]

/-- The datagrams to forward: those that are valid and whose sender is the bound client once
they have been processed. -/
def forwarded (ds : List (Datagram Addr)) : List (Datagram Addr) :=
  (List.range ds.length).filterMap fun i =>
    match ds[i]? with
    | some d =>
      if isValid d = true ∧ boundAfter (ds.take (i + 1)) = some d.src then some d else none
    | none => none

/-- The new datagram changes nothing for those before it. -/
theorem forwarded_concat (ds : List (Datagram Addr)) (d : Datagram Addr) :
    forwarded (ds ++ [d]) = forwarded ds ++
      if isValid d = true ∧ boundAfter (ds ++ [d]) = some d.src then [d] else [] := by
  unfold forwarded
  rw [List.length_append, List.length_singleton, List.range_succ, List.filterMap_append]
  congr 1
  · -- below the new index neither the datagram nor the sequence before it has changed
    apply List.filterMap_congr
    intro i hi
    rw [List.mem_range] at hi
    rw [List.getElem?_append_left hi, List.take_append_of_le_length (by omega)]
  · have htake : (ds ++ [d]).take (ds.length + 1) = ds ++ [d] :=
      List.take_of_length_le (by simp)
    simp only [List.filterMap_cons, List.filterMap_nil, List.getElem?_concat_length, htake]
    by_cases hfwd : isValid d = true ∧ boundAfter (ds ++ [d]) = some d.src
    · rw [if_pos hfwd, if_pos hfwd]
    · rw [if_neg hfwd, if_neg hfwd]

/-! ## The client loop -/

/-- What the client loop has done with the datagrams `ds`. -/
def ClientInv (acts : List (RelayAction Addr)) (w : RelayState Addr) : Prop :=
  ∃ ds, clientInputs acts = ds ++ w.client.waiting
    ∧ (∀ d ∈ w.client.waiting, isValid d = true)
    ∧ w.clientAddr = boundAfter ds
    ∧ w.upstream.filterMap Upstream.origin? ++ w.client.inFlight = forwarded ds

omit [DecidableEq Addr] in
/-- A receive adds its datagram, any other action nothing. -/
@[simp] theorem clientInputs_concat (acts : List (RelayAction Addr)) (a : RelayAction Addr) :
    clientInputs (acts ++ [a]) = clientInputs acts ++ a.input.toList := by
  unfold clientInputs
  rw [List.filterMap_append]
  cases h : a.input <;> simp [h]

/-- A step that takes no datagram and leaves the client loop's part of the state alone. -/
theorem ClientInv.frame {acts : List (RelayAction Addr)} {a : RelayAction Addr}
    {w w' : RelayState Addr} (h : ClientInv acts w) (hin : a.input = none)
    (hwait : w'.client.waiting = w.client.waiting)
    (hfly : w'.client.inFlight = w.client.inFlight)
    (haddr : w'.clientAddr = w.clientAddr) (hup : w'.upstream = w.upstream) :
    ClientInv (acts ++ [a]) w' := by
  obtain ⟨ds, hds, hvalid, hbound, hfwd⟩ := h
  refine ⟨ds, ?_, ?_, ?_, ?_⟩
  · rw [clientInputs_concat, hin, hwait]
    simpa using hds
  · rwa [hwait]
  · rw [haddr, hbound]
  · rw [hup, hfly, hfwd]

/-- A received datagram waits for the critical section, or is dropped at once. -/
theorem ClientInv.recv {o : Obfuscator} {isStun : Bool} {acts : List (RelayAction Addr)}
    {w w' : RelayState Addr} {d : Datagram Addr} (h : ClientInv acts w)
    (hstep : relayStep o isStun w (.clientRecv d) = some w') :
    ClientInv (acts ++ [.clientRecv d]) w' := by
  simp only [relayStep] at hstep
  split at hstep <;> cases hstep
  rename_i hpc
  obtain ⟨ds, hds, -, hbound, hfwd⟩ := h
  rw [hpc] at hds hfwd
  simp only [ClientPc.waiting, ClientPc.inFlight, List.append_nil] at hds hfwd
  cases hv : isValid d with
  | true =>
    -- the datagram now waits for the critical section
    refine ⟨ds, ?_, ?_, hbound, ?_⟩
    · simp [RelayAction.input, ClientPc.waiting, hds]
    · simp [ClientPc.waiting, hv]
    · simpa [ClientPc.inFlight] using hfwd
  | false =>
    -- dropped at once: it neither binds nor is forwarded
    refine ⟨ds ++ [d], ?_, ?_, ?_, ?_⟩
    · simp [RelayAction.input, ClientPc.waiting, hds]
    · simp [ClientPc.waiting]
    · simp [bindStep, hv, hbound]
    · rw [forwarded_concat]
      simpa [ClientPc.inFlight, hv] using hfwd

/-- The critical section binds the datagram that waits for it, and lets it pass if its source
is the one that is bound then. -/
theorem ClientInv.bind {o : Obfuscator} {isStun : Bool} {acts : List (RelayAction Addr)}
    {w w' : RelayState Addr} (h : ClientInv acts w)
    (hstep : relayStep o isStun w .clientBind = some w') :
    ClientInv (acts ++ [.clientBind]) w' := by
  simp only [relayStep] at hstep
  split at hstep <;> cases hstep
  rename_i d hpc
  obtain ⟨ds, hds, hvalid, hbound, hfwd⟩ := h
  rw [hpc] at hds hvalid hfwd
  have hv : isValid d = true := hvalid d (by simp [ClientPc.waiting])
  simp only [ClientPc.waiting, ClientPc.inFlight, List.append_nil] at hds hfwd
  -- the lock is held, so the binding is the one after this datagram
  have hbind : boundAfter (ds ++ [d]) = (rebind w.clientAddr d).1 := by
    rw [boundAfter_concat, bindStep, if_pos hv, hbound]
  have hacc := rebind_accepts_iff w.clientAddr d
  refine ⟨ds ++ [d], ?_, ?_, hbind.symm, ?_⟩
  · cases (rebind w.clientAddr d).2 <;> simpa [RelayAction.input, ClientPc.waiting] using hds
  · cases (rebind w.clientAddr d).2 <;> simp [ClientPc.waiting]
  · rw [forwarded_concat, hbind, hfwd]
    cases hb : (rebind w.clientAddr d).2 with
    | true => simp [ClientPc.inFlight, hv, hacc.mp hb]
    | false =>
      have hne : (rebind w.clientAddr d).1 ≠ some d.src := by
        rw [← hacc.ne, hb] at *
        simp
      simp [ClientPc.inFlight, hne]

/-- **Every step keeps it**; those of the server loop do not touch the binding. -/
theorem clientInv_step (o : Obfuscator) (isStun : Bool) {acts : List (RelayAction Addr)}
    {w w' : RelayState Addr} {a : RelayAction Addr} (h : ClientInv acts w)
    (hstep : relayStep o isStun w a = some w') : ClientInv (acts ++ [a]) w' := by
  cases a with
  | clientCheck =>
    simp only [relayStep] at hstep
    split at hstep <;> cases hstep
    rename_i hpc
    refine h.frame rfl ?_ ?_ rfl rfl <;> rw [hpc] <;> cases w.running <;> rfl
  | clientRecv d => exact h.recv hstep
  | clientRecvError =>
    simp only [relayStep] at hstep
    split at hstep <;> cases hstep
    rename_i hpc
    refine h.frame rfl ?_ ?_ rfl rfl <;> rw [hpc] <;> rfl
  | clientBind => exact h.bind hstep
  | clientForward rng txid =>
    simp only [relayStep] at hstep
    split at hstep <;> cases hstep
    rename_i d hpc
    obtain ⟨ds, hds, -, hbound, hfwd⟩ := h
    rw [hpc] at hds hfwd
    simp only [ClientPc.waiting, ClientPc.inFlight, List.append_nil] at hds hfwd
    refine ⟨ds, ?_, ?_, hbound, ?_⟩
    · simpa [RelayAction.input, ClientPc.waiting] using hds
    · simp [ClientPc.waiting]
    · rw [← hfwd]
      -- the datagram leaves the loop as a packet; a request before it has no origin
      cases hreq : (isStun && isHandshake d) <;>
        simp [ClientPc.inFlight, Upstream.origin?, List.filterMap_cons]
  | serverCheck | serverRecvError | serverSend =>
    simp only [relayStep] at hstep
    split at hstep <;> cases hstep
    exact h.frame rfl rfl rfl rfl rfl
  | serverRecv raw =>
    simp only [relayStep] at hstep
    split at hstep
    · split at hstep <;> cases hstep <;> exact h.frame rfl rfl rfl rfl rfl
    · cases hstep
  | serverLook =>
    simp only [relayStep] at hstep
    split at hstep
    · split at hstep <;> cases hstep <;> exact h.frame rfl rfl rfl rfl rfl
    · cases hstep
  | stop =>
    cases hstep
    exact h.frame rfl rfl rfl rfl rfl

/-! ## The server loop -/

/-- No datagram from the server is received in these actions. -/
def QuietServer (acts : List (RelayAction Addr)) : Prop :=
  ∀ a ∈ acts, ∀ raw, a ≠ .serverRecv raw

/-- The payload was decoded from the datagram that the server loop received last. -/
def Received (o : Obfuscator) (isStun : Bool) (acts : List (RelayAction Addr))
    (payload : Bytes) : Prop :=
  ∃ pre raw mid, acts = pre ++ .serverRecv raw :: mid ∧ QuietServer mid
    ∧ serverReceive o isStun raw = some payload

/-- The payload was decoded from the datagram that the server loop received last, and at
some moment since then `client` was the bound client. -/
def BoundSince (o : Obfuscator) (isStun : Bool) (acts : List (RelayAction Addr))
    (payload : Bytes) (client : Addr) : Prop :=
  ∃ pre raw mid₁ mid₂, acts = pre ++ .serverRecv raw :: (mid₁ ++ mid₂)
    ∧ QuietServer (mid₁ ++ mid₂) ∧ serverReceive o isStun raw = some payload
    ∧ ∃ v, Run (relayStep o isStun) anyStep relayInit (pre ++ .serverRecv raw :: mid₁) v
      ∧ v.clientAddr = some client

/-- What the server loop holds in its hands, and what it has delivered. -/
def ServerInv (o : Obfuscator) (isStun : Bool) (acts : List (RelayAction Addr))
    (w : RelayState Addr) : Prop :=
  (∀ payload, w.server = .looking payload → Received o isStun acts payload)
    ∧ (∀ payload client, w.server = .sending payload client →
        BoundSince o isStun acts payload client)
    ∧ ∀ payload client, (payload, client) ∈ w.delivered →
        ∃ before after, acts = before ++ .serverSend :: after
          ∧ BoundSince o isStun before payload client

variable {o : Obfuscator} {isStun : Bool} {acts : List (RelayAction Addr)}
  {a : RelayAction Addr} {w w' : RelayState Addr} {payload : Bytes} {client : Addr}

omit [DecidableEq Addr] in
/-- It stays quiet until the next receive. -/
theorem QuietServer.concat (h : QuietServer acts) (ha : ∀ raw, a ≠ .serverRecv raw) :
    QuietServer (acts ++ [a]) := by
  intro b hb raw
  rcases List.mem_append.mp hb with hb | hb
  · exact h b hb raw
  · rw [List.mem_singleton.mp hb]
    exact ha raw

omit [DecidableEq Addr] in
/-- Until then the payload is that of the last datagram. -/
theorem Received.concat (h : Received o isStun acts payload) (ha : ∀ raw, a ≠ .serverRecv raw) :
    Received o isStun (acts ++ [a]) payload := by
  obtain ⟨pre, raw, mid, rfl, hquiet, hrecv⟩ := h
  exact ⟨pre, raw, mid ++ [a], by simp, hquiet.concat ha, hrecv⟩

/-- And the moment at which the client was bound lies within. -/
theorem BoundSince.concat (h : BoundSince o isStun acts payload client)
    (ha : ∀ raw, a ≠ .serverRecv raw) : BoundSince o isStun (acts ++ [a]) payload client := by
  obtain ⟨pre, raw, mid₁, mid₂, rfl, hquiet, hrecv, hread⟩ := h
  refine ⟨pre, raw, mid₁, mid₂ ++ [a], by simp, ?_, hrecv, hread⟩
  rw [← List.append_assoc]
  exact hquiet.concat ha

/-- A delivery stays recorded when the run goes on. -/
theorem ServerInv.delivered_concat (h : ServerInv o isStun acts w)
    (hmem : (payload, client) ∈ w.delivered) :
    ∃ before after, acts ++ [a] = before ++ .serverSend :: after
      ∧ BoundSince o isStun before payload client := by
  obtain ⟨before, after, rfl, hbound⟩ := h.2.2 payload client hmem
  exact ⟨before, after ++ [a], by simp, hbound⟩

/-- A step that is no receive of the server loop and leaves its part of the state alone. -/
theorem ServerInv.frame (h : ServerInv o isStun acts w) (ha : ∀ raw, a ≠ .serverRecv raw)
    (hpc : w'.server = w.server) (hdel : w'.delivered = w.delivered) :
    ServerInv o isStun (acts ++ [a]) w' := by
  refine ⟨?_, ?_, ?_⟩
  · intro payload hlook
    exact (h.1 payload (hpc ▸ hlook)).concat ha
  · intro payload client hsend
    exact (h.2.1 payload client (hpc ▸ hsend)).concat ha
  · intro payload client hmem
    rw [hdel] at hmem
    exact h.delivered_concat hmem

/-- A step after which the server loop holds nothing and has delivered nothing new. -/
theorem ServerInv.drop (h : ServerInv o isStun acts w)
    (hlook : ∀ payload, w'.server ≠ .looking payload)
    (hsend : ∀ payload client, w'.server ≠ .sending payload client)
    (hdel : w'.delivered = w.delivered) : ServerInv o isStun (acts ++ [a]) w' := by
  refine ⟨fun payload hpc => absurd hpc (hlook payload),
    fun payload client hpc => absurd hpc (hsend payload client), ?_⟩
  intro payload client hmem
  rw [hdel] at hmem
  exact h.delivered_concat hmem

/-- **Every step keeps it**; the client that is read in `serverLook` is the one bound there. -/
theorem serverInv_step (hrun : Run (relayStep o isStun) anyStep relayInit acts w)
    (h : ServerInv o isStun acts w) (hstep : relayStep o isStun w a = some w') :
    ServerInv o isStun (acts ++ [a]) w' := by
  cases a with
  | clientCheck | clientRecv | clientRecvError | clientBind | clientForward =>
    simp only [relayStep] at hstep
    split at hstep <;> cases hstep
    exact h.frame (fun _ => nofun) rfl rfl
  | stop =>
    cases hstep
    exact h.frame (fun _ => nofun) rfl rfl
  | serverCheck =>
    simp only [relayStep] at hstep
    split at hstep <;> cases hstep
    refine h.drop ?_ ?_ rfl <;> cases w.running <;> exact fun _ => nofun
  | serverRecvError =>
    simp only [relayStep] at hstep
    split at hstep <;> cases hstep
    exact h.drop (fun _ => nofun) (fun _ _ => nofun) rfl
  | serverRecv raw =>
    simp only [relayStep] at hstep
    split at hstep
    · split at hstep <;> cases hstep
      · rename_i payload hrecv
        refine ⟨?_, fun _ _ => nofun, fun _ _ hmem => h.delivered_concat hmem⟩
        intro payload' hpc
        cases hpc
        -- this is the receive that the payload comes from
        exact ⟨acts, raw, [], rfl, nofun, hrecv⟩
      · exact h.drop (fun _ => nofun) (fun _ _ => nofun) rfl
    · cases hstep
  | serverLook =>
    simp only [relayStep] at hstep
    split at hstep
    · rename_i payload hpc
      split at hstep <;> cases hstep
      · -- the address is read here, so it is the bound client at this very moment
        rename_i client haddr
        obtain ⟨pre, raw, mid, rfl, hquiet, hrecv⟩ := h.1 payload hpc
        refine ⟨fun _ => nofun, ?_, fun _ _ hmem => h.delivered_concat hmem⟩
        intro payload' client' hsend
        cases hsend
        refine ⟨pre, raw, mid, [.serverLook], by simp, ?_, hrecv, w, hrun, haddr⟩
        exact hquiet.concat fun _ => nofun
      · exact h.drop (fun _ => nofun) (fun _ _ => nofun) rfl
    · cases hstep
  | serverSend =>
    simp only [relayStep] at hstep
    split at hstep <;> cases hstep
    rename_i payload client hpc
    refine ⟨fun _ => nofun, fun _ _ => nofun, ?_⟩
    intro payload' client' hmem
    rcases List.mem_append.mp hmem with hmem | hmem
    · exact h.delivered_concat hmem
    · cases List.mem_singleton.mp hmem
      -- the new delivery is the one that was in the loop's hands
      exact ⟨acts, [], rfl, h.2.1 payload client hpc⟩

/-! ## The packets -/

/-- A packet that was sent upstream was made of the bytes of its datagram. -/
def Encoded (o : Obfuscator) (isStun : Bool) (w : RelayState Addr) : Prop :=
  ∀ d wire, .packet d wire ∈ w.upstream →
    ∃ (rng : Rng) (txid : Txid), wire = sendPath o isStun rng txid d.bytes

/-- A packet is made of the bytes of its datagram when it is sent. -/
theorem Encoded.step (h : Encoded o isStun w) (hstep : relayStep o isStun w a = some w') :
    Encoded o isStun w' := by
  cases a with
  | clientForward rng txid =>
    simp only [relayStep] at hstep
    split at hstep <;> cases hstep
    intro d wire hmem
    rcases List.mem_append.mp hmem with hbefore | hpacket
    · rcases List.mem_append.mp hbefore with hold | hrequest
      · exact h d wire hold
      · -- a Binding Request is not a packet
        split at hrequest
        · cases List.mem_singleton.mp hrequest
        · cases hrequest
    · cases List.mem_singleton.mp hpacket
      exact ⟨rng, txid, rfl⟩
  | serverRecv | serverLook =>
    simp only [relayStep] at hstep
    split at hstep
    · split at hstep <;> cases hstep <;> exact h
    · cases hstep
  | stop =>
    cases hstep
    exact h
  | _ =>
    simp only [relayStep] at hstep
    split at hstep <;> cases hstep
    exact h

/-! ## Whole runs -/

/-- The client loop of every run. -/
theorem relay_client_inv (hrun : Run (relayStep o isStun) anyStep relayInit acts w) :
    ClientInv acts w := by
  refine hrun.history (P := ClientInv) ?_ fun _ _ _ _ _ h _ hstep => clientInv_step o isStun h hstep
  exact ⟨[], rfl, nofun, rfl, rfl⟩

/-- The server loop of every run. -/
theorem relay_server_inv (hrun : Run (relayStep o isStun) anyStep relayInit acts w) :
    ServerInv o isStun acts w := by
  refine hrun.history (P := ServerInv o isStun) ?_ fun _ _ _ _ hrun h _ hstep =>
    serverInv_step hrun h hstep
  exact ⟨fun _ => nofun, fun _ _ => nofun, fun _ _ hmem => nomatch hmem⟩

/-- The packets of every run. -/
theorem encoded_of_run (hrun : Run (relayStep o isStun) anyStep relayInit acts w) :
    Encoded o isStun w :=
  hrun.invariant (P := Encoded o isStun) (fun _ _ hmem => absurd hmem List.not_mem_nil)
    fun _ _ _ h _ hstep => h.step hstep

/-- **The relay cannot be hijacked.** In every interleaving of the two loops the binding is
that of the datagrams processed so far, `ds`: nobody while none was valid, else the sender of
the last claim. It passes from one client to another only on a handshake initiation of the
new one. Exactly the `forwarded` datagrams go upstream, each as the packet made of its bytes, and
every packet from the server is delivered to an address that was the bound client between its
receipt and its delivery. -/
theorem relay_binding (hrun : Run (relayStep o isStun) anyStep relayInit acts w) :
    (∃ ds, clientInputs acts = ds ++ w.client.waiting
      ∧ w.clientAddr = boundAfter ds
      ∧ (w.clientAddr = none ↔ ∀ d ∈ ds, isValid d = false)
      ∧ (∀ c, w.clientAddr = some c ↔ ∃ i d, ds[i]? = some d ∧ d.src = c ∧ Claims ds i
          ∧ ∀ j, i < j → ¬ Claims ds j)
      ∧ (∀ i d b c, ds[i]? = some d → boundAfter (ds.take i) = some b →
          boundAfter (ds.take (i + 1)) = some c → b ≠ c → isHandshake d = true ∧ d.src = c)
      ∧ w.upstream.filterMap Upstream.origin? ++ w.client.inFlight = forwarded ds)
    ∧ (∀ d wire, .packet d wire ∈ w.upstream →
        ∃ (rng : Rng) (txid : Txid), wire = sendPath o isStun rng txid d.bytes)
    ∧ ∀ payload c, (payload, c) ∈ w.delivered →
        ∃ before after, acts = before ++ .serverSend :: after
          ∧ BoundSince o isStun before payload c := by
  refine ⟨?_, encoded_of_run hrun, (relay_server_inv hrun).2.2⟩
  obtain ⟨ds, hds, -, hbound, hfwd⟩ := relay_client_inv hrun
  refine ⟨ds, hds, hbound, ?_, ?_, ?_, hfwd⟩
  · rw [hbound]
    exact boundAfter_eq_none_iff ds
  · intro c
    rw [hbound]
    exact boundAfter_eq_some_iff ds c
  · intro i d b c hd hb hc hne
    have htake : ds.take (i + 1) = ds.take i ++ [d] := by
      rw [List.take_add_one, hd]
      rfl
    rw [htake, boundAfter_concat, hb] at hc
    exact handshake_of_bindStep_ne hc hne

/-- Client 1 is bound by a data packet, client 2 takes over with a handshake, a data packet
of client 1 is refused, and a packet from the server reaches client 2. -/
theorem relay_binding_takeover :
    let o : Obfuscator := ⟨[], 0, 0⟩
    let rng : Rng := ⟨9, by decide, fun _ => 0, fun _ h => h, fun n => List.replicate n 1,
      fun _ => List.length_replicate⟩
    let txid : Txid := ⟨List.replicate 12 5, rfl⟩
    let acts : List (RelayAction Nat) :=
      [.clientCheck, .clientRecv ⟨1, [4, 0, 0, 0]⟩, .clientBind, .clientForward rng txid,
       .serverCheck, .serverRecv [4, 0, 0, 0],
       .clientCheck, .clientRecv ⟨2, [1, 0, 0, 0]⟩, .clientBind, .clientForward rng txid,
       .clientCheck, .clientRecv ⟨1, [4, 0, 0, 0]⟩, .clientBind,
       .serverLook, .serverSend]
    ∃ w : RelayState Nat, w.clientAddr = some 2
      ∧ (∃ ds, clientInputs acts = ds ++ w.client.waiting ∧ w.clientAddr = boundAfter ds)
      ∧ ∃ before after, acts = before ++ .serverSend :: after
          ∧ BoundSince o false before [4, 0, 0, 0] 2 := by
  intro o rng txid acts
  have hexec : (exec (relayStep o false) relayInit acts).any (fun w =>
      decide (w.clientAddr = some 2 ∧ ([4, 0, 0, 0], 2) ∈ w.delivered)) = true := by
    decide +kernel
  obtain ⟨w, hrun, hw⟩ := Run.of_exec_any hexec
  obtain ⟨haddr, hdel⟩ := of_decide_eq_true hw
  obtain ⟨⟨ds, hds, hbound, -⟩, -, hdelivered⟩ := relay_binding hrun
  exact ⟨w, haddr, ⟨ds, hds, hbound⟩, hdelivered _ _ hdel⟩

end Phobos
