import RoboControl.Signaling.Membership

/-!
# Broadcast

A message for a room is sent to exactly the other clients in use that name the room, each once
(`broadcast_isolated`). This holds in every state of every run, also after clients have joined the
room with the empty name and its list is no list any more: such a list is never walked by a
broadcast, and what is done to it reaches no other list.
-/

namespace RoboControl.Signaling
open Base Proto Connection

/-! ## Received bytes -/

section Received
variable {host : Endian} {env : Env} {srv : Server} {c : Ptr} {data : Nat → UInt8}
  {bytes : List UInt8}

/-- What is copied to the front of a buffer can be copied out again. -/
lemma copyOut_copyIn (buf : Nat → UInt8) (bytes : List UInt8) :
    copyOut (copyIn buf 0 bytes) 0 bytes.length = bytes := by
  refine List.ext_getElem (by simp [copyOut]) fun i hi hi' => ?_
  simp [copyOut, copyIn, hi']

/-- What was received is read from the received bytes. -/
lemma copyOut_received {n off k : Nat} (h : copyOut data 0 n = bytes) (hle : off + k ≤ n) :
    copyOut data off k = (bytes.drop off).take k := by
  subst h
  refine List.ext_getElem ?_ fun i hi hi' => ?_
  · simp only [copyOut, List.length_map, List.length_range, List.length_take, List.length_drop]
    omega
  · simp [copyOut]

/-- The header of a message, converted. -/
def hdrOf (host : Endian) (bytes : List UInt8) : SigHdr :=
  (SigHdr.ofMem host (bytes.take sigHdrSize)).convert host

/-- The header is read from what was received. -/
lemma receivedHdr_eq (hlen : sigHdrSize ≤ bytes.length) (h : copyOut data 0 bytes.length = bytes) :
    receivedHdr host data = hdrOf host bytes := by
  rw [receivedHdr, copyOut_received h (by omega), List.drop_zero, hdrOf]

/-- A received message with the right magic goes to the switch. -/
lemma handleMessage_eq (hlen : sigHdrSize ≤ bytes.length)
    (hmagic : (hdrOf host bytes).magic = sigMagic) (h : copyOut data 0 bytes.length = bytes) :
    handleMessage host env srv c data bytes.length =
      dispatch host env (srv.modify c ({ · with lastActivity := env.now })) c (hdrOf host bytes)
        data
        bytes.length := by
  rw [handleMessage, if_neg (by omega), receivedHdr_eq hlen h]
  exact if_neg (not_not_intro hmagic)

end Received

/-- A message for the other clients of the room. -/
def Relayed (host : Endian) (bytes : List UInt8) : Prop :=
  sigHdrSize ≤ bytes.length ∧ (hdrOf host bytes).magic = sigMagic ∧
    (hdrOf host bytes).msgType ∈
      [MsgType.offer.code, MsgType.answer.code, MsgType.iceCandidate.code]

instance (host : Endian) (bytes : List UInt8) : Decidable (Relayed host bytes) :=
  inferInstanceAs (Decidable (_ ∧ _ ∧ _))

/-! ## Recipients -/

section Recipients
variable {host : Endian} {srv : Server} {m : Main} {free : List Ptr} {home : Ptr → List UInt8}
  {c : Ptr}

/-- A message that is relayed. -/
lemma dispatch_relay {hdr : SigHdr}
    (htype : hdr.msgType ∈ [MsgType.offer.code, MsgType.answer.code, MsgType.iceCandidate.code])
    (hauth : (srv.clientPool c).authenticated = true) (hroom : (srv.clientPool c).roomId ≠ [])
    (env : Env) (data : Nat → UInt8) (len : Nat) :
    dispatch host env srv c hdr data len =
      roomBroadcast srv (srv.clientPool c).roomId (srv.clientPool c).fd (copyOut data 0 len) := by
  have hguard : ¬ ((srv.clientPool c).authenticated = false ∨ (srv.clientPool c).roomId = []) := by
    rw [hauth]
    exact not_or.mpr ⟨Bool.noConfusion, hroom⟩
  simp only [List.mem_cons, List.not_mem_nil, or_false] at htype
  rw [dispatch]
  obtain h | h | h := htype <;> rw [h]
  · rw [show MsgType.ofCode MsgType.offer.code = some .offer from by decide]
    exact if_neg hguard
  · rw [show MsgType.ofCode MsgType.answer.code = some .answer from by decide]
    exact if_neg hguard
  · rw [show MsgType.ofCode MsgType.iceCandidate.code = some .iceCandidate from by decide]
    exact if_neg hguard

/-- A message for the room is sent to the other clients with the same home. -/
lemma Settled.relayed (st : Settled m.srv free home) {fd : Int} (hc : m.srv.clientOf fd = some c)
    (hauth : (m.srv.clientPool c).authenticated = true) (hroom : (m.srv.clientPool c).roomId ≠ [])
    {bytes : List UInt8} (hmsg : Relayed host bytes) (env : Env) :
    ∃ (m' : Main) (peers : List Ptr), m.step host (.received env fd bytes) = some m' ∧
      m'.srv.out = m.srv.out ++ peers.map (fun d => .send (m.srv.clientPool d).fd bytes) ∧
      peers.Nodup ∧ ∀ d, d ∈ peers ↔ d ≠ c ∧ home d = home c := by
  obtain ⟨hlen, hmagic, htype⟩ := hmsg
  have hlive := st.pool.live_of_clientOf hc
  have st₁ : Settled (m.srv.modify c ({ · with lastActivity := env.now })) free home :=
    st.modify rfl rfl rfl rfl id
  have hhome : home c ≠ [] := by rwa [← st.agree c hlive.1 hlive.2]
  obtain ⟨peers, hnodup, hmem, hsend⟩ := st₁.broadcast hlive hhome bytes
  have hfd : ∀ d, ((m.srv.modify c ({ · with lastActivity := env.now })).clientPool d).fd =
      (m.srv.clientPool d).fd := client_frame Client.fd rfl
  simp only [hfd] at hsend
  have hcopy := copyOut_copyIn m.buf bytes
  rw [step_received hc, handleMessage_eq hlen hmagic hcopy, dispatch_relay htype, hcopy, hfd, hsend]
  · exact ⟨_, peers, rfl, rfl, hnodup, hmem⟩
  · rwa [clientPool_modify_self]
  · rwa [clientPool_modify_self]

end Recipients

/-- In every state of every run, a message of an authenticated client for its room is sent as it is
to exactly the other clients in use that name the room, each once. -/
theorem broadcast_isolated (host : Endian) (redis : Bool) (buf : Nat → UInt8) (events : List Event)
    (m : Main)
    (h : Along (Main.step host) (fun m e => e.Possible m ∧ e.Allocates) ⟨serverInit redis, buf⟩
      events)
    (hrun : mainRun host redis buf events = some m) (env : Env) (fd : Int) (c : Ptr)
    (bytes : List UInt8) (hc : m.srv.clientOf fd = some c)
    (hauth : (m.srv.clientPool c).authenticated = true) (hroom : (m.srv.clientPool c).roomId ≠ [])
    (hmsg : Relayed host bytes) :
    ∃ (m' : Main) (peers : List Ptr), m.step host (.received env fd bytes) = some m' ∧
      m'.srv.out = m.srv.out ++ peers.map (fun d => .send (m.srv.clientPool d).fd bytes) ∧
      (peers.map fun d => (m.srv.clientPool d).fd).Nodup ∧
      ∀ d, d ∈ peers ↔
        m.srv.Live d ∧ d ≠ c ∧ (m.srv.clientPool d).roomId = (m.srv.clientPool c).roomId := by
  have keep : ∀ {m m' : Main} {e : Event}, (∃ free home, Settled m.srv free home) →
      (e.Possible m ∧ e.Allocates) → m.step host e = some m' →
      ∃ free home, Settled m'.srv free home := by
    rintro m m' e ⟨free, home, st⟩ he hstep
    exact st.step he.1 he.2 hstep
  obtain ⟨free, home, st⟩ := h.invariant keep ⟨_, _, serverInit_settled redis⟩ hrun
  have hlive := st.pool.live_of_clientOf hc
  have hhome : home c ≠ [] := by rwa [← st.agree c hlive.1 hlive.2]
  obtain ⟨m', peers, hstep, hout, hnodup, hmem⟩ := st.relayed hc hauth hroom hmsg env
  have hpeer : ∀ d ∈ peers, d < maxConnections ∧ d ∉ free := fun d hd =>
    st.homes.live d (((hmem d).mp hd).2 ▸ hhome)
  refine ⟨m', peers, hstep, hout, ?_, fun d => ?_⟩
  · exact hnodup.map_on fun d hd d' hd' e => st.pool.eq_of_fd (hpeer d hd) (hpeer d' hd') e
  · rw [hmem, st.pool.live_iff, st.agree c hlive.1 hlive.2]
    constructor
    · rintro ⟨hne, hd⟩
      have hlive' := st.homes.live d (hd ▸ hhome)
      exact ⟨hlive', hne, (st.agree d hlive'.1 hlive'.2).trans hd⟩
    · rintro ⟨hlive', hne, hd⟩
      exact ⟨hne, (st.agree d hlive'.1 hlive'.2).symm.trans hd⟩

/-- Two clients in a room, one of which sends an offer. -/
theorem broadcast_isolated_sample :
    ∃ m, mainRun .little false (fun _ => 0)
      [.accept 0 5, .accept 0 6, .received .plain 5 (message .little .auth [84]),
        .received .plain 6 (message .little .auth [84]),
        .received .plain 5 (message .little .joinRoom [97]),
        .received .plain 6 (message .little .joinRoom [97])] = some m ∧
      m.srv.clientOf 5 = some 0 ∧
      ∃ (m' : Main) (peers : List Ptr),
        m.step .little (.received .plain 5 (message .little .offer [1, 2, 3])) = some m' ∧
        m'.srv.out = m.srv.out ++
          peers.map (fun d => .send (m.srv.clientPool d).fd (message .little .offer [1, 2, 3])) ∧
        (peers.map fun d => (m.srv.clientPool d).fd).Nodup ∧
        ∀ d, d ∈ peers ↔
          m.srv.Live d ∧ d ≠ 0 ∧ (m.srv.clientPool d).roomId = (m.srv.clientPool 0).roomId := by
  have e : (mainRun .little false (fun _ => 0)
      [.accept 0 5, .accept 0 6, .received .plain 5 (message .little .auth [84]),
        .received .plain 6 (message .little .auth [84]),
        .received .plain 5 (message .little .joinRoom [97]),
        .received .plain 6 (message .little .joinRoom [97])]).map
      (fun m => (m.srv.clientOf 5, (m.srv.clientPool 0).authenticated,
        (m.srv.clientPool 0).roomId)) =
      some (some 0, true, [97]) := by decide +kernel
  obtain ⟨m, hrun, hm⟩ := Option.map_eq_some_iff.mp e
  simp only [Prod.mk.injEq] at hm
  obtain ⟨hc, hauth, hroom⟩ := hm
  refine ⟨m, hrun, hc, broadcast_isolated .little false (fun _ => 0) _ m (by decide +kernel) hrun
    .plain 5 0 (message .little .offer [1, 2, 3]) hc hauth ?_ (by decide +kernel)⟩
  rw [hroom]
  exact List.cons_ne_nil _ _

end RoboControl.Signaling
