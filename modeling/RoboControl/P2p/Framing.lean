import RoboControl.Base.Run
import RoboControl.Connection.Fifo
import RoboControl.Handshake.Honest

/-!
# Queued packets

Model of `rc_p2p_fallback_relay` of `src/core/rc_p2p.c` (`fallbackRelay`), and what the four
functions that queue a packet in `send_buf` do to it. They count up `local_seq` and write before
they check how much was written. So a call keeps the buffer a sequence of whole packets, or leaves
everything as it was, exactly if `user_data` is not taken for what it is not, and the call does not
come to its packet or its packet fits (`packets_framed_iff`).
-/

namespace RoboControl.P2p
open Base Proto Crypto Connection Handshake

/-- State of a connection attempt (C `rc_p2p_state_t`). -/
structure P2pState where
  useRelay : Bool

/-- Queue a request for a relay (C `rc_p2p_fallback_relay`). -/
def fallbackRelay (host : Endian) (conn : Conn) (p2p : P2pState) : Int × Conn × P2pState :=
  let p2p := { p2p with useRelay := true }
  let hdr := { hdrInit .relayReq conn.localSeq conn.connId with
    payloadLen := 0, flags := flagReliable }
  let conn := { conn with localSeq := conn.localSeq + 1 }
  let (written, sendBuf) := ringbufWrite conn.sendBuf (packet host hdr [])
  let conn := { conn with sendBuf }
  if written ≠ headerSize then (-1, conn, p2p) else (0, conn, p2p)

/-! ## Calls -/

/-- A call that queues a packet. -/
inductive Call where
  | clientHello (draws : ClientDraws)
  | serverHello (draws : ServerDraws) (msg : ClientHello)
  | finish (draws : FinishDraws) (msg : ServerHello)
  | relayReq (p2p : P2pState)

/-- Run a call on a connection. -/
def Call.run (host : Endian) (ossl : Openssl) (conn : Conn) : Call → Option (Int × Conn)
  | .clientHello draws =>
    let r := sendClientHello host ossl draws conn
    some (r.1, r.2.1)
  | .serverHello draws msg =>
    let r := processClientHello host ossl draws conn msg
    some (r.1, r.2.1)
  | .finish draws msg =>
    (processServerHello host ossl draws conn msg).map fun r => (r.1, r.2.1)
  | .relayReq p2p =>
    let r := fallbackRelay host conn p2p
    some (r.1, r.2.1)

/-- Size of the packet of a call. -/
def Call.size : Call → Nat
  | .clientHello _ => headerSize + clientHelloSize
  | .serverHello _ _ => headerSize + serverHelloSize
  | .finish _ _ => headerSize + finishSize
  | .relayReq _ => headerSize

/-- A ring buffer holds bytes; one that was destroyed holds none. -/
def Holds (rb : RingBuf) (items : List UInt8) : Prop :=
  (rb = .empty ∧ items = []) ∨
    ∃ (k : ℕ) (hk : k ≤ 31) (q : Fifo UInt8 (2 ^ k)), Refines hk rb q ∧ q.items = items

/-- A complete packet: a header of the protocol and as many bytes behind it as it says. -/
def IsPacket (host : Endian) (bytes : List UInt8) : Prop :=
  ∃ hdr payload, bytes = packet host hdr payload ∧ hdr.magic = rcMagic ∧
    hdr.version = protoVersion ∧ hdr.payloadLen.toNat = payload.length

/-- A ring buffer holds a sequence of complete packets. -/
def WholePackets (host : Endian) (rb : RingBuf) : Prop :=
  ∃ pkts : List (List UInt8), (∀ bytes ∈ pkts, IsPacket host bytes) ∧ Holds rb pkts.flatten

/-- A call returns 0 and appends one complete packet, or returns -1 and leaves the contents of the
buffer and `local_seq` as they were. -/
def Call.Framed (host : Endian) (ossl : Openssl) (conn : Conn) (items : List UInt8) (call : Call) :
    Prop :=
  ∃ ret conn', call.run host ossl conn = some (ret, conn') ∧
    ((ret = 0 ∧ ∃ bytes, IsPacket host bytes ∧ Holds conn'.sendBuf (items ++ bytes)) ∨
      (ret = -1 ∧ Holds conn'.sendBuf items ∧ conn'.localSeq = conn.localSeq))

/-- Run a call and go on with the connection, whatever it returned. -/
def Call.apply (host : Endian) (ossl : Openssl) (conn : Conn) (call : Call) : Option Conn :=
  (call.run host ossl conn).map Prod.snd

/-- The client's second step comes to its packet. -/
structure FinishReady (host : Endian) (ossl : Openssl) (draws : FinishDraws) (conn : Conn)
    (ctx : HsClientCtx) (msg : ServerHello) : Prop where
  alloc : draws.transcriptAlloc = true
  keys : ∃ secret okm, ossl.x25519 ctx.clientPrivkey msg.serverPubkey = some secret ∧
    Derives ossl secret ctx.clientRandom msg.serverRandom okm ∧
    ossl.hmac (okm.slice 0 32 low_half_le).toList
      (clientHelloPacket host conn ctx ++ serverHelloPacket host conn msg) ≠ none

/-- A call does not take what is in `user_data` for a context that it is not. -/
def Call.Defined (userData : UserData) : Call → Prop
  | .finish _ _ => userData = .null ∨ ∃ ctx, userData = .clientCtx ctx
  | _ => True

/-- A call comes to its packet: what it draws is there, and what it computes succeeds. -/
def Call.Ready (host : Endian) (ossl : Openssl) (conn : Conn) : Call → Prop
  | .clientHello draws => draws.Ready
  | .serverHello draws msg => draws.Ready ossl msg
  | .finish draws msg =>
    ∃ ctx, conn.userData = .clientCtx ctx ∧ FinishReady host ossl draws conn ctx msg
  | .relayReq _ => True

/-- The pointer in `user_data` is valid for a call, and if it comes to its packet, there
is room for it. -/
def Call.Fits (host : Endian) (ossl : Openssl) (conn : Conn) (call : Call) : Prop :=
  call.Defined conn.userData ∧
    (call.Ready host ossl conn → call.size ≤ (ringbufFreeSpace conn.sendBuf).toNat)

/-! ## Buffers -/

section Buffers
variable {rb : RingBuf} {items data : List UInt8}

lemma ringbufWrite_empty (data : List UInt8) : ringbufWrite .empty data = (0, .empty) := by
  have hlen : (if data.length > (0 : UInt32).toNat then (0 : UInt32).toNat else data.length) =
    0 := by
    rw [UInt32.toNat_zero]
    split <;> omega
  rw [ringbufWrite]
  simp only [RingBuf.empty, UInt32.sub_self, UInt32.zero_and, hlen, List.take_zero, copyIn_nil]
  rfl

/-- A write into the buffer. -/
lemma Holds.write (h : Holds rb items) (data : List UInt8) :
    (ringbufWrite rb data).1 = min data.length (ringbufFreeSpace rb).toNat ∧
      Holds (ringbufWrite rb data).2 (items ++ data.take (ringbufFreeSpace rb).toNat) := by
  obtain ⟨rfl, rfl⟩ | ⟨k, hk, q, ref, rfl⟩ := h
  · rw [ringbufWrite_empty]
    exact ⟨(Nat.min_zero _).symm, .inl ⟨rfl, rfl⟩⟩
  · obtain ⟨hret, ref'⟩ := ref.write data
    rw [ringbufFreeSpace, ref.freeSpace]
    exact ⟨hret, .inr ⟨k, hk, _, ref', rfl⟩⟩

end Buffers

/-! ## What a call does -/

/-- A call on a connection has undefined behaviour, or fails before it comes to its packet, or
counts up `local_seq` and writes its packet. -/
def Queues (host : Endian) (conn : Conn) (size : Nat) (defined ready : Prop)
    (r : Option (Int × Conn)) : Prop :=
  (¬ defined ∧ r = none) ∨
    (defined ∧ ¬ ready ∧
      ∃ conn', r = some (-1, conn') ∧ conn'.sendBuf = conn.sendBuf ∧
        conn'.localSeq = conn.localSeq) ∨
    (defined ∧ ready ∧ ∃ bytes conn', IsPacket host bytes ∧ bytes.length = size ∧
      r = some (if (ringbufWrite conn.sendBuf bytes).1 = size then 0 else -1, conn') ∧
      conn'.sendBuf = (ringbufWrite conn.sendBuf bytes).2 ∧ conn'.localSeq = conn.localSeq + 1)

section Calls
variable (host : Endian) (ossl : Openssl) (conn : Conn)

/-- A call that fails early. -/
lemma Queues.failed {host : Endian} {conn conn' : Conn} {size : ℕ} {defined ready : Prop}
    (hdefined : defined) (hready : ¬ ready) (hbuf : conn'.sendBuf = conn.sendBuf)
    (hseq : conn'.localSeq = conn.localSeq) :
    Queues host conn size defined ready (some (-1, conn')) :=
  .inr (.inl ⟨hdefined, hready, conn', rfl, hbuf, hseq⟩)

/-- A call that writes a packet with the header of the protocol in front of its payload. -/
lemma Queues.packet {host : Endian} {conn : Conn} {size : ℕ} {defined ready : Prop}
    {r : Option (Int × Conn)} (hdefined : defined) (hready : ready) (hdr : PktHdr)
    (payload : List UInt8) (hmagic : hdr.magic = rcMagic) (hversion : hdr.version = protoVersion)
    (hlen : hdr.payloadLen.toNat = payload.length) (hsize : headerSize + payload.length = size)
    (h : ∀ written rb', ringbufWrite conn.sendBuf (Proto.packet host hdr payload) = (written, rb') →
      ∃ conn', r = some (if written = size then 0 else -1, conn') ∧ conn'.sendBuf = rb' ∧
        conn'.localSeq = conn.localSeq + 1) : Queues host conn size defined ready r := by
  obtain ⟨conn', h⟩ := h _ _ Prod.mk.eta.symm
  exact .inr (.inr ⟨hdefined, hready, _, conn', ⟨hdr, payload, rfl, hmagic, hversion, hlen⟩,
    (length_packet _ _ _).trans hsize, h⟩)

/-- `rc_handshake_send_client_hello`. -/
lemma sendClientHello_queues (draws : ClientDraws) :
    Queues host conn (headerSize + clientHelloSize) True draws.Ready
      ((Call.clientHello draws).run host ossl conn) := by
  simp only [Call.run, sendClientHello]
  split
  · next halloc =>
    exact .failed trivial (fun h => absurd (h.ctxAlloc.symm.trans halloc) (by decide)) rfl rfl
  next halloc =>
  split
  · next privkey random hpriv hrandom =>
    refine .packet trivial
      ⟨Bool.eq_true_of_not_eq_false halloc, by simp [hpriv], by simp [hrandom]⟩
      { hdrInit .hello conn.localSeq conn.connId with
        payloadLen := clientHelloSize.toUInt16, flags := flagReliable }
      ((buildClientHello conn.connId random (ossl.x25519Public privkey)).bytes host) rfl rfl
      (by rw [ClientHello.length_bytes]; rfl) (by rw [ClientHello.length_bytes]) ?_
    intro written rb' hw
    rw [hw]
    by_cases hsize : written = headerSize + clientHelloSize
    · rw [if_pos hsize, if_neg (not_not.mpr hsize)]
      exact ⟨_, rfl, (connSetState_bufs _ _).1, connSetState_localSeq _ _⟩
    · rw [if_neg hsize, if_pos hsize]
      exact ⟨_, rfl, rfl, rfl⟩
  · next hnone =>
    refine .failed trivial (fun h => ?_) rfl rfl
    obtain ⟨privkey, hpriv⟩ := Option.ne_none_iff_exists'.mp h.privkey
    obtain ⟨random, hrandom⟩ := Option.ne_none_iff_exists'.mp h.random
    exact hnone privkey random hpriv hrandom

/-- `rc_handshake_process_client_hello`. -/
lemma processClientHello_queues (draws : ServerDraws) (msg : ClientHello) :
    Queues host conn (headerSize + serverHelloSize) True (draws.Ready ossl msg)
      ((Call.serverHello draws msg).run host ossl conn) := by
  simp only [Call.run, processClientHello]
  split
  · next halloc =>
    exact .failed trivial (fun h => absurd (h.ctxAlloc.symm.trans halloc) (by decide)) rfl rfl
  next halloc =>
  split
  · next privkey random hpriv hrandom =>
    split
    · next hid => exact .failed trivial (fun h => h.sessionId hid) rfl rfl
    next idBytes hid =>
    split
    · next hx =>
      refine .failed trivial (fun h => ?_) rfl rfl
      obtain ⟨secret, -, hx', -⟩ := h.keys_of hpriv hrandom
      cases hx.symm.trans hx'
    next secret hx =>
    split
    · next hret =>
      refine .failed trivial (fun h => ?_) rfl rfl
      obtain ⟨secret', okm, hx', hd⟩ := h.keys_of hpriv hrandom
      cases hx.symm.trans hx'
      exact hret ((deriveSessionKeys_eq_zero_iff ..).mpr ⟨okm, hd⟩)
    next hret =>
    obtain ⟨okm, hd⟩ := (deriveSessionKeys_eq_zero_iff ..).mp (not_not.mp hret)
    refine .packet trivial ⟨Bool.eq_true_of_not_eq_false halloc, by simp [hid],
        privkey, random, secret, okm, hpriv, hrandom, hx, hd⟩
      { hdrInit .helloAck conn.localSeq conn.connId with
        payloadLen := serverHelloSize.toUInt16, flags := flagReliable }
      ((serverHelloOf host ossl conn msg privkey random idBytes).bytes host) rfl rfl
      (by rw [ServerHello.length_bytes]; rfl) (by rw [ServerHello.length_bytes]) ?_
    intro written rb' hw
    rw [serverHelloOf] at hw
    rw [hw]
    by_cases hsize : written = headerSize + serverHelloSize
    · rw [if_pos hsize, if_neg (not_not.mpr hsize)]
      exact ⟨_, rfl, rfl, rfl⟩
    · rw [if_neg hsize, if_pos hsize]
      exact ⟨_, rfl, rfl, rfl⟩
  · next hnone =>
    refine .failed trivial (fun h => ?_) rfl rfl
    obtain ⟨privkey, random, -, -, hpriv, hrandom, -⟩ := h.keys
    exact hnone privkey random hpriv hrandom

/-- `rc_handshake_process_server_hello`. -/
lemma processServerHello_queues (draws : FinishDraws) (msg : ServerHello) :
    Queues host conn (headerSize + finishSize) ((Call.finish draws msg).Defined conn.userData)
      ((Call.finish draws msg).Ready host ossl conn)
      ((Call.finish draws msg).run host ossl conn) := by
  simp only [Call.run, processServerHello, Call.Defined, Call.Ready]
  -- The checks in the order of the source: context, shared secret, keys, transcript MAC.
  cases hu : conn.userData with
  | null => exact .failed (.inl rfl) (fun h => by simp at h) rfl rfl
  | conn p => exact .inl ⟨by simp, rfl⟩
  | serverCtx ctx => exact .inl ⟨by simp, rfl⟩
  | clientCtx ctx =>
    simp only
    cases hx : ossl.x25519 ctx.clientPrivkey msg.serverPubkey with
    | none =>
      refine .failed (.inr ⟨ctx, rfl⟩) ?_ rfl rfl
      rintro ⟨_, ⟨⟩, -, secret, -, hx', -⟩
      cases hx.symm.trans hx'
    | some secret =>
      simp only
      split
      · next hret =>
        refine .failed (.inr ⟨ctx, rfl⟩) ?_ rfl rfl
        rintro ⟨_, ⟨⟩, -, secret', okm, hx', hd, -⟩
        cases hx.symm.trans hx'
        exact hret ((deriveSessionKeys_eq_zero_iff ..).mpr ⟨okm, hd⟩)
      next hret =>
      obtain ⟨okm, hd⟩ := (deriveSessionKeys_eq_zero_iff ..).mp (not_not.mp hret)
      have hmaster := deriveSessionKeys_masterSecret hd draws.encSalt draws.decSalt conn.session
      split
      · next ht =>
        refine .failed (.inr ⟨ctx, rfl⟩) ?_ rfl rfl
        rintro ⟨_, ⟨⟩, halloc, secret', okm', hx', hd', hmac⟩
        cases hx.symm.trans hx'
        cases hd.1.symm.trans hd'.1
        rw [hmaster, buildTranscript, if_neg (by simp [halloc])] at ht
        exact hmac ht
      next verifyData ht =>
      rw [hmaster, buildTranscript] at ht
      split at ht
      · cases ht
      next halloc =>
      refine .packet (.inr ⟨ctx, rfl⟩)
        ⟨ctx, rfl, Bool.eq_true_of_not_eq_false halloc, secret, okm, hx, hd,
          Option.ne_none_iff_exists'.mpr ⟨verifyData, ht⟩⟩
        { hdrInit .fin conn.localSeq conn.connId with
          payloadLen := finishSize.toUInt16, flags := flagReliable ||| flagFinAck }
        (Finish.bytes host ⟨conn.connId, verifyData⟩) rfl rfl
        (by rw [Finish.length_bytes]; rfl) (by rw [Finish.length_bytes]) ?_
      -- A short write is noticed after the buffer and the sequence number have changed.
      intro written rb' hw
      simp only [hw]
      by_cases hsize : written = headerSize + finishSize
      · rw [if_pos hsize, if_neg (not_not.mpr hsize)]
        exact ⟨_, rfl, (connSetState_bufs _ _).1, connSetState_localSeq _ _⟩
      · rw [if_neg hsize, if_pos hsize]
        exact ⟨_, rfl, rfl, rfl⟩

/-- `rc_p2p_fallback_relay`. -/
lemma fallbackRelay_queues (p2p : P2pState) :
    Queues host conn headerSize True True ((Call.relayReq p2p).run host ossl conn) := by
  refine .packet trivial trivial
    { hdrInit .relayReq conn.localSeq conn.connId with
      payloadLen := 0, flags := flagReliable } [] rfl rfl rfl rfl ?_
  intro written rb' hw
  simp only [Call.run, fallbackRelay]
  rw [hw]
  by_cases hsize : written = headerSize
  · rw [if_pos hsize, if_neg (not_not.mpr hsize)]
    exact ⟨_, rfl, rfl, rfl⟩
  · rw [if_neg hsize, if_pos hsize]
    exact ⟨_, rfl, rfl, rfl⟩

/-- Every call. -/
lemma Call.queues (call : Call) :
    Queues host conn call.size (call.Defined conn.userData) (call.Ready host ossl conn)
      (call.run host ossl conn) := by
  cases call with
  | clientHello draws => exact sendClientHello_queues host ossl conn draws
  | serverHello draws msg => exact processClientHello_queues host ossl conn draws msg
  | finish draws msg => exact processServerHello_queues host ossl conn draws msg
  | relayReq p2p => exact fallbackRelay_queues host ossl conn p2p

end Calls

/-! ## Framing -/

section Framing
variable {host : Endian} {ossl : Openssl} {conn : Conn} {items : List UInt8}

/-- A call is framed exactly if it fits. -/
lemma Call.framed_iff (h : Holds conn.sendBuf items) (call : Call) :
    call.Framed host ossl conn items ↔ call.Fits host ossl conn := by
  obtain ⟨undef, hnone⟩ | ⟨defined, hready, conn', e, hbuf, hseq⟩ |
    ⟨defined, ready, bytes, conn', packet, hlen, e, hbuf, hseq⟩ := call.queues host ossl conn
  · constructor
    · rintro ⟨ret, conn', e, -⟩
      cases hnone.symm.trans e
    · exact fun fits => absurd fits.1 undef
  · exact ⟨fun _ => ⟨defined, fun ready => absurd ready hready⟩,
      fun _ => ⟨-1, conn', e, .inr ⟨rfl, hbuf ▸ h, hseq⟩⟩⟩
  · obtain ⟨hwritten, holds⟩ := h.write bytes
    rw [hwritten, hlen] at e
    constructor
    · rintro ⟨ret, conn₁, e₁, hret⟩
      refine ⟨defined, fun _ => ?_⟩
      cases e.symm.trans e₁
      obtain ⟨hzero, -⟩ | ⟨-, -, hsame⟩ := hret
      · by_contra hlt
        rw [if_neg (by omega)] at hzero
        cases hzero
      · exact absurd (hseq.symm.trans hsame) (by simp)
    · rintro ⟨-, hfits⟩
      refine ⟨_, conn', e, .inl ⟨if_pos (Nat.min_eq_left (hfits ready)), bytes, packet, ?_⟩⟩
      rw [hbuf]
      rwa [List.take_of_length_le (hlen ▸ hfits ready)] at holds

/-- A call that fits keeps the buffer a sequence of whole packets. -/
lemma Call.apply_packets {conn' : Conn} {call : Call}
    (h : WholePackets host conn.sendBuf) (fits : call.Fits host ossl conn)
    (e : call.apply host ossl conn = some conn') : WholePackets host conn'.sendBuf := by
  obtain ⟨pkts, hpkts, holds⟩ := h
  obtain ⟨ret, conn₁, e₁, hret⟩ := (call.framed_iff holds).mpr fits
  rw [Call.apply, e₁] at e
  cases e
  obtain ⟨-, bytes, packet, holds'⟩ | ⟨-, holds', -⟩ := hret
  · refine ⟨pkts ++ [bytes], ?_, ?_⟩
    · intro b hb
      obtain hb | hb := List.mem_append.mp hb
      · exact hpkts b hb
      · exact List.mem_singleton.mp hb ▸ packet
    · rwa [List.flatten_append, List.flatten_singleton]
  · exact ⟨pkts, hpkts, holds'⟩

end Framing

/-- A call appends one complete packet and returns 0, or changes nothing and returns -1, exactly if
its packet fits; and as long as the packets fit, the buffer stays a sequence of whole packets. -/
theorem packets_framed_iff (host : Endian) (ossl : Openssl) (conn : Conn) (items : List UInt8)
    (h : Holds conn.sendBuf items) :
    (∀ call : Call, call.Framed host ossl conn items ↔ call.Fits host ossl conn) ∧
    (WholePackets host conn.sendBuf → ∀ calls conn',
      Along (Call.apply host ossl) (Call.Fits host ossl) conn calls →
      calls.foldlM (Call.apply host ossl) conn = some conn' → WholePackets host conn'.sendBuf) := by
  refine ⟨Call.framed_iff h, ?_⟩
  intro hpkts calls conn' along hrun
  exact along.invariant (fun hs fits e => Call.apply_packets hs fits e) hpkts hrun

/-- A relay request on a new connection is framed. -/
theorem packets_framed_sample :
    (Call.relayReq ⟨false⟩).Framed .little vectors sampleConn [] :=
  ((packets_framed_iff .little vectors sampleConn []
    (.inr ⟨16, by decide, .empty, ⟨by decide, by decide, rfl, rfl⟩, rfl⟩)).1 _).mpr
    ⟨trivial, fun _ => by decide +kernel⟩

/-- A connection with 18 bytes left, as after one ClientHello and 2040 relay requests. -/
def tightConn : Conn :=
  { sampleConn with localSeq := 2041, sendBuf := { sampleConn.sendBuf with head := 65518 } }

/-- A relay request that does not fit returns -1, and leaves its first 18 bytes in the buffer and
`local_seq` counted up. -/
theorem relay_request_truncated :
    ((Call.relayReq ⟨false⟩).run .little vectors tightConn).map
      (fun r => (r.1, r.2.localSeq, ringbufAvailable r.2.sendBuf)) = some (-1, 2042, 65536) ∧
    ∀ items, ¬ (Call.relayReq ⟨false⟩).Framed .little vectors tightConn items := by
  have e : ((Call.relayReq ⟨false⟩).run .little vectors tightConn).map
      (fun r => (r.1, r.2.localSeq, ringbufAvailable r.2.sendBuf)) = some (-1, 2042, 65536) := by
    decide +kernel
  refine ⟨e, ?_⟩
  rintro items ⟨ret, conn', e', hret⟩
  rw [e', Option.map_some, Option.some_inj, Prod.mk.injEq, Prod.mk.injEq] at e
  obtain ⟨hzero, -⟩ | ⟨-, -, hseq⟩ := hret
  · exact absurd (hzero.symm.trans e.1) (by decide)
  · exact absurd (e.2.1.symm.trans hseq) (by decide)

end RoboControl.P2p
