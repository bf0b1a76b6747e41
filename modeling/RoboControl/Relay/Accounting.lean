import RoboControl.Proto.Codec
import RoboControl.Relay.Table

/-!
# Relay statistics

What the counters of `src/core/rc_relay.c` say after a run of calls: those of the server, which
`relayStats` (C `rc_relay_stats`) reports, and those of each session and its streams. `Counts` is
what one call does to the counters.

`rc_relay_forward` adds to `total_forwarded`, and nothing adds to `total_dropped`: the bandwidth
check counts a packet it rejects in the session only (`relay_stats_exact_iff`). The low byte of the
flags is taken for a stream id, and packets whose id is not below `RC_RELAY_MAX_STREAMS` are counted
in no stream (`relay_streams_agree_iff`).
-/

namespace RoboControl.Relay
open Base Proto Function

/-- What `rc_relay_stats` reports. -/
structure RelayStats where
  sessions : UInt32
  forwarded : UInt64
  dropped : UInt64

/-- Statistics of a server (C `rc_relay_stats`). -/
def relayStats (srv : RelayServer) : RelayStats where
  sessions := srv.sessionCount
  forwarded := srv.totalForwarded
  dropped := srv.totalDropped

/-! ## Packets that are sent or rejected -/

/-- The packet of a call of `rc_relay_forward`. -/
def RelayOp.packet : RelayOp → List UInt8
  | .forward pkt _ _ _ => pkt
  | _ => []

/-- A call that hands its packet to `sendto`, which sends it. -/
def RelayOp.sent (host : Endian) (srv : RelayServer) : RelayOp → Bool
  | .forward pkt now now' sent =>
    (relayForward host srv pkt now now' sent).any (fun r => r.2.2.isSome) && sent
  | _ => false

/-- A call whose packet gets as far as the bandwidth check and is rejected there. -/
def RelayOp.rejected (host : Endian) (srv : RelayServer) : RelayOp → Bool
  | .forward pkt now _ _ =>
    headerSize ≤ pkt.length && (hdrUnpack host pkt).1 = 0 &&
      (routeLookup srv (hdrUnpack host pkt).2.connId).any fun r =>
        (srv.sessions r.session).active &&
          !(bwCheck now (srv.sessions r.session) pkt.length.toUInt32).1
  | _ => false

/-- The bytes that a call sends. -/
def RelayOp.sentBytes (host : Endian) (srv : RelayServer) (op : RelayOp) : Nat :=
  if op.sent host srv then op.packet.length else 0

/-- The bytes that the bandwidth check rejects. -/
def RelayOp.rejectedBytes (host : Endian) (srv : RelayServer) (op : RelayOp) : Nat :=
  if op.rejected host srv then op.packet.length else 0

/-- Nothing is rejected. -/
lemma RelayOp.rejectedBytes_eq_zero_iff (host : Endian) (srv : RelayServer) (op : RelayOp) :
    op.rejectedBytes host srv = 0 ↔ op.rejected host srv = false := by
  rw [RelayOp.rejectedBytes]
  cases op with
  | forward pkt now now' sent =>
    cases hr : (RelayOp.forward pkt now now' sent).rejected host srv with
    | false => simp
    | true =>
      have hlen : headerSize ≤ pkt.length := by
        rw [RelayOp.rejected, Bool.and_eq_true, Bool.and_eq_true] at hr
        exact of_decide_eq_true hr.1.1
      have hsize : headerSize = 32 := rfl
      rw [if_pos rfl]
      refine iff_of_false ?_ Bool.noConfusion
      show pkt.length ≠ 0
      omega
  | create args => exact iff_of_true rfl rfl
  | destroy sessionId => exact iff_of_true rfl rfl
  | purge now timeoutMs => exact iff_of_true rfl rfl

/-- A packet that is rejected does not get as far as the buffer. -/
lemma RelayOp.apply_of_rejected {host : Endian} {srv : RelayServer} {op : RelayOp}
    (h : op.rejected host srv = true) : ∃ srv', op.apply host srv = some srv' := by
  cases op with
  | forward pkt now now' sent =>
    simp only [RelayOp.rejected, Bool.and_eq_true, Option.any_eq_true_iff_get,
      Bool.not_eq_true'] at h
    obtain ⟨⟨hlen, hret⟩, hsome, hactive, hbw⟩ := h
    obtain ⟨r, hr⟩ := Option.isSome_iff_exists.mp hsome
    simp only [hr, Option.get_some] at hactive hbw
    have hok : ¬ (pkt.length < headerSize ∨ (hdrUnpack host pkt).1 ≠ 0) :=
      not_or.mpr ⟨not_lt.mpr (of_decide_eq_true hlen), not_not.mpr (of_decide_eq_true hret)⟩
    rw [RelayOp.apply, relayForward_of_route hr, if_neg hok, forwardBy, hactive]
    simp only [hbw, Bool.true_eq_false, if_false, if_true, Option.map_some]
    exact ⟨_, rfl⟩
  | create args => cases h
  | destroy sessionId => cases h
  | purge now timeoutMs => cases h

/-! ## What a call counts -/

/-- Two sessions that have counted the same. -/
structure SameCounters (sess sess' : RelaySession) : Prop where
  streams : sess'.streams = sess.streams
  streamCount : sess'.streamCount = sess.streamCount
  bytes : sess'.bytesForwarded = sess.bytesForwarded
  pkts : sess'.pktsForwarded = sess.pktsForwarded

/-- Nothing happened. -/
lemma SameCounters.refl (sess : RelaySession) : SameCounters sess sess := ⟨rfl, rfl, rfl, rfl⟩

/-- `bw_check` counts nothing. -/
lemma bwCheck_sameCounters (now : UInt64) (sess : RelaySession) (pktLen : UInt32) :
    SameCounters sess (bwCheck now sess pktLen).2 := by
  rw [bwCheck]
  split <;> split <;> exact ⟨rfl, rfl, rfl, rfl⟩

/-- A session that has counted a packet which was sent. -/
def RelaySession.countPacket (host : Endian) (now' : UInt64) (pkt : List UInt8)
    (sess : RelaySession) :
    RelaySession :=
  { sess with
    bytesForwarded := sess.bytesForwarded + pkt.length.toUInt64
    pktsForwarded := sess.pktsForwarded + 1
    lastActivityMs := now' }.countStream (hdrUnpack host pkt).2.flags pkt.length

/-- What a call does to the counters: it sends a packet and counts it in a session in use, or it
leaves every session with its counters or with zeros. -/
inductive Counts (host : Endian) (srv : RelayServer) (op : RelayOp) : RelayServer → Prop where
  | sent {srv' : RelayServer} (i : Nat) (sess : RelaySession) (now' : UInt64) :
    op.sent host srv = true →
    srv.active i = true →
    (srv.sessions i).Same sess →
    SameCounters (srv.sessions i) sess →
    srv'.sessions = update srv.sessions i (sess.countPacket host now' op.packet) →
    srv'.totalForwarded = srv.totalForwarded + op.packet.length.toUInt64 →
    srv'.totalDropped = srv.totalDropped →
    Counts host srv op srv'
  | other {srv' : RelayServer} :
    op.sent host srv = false →
    (∀ i, SameCounters (srv.sessions i) (srv'.sessions i) ∨ SameCounters .zero (srv'.sessions i)) →
    srv'.totalForwarded = srv.totalForwarded →
    srv'.totalDropped = srv.totalDropped →
    Counts host srv op srv'

/-- What `rc_relay_forward` does to the counters of the session of a route. -/
lemma forwardBy_counters {host : Endian} {pkt : List UInt8} {now now' n : UInt64}
    {sent ingress : Bool} {sess sess' : RelaySession} {ret : Int} {datagram : Option Datagram}
    (h : forwardBy host pkt now now' sent ingress sess = some (ret, sess', n, datagram)) :
    ((datagram.isSome && sent) = true ∧ sess.active = true ∧ n = pkt.length.toUInt64 ∧
      ∃ sess₁, sess.Same sess₁ ∧ SameCounters sess sess₁ ∧
        sess' = sess₁.countPacket host now' pkt) ∨
    ((datagram.isSome && sent) = false ∧ n = 0 ∧ SameCounters sess sess') := by
  have hsame := bwCheck_same now sess pkt.length.toUInt32
  have hbw := bwCheck_sameCounters now sess pkt.length.toUInt32
  rw [forwardBy] at h
  split at h
  · cases h
    exact .inr ⟨rfl, rfl, .refl sess⟩
  · next hactive =>
    dsimp only at h
    split at h
    · cases h
      exact .inr ⟨rfl, rfl, hbw⟩
    · split at h
      · cases h
      · split at h
        · next hsent =>
          cases h
          rw [hsent]
          exact .inr ⟨rfl, rfl, hbw⟩
        · next hsent =>
          cases h
          rw [Bool.not_eq_false] at hsent hactive
          rw [hsent]
          exact .inl ⟨rfl, hactive, rfl, _, hsame, hbw, rfl⟩

/-- A packet is counted. -/
lemma counts_forward {host : Endian} {srv srv' : RelayServer} {pkt : List UInt8} {now now' : UInt64}
    {sent : Bool} {ret : Int} {datagram : Option Datagram}
    (h : relayForward host srv pkt now now' sent = some (ret, srv', datagram)) :
    Counts host srv (.forward pkt now now' sent) srv' := by
  have hop : (RelayOp.forward pkt now now' sent).sent host srv = (datagram.isSome && sent) := by
    rw [RelayOp.sent, h]
    rfl
  -- a call that returns before the session is looked at
  have hnone (e : some (ret, srv', datagram) = some (ret, srv, none)) :
      Counts host srv (.forward pkt now now' sent) srv' := by
    cases e
    exact .other hop (fun i => .inl (.refl _)) rfl rfl
  cases hr : routeLookup srv (hdrUnpack host pkt).2.connId with
  | none =>
    obtain ⟨ret', -, h'⟩ := relayForward_of_no_route hr
    have e := h.symm.trans h'
    cases e
    exact hnone rfl
  | some r =>
    rw [relayForward_of_route hr] at h
    split at h
    · cases h
      exact hnone rfl
    · obtain ⟨⟨ret', sess', n, datagram'⟩, hf, he⟩ := Option.map_eq_some_iff.mp h
      cases he
      obtain ⟨hsent, hactive, rfl, sess, same, counters, rfl⟩ | ⟨hsent, rfl, counters⟩ :=
        forwardBy_counters hf
      · exact .sent r.session sess now' (hop.trans hsent) hactive same counters rfl rfl rfl
      · refine .other (hop.trans hsent) (fun i => .inl ?_) (UInt64.add_zero _) rfl
        by_cases hi : i = r.session
        · subst hi
          show SameCounters _ (update srv.sessions r.session sess' r.session)
          rw [update_self]
          exact counters
        · show SameCounters _ (update srv.sessions r.session sess' i)
          rw [update_of_ne hi]
          exact .refl _

section RouteAdd
variable (alloc : Bool) (srv : RelayServer) (connId : UInt32) (session : Nat) (ingress : Bool)

@[simp] lemma routeAdd_totalForwarded :
    (routeAdd alloc srv connId session ingress).totalForwarded = srv.totalForwarded := by
  cases alloc <;> rfl

@[simp] lemma routeAdd_totalDropped :
    (routeAdd alloc srv connId session ingress).totalDropped = srv.totalDropped := by
  cases alloc <;> rfl

end RouteAdd

/-- A new session has counted nothing. -/
lemma counts_create (host : Endian) (srv : RelayServer) (args : SessionArgs) :
    Counts host srv (.create args) (sessionCreate host srv args).2 := by
  rw [sessionCreate]
  split
  · exact .other rfl (fun i => .inl (.refl _)) rfl rfl
  · split
    · exact .other rfl (fun i => .inl (.refl _)) rfl rfl
    · next i _ =>
      refine .other rfl (fun j => ?_) ?_ ?_
      · simp only [routeAdd_sessions, RelayServer.setSession]
        by_cases hj : j = i
        · subst hj
          rw [update_self]
          exact .inr ⟨rfl, rfl, rfl, rfl⟩
        · rw [update_of_ne hj]
          exact .inl (.refl _)
      · simp only [routeAdd_totalForwarded, RelayServer.setSession]
      · simp only [routeAdd_totalDropped, RelayServer.setSession]

/-- One after the other. -/
lemma SameCounters.trans {sess sess₁ sess₂ : RelaySession} (h : SameCounters sess sess₁)
    (h' : SameCounters sess₁ sess₂) : SameCounters sess sess₂ :=
  ⟨h'.streams.trans h.streams, h'.streamCount.trans h.streamCount, h'.bytes.trans h.bytes,
    h'.pkts.trans h.pkts⟩

/-- Closing a session keeps the counters. -/
lemma closeSession_counters (srv : RelayServer) (i j : Nat) :
    SameCounters (srv.sessions j) ((closeSession srv i).sessions j) := by
  rw [closeSession_sessions]
  by_cases hj : j = i
  · subst hj
    rw [update_self]
    exact ⟨rfl, rfl, rfl, rfl⟩
  · rw [update_of_ne hj]
    exact .refl _

/-- Closing sessions keeps the counters. -/
lemma closeAll_counters (srv : RelayServer) (l : List Nat) :
    (closeAll srv l).totalForwarded = srv.totalForwarded ∧
      (closeAll srv l).totalDropped = srv.totalDropped ∧
      ∀ j, SameCounters (srv.sessions j) ((closeAll srv l).sessions j) := by
  induction l generalizing srv with
  | nil => exact ⟨rfl, rfl, fun j => .refl _⟩
  | cons i l ih =>
    obtain ⟨hf, hd, hs⟩ := ih (closeSession srv i)
    exact ⟨hf, hd, fun j => (closeSession_counters srv i j).trans (hs j)⟩

/-- What each call does to the counters. -/
lemma RelayOp.counts {host : Endian} {srv srv' : RelayServer} {op : RelayOp}
    (h : op.apply host srv = some srv') : Counts host srv op srv' := by
  cases op with
  | create args =>
    cases h
    exact counts_create host srv args
  | destroy sessionId =>
    cases h
    obtain ⟨hf, hd, hs⟩ := closeAll_counters srv ((RelayOp.destroy sessionId).removes srv)
    rw [sessionDestroy_eq]
    exact .other rfl (fun i => .inl (hs i)) hf hd
  | forward pkt now now' sent =>
    obtain ⟨⟨ret, srv₁, datagram⟩, hf, rfl⟩ := Option.map_eq_some_iff.mp h
    exact counts_forward hf
  | purge now timeoutMs =>
    cases h
    obtain ⟨hf, hd, hs⟩ := closeAll_counters srv ((RelayOp.purge now timeoutMs).removes srv)
    rw [purgeIdle_eq]
    exact .other rfl (fun i => .inl (hs i)) hf hd

/-! ## Counters of the server -/

section Server
variable {host : Endian} {srv srv' : RelayServer} {op : RelayOp}

/-- No operation counts drops. -/
lemma RelayOp.apply_totalDropped (h : op.apply host srv = some srv') :
    srv'.totalDropped = srv.totalDropped := by
  cases RelayOp.counts h with
  | sent _ _ _ _ _ _ _ _ _ hdropped => exact hdropped
  | other _ _ _ hdropped => exact hdropped

/-- What is sent is counted. -/
lemma RelayOp.apply_totalForwarded (h : op.apply host srv = some srv') :
    srv'.totalForwarded.toNat ≡ srv.totalForwarded.toNat + op.sentBytes host srv [MOD 2 ^ 64] := by
  rw [RelayOp.sentBytes]
  cases RelayOp.counts h with
  | sent _ _ _ hsent _ _ _ _ hforwarded _ =>
    rw [hforwarded, if_pos hsent, UInt64.toNat_add, Nat.toUInt64_eq, UInt64.toNat_ofNat']
    exact (Nat.mod_modEq _ _).trans (Nat.ModEq.add_left _ (Nat.mod_modEq _ _))
  | other hsent _ hforwarded _ =>
    rw [hforwarded, hsent, if_neg Bool.false_ne_true, Nat.add_zero]

end Server

/-- A counter of 64 bits is a number exactly if it is congruent to it and the number fits. -/
lemma toNat_eq_iff_lt {x : UInt64} {n : Nat} (h : x.toNat ≡ n [MOD 2 ^ 64]) :
    x.toNat = n ↔ n < 2 ^ 64 := by
  have hx := x.toNat_lt
  rw [Nat.ModEq, Nat.mod_eq_of_lt hx] at h
  constructor
  · rintro rfl
    exact hx
  · intro hn
    rw [h, Nat.mod_eq_of_lt hn]

/-- After every run from a new server, `rc_relay_stats` reports the bytes that were sent and the
bytes that the bandwidth check rejected exactly if the former are fewer than `2 ^ 64` and no packet
was rejected. -/
theorem relay_stats_exact_iff (host : Endian) (maxSessions : UInt32) (ops : List RelayOp)
    (srv : RelayServer) (hrun : relayRun host (relayCreate maxSessions) ops = some srv) :
    ((relayStats srv).forwarded.toNat =
        total (RelayOp.apply host) (fun s op => op.sentBytes host s) (relayCreate maxSessions) ops ∧
      (relayStats srv).dropped.toNat =
        total (RelayOp.apply host) (fun s op => op.rejectedBytes host s) (relayCreate maxSessions)
          ops) ↔
    total (RelayOp.apply host) (fun s op => op.sentBytes host s) (relayCreate maxSessions) ops < 2 ^
      64 ∧
      Along (RelayOp.apply host) (fun s op => op.rejected host s = false) (relayCreate maxSessions)
        ops := by
  have hforwarded := total_modEq (fun s : RelayServer => s.totalForwarded.toNat)
    RelayOp.apply_totalForwarded hrun
  have hdropped : srv.totalDropped = 0 := by
    refine run_invariant (P := fun s : RelayServer => s.totalDropped = 0) (fun hs h => ?_) rfl hrun
    rw [RelayOp.apply_totalDropped h, hs]
  have hzero : (relayCreate maxSessions).totalForwarded.toNat = 0 := rfl
  simp only [hzero, Nat.zero_add] at hforwarded
  refine and_congr (toNat_eq_iff_lt hforwarded) ?_
  simp only [← RelayOp.rejectedBytes_eq_zero_iff]
  rw [← total_eq_zero_iff]
  show srv.totalDropped.toNat = _ ↔ _
  rw [hdropped]
  exact eq_comm

/-- A session between connections 7 and 9, and two packets within its bandwidth. -/
def sentOps : List RelayOp :=
  [.create ⟨7, 9, none, none, 5, 1000, true, true⟩, .forward samplePkt 1500 1500 true,
    .forward samplePkt 1600 1600 true]

/-- The two packets have 34 bytes each. -/
theorem relay_stats_exact_sample :
    ∃ srv, relayRun .little (relayCreate 1) sentOps = some srv ∧
      (relayStats srv).forwarded.toNat = 68 ∧ (relayStats srv).dropped.toNat = 0 := by
  obtain ⟨srv, hrun⟩ : ∃ srv, relayRun .little (relayCreate 1) sentOps = some srv := ⟨_, rfl⟩
  have hsent : total (RelayOp.apply .little) (fun s op => op.sentBytes .little s) (relayCreate 1)
      sentOps = 68 := by decide +kernel
  have hrejected : total (RelayOp.apply .little) (fun s op => op.rejectedBytes .little s)
      (relayCreate 1) sentOps = 0 := by decide +kernel
  have h := (relay_stats_exact_iff .little 1 sentOps srv hrun).mpr
    ⟨by rw [hsent]; decide, by decide +kernel⟩
  rw [hsent, hrejected] at h
  exact ⟨srv, hrun, h⟩

/-- A header of connection 7. -/
def sampleHdr : PktHdr := { hdrInit .data 5 7 with flags := 1 }

/-- A server with a session between connections 7 and 9. -/
def sessionServer : RelayServer :=
  (sessionCreate .little (relayCreate 1) ⟨7, 9, none, none, 5, 1000, true, true⟩).2

/-- A packet is handed to the server with the session. -/
def onePacketOps (pkt : List UInt8) : List RelayOp :=
  [.create ⟨7, 9, none, none, 5, 1000, true, true⟩, .forward pkt 1500 1500 true]

section LongPacket
variable {pkt : List UInt8} (hlen : pkt.length = 6553632)
  (hhdr : hdrUnpack .little pkt = (0, sampleHdr))
include hlen hhdr

/-- A packet that is longer than what a session may send in a second. -/
lemma long_packet_rejected :
    (RelayOp.forward pkt 1500 1500 true).rejected .little sessionServer = true := by
  have hle : headerSize ≤ pkt.length := by
    rw [hlen]
    decide
  have hroute : routeLookup sessionServer sampleHdr.connId = some ⟨7, 0, true⟩ := by decide +kernel
  have hbw : (bwCheck 1500 (sessionServer.sessions 0) pkt.length.toUInt32).1 = false := by
    rw [hlen]
    decide +kernel
  have hactive : (sessionServer.sessions 0).active = true := by decide +kernel
  simp only [RelayOp.rejected, hhdr, hle, hroute, Option.any_some, hactive, hbw, decide_true,
    Bool.and_self, Bool.not_false]

/-- A packet that is too long is not counted as dropped. -/
lemma long_packet_not_reported :
    ∃ srv, relayRun .little (relayCreate 1) (onePacketOps pkt) = some srv ∧
      total (RelayOp.apply .little) (fun s op => op.rejectedBytes .little s) (relayCreate 1)
        (onePacketOps pkt) = 6553632 ∧
      (relayStats srv).dropped.toNat = 0 := by
  have hrejected := long_packet_rejected hlen hhdr
  have hcreate : RelayOp.apply .little (relayCreate 1)
      (.create ⟨7, 9, none, none, 5, 1000, true, true⟩) = some sessionServer := rfl
  have hzero : (RelayOp.create ⟨7, 9, none, none, 5, 1000, true, true⟩).rejectedBytes .little
      (relayCreate 1) = 0 := rfl
  obtain ⟨srv, hforward⟩ := RelayOp.apply_of_rejected hrejected
  refine ⟨srv, ?_, ?_, ?_⟩
  · rw [relayRun, onePacketOps, foldlM_cons_of_some hcreate, foldlM_cons_of_some hforward]
    rfl
  · rw [onePacketOps, total_cons hcreate, total_cons hforward, hzero, RelayOp.rejectedBytes,
      if_pos hrejected, RelayOp.packet, hlen, total]
  · show srv.totalDropped.toNat = 0
    rw [RelayOp.apply_totalDropped hforward]
    rfl

end LongPacket

/-- The bandwidth check rejects a packet of 6553632 bytes, and the server reports no
dropped bytes. -/
theorem drops_not_reported :
    ∃ pkt srv, pkt = hdrBytes .little sampleHdr ++ List.replicate 6553600 0 ∧
      relayRun .little (relayCreate 1) (onePacketOps pkt) = some srv ∧
      total (RelayOp.apply .little) (fun s op => op.rejectedBytes .little s) (relayCreate 1)
        (onePacketOps pkt) = 6553632 ∧
      (relayStats srv).dropped.toNat = 0 := by
  obtain ⟨pkt, hpkt⟩ : ∃ pkt, pkt = hdrBytes .little sampleHdr ++ List.replicate 6553600 0 :=
    ⟨_, rfl⟩
  have hlen : pkt.length = 6553632 := by
    rw [hpkt, List.length_append, length_hdrBytes, List.length_replicate]
  have hsnd : (hdrUnpack .little pkt).2 = sampleHdr := by
    rw [hpkt, hdrUnpack_hdrBytes, onWire_onWire]
  have hhdr : hdrUnpack .little pkt = (0, sampleHdr) := by
    refine Prod.ext ?_ hsnd
    rw [hdrUnpack_eq_zero_iff, hsnd]
    exact ⟨rfl, rfl⟩
  obtain ⟨srv, h⟩ := long_packet_not_reported hlen hhdr
  exact ⟨pkt, srv, hpkt, h⟩

/-! ## Counters of the streams -/

/-- The stream that `rc_relay_forward` takes a packet to belong to. -/
def streamId (host : Endian) (pkt : List UInt8) : Nat :=
  ((hdrUnpack host pkt).2.flags &&& 0x00FF).toNat

/-- The sum of a counter over the streams of a session, as a `uint64_t` holds it. -/
def RelaySession.streamSum (sess : RelaySession) (f : RelayStream → UInt64) : Nat :=
  (∑ k ∈ Finset.range relayMaxStreams, (f (sess.streams k)).toNat) % 2 ^ 64

/-- The counters of a session are the sums of those of its streams. -/
structure RelaySession.StreamsAgree (sess : RelaySession) : Prop where
  bytes : sess.bytesForwarded.toNat = sess.streamSum (·.bytesForwarded)
  pkts : sess.pktsForwarded.toNat = sess.streamSum (·.pktsForwarded)

/-- `stream_count` is the number of active streams. -/
def RelaySession.StreamCount (sess : RelaySession) : Prop :=
  sess.streamCount.toNat = (List.range relayMaxStreams).countP fun k => (sess.streams k).active

/-- A call that sends no packet, or one of a stream that the session has. -/
def RelayOp.counted (host : Endian) (srv : RelayServer) (op : RelayOp) : Bool :=
  !op.sent host srv || streamId host op.packet < relayMaxStreams

/-- The counters decide. -/
lemma RelaySession.StreamsAgree.congr {sess sess' : RelaySession} (agree : sess.StreamsAgree)
    (same : SameCounters sess sess') : sess'.StreamsAgree := by
  refine ⟨?_, ?_⟩
  · rw [same.bytes, agree.bytes, RelaySession.streamSum, RelaySession.streamSum, same.streams]
  · rw [same.pkts, agree.pkts, RelaySession.streamSum, RelaySession.streamSum, same.streams]

/-- The counters decide. -/
lemma RelaySession.StreamCount.congr {sess sess' : RelaySession} (count : sess.StreamCount)
    (same : SameCounters sess sess') : sess'.StreamCount := by
  rw [RelaySession.StreamCount, same.streamCount, same.streams]
  exact count

lemma RelaySession.StreamsAgree.zero : RelaySession.zero.StreamsAgree :=
  ⟨by decide +kernel, by decide +kernel⟩

lemma RelaySession.StreamCount.zero : RelaySession.zero.StreamCount := by
  rw [RelaySession.StreamCount]
  decide +kernel

/-- One stream of a sum is replaced. -/
lemma sum_update_stream (streams : Nat → RelayStream) {k : Nat} (hk : k < relayMaxStreams)
    (f : RelayStream → UInt64) (s : RelayStream) :
    ∑ j ∈ Finset.range relayMaxStreams, (f (update streams k s j)).toNat +
        (f (streams k)).toNat =
      ∑ j ∈ Finset.range relayMaxStreams, (f (streams j)).toNat + (f s).toNat := by
  have hmem : k ∈ Finset.range relayMaxStreams := Finset.mem_range.mpr hk
  have hrest : ∑ j ∈ (Finset.range relayMaxStreams).erase k, (f (update streams k s j)).toNat =
      ∑ j ∈ (Finset.range relayMaxStreams).erase k, (f (streams j)).toNat :=
    Finset.sum_congr rfl fun j hj => by rw [update_of_ne (Finset.ne_of_mem_erase hj)]
  rw [← Finset.add_sum_erase _ _ hmem, ← Finset.add_sum_erase _ (fun j => (f (streams j)).toNat)
    hmem, hrest, update_self]
  omega

/-- A counter and one of its streams are raised by the same number. -/
lemma streamSum_raise {sess : RelaySession} {k : Nat} (hk : k < relayMaxStreams)
    (f : RelayStream → UInt64) {s : RelayStream} {x n : UInt64} (hx : x.toNat = sess.streamSum f)
    (hs : f s = f (sess.streams k) + n) :
    (x + n).toNat =
      (∑ j ∈ Finset.range relayMaxStreams, (f (update sess.streams k s j)).toNat) % 2 ^ 64 := by
  have hsum := sum_update_stream sess.streams hk f s
  rw [RelaySession.streamSum] at hx
  rw [hs, UInt64.toNat_add] at hsum
  rw [UInt64.toNat_add, hx]
  omega

section CountPacket
variable {host : Endian} {now' : UInt64} {pkt : List UInt8} {sess : RelaySession}

/-- The session with a packet that belongs to one of its streams. -/
lemma countPacket_of_lt (sess : RelaySession) (now' : UInt64)
    (h : streamId host pkt < relayMaxStreams) :
    ∃ s : RelayStream, (sess.countPacket host now' pkt).streams =
        update sess.streams (streamId host pkt) s ∧ s.active = true ∧
      s.bytesForwarded = (sess.streams (streamId host pkt)).bytesForwarded + pkt.length.toUInt64 ∧
      s.pktsForwarded = (sess.streams (streamId host pkt)).pktsForwarded + 1 ∧
      (sess.countPacket host now' pkt).bytesForwarded = sess.bytesForwarded + pkt.length.toUInt64 ∧
      (sess.countPacket host now' pkt).pktsForwarded = sess.pktsForwarded + 1 ∧
      (sess.countPacket host now' pkt).streamCount =
        if (sess.streams (streamId host pkt)).active then sess.streamCount
          else sess.streamCount + 1 := by
  rw [streamId] at h ⊢
  rw [RelaySession.countPacket, RelaySession.countStream]
  simp only [if_pos h]
  cases hactive : (sess.streams ((hdrUnpack host pkt).2.flags &&& 0x00FF).toNat).active with
  | false => exact ⟨_, rfl, rfl, rfl, rfl, rfl, rfl, rfl⟩
  | true => exact ⟨_, rfl, hactive, rfl, rfl, rfl, rfl, rfl⟩

/-- The session with a packet that belongs to none of its streams. -/
lemma countPacket_of_not_lt (h : ¬ streamId host pkt < relayMaxStreams) :
    sess.countPacket host now' pkt =
      { sess with
        bytesForwarded := sess.bytesForwarded + pkt.length.toUInt64
        pktsForwarded := sess.pktsForwarded + 1
        lastActivityMs := now' } := by
  rw [RelaySession.countPacket, RelaySession.countStream]
  exact if_neg h

/-- A packet of a stream is counted. -/
lemma RelaySession.StreamsAgree.countPacket (agree : sess.StreamsAgree)
    (h : streamId host pkt < relayMaxStreams) :
    (sess.countPacket host now' pkt).StreamsAgree := by
  obtain ⟨s, hstreams, -, hbytes, hpkts, hsbytes, hspkts, -⟩ := countPacket_of_lt sess now' h
  refine ⟨?_, ?_⟩
  · rw [hsbytes, RelaySession.streamSum, hstreams]
    exact streamSum_raise h (·.bytesForwarded) agree.bytes hbytes
  · rw [hspkts, RelaySession.streamSum, hstreams]
    exact streamSum_raise h (·.pktsForwarded) agree.pkts hpkts

/-- A packet of no stream is counted in the session only. -/
lemma RelaySession.StreamsAgree.not_countPacket (agree : sess.StreamsAgree)
    (h : ¬ streamId host pkt < relayMaxStreams) :
    ¬ (sess.countPacket host now' pkt).StreamsAgree := by
  rw [countPacket_of_not_lt h]
  intro agree'
  have hpkts : (sess.pktsForwarded + 1).toNat = sess.pktsForwarded.toNat :=
    agree'.pkts.trans agree.pkts.symm
  have h1 := UInt64.add_eq_left.mp (UInt64.toNat_inj.mp hpkts)
  cases h1

/-- A packet is counted. -/
lemma RelaySession.StreamCount.countPacket (count : sess.StreamCount) :
    (sess.countPacket host now' pkt).StreamCount := by
  by_cases h : streamId host pkt < relayMaxStreams
  · obtain ⟨s, hstreams, hactive, -, -, -, -, hcount⟩ := countPacket_of_lt sess now' h
    have hupdate : (fun k => ((sess.countPacket host now' pkt).streams k).active) =
        update (fun k => (sess.streams k).active) (streamId host pkt) true := by
      funext k
      rw [hstreams]
      by_cases hk : k = streamId host pkt
      · subst hk
        rw [update_self, update_self, hactive]
      · rw [update_of_ne hk, update_of_ne hk]
    have hsum := countP_update List.nodup_range (List.mem_range.mpr h)
      (fun k => (sess.streams k).active) true
    have hle : (List.range relayMaxStreams).countP (fun k => (sess.streams k).active) ≤ 16 :=
      List.countP_le_length
    rw [RelaySession.StreamCount] at count ⊢
    rw [hupdate, hcount]
    cases ha : (sess.streams (streamId host pkt)).active with
    | false =>
      have e1 : (1 : UInt32).toNat = 1 := rfl
      rw [ha, Bool.toNat_false, Bool.toNat_true] at hsum
      rw [if_neg Bool.false_ne_true, UInt32.toNat_add, e1]
      omega
    | true =>
      rw [ha] at hsum
      rw [if_pos rfl]
      omega
  · rw [countPacket_of_not_lt h]
    exact count

end CountPacket

section Streams
variable {host : Endian} {srv srv' : RelayServer} {op : RelayOp}

/-- What a call keeps of every session, if counting a packet keeps it. -/
lemma Counts.forall_sessions {P : RelaySession → Prop} (counts : Counts host srv op srv')
    (hzero : P .zero) (hcongr : ∀ {sess sess'}, P sess → SameCounters sess sess' → P sess')
    (hcount : op.sent host srv = true → ∀ {sess} now', P sess →
      P (sess.countPacket host now' op.packet))
    (hP : ∀ i, P (srv.sessions i)) : ∀ i, P (srv'.sessions i) := by
  intro j
  cases counts with
  | sent i sess now' hsent _ _ counters hsessions _ _ =>
    rw [hsessions]
    by_cases hj : j = i
    · subst hj
      rw [update_self]
      exact hcount hsent now' (hcongr (hP j) counters)
    · rw [update_of_ne hj]
      exact hP j
  | other _ hsessions _ _ =>
    obtain same | same := hsessions j
    · exact hcongr (hP j) same
    · exact hcongr hzero same

/-- An operation keeps the count. -/
lemma streamCount_apply (h : op.apply host srv = some srv')
    (hP : ∀ i, (srv.sessions i).StreamCount) :
    ∀ i, (srv'.sessions i).StreamCount :=
  (RelayOp.counts h).forall_sessions RelaySession.StreamCount.zero RelaySession.StreamCount.congr
    (fun _ _ _ => RelaySession.StreamCount.countPacket) hP

/-- An operation without packets of no stream. -/
lemma streamsAgree_apply (h : op.apply host srv = some srv') (hcounted : op.counted host srv = true)
    (hP : ∀ i, (srv.sessions i).StreamsAgree) : ∀ i, (srv'.sessions i).StreamsAgree := by
  refine (RelayOp.counts h).forall_sessions RelaySession.StreamsAgree.zero
    RelaySession.StreamsAgree.congr ?_ hP
  intro hsent sess now' agree
  rw [RelayOp.counted, hsent, Bool.not_true, Bool.false_or, decide_eq_true_eq] at hcounted
  exact agree.countPacket hcounted

/-- A call that sends a packet of no stream leaves a session in use whose counters disagree. -/
lemma not_streamsAgree_apply (h : op.apply host srv = some srv')
    (hcounted : op.counted host srv = false) (hP : ∀ i, (srv.sessions i).StreamsAgree) :
    ∃ i, srv'.active i = true ∧ ¬ (srv'.sessions i).StreamsAgree := by
  rw [RelayOp.counted, Bool.or_eq_false_iff, Bool.not_eq_false',
    decide_eq_false_iff_not] at hcounted
  cases RelayOp.counts h with
  | sent i sess now' hsent hactive same counters hsessions _ _ =>
    have hself : srv'.sessions i = sess.countPacket host now' op.packet := by
      rw [hsessions, update_self]
    refine ⟨i, ?_, ?_⟩
    · rw [RelayServer.active, hself, countPacket_of_not_lt hcounted.2]
      exact same.active.trans hactive
    · rw [hself]
      exact ((hP i).congr counters).not_countPacket hcounted.2
  | other hsent _ _ _ => exact absurd hcounted.1 (by rw [hsent]; exact Bool.false_ne_true)

end Streams

/-- After every run from a new server `stream_count` is the number of active streams of every
session in use. While every packet that is sent has a stream id below `RC_RELAY_MAX_STREAMS`, the
bytes and packets of every session in use are the sums over its streams; the next call keeps this
exactly if it sends no packet with another stream id. -/
theorem relay_streams_agree_iff (host : Endian) (maxSessions : UInt32) (ops : List RelayOp)
    (srv : RelayServer) (hrun : relayRun host (relayCreate maxSessions) ops = some srv) :
    (∀ i, srv.active i = true → (srv.sessions i).StreamCount) ∧
    (Along (RelayOp.apply host) (fun s op => op.counted host s = true) (relayCreate maxSessions)
      ops →
      (∀ i, srv.active i = true → (srv.sessions i).StreamsAgree) ∧
      ∀ (op : RelayOp) srv', op.apply host srv = some srv' →
        ((∀ i, srv'.active i = true → (srv'.sessions i).StreamsAgree) ↔
          op.counted host srv = true)) := by
  have hcount : ∀ i, (srv.sessions i).StreamCount :=
    run_invariant (P := fun s : RelayServer => ∀ i, (s.sessions i).StreamCount)
      (fun hs h => streamCount_apply h hs) (fun _ => RelaySession.StreamCount.zero) hrun
  refine ⟨fun i _ => hcount i, fun along => ?_⟩
  have hagree : ∀ i, (srv.sessions i).StreamsAgree :=
    along.invariant (P := fun s : RelayServer => ∀ i, (s.sessions i).StreamsAgree)
      (fun hs hc h => streamsAgree_apply h hc hs) (fun _ => RelaySession.StreamsAgree.zero) hrun
  refine ⟨fun i _ => hagree i, fun op srv' h => ⟨fun hafter => ?_, fun hc i _ => ?_⟩⟩
  · by_contra hc
    obtain ⟨i, hactive, hnot⟩ := not_streamsAgree_apply h (Bool.eq_false_of_not_eq_true hc) hagree
    exact hnot (hafter i hactive)
  · exact streamsAgree_apply h hc hagree i

/-- Two packets of stream 1. -/
theorem relay_streams_agree_sample :
    ∃ srv, relayRun .little (relayCreate 1) sentOps = some srv ∧
      ∀ i, srv.active i = true → (srv.sessions i).StreamsAgree := by
  obtain ⟨srv, hrun⟩ : ∃ srv, relayRun .little (relayCreate 1) sentOps = some srv := ⟨_, rfl⟩
  exact ⟨srv, hrun, ((relay_streams_agree_iff .little 1 sentOps srv hrun).2 (by decide +kernel)).1⟩

/-- A packet of 32 bytes with `RC_FLAG_RELIABLE` is counted in the session, and in none
of its streams. -/
theorem reliable_packet_not_in_stream :
    (relayRun .little (relayCreate 1)
        (onePacketOps (hdrBytes .little { sampleHdr with flags := flagReliable }))).map
      (fun srv => ((srv.sessions 0).active, (srv.sessions 0).bytesForwarded,
        (srv.sessions 0).pktsForwarded, (srv.sessions 0).streamSum (·.bytesForwarded),
        (srv.sessions 0).streamSum (·.pktsForwarded))) =
      some (true, 32, 1, 0, 0) := by
  decide +kernel

end RoboControl.Relay
