import RoboControl.Proto.Header
import Mathlib.Logic.Function.Basic

/-!
# Relay forwarding

Model of the forwarding path of `src/core/rc_relay.c`: the relay server `RelayServer` (C
`rc_relay_server_t`) with its routing table, the bandwidth check `bwCheck` (C `bw_check`) and
`relayForward` (C `rc_relay_forward`). The chains of the routing table are lists, and a route names
its session by its index in the session array. The two readings of the clock and the outcome of
`sendto` are arguments.

`rc_relay_forward` rewrites the connection id by a struct pointer into the datagram, whose fields
are in network order, and then serialises the struct onto itself. On a little-endian host this
reverses the bytes of every other field: `relay_datagram_rejected` shows that no receiver accepts
the datagram.
-/

namespace RoboControl.Relay
open Base Proto

/-! ## State -/

/-- Maximum streams per session (C `RC_RELAY_MAX_STREAMS`). -/
def relayMaxStreams : Nat := 16

/-- Routing table buckets (C `RC_RELAY_ROUTE_BUCKETS`). -/
def relayRouteBuckets : Nat := 65537

/-- Bandwidth accounting interval (C `RC_RELAY_BW_INTERVAL_SEC`). -/
def relayBwIntervalSec : UInt64 := 1

/-- A socket address: the bytes that `sendto` gets. -/
abbrev SockAddr := List UInt8

/-- Per-stream statistics (C `rc_relay_stream_t`). -/
structure RelayStream where
  streamId : UInt32
  bytesForwarded : UInt64
  pktsForwarded : UInt64
  active : Bool

/-- A session between two endpoints (C `rc_relay_session_t`). -/
structure RelaySession where
  sessionId : UInt32
  ingressConnId : UInt32
  egressConnId : UInt32
  ingressAddr : SockAddr
  egressAddr : SockAddr
  relayFd : Int
  streams : Nat → RelayStream
  streamCount : UInt32
  bwBytesThisSec : UInt64
  bwLimitBps : UInt64
  bwWindowStartMs : UInt64
  active : Bool
  createdMs : UInt64
  lastActivityMs : UInt64
  bytesForwarded : UInt64
  pktsForwarded : UInt64
  bytesDropped : UInt64

/-- A routing table entry (C `rc_relay_route_t`). -/
structure RelayRoute where
  connId : UInt32
  session : Nat
  isIngress : Bool
  deriving DecidableEq

/-- Relay server state (C `rc_relay_server_t`). -/
structure RelayServer where
  routes : Nat → List RelayRoute
  sessions : Nat → RelaySession
  sessionCount : UInt32
  maxSessions : UInt32
  totalForwarded : UInt64
  totalDropped : UInt64
  totalSessions : UInt64

/-- Hash of a connection id (C `relay_hash`). -/
def relayHash (key : UInt32) : UInt32 :=
  let h : UInt32 := 2166136261
  let h := (h ^^^ (key >>> 16)) * 16777619
  (h ^^^ (key &&& 0xFFFF)) * 16777619

/-- The first route of a connection id (C `route_lookup`). -/
def routeLookup (srv : RelayServer) (connId : UInt32) : Option RelayRoute :=
  (srv.routes ((relayHash connId).toNat % relayRouteBuckets)).find? (·.connId = connId)

/-- Replace a session. -/
def RelayServer.setSession (srv : RelayServer) (i : Nat) (sess : RelaySession) : RelayServer :=
  { srv with sessions := Function.update srv.sessions i sess }

/-! ## Forwarding -/

/-- Account a packet, or refuse it (C `bw_check`). -/
def bwCheck (now : UInt64) (sess : RelaySession) (pktLen : UInt32) : Bool × RelaySession :=
  let sess :=
    if now - sess.bwWindowStartMs ≥ relayBwIntervalSec * 1000 then
      { sess with bwBytesThisSec := 0, bwWindowStartMs := now }
    else sess
  if sess.bwBytesThisSec + pktLen.toUInt64 > sess.bwLimitBps then
    (false, { sess with bytesDropped := sess.bytesDropped + pktLen.toUInt64 })
  else (true, { sess with bwBytesThisSec := sess.bwBytesThisSec + pktLen.toUInt64 })

/-- What `sendto` is called with. -/
structure Datagram where
  fd : Int
  dst : SockAddr
  bytes : List UInt8

/-- The forwarded packet: the id is written in host order, then the header is packed in place. -/
def rewriteConnId (host : Endian) (connId : UInt32) (pkt : List UInt8) : List UInt8 :=
  hdrPackVia host (PktHdr.ofMem host) (writeAt 28 (store host 4 connId.toNat) pkt)

/-- Count a forwarded packet for its stream, which the low byte of the flags names. -/
def RelaySession.countStream (sess : RelaySession) (flags : UInt16) (pktLen : Nat) : RelaySession :=
  let streamId := (flags &&& 0x00FF).toNat
  if streamId < relayMaxStreams then
    let s := sess.streams streamId
    let sess := if s.active = false then { sess with streamCount := sess.streamCount + 1 } else sess
    let s :=
      if s.active = false then { s with streamId := streamId.toUInt32, active := true } else s
    let s := { s with
      bytesForwarded := s.bytesForwarded + pktLen.toUInt64, pktsForwarded := s.pktsForwarded + 1 }
    { sess with streams := Function.update sess.streams streamId s }
  else sess

/-- Forward a packet (C `rc_relay_forward`): the indices of `fwd_buf` that the copy writes, the
code, the server, and the datagram handed to `sendto`. -/
def relayForwardTraced (host : Endian) (srv : RelayServer) (pkt : List UInt8) (now now' : UInt64)
    (sent : Bool) : List Nat × Int × RelayServer × Option Datagram :=
  if pkt.length < headerSize then ([], -1, srv, none)
  else
    let (ret, hdr) := hdrUnpack host pkt
    if ret ≠ 0 then ([], -1, srv, none)
    else
      match routeLookup srv hdr.connId with
      | none => ([], -2, srv, none)
      | some route =>
        let sess := srv.sessions route.session
        if sess.active = false then ([], -2, srv, none)
        else
          let (ok, sess) := bwCheck now sess pkt.length.toUInt32
          let srv := srv.setSession route.session sess
          if ok = false then ([], -1, srv, none)
          else
            -- `memcpy(fwd_buf, pkt, pkt_len)`, without a check of the length.
            let writes := List.range pkt.length
            let datagram : Datagram := {
              fd := sess.relayFd
              dst := if route.isIngress then sess.egressAddr else sess.ingressAddr
              bytes := rewriteConnId host
                (if route.isIngress then sess.egressConnId else sess.ingressConnId) pkt }
            if sent = false then (writes, -1, srv, some datagram)
            else
              let sess := { sess with
                bytesForwarded := sess.bytesForwarded + pkt.length.toUInt64
                pktsForwarded := sess.pktsForwarded + 1
                lastActivityMs := now' }
              let srv := { srv with totalForwarded := srv.totalForwarded + pkt.length.toUInt64 }
              let sess := sess.countStream hdr.flags pkt.length
              (writes, 0, srv.setSession route.session sess, some datagram)

/-- The result of `rc_relay_forward`. It is `none` where the copy overruns the local buffer, which
holds one header and one payload. -/
def relayForward (host : Endian) (srv : RelayServer) (pkt : List UInt8) (now now' : UInt64)
    (sent : Bool) : Option (Int × RelayServer × Option Datagram) :=
  let (writes, result) := relayForwardTraced host srv pkt now now' sent
  if ∀ i ∈ writes, i < headerSize + maxPayload then some result else none

/-- The bytes that `bw_check` finds counted in the window at some time: none if a new
window starts. -/
def RelaySession.counted (sess : RelaySession) (now : UInt64) : UInt64 :=
  if now - sess.bwWindowStartMs ≥ relayBwIntervalSec * 1000 then 0 else sess.bwBytesThisSec

/-- `bw_check` admits a packet that the window has room for. -/
lemma bwCheck_fst_iff (now : UInt64) (sess : RelaySession) (pktLen : UInt32) :
    (bwCheck now sess pktLen).1 = true ↔
      sess.counted now + pktLen.toUInt64 ≤ sess.bwLimitBps := by
  rw [bwCheck, RelaySession.counted]
  split
  · split
    · next h => simpa using h
    · next h => simpa using h
  · split
    · next h => simpa using h
    · next h => simpa using h

section Copy
variable {host : Endian} {srv : RelayServer} {pkt : List UInt8} {now now' : UInt64} {sent : Bool}
  {r : Int × RelayServer × Option Datagram}

/-- A packet that is refused before the copy. -/
lemma relayForward_of_refused (h : relayForwardTraced host srv pkt now now' sent = ([], r)) :
    relayForward host srv pkt now now' sent = some r := by
  rw [relayForward, h]
  exact if_pos fun i hi => (List.not_mem_nil hi).elim

/-- A copy of `len` bytes stays within a buffer of `n` bytes. -/
lemma forall_mem_range_lt_iff {len n : Nat} : (∀ i ∈ List.range len, i < n) ↔ len ≤ n := by
  constructor
  · intro h
    by_contra hlt
    exact lt_irrefl n (h n (List.mem_range.mpr (not_le.mp hlt)))
  · exact fun h i hi => (List.mem_range.mp hi).trans_le h

/-- A packet that is copied. -/
lemma relayForward_of_copied
    (h : relayForwardTraced host srv pkt now now' sent = (List.range pkt.length, r)) :
    relayForward host srv pkt now now' sent =
      if headerSize + maxPayload < pkt.length then none else some r := by
  rw [relayForward, h]
  dsimp only
  split
  · next hfit => rw [if_neg (not_lt.mpr (forall_mem_range_lt_iff.mp hfit))]
  · next hlong => rw [if_pos (not_le.mp (mt forall_mem_range_lt_iff.mpr hlong))]

end Copy

/-! ## The forwarded header -/

/-- Overwriting the id leaves the length, the magic and the payload. -/
lemma writeConnId_frame (host : Endian) (connId : UInt32) {pkt : List UInt8}
    (hl : 32 ≤ pkt.length) :
    (writeAt 28 (store host 4 connId.toNat) pkt).length = pkt.length ∧
      readAt 0 4 (writeAt 28 (store host 4 connId.toNat) pkt) = readAt 0 4 pkt ∧
      (writeAt 28 (store host 4 connId.toNat) pkt).drop 32 = pkt.drop 32 :=
  writeAt_frame (by decide) (by simp) hl ⟨rfl, rfl, rfl⟩

/-- A receiver of a forwarded packet reads the bytes of the magic in host order. -/
lemma rewriteConnId_magic (host : Endian) (connId : UInt32) {pkt : List UInt8}
    (hl : 32 ≤ pkt.length) :
    (hdrUnpack host (rewriteConnId host connId pkt)).2.magic = (PktHdr.ofMem host pkt).magic := by
  obtain ⟨hlen, hid, -⟩ := writeConnId_frame host connId hl
  have hm := (hdrPackVia_frame host (PktHdr.ofMem host) (hl.trans_eq hlen.symm)).2.1
  have hview : (PktHdr.ofMem host (writeAt 28 (store host 4 connId.toNat) pkt)).magic =
      (PktHdr.ofMem host pkt).magic := by
    simp only [PktHdr.ofMem, readField, hid]
  have hlt : (htonl host (PktHdr.ofMem host pkt).magic).toNat < 256 ^ 4 := UInt32.toNat_lt _
  rw [hview] at hm
  rw [hdrUnpack_snd]
  show htonl host (UInt32.ofNat (load host (readAt 0 4 (rewriteConnId host connId pkt)))) = _
  rw [rewriteConnId, hm, load_store, Nat.mod_eq_of_lt hlt, UInt32.ofNat_toNat, htonl_htonl]

/-- What `rc_relay_forward` hands to `sendto` for an admitted packet. -/
lemma relayForward_datagram {host : Endian} {srv : RelayServer} {pkt : List UInt8} {now : UInt64}
    {route : RelayRoute} (now' : UInt64) (sent : Bool) (hlo : headerSize ≤ pkt.length)
    (hhi : pkt.length ≤ headerSize + maxPayload) (hunpack : (hdrUnpack host pkt).1 = 0)
    (hroute : routeLookup srv (hdrUnpack host pkt).2.connId = some route)
    (hactive : (srv.sessions route.session).active = true)
    (hbw : (bwCheck now (srv.sessions route.session) pkt.length.toUInt32).1 = true) :
    ∃ ret srv' datagram connId, relayForward host srv pkt now now' sent =
        some (ret, srv', some datagram) ∧
      datagram.bytes = rewriteConnId host connId pkt := by
  rw [relayForward, relayForwardTraced, if_neg (not_lt.mpr hlo)]
  simp only [hunpack, ne_eq, not_true_eq_false, if_false, hroute, hactive, hbw, Bool.true_eq_false]
  cases sent with
  | false => exact ⟨_, _, _, _, if_pos (forall_mem_range_lt_iff.mpr hhi), rfl⟩
  | true => exact ⟨_, _, _, _, if_pos (forall_mem_range_lt_iff.mpr hhi), rfl⟩

/-- On a little-endian host the datagram that `rc_relay_forward` sends for an admitted packet has
the packet's length and payload, and `rc_hdr_unpack` rejects it. -/
theorem relay_datagram_rejected (srv : RelayServer) (pkt : List UInt8) (now now' : UInt64)
    (sent : Bool) (route : RelayRoute) (hlo : headerSize ≤ pkt.length)
    (hhi : pkt.length ≤ headerSize + maxPayload) (hunpack : (hdrUnpack .little pkt).1 = 0)
    (hroute : routeLookup srv (hdrUnpack .little pkt).2.connId = some route)
    (hactive : (srv.sessions route.session).active = true)
    (hbw : (bwCheck now (srv.sessions route.session) pkt.length.toUInt32).1 = true) :
    ∃ ret srv' datagram, relayForward .little srv pkt now now' sent =
        some (ret, srv', some datagram) ∧
      datagram.bytes.length = pkt.length ∧ datagram.bytes.drop headerSize = pkt.drop headerSize ∧
      (hdrUnpack .little datagram.bytes).1 ≠ 0 := by
  obtain ⟨ret, srv', datagram, connId, e, hbytes⟩ :=
    relayForward_datagram now' sent hlo hhi hunpack hroute hactive hbw
  obtain ⟨hlen, -, hdrop⟩ := writeConnId_frame .little connId hlo
  obtain ⟨hlen', -, hdrop'⟩ :=
    hdrPackVia_frame .little (PktHdr.ofMem .little) (hlo.trans_eq hlen.symm)
  refine ⟨ret, srv', datagram, e, ?_, ?_, ?_⟩
  · rw [hbytes]
    exact hlen'.trans hlen
  · rw [hbytes]
    exact hdrop'.trans hdrop
  · -- The packet's magic is right after one byte swap, so the datagram's is right without one.
    have hm := ((hdrUnpack_eq_zero_iff .little pkt).mp hunpack).1
    rw [hdrUnpack_snd] at hm
    have hm' : (PktHdr.ofMem .little pkt).magic = htonl .little rcMagic := by
      rw [← hm]
      exact (htonl_htonl .little _).symm
    intro hok
    have hm'' := ((hdrUnpack_eq_zero_iff .little _).mp hok).1
    rw [hbytes, rewriteConnId_magic .little connId hlo, hm'] at hm''
    exact absurd hm'' (by decide)

/-- A data packet of connection 7 with a payload of two bytes. -/
def samplePkt : List UInt8 :=
  hdrPack .little (List.replicate 32 0) { hdrInit .data 5 7 with payloadLen := 2, flags := 1 } ++
    [104, 105]

/-- A stream that has not been used. -/
def sampleStream : RelayStream := ⟨0, 0, 0, false⟩

/-- A session that relays between connections 7 and 9. -/
def sampleSession : RelaySession where
  sessionId := 1
  ingressConnId := 7
  egressConnId := 9
  ingressAddr := [2, 0, 0, 80, 10, 0, 0, 1]
  egressAddr := [2, 0, 0, 80, 10, 0, 0, 2]
  relayFd := 5
  streams _ := sampleStream
  streamCount := 0
  bwBytesThisSec := 0
  bwLimitBps := 6553600
  bwWindowStartMs := 1000
  active := true
  createdMs := 1000
  lastActivityMs := 1000
  bytesForwarded := 0
  pktsForwarded := 0
  bytesDropped := 0

/-- A server with this session and its two routes. -/
def sampleServer : RelayServer where
  routes i :=
    (if i = (relayHash 7).toNat % relayRouteBuckets then [⟨7, 0, true⟩] else []) ++
      (if i = (relayHash 9).toNat % relayRouteBuckets then [⟨9, 0, false⟩] else [])
  sessions _ := sampleSession
  sessionCount := 1
  maxSessions := 1
  totalForwarded := 0
  totalDropped := 0
  totalSessions := 1

/-- The sample packet is sent on and then rejected. -/
theorem relay_datagram_rejected_sample :
    ∃ ret srv' datagram, relayForward .little sampleServer samplePkt 1500 1500 true =
        some (ret, srv', some datagram) ∧
      datagram.bytes.length = samplePkt.length ∧
      datagram.bytes.drop headerSize = samplePkt.drop headerSize ∧
      (hdrUnpack .little datagram.bytes).1 ≠ 0 :=
  relay_datagram_rejected sampleServer samplePkt 1500 1500 true ⟨7, 0, true⟩ (by decide +kernel)
    (by decide +kernel) (by decide +kernel) (by decide +kernel) (by decide +kernel)
      (by decide +kernel)

/-- The sample packet is accepted by `rc_hdr_unpack`; what is forwarded has connection id 9, every
other field with its bytes reversed, and is not accepted. -/
theorem relay_reverses_header :
    hdrUnpack .little samplePkt =
      (0, { hdrInit .data 5 7 with payloadLen := 2, flags := 1 }) ∧
    (relayForward .little sampleServer samplePkt 1500 1500 true).map
        (fun r => (r.1, r.2.2.map fun d => hdrUnpack .little d.bytes)) =
      some (0, some (-1, { magic := 0x4F424F52, version := 0x0100, type := 0x0300,
                           seq := 0x05000000,
                           ack := 0, timestamp := 0, payloadLen := 0x0200, flags := 0x0100,
                           connId := 9 })) := by
  decide +kernel

end RoboControl.Relay
