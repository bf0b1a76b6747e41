import RoboControl.Base.Bytes

/-!
# Packet header

Model of the header part of `src/core/rc_proto.c` and `include/rc_proto.h`: the 32-byte header
`PktHdr` (C `rc_pkt_hdr_t`), its initialisation `hdrInit` (C `rc_hdr_init`), and its serialisation
`hdrPack`/`hdrUnpack` (C `rc_hdr_pack`/`rc_hdr_unpack`). The byte order of the host is a parameter.
C's `htons`/`htonl` reverse bytes on a little-endian host and do nothing on a big-endian one;
`htonll`/`ntohll` are the file's own and swap the two halves on every host.

`rc_hdr_pack` reads the header through a pointer that a caller may let overlap the destination, so
`hdrPackVia` takes the header as a view of the destination's current contents; `hdrPack` is the case
of a header that lies elsewhere. `hdrPack_eq` gives the packed bytes as one concatenation, and
`hdrPackVia_frame` what the overlapping case keeps and what it makes of the magic.
-/

namespace RoboControl.Proto
open Base

/-! ## Constants -/

/-- Magic bytes of a packet (C `RC_MAGIC`). -/
def rcMagic : UInt32 := 0x524F424F

/-- Protocol version (C `RC_PROTO_VERSION`). -/
def protoVersion : UInt16 := 1

/-- Maximum payload size (C `RC_MAX_PAYLOAD`). -/
def maxPayload : Nat := 1400

/-- Size of the packet header (C `RC_HEADER_SIZE`). -/
def headerSize : Nat := 32

/-- Packet types (C `rc_pkt_type_t`). -/
inductive PktType where
  | hello
  | helloAck
  | data
  | ack
  | nack
  | ping
  | pong
  | relayReq
  | relayAck
  | authReq
  | authAck
  | fin
  deriving DecidableEq, Repr

/-- The code of a packet type on the wire. -/
def PktType.code : PktType → UInt16
  | .hello => 0x0001
  | .helloAck => 0x0002
  | .data => 0x0003
  | .ack => 0x0004
  | .nack => 0x0005
  | .ping => 0x0006
  | .pong => 0x0007
  | .relayReq => 0x0008
  | .relayAck => 0x0009
  | .authReq => 0x000A
  | .authAck => 0x000B
  | .fin => 0x00FF

/-- FIN acknowledgement (C `RC_FLAG_FIN_ACK`). -/
def flagFinAck : UInt16 := (1 : UInt16) <<< 3

/-- Delivery guaranteed (C `RC_FLAG_RELIABLE`). -/
def flagReliable : UInt16 := (1 : UInt16) <<< 4

/-! ## Header -/

/-- The packet header (C `rc_pkt_hdr_t`). -/
@[ext]
structure PktHdr where
  magic : UInt32
  version : UInt16
  type : UInt16
  seq : UInt32
  ack : UInt32
  timestamp : UInt64
  payloadLen : UInt16
  flags : UInt16
  connId : UInt32
  deriving DecidableEq

/-- A header with default values (C `rc_hdr_init`). -/
def hdrInit (type : PktType) (seq conn : UInt32) : PktHdr where
  magic := rcMagic
  version := protoVersion
  type := type.code
  seq := seq
  ack := 0
  timestamp := 0
  payloadLen := 0
  flags := 0
  connId := conn

/-- Host to network order of 16 bits (C `htons`, and `ntohs`). -/
def htons (host : Endian) (x : UInt16) : UInt16 := UInt16.ofNat (hton host 2 x.toNat)

/-- Host to network order of 32 bits (C `htonl`, and `ntohl`). -/
def htonl (host : Endian) (x : UInt32) : UInt32 := UInt32.ofNat (hton host 4 x.toNat)

/-- Host to network order of 64 bits, as the file defines it (C `htonll`, and `ntohll`). -/
def htonll (host : Endian) (val : UInt64) : UInt64 :=
  ((htonl host val.toUInt32).toUInt64 <<< 32) ||| (htonl host (val >>> 32).toUInt32).toUInt64

/-- Serialise the header that `hdr` reads from the current contents of `dst` (C `rc_hdr_pack`). -/
def hdrPackVia (host : Endian) (hdr : List UInt8 → PktHdr) (dst : List UInt8) : List UInt8 :=
  let dst := writeAt 0 (store host 4 (htonl host (hdr dst).magic).toNat) dst
  let dst := writeAt 4 (store host 2 (htons host (hdr dst).version).toNat) dst
  let dst := writeAt 6 (store host 2 (htons host (hdr dst).type).toNat) dst
  let dst := writeAt 8 (store host 4 (htonl host (hdr dst).seq).toNat) dst
  let dst := writeAt 12 (store host 4 (htonl host (hdr dst).ack).toNat) dst
  let dst := writeAt 16 (store host 8 (htonll host (hdr dst).timestamp).toNat) dst
  let dst := writeAt 24 (store host 2 (htons host (hdr dst).payloadLen).toNat) dst
  let dst := writeAt 26 (store host 2 (htons host (hdr dst).flags).toNat) dst
  writeAt 28 (store host 4 (htonl host (hdr dst).connId).toNat) dst

/-- Serialise a header that does not overlap the destination (C `rc_hdr_pack`). -/
def hdrPack (host : Endian) (dst : List UInt8) (hdr : PktHdr) : List UInt8 :=
  hdrPackVia host (fun _ => hdr) dst

/-- The integer in memory at an offset of a buffer. -/
def readField (host : Endian) (off w : Nat) (buf : List UInt8) : Nat := load host (readAt off w buf)

/-- The header a packed struct pointer to a buffer sees (C `(rc_pkt_hdr_t *)buf`). -/
def PktHdr.ofMem (host : Endian) (buf : List UInt8) : PktHdr where
  magic := UInt32.ofNat (readField host 0 4 buf)
  version := UInt16.ofNat (readField host 4 2 buf)
  type := UInt16.ofNat (readField host 6 2 buf)
  seq := UInt32.ofNat (readField host 8 4 buf)
  ack := UInt32.ofNat (readField host 12 4 buf)
  timestamp := UInt64.ofNat (readField host 16 8 buf)
  payloadLen := UInt16.ofNat (readField host 24 2 buf)
  flags := UInt16.ofNat (readField host 26 2 buf)
  connId := UInt32.ofNat (readField host 28 4 buf)

/-- The header fields converted from network order. -/
def PktHdr.ntoh (host : Endian) (h : PktHdr) : PktHdr where
  magic := htonl host h.magic
  version := htons host h.version
  type := htons host h.type
  seq := htonl host h.seq
  ack := htonl host h.ack
  timestamp := htonll host h.timestamp
  payloadLen := htons host h.payloadLen
  flags := htons host h.flags
  connId := htonl host h.connId

/-- Deserialise a header and check magic and version (C `rc_hdr_unpack`). -/
def hdrUnpack (host : Endian) (src : List UInt8) : Int × PktHdr :=
  let hdr := (PktHdr.ofMem host src).ntoh host
  if hdr.magic ≠ rcMagic then (-1, hdr)
  else if hdr.version ≠ protoVersion then (-1, hdr)
  else (0, hdr)

/-- The fields are converted whether or not the checks pass. -/
lemma hdrUnpack_snd (host : Endian) (src : List UInt8) :
    (hdrUnpack host src).2 = (PktHdr.ofMem host src).ntoh host := by
  rw [hdrUnpack]
  split
  · rfl
  · split <;> rfl

/-- A header is accepted exactly for the protocol's magic and version. -/
lemma hdrUnpack_eq_zero_iff (host : Endian) (src : List UInt8) :
    (hdrUnpack host src).1 = 0 ↔
      (hdrUnpack host src).2.magic = rcMagic ∧ (hdrUnpack host src).2.version = protoVersion := by
  rw [hdrUnpack_snd, hdrUnpack]
  split
  · rename_i hm
    exact ⟨fun h => (Int.noConfusion h), fun h => absurd h.1 hm⟩
  · rename_i hm
    split
    · rename_i hv
      exact ⟨fun h => (Int.noConfusion h), fun h => absurd h.2 hv⟩
    · rename_i hv
      exact ⟨fun _ => ⟨not_not.mp hm, not_not.mp hv⟩, fun _ => rfl⟩

/-! ## Byte-order conversions -/

/-- Two bytes in network order. -/
lemma store_htons (host : Endian) (x : UInt16) :
    store host 2 (htons host x).toNat = store .big 2 x.toNat := by
  have h : hton host 2 x.toNat < 2 ^ 16 := hton_lt (w := 2) x.toNat_lt
  rw [htons, UInt16.toNat_ofNat', Nat.mod_eq_of_lt h, store_hton]

/-- Four bytes in network order. -/
lemma store_htonl (host : Endian) (x : UInt32) :
    store host 4 (htonl host x).toNat = store .big 4 x.toNat := by
  have h : hton host 4 x.toNat < 2 ^ 32 := hton_lt (w := 4) x.toNat_lt
  rw [htonl, UInt32.toNat_ofNat', Nat.mod_eq_of_lt h, store_hton]

/-- Twice is not at all. -/
lemma htons_htons (host : Endian) (x : UInt16) : htons host (htons host x) = x := by
  have h : hton host 2 x.toNat < 2 ^ 16 := hton_lt (w := 2) x.toNat_lt
  apply UInt16.toNat_inj.mp
  rw [htons, htons, UInt16.toNat_ofNat', UInt16.toNat_ofNat', Nat.mod_eq_of_lt h,
    hton_hton host (w := 2) x.toNat_lt]
  exact Nat.mod_eq_of_lt x.toNat_lt

/-- Twice is not at all. -/
lemma htonl_htonl (host : Endian) (x : UInt32) : htonl host (htonl host x) = x := by
  have h : hton host 4 x.toNat < 2 ^ 32 := hton_lt (w := 4) x.toNat_lt
  apply UInt32.toNat_inj.mp
  rw [htonl, htonl, UInt32.toNat_ofNat', UInt32.toNat_ofNat', Nat.mod_eq_of_lt h,
    hton_hton host (w := 4) x.toNat_lt]
  exact Nat.mod_eq_of_lt x.toNat_lt

/-- The shift and the `or` of `htonll` put two 32-bit halves together. -/
lemma toNat_halves (a b : UInt32) :
    ((a.toUInt64 <<< 32) ||| b.toUInt64).toNat = b.toNat + 256 ^ 4 * a.toNat := by
  have ha := a.toNat_lt
  have hb := b.toNat_lt
  have hs : (a.toUInt64 <<< 32).toNat = a.toNat <<< 32 := by
    rw [UInt64.toNat_shiftLeft, UInt32.toNat_toUInt64]
    have e : UInt64.toNat 32 % 64 = 32 := rfl
    rw [e, Nat.shiftLeft_eq]
    exact Nat.mod_eq_of_lt (by omega)
  rw [UInt64.toNat_or, hs, UInt32.toNat_toUInt64, ← Nat.shiftLeft_add_eq_or_of_lt hb,
    Nat.shiftLeft_eq]
  omega

/-- The bytes of a 64-bit value converted by `htonll` on a little-endian host. -/
lemma store_htonll_little (x : UInt64) :
    store .little 8 (htonll .little x).toNat = store .big 8 x.toNat := by
  have hx := x.toNat_lt
  have hlo : x.toUInt32.toNat = x.toNat % 256 ^ 4 := UInt64.toNat_toUInt32 x
  have hhi : (x >>> 32).toUInt32.toNat = x.toNat / 256 ^ 4 := by
    have e : UInt64.toNat 32 % 64 = 32 := rfl
    rw [UInt64.toNat_toUInt32, UInt64.toNat_shiftRight, e, Nat.shiftRight_eq_div_pow]
    omega
  have hb : (htonl .little (x >>> 32).toUInt32).toNat < 256 ^ 4 :=
    (htonl .little (x >>> 32).toUInt32).toNat_lt
  have e1 := store_htonl .little x.toUInt32
  have e2 := store_htonl .little (x >>> 32).toUInt32
  simp only [store] at e1 e2 ⊢
  rw [htonll, toNat_halves, leBytes_add 4 4 (_ + _), leBytes_add 4 4 x.toNat, List.reverse_append]
  congr 1
  · rw [← leBytes_mod, Nat.add_mul_mod_self_left, leBytes_mod, e2, hhi]
  · rw [Nat.add_mul_div_left _ _ (by decide), Nat.div_eq_of_lt hb, Nat.zero_add, e1, hlo,
      leBytes_mod]

/-! ## Packed bytes -/

/-- The 32 bytes a header is serialised to, field by field. -/
def hdrBytes (host : Endian) (h : PktHdr) : List UInt8 :=
  store .big 4 h.magic.toNat ++ store .big 2 h.version.toNat ++ store .big 2 h.type.toNat ++
    store .big 4 h.seq.toNat ++ store .big 4 h.ack.toNat ++
    store host 8 (htonll host h.timestamp).toNat ++ store .big 2 h.payloadLen.toNat ++
    store .big 2 h.flags.toNat ++ store .big 4 h.connId.toNat

@[simp] lemma length_hdrBytes (host : Endian) (h : PktHdr) : (hdrBytes host h).length = 32 := by
  simp [hdrBytes]

/-- Packing overwrites the first 32 bytes of the destination with the header's bytes. -/
lemma hdrPack_eq (host : Endian) (dst : List UInt8) (h : PktHdr) :
    hdrPack host dst h = hdrBytes host h ++ dst.drop 32 := by
  simp only [hdrPack, hdrPackVia, store_htons, store_htonl]
  rw [writeAt_zero]
  iterate 8 rw [writeAt_append (by simp)]
  simp only [length_store, List.drop_drop]
  rfl

/-- A header is written over the buffer. -/
lemma hdrPack_of_length {host : Endian} {dst : List UInt8} (hl : dst.length = 32) (h : PktHdr) :
    hdrPack host dst h = hdrBytes host h := by
  rw [hdrPack_eq, List.drop_eq_nil_of_le (by omega), List.append_nil]

/-- The flags are read off the bytes. -/
lemma flags_eq_of_hdrBytes_eq {host : Endian} {g h : PktHdr}
    (e : hdrBytes host g = hdrBytes host h) :
    g.flags = h.flags := by
  have e1 := (List.append_inj' e (by simp)).1
  have e2 := (List.append_inj' e1 (by simp)).2
  apply UInt16.toNat_inj.mp
  exact store_inj g.flags.toNat_lt h.flags.toNat_lt e2

/-! ## Packing in place -/

/-- One write of `rc_hdr_pack` behind the magic keeps the length, the magic and the payload. -/
lemma writeAt_frame {off n : Nat} {bs buf m p : List UInt8} (ho : 4 ≤ off)
    (hw : off + bs.length ≤ 32) (hn : 32 ≤ n)
    (h : buf.length = n ∧ readAt 0 4 buf = m ∧ buf.drop 32 = p) :
    (writeAt off bs buf).length = n ∧ readAt 0 4 (writeAt off bs buf) = m ∧
      (writeAt off bs buf).drop 32 = p := by
  obtain ⟨hl, hm, hp⟩ := h
  have hb : off + bs.length ≤ buf.length := by omega
  refine ⟨(length_writeAt hb).trans hl, ?_, (drop_writeAt hb hw).trans hp⟩
  exact (readAt_writeAt_of_disjoint hb (.inl ho)).trans hm

/-- Packing keeps the length and the payload of a packet, and writes the magic the view shows. -/
lemma hdrPackVia_frame (host : Endian) (hdr : List UInt8 → PktHdr) {buf : List UInt8}
    (hl : 32 ≤ buf.length) :
    (hdrPackVia host hdr buf).length = buf.length ∧
      readAt 0 4 (hdrPackVia host hdr buf) = store host 4 (htonl host (hdr buf).magic).toNat ∧
      (hdrPackVia host hdr buf).drop 32 = buf.drop 32 := by
  rw [hdrPackVia]
  iterate 8 refine writeAt_frame (by decide) (by simp) hl ?_
  have hb : 0 + (store host 4 (htonl host (hdr buf).magic).toNat).length ≤ buf.length := by
    rw [length_store]; omega
  refine ⟨length_writeAt hb, readAt_writeAt_same (by simp) (by omega), drop_writeAt hb ?_⟩
  rw [length_store]
  decide

end RoboControl.Proto
