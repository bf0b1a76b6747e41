import RoboControl.Proto.Header

/-!
# Packet validation

Model of `pktValidate` (C `rc_pkt_validate`) of `src/core/rc_proto.c`.
-/

namespace RoboControl.Proto
open Base

/-- The packet types that a packet may have. -/
def knownTypes : List PktType :=
  [.hello, .helloAck, .data, .ack, .nack, .ping, .pong, .relayReq, .relayAck, .authReq, .authAck,
    .fin]

/-- Check a packet (C `rc_pkt_validate`): zero if it is well formed. -/
def pktValidate (host : Endian) (buf : List UInt8) : Int :=
  if buf.length < headerSize then -1
  else if (hdrUnpack host buf).1 ≠ 0 then -2
  else if (hdrUnpack host buf).2.payloadLen.toNat ≠ buf.length - headerSize then -3
  else if (hdrUnpack host buf).2.payloadLen.toNat > maxPayload then -4
  else if knownTypes.any (·.code = (hdrUnpack host buf).2.type) then 0
  else -5

/-- The header of a valid packet is accepted. -/
lemma hdrUnpack_of_pktValidate {host : Endian} {buf : List UInt8} (h : pktValidate host buf = 0) :
    (hdrUnpack host buf).1 = 0 := by
  rw [pktValidate] at h
  split at h
  · cases h
  · split at h
    · cases h
    · next hret => exact not_not.mp hret

/-- The magic that a reader of a packed header sees. -/
lemma magic_hdrPack {host : Endian} {dst : List UInt8} (hl : headerSize ≤ dst.length)
    (hdr : PktHdr) :
    htonl host (UInt32.ofNat (readField host 0 4 (hdrPack host dst hdr))) = hdr.magic := by
  have hread := (hdrPackVia_frame host (fun _ => hdr) hl).2.1
  have hlt : (htonl host hdr.magic).toNat < 256 ^ 4 := (htonl host hdr.magic).toNat_lt
  rw [readField, hdrPack, hread, load_store, Nat.mod_eq_of_lt hlt, UInt32.ofNat_toNat, htonl_htonl]

end RoboControl.Proto
