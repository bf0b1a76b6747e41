import RoboControl.Base.Words
import RoboControl.Proto.Crc

/-!
# Framed packets

Model of `rc_packet_encode` and `rc_packet_decode` of `include/proto.h` (`packetEncode`,
`packetDecode`). The fields are written through a packed structure of 18 bytes, in the host's byte
order, while the payload starts at offset 16; so `reserved2` is overwritten by the payload or the
checksum. What is written in the end is the header, the payload and the checksum of both
(`packetEncode_eq`), and that decodes to the fields given (`packet_round_trip`).
-/

namespace RoboControl.Framed
open Base Proto

/-- C `RC_PROTO_MAGIC`. -/
def protoMagic : UInt16 := 0x5243

/-- C `RC_PROTO_VERSION`. -/
def protoVersion : UInt8 := 1

/-- C `RC_PROTO_HEADER_SIZE`. -/
def protoHeaderSize : Nat := 16

/-- C `RC_PROTO_MAX_PAYLOAD`. -/
def protoMaxPayload : Nat := 65536

/-- C `RC_ERR_INVAL`. -/
def errInval : Int := -3

/-- C `RC_ERR_PROTO`. -/
def errProto : Int := -10

/-- The fields of a packet's header that a caller gives (of C `rc_packet_t`; the type is the
enumeration's integer). -/
structure Fields where
  type : UInt32
  flags : UInt8
  sessionId : UInt32
  seqNum : UInt32
  deriving DecidableEq

/-- The assignments to the fields of the structure, in their order. -/
def writeHeader (host : Endian) (f : Fields) (payloadLen : UInt16) (out : List UInt8) :
    List UInt8 :=
  let out := writeAt 0 [(protoMagic >>> 8).toUInt8] out
  let out := writeAt 1 [protoMagic.toUInt8] out
  let out := writeAt 2 [protoVersion] out
  let out := writeAt 3 [f.type.toUInt8] out
  let out := writeAt 4 [f.flags] out
  let out := writeAt 5 [0] out
  let out := writeAt 6 (store host 4 f.sessionId.toNat) out
  let out := writeAt 10 (store host 4 f.seqNum.toNat) out
  let out := writeAt 14 (store host 2 payloadLen.toNat) out
  writeAt 16 (store host 2 0) out

/-- The copy of the payload behind the header, if there is one; `none` is NULL. -/
def writePayload {payloadLen : UInt16} (payload : Option (Bytes payloadLen.toNat))
    (out : List UInt8) : List UInt8 :=
  match payload with
  | some p => if payloadLen > 0 then writeAt protoHeaderSize p.toList out else out
  | none => out

/-- Write a packet (C `rc_packet_encode`). -/
def packetEncode (host : Endian) (s : CrcStatics crc32HeaderTurn) (f : Fields) (payloadLen : UInt16)
    (payload : Option (Bytes payloadLen.toNat)) (out : List UInt8) : Int × List UInt8 :=
  let total := protoHeaderSize + payloadLen.toNat + 4
  if out.length < total ∨ payloadLen.toNat > protoMaxPayload then (errInval, out)
  else
    let out := writeHeader host f payloadLen out
    let out := writePayload payload out
    let crc := (crc32Header s (out.take (protoHeaderSize + payloadLen.toNat))).1
    let out := writeAt (protoHeaderSize + payloadLen.toNat) (store host 4 crc.toNat) out
    (total, out)

/-- What the decoder hands out; the payload is NULL or points behind the header. -/
structure Decoded extends Fields where
  payload : Option (List UInt8)
  payloadLen : UInt16
  deriving DecidableEq

/-- Read a packet (C `rc_packet_decode`). -/
def packetDecode (host : Endian) (s : CrcStatics crc32HeaderTurn) (data : List UInt8) :
    Except Int (Nat × Decoded) :=
  if data.length < protoHeaderSize then .error errProto
  else
    let magic := be16 (data.getD 0 0) (data.getD 1 0)
    if magic ≠ protoMagic then .error errProto
    else if data.getD 2 0 ≠ protoVersion then .error errProto
    else
      let plen := UInt16.ofNat (load host (readAt 14 2 data))
      let total := protoHeaderSize + plen.toNat + 4
      if data.length < total then .error errProto
      else if plen.toNat > protoMaxPayload then .error errProto
      else
        let expectedCrc := UInt32.ofNat (load host (readAt (protoHeaderSize + plen.toNat) 4 data))
        let actualCrc := (crc32Header s (data.take (protoHeaderSize + plen.toNat))).1
        if expectedCrc ≠ actualCrc then .error errProto
        else .ok (total,
          { type := (data.getD 3 0).toUInt32
            flags := data.getD 4 0
            sessionId := UInt32.ofNat (load host (readAt 6 4 data))
            seqNum := UInt32.ofNat (load host (readAt 10 4 data))
            payload := if plen > 0 then some (data.drop protoHeaderSize) else none
            payloadLen := plen })

/-! ## What is written -/

/-- The header of a packet. -/
def header (host : Endian) (f : Fields) (payloadLen : UInt16) : List UInt8 :=
  [0x52, 0x43, protoVersion, f.type.toUInt8, f.flags, 0] ++
    (store host 4 f.sessionId.toNat ++
      (store host 4 f.seqNum.toNat ++ store host 2 payloadLen.toNat))

/-- The packet that goes on the wire. -/
def frame (host : Endian) (s : CrcStatics crc32HeaderTurn) (f : Fields) (payloadLen : UInt16)
    (body : List UInt8) : List UInt8 :=
  header host f payloadLen ++ body ++
    store host 4 (crc32Header s (header host f payloadLen ++ body)).1.toNat

@[simp] lemma length_header (host : Endian) (f : Fields) (payloadLen : UInt16) :
    (header host f payloadLen).length = 16 := by
  simp [header]

lemma length_frame (host : Endian) (s : CrcStatics crc32HeaderTurn) (f : Fields)
    (payloadLen : UInt16) (body : List UInt8) :
    (frame host s f payloadLen body).length = 20 + body.length := by
  simp only [frame, List.length_append, length_header, length_store]
  omega

/-- The assignments write the header, with two more bytes behind it. -/
lemma writeHeader_eq (host : Endian) (f : Fields) (payloadLen : UInt16) (out : List UInt8) :
    writeHeader host f payloadLen out = header host f payloadLen ++
      (store host 2 0 ++ out.drop 18) := by
  simp (disch := simp) only [writeHeader, writeAt_zero, writeAt_append]
  simp only [header, List.append_assoc, List.drop_drop, length_store, List.length_singleton]
  rfl

lemma payloadLen_pos_iff (payloadLen : UInt16) : payloadLen > 0 ↔ payloadLen.toNat ≠ 0 :=
  UInt16.lt_iff_toNat_lt.trans Nat.pos_iff_ne_zero

/-- The payload overwrites what stands behind the header. -/
lemma writePayload_eq {payloadLen : UInt16} (payload : Option (Bytes payloadLen.toNat))
    {head rest : List UInt8} (hhead : head.length = protoHeaderSize)
    (hrest : payloadLen.toNat ≤ rest.length) :
    ∃ body : List UInt8, body.length = payloadLen.toNat ∧
      (∀ p, payload = some p → body = p.toList) ∧
      writePayload payload (head ++ rest) = head ++ body ++ rest.drop payloadLen.toNat := by
  cases payload with
  | none =>
    refine ⟨rest.take payloadLen.toNat, List.length_take_of_le hrest, ?_, ?_⟩
    · intro p hp
      cases hp
    · rw [writePayload, List.append_assoc, List.take_append_drop]
  | some p =>
    refine ⟨p.toList, p.length_toList, ?_, ?_⟩
    · intro q hq
      rw [Option.some.inj hq]
    · rw [writePayload]
      split
      case isTrue => rw [writeAt_append hhead, p.length_toList]
      case isFalse h0 =>
        rw [payloadLen_pos_iff, not_not] at h0
        have hnil : p.toList = [] := List.eq_nil_of_length_eq_zero (p.length_toList.trans h0)
        rw [hnil, h0, List.append_nil, List.drop_zero]

/-- A successful call leaves the packet at the start of the buffer, and the rest of the buffer as it
was. The body is the payload, if there is one. -/
lemma packetEncode_eq (host : Endian) (s : CrcStatics crc32HeaderTurn) (f : Fields)
    (payloadLen : UInt16) (payload : Option (Bytes payloadLen.toNat)) {out : List UInt8}
    (hout : payloadLen.toNat + 20 ≤ out.length) :
    ∃ body : List UInt8, body.length = payloadLen.toNat ∧
      (∀ p, payload = some p → body = p.toList) ∧
      packetEncode host s f payloadLen payload out =
        (((payloadLen.toNat + 20 : Nat) : Int), frame host s f payloadLen body ++ out.drop
          (payloadLen.toNat + 20)) := by
  have hsmall := payloadLen.toNat_lt
  have hroom : ¬ (out.length < protoHeaderSize + payloadLen.toNat + 4 ∨
    payloadLen.toNat > protoMaxPayload) := by
    rw [protoHeaderSize, protoMaxPayload]
    omega
  have hbehind : payloadLen.toNat ≤ (store host 2 0 ++ out.drop 18).length := by
    rw [List.length_append, length_store, List.length_drop]
    omega
  obtain ⟨body, hlen, hbody, hwrite⟩ := writePayload_eq payload (length_header host f payloadLen)
    hbehind
  refine ⟨body, hlen, hbody, ?_⟩
  have hfront : (header host f payloadLen ++ body).length = protoHeaderSize + payloadLen.toNat := by
    rw [List.length_append, length_header, hlen, protoHeaderSize]
  -- the checksum overwrites the rest of `reserved2`, if there is one
  have hrest : ((store host 2 0 ++ out.drop 18).drop payloadLen.toNat).drop 4 = out.drop
    (payloadLen.toNat + 20) := by
    rw [List.drop_drop, List.drop_append, length_store,
      List.drop_eq_nil_of_le (by rw [length_store]; omega), List.nil_append, List.drop_drop]
    congr 1
    omega
  have htotal : protoHeaderSize + payloadLen.toNat + 4 = payloadLen.toNat + 20 := by
    rw [protoHeaderSize]
    omega
  rw [htotal] at hroom
  simp only [packetEncode, writeHeader_eq, hwrite, List.take_left' hfront, writeAt_append hfront,
    length_store, hrest, htotal, frame]
  exact if_neg hroom

/-- What stands behind the first six bytes of a packet. -/
lemma readAt_header (host : Endian) (f : Fields) (payloadLen : UInt16) (off w : Nat)
    (rest : List UInt8) :
    readAt (6 + off) w (header host f payloadLen ++ rest) =
      readAt off w (store host 4 f.sessionId.toNat ++ (store host 4 f.seqNum.toNat ++
        (store host 2 payloadLen.toNat ++ rest))) := by
  rw [header, List.append_assoc, readAt_append_right (Nat.le_add_right 6 off), List.append_assoc,
    List.append_assoc]
  congr 1
  exact Nat.add_sub_cancel_left 6 off

lemma readAt_header_sessionId (host : Endian) (f : Fields) (payloadLen : UInt16)
    (rest : List UInt8) :
    readAt 6 4 (header host f payloadLen ++ rest) = store host 4 f.sessionId.toNat := by
  rw [readAt_header host f payloadLen 0, readAt_append_left (length_store _ _ _)]

lemma readAt_header_seqNum (host : Endian) (f : Fields) (payloadLen : UInt16) (rest : List UInt8) :
    readAt 10 4 (header host f payloadLen ++ rest) = store host 4 f.seqNum.toNat := by
  rw [readAt_header host f payloadLen 4, ← List.append_assoc]
  exact readAt_append (length_store _ _ _) (length_store _ _ _)

lemma readAt_header_payloadLen (host : Endian) (f : Fields) (payloadLen : UInt16)
    (rest : List UInt8) :
    readAt 14 2 (header host f payloadLen ++ rest) = store host 2 payloadLen.toNat := by
  rw [readAt_header host f payloadLen 8, ← List.append_assoc, ← List.append_assoc]
  exact readAt_append (by simp) (length_store _ _ _)

/-- Two bytes are read back. -/
lemma ofNat_load_store16 (host : Endian) (w : UInt16) :
    UInt16.ofNat (load host (store host 2 w.toNat)) = w := by
  rw [load_store, Nat.mod_eq_of_lt (show w.toNat < 256 ^ 2 from w.toNat_lt), UInt16.ofNat_toNat]

/-- Four bytes are read back. -/
lemma ofNat_load_store32 (host : Endian) (w : UInt32) :
    UInt32.ofNat (load host (store host 4 w.toNat)) = w := by
  rw [load_store, Nat.mod_eq_of_lt (show w.toNat < 256 ^ 4 from w.toNat_lt), UInt32.ofNat_toNat]

section Frame
variable (host : Endian) (s : CrcStatics crc32HeaderTurn) {f : Fields} {payloadLen : UInt16}
  {body : List UInt8}

/-- A packet is a header, the payload and the checksum. -/
lemma frame_append (extra : List UInt8) :
    frame host s f payloadLen body ++ extra = header host f payloadLen ++
      (body ++ (store host 4 (crc32Header s (header host f payloadLen ++ body)).1.toNat ++
        extra)) := by
  rw [frame, List.append_assoc, List.append_assoc]

lemma length_header_append (hlen : body.length = payloadLen.toNat) :
    (header host f payloadLen ++ body).length = protoHeaderSize + payloadLen.toNat := by
  rw [List.length_append, length_header, hlen, protoHeaderSize]

/-- The checksum of a frame. -/
lemma readAt_frame_checksum (hlen : body.length = payloadLen.toNat) (extra : List UInt8) :
    readAt (protoHeaderSize + payloadLen.toNat) 4 (frame host s f payloadLen body ++ extra) =
      store host 4 (crc32Header s (header host f payloadLen ++ body)).1.toNat :=
  readAt_append (length_header_append host hlen) (length_store _ _ _)

/-- The checksum covers what is before it. -/
lemma take_frame (hlen : body.length = payloadLen.toNat) (extra : List UInt8) :
    (frame host s f payloadLen body ++ extra).take (protoHeaderSize + payloadLen.toNat) =
      header host f payloadLen ++ body := by
  rw [frame, List.append_assoc]
  exact List.take_left' (length_header_append host hlen)

/-- What follows the header. -/
lemma drop_frame (extra : List UInt8) :
    (frame host s f payloadLen body ++ extra).drop protoHeaderSize =
      body ++ (store host 4 (crc32Header s (header host f payloadLen ++ body)).1.toNat ++
        extra) := by
  rw [frame_append]
  exact List.drop_left' (length_header _ _ _)

/-- The magic number and the version are those of the protocol. -/
lemma frame_marks (f : Fields) (payloadLen : UInt16) (body extra : List UInt8) :
    be16 ((frame host s f payloadLen body ++ extra).getD 0 0)
      ((frame host s f payloadLen body ++ extra).getD 1 0) =
      protoMagic ∧ (frame host s f payloadLen body ++ extra).getD 2 0 = protoVersion := by
  have hmagic : be16 0x52 0x43 = protoMagic := by decide
  rw [frame_append]
  exact ⟨hmagic, rfl⟩

/-- A type below 256 fits in its byte. -/
lemma type_toUInt8 (htype : f.type.toNat < 256) : f.type.toUInt8.toUInt32 = f.type := by
  rw [← UInt32.toNat_inj, UInt8.toNat_toUInt32, UInt32.toNat_toUInt8]
  omega

/-- The other fields are read back. -/
lemma frame_fields (htype : f.type.toNat < 256) (payloadLen : UInt16) (body extra : List UInt8) :
    ((frame host s f payloadLen body ++ extra).getD 3 0).toUInt32 = f.type ∧
    (frame host s f payloadLen body ++ extra).getD 4 0 = f.flags ∧
    UInt32.ofNat (load host (readAt 6 4 (frame host s f payloadLen body ++ extra))) = f.sessionId ∧
    UInt32.ofNat (load host (readAt 10 4 (frame host s f payloadLen body ++ extra))) = f.seqNum ∧
    UInt16.ofNat (load host (readAt 14 2 (frame host s f payloadLen body ++ extra))) =
      payloadLen := by
  rw [frame_append, readAt_header_sessionId, readAt_header_seqNum, readAt_header_payloadLen,
    ofNat_load_store32, ofNat_load_store32, ofNat_load_store16]
  exact ⟨type_toUInt8 htype, rfl, rfl, rfl, rfl⟩

/-- The checksum does not depend on the state of the table. -/
lemma crc32Header_eq (s s' : CrcStatics crc32HeaderTurn) (data : List UInt8) :
    (crc32Header s' data).1 = (crc32Header s data).1 :=
  UInt32.toBitVec_inj.mp ((toBitVec_crc32Header _ _).trans (toBitVec_crc32Header _ _).symm)

/-- The decoder takes a packet apart. -/
lemma packetDecode_frame (s' : CrcStatics crc32HeaderTurn) (htype : f.type.toNat < 256)
    (hlen : body.length = payloadLen.toNat) (extra : List UInt8) :
    packetDecode host s' (frame host s f payloadLen body ++ extra) = .ok (payloadLen.toNat + 20,
      { f with
        payload := if payloadLen > 0 then
          some (body ++ (store host 4 (crc32Header s (header host f payloadLen ++ body)).1.toNat ++
            extra)) else none
        payloadLen := payloadLen }) := by
  have hsmall := payloadLen.toNat_lt
  have htotal : protoHeaderSize + payloadLen.toNat + 4 = payloadLen.toNat + 20 := by
    rw [protoHeaderSize]
    omega
  have hlong : ¬ (frame host s f payloadLen body ++ extra).length < protoHeaderSize +
    payloadLen.toNat + 4 := by
    rw [List.length_append, length_frame, protoHeaderSize]
    omega
  have hshort : ¬ (frame host s f payloadLen body ++ extra).length < protoHeaderSize := by omega
  have hmax : ¬ payloadLen.toNat > protoMaxPayload := by
    rw [protoMaxPayload]
    omega
  obtain ⟨hmagic, hversion⟩ := frame_marks host s f payloadLen body extra
  obtain ⟨hftype, hfflags, hfsession, hfseq, hflen⟩ :=
    frame_fields host s htype payloadLen body extra
  rw [packetDecode, if_neg hshort]
  simp only [hmagic, hversion, hflen, readAt_frame_checksum host s hlen, take_frame host s hlen,
    drop_frame, hftype, hfflags, hfsession, hfseq, ofNat_load_store32, crc32Header_eq s s']
  rw [if_neg (not_not.mpr rfl), if_neg (not_not.mpr rfl), if_neg hlong, if_neg hmax,
    if_neg (not_not.mpr rfl), htotal]

end Frame

/-- The call fails exactly if the packet does not fit. -/
lemma packetEncode_neg_iff (host : Endian) (s : CrcStatics crc32HeaderTurn) (f : Fields)
    (payloadLen : UInt16) (payload : Option (Bytes payloadLen.toNat)) (out : List UInt8) :
    (packetEncode host s f payloadLen payload out).1 < 0 ↔ out.length < payloadLen.toNat + 20 := by
  by_cases hout : payloadLen.toNat + 20 ≤ out.length
  · obtain ⟨body, _, _, henc⟩ := packetEncode_eq host s f payloadLen payload hout
    rw [henc]
    omega
  · have hshort : out.length < protoHeaderSize + payloadLen.toNat + 4 := by
      rw [protoHeaderSize]
      omega
    rw [packetEncode, if_pos (Or.inl hshort)]
    exact iff_of_true (show errInval < 0 by decide) (by omega)

/-- What is handed out of the payload is as much of it as its length says. -/
lemma payload_handed_out {payloadLen : UInt16} {payload : Option (Bytes payloadLen.toNat)}
    {body : List UInt8} (hpayload : payloadLen.toNat ≠ 0 → payload ≠ none)
    (hlen : body.length = payloadLen.toNat) (hbody : ∀ p, payload = some p → body = p.toList)
    (rest : List UInt8) :
    (Option.getD (if payloadLen > 0 then some (body ++ rest) else none) []).take payloadLen.toNat =
      (payload.map Bytes.toList).getD [] := by
  by_cases hpos : payloadLen > 0
  · rw [if_pos hpos, Option.getD_some, List.take_left' hlen]
    cases payload with
    | none => exact absurd rfl (hpayload ((payloadLen_pos_iff payloadLen).mp hpos))
    | some p => exact hbody p rfl
  · have hzero := hpos
    rw [payloadLen_pos_iff, not_not] at hzero
    rw [if_neg hpos, Option.getD_none, List.take_nil]
    cases payload with
    | none => rfl
    | some p => exact (List.eq_nil_of_length_eq_zero (p.length_toList.trans hzero)).symm

/-- A packet decodes to what it was made of, whatever follows it, and it is made
exactly if it fits. -/
theorem packet_round_trip (host : Endian) (s s' : CrcStatics crc32HeaderTurn) (f : Fields)
    (payloadLen : UInt16) (payload : Option (Bytes payloadLen.toNat)) (out extra : List UInt8)
    (htype : f.type.toNat < 256) (hpayload : payloadLen.toNat ≠ 0 → payload ≠ none) :
    ((packetEncode host s f payloadLen payload out).1 < 0 ↔ out.length < payloadLen.toNat + 20) ∧
    (payloadLen.toNat + 20 ≤ out.length →
      (packetEncode host s f payloadLen payload out).1 = payloadLen.toNat + 20 ∧
      ∃ d : Decoded,
        packetDecode host s' ((packetEncode host s f payloadLen payload out).2.take
          (payloadLen.toNat + 20) ++ extra) =
          .ok (payloadLen.toNat + 20, d) ∧
        d.toFields = f ∧ d.payloadLen = payloadLen ∧ (d.payload = none ↔ payloadLen = 0) ∧
        (d.payload.getD []).take payloadLen.toNat = (payload.map Bytes.toList).getD []) := by
  refine ⟨packetEncode_neg_iff host s f payloadLen payload out, ?_⟩
  intro hout
  obtain ⟨body, hlen, hbody, henc⟩ := packetEncode_eq host s f payloadLen payload hout
  have hbytes : (packetEncode host s f payloadLen payload out).2.take (payloadLen.toNat + 20) =
      frame host s f payloadLen body := by
    rw [henc]
    refine List.take_left' ?_
    rw [length_frame, hlen, Nat.add_comm]
  rw [hbytes, packetDecode_frame host s s' htype hlen extra]
  refine ⟨?_, _, rfl, rfl, rfl, ?_, ?_⟩
  · rw [henc]
    rfl
  · show (if payloadLen > 0 then _ else none) = none ↔ _
    rw [ite_eq_right_iff, ← UInt16.toNat_inj, payloadLen_pos_iff]
    constructor
    · intro h
      by_contra hne
      cases h hne
    · intro hzero hpos
      exact absurd hzero hpos
  · exact payload_handed_out hpayload hlen hbody _

/-- A packet with one byte of payload. -/
theorem packet_round_trip_sample :
    ((packetEncode .little (CrcStatics.start _) ⟨0x10, 4, 7, 9⟩ 1 (some ⟨[0xAB], rfl⟩)
      (List.replicate 21 0)).1 = 21 ∧
      ∃ d : Decoded, packetDecode .little (CrcStatics.start _)
        ((packetEncode .little (CrcStatics.start _)
        ⟨0x10, 4, 7, 9⟩ 1 (some ⟨[0xAB], rfl⟩) (List.replicate 21 0)).2.take 21 ++ [1, 2]) =
          .ok (21, d) ∧
        d.toFields = ⟨0x10, 4, 7, 9⟩) := by
  obtain ⟨hlen, d, hdec, hf, _⟩ :=
    (packet_round_trip .little (CrcStatics.start _) (CrcStatics.start _) ⟨0x10, 4, 7, 9⟩ 1
      (some ⟨[0xAB], rfl⟩) (List.replicate 21 0) [1, 2] (by decide) (by decide)).2 (by decide)
  exact ⟨hlen, d, hdec, hf⟩

end RoboControl.Framed
