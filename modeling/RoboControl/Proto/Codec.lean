import RoboControl.Proto.Validate

/-!
# The header on the wire

What `rc_hdr_pack`, `rc_hdr_unpack` and `rc_pkt_validate` of `src/core/rc_proto.c` make of the
layout that `include/rc_proto.h` documents. `WireLayout bytes h` says that the nine fields of `h`
stand in network order at the documented offsets. A little-endian host packs a header to that
layout, reads it back from it, and accepts exactly the packets that begin with it
(`wire_header_codec`).

A big-endian host swaps the halves of the timestamp, since `htonll` does so on every host
(`timestampOnWire`). The two kinds of host agree on a header exactly if the halves of its timestamp
are equal (`wire_format_host_independent_iff`).
-/

namespace RoboControl.Proto
open Base

/-! ## The layout -/

/-- The fields of a header stand in network order at the documented offsets of a buffer. -/
structure WireLayout (bytes : List UInt8) (h : PktHdr) : Prop where
  magic : readAt 0 4 bytes = store .big 4 h.magic.toNat
  version : readAt 4 2 bytes = store .big 2 h.version.toNat
  type : readAt 6 2 bytes = store .big 2 h.type.toNat
  seq : readAt 8 4 bytes = store .big 4 h.seq.toNat
  ack : readAt 12 4 bytes = store .big 4 h.ack.toNat
  timestamp : readAt 16 8 bytes = store .big 8 h.timestamp.toNat
  payloadLen : readAt 24 2 bytes = store .big 2 h.payloadLen.toNat
  flags : readAt 26 2 bytes = store .big 2 h.flags.toNat
  connId : readAt 28 4 bytes = store .big 4 h.connId.toNat

/-- The timestamp that a host puts on the wire, or takes from it. -/
def timestampOnWire : Endian → UInt64 → UInt64
  | .little, t => t
  | .big, t => htonll .big t

/-- A header with the timestamp that a host puts on the wire. -/
def PktHdr.onWire (host : Endian) (h : PktHdr) : PktHdr :=
  { h with timestamp := timestampOnWire host h.timestamp }

/-! ## Conversions -/

/-- The lower half. -/
lemma toUInt32_halves (a b : UInt32) : ((a.toUInt64 <<< 32) ||| b.toUInt64).toUInt32 = b := by
  have hb := b.toNat_lt
  apply UInt32.toNat_inj.mp
  rw [UInt64.toNat_toUInt32, toNat_halves]
  omega

/-- The upper half. -/
lemma toUInt32_halves_shiftRight (a b : UInt32) :
    (((a.toUInt64 <<< 32) ||| b.toUInt64) >>> 32).toUInt32 = a := by
  have ha := a.toNat_lt
  have hb := b.toNat_lt
  have e : UInt64.toNat 32 % 64 = 32 := rfl
  apply UInt32.toNat_inj.mp
  rw [UInt64.toNat_toUInt32, UInt64.toNat_shiftRight, e, toNat_halves, Nat.shiftRight_eq_div_pow]
  omega

/-- A 64-bit value is put together from its halves. -/
lemma halves_eq (x : UInt64) : ((x >>> 32).toUInt32.toUInt64 <<< 32) ||| x.toUInt32.toUInt64 =
    x := by
  have hx := x.toNat_lt
  have e : UInt64.toNat 32 % 64 = 32 := rfl
  apply UInt64.toNat_inj.mp
  rw [toNat_halves, UInt64.toNat_toUInt32, UInt64.toNat_toUInt32, UInt64.toNat_shiftRight, e,
    Nat.shiftRight_eq_div_pow]
  omega

/-- Twice is not at all. -/
lemma htonll_htonll (host : Endian) (x : UInt64) : htonll host (htonll host x) = x := by
  rw [htonll, htonll, toUInt32_halves, toUInt32_halves_shiftRight, htonl_htonl, htonl_htonl,
    halves_eq]

/-- A big-endian host exchanges the halves, so a value stays only if they are equal. -/
lemma htonll_big_eq_self_iff (x : UInt64) :
    htonll .big x = x ↔ x.toUInt32 = (x >>> 32).toUInt32 := by
  have hid (y : UInt32) : htonl .big y = y := UInt32.ofNat_toNat
  rw [htonll, hid, hid]
  constructor
  · intro h
    have hlo := congrArg UInt64.toUInt32 h
    rw [toUInt32_halves] at hlo
    exact hlo.symm
  · intro h
    conv_rhs => rw [← halves_eq x]
    rw [← h]

/-- Twice is not at all. -/
lemma timestampOnWire_timestampOnWire (host : Endian) (t : UInt64) :
    timestampOnWire host (timestampOnWire host t) = t := by
  cases host with
  | little => rfl
  | big => exact htonll_htonll .big t

/-- How a timestamp is stored. -/
lemma store_htonll (host : Endian) (t : UInt64) :
    store host 8 (htonll host t).toNat = store .big 8 (timestampOnWire host t).toNat := by
  cases host with
  | little => exact store_htonll_little t
  | big => rfl

/-! A field that is read from its bytes in network order is the field. -/

variable {bs : List UInt8}

/-- A number of two bytes is read back. -/
lemma htons_load (host : Endian) {x : UInt16} (h : bs = store .big 2 x.toNat) :
    htons host (UInt16.ofNat (load host bs)) = x := by
  have hlt : (htons host x).toNat < 256 ^ 2 := (htons host x).toNat_lt
  rw [h, ← store_htons host, load_store, Nat.mod_eq_of_lt hlt, UInt16.ofNat_toNat, htons_htons]

/-- A number of four bytes is read back. -/
lemma htonl_load (host : Endian) {x : UInt32} (h : bs = store .big 4 x.toNat) :
    htonl host (UInt32.ofNat (load host bs)) = x := by
  have hlt : (htonl host x).toNat < 256 ^ 4 := (htonl host x).toNat_lt
  rw [h, ← store_htonl host, load_store, Nat.mod_eq_of_lt hlt, UInt32.ofNat_toNat, htonl_htonl]

/-- A timestamp is read as it was stored. -/
lemma htonll_load (host : Endian) {t : UInt64} (h : bs = store .big 8 t.toNat) :
    htonll host (UInt64.ofNat (load host bs)) = timestampOnWire host t := by
  have hlt : (htonll host (timestampOnWire host t)).toNat < 256 ^ 8 :=
    (htonll host (timestampOnWire host t)).toNat_lt
  have hstore := store_htonll host (timestampOnWire host t)
  rw [timestampOnWire_timestampOnWire] at hstore
  rw [h, ← hstore, load_store, Nat.mod_eq_of_lt hlt, UInt64.ofNat_toNat, htonll_htonll]

/-! The bytes of a field that was read are the bytes it was read from. -/

/-- Two bytes are stored back. -/
lemma store_htons_load (host : Endian) (hl : bs.length = 2) :
    store .big 2 (htons host (UInt16.ofNat (load host bs))).toNat = bs := by
  have hs := store_load host bs
  have hlt := load_lt host bs
  rw [hl] at hs hlt
  change _ < 2 ^ 16 at hlt
  rw [← store_htons host, htons_htons, UInt16.toNat_ofNat', Nat.mod_eq_of_lt hlt, hs]

/-- Four bytes are stored back. -/
lemma store_htonl_load (host : Endian) (hl : bs.length = 4) :
    store .big 4 (htonl host (UInt32.ofNat (load host bs))).toNat = bs := by
  have hs := store_load host bs
  have hlt := load_lt host bs
  rw [hl] at hs hlt
  change _ < 2 ^ 32 at hlt
  rw [← store_htonl host, htonl_htonl, UInt32.toNat_ofNat', Nat.mod_eq_of_lt hlt, hs]

/-- Eight bytes are stored back. -/
lemma store_htonll_load (hl : bs.length = 8) :
    store .big 8 (htonll .little (UInt64.ofNat (load .little bs))).toNat = bs := by
  have hs := store_load .little bs
  have hlt := load_lt .little bs
  rw [hl] at hs hlt
  change _ < 2 ^ 64 at hlt
  rw [← store_htonll_little, htonll_htonll, UInt64.toNat_ofNat', Nat.mod_eq_of_lt hlt, hs]

/-! ## Packing to the layout and unpacking from it -/

/-- A header is packed to the layout, up to the timestamp of a big-endian host. -/
lemma wireLayout_hdrBytes (host : Endian) (h : PktHdr) (rest : List UInt8) :
    WireLayout (hdrBytes host h ++ rest) (h.onWire host) := by
  have hsplit : hdrBytes host h ++ rest =
      store .big 4 h.magic.toNat ++ (store .big 2 h.version.toNat ++ (store .big 2 h.type.toNat ++
        (store .big 4 h.seq.toNat ++ (store .big 4 h.ack.toNat ++
          (store .big 8 (h.onWire host).timestamp.toNat ++ (store .big 2 h.payloadLen.toNat ++
            (store .big 2 h.flags.toNat ++ (store .big 4 h.connId.toNat ++ rest)))))))) := by
    simp only [hdrBytes, store_htonll, List.append_assoc]
    rfl
  rw [hsplit]
  constructor <;> simp [PktHdr.onWire, readAt_append_right, readAt_append_left]

variable {bytes : List UInt8} {h : PktHdr}

/-- What is unpacked from the layout. -/
lemma WireLayout.unpack (layout : WireLayout bytes h)
    (host : Endian) : (hdrUnpack host bytes).2 = h.onWire host := by
  rw [hdrUnpack_snd]
  apply PktHdr.ext
  · exact htonl_load host layout.magic
  · exact htons_load host layout.version
  · exact htons_load host layout.type
  · exact htonl_load host layout.seq
  · exact htonl_load host layout.ack
  · exact htonll_load host layout.timestamp
  · exact htons_load host layout.payloadLen
  · exact htons_load host layout.flags
  · exact htonl_load host layout.connId

/-- The layout determines the first 32 bytes. -/
lemma WireLayout.take_eq (layout : WireLayout bytes h) :
    bytes.take 32 = hdrBytes .little h := by
  have hparts : bytes.take 32 = readAt 0 4 bytes ++ readAt 4 2 bytes ++ readAt 6 2 bytes ++
      readAt 8 4 bytes ++ readAt 12 4 bytes ++ readAt 16 8 bytes ++ readAt 24 2 bytes ++
      readAt 26 2 bytes ++ readAt 28 4 bytes := by
    iterate 8 rw [readAt_append_readAt]
    rfl
  rw [hparts, layout.magic, layout.version, layout.type, layout.seq, layout.ack, layout.timestamp,
    layout.payloadLen, layout.flags, layout.connId, ← store_htonll_little]
  rfl

/-- Every 32 bytes are the layout of the header that a little-endian host unpacks. -/
lemma wireLayout_unpack (hl : 32 ≤ bytes.length) :
    WireLayout bytes (hdrUnpack .little bytes).2 := by
  rw [hdrUnpack_snd]
  constructor
  · exact (store_htonl_load .little (length_readAt (by omega))).symm
  · exact (store_htons_load .little (length_readAt (by omega))).symm
  · exact (store_htons_load .little (length_readAt (by omega))).symm
  · exact (store_htonl_load .little (length_readAt (by omega))).symm
  · exact (store_htonl_load .little (length_readAt (by omega))).symm
  · exact (store_htonll_load (length_readAt (by omega))).symm
  · exact (store_htons_load .little (length_readAt (by omega))).symm
  · exact (store_htons_load .little (length_readAt (by omega))).symm
  · exact (store_htonl_load .little (length_readAt (by omega))).symm

/-- A header that is packed on one host and unpacked on another. -/
lemma hdrUnpack_hdrBytes (host other : Endian) (h : PktHdr) (rest : List UInt8) :
    (hdrUnpack other (hdrBytes host h ++ rest)).2 = (h.onWire host).onWire other :=
  (wireLayout_hdrBytes host h rest).unpack other

/-- Twice is not at all. -/
lemma onWire_onWire (host : Endian) (h : PktHdr) : (h.onWire host).onWire host = h := by
  rw [PktHdr.onWire, PktHdr.onWire]
  simp only [timestampOnWire_timestampOnWire]

/-- The first 32 bytes are the packing of the header that is unpacked from them. -/
lemma hdrBytes_hdrUnpack (hl : 32 ≤ bytes.length) :
    hdrBytes .little (hdrUnpack .little bytes).2 = bytes.take 32 :=
  (wireLayout_unpack hl).take_eq.symm

/-! ## Valid packets -/

/-- Every type is known. -/
lemma mem_knownTypes (t : PktType) : t ∈ knownTypes := by
  cases t <;> decide

/-- The checks of `rc_pkt_validate`. -/
lemma pktValidate_eq_zero_iff (host : Endian) (buf : List UInt8) :
    pktValidate host buf = 0 ↔ headerSize ≤ buf.length ∧ (hdrUnpack host buf).1 = 0 ∧
      (hdrUnpack host buf).2.payloadLen.toNat = buf.length - headerSize ∧
      (hdrUnpack host buf).2.payloadLen.toNat ≤ maxPayload ∧
      ∃ t : PktType, t.code = (hdrUnpack host buf).2.type := by
  have hknown : knownTypes.any (·.code = (hdrUnpack host buf).2.type) = true ↔
      ∃ t : PktType, t.code = (hdrUnpack host buf).2.type := by
    simp only [List.any_eq_true, decide_eq_true_eq]
    exact exists_congr fun t => and_iff_right (mem_knownTypes t)
  rw [pktValidate, ← hknown]
  split
  · next hlen => exact iff_of_false (by decide) fun h => absurd hlen (not_lt.mpr h.1)
  · next hlen =>
    split
    · next hret => exact iff_of_false (by decide) fun h => absurd h.2.1 hret
    · next hret =>
      split
      · next hpay => exact iff_of_false (by decide) fun h => absurd h.2.2.1 hpay
      · next hpay =>
        split
        · next hmax => exact iff_of_false (by decide) fun h => absurd hmax (not_lt.mpr h.2.2.2.1)
        · next hmax =>
          split
          · next hany =>
            exact ⟨fun _ => ⟨not_lt.mp hlen, not_not.mp hret, not_not.mp hpay, not_lt.mp hmax,
              hany⟩, fun _ => rfl⟩
          · next hany => exact iff_of_false (by decide) fun h => absurd h.2.2.2.2 hany

/-- A header that `rc_pkt_validate` accepts in front of a payload. -/
structure ValidHdr (h : PktHdr) : Prop where
  magic : h.magic = rcMagic
  version : h.version = protoVersion
  type : ∃ t : PktType, t.code = h.type
  payloadLen : h.payloadLen.toNat ≤ maxPayload

/-- On a little-endian host the valid packets are the packings of valid headers with
their payloads. -/
lemma pktValidate_little_iff (buf : List UInt8) :
    pktValidate .little buf = 0 ↔ ∃ h payload, ValidHdr h ∧ payload.length = h.payloadLen.toNat ∧
      buf = hdrBytes .little h ++ payload := by
  have hsize : headerSize = 32 := rfl
  rw [pktValidate_eq_zero_iff, hdrUnpack_eq_zero_iff]
  constructor
  · rintro ⟨hlen, ⟨hmagic, hversion⟩, hpay, hmax, htype⟩
    refine ⟨(hdrUnpack .little buf).2, buf.drop 32, ⟨hmagic, hversion, htype, hmax⟩, ?_, ?_⟩
    · rw [hpay, List.length_drop, hsize]
    · rw [hdrBytes_hdrUnpack hlen, List.take_append_drop]
  · rintro ⟨h, payload, valid, hpay, rfl⟩
    have hunpack : (hdrUnpack .little (hdrBytes .little h ++ payload)).2 = h := by
      rw [hdrUnpack_hdrBytes, onWire_onWire]
    have hlen : (hdrBytes .little h ++ payload).length = headerSize + payload.length := by
      rw [List.length_append, length_hdrBytes, hsize]
    rw [hunpack, hlen]
    refine ⟨by omega, ⟨valid.magic, valid.version⟩, ?_, valid.payloadLen, valid.type⟩
    rw [Nat.add_sub_cancel_left, hpay]

/-- On a little-endian host `rc_hdr_pack` writes the nine fields in network order at their
documented offsets; `rc_hdr_unpack` gives the header back, and zero exactly for the protocol's magic
and version; packing what is unpacked from 32 bytes gives these bytes; and `rc_pkt_validate` accepts
exactly the packings of such headers with a known type and a payload of the length they state, of at
most 1400 bytes. -/
theorem wire_header_codec (dst b : Bytes headerSize) (h : PktHdr) (buf : List UInt8) :
    WireLayout (hdrPack .little dst.toList h) h ∧
    (hdrUnpack .little (hdrPack .little dst.toList h)).2 = h ∧
    ((hdrUnpack .little (hdrPack .little dst.toList h)).1 = 0 ↔
      h.magic = rcMagic ∧ h.version = protoVersion) ∧
    hdrPack .little dst.toList (hdrUnpack .little b.toList).2 = b.toList ∧
    (pktValidate .little buf = 0 ↔ ∃ hdr payload, hdr.magic = rcMagic ∧ hdr.version = protoVersion ∧
      (∃ t : PktType, t.code = hdr.type) ∧ hdr.payloadLen.toNat ≤ 1400 ∧
      payload.length = hdr.payloadLen.toNat ∧ buf = hdrPack .little dst.toList hdr ++ payload) := by
  have hpack (g : PktHdr) : hdrPack .little dst.toList g = hdrBytes .little g :=
    hdrPack_of_length dst.length_toList g
  have hlayout : WireLayout (hdrBytes .little h) h := by
    have hl := wireLayout_hdrBytes .little h []
    rwa [List.append_nil] at hl
  have hunpack : (hdrUnpack .little (hdrBytes .little h)).2 = h := hlayout.unpack .little
  simp only [hpack]
  refine ⟨hlayout, hunpack, ?_, ?_, ?_⟩
  · rw [hdrUnpack_eq_zero_iff, hunpack]
  · rw [hdrBytes_hdrUnpack (by rw [b.length_toList]; exact le_refl 32),
      List.take_of_length_le (by rw [b.length_toList]; exact le_refl 32)]
  · rw [pktValidate_little_iff]
    constructor
    · rintro ⟨g, payload, valid, hpay, hbuf⟩
      exact ⟨g, payload, valid.magic, valid.version, valid.type, valid.payloadLen, hpay, hbuf⟩
    · rintro ⟨g, payload, hmagic, hversion, htype, hmax, hpay, hbuf⟩
      exact ⟨g, payload, ⟨hmagic, hversion, htype, hmax⟩, hpay, hbuf⟩

/-! ## Hosts of different byte order -/

/-- The halves of the timestamp are equal. -/
def PktHdr.EqualHalves (h : PktHdr) : Prop := h.timestamp.toUInt32 = (h.timestamp >>> 32).toUInt32

instance : DecidablePred PktHdr.EqualHalves := fun _ => inferInstanceAs (Decidable (_ = _))

/-- A header that looks the same on both hosts. -/
lemma onWire_big_eq_self_iff (h : PktHdr) : h.onWire .big = h ↔ h.EqualHalves := by
  rw [PktHdr.EqualHalves, ← htonll_big_eq_self_iff, PktHdr.ext_iff]
  simp [PktHdr.onWire, timestampOnWire]

/-- The bytes of a big-endian host. -/
lemma hdrBytes_big (h : PktHdr) : hdrBytes .big h = hdrBytes .little (h.onWire .big) := by
  have hl := (wireLayout_hdrBytes .big h []).take_eq
  rwa [List.append_nil, List.take_of_length_le (length_hdrBytes .big h).le] at hl

/-- Headers differ in their bytes. -/
lemma hdrBytes_little_inj {g : PktHdr} (e : hdrBytes .little g = hdrBytes .little h) : g = h := by
  have hg := hdrUnpack_hdrBytes .little .little g []
  have hh := hdrUnpack_hdrBytes .little .little h []
  rw [onWire_onWire] at hg hh
  rw [← hg, e, hh]

/-- The hosts agree on the bytes of a header, and a header that is packed on one kind of host and
unpacked on the other is unchanged, exactly if the two halves of its timestamp are equal. The other
fields are unchanged in any case. -/
theorem wire_format_host_independent_iff (dst dst' : Bytes headerSize) (h : PktHdr) :
    (hdrPack .big dst.toList h = hdrPack .little dst'.toList h ↔ h.EqualHalves) ∧
    ((hdrUnpack .little (hdrPack .big dst.toList h)).2 = h ↔ h.EqualHalves) ∧
    ((hdrUnpack .big (hdrPack .little dst'.toList h)).2 = h ↔ h.EqualHalves) ∧
    (hdrUnpack .little (hdrPack .big dst.toList h)).2 =
      { h with timestamp := htonll .big h.timestamp } ∧
    (hdrUnpack .big (hdrPack .little dst'.toList h)).2 =
      { h with timestamp := htonll .big h.timestamp } := by
  have hcross (host other : Endian) :
      (hdrUnpack other (hdrBytes host h)).2 = (h.onWire host).onWire other := by
    have hu := hdrUnpack_hdrBytes host other h []
    rwa [List.append_nil] at hu
  rw [hdrPack_of_length dst.length_toList, hdrPack_of_length dst'.length_toList, hcross, hcross,
    ← onWire_big_eq_self_iff]
  refine ⟨?_, Iff.rfl, Iff.rfl, rfl, rfl⟩
  rw [hdrBytes_big]
  exact ⟨hdrBytes_little_inj, congrArg (hdrBytes .little)⟩

/-- A header with timestamp 1 has different bytes on the two kinds of host, and is read with
timestamp `2 ^ 32` by the other kind. -/
theorem timestamp_one_depends_on_host :
    let h : PktHdr := { hdrInit .data 5 7 with timestamp := 1 }
    let dst := Bytes.zeros headerSize
    hdrPack .big dst.toList h ≠ hdrPack .little dst.toList h ∧
      (hdrUnpack .little (hdrPack .big dst.toList h)).2 = { h with timestamp := 0x100000000 } ∧
      (hdrUnpack .big (hdrPack .little dst.toList h)).2 = { h with timestamp := 0x100000000 } := by
  decide +kernel

end RoboControl.Proto
