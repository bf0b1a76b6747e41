import RoboControl.Framed.Packet

/-!
# Corrupted packets

On a little-endian host the checksum stands behind the bytes it covers with its low bits first, so a
packet that passes the check leaves the register of the CRC with one and the same value
(`run_of_check`). Flips within 32 consecutive bits change what the register ends with, so the
decoder refuses the packet, as long as it still looks for the checksum in the same place
(`burst_detected`).
-/

namespace RoboControl.Framed
open Base Proto

/-- The register behind the checksum that matches. -/
lemma run_of_check {s : CrcStatics crc32HeaderTurn} {covered check : List UInt8}
    (hlen : check.length = 4) (h : UInt32.ofNat (load .little check) = (crc32Header s covered).1) :
    Crc.run 0xEDB88320#32 0xFFFFFFFF#32 (Crc.bitsOf (covered ++ check)) =
      (Crc.shift 0xEDB88320#32)^[32] 0xFFFFFFFF#32 := by
  have hlt : load .little check < 2 ^ 32 := by
    have := load_lt .little check
    rwa [hlen] at this
  have hcheck : check = leBytes 4 (load .little check) := by
    have := leBytes_ofLeBytes check
    rw [hlen] at this
    exact this.symm
  have hcrc : BitVec.ofNat 32 (load .little check) = ieeeCrc32 covered := by
    rw [← toBitVec_crc32Header s covered, ← h]
    rfl
  rw [Crc.bitsOf_append, Crc.run_append, hcheck, Crc.bitsOf_leBytes, Crc.run_bits _ hlt le_rfl,
    hcrc, ieeeCrc32, ← BitVec.xor_assoc, BitVec.xor_self, BitVec.zero_xor]

/-- The decoder gives no other error than `RC_ERR_PROTO`, and accepts only what passes the check. -/
lemma packetDecode_cases (host : Endian) (s : CrcStatics crc32HeaderTurn) (data : List UInt8) :
    packetDecode host s data = .error errProto ∨
      UInt32.ofNat (load host (readAt (16 + (UInt16.ofNat (load host (readAt 14 2 data))).toNat) 4
        data)) =
        (crc32Header s
          (data.take (16 + (UInt16.ofNat (load host (readAt 14 2 data))).toNat))).1 := by
  unfold packetDecode
  split
  · exact Or.inl rfl
  dsimp only
  split
  · exact Or.inl rfl
  split
  · exact Or.inl rfl
  split
  · exact Or.inl rfl
  split
  · exact Or.inl rfl
  split
  · exact Or.inl rfl
  case isFalse h => exact Or.inr (not_not.mp h)

/-- Bytes with no flipped bit in them. -/
lemma readAt_flipBits {flips : Finset ℕ} {off w : ℕ}
    (h : ∀ i ∈ flips, ¬ (8 * off ≤ i ∧ i < 8 * (off + w))) (data : List UInt8) :
    readAt off w (Crc.flipBits flips 0 data) = readAt off w data := by
  apply List.ext_getElem?
  intro i
  rw [getElem?_readAt, getElem?_readAt]
  split
  case isTrue hi =>
    have hsame : Crc.flipByte flips (0 + (off + i)) = id := by
      funext b
      exact Crc.flipByte_of_disjoint (fun j hj hin => h j hj (by omega)) b
    rw [Crc.getElem?_flipBits, hsame, Option.map_id, id]
  case isFalse => rfl

/-- The place of the checksum does not change if no bit of `payload_len` is flipped. -/
lemma payloadLen_flipBits {host : Endian} {flips : Finset ℕ}
    (h : ∀ i ∈ flips, ¬ (8 * 14 ≤ i ∧ i < 8 * 16)) (s : CrcStatics crc32HeaderTurn) (f : Fields)
    (payloadLen : UInt16) (body : List UInt8) :
    UInt16.ofNat (load host (readAt 14 2 (Crc.flipBits flips 0 (frame host s f payloadLen body)))) =
      payloadLen := by
  rw [readAt_flipBits h, frame, List.append_assoc, readAt_header_payloadLen, ofNat_load_store16]

/-- A packet leaves the register with the value that a match leaves. -/
lemma run_frame (s : CrcStatics crc32HeaderTurn) (f : Fields) (payloadLen : UInt16)
    (body : List UInt8) :
    Crc.run 0xEDB88320#32 0xFFFFFFFF#32 (Crc.bitsOf (frame .little s f payloadLen body)) =
      (Crc.shift 0xEDB88320#32)^[32] 0xFFFFFFFF#32 :=
  run_of_check (length_store _ _ _) (ofNat_load_store32 .little _)

/-- A packet with flipped bits within 32 consecutive ones, none of them in
`payload_len`, is refused. -/
theorem burst_detected (s s' : CrcStatics crc32HeaderTurn) (f : Fields) (payloadLen : UInt16)
    (payload : Option (Bytes payloadLen.toNat)) (out : List UInt8)
    (hok : 0 ≤ (packetEncode .little s f payloadLen payload out).1) (flips : Finset ℕ)
    (hne : flips.Nonempty) (k : ℕ) (hk : k + 32 ≤ 8 * (payloadLen.toNat + 20))
    (hburst : ∀ i ∈ flips, k ≤ i ∧ i < k + 32) (hlen : ∀ i ∈ flips, ¬ (8 * 14 ≤ i ∧ i < 8 * 16)) :
    packetDecode .little s' (Crc.flipBits flips 0
      ((packetEncode .little s f payloadLen payload out).2.take (payloadLen.toNat + 20))) = .error
        errProto := by
  have hout : payloadLen.toNat + 20 ≤ out.length := by
    by_contra hlt
    have := (packetEncode_neg_iff .little s f payloadLen payload out).mpr (by omega)
    omega
  obtain ⟨body, hbody, _, henc⟩ := packetEncode_eq .little s f payloadLen payload hout
  have hsize := length_frame .little s f payloadLen body
  rw [henc, List.take_left' (hsize.trans (by omega))]
  rcases packetDecode_cases .little s' (Crc.flipBits flips 0
    (frame .little s f payloadLen body)) with herr | hcheck
  · exact herr
  -- a match would leave the register with the value that the packet itself leaves
  rw [payloadLen_flipBits hlen] at hcheck
  have hwhole : (Crc.flipBits flips 0 (frame .little s f payloadLen body)).take
    (16 + payloadLen.toNat) ++
      readAt (16 + payloadLen.toNat) 4 (Crc.flipBits flips 0 (frame .little s f payloadLen body)) =
        Crc.flipBits flips 0 (frame .little s f payloadLen body) := by
    have hlast : ((Crc.flipBits flips 0 (frame .little s f payloadLen body)).drop
      (16 + payloadLen.toNat)).length ≤ 4 := by
      rw [List.length_drop, Crc.length_flipBits, hsize]
      omega
    rw [readAt, List.take_of_length_le hlast, List.take_append_drop]
  have hmatch := run_of_check (length_readAt (by rw [Crc.length_flipBits, hsize]; omega)) hcheck
  rw [hwhole, ← run_frame s f payloadLen body] at hmatch
  exact absurd hmatch (Crc.run_flipBits_ne (by decide) hne (by rw [hsize]; omega) hburst _)

/-- One bit of the payload of a packet with one byte of payload. -/
theorem burst_detected_sample :
    packetDecode .little (CrcStatics.start _)
      (Crc.flipBits {130} 0 ((packetEncode .little (CrcStatics.start _)
      ⟨0x10, 4, 7, 9⟩ 1 (some ⟨[0xAB], rfl⟩) (List.replicate 21 0)).2.take 21)) = .error errProto :=
  burst_detected (CrcStatics.start _) (CrcStatics.start _) ⟨0x10, 4, 7, 9⟩ 1 (some ⟨[0xAB], rfl⟩)
    (List.replicate 21 0) (by decide +kernel) {130} ⟨130, by decide⟩ 128 (by decide) (by decide)
      (by decide)

end RoboControl.Framed
