import RoboControl.Base.Crc

/-!
# CRC-32

Model of the two functions `rc_crc32`, of `src/core/rc_proto.c` and of `include/proto.h`. Both fill
a static table at their first call and then take the message in byte by byte; they differ in how
they write one turn of the table's loop (`crc32InitTurn`, `crc32HeaderTurn`). Both compute the
CRC-32 of IEEE 802.3 bit by bit (`crc32_correct`).
-/

namespace RoboControl.Proto
open Base

/-- The reflected polynomial. -/
def crcPoly : UInt32 := 0xEDB88320

/-- A turn of the inner loop of `crc32_init_table`. -/
def crc32InitTurn (crc : UInt32) : UInt32 := (crc >>> 1) ^^^ (if crc &&& 1 ≠ 0 then crcPoly else 0)

/-- A turn of the inner loop of `rc_crc32` of `include/proto.h`. -/
def crc32HeaderTurn (c : UInt32) : UInt32 := if c &&& 1 ≠ 0 then crcPoly ^^^ (c >>> 1) else c >>> 1

/-- The table that the two nested loops fill. -/
def crcTable (turn : UInt32 → UInt32) : List UInt32 := (List.range 256).map fun i =>
    turn^[8] (UInt32.ofNat i)

/-- The static variables of a function: the table, and whether it is filled. -/
structure CrcStatics (turn : UInt32 → UInt32) where
  table : List UInt32
  initialized : Bool
  filled : initialized = true → table = crcTable turn

/-- The variables when the program starts. -/
def CrcStatics.start (turn : UInt32 → UInt32) : CrcStatics turn where
  table := List.replicate 256 0
  initialized := false
  filled := fun h => absurd h Bool.false_ne_true

/-- Fill the table unless it is filled (C `crc32_init_table`, and the same in `include/proto.h`). -/
def CrcStatics.fill {turn : UInt32 → UInt32} (s : CrcStatics turn) : CrcStatics turn :=
  if s.initialized then s else ⟨crcTable turn, true, fun _ => rfl⟩

/-- The loop over the message. -/
def crcLoop (table : List UInt32) (crc : UInt32) : List UInt8 → UInt32
  | [] => crc
  | b :: p => crcLoop table (table.getD ((crc ^^^ b.toUInt32) &&& 0xFF).toNat 0 ^^^ (crc >>> 8)) p

/-- The common body of the two functions. -/
def crc32With {turn : UInt32 → UInt32} (s : CrcStatics turn) (data : List UInt8) :
    UInt32 × CrcStatics turn :=
  let s := s.fill
  (crcLoop s.table 0xFFFFFFFF data ^^^ 0xFFFFFFFF, s)

/-- Checksum of a message (C `rc_crc32` of `src/core/rc_proto.c`). -/
def crc32 (s : CrcStatics crc32InitTurn) (data : List UInt8) : UInt32 × CrcStatics crc32InitTurn :=
  crc32With s data

/-- Checksum of a message (C `rc_crc32` of `include/proto.h`). -/
def crc32Header (s : CrcStatics crc32HeaderTurn) (data : List UInt8) :
    UInt32 × CrcStatics crc32HeaderTurn :=
  crc32With s data

/-- The CRC-32 of IEEE 802.3, bit by bit: every bit of the message, the least significant one of
each byte first, goes through a reflected register that starts with ones, and the register's
complement is the checksum. -/
def ieeeCrc32 (data : List UInt8) : BitVec 32 :=
  Crc.run 0xEDB88320#32 0xFFFFFFFF#32 (Crc.bitsOf data) ^^^ 0xFFFFFFFF#32

/-! ## The table -/

lemma and_one_ne_zero_iff (c : UInt32) : c &&& 1 ≠ 0 ↔ c.toBitVec.getLsbD 0 = true := by
  have hone : (c &&& 1).toNat = c.toNat % 2 := by
    rw [UInt32.toNat_and]
    exact Nat.and_one_is_mod c.toNat
  have hbit : c.toBitVec.getLsbD 0 = decide (c.toNat % 2 = 1) := Nat.testBit_zero c.toNat
  rw [ne_eq, ← UInt32.toNat_inj, hone, hbit, decide_eq_true_iff]
  show ¬ c.toNat % 2 = 0 ↔ _
  omega

/-- One turn is one shift. -/
lemma toBitVec_crc32InitTurn (c : UInt32) :
    (crc32InitTurn c).toBitVec = Crc.shift 0xEDB88320#32 c.toBitVec := by
  simp only [crc32InitTurn, Crc.shift, Crc.feed, Bool.xor_false, and_one_ne_zero_iff]
  split
  · simp [crcPoly]
  · simp

/-- One turn is one shift. -/
lemma toBitVec_crc32HeaderTurn (c : UInt32) :
    (crc32HeaderTurn c).toBitVec = Crc.shift 0xEDB88320#32 c.toBitVec := by
  simp only [crc32HeaderTurn, Crc.shift, Crc.feed, Bool.xor_false, and_one_ne_zero_iff]
  split
  · simp [crcPoly, BitVec.xor_comm]
  · simp

section Table
variable {turn : UInt32 → UInt32} (hturn : ∀ c, (turn c).toBitVec = Crc.shift 0xEDB88320#32
  c.toBitVec)

/-- The table that is filled in. -/
lemma table_fill (s : CrcStatics turn) : s.fill.table = crcTable turn := by
  rw [CrcStatics.fill]
  split
  case isTrue h => exact s.filled h
  case isFalse => rfl

/-- An entry of the table. -/
lemma crcTable_getD {i : UInt32} (h : i.toNat < 256) :
    (crcTable turn).getD i.toNat 0 = turn^[8] i := by
  rw [crcTable, List.getD_eq_getElem?_getD, List.getElem?_map, List.getElem?_range h,
    Option.map_some, Option.getD_some, UInt32.ofNat_toNat]

include hturn in
/-- Several turns. -/
lemma toBitVec_iterate (k : ℕ) (c : UInt32) :
    (turn^[k] c).toBitVec = (Crc.shift 0xEDB88320#32)^[k] c.toBitVec := by
  induction k generalizing c with
  | zero => rfl
  | succ k ih => rw [Function.iterate_succ_apply, Function.iterate_succ_apply, ih, hturn]

include hturn in
/-- One turn of the loop takes the bits of a byte in. -/
lemma toBitVec_crcLoop_step (crc : UInt32) (b : UInt8) :
    ((crcTable turn).getD ((crc ^^^ b.toUInt32) &&& 0xFF).toNat 0 ^^^ (crc >>> 8)).toBitVec =
      Crc.run 0xEDB88320#32 crc.toBitVec (Crc.bits 8 b.toNat) := by
  have hindex : ((crc ^^^ b.toUInt32) &&& 0xFF).toNat < 256 := by
    rw [UInt32.toNat_and]
    exact Nat.lt_of_le_of_lt Nat.and_le_right (by decide)
  have hbyte : b.toUInt32.toBitVec = BitVec.ofNat 32 b.toNat := by
    apply BitVec.eq_of_toNat_eq
    have hb := b.toNat_lt
    rw [UInt32.toNat_toBitVec, UInt8.toNat_toUInt32, BitVec.toNat_ofNat]
    omega
  rw [crcTable_getD hindex, UInt32.toBitVec_xor, toBitVec_iterate hturn, UInt32.toBitVec_and,
    UInt32.toBitVec_xor, hbyte, UInt32.toBitVec_shiftRight,
      Crc.run_bits_table _ b.toNat_lt (by decide)]
  rfl

include hturn in
/-- The loop takes the bits of the message in. -/
lemma toBitVec_crcLoop (crc : UInt32) (data : List UInt8) :
    (crcLoop (crcTable turn) crc data).toBitVec = Crc.run 0xEDB88320#32 crc.toBitVec
      (Crc.bitsOf data) := by
  induction data generalizing crc with
  | nil => rfl
  | cons b data ih =>
    rw [crcLoop, ih, toBitVec_crcLoop_step hturn, Crc.bitsOf_cons, Crc.run_append]

include hturn in
/-- The checksum is the standard's. -/
lemma toBitVec_crc32With (s : CrcStatics turn) (data : List UInt8) :
    (crc32With s data).1.toBitVec = ieeeCrc32 data := by
  have hloop := toBitVec_crcLoop hturn 0xFFFFFFFF data
  rw [crc32With, table_fill, UInt32.toBitVec_xor, hloop]
  rfl

end Table

/-- The checksum is the standard's. -/
lemma toBitVec_crc32Header (s : CrcStatics crc32HeaderTurn) (data : List UInt8) :
    (crc32Header s data).1.toBitVec = ieeeCrc32 data :=
  toBitVec_crc32With toBitVec_crc32HeaderTurn s data

/-- Both functions compute the CRC-32 of IEEE 802.3, at any call, so they agree. -/
theorem crc32_correct (s : CrcStatics crc32InitTurn) (s' : CrcStatics crc32HeaderTurn)
    (data : List UInt8) :
    (crc32 s data).1.toBitVec = ieeeCrc32 data ∧ (crc32Header s' data).1.toBitVec = ieeeCrc32 data ∧
      (crc32 s data).1 = (crc32Header s' data).1 := by
  have hproto := toBitVec_crc32With toBitVec_crc32InitTurn s data
  have hheader := toBitVec_crc32Header s' data
  refine ⟨hproto, hheader, ?_⟩
  exact UInt32.toBitVec_inj.mp (hproto.trans hheader.symm)

example : ieeeCrc32 [0x31, 0x32, 0x33, 0x34, 0x35, 0x36, 0x37, 0x38, 0x39] = 0xCBF43926#32 := by
  decide +kernel

end RoboControl.Proto
