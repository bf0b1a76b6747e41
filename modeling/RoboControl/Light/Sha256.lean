import RoboControl.Base.Bytes
import RoboControl.Base.Fips180

/-!
# SHA-256 in pieces

Model of `rc_sha256_init`, `rc_sha256_update` and `rc_sha256_final` of `include/crypto.h`
(`sha256Init`, `sha256Update`, `sha256Final`). The block function is that of the standard
(`sha256Transform_eq`). A context that has taken in a message in whatever pieces holds the hash
value of its complete blocks, its length and the bytes left over (`Absorbed`), so that the final
call gives the digest of the message (`Absorbed.final`).
-/

namespace RoboControl.Light
open Base

/-- A hash that is being computed (C `rc_sha256_ctx_t`). -/
structure Sha256Ctx where
  state : Sha256.Words
  count : UInt64
  buffer : List UInt8

/-- Rotation to the right (C `rc_rotr32`). -/
def rotr32 (x n : UInt32) : UInt32 := (x >>> n) ||| (x <<< (32 - n))

/-- The table `k` of `rc_sha256_transform`. -/
def sha256K : List UInt32 := [
  0x428a2f98, 0x71374491, 0xb5c0fbcf, 0xe9b5dba5,
  0x3956c25b, 0x59f111f1, 0x923f82a4, 0xab1c5ed5,
  0xd807aa98, 0x12835b01, 0x243185be, 0x550c7dc3,
  0x72be5d74, 0x80deb1fe, 0x9bdc06a7, 0xc19bf174,
  0xe49b69c1, 0xefbe4786, 0x0fc19dc6, 0x240ca1cc,
  0x2de92c6f, 0x4a7484aa, 0x5cb0a9dc, 0x76f988da,
  0x983e5152, 0xa831c66d, 0xb00327c8, 0xbf597fc7,
  0xc6e00bf3, 0xd5a79147, 0x06ca6351, 0x14292967,
  0x27b70a85, 0x2e1b2138, 0x4d2c6dfc, 0x53380d13,
  0x650a7354, 0x766a0abb, 0x81c2c92e, 0x92722c85,
  0xa2bfe8a1, 0xa81a664b, 0xc24b8b70, 0xc76c51a3,
  0xd192e819, 0xd6990624, 0xf40e3585, 0x106aa070,
  0x19a4c116, 0x1e376c08, 0x2748774c, 0x34b0bcb5,
  0x391c0cb3, 0x4ed8aa4a, 0x5b9cca4f, 0x682e6ff3,
  0x748f82ee, 0x78a5636f, 0x84c87814, 0x8cc70208,
  0x90befffa, 0xa4506ceb, 0xbef9a3f7, 0xc67178f2]

/-- The loop that reads the first sixteen words of the schedule. -/
def sha256FirstWords (block : List UInt8) : List UInt32 :=
  (List.range 16).map fun i =>
    be32 (block.getD (i * 4) 0) (block.getD (i * 4 + 1) 0) (block.getD (i * 4 + 2) 0)
      (block.getD (i * 4 + 3) 0)

/-- A turn of the loop that computes the other words; the array is filled up to `i`. -/
def sha256NextWord (w : List UInt32) (i : Nat) : List UInt32 :=
  let s0 := rotr32 (w.getD (i - 15) 0) 7 ^^^ rotr32 (w.getD (i - 15) 0) 18 ^^^
    (w.getD (i - 15) 0 >>> 3)
  let s1 := rotr32 (w.getD (i - 2) 0) 17 ^^^ rotr32 (w.getD (i - 2) 0) 19 ^^^
    (w.getD (i - 2) 0 >>> 10)
  w ++ [w.getD (i - 16) 0 + s0 + w.getD (i - 7) 0 + s1]

/-- The array `w`. -/
def sha256Schedule (block : List UInt8) : List UInt32 :=
  (List.range' 16 48).foldl sha256NextWord (sha256FirstWords block)

/-- A turn of the main loop. -/
def sha256Round (w : List UInt32) (v : Sha256.Words) (i : Nat) : Sha256.Words :=
  let S1 := rotr32 v.e 6 ^^^ rotr32 v.e 11 ^^^ rotr32 v.e 25
  let ch := (v.e &&& v.f) ^^^ (~~~v.e &&& v.g)
  let temp1 := v.h + S1 + ch + sha256K.getD i 0 + w.getD i 0
  let S0 := rotr32 v.a 2 ^^^ rotr32 v.a 13 ^^^ rotr32 v.a 22
  let maj := (v.a &&& v.b) ^^^ (v.a &&& v.c) ^^^ (v.b &&& v.c)
  let temp2 := S0 + maj
  { h := v.g, g := v.f, f := v.e, e := v.d + temp1, d := v.c, c := v.b, b := v.a,
    a := temp1 + temp2 }

/-- The state after a block (C `rc_sha256_transform`, which changes nothing else of the context). -/
def sha256Transform (state : Sha256.Words) (block : List UInt8) : Sha256.Words :=
  let v := (List.range 64).foldl (sha256Round (sha256Schedule block)) state
  { a := state.a + v.a, b := state.b + v.b, c := state.c + v.c, d := state.d + v.d,
    e := state.e + v.e, f := state.f + v.f, g := state.g + v.g, h := state.h + v.h }

/-- A new hash (C `rc_sha256_init`). -/
def sha256Init : Sha256Ctx where
  state := ⟨0x6a09e667, 0xbb67ae85, 0x3c6ef372, 0xa54ff53a, 0x510e527f, 0x9b05688c, 0x1f83d9ab,
    0x5be0cd19⟩
  count := 0
  buffer := List.replicate 64 0

/-- The end of `rc_sha256_update`: whole blocks are taken from the data, and the rest goes
to the buffer. -/
def sha256Blocks (ctx : Sha256Ctx) (p : List UInt8) : Sha256Ctx :=
  let (state, p) := absorb sha256Transform 64 ctx.state p
  if p.length > 0 then { ctx with state, buffer := writeAt 0 p ctx.buffer } else { ctx with state }

/-- Take data in (C `rc_sha256_update`). -/
def sha256Update (ctx : Sha256Ctx) (data : List UInt8) : Sha256Ctx :=
  let idx := (ctx.count &&& 63).toNat
  let ctx := { ctx with count := ctx.count + UInt64.ofNat data.length }
  if idx > 0 then
    let fill := 64 - idx
    if data.length ≥ fill then
      let buffer := writeAt idx (data.take fill) ctx.buffer
      sha256Blocks { ctx with state := sha256Transform ctx.state buffer, buffer } (data.drop fill)
    else { ctx with buffer := writeAt idx data ctx.buffer }
  else sha256Blocks ctx data

/-- Start of the padding in `rc_sha256_final`: the bit behind the message, and a block of its own if
the length has no place in this one. -/
def sha256Mark (state : Sha256.Words) (buffer : List UInt8) (idx : Nat) :
    Sha256.Words × List UInt8 × Nat :=
  let buffer := writeAt idx [0x80] buffer
  let idx := idx + 1
  if idx > 56 then
    let buffer := writeAt idx (List.replicate (64 - idx) 0) buffer
    (sha256Transform state buffer, buffer, 0)
  else (state, buffer, idx)

/-- Finish the hash (C `rc_sha256_final`). -/
def sha256Final (ctx : Sha256Ctx) : List UInt8 × Sha256Ctx :=
  let bits := ctx.count * 8
  let (state, buffer, idx) := sha256Mark ctx.state ctx.buffer (ctx.count &&& 63).toNat
  let buffer := writeAt idx (List.replicate (56 - idx) 0) buffer
  let buffer :=
    writeAt 56 ((List.range 8).map fun i => (bits >>> UInt64.ofNat (56 - 8 * i)).toUInt8) buffer
  let state := sha256Transform state buffer
  ([state.a, state.b, state.c, state.d, state.e, state.f, state.g, state.h].flatMap
      fun (w : UInt32) => [(w >>> 24).toUInt8, (w >>> 16).toUInt8, (w >>> 8).toUInt8, w.toUInt8],
    { ctx with state, buffer })

/-- Digest of a message (C `rc_sha256`). -/
def sha256 (data : List UInt8) : List UInt8 := (sha256Final (sha256Update sha256Init data)).1

/-! ## The block function -/

/-- The rotation is the standard's. -/
lemma rotr32_eq (x : UInt32) {n : UInt32} (h0 : 0 < n.toNat) (h : n.toNat < 32) :
    rotr32 x n = Sha256.rotr n.toNat x := by
  have hright : (x >>> n).toBitVec = x.toBitVec >>> n.toNat := by
    apply BitVec.eq_of_toNat_eq
    rw [UInt32.toNat_toBitVec, UInt32.toNat_shiftRight, Nat.mod_eq_of_lt h,
      BitVec.toNat_ushiftRight, UInt32.toNat_toBitVec]
  have hsub : (32 - n).toNat = 32 - n.toNat := by
    rw [UInt32.toNat_sub_of_le _ _ (UInt32.le_iff_toNat_le.mpr h.le)]
    rfl
  have hleft : (x <<< (32 - n)).toBitVec = x.toBitVec <<< (32 - n.toNat) := by
    apply BitVec.eq_of_toNat_eq
    rw [UInt32.toNat_toBitVec, UInt32.toNat_shiftLeft, hsub,
      Nat.mod_eq_of_lt (show 32 - n.toNat < 32 by omega), BitVec.toNat_shiftLeft,
        UInt32.toNat_toBitVec]
  apply UInt32.toBitVec_inj.mp
  rw [rotr32, UInt32.toBitVec_or, hright, hleft, Sha256.rotr, BitVec.rotateRight_def,
    Nat.mod_eq_of_lt h]

/-- The turns of the schedule's loop give the recurrence. -/
lemma sha256NextWord_eq (m : Nat → UInt32) (n : Nat) :
    sha256NextWord ((List.range (16 + n)).map (Sha256.schedule m)) (16 + n) =
      (List.range (16 + (n + 1))).map (Sha256.schedule m) := by
  have hget : ∀ j < 16 + n, ((List.range (16 + n)).map (Sha256.schedule m)).getD j 0 =
    Sha256.schedule m j := by
    intro j hj
    rw [List.getD_eq_getElem?_getD, List.getElem?_map, List.getElem?_range hj, Option.map_some,
      Option.getD_some]
  have e15 : 16 + n - 15 = n + 1 := by omega
  have e2 : 16 + n - 2 = n + 14 := by omega
  have e16 : 16 + n - 16 = n := by omega
  have e7 : 16 + n - 7 = n + 9 := by omega
  have hlast : Sha256.schedule m (16 + n) = Sha256.schedule m n + Sha256.smallSigma0
    (Sha256.schedule m (n + 1)) +
      Sha256.schedule m (n + 9) + Sha256.smallSigma1 (Sha256.schedule m (n + 14)) := by
    rw [Nat.add_comm, Sha256.schedule_add]
    ac_rfl
  simp only [sha256NextWord, e15, e2, e16, e7]
  rw [hget _ (by omega), hget _ (by omega), hget _ (by omega), hget _ (by omega), ← Nat.add_assoc,
    List.range_succ, List.map_append, List.map_singleton, hlast,
      rotr32_eq _ (by decide) (by decide), rotr32_eq _ (by decide) (by decide),
    rotr32_eq _ (by decide) (by decide), rotr32_eq _ (by decide) (by decide)]
  rfl

/-- The schedule is the standard's. -/
lemma sha256Schedule_eq (block : List UInt8) :
    sha256Schedule block = (List.range 64).map (Sha256.schedule (Sha256.blockWord block)) := by
  have hfirst : sha256FirstWords block = (List.range (16 + 0)).map
    (Sha256.schedule (Sha256.blockWord block)) := by
    refine List.map_congr_left fun t ht => ?_
    rw [Sha256.schedule_of_lt _ (List.mem_range.mp ht), Sha256.blockWord, Nat.mul_comm]
  have hloop : ∀ n, (List.range' 16 n).foldl sha256NextWord (sha256FirstWords block) =
      (List.range (16 + n)).map (Sha256.schedule (Sha256.blockWord block)) := by
    intro n
    induction n with
    | zero => exact hfirst
    | succ n ih =>
      rw [List.range'_1_concat, List.foldl_append, ih, List.foldl_cons, List.foldl_nil,
        sha256NextWord_eq]
  exact hloop 48

/-- The table holds the constants of the standard. -/
lemma sha256K_eq {t : Nat} (ht : t < 64) : sha256K.getD t 0 = Sha256.constK t := by
  have hcheck : ∀ t < 64, ∃ q < 8,
      (q * 2 ^ 32 + (sha256K.getD t 0).toNat) ^ 3 ≤ Sha256.primes.getD t 0 * (2 ^ 32) ^ 3 ∧
        Sha256.primes.getD t 0 * (2 ^ 32) ^ 3 < (q * 2 ^ 32 + (sha256K.getD t 0).toNat + 1) ^
          3 := by
    rw [Sha256.primes_eq]
    decide +kernel
  obtain ⟨q, _, hlow, hhigh⟩ := hcheck t ht
  rw [Sha256.constK, Sha256.rootBits_eq (by decide) (sha256K.getD t 0).toNat_lt hlow hhigh,
    UInt32.ofNat_toNat]

/-- The context starts with the initial hash value of the standard. -/
lemma sha256Init_state : sha256Init.state = Sha256.initialHash := by
  have hword : ∀ (t : Nat) (w : UInt32), (∃ q < 5,
      (q * 2 ^ 32 + w.toNat) ^ 2 ≤ Sha256.primes.getD t 0 * (2 ^ 32) ^ 2 ∧
        Sha256.primes.getD t 0 * (2 ^ 32) ^ 2 < (q * 2 ^ 32 + w.toNat + 1) ^ 2) →
          Sha256.initial t = w := by
    rintro t w ⟨q, _, hlow, hhigh⟩
    rw [Sha256.initial, Sha256.rootBits_eq (by decide) w.toNat_lt hlow hhigh, UInt32.ofNat_toNat]
  rw [Sha256.primes_eq] at hword
  rw [Sha256.initialHash, hword 0 0x6a09e667 (by decide +kernel),
    hword 1 0xbb67ae85 (by decide +kernel), hword 2 0x3c6ef372 (by decide +kernel),
      hword 3 0xa54ff53a (by decide +kernel),
    hword 4 0x510e527f (by decide +kernel), hword 5 0x9b05688c (by decide +kernel),
    hword 6 0x1f83d9ab (by decide +kernel), hword 7 0x5be0cd19 (by decide +kernel)]
  rfl

/-- A round is the standard's. -/
lemma sha256Round_eq (block : List UInt8) (v : Sha256.Words) {t : Nat} (ht : t < 64) :
    sha256Round (sha256Schedule block) v t =
      Sha256.turn v (Sha256.constK t) (Sha256.schedule (Sha256.blockWord block) t) := by
  have hw : (sha256Schedule block).getD t 0 = Sha256.schedule (Sha256.blockWord block) t := by
    rw [sha256Schedule_eq, List.getD_eq_getElem?_getD, List.getElem?_map, List.getElem?_range ht,
      Option.map_some, Option.getD_some]
  simp (disch := decide) only [sha256Round, hw, sha256K_eq ht, rotr32_eq]
  rfl

/-- The block function is that of the standard. -/
lemma sha256Transform_eq (state : Sha256.Words) (block : List UInt8) :
    sha256Transform state block = Sha256.compress state block := by
  have hloop : (List.range 64).foldl (sha256Round (sha256Schedule block)) state =
      (List.range 64).foldl (fun v t => Sha256.turn v (Sha256.constK t)
        (Sha256.schedule (Sha256.blockWord block) t)) state :=
    List.foldl_ext _ _ _ fun v t ht => sha256Round_eq block v (List.mem_range.mp ht)
  rw [sha256Transform, hloop]
  rfl

/-! ## Pieces of a message -/

/-- The context has taken in a message: it holds the state behind the complete blocks, the length
and the bytes that are left over. -/
structure Sha256Ctx.Absorbed (ctx : Sha256Ctx) (msg : List UInt8) : Prop where
  state : ctx.state = (absorb sha256Transform 64 sha256Init.state msg).1
  count : ctx.count = UInt64.ofNat msg.length
  length_buffer : ctx.buffer.length = 64
  buffer : ctx.buffer.take (msg.length % 64) = (absorb sha256Transform 64 sha256Init.state msg).2

namespace Sha256Ctx.Absorbed
variable {ctx : Sha256Ctx} {msg : List UInt8}

/-- A new context. -/
lemma init : sha256Init.Absorbed [] where
  state := by rw [absorb_of_lt (by decide)]
  count := rfl
  length_buffer := by simp [sha256Init]
  buffer := by rw [absorb_of_lt (by decide)]; rfl

/-- The position in the buffer is the number of bytes left over. -/
lemma idx (h : ctx.Absorbed msg) : (ctx.count &&& 63).toNat = msg.length % 64 := by
  have hmask : ∀ x : Nat, x &&& 63 = x % 64 := fun x => Nat.and_two_pow_sub_one_eq_mod x 6
  rw [h.count, UInt64.toNat_and, UInt64.toNat_ofNat']
  show msg.length % 2 ^ 64 &&& 63 = _
  rw [hmask]
  omega

/-- The buffer is the bytes left over, with some bytes behind them. -/
lemma buffer_eq (h : ctx.Absorbed msg) : ∃ tail, tail.length = 64 - msg.length % 64 ∧
    ctx.buffer = (absorb sha256Transform 64 sha256Init.state msg).2 ++ tail := by
  refine ⟨ctx.buffer.drop (msg.length % 64), ?_, ?_⟩
  · rw [List.length_drop, h.length_buffer]
  · rw [← h.buffer, List.take_append_drop]

/-- What is not a whole block. -/
lemma length_rest (msg : List UInt8) :
    (absorb sha256Transform 64 sha256Init.state msg).2.length = msg.length % 64 :=
  length_absorb_snd (by decide) _ _

/-- Whole blocks of the data are taken in, and the rest goes to the buffer. -/
lemma blocks {data : List UInt8} (hcount : ctx.count = UInt64.ofNat msg.length)
    (hbuf : ctx.buffer.length = 64) (hdata : absorb sha256Transform 64 sha256Init.state msg = absorb
      sha256Transform 64 ctx.state data) :
    (sha256Blocks ctx data).Absorbed msg := by
  have hlen := length_rest msg
  rw [hdata] at hlen
  rw [sha256Blocks]
  generalize hr : absorb sha256Transform 64 ctx.state data = r at hdata hlen
  obtain ⟨state, rest⟩ := r
  replace hlen : rest.length = msg.length % 64 := hlen
  by_cases hrest : rest.length > 0
  · simp only [if_pos hrest]
    refine ⟨by rw [hdata], hcount, ?_, ?_⟩
    · rw [length_writeAt (by omega), hbuf]
    · rw [hdata, writeAt_zero]
      exact List.take_left' hlen
  · simp only [if_neg hrest]
    refine ⟨by rw [hdata], hcount, hbuf, ?_⟩
    have hnil : rest = [] := List.eq_nil_of_length_eq_zero (by omega)
    rw [hdata, ← hlen, hnil]
    rfl

/-- Data that fills up the buffer. -/
lemma fill {rest tail data : List UInt8} (hrest : rest.length < 64)
    (htail : tail.length = 64 - rest.length) (hdata : 64 - rest.length ≤ data.length) :
    writeAt rest.length (data.take (64 - rest.length)) (rest ++ tail) = rest ++ data.take
      (64 - rest.length) ∧
    (rest ++ data.take (64 - rest.length)).length = 64 := by
  constructor
  · rw [writeAt_append rfl, List.length_take_of_le hdata, List.drop_of_length_le htail.le,
      List.append_nil]
  · rw [List.length_append, List.length_take_of_le hdata]
    omega

/-- A piece more. -/
lemma update (h : ctx.Absorbed msg) (data : List UInt8) :
    (sha256Update ctx data).Absorbed (msg ++ data) := by
  have hcount : ctx.count + UInt64.ofNat data.length = UInt64.ofNat (msg ++ data).length := by
    rw [h.count, List.length_append, UInt64.ofNat_add]
  have happend : absorb sha256Transform 64 sha256Init.state (msg ++ data) = _ :=
    absorb_append (by decide) _ _ _
  have hlen := length_rest msg
  obtain ⟨tail, htail, hbuffer⟩ := h.buffer_eq
  rw [← h.state] at happend
  rw [sha256Update, h.idx]
  generalize (absorb sha256Transform 64 sha256Init.state msg).2 = rest at happend hlen hbuffer
  rw [← hlen] at htail ⊢
  by_cases hidx : rest.length > 0
  · simp only [if_pos hidx]
    by_cases hfill : data.length ≥ 64 - rest.length
    · -- the buffer is filled up and taken in
      obtain ⟨hblock, hblen⟩ := fill (by omega) htail hfill
      rw [if_pos hfill, hbuffer, hblock]
      refine blocks hcount hblen ?_
      rw [happend, ← absorb_block_append (by decide) hblen, List.append_assoc,
        List.take_append_drop]
    · rw [if_neg hfill]
      have hshort : (rest ++ data).length < 64 := by
        rw [List.length_append]
        omega
      rw [absorb_of_lt hshort] at happend
      refine ⟨by rw [happend], hcount, ?_, ?_⟩
      · rw [length_writeAt (by rw [h.length_buffer]; omega), h.length_buffer]
      · show (writeAt _ data ctx.buffer).take _ = _
        rw [happend, hbuffer, writeAt_append rfl]
        refine List.take_left' ?_
        rw [List.length_append, List.length_append]
        omega
  · simp only [if_neg hidx]
    have hnil : rest = [] := List.eq_nil_of_length_eq_zero (by omega)
    rw [hnil, List.nil_append] at happend
    exact blocks hcount h.length_buffer happend

/-- Any number of pieces. -/
lemma updates (h : ctx.Absorbed msg) (chunks : List (List UInt8)) :
    (chunks.foldl sha256Update ctx).Absorbed (msg ++ chunks.flatten) := by
  induction chunks generalizing ctx msg with
  | nil =>
    rw [List.flatten_nil, List.append_nil]
    exact h
  | cons data chunks ih =>
    rw [List.foldl_cons, List.flatten_cons, ← List.append_assoc]
    exact ih (h.update data)

/-- The bytes of the length. -/
lemma bits (h : ctx.Absorbed msg) :
    ((List.range 8).map fun i => ((ctx.count * 8) >>> UInt64.ofNat (56 - 8 * i)).toUInt8) =
      Sha256.be64 (8 * msg.length) := by
  refine List.map_congr_left fun i hi => ?_
  have hi8 : i < 8 := List.mem_range.mp hi
  have hcount : (ctx.count * 8).toNat = 8 * msg.length % 2 ^ 64 := by
    rw [h.count, UInt64.toNat_mul, UInt64.toNat_ofNat']
    show msg.length % 2 ^ 64 * 8 % 2 ^ 64 = _
    omega
  have hshift : (UInt64.ofNat (56 - 8 * i)).toNat % 64 = 56 - 8 * i := by
    rw [UInt64.toNat_ofNat']
    omega
  rw [← UInt8.toNat_inj, UInt64.toNat_toUInt8, UInt64.toNat_shiftRight, hcount, hshift,
    Nat.shiftRight_eq_div_pow, UInt8.toNat_ofNat']
  interval_cases i <;> omega

end Sha256Ctx.Absorbed

/-! ## The padding -/

/-- What the start of the padding leaves: what is still to come in is the front of the buffer, zeros
up to the place of the length, and the length. -/
lemma sha256Mark_spec (state : Sha256.Words) {rest tail : List UInt8} (hrest : rest.length < 64)
    (htail : tail.length = 64 - rest.length) :
    ∃ (state' : Sha256.Words) (front tail' : List UInt8), front.length ≤ 56 ∧
      tail'.length = 64 - front.length ∧
      sha256Mark state (rest ++ tail) rest.length = (state', front ++ tail', front.length) ∧
      ∀ l, absorb sha256Transform 64 state
        (rest ++ (0x80 :: (List.replicate ((119 - rest.length) % 64) 0 ++ l))) =
        absorb sha256Transform 64 state'
          (front ++ (List.replicate (56 - front.length) 0 ++ l)) := by
  have hmark : writeAt rest.length [0x80] (rest ++ tail) = (rest ++ [0x80]) ++ tail.drop 1 :=
    writeAt_append rfl
  have hlen : (rest ++ [0x80]).length = rest.length + 1 := List.length_append
  rw [sha256Mark, hmark]
  by_cases hroom : rest.length + 1 > 56
  · -- the length has no place in this block
    have hblock : writeAt (rest.length + 1) (List.replicate (64 - (rest.length + 1)) 0)
      ((rest ++ [0x80]) ++ tail.drop 1) =
        rest ++ [0x80] ++ List.replicate (64 - (rest.length + 1)) 0 := by
      rw [writeAt_append hlen, List.drop_of_length_le (by simp; omega), List.append_nil]
    have hblen : (rest ++ [0x80] ++ List.replicate (64 - (rest.length + 1)) 0).length = 64 := by
      rw [List.length_append, hlen, List.length_replicate]
      omega
    refine ⟨sha256Transform state (rest ++ [0x80] ++ List.replicate (64 - (rest.length + 1)) 0), [],
      _, by decide, hblen, ?_, ?_⟩
    · simp only [if_pos hroom, hblock]
      rfl
    · intro l
      have hzeros : (119 - rest.length) % 64 = (64 - (rest.length + 1)) + 56 := by omega
      rw [List.nil_append, ← absorb_block_append (by decide) hblen, hzeros, List.replicate_add]
      simp only [List.append_assoc, List.cons_append, List.nil_append, List.length_nil,
        Nat.sub_zero]
  · refine ⟨state, rest ++ [0x80], tail.drop 1, by omega, ?_, ?_, ?_⟩
    · rw [List.length_drop]
      omega
    · simp only [if_neg hroom, hlen]
    · intro l
      have hzeros : (119 - rest.length) % 64 = 56 - (rest ++ [0x80]).length := by omega
      rw [hzeros, List.append_assoc, List.singleton_append]

lemma flatMap_words (x : Sha256.Words) :
    ([x.a, x.b, x.c, x.d, x.e, x.f, x.g, x.h].flatMap fun (w : UInt32) =>
      [(w >>> 24).toUInt8, (w >>> 16).toUInt8, (w >>> 8).toUInt8, w.toUInt8]) = x.bytes := rfl

/-- Zeros and the length complete a block. -/
lemma lastBlock {front tail len : List UInt8} (hfront : front.length ≤ 56)
    (htail : tail.length = 64 - front.length) (hlen : len.length = 8) :
    writeAt 56 len (writeAt front.length (List.replicate (56 - front.length) 0) (front ++ tail)) =
      front ++ (List.replicate (56 - front.length) 0 ++ len) ∧
    (front ++ (List.replicate (56 - front.length) 0 ++ len)).length = 64 := by
  have hplace : (front ++ List.replicate (56 - front.length) (0 : UInt8)).length = 56 := by
    rw [List.length_append, List.length_replicate]
    omega
  constructor
  · rw [writeAt_append rfl, List.length_replicate, writeAt_append hplace,
      List.drop_of_length_le (by rw [List.length_drop]; omega), List.append_nil, List.append_assoc]
  · rw [← List.append_assoc, List.length_append, hplace, hlen]

/-- The final call gives the digest of what the context has taken in. -/
lemma Sha256Ctx.Absorbed.final {ctx : Sha256Ctx} {msg : List UInt8} (h : ctx.Absorbed msg) :
    (sha256Final ctx).1 = Sha256.sha256 msg := by
  have hlen := Absorbed.length_rest msg
  obtain ⟨tail, htail, hbuffer⟩ := h.buffer_eq
  have hpad : absorb sha256Transform 64 sha256Init.state (msg ++ (0x80 :: (List.replicate
      (Sha256.zeroBytes msg.length) 0 ++ Sha256.be64 (8 * msg.length)))) = _ :=
        absorb_append (by decide) _ _ _
  rw [← h.state] at hpad
  generalize (absorb sha256Transform 64 sha256Init.state msg).2 = rest at hpad hlen hbuffer
  have htail64 : tail.length = 64 - rest.length := by omega
  obtain ⟨state', front, tail', hfront, htail', hmark, hrun⟩ :=
    sha256Mark_spec ctx.state (by omega) htail64
  have hcount : Sha256.zeroBytes msg.length = (119 - rest.length) % 64 := by
    rw [Sha256.zeroBytes, hlen]
  rw [hcount, hrun] at hpad
  obtain ⟨hblock, hblen⟩ := lastBlock hfront htail' (Sha256.length_be64 (8 * msg.length))
  have hstart : sha256Mark ctx.state ctx.buffer (ctx.count &&& 63).toNat = (state', front ++ tail',
    front.length) := by
    rw [h.idx, hbuffer, ← hlen]
    exact hmark
  have hcompress : Sha256.compress = sha256Transform := funext₂ fun s b =>
    (sha256Transform_eq s b).symm
  have hlast : (absorb sha256Transform 64 sha256Init.state (Sha256.pad msg)).1 =
      sha256Transform state' (front ++ (List.replicate (56 - front.length) 0 ++ Sha256.be64
        (8 * msg.length))) := by
    rw [Sha256.pad, hcount, hpad, absorb_block (by decide) hblen]
  simp only [sha256Final, hstart, h.bits, hblock]
  rw [Sha256.sha256, hcompress, ← sha256Init_state, hlast]
  exact flatMap_words _

/-- The digest of a message in any pieces is that of the standard. -/
lemma sha256_chunks (chunks : List (List UInt8)) :
    (sha256Final (chunks.foldl sha256Update sha256Init)).1 = Sha256.sha256 chunks.flatten := by
  have h := (Sha256Ctx.Absorbed.init.updates chunks).final
  rwa [List.nil_append] at h

end RoboControl.Light
