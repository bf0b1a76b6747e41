import RoboControl.Base.Bytes
import RoboControl.Base.Fips197

/-!
# AES-256

Model of the block cipher of `include/crypto.h` (`aes256KeyExpand`, `aes256EncryptBlock`). The key
schedule and the substitution are those of FIPS-197, and so are the shift of the rows and the mixing
of the columns, which take the state column by column. The round key is added row by row. So the
cipher is that of the standard with every round key transposed (`aes256EncryptBlock_eq`), which is
not the standard's.
-/

namespace RoboControl.Light
open Base

/-- The substitution table (C `rc_aes_sbox`). -/
def aesSbox : List UInt8 := [
  0x63, 0x7c, 0x77, 0x7b, 0xf2, 0x6b, 0x6f, 0xc5, 0x30, 0x01, 0x67, 0x2b, 0xfe, 0xd7, 0xab, 0x76,
  0xca, 0x82, 0xc9, 0x7d, 0xfa, 0x59, 0x47, 0xf0, 0xad, 0xd4, 0xa2, 0xaf, 0x9c, 0xa4, 0x72, 0xc0,
  0xb7, 0xfd, 0x93, 0x26, 0x36, 0x3f, 0xf7, 0xcc, 0x34, 0xa5, 0xe5, 0xf1, 0x71, 0xd8, 0x31, 0x15,
  0x04, 0xc7, 0x23, 0xc3, 0x18, 0x96, 0x05, 0x9a, 0x07, 0x12, 0x80, 0xe2, 0xeb, 0x27, 0xb2, 0x75,
  0x09, 0x83, 0x2c, 0x1a, 0x1b, 0x6e, 0x5a, 0xa0, 0x52, 0x3b, 0xd6, 0xb3, 0x29, 0xe3, 0x2f, 0x84,
  0x53, 0xd1, 0x00, 0xed, 0x20, 0xfc, 0xb1, 0x5b, 0x6a, 0xcb, 0xbe, 0x39, 0x4a, 0x4c, 0x58, 0xcf,
  0xd0, 0xef, 0xaa, 0xfb, 0x43, 0x4d, 0x33, 0x85, 0x45, 0xf9, 0x02, 0x7f, 0x50, 0x3c, 0x9f, 0xa8,
  0x51, 0xa3, 0x40, 0x8f, 0x92, 0x9d, 0x38, 0xf5, 0xbc, 0xb6, 0xda, 0x21, 0x10, 0xff, 0xf3, 0xd2,
  0xcd, 0x0c, 0x13, 0xec, 0x5f, 0x97, 0x44, 0x17, 0xc4, 0xa7, 0x7e, 0x3d, 0x64, 0x5d, 0x19, 0x73,
  0x60, 0x81, 0x4f, 0xdc, 0x22, 0x2a, 0x90, 0x88, 0x46, 0xee, 0xb8, 0x14, 0xde, 0x5e, 0x0b, 0xdb,
  0xe0, 0x32, 0x3a, 0x0a, 0x49, 0x06, 0x24, 0x5c, 0xc2, 0xd3, 0xac, 0x62, 0x91, 0x95, 0xe4, 0x79,
  0xe7, 0xc8, 0x37, 0x6d, 0x8d, 0xd5, 0x4e, 0xa9, 0x6c, 0x56, 0xf4, 0xea, 0x65, 0x7a, 0xae, 0x08,
  0xba, 0x78, 0x25, 0x2e, 0x1c, 0xa6, 0xb4, 0xc6, 0xe8, 0xdd, 0x74, 0x1f, 0x4b, 0xbd, 0x8b, 0x8a,
  0x70, 0x3e, 0xb5, 0x66, 0x48, 0x03, 0xf6, 0x0e, 0x61, 0x35, 0x57, 0xb9, 0x86, 0xc1, 0x1d, 0x9e,
  0xe1, 0xf8, 0x98, 0x11, 0x69, 0xd9, 0x8e, 0x94, 0x9b, 0x1e, 0x87, 0xe9, 0xce, 0x55, 0x28, 0xdf,
  0x8c, 0xa1, 0x89, 0x0d, 0xbf, 0xe6, 0x42, 0x68, 0x41, 0x99, 0x2d, 0x0f, 0xb0, 0x54, 0xbb, 0x16]

/-- The constants of the key schedule (C `rc_aes_rcon`). -/
def aesRcon : List UInt8 := [0x00, 0x01, 0x02, 0x04, 0x08, 0x10, 0x20, 0x40, 0x80, 0x1b, 0x36]

/-- An expanded key (C `rc_aes256_ctx_t`). -/
structure Aes256Ctx where
  roundKey : List UInt32
  nrRounds : Nat

/-- Substitution of the bytes of a word (C `rc_aes_sub_word`). -/
def aesSubWord (w : UInt32) : UInt32 :=
  be32 (aesSbox.getD ((w >>> 24) &&& 0xFF).toNat 0) (aesSbox.getD ((w >>> 16) &&& 0xFF).toNat 0)
    (aesSbox.getD ((w >>> 8) &&& 0xFF).toNat 0) (aesSbox.getD (w &&& 0xFF).toNat 0)

/-- Rotation of a word by a byte (C `rc_aes_rot_word`). -/
def aesRotWord (w : UInt32) : UInt32 := (w <<< 8) ||| (w >>> 24)

/-- A turn of the second loop of `rc_aes256_key_expand`; the array is filled up to `i`. -/
def aesKeyStep (rk : List UInt32) (i : Nat) : List UInt32 :=
  let temp := rk.getD (i - 1) 0
  let temp :=
    if i % 8 = 0 then aesSubWord (aesRotWord temp) ^^^ ((aesRcon.getD (i / 8) 0).toUInt32 <<< 24)
    else if i % 8 = 4 then aesSubWord temp
    else temp
  rk ++ [rk.getD (i - 8) 0 ^^^ temp]

/-- Expansion of a key (C `rc_aes256_key_expand`). -/
def aes256KeyExpand (key : List UInt8) : Aes256Ctx where
  nrRounds := 14
  roundKey := (List.range' 8 52).foldl aesKeyStep ((List.range 8).map fun i =>
    be32 (key.getD (4 * i) 0) (key.getD (4 * i + 1) 0) (key.getD (4 * i + 2) 0)
      (key.getD (4 * i + 3) 0))

/-- Exclusive or of a byte of the state. -/
def xorAt (state : List UInt8) (i : Nat) (b : UInt8) : List UInt8 :=
  state.set i (state.getD i 0 ^^^ b)

/-- Addition of a round key (C `rc_aes_add_round_key`). -/
def aesAddRoundKey (state : List UInt8) (rk : List UInt32) (round : Nat) : List UInt8 :=
  (List.range 4).foldl (fun state c =>
    let w := rk.getD (round * 4 + c) 0
    let state := xorAt state c (w >>> 24).toUInt8
    let state := xorAt state (4 + c) (w >>> 16).toUInt8
    let state := xorAt state (8 + c) (w >>> 8).toUInt8
    xorAt state (12 + c) w.toUInt8) state

/-- Substitution of the state (C `rc_aes_sub_bytes`). -/
def aesSubBytes (state : List UInt8) : List UInt8 := state.map fun b => aesSbox.getD b.toNat 0

/-- Shift of the rows (C `rc_aes_shift_rows`), one assignment after the other. -/
def aesShiftRows (state : List UInt8) : List UInt8 :=
  let move := fun (state : List UInt8) (i j : Nat) => state.set i (state.getD j 0)
  let t := state.getD 1 0
  let state := move (move (move state 1 5) 5 9) 9 13
  let state := state.set 13 t
  let t := state.getD 2 0
  let state := (move state 2 10).set 10 t
  let t := state.getD 6 0
  let state := (move state 6 14).set 14 t
  let t := state.getD 15 0
  let state := move (move (move state 15 11) 11 7) 7 3
  state.set 3 t

/-- Multiplication by `x` (C `rc_aes_xtime`). -/
def aesXtime (x : UInt8) : UInt8 := (x <<< 1) ^^^ (if x &&& 0x80 ≠ 0 then 0x1b else 0x00)

/-- Mixing of the columns (C `rc_aes_mix_columns`). -/
def aesMixColumns (state : List UInt8) : List UInt8 :=
  (List.range 4).foldl (fun state c =>
    let a0 := state.getD (c * 4) 0
    let a1 := state.getD (c * 4 + 1) 0
    let a2 := state.getD (c * 4 + 2) 0
    let a3 := state.getD (c * 4 + 3) 0
    let e := a0 ^^^ a1 ^^^ a2 ^^^ a3
    let state := xorAt state (c * 4) (e ^^^ aesXtime (a0 ^^^ a1))
    let state := xorAt state (c * 4 + 1) (e ^^^ aesXtime (a1 ^^^ a2))
    let state := xorAt state (c * 4 + 2) (e ^^^ aesXtime (a2 ^^^ a3))
    xorAt state (c * 4 + 3) (e ^^^ aesXtime (a3 ^^^ a0))) state

/-- A turn of the loop over the rounds. -/
def aesRound (ctx : Aes256Ctx) (state : List UInt8) (round : Nat) : List UInt8 :=
  aesAddRoundKey (aesMixColumns (aesShiftRows (aesSubBytes state))) ctx.roundKey round

/-- Encryption of a block (C `rc_aes256_encrypt_block`). -/
def aes256EncryptBlock (ctx : Aes256Ctx) (block : List UInt8) : List UInt8 :=
  let state := aesAddRoundKey block ctx.roundKey 0
  let state := (List.range' 1 (ctx.nrRounds - 1)).foldl (aesRound ctx) state
  aesAddRoundKey (aesShiftRows (aesSubBytes state)) ctx.roundKey ctx.nrRounds

/-! ## Lengths -/

/-- One byte changes. -/
@[simp] lemma length_xorAt (state : List UInt8) (i : Nat) (b : UInt8) :
    (xorAt state i b).length = state.length :=
  List.length_set

/-- A round key keeps the length. -/
@[simp] lemma length_aesAddRoundKey (state : List UInt8) (rk : List UInt32) (round : Nat) :
    (aesAddRoundKey state rk round).length = state.length := by
  simp [aesAddRoundKey, List.range_succ]

/-- The S-box keeps the length. -/
@[simp] lemma length_aesSubBytes (state : List UInt8) : (aesSubBytes state).length = state.length :=
  List.length_map _

/-- Shifting keeps the length. -/
@[simp] lemma length_aesShiftRows (state : List UInt8) :
    (aesShiftRows state).length = state.length := by
  simp [aesShiftRows]

/-- Mixing keeps the length. -/
@[simp] lemma length_aesMixColumns (state : List UInt8) :
    (aesMixColumns state).length = state.length := by
  simp [aesMixColumns, List.range_succ]

/-- A round keeps the length. -/
@[simp] lemma length_aesRound (ctx : Aes256Ctx) (state : List UInt8) (round : Nat) :
    (aesRound ctx state round).length = state.length := by
  rw [aesRound]
  simp

/-- Rounds keep the length. -/
@[simp] lemma length_foldl_aesRound (ctx : Aes256Ctx) (rounds : List Nat) (state : List UInt8) :
    (rounds.foldl (aesRound ctx) state).length = state.length := by
  induction rounds generalizing state with
  | nil => rw [List.foldl_nil]
  | cons r rounds ih => rw [List.foldl_cons, ih, length_aesRound]

/-- A block is encrypted to one of its length. -/
@[simp] lemma length_aes256EncryptBlock (ctx : Aes256Ctx) (block : List UInt8) :
    (aes256EncryptBlock ctx block).length = block.length := by
  simp [aes256EncryptBlock]

/-! ## Words -/

/-- The bytes of a word, as the code takes them out of it. -/
def aesWord (w : UInt32) : Aes.Word := ⟨(w >>> 24).toUInt8, (w >>> 16).toUInt8, (w >>> 8).toUInt8,
    w.toUInt8⟩

/-- The table is the S-box of the standard. -/
lemma aesSbox_getD (b : UInt8) : aesSbox.getD b.toNat 0 = Aes.sbox b := by
  have htable : aesSbox = Aes.inverses.map fun a => UInt8.ofNat (Aes.affine a) := by decide +kernel
  have hlen : b.toNat < Aes.inverses.length := b.toNat_lt.trans_eq (by decide +kernel)
  rw [Aes.sbox, Aes.inv, htable, List.getD_eq_getElem?_getD, List.getD_eq_getElem?_getD,
    List.getElem?_map, List.getElem?_eq_getElem hlen]
  rfl

/-- The bytes of a word. -/
lemma aesWord_be32 (a b c d : UInt8) : aesWord (be32 a b c d) = ⟨a, b, c, d⟩ := by
  have h := bytes32_be32 a b c d
  simp only [bytes32, List.cons.injEq, and_true] at h
  obtain ⟨ha, hb, hc, hd⟩ := h
  rw [aesWord, ha, hb, hc, hd]

/-- Adding words adds their bytes. -/
lemma aesWord_xor (v w : UInt32) : aesWord (v ^^^ w) = (aesWord v).add (aesWord w) := by
  have hshift : ∀ k : UInt32, (v ^^^ w) >>> k = (v >>> k) ^^^ (w >>> k) := by
    intro k
    apply UInt32.toBitVec_inj.mp
    simp only [UInt32.toBitVec_shiftRight, UInt32.toBitVec_xor, BitVec.ushiftRight_eq',
      BitVec.ushiftRight_xor_distrib]
  simp only [aesWord, Aes.Word.add, hshift, UInt32.toUInt8_xor]

/-- The rotation as a number. -/
lemma toNat_aesRotWord (w : UInt32) : (aesRotWord w).toNat = w.toNat % 2 ^ 24 * 2 ^ 8 + w.toNat /
    2 ^ 24 := by
  have hw := w.toNat_lt
  have hleft : (w <<< 8).toNat = w.toNat % 2 ^ 24 * 2 ^ 8 := by
    rw [UInt32.toNat_shiftLeft, Nat.shiftLeft_eq]
    show w.toNat * 2 ^ 8 % 2 ^ 32 = _
    omega
  have hright : (w >>> 24).toNat = w.toNat / 2 ^ 24 := by
    rw [UInt32.toNat_shiftRight, Nat.shiftRight_eq_div_pow]
    rfl
  rw [aesRotWord, UInt32.toNat_or, hleft, hright, mul_or_of_lt]
  omega

/-- The rotation on bytes. -/
lemma aesRotWord_be32 (a b c d : UInt8) : aesRotWord (be32 a b c d) = be32 b c d a := by
  have ha := a.toNat_lt
  have hb := b.toNat_lt
  have hc := c.toNat_lt
  have hd := d.toNat_lt
  rw [← UInt32.toNat_inj, toNat_aesRotWord, toNat_be32, toNat_be32]
  omega

/-- The rotation is that of the standard. -/
lemma aesWord_rotWord (w : UInt32) : aesWord (aesRotWord w) = (aesWord w).rot := by
  rw [← be32_bytes32 w, aesRotWord_be32, aesWord_be32, aesWord_be32]
  rfl

lemma and_0xFF_toNat (w : UInt32) : (w &&& 0xFF).toNat = w.toUInt8.toNat := by
  rw [UInt32.toNat_and, UInt32.toNat_toUInt8]
  exact Nat.and_two_pow_sub_one_eq_mod w.toNat 8

/-- The substitution is that of the standard. -/
lemma aesWord_subWord (w : UInt32) : aesWord (aesSubWord w) = (aesWord w).sub := by
  rw [aesSubWord, aesWord_be32]
  simp only [and_0xFF_toNat, aesSbox_getD]
  rfl

/-! ## The key schedule -/

lemma getD_map_aesWord (rk : List UInt32) (i : Nat) :
    (rk.map aesWord).getD i .zero = aesWord (rk.getD i 0) := by
  rw [List.getD_eq_getElem?_getD, List.getElem?_map, List.getD_eq_getElem?_getD]
  cases rk[i]? with
  | none => rfl
  | some w => rfl

/-- The round constants are those of the standard. -/
lemma aesWord_rcon {j : Nat} (hj : 1 ≤ j) (hj' : j < 8) :
    aesWord ((aesRcon.getD j 0).toUInt32 <<< 24) = Aes.Word.rcon j := by
  interval_cases j <;> decide

/-- A turn of the key schedule is that of the standard. -/
lemma map_aesKeyStep (rk : List UInt32) {i : Nat} (hi : 8 ≤ i) (hi' : i < 60) :
    (aesKeyStep rk i).map aesWord = Aes.expandStep (rk.map aesWord) i := by
  simp only [aesKeyStep, Aes.expandStep, List.map_append, List.map_singleton, getD_map_aesWord,
    aesWord_xor]
  by_cases h0 : i % 8 = 0
  · simp only [if_pos h0, aesWord_xor, aesWord_subWord, aesWord_rotWord]
    rw [aesWord_rcon (by omega) (by omega)]
  · by_cases h4 : i % 8 = 4
    · simp only [if_neg h0, if_pos h4, aesWord_subWord]
    · simp only [if_neg h0, if_neg h4]

/-- The key schedule is that of the standard. -/
lemma map_aes256KeyExpand (key : List UInt8) :
    (aes256KeyExpand key).roundKey.map aesWord = Aes.expandKey key := by
  have hfirst : ((List.range 8).map fun i => be32 (key.getD (4 * i) 0) (key.getD (4 * i + 1) 0)
      (key.getD (4 * i + 2) 0) (key.getD (4 * i + 3) 0)).map aesWord = (List.range 8).map
        (Aes.keyWord key) := by
    rw [List.map_map]
    exact List.map_congr_left fun i _ => aesWord_be32 _ _ _ _
  have hloop : ∀ (is : List Nat) (rk : List UInt32), (∀ i ∈ is, 8 ≤ i ∧ i < 60) →
      (is.foldl aesKeyStep rk).map aesWord = is.foldl Aes.expandStep (rk.map aesWord) := by
    intro is
    induction is with
    | nil => exact fun _ _ => rfl
    | cons i is ih =>
      intro rk his
      obtain ⟨hi, hi'⟩ := his i List.mem_cons_self
      rw [List.foldl_cons, List.foldl_cons, ih _ fun j hj => his j (List.mem_cons_of_mem _ hj),
        map_aesKeyStep rk hi hi']
  rw [aes256KeyExpand, hloop _ _ fun i hi => by
    have := List.mem_range'_1.mp hi
    omega, hfirst]
  rfl

/-! ## The rounds -/

/-- The state as its bytes. -/
lemma eq_of_length {s : List UInt8} (h : s.length = 16) :
    ∃ s₀ s₁ s₂ s₃ s₄ s₅ s₆ s₇ s₈ s₉ s₁₀ s₁₁ s₁₂ s₁₃ s₁₄ s₁₅,
      s = [s₀, s₁, s₂, s₃, s₄, s₅, s₆, s₇, s₈, s₉, s₁₀, s₁₁, s₁₂, s₁₃, s₁₄, s₁₅] := by
  have hs : s = (List.range 16).map fun i => s.getD i 0 := by
    apply List.ext_getElem
    · simp [h]
    · intro i hi _
      simp [hi]
  exact ⟨_, _, _, _, _, _, _, _, _, _, _, _, _, _, _, _, hs⟩

/-- The round key with rows and columns exchanged. -/
def transpose (k : Nat → Aes.Word) (c : Nat) : Aes.Word :=
  ⟨(k 0).byte c, (k 1).byte c, (k 2).byte c, (k 3).byte c⟩

/-- The round key is added row by row. -/
lemma aesAddRoundKey_eq {s : List UInt8} (h : s.length = 16) (rk : List UInt32) (r : Nat) :
    aesAddRoundKey s rk r = Aes.addRoundKey (transpose (Aes.roundKey (rk.map aesWord) r)) s := by
  obtain ⟨s₀, s₁, s₂, s₃, s₄, s₅, s₆, s₇, s₈, s₉, s₁₀, s₁₁, s₁₂, s₁₃, s₁₄, s₁₅, rfl⟩ :=
    eq_of_length h
  have hkey : Aes.roundKey (rk.map aesWord) r = fun c => aesWord (rk.getD (r * 4 + c) 0) := by
    funext c
    rw [Aes.roundKey, getD_map_aesWord, Nat.mul_comm]
  rw [hkey]
  simp [aesAddRoundKey, xorAt, Aes.addRoundKey, transpose, Aes.Word.byte, aesWord, List.range_succ]

/-- The substitution of a block is that of the standard. -/
lemma aesSubBytes_eq (s : List UInt8) : aesSubBytes s = Aes.subBytes s :=
  List.map_congr_left fun b _ => aesSbox_getD b

/-- The shift of the rows is that of the standard. -/
lemma aesShiftRows_eq {s : List UInt8} (h : s.length = 16) : aesShiftRows s = Aes.shiftRows s := by
  obtain ⟨s₀, s₁, s₂, s₃, s₄, s₅, s₆, s₇, s₈, s₉, s₁₀, s₁₁, s₁₂, s₁₃, s₁₄, s₁₅, rfl⟩ :=
    eq_of_length h
  rfl

/-- Doubling in the field. -/
lemma mulByte_two (a : UInt8) : Aes.mulByte a 2 = aesXtime a := by
  revert a
  refine forall_byte ?_
  decide +kernel

/-- Times three in the field. -/
lemma mulByte_three (a : UInt8) : Aes.mulByte a 3 = aesXtime a ^^^ a := by
  revert a
  refine forall_byte ?_
  decide +kernel

/-- The highest bit. -/
lemma and_0x80_ne_zero_iff (a : UInt8) : a &&& 0x80 ≠ 0 ↔ a.toBitVec.getLsbD 7 = true := by
  revert a
  refine forall_byte ?_
  decide +kernel

/-- Doubling is linear. -/
lemma aesXtime_xor (a b : UInt8) : aesXtime (a ^^^ b) = aesXtime a ^^^ aesXtime b := by
  have hshift : (a ^^^ b) <<< 1 = (a <<< 1) ^^^ (b <<< 1) := by
    apply UInt8.toBitVec_inj.mp
    simp [BitVec.shiftLeft_xor_distrib]
  simp only [aesXtime, hshift, and_0x80_ne_zero_iff, UInt8.toBitVec_xor, BitVec.getLsbD_xor]
  generalize a <<< 1 = x
  generalize b <<< 1 = y
  cases a.toBitVec.getLsbD 7 <;> cases b.toBitVec.getLsbD 7
  · simp
  · simp [UInt8.xor_assoc]
  · simp only [Bool.xor_false, if_true, Bool.false_eq_true, if_false, UInt8.xor_zero]
    ac_rfl
  · -- the two polynomials cancel
    have hcancel : x ^^^ 0x1b ^^^ (y ^^^ 0x1b) = x ^^^ y ^^^ (0x1b ^^^ 0x1b) := by ac_rfl
    simp only [Bool.xor_true, Bool.not_true, Bool.false_eq_true, if_false, if_true, hcancel,
      UInt8.xor_self]

/-- A byte of a column, with the sum of the column and the two products with `x`. -/
lemma mix_eq (a b c d : UInt8) :
    a ^^^ (a ^^^ b ^^^ c ^^^ d ^^^ aesXtime (a ^^^ b)) = Aes.mulByte a 2 ^^^ Aes.mulByte b 3 ^^^
      c ^^^ d := by
  rw [mulByte_two, mulByte_three, aesXtime_xor]
  generalize aesXtime a = x
  generalize aesXtime b = y
  apply UInt8.toBitVec_inj.mp
  apply BitVec.eq_of_getLsbD_eq
  intro i _
  simp only [UInt8.toBitVec_xor, BitVec.getLsbD_xor]
  cases a.toBitVec.getLsbD i <;> simp [Bool.xor_comm, Bool.xor_left_comm]

/-- The mixing of the columns is that of the standard. -/
lemma aesMixColumns_eq {s : List UInt8} (h : s.length = 16) :
    aesMixColumns s = Aes.mixColumns s := by
  obtain ⟨s₀, s₁, s₂, s₃, s₄, s₅, s₆, s₇, s₈, s₉, s₁₀, s₁₁, s₁₂, s₁₃, s₁₄, s₁₅, rfl⟩ :=
    eq_of_length h
  have hrot : ∀ a b c d : UInt8, a ^^^ b ^^^ c ^^^ d = b ^^^ c ^^^ d ^^^ a := by
    intro a b c d
    ac_rfl
  have hsecond : ∀ a b c d : UInt8, b ^^^ (a ^^^ b ^^^ c ^^^ d ^^^ aesXtime (b ^^^ c)) =
      Aes.mulByte b 2 ^^^ Aes.mulByte c 3 ^^^ d ^^^ a := by
    intro a b c d
    rw [hrot a b c d, mix_eq]
  have hthird : ∀ a b c d : UInt8, c ^^^ (a ^^^ b ^^^ c ^^^ d ^^^ aesXtime (c ^^^ d)) =
      Aes.mulByte c 2 ^^^ Aes.mulByte d 3 ^^^ a ^^^ b := by
    intro a b c d
    rw [hrot a b c d, hsecond]
  have hfourth : ∀ a b c d : UInt8, d ^^^ (a ^^^ b ^^^ c ^^^ d ^^^ aesXtime (d ^^^ a)) =
      Aes.mulByte d 2 ^^^ Aes.mulByte a 3 ^^^ b ^^^ c := by
    intro a b c d
    rw [hrot a b c d, hthird]
  simp [aesMixColumns, xorAt, Aes.mixColumns, List.range_succ, mix_eq, hsecond, hthird, hfourth]

/-- A round is that of the standard with the round key transposed. -/
lemma aesRound_eq {s : List UInt8} (h : s.length = 16) (ctx : Aes256Ctx) (r : Nat) :
    aesRound ctx s r = Aes.round (transpose (Aes.roundKey (ctx.roundKey.map aesWord) r)) s := by
  have hsub : (Aes.subBytes s).length = 16 := by rw [Aes.subBytes, List.length_map, h]
  rw [aesRound, aesSubBytes_eq, aesShiftRows_eq hsub, aesMixColumns_eq (Aes.length_shiftRows _),
    aesAddRoundKey_eq (Aes.length_mixColumns _)]
  rfl

/-- The rounds are those of the standard with transposed keys. -/
lemma foldl_aesRound (ctx : Aes256Ctx) (rs : List Nat) {s : List UInt8} (h : s.length = 16) :
    rs.foldl (aesRound ctx) s =
      rs.foldl (fun s r => Aes.round (transpose (Aes.roundKey (ctx.roundKey.map aesWord) r)) s)
        s := by
  induction rs generalizing s with
  | nil => rw [List.foldl_nil, List.foldl_nil]
  | cons r rs ih =>
    rw [List.foldl_cons, List.foldl_cons, ih ((length_aesRound ctx s r).trans h), aesRound_eq h]

/-- The cipher is that of the standard with every round key transposed. -/
lemma aes256EncryptBlock_eq (key : List UInt8) {block : List UInt8} (h : block.length = 16) :
    aes256EncryptBlock (aes256KeyExpand key) block =
      Aes.cipher (fun r => transpose (Aes.roundKey (Aes.expandKey key) r)) block := by
  have hlen := Aes.length_addRoundKey (transpose (Aes.roundKey (Aes.expandKey key) 0)) block
  have hrounds := foldl_aesRound (aes256KeyExpand key) (List.range' 1 13) hlen
  have hsub : (Aes.subBytes ((List.range' 1 13).foldl (aesRound (aes256KeyExpand key))
      (Aes.addRoundKey (transpose (Aes.roundKey (Aes.expandKey key) 0)) block))).length = 16 := by
    rw [Aes.subBytes, List.length_map, length_foldl_aesRound, hlen]
  have hnr : (aes256KeyExpand key).nrRounds = 14 := rfl
  simp only [aes256EncryptBlock, hnr]
  rw [aesAddRoundKey_eq h, map_aes256KeyExpand, aesSubBytes_eq, aesShiftRows_eq hsub,
    aesAddRoundKey_eq (Aes.length_shiftRows _), hrounds, map_aes256KeyExpand]
  rfl

/-- The block cipher is AES-256 with every round key transposed, so that it agrees with AES-256
exactly on the keys and blocks on which the transposed round keys make no difference. The inverses
that the S-box of the standard is made of are inverses in the field. -/
theorem aes256_conforms_iff (key : Bytes 32) (block : Bytes 16) :
    aes256EncryptBlock (aes256KeyExpand key.toList) block.toList =
      Aes.cipher (fun r => transpose (Aes.roundKey (Aes.expandKey key.toList) r)) block.toList ∧
    (aes256EncryptBlock (aes256KeyExpand key.toList) block.toList = Aes.aes256 key.toList
      block.toList ↔
      Aes.cipher (fun r => transpose (Aes.roundKey (Aes.expandKey key.toList) r)) block.toList =
        Aes.cipher (Aes.roundKey (Aes.expandKey key.toList)) block.toList) ∧
    ∀ a < 256, a ≠ 0 → Aes.mul a (Aes.inv a) = 1 := by
  have hcode := aes256EncryptBlock_eq key.toList block.length_toList
  refine ⟨hcode, ?_, fun a ha h0 => Aes.mul_inv ha h0⟩
  rw [hcode, Aes.aes256]

/-- The example of the standard for keys of 256 bits (its appendix C.3) comes out differently. -/
theorem aes256_example_differs :
    Aes.aes256 ((List.range 32).map UInt8.ofNat)
      ((List.range 16).map fun i => UInt8.ofNat (17 * i)) =
      [0x8e, 0xa2, 0xb7, 0xca, 0x51, 0x67, 0x45, 0xbf, 0xea, 0xfc, 0x49, 0x90, 0x4b, 0x49, 0x60,
        0x89] ∧
    aes256EncryptBlock (aes256KeyExpand ((List.range 32).map UInt8.ofNat))
      ((List.range 16).map fun i => UInt8.ofNat (17 * i)) ≠
      [0x8e, 0xa2, 0xb7, 0xca, 0x51, 0x67, 0x45, 0xbf, 0xea, 0xfc, 0x49, 0x90, 0x4b, 0x49, 0x60,
        0x89] := by
  constructor
  · decide +kernel
  · decide +kernel

end RoboControl.Light
