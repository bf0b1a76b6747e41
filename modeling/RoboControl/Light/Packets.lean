import RoboControl.Light.Aes
import RoboControl.Light.Sha256

/-!
# Encryption of packets

Model of the counter mode and of the encryption context of `include/crypto.h`. A packet is combined
with a keystream that its nonce determines (`aes256Ctr_eq`), so a packet is decrypted with the nonce
it was encrypted with (`cryptoDecrypt_cryptoEncrypt`). The nonce holds the packet counter from its
second byte on (`pktNonce`): the lowest byte is missing, so 256 packets in a row share a nonce and
with it a keystream.

The counter is taken by one atomic addition, so that calls of several threads are a run of calls in
the order in which they take it.
-/

namespace RoboControl.Light
open Base

/-- The loop of `rc_aes_ctr_inc`, from the byte before `i` down. -/
def aesCtrIncFrom : Nat → List UInt8 → List UInt8
  | 0, ctr => ctr
  | i + 1, ctr =>
    let b := ctr.getD i 0 + 1
    if b ≠ 0 then ctr.set i b else aesCtrIncFrom i (ctr.set i b)

/-- Increment of a counter block (C `rc_aes_ctr_inc`). -/
def aesCtrInc (ctr : List UInt8) : List UInt8 := aesCtrIncFrom 16 ctr

lemma length_drop_block_lt {l : List UInt8} (h : ¬ l = []) : (l.drop 16).length < l.length := by
  have hpos : 0 < l.length := List.length_pos_iff.mpr h
  rw [List.length_drop]
  omega

/-- The loop of `rc_aes256_ctr` on what is left of the input; the last block may be short. -/
def ctrLoop (ctx : Aes256Ctx) (ctr input : List UInt8) : List UInt8 :=
  if _h : input = [] then []
  else
    let keystream := aes256EncryptBlock ctx ctr
    List.zipWith (· ^^^ ·) (input.take 16) keystream ++ ctrLoop ctx (aesCtrInc ctr) (input.drop 16)
termination_by input.length
decreasing_by exact length_drop_block_lt _h

/-- Encryption and decryption in counter mode (C `rc_aes256_ctr`), into the buffer of the input or
one apart from it. -/
def aes256Ctr (ctx : Aes256Ctx) (input nonce : List UInt8) : List UInt8 :=
  ctrLoop ctx (nonce ++ [0, 0, 0, 0]) input

/-- An encryption context (C `rc_crypto_ctx_t`). -/
structure CryptoCtx where
  aes : Aes256Ctx
  key : Bytes 32
  nonce : Bytes 12
  counter : UInt64
  createdAt : Int
  rotateAfterMs : Int

/-- A context for a key and a nonce (C `rc_crypto_init`); `now` is the time. -/
def cryptoInit (key : Bytes 32) (nonce : Bytes 12) (rotateAfterMs now : Int) : CryptoCtx where
  aes := aes256KeyExpand key.toList
  key := key
  nonce := nonce
  counter := 0
  createdAt := now
  rotateAfterMs := rotateAfterMs

/-- The end of the nonce of a packet, from the counter. -/
def nonceTail (ctr : UInt64) : List UInt8 :=
  [(ctr >>> 32).toUInt8, (ctr >>> 24).toUInt8, (ctr >>> 16).toUInt8, (ctr >>> 8).toUInt8]

/-- The nonce of a packet, `pkt_nonce`, with the end given. -/
def pktNonce (ctx : CryptoCtx) (tail : List UInt8) : List UInt8 := ctx.nonce.toList.take 8 ++ tail

/-- Encryption of a packet (C `rc_crypto_encrypt`). -/
def cryptoEncrypt (ctx : CryptoCtx) (plain : List UInt8) : CryptoCtx × List UInt8 :=
  ({ ctx with counter := ctx.counter + 1 },
    aes256Ctr ctx.aes plain (pktNonce ctx (nonceTail ctx.counter)))

/-- Decryption of a packet (C `rc_crypto_decrypt`). -/
def cryptoDecrypt (ctx : CryptoCtx) (cipher tail : List UInt8) : List UInt8 :=
  aes256Ctr ctx.aes cipher (pktNonce ctx tail)

/-- The beginning of a hash that a rotation keeps as the nonce. -/
lemma length_take_sha256 (data : List UInt8) : ((sha256 data).take 12).length = 12 := by
  have h := sha256_chunks [data]
  rw [List.flatten_singleton] at h
  have hlen : (sha256 data).length = 32 :=
    (congrArg List.length h).trans (Sha256.length_sha256 data)
  rw [List.length_take, hlen]
  rfl

/-- Rotation to a new key (C `rc_crypto_rotate`). -/
def cryptoRotate (ctx : CryptoCtx) (newKey : Bytes 32) (now : Int) : CryptoCtx :=
  { ctx with
    key := newKey
    aes := aes256KeyExpand newKey.toList
    counter := 0
    createdAt := now
    nonce := ⟨(sha256 (ctx.nonce.toList ++ newKey.toList)).take 12, length_take_sha256 _⟩ }

/-- A context as `rc_crypto_init` or `rc_crypto_rotate` leaves it. -/
inductive Started : CryptoCtx → Prop
  | init (key : Bytes 32) (nonce : Bytes 12) (rotateAfterMs now : Int) :
    Started (cryptoInit key nonce rotateAfterMs now)
  | rotate (ctx : CryptoCtx) (newKey : Bytes 32) (now : Int) : Started (cryptoRotate ctx newKey now)

/-- The nonces that a run of calls of `rc_crypto_encrypt` passes to `rc_aes256_ctr`. -/
def packetNonces (ctx : CryptoCtx) : List (List UInt8) → List (List UInt8)
  | [] => []
  | plain :: plains =>
    pktNonce ctx (nonceTail ctx.counter) :: packetNonces (cryptoEncrypt ctx plain).1 plains

/-- The packets that a run of calls of `rc_crypto_encrypt` gives. -/
def packetCiphers (ctx : CryptoCtx) : List (List UInt8) → List (List UInt8)
  | [] => []
  | plain :: plains =>
    (cryptoEncrypt ctx plain).2 :: packetCiphers (cryptoEncrypt ctx plain).1 plains

/-! ## Counter mode -/

lemma length_aesCtrIncFrom (i : Nat) (ctr : List UInt8) :
    (aesCtrIncFrom i ctr).length = ctr.length := by
  induction i generalizing ctr with
  | zero => rfl
  | succ i ih =>
    simp only [aesCtrIncFrom]
    split
    · exact List.length_set
    · rw [ih, List.length_set]

/-- Byte `i` of the keystream from a counter block on. -/
def keystream (ctx : Aes256Ctx) (ctr : List UInt8) (i : Nat) : UInt8 :=
  (aes256EncryptBlock ctx (aesCtrInc^[i / 16] ctr)).getD (i % 16) 0

/-- The keystream of the next block. -/
lemma keystream_add_block (ctx : Aes256Ctx) (ctr : List UInt8) (i : Nat) :
    keystream ctx ctr (i + 16) = keystream ctx (aesCtrInc ctr) i := by
  rw [keystream, keystream, Nat.add_div_right i (by decide), Nat.add_mod_right,
    Function.iterate_succ_apply]

/-- A first block is combined with the cipher of the counter block. -/
lemma zipWith_block (ctx : Aes256Ctx) {ctr b : List UInt8} (hctr : ctr.length = 16)
    (hb : b.length ≤ 16) :
    List.zipWith (· ^^^ ·) b (aes256EncryptBlock ctx ctr) = b.mapIdx fun i x =>
      x ^^^ keystream ctx ctr i := by
  have hlen : (aes256EncryptBlock ctx ctr).length = 16 :=
    (length_aes256EncryptBlock ctx ctr).trans hctr
  apply List.ext_getElem
  · rw [List.length_zipWith, hlen, List.length_mapIdx, Nat.min_eq_left hb]
  · intro i hi hi'
    have hib : i < b.length := by rwa [List.length_mapIdx] at hi'
    have hi16 : i < 16 := hib.trans_le hb
    rw [List.getElem_zipWith, List.getElem_mapIdx, keystream, Nat.div_eq_of_lt hi16,
      Nat.mod_eq_of_lt hi16, Function.iterate_zero, id, List.getD_eq_getElem?_getD,
        List.getElem?_eq_getElem (by rw [hlen]; exact hi16),
      Option.getD_some]

/-- The loop combines the input with the keystream. -/
lemma ctrLoop_eq (ctx : Aes256Ctx) (ctr input : List UInt8) (hctr : ctr.length = 16) :
    ctrLoop ctx ctr input = input.mapIdx fun i x => x ^^^ keystream ctx ctr i := by
  induction ctr, input using ctrLoop.induct ctx with
  | case1 ctr =>
    rw [ctrLoop, dif_pos rfl, List.mapIdx_nil]
  | case2 ctr input h ih =>
    have hnext : (aesCtrInc ctr).length = 16 := (length_aesCtrIncFrom 16 ctr).trans hctr
    have hrest : (input.drop 16).mapIdx (fun i x => x ^^^ keystream ctx (aesCtrInc ctr) i) =
        (input.drop 16).mapIdx fun i x => x ^^^ keystream ctx ctr (i + (input.take 16).length) := by
      rcases Nat.lt_or_ge input.length 16 with hlt | hge
      · rw [List.drop_eq_nil_of_le hlt.le, List.mapIdx_nil, List.mapIdx_nil]
      · rw [List.length_take, Nat.min_eq_left hge]
        simp only [keystream_add_block]
    rw [ctrLoop, dif_neg h]
    simp only [ih hnext, zipWith_block ctx hctr (List.length_take_le 16 input)]
    conv_rhs => rw [← List.take_append_drop 16 input, List.mapIdx_append]
    rw [hrest]

/-- Counter mode combines the input with the keystream of the nonce. -/
lemma aes256Ctr_eq (ctx : Aes256Ctx) (input : List UInt8) {nonce : List UInt8}
    (h : nonce.length = 12) :
    aes256Ctr ctx input nonce = input.mapIdx fun i x => x ^^^ keystream ctx (nonce ++ [0, 0, 0, 0])
      i :=
  ctrLoop_eq ctx _ input (by simp [h])

lemma length_pktNonce (ctx : CryptoCtx) {tail : List UInt8} (h : tail.length = 4) :
    (pktNonce ctx tail).length = 12 := by
  simp [pktNonce, h]

/-- Counter mode is its own inverse. -/
lemma aes256Ctr_aes256Ctr (ctx : Aes256Ctx) (input : List UInt8) {nonce : List UInt8}
    (h : nonce.length = 12) :
    aes256Ctr ctx (aes256Ctr ctx input nonce) nonce = input := by
  rw [aes256Ctr_eq ctx _ h, aes256Ctr_eq ctx _ h]
  apply List.ext_getElem
  · rw [List.length_mapIdx, List.length_mapIdx]
  · intro i hi hi'
    rw [List.getElem_mapIdx, List.getElem_mapIdx, UInt8.xor_assoc, UInt8.xor_self, UInt8.xor_zero]

/-- A packet is decrypted with the end of the nonce it was encrypted with, whatever was
encrypted since. -/
theorem cryptoDecrypt_cryptoEncrypt (ctx : CryptoCtx) (plain : List UInt8) (counter : UInt64) :
    cryptoDecrypt { ctx with counter := counter } (cryptoEncrypt ctx plain).2
      (nonceTail ctx.counter) = plain :=
  aes256Ctr_aes256Ctr ctx.aes plain (length_pktNonce ctx rfl)

/-! ## Nonces -/

lemma toNat_shiftRight_toUInt8 (ctr : UInt64) {k : UInt64} (hk : k.toNat < 64) :
    (ctr >>> k).toUInt8.toNat = ctr.toNat / 2 ^ k.toNat % 256 := by
  rw [UInt64.toNat_toUInt8, UInt64.toNat_shiftRight, Nat.mod_eq_of_lt hk, Nat.shiftRight_eq_div_pow]

lemma toNat_shiftRight_toUInt32 (ctr : UInt64) :
    (ctr >>> 8).toUInt32.toNat = ctr.toNat / 256 % 2 ^ 32 := by
  rw [UInt64.toNat_toUInt32, UInt64.toNat_shiftRight, Nat.shiftRight_eq_div_pow]
  rfl

/-- The end of the nonce is a word of the counter, taken eight bits up. -/
lemma nonceTail_eq (ctr : UInt64) : nonceTail ctr = bytes32 (ctr >>> 8).toUInt32 := by
  have hw := toNat_shiftRight_toUInt32 ctr
  have h32 := toNat_shiftRight_toUInt8 ctr (k := 32) (by decide)
  have h24 := toNat_shiftRight_toUInt8 ctr (k := 24) (by decide)
  have h16 := toNat_shiftRight_toUInt8 ctr (k := 16) (by decide)
  have h8 := toNat_shiftRight_toUInt8 ctr (k := 8) (by decide)
  have w24 := toNat_toUInt8_shiftRight (ctr >>> 8).toUInt32 (k := 24) (by decide)
  have w16 := toNat_toUInt8_shiftRight (ctr >>> 8).toUInt32 (k := 16) (by decide)
  have w8 := toNat_toUInt8_shiftRight (ctr >>> 8).toUInt32 (k := 8) (by decide)
  have w0 := UInt32.toNat_toUInt8 (ctr >>> 8).toUInt32
  simp only [UInt32.reduceToNat] at w24 w16 w8
  simp only [UInt64.reduceToNat] at h32 h24 h16 h8
  rw [nonceTail, bytes32, List.cons_eq_cons, List.cons_eq_cons, List.cons_eq_cons,
    List.cons_eq_cons, ← UInt8.toNat_inj, ← UInt8.toNat_inj, ← UInt8.toNat_inj, ← UInt8.toNat_inj]
  refine ⟨?_, ?_, ?_, ?_, rfl⟩ <;> omega

/-- The end of the nonce is the counter without its lowest byte. -/
lemma nonceTail_inj_iff (a b : UInt64) :
    nonceTail a = nonceTail b ↔ a.toNat / 256 % 2 ^ 32 = b.toNat / 256 % 2 ^ 32 := by
  rw [nonceTail_eq, nonceTail_eq, ← toNat_shiftRight_toUInt32, ← toNat_shiftRight_toUInt32,
    UInt32.toNat_inj]
  constructor
  · intro h
    simp only [bytes32, List.cons.injEq, and_true] at h
    obtain ⟨h0, h1, h2, h3⟩ := h
    rw [← be32_bytes32 (a >>> 8).toUInt32, h0, h1, h2, h3, be32_bytes32]
  · intro h
    rw [h]

/-- Nonces differ in their ends. -/
lemma pktNonce_inj_iff (ctx : CryptoCtx) (s t : List UInt8) : pktNonce ctx s = pktNonce ctx t ↔
    s = t :=
  List.append_cancel_left_eq _ _ _ |>.to_iff

/-- The counter starts at zero. -/
lemma Started.counter_eq {ctx : CryptoCtx} (h : Started ctx) : ctx.counter = 0 := by
  cases h with
  | init key nonce rotateAfterMs now => rfl
  | rotate ctx newKey now => rfl

/-- Call `i` of a run takes the counter `i` steps on. -/
lemma packetNonces_eq (ctx : CryptoCtx) (plains : List (List UInt8)) :
    packetNonces ctx plains =
      (List.range plains.length).map fun i =>
        pktNonce ctx (nonceTail (ctx.counter + UInt64.ofNat i)) := by
  induction plains generalizing ctx with
  | nil => rfl
  | cons plain plains ih =>
    have hcounter : ∀ i : Nat, ctx.counter + 1 + UInt64.ofNat i = ctx.counter + UInt64.ofNat
      (i + 1) := by
      intro i
      rw [UInt64.ofNat_add, UInt64.add_assoc, UInt64.add_comm 1]
      rfl
    rw [packetNonces, ih, List.length_cons, List.range_succ_eq_map, List.map_cons, List.map_map]
    congr 1
    · exact congrArg (fun c => pktNonce ctx (nonceTail c)) (UInt64.add_zero ctx.counter).symm
    · exact List.map_congr_left fun i _ => congrArg (fun c => pktNonce ctx (nonceTail c))
        (hcounter i)

/-- The nonces of two calls after the start are the same exactly if the calls are in the same
group of 256. -/
lemma Started.nonce_eq_iff {ctx : CryptoCtx} (h : Started ctx) {i j : Nat} (hi : i < 2 ^ 40)
    (hj : j < 2 ^ 40) :
    pktNonce ctx (nonceTail (ctx.counter + UInt64.ofNat i)) = pktNonce ctx
      (nonceTail (ctx.counter + UInt64.ofNat j)) ↔
      i / 256 = j / 256 := by
  have hnat : ∀ {k : Nat}, k < 2 ^ 40 → (UInt64.ofNat k).toNat = k :=
    fun hk => UInt64.toNat_ofNat_of_lt' (hk.trans (by decide))
  rw [pktNonce_inj_iff, nonceTail_inj_iff, h.counter_eq, UInt64.zero_add, UInt64.zero_add, hnat hi,
    hnat hj]
  omega

/-- Every packet of a run is its plaintext combined with the keystream of its nonce. -/
lemma packetCiphers_eq (ctx : CryptoCtx) (plains : List (List UInt8)) :
    packetCiphers ctx plains =
      List.zipWith (fun nonce plain => plain.mapIdx fun i x => x ^^^ keystream ctx.aes
        (nonce ++ [0, 0, 0, 0]) i)
        (packetNonces ctx plains) plains := by
  induction plains generalizing ctx with
  | nil => rfl
  | cons plain plains ih =>
    rw [packetCiphers, packetNonces, List.zipWith_cons_cons, ih]
    exact congrArg (· :: _) (aes256Ctr_eq ctx.aes plain (length_pktNonce ctx rfl))

/-- In a run of at most `2 ^ 40` calls after the start the nonces of two calls are the same exactly
if the calls are in the same group of 256, so that they are distinct exactly if there is at most one
call. The nonce is all that the keystream of a call depends on besides the key. -/
theorem packet_nonces_distinct_iff {ctx : CryptoCtx} (hctx : Started ctx)
    (plains : List (List UInt8)) (hlen : plains.length ≤ 2 ^ 40) :
    ((packetNonces ctx plains).Nodup ↔ plains.length ≤ 1) ∧
    (∀ i < plains.length, ∀ j < plains.length,
      ((packetNonces ctx plains)[i]? = (packetNonces ctx plains)[j]? ↔ i / 256 = j / 256)) ∧
    packetCiphers ctx plains =
      List.zipWith (fun nonce plain => plain.mapIdx fun i x => x ^^^ keystream ctx.aes
        (nonce ++ [0, 0, 0, 0]) i)
        (packetNonces ctx plains) plains := by
  have hsame : ∀ i < plains.length, ∀ j < plains.length,
      ((packetNonces ctx plains)[i]? = (packetNonces ctx plains)[j]? ↔ i / 256 = j / 256) := by
    intro i hi j hj
    rw [packetNonces_eq, List.getElem?_map, List.getElem?_map, List.getElem?_range hi,
      List.getElem?_range hj, Option.map_some, Option.map_some, Option.some_inj]
    exact hctx.nonce_eq_iff (hi.trans_le hlen) (hj.trans_le hlen)
  have hcount : (packetNonces ctx plains).length = plains.length := by rw [packetNonces_eq]; simp
  refine ⟨?_, hsame, packetCiphers_eq ctx plains⟩
  constructor
  · intro hnodup
    by_contra hlt
    have heq := (hsame 0 (by omega) 1 (by omega)).mpr rfl
    have hfirst : 0 < (packetNonces ctx plains).length := by omega
    exact absurd ((List.getElem?_inj hfirst hnodup).mp heq) (by decide)
  · intro hle
    rcases plains with _ | ⟨plain, _ | ⟨plain', plains⟩⟩
    · exact List.nodup_nil
    · exact List.nodup_singleton _
    · simp at hle

/-- The run of one call. -/
theorem packet_nonces_distinct_iff_sample :
    Started (cryptoInit (.zeros 32) (.zeros 12) 0 0) ∧
    (packetNonces (cryptoInit (.zeros 32) (.zeros 12) 0 0) [[1, 2, 3]]).Nodup := by
  have hstart := Started.init (.zeros 32) (.zeros 12) 0 0
  exact ⟨hstart, (packet_nonces_distinct_iff hstart [[1, 2, 3]] (by decide)).1.mpr (by decide)⟩

/-- The first two packets get the same nonce, and so the same plaintext the same ciphertext. -/
theorem packet_nonces_repeat :
    packetNonces (cryptoInit (.zeros 32) (.zeros 12) 0 0) [[1, 2, 3], [1, 2, 3]] =
      [List.replicate 12 0, List.replicate 12 0] ∧
    (cryptoEncrypt (cryptoInit (.zeros 32) (.zeros 12) 0 0) [1, 2, 3]).2 =
      (cryptoEncrypt (cryptoEncrypt (cryptoInit (.zeros 32) (.zeros 12) 0 0) [1, 2, 3]).1
        [1, 2, 3]).2 := by
  exact ⟨rfl, rfl⟩

end RoboControl.Light
