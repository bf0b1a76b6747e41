import RoboControl.Base.Decimal
import RoboControl.Base.Hex
import RoboControl.Light.Hmac

/-!
# Signed tokens

Model of `rc_generate_token` and `rc_verify_token` of `include/crypto.h`, for hosts on which a
`long` has 64 bits. A token is the text `user_id:expiry.mac` with the HMAC of what is before the dot
in hexadecimal. A user id may have colons and dots of its own: the last dot and the last colon
before it are the separators, since neither digits nor a sign contain one.
-/

namespace RoboControl.Light
open Base

/-- The results of the token functions (C `RC_OK`, `RC_ERR_INVAL`, `RC_ERR_AUTH`, `RC_ERR_FULL`). -/
inductive TokenStatus
  | ok
  | errInval
  | errAuth
  | errFull
  deriving DecidableEq, Repr

/-- What `rc_hmac_sha256` writes to a buffer apart from the key and the data. -/
def tokenMac (secret data : List UInt8) : List UInt8 :=
  hmacOuter (hmacKey secret) (hmacInner (hmacKey secret) data)

/-- The text that is signed, as `snprintf` prints it with `%s:%ld`. -/
def tokenPayload (userId : List UInt8) (expiry : Int) : List UInt8 :=
  userId ++ 58 :: signedDigits expiry

/-- The loop of `rc_generate_token` over the MAC; each turn prints two digits and a
zero behind them. -/
def writeHex (mac : List UInt8) (off n : Nat) (out : List UInt8) : List UInt8 :=
  (List.range n).foldl (fun out i => writeAt (off + i * 2) (hexByte (mac.getD i 0) ++ [0]) out) out

/-- Generation of a token (C `rc_generate_token`) in the buffer `out`, which has
`out_size` bytes. -/
def generateToken (secret userId : List UInt8) (expiry : Int) (out : List UInt8) :
    TokenStatus × List UInt8 :=
  let payload := tokenPayload userId expiry
  if payload.length ≥ 512 then (.errInval, out)
  else
    let mac := tokenMac secret payload
    let needed := payload.length + 1 + 64
    if out.length < needed + 1 then (.errFull, out)
    else
      let out := writeAt 0 payload out
      let out := writeAt payload.length [46] out
      let out := writeHex mac (payload.length + 1) 32 out
      (.ok, writeAt needed [0] out)

/-- Comparison of as many bytes (C `rc_secure_compare`). -/
def secureCompare (a b : List UInt8) : Nat :=
  let diff := (List.zipWith (· ^^^ ·) a b).foldl (· ||| ·) 0
  if diff = 0 then 0 else 1

/-- The first `n` turns of the loop of `rc_verify_token` that reads the MAC. -/
def scanMac (macHex : List UInt8) : Nat → Option (List UInt8)
  | 0 => some []
  | n + 1 => (scanMac macHex n).bind fun mac =>
    (scanHex 2 (macHex.drop (n * 2))).map fun byte => mac ++ [byte.toUInt8]

/-- What `rc_verify_token` returns, and what is in `out_user_id` and `out_expiry` then, if they
are not null. -/
structure Verified where
  status : TokenStatus
  outUserId : Option (List UInt8)
  outExpiry : Option Int

/-- The second part of `rc_verify_token`: the text `user_id:expiry`. -/
def verifyPayload (payload : List UInt8) (outUserId : Option (List UInt8)) (outExpiry : Option Int)
    (now : Int) :
    Verified :=
  match strrchr payload 58 with
  | none => ⟨.errAuth, outUserId, outExpiry⟩
  | some colon =>
    let exp := atol (colon.drop 1)
    let outExpiry := outExpiry.map fun _ => exp
    if 0 < exp ∧ exp < now then ⟨.errAuth, outUserId, outExpiry⟩
    else
      match outUserId with
      | none => ⟨.ok, none, outExpiry⟩
      | some uid =>
        -- the colon has become the zero that ends the user id
        let userId := payload.take (payload.length - colon.length)
        if userId.length ≥ uid.length then ⟨.errFull, some uid, outExpiry⟩
        else ⟨.ok, some (writeAt 0 (userId ++ [0]) uid), outExpiry⟩

/-- Verification of a token (C `rc_verify_token`) at the time `now`; `out_user_id` has
`uid_size` bytes. -/
def verifyToken (secret token : List UInt8) (outUserId : Option (List UInt8))
    (outExpiry : Option Int) (now : Int) :
    Verified :=
  match strrchr token 46 with
  | none => ⟨.errAuth, outUserId, outExpiry⟩
  | some dot =>
    let payloadLen := token.length - dot.length
    if payloadLen < 1 then ⟨.errAuth, outUserId, outExpiry⟩
    else
      let macHex := dot.drop 1
      if macHex.length ≠ 64 then ⟨.errAuth, outUserId, outExpiry⟩
      else
        let payload := token.take payloadLen
        match scanMac macHex 32 with
        | none => ⟨.errAuth, outUserId, outExpiry⟩
        | some actual =>
          if secureCompare (tokenMac secret payload) actual ≠ 0 then
            ⟨.errAuth, outUserId, outExpiry⟩
          else if payloadLen ≥ 512 then ⟨.errInval, outUserId, outExpiry⟩
          else verifyPayload payload outUserId outExpiry now

/-! ## The MAC -/

/-- The MAC of the model is what the keyed hash leaves in the buffer. -/
lemma read_hmacSha256 (mem : Mem) (key keyLen data dataLen out : Nat) :
    (hmacSha256 mem key keyLen data dataLen out).read out 32 =
      tokenMac (mem.read key keyLen) (mem.read data dataLen) := by
  have hinner := mem.read_write out (hmacInner (hmacKey (mem.read key keyLen))
    (mem.read data dataLen))
  rw [length_hmacInner] at hinner
  simp only [hmacSha256, hinner]
  have houter :=
    (mem.write out (hmacInner (hmacKey (mem.read key keyLen)) (mem.read data dataLen))).read_write
    out (tokenMac (mem.read key keyLen) (mem.read data dataLen))
  rwa [tokenMac, length_hmacOuter] at houter

lemma length_tokenMac (secret data : List UInt8) : (tokenMac secret data).length = 32 :=
  length_hmacOuter _ _

/-- The comparison tells apart any two texts of the same length. -/
lemma secureCompare_eq_zero_iff {a b : List UInt8} (h : a.length = b.length) :
    secureCompare a b = 0 ↔ a = b := by
  rw [secureCompare, ite_eq_left_iff, foldl_or_zipWith_xor_eq_zero_iff h]
  exact ⟨fun hne => by_contra fun he => one_ne_zero (hne he), fun he hne => (hne he).elim⟩

/-! ## The text of the MAC -/

/-- The loop prints the MAC. -/
lemma writeHex_eq (mac pre rest : List UInt8) {n : Nat} (hn : n ≤ mac.length) :
    ∃ rest', writeHex mac pre.length n (pre ++ rest) = pre ++ (mac.take n).flatMap hexByte ++
      rest' := by
  induction n with
  | zero => exact ⟨rest, by simp [writeHex]⟩
  | succ n ih =>
    obtain ⟨rest', hrest⟩ := ih (Nat.le_of_succ_le hn)
    have hlt : n < mac.length := hn
    have hoff : (pre ++ (mac.take n).flatMap hexByte).length = pre.length + n * 2 := by
      rw [List.length_append, length_flatMap_hexByte, List.length_take, Nat.min_eq_left hlt.le]
    have hget : mac.getD n 0 = mac[n] := by
      rw [List.getD_eq_getElem?_getD, List.getElem?_eq_getElem hlt, Option.getD_some]
    rw [writeHex] at hrest ⊢
    rw [List.range_succ, List.foldl_append, hrest, List.foldl_cons, List.foldl_nil,
      writeAt_append hoff, hget]
    refine ⟨0 :: rest'.drop 3, ?_⟩
    rw [List.take_succ_eq_append_getElem hlt, List.flatMap_append]
    simp [hexByte]

/-- The MAC is read back from its digits. -/
lemma scanMac_flatMap_hexByte (mac : List UInt8) {n : Nat} (hn : n ≤ mac.length) :
    scanMac (mac.flatMap hexByte) n = some (mac.take n) := by
  induction n with
  | zero => rfl
  | succ n ih =>
    have hlt : n < mac.length := hn
    rw [scanMac, ih (Nat.le_of_succ_le hn), Option.bind_some, drop_flatMap_hexByte,
      List.drop_eq_getElem_cons hlt, List.flatMap_cons, scanHex_hexByte, Option.map_some,
        List.take_succ_eq_append_getElem hlt, UInt8.toUInt8_toUInt32]

/-! ## The round trip -/

/-- The text of a token. -/
def tokenText (secret payload : List UInt8) : List UInt8 :=
  payload ++ 46 :: (tokenMac secret payload).flatMap hexByte

/-- A token has no zero. -/
lemma zero_not_mem_tokenText {userId : List UInt8} (h : 0 ∉ userId) (secret : List UInt8)
    (expiry : Int) :
    0 ∉ tokenText secret (tokenPayload userId expiry) := by
  have hdigits : 0 ∉ signedDigits expiry := not_mem_signedDigits (by decide) (by decide) expiry
  have hmac := not_mem_flatMap_hexByte (c := 0) (by decide)
    (tokenMac secret (tokenPayload userId expiry))
  intro hmem
  rcases List.mem_append.mp hmem with hpayload | htail
  · rcases List.mem_append.mp hpayload with huser | hcolon
    · exact h huser
    · exact hdigits ((List.mem_cons.mp hcolon).resolve_left (by decide))
  · exact hmac ((List.mem_cons.mp htail).resolve_left (by decide))

/-- A token that was generated is its text, with a zero behind it. -/
lemma generateToken_ok {secret userId out : List UInt8} {expiry : Int}
    (h : (generateToken secret userId expiry out).1 = .ok) :
    (tokenPayload userId expiry).length < 512 ∧
    ∃ rest, (generateToken secret userId expiry out).2 =
      tokenText secret (tokenPayload userId expiry) ++ 0 :: rest := by
  rw [generateToken] at h ⊢
  generalize tokenPayload userId expiry = payload at h ⊢
  dsimp only at h ⊢
  split at h
  · cases h
  next hlen =>
  split at h
  · cases h
  next hout =>
  rw [if_neg hlen, if_neg hout]
  refine ⟨Nat.not_le.mp hlen, ?_⟩
  have hmac : (tokenMac secret payload).length = 32 := length_tokenMac secret payload
  have hdot : (payload ++ [46]).length = payload.length + 1 := List.length_append
  obtain ⟨rest, hrest⟩ := writeHex_eq (tokenMac secret payload) (payload ++ [46])
    ((out.drop payload.length).drop 1) hmac.ge
  have hall : (payload ++ [46] ++ (tokenMac secret payload).flatMap hexByte).length =
    payload.length + 1 + 64 := by
    rw [List.length_append, hdot, length_flatMap_hexByte, hmac]
  rw [hdot, List.take_of_length_le hmac.le] at hrest
  refine ⟨rest.drop 1, ?_⟩
  rw [writeAt_zero, writeAt_append rfl, List.length_singleton, hrest, writeAt_append hall,
    tokenText]
  simp

/-- The text of a token is verified up to its user id and expiry. -/
lemma verifyToken_tokenText (secret : List UInt8) {payload : List UInt8} (hpos : 0 < payload.length)
    (hlen : payload.length < 512) (uid : Option (List UInt8)) (exp : Option Int) (now : Int) :
    verifyToken secret (tokenText secret payload) uid exp now = verifyPayload payload uid exp
      now := by
  have hmac : (tokenMac secret payload).length = 32 := length_tokenMac secret payload
  have hdot := strrchr_append_cons (l := payload)
    (not_mem_flatMap_hexByte (c := 46) (by decide) (tokenMac secret payload))
  have hhex : ((tokenMac secret payload).flatMap hexByte).length = 64 := by
    rw [length_flatMap_hexByte, hmac]
  have hpre : (tokenText secret payload).length -
    (46 :: (tokenMac secret payload).flatMap hexByte).length =
      payload.length := by
    rw [tokenText, List.length_append, Nat.add_sub_cancel]
  have hscan : scanMac ((tokenMac secret payload).flatMap hexByte) 32 =
    some (tokenMac secret payload) := by
    rw [scanMac_flatMap_hexByte _ hmac.ge, List.take_of_length_le hmac.le]
  have htake : (tokenText secret payload).take payload.length = payload := List.take_left
  have hcompare : secureCompare (tokenMac secret payload) (tokenMac secret payload) = 0 :=
    (secureCompare_eq_zero_iff rfl).mpr rfl
  rw [verifyToken, tokenText, hdot]
  rw [← tokenText]
  dsimp only
  rw [hpre, if_neg (Nat.not_lt.mpr hpos), List.drop_one, List.tail_cons, if_neg (not_not.mpr hhex),
    hscan]
  dsimp only
  rw [htake, hcompare, if_neg (not_not.mpr rfl), if_neg (Nat.not_le.mpr hlen)]

/-- The last colon of a payload. -/
lemma strrchr_tokenPayload (userId : List UInt8) (expiry : Int) :
    strrchr (tokenPayload userId expiry) 58 = some (58 :: signedDigits expiry) :=
  strrchr_append_cons (not_mem_signedDigits (by decide) (by decide) expiry)

/-- A payload whose time is over. -/
lemma verifyPayload_expired (userId : List UInt8) {expiry now : Int} (hlow : -2 ^ 63 ≤ expiry)
    (hhigh : expiry < 2 ^ 63) (hexp : 0 < expiry ∧ expiry < now) (uid : Option (List UInt8))
    (exp : Option Int) :
    verifyPayload (tokenPayload userId expiry) uid exp now = ⟨.errAuth, uid,
      exp.map fun _ => expiry⟩ := by
  have hatol : atol ((58 :: signedDigits expiry).drop 1) = expiry := atol_signedDigits hlow hhigh
  rw [verifyPayload, strrchr_tokenPayload]
  dsimp only
  rw [hatol, if_pos hexp]

/-- The user id and the expiry are read back from the payload. -/
lemma verifyPayload_valid (userId : List UInt8) {expiry now : Int} (hlow : -2 ^ 63 ≤ expiry)
    (hhigh : expiry < 2 ^ 63) (hexp : ¬ (0 < expiry ∧ expiry < now)) {uid : List UInt8}
    (huid : userId.length < uid.length) (exp : Option Int) :
    verifyPayload (tokenPayload userId expiry) (some uid) exp now =
      ⟨.ok, some (writeAt 0 (userId ++ [0]) uid), exp.map fun _ => expiry⟩ := by
  have huser : (tokenPayload userId expiry).take
      ((tokenPayload userId expiry).length - (58 :: signedDigits expiry).length) = userId := by
    rw [tokenPayload, List.length_append, Nat.add_sub_cancel, List.take_left]
  have hatol : atol ((58 :: signedDigits expiry).drop 1) = expiry := atol_signedDigits hlow hhigh
  rw [verifyPayload, strrchr_tokenPayload]
  dsimp only
  rw [hatol, if_neg hexp, huser, if_neg (Nat.not_le.mpr huid)]

/-- A token is verified with the secret it was generated with: up to its expiry, or at any time if
that is not positive, the user id and the expiry come back, and after a positive expiry the token is
refused. The MAC in it is the one that `rc_hmac_sha256` leaves in a buffer. -/
theorem token_round_trip (secret userId out : List UInt8) (expiry : Int) (huser : 0 ∉ userId)
    (hlow : -2 ^ 63 ≤ expiry) (hhigh : expiry < 2 ^ 63)
    (hok : (generateToken secret userId expiry out).1 = .ok) :
    (∀ (now : Int) (uid : List UInt8) (exp : Option Int), (now ≤ expiry ∨ expiry ≤ 0) →
      userId.length < uid.length →
      ∃ buf, verifyToken secret (stringIn (generateToken secret userId expiry out).2) (some uid) exp
        now =
          ⟨.ok, some buf, exp.map fun _ => expiry⟩ ∧ stringIn buf = userId ∧
            buf.length = uid.length) ∧
    (∀ (now : Int) (uid : Option (List UInt8)) (exp : Option Int), 0 < expiry → expiry < now →
      (verifyToken secret (stringIn (generateToken secret userId expiry out).2) uid exp
        now).status = .errAuth) ∧
    ∀ (mem : Mem) (key keyLen data dataLen mac : Nat),
      (hmacSha256 mem key keyLen data dataLen mac).read mac 32 =
        tokenMac (mem.read key keyLen) (mem.read data dataLen) := by
  obtain ⟨hlen, rest, hrest⟩ := generateToken_ok hok
  have hpos : 0 < (tokenPayload userId expiry).length := by
    rw [tokenPayload, List.length_append, List.length_cons]
    omega
  have htoken : stringIn (generateToken secret userId expiry out).2 = tokenText secret
    (tokenPayload userId expiry) := by
    rw [hrest, stringIn_append (zero_not_mem_tokenText huser secret expiry)]
  rw [htoken]
  refine ⟨?_, ?_, read_hmacSha256⟩
  · intro now uid exp hnow huid
    refine ⟨writeAt 0 (userId ++ [0]) uid, ?_, ?_, ?_⟩
    · rw [verifyToken_tokenText secret hpos hlen, verifyPayload_valid userId hlow hhigh (by omega)
        huid]
    · rw [writeAt_zero, List.append_assoc, List.singleton_append, stringIn_append huser]
    · exact length_writeAt (by rw [List.length_append, List.length_singleton]; omega)
  · intro now uid exp hexp hnow
    rw [verifyToken_tokenText secret hpos hlen, verifyPayload_expired userId hlow hhigh
      ⟨hexp, hnow⟩]

/-- The token of the user `a:b.c` that expires at 5, at the times 5 and 6. -/
theorem token_round_trip_sample :
    (generateToken [1, 2, 3] [97, 58, 98, 46, 99] 5 (List.replicate 80 0)).1 = .ok ∧
    (∃ buf, verifyToken [1, 2, 3] (stringIn
      (generateToken [1, 2, 3] [97, 58, 98, 46, 99] 5 (List.replicate 80 0)).2)
      (some (List.replicate 6 0)) (some 0) 5 = ⟨.ok, some buf, some 5⟩ ∧
        stringIn buf = [97, 58, 98, 46, 99] ∧
      buf.length = 6) ∧
    (verifyToken [1, 2, 3]
      (stringIn (generateToken [1, 2, 3] [97, 58, 98, 46, 99] 5 (List.replicate 80 0)).2)
      none none 6).status = .errAuth := by
  have hok : (generateToken [1, 2, 3] [97, 58, 98, 46, 99] 5 (List.replicate 80 0)).1 = .ok := rfl
  obtain ⟨hvalid, hexpired, -⟩ := token_round_trip [1, 2, 3] [97, 58, 98, 46, 99]
    (List.replicate 80 0) 5 (by decide) (by decide) (by decide) hok
  exact ⟨hok, hvalid 5 (List.replicate 6 0) (some 0) (by decide) (by decide),
    hexpired 6 none none (by decide) (by decide)⟩

end RoboControl.Light
