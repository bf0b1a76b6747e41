import RoboControl.Base.Channel
import RoboControl.Crypto.Session
import Mathlib.Data.UInt

/-!
# Record layer

What the record layer of `src/core/rc_crypto.c` does over whole sequences of records. A session that
encrypts and one that decrypts form a `Base.Channel` whose counters are `encrypt_seq` and
`decrypt_seq` (`recordChannel`); `allDecrypt_iff_lossless` connects the runs of
`rc_record_encrypt`/`rc_record_decrypt` (`AllDecrypt`) to it. `recordDecrypt` counts a record before
it authenticates it, so a forged record of at least a tag's length moves the receiver's counter:
`rejected_record_disturbs` says when the genuine records around forged ones still decrypt.
-/

namespace RoboControl.Crypto
open Base Proto
open scoped UInt64.CommRing

/-- A header and a payload: what is encrypted, and also what arrives. -/
abbrev Record := PktHdr × List UInt8

/-! ## Nonces -/

/-- The nonce determines the first four salt bytes and the counter. -/
lemma deriveNonce_inj {s t : Bytes 12} {c d : UInt64} (e : deriveNonce s c = deriveNonce t d) :
    s.slice 0 4 (by decide) = t.slice 0 4 (by decide) ∧ c = d := by
  obtain ⟨es, ec⟩ := Bytes.append_inj e
  have hs : store .big 8 c.toNat = store .big 8 d.toNat := congrArg Bytes.toList ec
  exact ⟨es, UInt64.toNat_inj.mp (store_inj c.toNat_lt d.toNat_lt hs)⟩

/-- Only the first four salt bytes enter the nonce. -/
lemma deriveNonce_congr {s t : Bytes 12} (h : s.slice 0 4 (by decide) = t.slice 0 4 (by decide))
    (c : UInt64) : deriveNonce s c = deriveNonce t c := by
  rw [deriveNonce, h]
  rfl

/-! ## AEAD calls -/

/-- A payload whose length survives the `(int)` casts of the AEAD calls. -/
def Fits (r : Record) : Prop := r.2.length < 2 ^ 31

lemma intLen_of_lt {n : Nat} (h : n < 2 ^ 31) : intLen n = some n := by
  have e : n % 2 ^ 32 = n := Nat.mod_eq_of_lt (by omega)
  rw [intLen, e, if_pos h]

lemma lt_of_intLen {n m : Nat} (h : intLen n = some m) : m < 2 ^ 31 := by
  rw [intLen] at h
  split at h
  · cases h; assumption
  · cases h

/-- The ciphertext and the tag are taken apart. -/
lemma aeadDecrypt_append {ossl : Openssl} {ctx : AeadCtx} {cipher : EvpCipher} {nonce : Bytes 12}
    {ct aad : List UInt8} {tag : Bytes 16} (hc : ctx.algo.cipher = some cipher)
    (hl : ct.length < 2 ^ 31) :
    aeadDecrypt ossl ctx nonce (ct ++ tag.toList) aad =
      ossl.evpDecrypt cipher ctx.key nonce aad ct tag.toList := by
  have hlen : (ct ++ tag.toList).length = ct.length + 16 := by simp
  have hsub : ct.length + 16 - maxTagLen = ct.length := by simp [maxTagLen]
  have hge : ¬ ct.length + 16 < maxTagLen := by simp [maxTagLen]
  simp [aeadDecrypt, hlen, hge, hc, hsub, intLen_of_lt hl]

/-- An encryption that succeeds. -/
lemma aeadEncrypt_eq_some {ossl : Openssl} {ctx : AeadCtx} {nonce : Bytes 12}
    {pt aad out : List UInt8} (h : aeadEncrypt ossl ctx nonce pt aad = some out) :
    ∃ cipher len ct tag, ctx.algo.cipher = some cipher ∧ intLen pt.length = some len ∧
      ossl.evpEncrypt cipher ctx.key nonce aad (pt.take len) = some (ct, tag) ∧
      out = ct ++ tag.toList := by
  simp only [aeadEncrypt, Option.bind_eq_bind, Option.bind_eq_some_iff] at h
  obtain ⟨cipher, hc, len, hl, ⟨ct, tag⟩, he, ho⟩ := h
  exact ⟨cipher, len, ct, tag, hc, hl, he, (Option.some.inj ho).symm⟩

/-! ## Records as a channel -/

/-- The channel from an encrypting to a decrypting context. -/
def recordChannel (host : Endian) (ossl : Openssl) (enc dec : AeadCtx) :
    Channel UInt64 Record Record where
  protect c r :=
    (aeadEncrypt ossl enc (deriveNonce enc.nonceSalt c) r.2 (recordAad host r.1)).map (r.1, ·)
  recover d x :=
    (aeadDecrypt ossl dec (deriveNonce dec.nonceSalt d) x.2 (recordAad host x.1)).map (x.1, ·)
  admits x := decide (maxTagLen ≤ x.2.length)

/-- Every genuine record that `a` encrypts decrypts at `b` to its payload, with forged records
delivered to `b` in between. -/
def AllDecrypt (host : Endian) (ossl : Openssl) :
    Session → Session → List (Item Record Record) → Prop
  | _, _, [] => True
  | a, b, .genuine r :: is =>
    ∃ ct, (recordEncrypt host ossl a r.1 r.2).1 = some ct ∧
      (recordDecrypt host ossl b r.1 ct).1 = some r.2 ∧
      AllDecrypt host ossl (recordEncrypt host ossl a r.1 r.2).2
        (recordDecrypt host ossl b r.1 ct).2 is
  | a, b, .forged x :: is => AllDecrypt host ossl a (recordDecrypt host ossl b x.1 x.2).2 is

/-- The number of forged records that are at least as long as a tag. -/
def longForged : List (Item Record Record) → Nat
  | [] => 0
  | .genuine _ :: is => longForged is
  | .forged x :: is => (if maxTagLen ≤ x.2.length then 1 else 0) + longForged is

/-- `rc_record_encrypt` as a step of the channel. -/
lemma recordEncrypt_eq (host : Endian) (ossl : Openssl) {a : Session} (ha : a.handshakeDone = true)
    (dec : AeadCtx) (r : Record) :
    (recordEncrypt host ossl a r.1 r.2).1.map (r.1, ·) =
        (recordChannel host ossl a.encryptCtx dec).protect a.encryptSeq r ∧
      (recordEncrypt host ossl a r.1 r.2).2 = { a with encryptSeq := a.encryptSeq + 1 } := by
  rw [recordEncrypt, if_neg (by simp [ha])]
  exact ⟨rfl, rfl⟩

/-- `rc_record_decrypt` as a step of the channel. -/
lemma recordDecrypt_eq (host : Endian) (ossl : Openssl) {b : Session} (hb : b.handshakeDone = true)
    (enc : AeadCtx) (x : Record) :
    (recordDecrypt host ossl b x.1 x.2).1.map (x.1, ·) =
        ((recordChannel host ossl enc b.decryptCtx).recv b.decryptSeq x).1 ∧
      (recordDecrypt host ossl b x.1 x.2).2 =
        { b with
          decryptSeq := ((recordChannel host ossl enc b.decryptCtx).recv b.decryptSeq x).2 } := by
  rw [recordDecrypt, if_neg (by simp [hb]), Channel.recv]
  by_cases hx : maxTagLen ≤ x.2.length
  · have adm : (recordChannel host ossl enc b.decryptCtx).admits x = true := decide_eq_true hx
    rw [if_neg (by omega), if_pos adm]
    exact ⟨rfl, rfl⟩
  · rw [if_pos (by omega), if_neg (by simpa [recordChannel] using hx)]
    exact ⟨rfl, rfl⟩

/-- The records that are counted in vain. -/
lemma drift_recordChannel (host : Endian) (ossl : Openssl) (enc dec : AeadCtx)
    (items : List (Item Record Record)) :
    (recordChannel host ossl enc dec).drift items = longForged items := by
  induction items with
  | nil => rfl
  | cons i is ih =>
    cases i with
    | genuine r => exact ih
    | forged x =>
      rw [Channel.drift, longForged, ih]
      simp [recordChannel]

/-- Runs of the record layer are runs of the channel between the two contexts. -/
theorem allDecrypt_iff_lossless {host : Endian} {ossl : Openssl} {a b : Session}
    {items : List (Item Record Record)} (ha : a.handshakeDone = true)
    (hb : b.handshakeDone = true) :
    AllDecrypt host ossl a b items ↔
      (recordChannel host ossl a.encryptCtx b.decryptCtx).Lossless a.encryptSeq b.decryptSeq
        items := by
  induction items generalizing a b with
  | nil => exact Iff.rfl
  | cons i is ih =>
    cases i with
    | genuine r =>
      obtain ⟨he, ha'⟩ := recordEncrypt_eq host ossl ha b.decryptCtx r
      have step : ∀ ct, (recordDecrypt host ossl b r.1 ct).1 = some r.2 ↔
          ((recordChannel host ossl a.encryptCtx b.decryptCtx).recv b.decryptSeq (r.1, ct)).1 =
            some r := by
        intro ct
        rw [← (recordDecrypt_eq host ossl hb a.encryptCtx (r.1, ct)).1]
        cases (recordDecrypt host ossl b r.1 ct).1 with
        | none => simp
        | some out => simp [Prod.ext_iff]
      have rest : ∀ ct, AllDecrypt host ossl (recordEncrypt host ossl a r.1 r.2).2
            (recordDecrypt host ossl b r.1 ct).2 is ↔
          (recordChannel host ossl a.encryptCtx b.decryptCtx).Lossless (a.encryptSeq + 1)
            ((recordChannel host ossl a.encryptCtx b.decryptCtx).recv b.decryptSeq (r.1, ct)).2
            is := by
        intro ct
        rw [ha', (recordDecrypt_eq host ossl hb a.encryptCtx (r.1, ct)).2]
        exact ih ha hb
      constructor
      · rintro ⟨ct, h1, h2, h3⟩
        refine ⟨(r.1, ct), ?_, (step ct).mp h2, (rest ct).mp h3⟩
        rw [← he, h1]
        rfl
      · rintro ⟨x, h1, h2, h3⟩
        rw [← he] at h1
        obtain ⟨ct, hct, rfl⟩ := Option.map_eq_some_iff.mp h1
        exact ⟨ct, hct, (step ct).mpr h2, (rest ct).mpr h3⟩
    | forged x =>
      rw [AllDecrypt, (recordDecrypt_eq host ossl hb a.encryptCtx x).2]
      exact ih ha hb

/-! ## Sessions that feed each other -/

/-- What session `a` encrypts next is what session `b` expects next. -/
structure Feeds (a b : Session) : Prop where
  encDone : a.handshakeDone = true
  decDone : b.handshakeDone = true
  algo : b.decryptCtx.algo = a.encryptCtx.algo
  key : b.decryptCtx.key = a.encryptCtx.key
  salt : b.decryptCtx.nonceSalt = a.encryptCtx.nonceSalt
  seq : b.decryptSeq = a.encryptSeq

/-- The bytes of a payload that reach the cipher, after the `(int)` cast of its length. -/
def evpInput (payload : List UInt8) : List UInt8 := payload.take (payload.length % 2 ^ 32)

lemma evpInput_of_intLen {p : List UInt8} {len : Nat} (h : intLen p.length = some len) :
    p.take len = evpInput p := by
  rw [intLen] at h
  split at h
  · cases h; rfl
  · cases h

/-- A record is recovered under the counter it was encrypted under exactly when its length fits, for
contexts with the same algorithm, key and first four salt bytes. -/
lemma recovered_iff_fits {host : Endian} {ossl : Openssl} {enc dec : AeadCtx} {cipher : EvpCipher}
    (law : ossl.AeadInverts) (hc : enc.algo.cipher = some cipher) (ha : dec.algo = enc.algo)
    (hk : dec.key = enc.key)
    (hs : dec.nonceSalt.slice 0 4 (by decide) = enc.nonceSalt.slice 0 4 (by decide))
    (r : Record) (c : UInt64) :
    Fits r ↔ (recordChannel host ossl enc dec).Recovered c r := by
  have hc' : dec.algo.cipher = some cipher := by rw [ha, hc]
  have hn : deriveNonce dec.nonceSalt c = deriveNonce enc.nonceSalt c := deriveNonce_congr hs c
  constructor
  · intro hf
    obtain ⟨ct, tag, he, hl, hd⟩ :=
      law cipher enc.key (deriveNonce enc.nonceSalt c) (recordAad host r.1) r.2
    have hct : ct.length < 2 ^ 31 := by rw [hl]; exact hf
    refine ⟨(r.1, ct ++ tag.toList), ?_, ?_, ?_⟩
    · simp [recordChannel, aeadEncrypt, hc, intLen_of_lt hf, he]
    · simp [recordChannel, maxTagLen]
    · simp only [recordChannel, hn, aeadDecrypt_append hc' hct, hk, hd]
      rfl
  · rintro ⟨x, hx, -, hu⟩
    obtain ⟨out, hout, rfl⟩ := Option.map_eq_some_iff.mp hx
    obtain ⟨cipher', len, ct, tag, hc1, hlen, he, rfl⟩ := aeadEncrypt_eq_some hout
    cases hc.symm.trans hc1
    obtain ⟨ct', tag', he', hl, hd⟩ :=
      law cipher enc.key (deriveNonce enc.nonceSalt c) (recordAad host r.1) (r.2.take len)
    cases he.symm.trans he'
    have hlt := lt_of_intLen hlen
    have hct : ct.length < 2 ^ 31 := by
      rw [hl, List.length_take]
      omega
    simp only [recordChannel, hn, aeadDecrypt_append hc' hct, hk, hd] at hu
    have hr : r.2.take len = r.2 := congrArg Prod.snd (Option.some.inj hu)
    have hle : r.2.length ≤ len := by
      rw [← hr, List.length_take]
      omega
    exact lt_of_le_of_lt hle hlt

/-- A rejecting cipher recovers no record, for contexts with the same algorithm. -/
lemma recover_eq_none {host : Endian} {ossl : Openssl} {enc dec : AeadCtx} {cipher : EvpCipher}
    (law : ossl.AeadInverts) (hc : enc.algo.cipher = some cipher) (ha : dec.algo = enc.algo)
    {r x : Record} {c d : UInt64}
    (hne : (enc.key, deriveNonce enc.nonceSalt c) ≠ (dec.key, deriveNonce dec.nonceSalt d))
    (hrej : ossl.AeadRejects cipher (recordAad host r.1) (evpInput r.2)
      (enc.key, deriveNonce enc.nonceSalt c) (dec.key, deriveNonce dec.nonceSalt d))
    (hx : (recordChannel host ossl enc dec).protect c r = some x) :
    (recordChannel host ossl enc dec).recover d x = none := by
  obtain ⟨out, hout, rfl⟩ := Option.map_eq_some_iff.mp hx
  obtain ⟨cipher', len, ct, tag, hc1, hlen, he, rfl⟩ := aeadEncrypt_eq_some hout
  cases hc.symm.trans hc1
  rw [evpInput_of_intLen hlen] at he
  obtain ⟨ct', tag', he', hl, -⟩ :=
    law cipher enc.key (deriveNonce enc.nonceSalt c) (recordAad host r.1) (evpInput r.2)
  cases he.symm.trans he'
  have hlt := lt_of_intLen hlen
  have hct : ct.length < 2 ^ 31 := by
    rw [hl, ← evpInput_of_intLen hlen, List.length_take]
    omega
  simp only [recordChannel, aeadDecrypt_append (ha ▸ hc) hct, hrej hne ct tag he]
  rfl

/-! ## Forged records -/

/-- A rejected record leaves the decryption state alone exactly when it is shorter than a tag. -/
lemma recordDecrypt_unchanged_iff (host : Endian) (ossl : Openssl) {s : Session} (hdr : PktHdr)
    (payload : List UInt8) (hd : s.handshakeDone = true) :
    ((recordDecrypt host ossl s hdr payload).2.decryptSeq = s.decryptSeq ∧
      (recordDecrypt host ossl s hdr payload).2.decryptCtx = s.decryptCtx) ↔
      payload.length < maxTagLen := by
  rw [recordDecrypt, if_neg (by simp [hd])]
  split
  · rename_i hl
    exact ⟨fun _ => hl, fun _ => ⟨rfl, rfl⟩⟩
  · rename_i hl
    refine ⟨fun h => ?_, fun h => absurd h hl⟩
    exact absurd (left_eq_add.mp h.1.symm) (by decide)

lemma natCast_counter_eq_zero (n : Nat) : (n : UInt64) = 0 ↔ n % 2 ^ 64 = 0 := by
  rw [← UInt64.toNat_inj]
  have e : (n : UInt64).toNat = n % 2 ^ 64 := UInt64.toNat_ofNat'
  rw [e]
  rfl

/-- What a rejected record does to a session, and to the genuine records behind it. -/
theorem rejected_record_disturbs (host : Endian) (ossl : Openssl) :
    (∀ s hdr payload, s.handshakeDone = true → (recordDecrypt host ossl s hdr payload).1 = none →
      (((recordDecrypt host ossl s hdr payload).2.decryptSeq = s.decryptSeq ∧
        (recordDecrypt host ossl s hdr payload).2.decryptCtx = s.decryptCtx) ↔
        payload.length < maxTagLen)) ∧
    (∀ a b cipher items, ossl.AeadInverts → Feeds a b → a.encryptCtx.algo.cipher = some cipher →
      (∀ r, .genuine r ∈ items → ∀ i j, ossl.AeadRejects cipher (recordAad host r.1) (evpInput r.2)
        (a.encryptCtx.key, deriveNonce a.encryptCtx.nonceSalt i)
        (a.encryptCtx.key, deriveNonce a.encryptCtx.nonceSalt j)) →
      (AllDecrypt host ossl a b items ↔
        ∀ pre r post, items = pre ++ .genuine r :: post →
          Fits r ∧ longForged pre % 2 ^ 64 = 0)) := by
  refine ⟨fun s hdr payload hd _ => recordDecrypt_unchanged_iff host ossl hdr payload hd, ?_⟩
  intro a b cipher items law feeds hc hrej
  have hsalt : b.decryptCtx.nonceSalt.slice 0 4 (by decide) =
      a.encryptCtx.nonceSalt.slice 0 4 (by decide) := by rw [feeds.salt]
  have key := (recordChannel host ossl a.encryptCtx b.decryptCtx).lossless_iff items (F := Fits)
    (c := a.encryptSeq) (k := 0)
    (fun r _ c => recovered_iff_fits law hc feeds.algo feeds.key hsalt r c)
    (fun r hr c d x hne hx => by
      refine recover_eq_none law hc feeds.algo ?_ ?_ hx
      · rw [feeds.key, feeds.salt]
        intro e
        exact hne (deriveNonce_inj (congrArg Prod.snd e)).2
      · rw [feeds.key, feeds.salt]
        exact hrej r hr c d)
  rw [add_zero] at key
  rw [allDecrypt_iff_lossless feeds.encDone feeds.decDone, feeds.seq, key]
  simp only [drift_recordChannel, zero_add, natCast_counter_eq_zero]

/-- The session of the vectors. -/
def sampleSession : Session :=
  (deriveSessionKeys vectors sampleSecret.toList clientRandom serverRandom none none
    (sessionInit .aes256Gcm)).2

/-- A session that decrypts what `sampleSession` encrypts. -/
def sampleReceiver : Session := { sampleSession with decryptCtx := sampleSession.encryptCtx }

/-- The header of the record of the vectors. -/
def sampleHdr : PktHdr := { hdrInit .data 5 7 with payloadLen := 2, flags := 1 }

/-- A forged record of 16 bytes. -/
def sampleForged : Record := (sampleHdr, List.replicate 16 0)

/-- The two sample sessions are peers. -/
lemma sampleReceiver_feeds : Feeds sampleSession sampleReceiver :=
  ⟨by decide +kernel, by decide +kernel, rfl, rfl, rfl, by decide +kernel⟩

/-- The vectors reject the session's records under another counter. -/
lemma sampleSession_rejects (aad pt : List UInt8) (i j : UInt64) :
    vectors.AeadRejects .aes256Gcm aad pt
      (sampleSession.encryptCtx.key, deriveNonce sampleSession.encryptCtx.nonceSalt i)
      (sampleSession.encryptCtx.key, deriveNonce sampleSession.encryptCtx.nonceSalt j) := by
  have hk : sampleSession.encryptCtx.key.slice 0 4 (by decide) ≠ sampleTag.slice 12 4
    (by decide) := by
    decide +kernel
  exact vectors_aeadRejects _ _ _ _ _ (fun hne hn => (hne (Prod.ext rfl hn)).elim) hk hk

/-- After the forged record the genuine one is lost. -/
theorem rejected_record_disturbs_sample :
    ¬ AllDecrypt .little vectors sampleSession sampleReceiver
      [.forged sampleForged, .genuine (sampleHdr, samplePayload)] := by
  rw [(rejected_record_disturbs .little vectors).2 sampleSession sampleReceiver .aes256Gcm _
    vectors_aeadInverts sampleReceiver_feeds (by decide +kernel)
    (fun r _ i j => sampleSession_rejects _ _ i j)]
  intro h
  have h' := (h [.forged sampleForged] (sampleHdr, samplePayload) [] rfl).2
  exact absurd h' (by decide)

/-- A forged record is rejected, moves the counter, and the genuine record behind it is rejected
too, which would have decrypted without it. -/
theorem forged_record_desynchronises :
    (recordEncrypt .little vectors sampleSession sampleHdr samplePayload).1 =
      some (sampleCiphertext ++ sampleTag.toList) ∧
    (recordDecrypt .little vectors sampleReceiver sampleForged.1 sampleForged.2).1 = none ∧
    (recordDecrypt .little vectors sampleReceiver sampleForged.1 sampleForged.2).2.decryptSeq = 1 ∧
    sampleReceiver.decryptSeq = 0 ∧
    (recordDecrypt .little vectors sampleReceiver sampleHdr
      (sampleCiphertext ++ sampleTag.toList)).1 = some samplePayload ∧
    (recordDecrypt .little vectors
      (recordDecrypt .little vectors sampleReceiver sampleForged.1 sampleForged.2).2 sampleHdr
      (sampleCiphertext ++ sampleTag.toList)).1 = none := by
  decide +kernel

end RoboControl.Crypto
