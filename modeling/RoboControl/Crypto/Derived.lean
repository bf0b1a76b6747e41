import RoboControl.Crypto.Record

/-!
# Derived sessions

What `rc_derive_session_keys` leaves (`Keyed`), and when a session decrypts what another session
derived from the same secret encrypts (`Keyed.allDecrypt_iff`): the function has no notion of sides,
so both sessions encrypt under the first half of the material and decrypt under the second.
-/

namespace RoboControl.Crypto
open Base Proto
open scoped UInt64.CommRing

/-- A session as `rc_derive_session_keys` leaves it: the first halves encrypt, the second ones
decrypt. -/
structure Keyed (s : Session) (algo : AeadAlgo) (okm : Bytes 64) (iv : Bytes 24) : Prop where
  done : s.handshakeDone = true
  master : s.masterSecret = okm
  encAlgo : s.encryptCtx.algo = algo
  encKey : s.encryptCtx.key = okm.slice 0 32 (by decide)
  encSalt : s.encryptCtx.nonceSalt = iv.slice 0 12 (by decide)
  decAlgo : s.decryptCtx.algo = algo
  decKey : s.decryptCtx.key = okm.slice 32 32 (by decide)
  decSalt : s.decryptCtx.nonceSalt = iv.slice 12 12 (by decide)
  encSeq : s.encryptSeq = 0
  decSeq : s.decryptSeq = 0

/-- An initialised context has its algorithm and key, also when the salt could not be drawn. -/
lemma aeadInit_snd {algo : AeadAlgo} (ha : algo ≠ .unset) (ctx : AeadCtx) (key : Bytes 32)
    (random : Option (Bytes 12)) :
    (aeadInit ctx algo key random).2.algo = algo ∧ (aeadInit ctx algo key random).2.key = key := by
  cases algo with
  | unset => exact absurd rfl ha
  | aes256Gcm => cases random <;> exact ⟨rfl, rfl⟩
  | chacha20Poly1305 => cases random <;> exact ⟨rfl, rfl⟩

/-- A successful key derivation keeps the derived material as the master secret, whatever the
algorithm. -/
lemma deriveSessionKeys_master {ossl : Openssl} {secret : List UInt8} {cr sr : Bytes 32}
    {er dr : Option (Bytes 12)} {s t : Session}
    (h : deriveSessionKeys ossl secret cr sr er dr s = (0, t)) :
    ∃ okm, hkdfSha256 ossl secret (cr.toList ++ sr.toList) keyExpansionInfo 64 = some okm ∧
      t.masterSecret = okm := by
  rw [deriveSessionKeys] at h
  split at h
  · cases h
  · rename_i okm hk
    dsimp only at h
    split at h
    · cases h
    · cases h
      exact ⟨okm, hk, rfl⟩

/-- What a successful key derivation leaves. -/
lemma deriveSessionKeys_keyed {ossl : Openssl} {secret : List UInt8} {cr sr : Bytes 32}
    {er dr : Option (Bytes 12)} {s t : Session} (ha : s.algo ≠ .unset)
    (h : deriveSessionKeys ossl secret cr sr er dr s = (0, t)) :
    ∃ okm iv, hkdfSha256 ossl secret (cr.toList ++ sr.toList) keyExpansionInfo 64 = some okm ∧
      hkdfSha256 ossl okm.toList (cr.toList ++ sr.toList) ivExpansionInfo 24 = some iv ∧
      Keyed t s.algo okm iv := by
  rw [deriveSessionKeys] at h
  cases hk : hkdfSha256 ossl secret (cr.toList ++ sr.toList) keyExpansionInfo 64 with
  | none =>
    rw [hk] at h
    cases h
  | some okm =>
    rw [hk] at h
    cases hv : hkdfSha256 ossl okm.toList (cr.toList ++ sr.toList) ivExpansionInfo 24 with
    | none =>
      simp only [hv] at h
      cases h
    | some iv =>
      simp only [hv] at h
      cases h
      obtain ⟨ea, ek⟩ := aeadInit_snd ha s.encryptCtx (okm.slice 0 32 (by decide)) er
      obtain ⟨da, dk⟩ := aeadInit_snd ha s.decryptCtx (okm.slice 32 32 (by decide)) dr
      exact ⟨okm, iv, rfl, hv, rfl, rfl, ea, ek, rfl, da, dk, rfl, rfl, rfl⟩

/-- Records between two sessions at the same counter with different keys or nonces:
none decrypts. -/
lemma allDecrypt_iff_nil {host : Endian} {ossl : Openssl} {a b : Session} {cipher : EvpCipher}
    {records : List Record} (ha : a.handshakeDone = true) (hb : b.handshakeDone = true)
    (hseq : b.decryptSeq = a.encryptSeq) (law : ossl.AeadInverts)
    (hc : a.encryptCtx.algo.cipher = some cipher) (halgo : b.decryptCtx.algo = a.encryptCtx.algo)
    (hne : ∀ c, (a.encryptCtx.key, deriveNonce a.encryptCtx.nonceSalt c) ≠
      (b.decryptCtx.key, deriveNonce b.decryptCtx.nonceSalt c))
    (hrej : ∀ r ∈ records, ∀ c, ossl.AeadRejects cipher (recordAad host r.1) (evpInput r.2)
      (a.encryptCtx.key, deriveNonce a.encryptCtx.nonceSalt c)
      (b.decryptCtx.key, deriveNonce b.decryptCtx.nonceSalt c)) :
    AllDecrypt host ossl a b (records.map .genuine) ↔ records = [] := by
  have hnone : ∀ r ∈ records, ∀ c, False ↔
      (recordChannel host ossl a.encryptCtx b.decryptCtx).Recovered c r := by
    intro r hr c
    refine ⟨False.elim, ?_⟩
    rintro ⟨x, hx, -, hrec⟩
    rw [recover_eq_none law hc halgo (hne c) (hrej r hr c) hx] at hrec
    cases hrec
  rw [allDecrypt_iff_lossless ha hb, hseq, Channel.lossless_genuine_iff _ hnone]
  exact List.eq_nil_iff_forall_not_mem.symm

/-- Records between two sessions with the same keys in the same roles: they decrypt exactly when the
two halves coincide, where both are used, and the lengths fit. -/
lemma Keyed.allDecrypt_iff {host : Endian} {ossl : Openssl} {a b : Session} {okm : Bytes 64}
    {iv : Bytes 24} {records : List Record}
    (ka : Keyed a .aes256Gcm okm iv) (kb : Keyed b .aes256Gcm okm iv) (law : ossl.AeadInverts)
    (hrej : ∀ r ∈ records, ∀ c, ossl.AeadRejects .aes256Gcm (recordAad host r.1) (evpInput r.2)
      (okm.slice 0 32 (by decide), deriveNonce (iv.slice 0 12 (by decide)) c)
      (okm.slice 32 32 (by decide), deriveNonce (iv.slice 12 12 (by decide)) c)) :
    AllDecrypt host ossl a b (records.map .genuine) ↔
      records = [] ∨ (okm.slice 32 32 (by decide) = okm.slice 0 32 (by decide) ∧
        (iv.slice 12 12 (by decide)).slice 0 4 (by decide) =
          (iv.slice 0 12 (by decide)).slice 0 4 (by decide) ∧
        ∀ r ∈ records, Fits r) := by
  rw [← ka.encKey, ← ka.encSalt, ← kb.decKey, ← kb.decSalt] at hrej ⊢
  have hc : a.encryptCtx.algo.cipher = some .aes256Gcm := by rw [ka.encAlgo]; rfl
  have halgo : b.decryptCtx.algo = a.encryptCtx.algo := by rw [ka.encAlgo, kb.decAlgo]
  have hseq : b.decryptSeq = a.encryptSeq := by rw [ka.encSeq, kb.decSeq]
  by_cases hsame : b.decryptCtx.key = a.encryptCtx.key ∧
      b.decryptCtx.nonceSalt.slice 0 4 (by decide) = a.encryptCtx.nonceSalt.slice 0 4 (by decide)
  · rw [allDecrypt_iff_lossless ka.done kb.done, hseq, Channel.lossless_genuine_iff _ fun r _ c =>
      recovered_iff_fits law hc halgo hsame.1 hsame.2 r c]
    constructor
    · exact fun h => .inr ⟨hsame.1, hsame.2, h⟩
    · rintro (rfl | ⟨-, -, h⟩)
      · simp
      · exact h
  · rw [allDecrypt_iff_nil ka.done kb.done hseq law hc halgo (fun c e => ?_) hrej]
    · exact (or_iff_left fun h => hsame ⟨h.1, h.2.1⟩).symm
    · exact hsame ⟨(congrArg Prod.fst e).symm, (deriveNonce_inj (congrArg Prod.snd e)).1.symm⟩

end RoboControl.Crypto
