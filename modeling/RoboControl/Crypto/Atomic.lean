import RoboControl.Crypto.Rotation

/-!
# Key changes that fail

What `rc_derive_session_keys` and `rc_session_rotate_keys` of `src/core/rc_crypto.c` leave when one
of the calls they make fails. A key change is atomic if it returns `0` and has installed new keys
(`Installed`), or returns `-1` and has changed nothing. `key_change_atomic_iff` says after which
results of HKDF and of `RAND_bytes` the two functions are: the first writes the master secret before
its second call of HKDF and does not look at what `rc_aead_init` returns, the second does not look
at what `rc_random_bytes` returns.
-/

namespace RoboControl.Crypto
open Base Proto

/-- Both contexts of a session have an algorithm, the halves of the material as their keys and these
salts, and both counters are zero. -/
structure Installed (s : Session) (okm : Bytes 64) (encSalt decSalt : Bytes 12) : Prop where
  encAlgo : s.encryptCtx.algo ≠ .unset
  decAlgo : s.decryptCtx.algo ≠ .unset
  encKey : s.encryptCtx.key = okm.slice 0 32 low_half_le
  decKey : s.decryptCtx.key = okm.slice 32 32 high_half_le
  encSalt : s.encryptCtx.nonceSalt = encSalt
  decSalt : s.decryptCtx.nonceSalt = decSalt
  encSeq : s.encryptSeq = 0
  decSeq : s.decryptSeq = 0

section Atomic
variable (ossl : Openssl) (secret : List UInt8) (cr sr : Bytes 32) (er dr : Option (Bytes 12))
variable (s : Session)

/-- The material that a key derivation gets from its first call of HKDF. -/
def derivedOkm : Option (Bytes 64) :=
  hkdfSha256 ossl secret (cr.toList ++ sr.toList) keyExpansionInfo 64

/-- The salts that a key derivation gets from its second call of HKDF. -/
def derivedIv (okm : Bytes 64) : Option (Bytes 24) :=
  hkdfSha256 ossl okm.toList (cr.toList ++ sr.toList) ivExpansionInfo 24

/-- The material of a key rotation. -/
def rotatedOkm : Option (Bytes 64) :=
  hkdfSha256 ossl s.rotationKey.toList s.rotationSalt keyRotationInfo 64

/-- The first salt of the 24 bytes. -/
lemma first_salt_le : 0 + 12 ≤ 24 := by decide

/-- The second salt of the 24 bytes. -/
lemma second_salt_le : 12 + 12 ≤ 24 := by decide

/-- A key derivation installs the derived keys and salts, or fails and changes nothing. -/
def DeriveAtomic : Prop :=
  (∃ okm iv, derivedOkm ossl secret cr sr = some okm ∧ derivedIv ossl cr sr okm = some iv ∧
      (deriveSessionKeys ossl secret cr sr er dr s).1 = 0 ∧
      Installed (deriveSessionKeys ossl secret cr sr er dr s).2 okm (iv.slice 0 12 first_salt_le)
        (iv.slice 12 12 second_salt_le)) ∨
    deriveSessionKeys ossl secret cr sr er dr s = (-1, s)

/-- A key rotation installs the derived keys and the salts it has drawn, or fails and
changes nothing. -/
def RotateAtomic : Prop :=
  (∃ okm encSalt decSalt, rotatedOkm ossl s = some okm ∧ er = some encSalt ∧ dr = some decSalt ∧
      (sessionRotateKeys ossl er dr s).1 = 0 ∧
      Installed (sessionRotateKeys ossl er dr s).2 okm encSalt decSalt) ∨
    sessionRotateKeys ossl er dr s = (-1, s)

variable {ossl secret cr sr er dr s}

/-- A key derivation whose second call of HKDF fails has written the master secret. -/
lemma deriveSessionKeys_of_iv_fails {okm : Bytes 64}
    (hokm : derivedOkm ossl secret cr sr = some okm) (hiv : derivedIv ossl cr sr okm = none) :
    deriveSessionKeys ossl secret cr sr er dr s = (-1, { s with masterSecret := okm }) := by
  rw [derivedOkm] at hokm
  rw [derivedIv] at hiv
  rw [deriveSessionKeys, hokm]
  simp only [hiv]

/-- A key derivation whose calls of HKDF succeed returns `0`, also when the contexts have
no algorithm. -/
lemma deriveSessionKeys_of_hkdf {okm : Bytes 64} {iv : Bytes 24}
    (hokm : derivedOkm ossl secret cr sr = some okm) (hiv : derivedIv ossl cr sr okm = some iv) :
    ∃ t, deriveSessionKeys ossl secret cr sr er dr s = (0, t) ∧
      (s.algo = .unset → t.encryptCtx.algo = .unset) := by
  rw [derivedOkm] at hokm
  rw [derivedIv] at hiv
  rw [deriveSessionKeys, hokm]
  simp only [hiv]
  refine ⟨_, rfl, fun h => ?_⟩
  show (aeadInit s.encryptCtx s.algo _ er).2.algo = .unset
  rw [h]
  rfl

/-- Keys that are installed. -/
lemma Keyed.installed {t : Session} {algo : AeadAlgo} {okm : Bytes 64} {iv : Bytes 24}
    (keyed : Keyed t algo okm iv) (halgo : algo ≠ .unset) :
    Installed t okm (iv.slice 0 12 first_salt_le) (iv.slice 12 12 second_salt_le) where
  encAlgo := keyed.encAlgo ▸ halgo
  decAlgo := keyed.decAlgo ▸ halgo
  encKey := keyed.encKey
  decKey := keyed.decKey
  encSalt := keyed.encSalt
  decSalt := keyed.decSalt
  encSeq := keyed.encSeq
  decSeq := keyed.decSeq

/-- When the second call of HKDF fails, only the master secret can have changed. -/
lemma deriveAtomic_iff_of_iv_fails {okm : Bytes 64} (hokm : derivedOkm ossl secret cr sr = some okm)
    (hiv : derivedIv ossl cr sr okm = none) :
    DeriveAtomic ossl secret cr sr er dr s ↔ okm = s.masterSecret := by
  rw [DeriveAtomic, deriveSessionKeys_of_iv_fails hokm hiv]
  constructor
  · rintro (⟨okm', iv, -, -, hret, -⟩ | h)
    · have hret : (-1 : Int) = 0 := hret
      exact absurd hret (by decide)
    · exact congrArg (fun p => p.2.masterSecret) h
  · rintro rfl
    exact .inr rfl

/-- When both calls of HKDF succeed, only the algorithm can be missing. -/
lemma deriveAtomic_iff_of_hkdf {okm : Bytes 64} {iv : Bytes 24}
    (hokm : derivedOkm ossl secret cr sr = some okm) (hiv : derivedIv ossl cr sr okm = some iv) :
    DeriveAtomic ossl secret cr sr er dr s ↔ s.algo ≠ .unset := by
  obtain ⟨t, ht, hunset⟩ : ∃ t, deriveSessionKeys ossl secret cr sr er dr s = (0, t) ∧
      (s.algo = .unset → t.encryptCtx.algo = .unset) := deriveSessionKeys_of_hkdf hokm hiv
  rw [DeriveAtomic, ht]
  constructor
  · rintro (⟨okm', iv', -, -, -, installed⟩ | h)
    · exact fun h => installed.encAlgo (hunset h)
    · have hret : (0 : Int) = -1 := congrArg Prod.fst h
      exact absurd hret (by decide)
  · intro halgo
    obtain ⟨okm', iv', hokm', hiv', keyed⟩ := deriveSessionKeys_keyed halgo ht
    cases hokm.symm.trans hokm'
    cases hiv.symm.trans hiv'
    exact .inl ⟨okm, iv, hokm, hiv, rfl, keyed.installed halgo⟩

/-- When the first keys are installed whole. -/
lemma deriveAtomic_iff : DeriveAtomic ossl secret cr sr er dr s ↔
    derivedOkm ossl secret cr sr = none ∨ ∃ okm, derivedOkm ossl secret cr sr = some okm ∧
      (derivedIv ossl cr sr okm = none ∧ okm = s.masterSecret ∨
        derivedIv ossl cr sr okm ≠ none ∧ s.algo ≠ .unset) := by
  cases hokm : derivedOkm ossl secret cr sr with
  | none =>
    refine iff_of_true (.inr ?_) (.inl rfl)
    rw [derivedOkm] at hokm
    rw [deriveSessionKeys, hokm]
  | some okm =>
    rw [or_iff_right (Option.some_ne_none okm)]
    cases hiv : derivedIv ossl cr sr okm with
    | none =>
      rw [deriveAtomic_iff_of_iv_fails hokm hiv]
      constructor
      · exact fun h => ⟨okm, rfl, .inl ⟨hiv, h⟩⟩
      · rintro ⟨_, ⟨⟩, ⟨-, h⟩ | ⟨hne, -⟩⟩
        · exact h
        · exact absurd hiv hne
    | some iv =>
      have hne : derivedIv ossl cr sr okm ≠ none :=
        fun h => Option.some_ne_none iv (hiv.symm.trans h)
      rw [deriveAtomic_iff_of_hkdf hokm hiv]
      constructor
      · exact fun h => ⟨okm, rfl, .inr ⟨hne, h⟩⟩
      · rintro ⟨_, ⟨⟩, ⟨hnone, -⟩ | ⟨-, h⟩⟩
        · exact absurd hnone hne
        · exact h

/-- When new keys are installed whole. -/
lemma rotateAtomic_iff : RotateAtomic ossl er dr s ↔
    s.handshakeDone = false ∨ rotatedOkm ossl s = none ∨
      (er ≠ none ∧ dr ≠ none ∧ s.encryptCtx.algo ≠ .unset ∧ s.decryptCtx.algo ≠ .unset) := by
  rw [RotateAtomic]
  cases hdone : s.handshakeDone with
  | false =>
    refine iff_of_true (.inr ?_) (.inl rfl)
    rw [sessionRotateKeys, if_pos hdone]
  | true =>
    rw [or_iff_right (show ¬ true = false by decide)]
    cases hokm : rotatedOkm ossl s with
    | none =>
      refine iff_of_true (.inr ?_) (.inl rfl)
      rw [rotatedOkm] at hokm
      rw [sessionRotateKeys, if_neg (by simp [hdone]), hokm]
    | some okm =>
      rw [sessionRotateKeys_of_hkdf hdone er dr hokm, or_iff_right (Option.some_ne_none okm)]
      constructor
      · rintro (⟨okm', encSalt, decSalt, -, rfl, rfl, -, installed⟩ | h)
        · exact ⟨Option.some_ne_none _, Option.some_ne_none _, installed.encAlgo, installed.decAlgo⟩
        · have hret : (0 : Int) = -1 := congrArg Prod.fst h
          exact absurd hret (by decide)
      · rintro ⟨hencDraw, hdecDraw, hencAlgo, hdecAlgo⟩
        obtain ⟨encSalt, rfl⟩ := Option.ne_none_iff_exists'.mp hencDraw
        obtain ⟨decSalt, rfl⟩ := Option.ne_none_iff_exists'.mp hdecDraw
        exact .inl ⟨okm, encSalt, decSalt, rfl, rfl, rfl, rfl, hencAlgo, hdecAlgo, rfl, rfl, rfl,
          rfl, rfl, rfl⟩

end Atomic

/-- A key derivation is atomic if and only if its first call of HKDF fails, or its second call fails
and the master secret was the same before, or both succeed and the session has an algorithm. A key
rotation is atomic if and only if the session has no keys, or its call of HKDF fails, or both salts
are drawn and both contexts have an algorithm. -/
theorem key_change_atomic_iff (ossl : Openssl) (secret : List UInt8) (cr sr : Bytes 32)
    (er dr : Option (Bytes 12)) (s : Session) :
    (DeriveAtomic ossl secret cr sr er dr s ↔
      derivedOkm ossl secret cr sr = none ∨ ∃ okm, derivedOkm ossl secret cr sr = some okm ∧
        (derivedIv ossl cr sr okm = none ∧ okm = s.masterSecret ∨
          derivedIv ossl cr sr okm ≠ none ∧ s.algo ≠ .unset)) ∧
      (RotateAtomic ossl er dr s ↔
        s.handshakeDone = false ∨ rotatedOkm ossl s = none ∨
          (er ≠ none ∧ dr ≠ none ∧ s.encryptCtx.algo ≠ .unset ∧ s.decryptCtx.algo ≠ .unset)) :=
  ⟨deriveAtomic_iff, rotateAtomic_iff⟩

/-- The vectors, with a failure of HKDF for the salts. -/
def ivFails : Openssl :=
  { vectors with
    hkdf := fun ikm salt info n =>
      if info = ivExpansionInfo then none else vectors.hkdf ikm salt info n }

/-- A key derivation that returns `-1` has written the master secret; one for a session
without an algorithm returns `0` and leaves the keys zero; and a key rotation returns `0` with
the old salts. -/
theorem key_change_half_done :
    ((deriveSessionKeys ivFails sampleSecret.toList clientRandom serverRandom none none
        (sessionInit .aes256Gcm)).1 = -1 ∧
      (deriveSessionKeys ivFails sampleSecret.toList clientRandom serverRandom none none
        (sessionInit .aes256Gcm)).2.masterSecret = sampleOkm ∧
      (sessionInit .aes256Gcm).masterSecret ≠ sampleOkm) ∧
    ((deriveSessionKeys vectors sampleSecret.toList clientRandom serverRandom none none
        (sessionInit .unset)).1 = 0 ∧
      (deriveSessionKeys vectors sampleSecret.toList clientRandom serverRandom none none
        (sessionInit .unset)).2.encryptCtx.key = .zeros 32) ∧
    (sessionRotateKeys vectors none none sampleSession).1 = 0 ∧
      (sessionRotateKeys vectors none none sampleSession).2.encryptCtx.nonceSalt =
        sampleSession.encryptCtx.nonceSalt := by
  decide +kernel

end RoboControl.Crypto
