import RoboControl.Base.Bytes

/-!
# OpenSSL

What `src/core/rc_crypto.c` calls of OpenSSL, as a parameter of the model: the deterministic
functions `Openssl`, each with the failure its return code reports, and what the development assumes
of them where it does (`X25519Commutes`, `AeadInverts`, `AeadRejects`). Nothing is assumed of inputs
that a run does not use: no function into 16 or 32 bytes is injective on all byte strings.

`vectors` is an `Openssl` that returns what the library returns on the inputs of one handshake, two
key rotations and one record (`clientPriv`, `serverPriv`, `clientRandom`, `serverRandom`,
`sampleAad`, `samplePayload`), so that the model can be run.
-/

namespace RoboControl.Crypto
open Base

/-- The ciphers the file asks OpenSSL for. -/
inductive EvpCipher where
  | aes256Gcm
  | chacha20Poly1305
  deriving DecidableEq, Repr

/-- The functions of OpenSSL that the file calls, as functions of their inputs. -/
structure Openssl where
  /-- The public key of an X25519 private key. -/
  x25519Public : Bytes 32 → Bytes 32
  /-- X25519 of a private and a public key (`EVP_PKEY_derive`). -/
  x25519 : Bytes 32 → Bytes 32 → Option (Bytes 32)
  /-- HKDF-SHA256 of input key material, salt and info, with the length asked for. -/
  hkdf : List UInt8 → List UInt8 → List UInt8 → (n : Nat) → Option (Bytes n)
  /-- HMAC-SHA256 of a key and data. -/
  hmac : List UInt8 → List UInt8 → Option (Bytes 32)
  /-- AEAD encryption of a plaintext under key, nonce and AAD: ciphertext and tag. -/
  evpEncrypt : EvpCipher → Bytes 32 → Bytes 12 → List UInt8 → List UInt8 →
    Option (List UInt8 × Bytes 16)
  /-- AEAD decryption of a ciphertext and tag under key, nonce and AAD. -/
  evpDecrypt : EvpCipher → Bytes 32 → Bytes 12 → List UInt8 → List UInt8 → List UInt8 →
    Option (List UInt8)

/-- Both sides of an X25519 exchange get the same secret. -/
def Openssl.X25519Commutes (ossl : Openssl) : Prop :=
  ∀ a b, ossl.x25519 a (ossl.x25519Public b) = ossl.x25519 b (ossl.x25519Public a)

/-- AEAD encryption succeeds and keeps the length; decryption under the same key, nonce and AAD
inverts it. -/
def Openssl.AeadInverts (ossl : Openssl) : Prop :=
  ∀ cipher key nonce aad pt, ∃ ct tag,
    ossl.evpEncrypt cipher key nonce aad pt = some (ct, tag) ∧ ct.length = pt.length ∧
      ossl.evpDecrypt cipher key nonce aad ct tag.toList = some pt

/-- What was encrypted under one key and nonce does not decrypt under another key or nonce. -/
def Openssl.AeadRejects (ossl : Openssl) (cipher : EvpCipher) (aad pt : List UInt8)
    (used tried : Bytes 32 × Bytes 12) : Prop :=
  used ≠ tried → ∀ ct tag, ossl.evpEncrypt cipher used.1 used.2 aad pt = some (ct, tag) →
    ossl.evpDecrypt cipher tried.1 tried.2 aad ct tag.toList = none

/-! ## Vectors -/

/-- An X25519 private key. -/
def clientPriv : Bytes 32 :=
  ⟨[
    64, 65, 66, 67, 68, 69, 70, 71, 72, 73, 74, 75, 76, 77, 78, 79, 80, 81, 82, 83, 84, 85,
    86, 87, 88, 89, 90, 91, 92, 93, 94, 95], rfl⟩

/-- The public key of `clientPriv`. -/
def clientPub : Bytes 32 :=
  ⟨[
    121, 166, 49, 238, 222, 27, 249, 201, 143, 18, 3, 44, 222, 173, 208, 231, 160, 121, 57,
    143, 199, 134, 184, 140, 200, 70, 236, 137, 175, 133, 165, 26], rfl⟩

/-- An X25519 private key. -/
def serverPriv : Bytes 32 :=
  ⟨[
    96, 97, 98, 99, 100, 101, 102, 103, 104, 105, 106, 107, 108, 109, 110, 111, 112, 113, 114,
    115, 116, 117, 118, 119, 120, 121, 122, 123, 124, 125, 126, 127], rfl⟩

/-- The public key of `serverPriv`. -/
def serverPub : Bytes 32 :=
  ⟨[
    103, 93, 213, 116, 237, 119, 137, 49, 11, 61, 46, 118, 129, 243, 121, 11, 70, 108, 119,
    59, 21, 33, 254, 207, 54, 87, 121, 88, 55, 30, 165, 47], rfl⟩

/-- X25519 of `clientPriv` and `serverPub`. -/
def sampleSecret : Bytes 32 :=
  ⟨[
    214, 251, 147, 149, 17, 178, 56, 27, 200, 89, 155, 75, 142, 220, 89, 104, 130, 148, 80,
    223, 215, 168, 122, 235, 231, 138, 112, 60, 208, 76, 213, 78], rfl⟩

/-- A client random. -/
def clientRandom : Bytes 32 := ⟨List.replicate 32 0x22, rfl⟩

/-- A server random. -/
def serverRandom : Bytes 32 := ⟨List.replicate 32 0x33, rfl⟩

/-- The key expansion of `sampleSecret` with these randoms. -/
def sampleOkm : Bytes 64 :=
  ⟨[
    98, 30, 135, 10, 128, 249, 147, 54, 241, 69, 20, 101, 36, 227, 57, 107, 84, 96, 61, 51,
    201, 52, 226, 133, 13, 240, 172, 55, 148, 247, 208, 164, 56, 191, 30, 164, 224, 191, 13,
    59, 250, 141, 63, 84, 122, 13, 86, 113, 107, 192, 48, 54, 212, 15, 210, 27, 179, 44, 55,
    136, 198, 186, 180, 54], rfl⟩

/-- The iv expansion of `sampleOkm` with these randoms. -/
def sampleIv : Bytes 24 :=
  ⟨[
    188, 238, 170, 255, 115, 101, 177, 49, 103, 61, 2, 206, 41, 224, 211, 49, 238, 89, 226,
    27, 143, 139, 60, 62], rfl⟩

/-- The key rotation of `sampleOkm` at counter 0. -/
def sampleRotation0 : Bytes 64 :=
  ⟨[
    44, 37, 37, 144, 93, 46, 125, 111, 68, 158, 214, 44, 65, 127, 61, 56, 235, 126, 32, 153,
    87, 240, 19, 99, 147, 230, 193, 234, 133, 244, 238, 5, 26, 57, 179, 191, 102, 59, 68, 6,
    36, 163, 7, 48, 41, 187, 23, 182, 182, 134, 247, 100, 78, 218, 204, 216, 160, 113, 58,
    117, 245, 76, 214, 24], rfl⟩

/-- The key rotation of `sampleOkm` at counter 1. -/
def sampleRotation1 : Bytes 64 :=
  ⟨[
    178, 87, 197, 80, 203, 158, 74, 231, 219, 61, 95, 59, 254, 209, 89, 153, 69, 157, 131, 45,
    178, 66, 191, 105, 122, 17, 183, 60, 125, 155, 174, 57, 232, 87, 250, 11, 121, 196, 57,
    167, 96, 24, 190, 87, 54, 227, 19, 27, 235, 186, 94, 191, 242, 135, 67, 35, 193, 163, 70,
    17, 171, 28, 111, 60], rfl⟩

/-- HMAC of the transcript that a client with these keys and connection id 7 authenticates. -/
def sampleClientMac : Bytes 32 :=
  ⟨[
    4, 233, 70, 166, 151, 140, 203, 130, 35, 248, 74, 225, 44, 125, 112, 247, 184, 174, 229,
    18, 131, 162, 39, 52, 78, 126, 21, 174, 213, 61, 173, 61], rfl⟩

/-- HMAC of the transcript that its server rebuilds. -/
def sampleServerMac : Bytes 32 :=
  ⟨[
    214, 176, 166, 74, 51, 38, 175, 245, 111, 95, 1, 7, 74, 81, 114, 207, 234, 31, 121, 215,
    204, 141, 25, 54, 84, 132, 4, 221, 118, 138, 25, 208], rfl⟩

/-- The bytes of a data packet's header. -/
def sampleAad : List UInt8 :=
  [
    82, 79, 66, 79, 0, 1, 0, 3, 0, 0, 0, 5, 0, 0, 0, 0, 0, 0, 0, 0, 0, 0, 0, 0, 0, 2, 0, 1, 0,
    0, 0, 7]

/-- A payload. -/
def samplePayload : List UInt8 := [104, 105]

/-- The first half of `sampleOkm`. -/
def sampleKey : Bytes 32 := sampleOkm.slice 0 32 low_half_le

/-- The nonce of `sampleIv` at counter 0. -/
def sampleNonce : Bytes 12 := (sampleIv.slice 0 4 (by decide)).append (.zeros 8)

/-- AES-256-GCM of `samplePayload` under `sampleKey`, `sampleNonce` and `sampleAad`. -/
def sampleCiphertext : List UInt8 := [103, 250]

/-- The tag of `sampleCiphertext`. -/
def sampleTag : Bytes 16 :=
  ⟨[150, 25, 8, 200, 135, 25, 195, 44, 149, 239, 17, 148, 229, 140, 94, 192], rfl⟩

/-- The tag that stands for every other record. -/
def plainTag (key : Bytes 32) (nonce : Bytes 12) : Bytes 16 :=
  nonce.append (key.slice 0 4 (by decide))

/-- What HKDF gives on the vectors; rotations have a salt of 40 bytes. -/
def sampleHkdf (salt info : List UInt8) : List UInt8 :=
  if salt.length = 40 then
    if salt.getLast? = some 0 then sampleRotation0.toList else sampleRotation1.toList
  else if info.length = 28 then sampleOkm.toList
  else sampleIv.toList

/-- OpenSSL on the vectors. -/
def vectors : Openssl where
  x25519Public k :=
    if k = clientPriv then clientPub else if k = serverPriv then serverPub else .zeros 32
  x25519 k p :=
    if (k = clientPriv ∧ p = serverPub) ∨ (k = serverPriv ∧ p = clientPub) then some sampleSecret
    else none
  hkdf _ salt info n := Bytes.ofList n (sampleHkdf salt info)
  hmac _ data := some (if data[27]? = some 0x10 then sampleClientMac else sampleServerMac)
  evpEncrypt _ key nonce aad pt :=
    if key = sampleKey ∧ nonce = sampleNonce ∧ aad = sampleAad ∧ pt = samplePayload then
      some (sampleCiphertext, sampleTag)
    else some (pt, plainTag key nonce)
  evpDecrypt _ key nonce aad ct tag :=
    if key = sampleKey ∧ nonce = sampleNonce ∧ aad = sampleAad ∧ ct = sampleCiphertext ∧
        tag = sampleTag.toList then
      some samplePayload
    else if tag = (plainTag key nonce).toList then some ct
    else none

lemma vectors_x25519Public (k : Bytes 32) :
    (k = clientPriv ∧ vectors.x25519Public k = clientPub) ∨
      (k = serverPriv ∧ vectors.x25519Public k = serverPub) ∨
      (k ≠ clientPriv ∧ k ≠ serverPriv ∧ vectors.x25519Public k = .zeros 32) := by
  by_cases hc : k = clientPriv
  · exact .inl ⟨hc, by simp [vectors, hc]⟩
  · by_cases hs : k = serverPriv
    · subst hs
      exact .inr (.inl ⟨rfl, by simp [vectors, hc]⟩)
    · exact .inr (.inr ⟨hc, hs, by simp [vectors, hc, hs]⟩)

/-- The test vectors share a secret. -/
lemma vectors_x25519Commutes : vectors.X25519Commutes := by
  intro a b
  have hz : Bytes.zeros 32 ≠ serverPub ∧ Bytes.zeros 32 ≠ clientPub := by decide
  have hp : clientPub ≠ serverPub ∧ clientPriv ≠ serverPriv := by decide
  obtain ⟨ha, ea⟩ | ⟨ha, ea⟩ | ⟨ha, ha', ea⟩ := vectors_x25519Public a <;>
  obtain ⟨hb, eb⟩ | ⟨hb, eb⟩ | ⟨hb, hb', eb⟩ := vectors_x25519Public b <;>
    rw [ea, eb] <;> simp_all [vectors, eq_comm]

/-- The test vectors decrypt. -/
lemma vectors_aeadInverts : vectors.AeadInverts := by
  intro cipher key nonce aad pt
  have ht : sampleTag.toList ≠ (plainTag sampleKey sampleNonce).toList := by decide
  by_cases h : key = sampleKey ∧ nonce = sampleNonce ∧ aad = sampleAad ∧ pt = samplePayload
  · obtain ⟨rfl, rfl, rfl, rfl⟩ := h
    exact ⟨sampleCiphertext, sampleTag, by simp [vectors], rfl, by simp [vectors]⟩
  · refine ⟨pt, plainTag key nonce, by simp only [vectors, if_neg h], rfl, ?_⟩
    simp only [vectors, if_true]
    split
    · rename_i he
      obtain ⟨rfl, rfl, -, -, he⟩ := he
      exact absurd he.symm ht
    · rfl

/-- The tag of the sample record stands for no other record under such a key. -/
lemma plainTag_ne_sampleTag {key : Bytes 32} (nonce : Bytes 12)
    (hk : key.slice 0 4 (by decide) ≠ sampleTag.slice 12 4 (by decide)) :
    (plainTag key nonce).toList ≠ sampleTag.toList := by
  intro e
  have e' : plainTag key nonce = sampleTag := Bytes.ext e
  refine hk (Bytes.ext ?_)
  rw [← e']
  simp [plainTag]

/-- The vectors reject a record under another nonce, or under a key that begins otherwise. -/
lemma vectors_aeadRejects (cipher : EvpCipher) (aad pt : List UInt8)
    (used tried : Bytes 32 × Bytes 12) (h : used ≠ tried → used.2 = tried.2 →
      used.1.slice 0 4 (by decide) ≠ tried.1.slice 0 4 (by decide))
    (hu : used.1.slice 0 4 (by decide) ≠ sampleTag.slice 12 4 (by decide))
    (ht : tried.1.slice 0 4 (by decide) ≠ sampleTag.slice 12 4 (by decide)) :
    vectors.AeadRejects cipher aad pt used tried := by
  intro hne ct tag henc
  simp only [vectors] at henc ⊢
  split at henc
  · rename_i hs
    cases henc
    have hk : ¬ (tried.1 = sampleKey ∧ tried.2 = sampleNonce) := by
      rintro ⟨hk', hn'⟩
      exact hne (Prod.ext (hs.1.trans hk'.symm) (hs.2.1.trans hn'.symm))
    rw [if_neg (fun hc => hk ⟨hc.1, hc.2.1⟩), if_neg (plainTag_ne_sampleTag tried.2 ht).symm]
  · cases henc
    rw [if_neg (fun hc => plainTag_ne_sampleTag used.2 hu hc.2.2.2.2), if_neg]
    intro e
    have e' : plainTag used.1 used.2 = plainTag tried.1 tried.2 := Bytes.ext e
    obtain ⟨en, ek⟩ := Bytes.append_inj e'
    exact h hne en ek

end RoboControl.Crypto
