import RoboControl.Proto.Header
import RoboControl.Crypto.Openssl

/-!
# Cryptographic sessions

Model of `src/core/rc_crypto.c` and `include/rc_crypto.h`: AEAD contexts, the key derivation
`deriveSessionKeys` (C `rc_derive_session_keys`), the key rotation `sessionRotateKeys`
(C `rc_session_rotate_keys`) and the record layer `recordEncrypt`/`recordDecrypt`
(C `rc_record_encrypt`/`rc_record_decrypt`).

OpenSSL is the parameter `Openssl`. What it draws at random (keys, nonces, salts) is an argument of
the function that asks for it, `none` when `RAND_bytes` fails. A C function that returns `0` or `-1`
and fills a buffer returns an `Option` here; one that updates its session also returns the session,
on every path, since an early `return -1` leaves the updates made before it. The `NULL` checks have
no counterpart.
-/

namespace RoboControl.Crypto
open Base Proto

/-- The `(int)` cast of a length: what does not fit an `int` is cut, and a negative length fails. -/
def intLen (n : Nat) : Option Nat := if n % 2 ^ 32 < 2 ^ 31 then some (n % 2 ^ 32) else none

/-- A C string literal as bytes, without its terminator. -/
def cstr (s : String) : List UInt8 := s.toList.map fun c => UInt8.ofNat c.toNat

/-! ## AEAD contexts -/

/-- AEAD algorithms (C `rc_aead_algo_t`); `unset` is the zero of a cleared struct. -/
inductive AeadAlgo where
  | unset
  | aes256Gcm
  | chacha20Poly1305
  deriving DecidableEq, Repr

/-- The number of an algorithm, as a cipher suite id. -/
def AeadAlgo.code : AeadAlgo → UInt16
  | .unset => 0
  | .aes256Gcm => 1
  | .chacha20Poly1305 => 2

/-- The cipher of an algorithm (the `switch` of `rc_aead_encrypt` and `rc_aead_decrypt`). -/
def AeadAlgo.cipher : AeadAlgo → Option EvpCipher
  | .unset => none
  | .aes256Gcm => some .aes256Gcm
  | .chacha20Poly1305 => some .chacha20Poly1305

/-- Size of the AEAD tag (C `RC_MAX_TAG_LEN`). -/
def maxTagLen : Nat := 16

/-- AEAD context (C `rc_aead_ctx_t`). -/
structure AeadCtx where
  algo : AeadAlgo
  key : Bytes 32
  keyLen : UInt32
  nonceCounter : UInt64
  nonceSalt : Bytes 12
  deriving DecidableEq

/-- A context filled with zero bytes. -/
def AeadCtx.zero : AeadCtx where
  algo := .unset
  key := .zeros 32
  keyLen := 0
  nonceCounter := 0
  nonceSalt := .zeros 12

/-- Initialise a context with a key and a random salt (C `rc_aead_init`). -/
def aeadInit (ctx : AeadCtx) (algo : AeadAlgo) (key : Bytes 32) (random : Option (Bytes 12)) :
    Int × AeadCtx :=
  let ctx := { ctx with algo, nonceCounter := 0 }
  match algo with
  | .unset => (-1, ctx)
  | .aes256Gcm | .chacha20Poly1305 =>
    let ctx := { ctx with keyLen := 32, key }
    match random with
    | none => (-1, ctx)
    | some nonceSalt => (0, { ctx with nonceSalt })

/-- Encrypt and append the tag (C `rc_aead_encrypt`). -/
def aeadEncrypt (ossl : Openssl) (ctx : AeadCtx) (nonce : Bytes 12) (plaintext aad : List UInt8) :
    Option (List UInt8) := do
  let cipher ← ctx.algo.cipher
  let len ← intLen plaintext.length
  let (ct, tag) ← ossl.evpEncrypt cipher ctx.key nonce aad (plaintext.take len)
  return ct ++ tag.toList

/-- Decrypt and check the appended tag (C `rc_aead_decrypt`). -/
def aeadDecrypt (ossl : Openssl) (ctx : AeadCtx) (nonce : Bytes 12) (ciphertext aad : List UInt8) :
    Option (List UInt8) := do
  if ciphertext.length < maxTagLen then none
  let cipher ← ctx.algo.cipher
  let encLen := ciphertext.length - maxTagLen
  let len ← intLen encLen
  ossl.evpDecrypt cipher ctx.key nonce aad (ciphertext.take len) (ciphertext.drop encLen)

/-- Nonce of a salt and a counter: `salt[0..3] || counter_be64` (C `rc_derive_nonce`). -/
def deriveNonce (salt : Bytes 12) (counter : UInt64) : Bytes 12 :=
  (salt.slice 0 4 (by decide)).append ⟨store .big 8 counter.toNat, length_store _ _ _⟩

/-! ## Key derivation -/

/-- HKDF-SHA256 with the output limit (C `rc_hkdf_sha256`). -/
def hkdfSha256 (ossl : Openssl) (ikm salt info : List UInt8) (n : Nat) : Option (Bytes n) :=
  if n > 255 * 32 then none else ossl.hkdf ikm salt info n

/-- Per-connection session (C `rc_session_t`). -/
structure Session where
  algo : AeadAlgo
  encryptCtx : AeadCtx
  decryptCtx : AeadCtx
  masterSecret : Bytes 64
  sessionId : UInt32
  isResumed : Bool
  encryptSeq : UInt64
  decryptSeq : UInt64
  handshakeDone : Bool
  deriving DecidableEq

/-- A session that has an algorithm and no keys yet (C `rc_session_init`). -/
def sessionInit (algo : AeadAlgo) : Session where
  algo := algo
  encryptCtx := .zero
  decryptCtx := .zero
  masterSecret := .zeros 64
  sessionId := 0
  isResumed := false
  encryptSeq := 0
  decryptSeq := 0
  handshakeDone := false

/-- The info string of the session keys. -/
def keyExpansionInfo : List UInt8 := cstr "RoboControl v1 key expansion"

/-- The info string of the nonce salts. -/
def ivExpansionInfo : List UInt8 := cstr "RoboControl v1 iv expansion"

/-- The info string of rotated keys. -/
def keyRotationInfo : List UInt8 := cstr "RoboControl v1 key rotation"

/-- Populate a session from a shared secret (C `rc_derive_session_keys`).

The results of the two `rc_aead_init` calls are not checked, and the salts they draw
(`encRandom`, `decRandom`) are overwritten. -/
def deriveSessionKeys (ossl : Openssl) (sharedSecret : List UInt8)
    (clientRandom serverRandom : Bytes 32) (encRandom decRandom : Option (Bytes 12))
    (session : Session) : Int × Session :=
  let salt := clientRandom.toList ++ serverRandom.toList
  match hkdfSha256 ossl sharedSecret salt keyExpansionInfo 64 with
  | none => (-1, session)
  | some okm =>
    let session := { session with masterSecret := okm }
    match hkdfSha256 ossl okm.toList salt ivExpansionInfo 24 with
    | none => (-1, session)
    | some iv =>
      -- The first half always encrypts: the function is not told which side calls it.
      let enc := (aeadInit session.encryptCtx session.algo (okm.slice 0 32 low_half_le) encRandom).2
      let dec :=
        (aeadInit session.decryptCtx session.algo (okm.slice 32 32 high_half_le) decRandom).2
      (0, { session with
        encryptCtx := { enc with nonceSalt := iv.slice 0 12 (by decide) }
        decryptCtx := { dec with nonceSalt := iv.slice 12 12 (by decide) }
        encryptSeq := 0
        decryptSeq := 0
        handshakeDone := true })

/-- The first half of the master secret, the key material of rotations. -/
def Session.rotationKey (session : Session) : Bytes 32 :=
  session.masterSecret.slice 0 32 low_half_le

/-- The salt of a rotation: the master secret and the encryption counter. -/
def Session.rotationSalt (session : Session) : List UInt8 :=
  session.rotationKey.toList ++ store .big 8 session.encryptSeq.toNat

/-- Replace the keys of a session (C `rc_session_rotate_keys`); a failed draw keeps the old salt. -/
def sessionRotateKeys (ossl : Openssl) (encRandom decRandom : Option (Bytes 12))
    (session : Session) : Int × Session :=
  if session.handshakeDone = false then (-1, session)
  else
    match hkdfSha256 ossl session.rotationKey.toList session.rotationSalt keyRotationInfo 64 with
    | none => (-1, session)
    | some okm =>
      (0, { session with
        encryptCtx := { session.encryptCtx with
          key := okm.slice 0 32 low_half_le
          nonceSalt := encRandom.getD session.encryptCtx.nonceSalt }
        decryptCtx := { session.decryptCtx with
          key := okm.slice 32 32 high_half_le
          nonceSalt := decRandom.getD session.decryptCtx.nonceSalt }
        -- The counters restart; the master secret stays.
        encryptSeq := 0
        decryptSeq := 0 })

/-! ## Record layer -/

/-- The serialised header that a record is bound to. -/
def recordAad (host : Endian) (hdr : PktHdr) : List UInt8 :=
  hdrPack host (List.replicate headerSize 0) hdr

/-- The nonce of the next record a session encrypts. -/
def Session.encryptNonce (session : Session) : Bytes 12 :=
  deriveNonce session.encryptCtx.nonceSalt session.encryptSeq

/-- The nonce of the next record a session decrypts. -/
def Session.decryptNonce (session : Session) : Bytes 12 :=
  deriveNonce session.decryptCtx.nonceSalt session.decryptSeq

/-- Encrypt a payload (C `rc_record_encrypt`). -/
def recordEncrypt (host : Endian) (ossl : Openssl) (session : Session) (hdr : PktHdr)
    (payload : List UInt8) : Option (List UInt8) × Session :=
  if session.handshakeDone = false then (none, session)
  else
    let nonce := session.encryptNonce
    let session := { session with encryptSeq := session.encryptSeq + 1 }
    (aeadEncrypt ossl session.encryptCtx nonce payload (recordAad host hdr), session)

/-- Decrypt a payload (C `rc_record_decrypt`). -/
def recordDecrypt (host : Endian) (ossl : Openssl) (session : Session) (hdr : PktHdr)
    (payload : List UInt8) : Option (List UInt8) × Session :=
  if session.handshakeDone = false then (none, session)
  else if payload.length < maxTagLen then (none, session)
  else
    let nonce := session.decryptNonce
    -- The counter moves before the tag is checked.
    let session := { session with decryptSeq := session.decryptSeq + 1 }
    (aeadDecrypt ossl session.decryptCtx nonce payload (recordAad host hdr), session)

end RoboControl.Crypto
