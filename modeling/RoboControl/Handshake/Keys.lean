import RoboControl.Handshake.Honest

/-!
# Keys after the handshake

Both sides of a handshake call `rc_derive_session_keys` with the same secret and randoms, and that
function gives the first half of the derived material to encryption and the second half to
decryption. Nothing swaps the halves on one of the sides. So the two endpoints encrypt under the
same key and the same nonce salt (`HonestRun.keyed`), with two consequences: a record of one
endpoint decrypts at the other only if the halves happen to coincide (`handshake_round_trip_iff`),
and the two endpoints use the same nonces under the same key as soon as both have sent a record
(`handshake_nonces_nodup_iff`).
-/

namespace RoboControl.Handshake
open Base Proto Crypto Connection Function
open scoped UInt64.CommRing

/-! ## Derived sessions -/

section Keys
variable {host : Endian} {ossl : Openssl} {client server : Conn}

/-- Both sides of an honest run have the same keys and salts, in the same roles. -/
lemma HonestRun.keyed (run : HonestRun host ossl client server) (hx : ossl.X25519Commutes)
    (ha : client.session.algo = .aes256Gcm) :
    ∃ okm iv, Keyed run.client2.session .aes256Gcm okm iv ∧
      Keyed run.server1.session .aes256Gcm okm iv := by
  obtain ⟨cpriv, crandom, spriv, srandom, idBytes, secret, facts⟩ := run.facts hx
  obtain ⟨okm, iv, hk, hv, keyed⟩ := deriveSessionKeys_keyed (by rw [ha]; decide) facts.clientKeys
  obtain ⟨okm', iv', hk', hv', keyed'⟩ :=
    deriveSessionKeys_keyed AeadAlgo.noConfusion facts.serverKeys
  cases hk.symm.trans hk'
  cases hv.symm.trans hv'
  rw [ha] at keyed
  exact ⟨okm, iv, keyed, keyed'⟩

/-! ## Round trip -/

end Keys

/-- After an honest handshake a sequence of records round trips in both directions exactly when it
is empty, or the two halves of the derived material coincide and the lengths fit. -/
theorem handshake_round_trip_iff (host : Endian) (ossl : Openssl) (client server : Conn)
    (run : HonestRun host ossl client server) (records : List Record) (hx : ossl.X25519Commutes)
    (law : ossl.AeadInverts) (ha : client.session.algo = .aes256Gcm)
    (hrej : ∀ r ∈ records, ∀ c, ossl.AeadRejects .aes256Gcm (recordAad host r.1) (evpInput r.2)
      (run.server1.session.encryptCtx.key,
        deriveNonce run.server1.session.encryptCtx.nonceSalt c)
      (run.server1.session.decryptCtx.key,
        deriveNonce run.server1.session.decryptCtx.nonceSalt c)) :
    (AllDecrypt host ossl run.client2.session run.server1.session (records.map .genuine) ∧
      AllDecrypt host ossl run.server1.session run.client2.session (records.map .genuine)) ↔
      records = [] ∨
        (run.server1.session.decryptCtx.key = run.server1.session.encryptCtx.key ∧
          run.server1.session.decryptCtx.nonceSalt.slice 0 4 (by decide) =
            run.server1.session.encryptCtx.nonceSalt.slice 0 4 (by decide) ∧
          ∀ r ∈ records, Fits r) := by
  obtain ⟨okm, iv, kc, ks⟩ := run.keyed hx ha
  rw [ks.encKey, ks.encSalt, ks.decKey, ks.decSalt] at hrej ⊢
  rw [kc.allDecrypt_iff ks law hrej, ks.allDecrypt_iff kc law hrej, and_self]

/-- The vectors reject a record encrypted under the first key half and tried under the second. -/
lemma sampleRun_rejects (aad pt : List UInt8) (c : UInt64) :
    vectors.AeadRejects .aes256Gcm aad pt
      (sampleRun.server1.session.encryptCtx.key,
        deriveNonce sampleRun.server1.session.encryptCtx.nonceSalt c)
      (sampleRun.server1.session.decryptCtx.key,
        deriveNonce sampleRun.server1.session.decryptCtx.nonceSalt c) := by
  have keys : sampleRun.server1.session.encryptCtx.key.slice 0 4 (by decide) ≠
        sampleRun.server1.session.decryptCtx.key.slice 0 4 (by decide) ∧
      sampleRun.server1.session.encryptCtx.key.slice 0 4 (by decide) ≠
        sampleTag.slice 12 4 (by decide) ∧
      sampleRun.server1.session.decryptCtx.key.slice 0 4 (by decide) ≠
        sampleTag.slice 12 4 (by decide) := by
    decide +kernel
  generalize sampleRun.server1.session = s at keys ⊢
  exact vectors_aeadRejects _ _ _ _ _ (fun _ _ => keys.1) keys.2.1 keys.2.2

/-- The record of the vectors does not round trip. -/
theorem handshake_round_trip_sample :
    ¬ (AllDecrypt .little vectors sampleRun.client2.session sampleRun.server1.session
        ([(sampleHdr, samplePayload)].map .genuine) ∧
      AllDecrypt .little vectors sampleRun.server1.session sampleRun.client2.session
        ([(sampleHdr, samplePayload)].map .genuine)) := by
  rw [handshake_round_trip_iff .little vectors sampleConn sampleConn sampleRun
    [(sampleHdr, samplePayload)] vectors_x25519Commutes vectors_aeadInverts rfl
    (fun r _ c => sampleRun_rejects _ _ c)]
  rintro (h | ⟨h, -⟩)
  · cases h
  · exact absurd h (by decide +kernel)

/-- The server of the vectors rejects the first record of its client. -/
theorem handshake_record_rejected :
    (recordEncrypt .little vectors sampleRun.client2.session sampleHdr samplePayload).1 =
      some (sampleCiphertext ++ sampleTag.toList) ∧
    (recordDecrypt .little vectors sampleRun.server1.session sampleHdr
      (sampleCiphertext ++ sampleTag.toList)).1 = none := by
  decide +kernel

/-! ## Nonces -/

/-- The two endpoints of a connection. -/
inductive Side where
  | client
  | server
  deriving DecidableEq, Repr

/-- The keys and nonces that interleaved calls of `rc_record_encrypt` on the two endpoints pass to
`rc_aead_encrypt`. -/
def aeadCalls (host : Endian) (ossl : Openssl) :
    (Side → Session) → List (Side × Record) → List (Bytes 32 × Bytes 12)
  | _, [] => []
  | ends, (side, r) :: calls =>
    ((ends side).encryptCtx.key, (ends side).encryptNonce) ::
      aeadCalls host ossl
        (update ends side (recordEncrypt host ossl (ends side) r.1 r.2).2) calls

/-- The two sessions after an honest run. -/
def HonestRun.ends {host : Endian} {ossl : Openssl} {client server : Conn}
    (run : HonestRun host ossl client server) : Side → Session
  | .client => run.client2.session
  | .server => run.server1.session

/-- Endpoints with the same key and salt differ in nothing but their counters. -/
lemma aeadCalls_eq {host : Endian} {ossl : Openssl} {ends : Side → Session} {key : Bytes 32}
    {salt : Bytes 12} {calls : List (Side × Record)} (hdone : ∀ x, (ends x).handshakeDone = true)
    (hkey : ∀ x, (ends x).encryptCtx.key = key)
    (hsalt : ∀ x, (ends x).encryptCtx.nonceSalt = salt) :
    aeadCalls host ossl ends calls =
      (stamps (fun x => (ends x).encryptSeq) (calls.map Prod.fst)).map
        fun c => (key, deriveNonce salt c) := by
  induction calls generalizing ends with
  | nil => rfl
  | cons call calls ih =>
    obtain ⟨side, r⟩ := call
    have hrec : (recordEncrypt host ossl (ends side) r.1 r.2).2 =
        { ends side with encryptSeq := (ends side).encryptSeq + 1 } :=
      (recordEncrypt_eq host ossl (hdone side) (ends side).decryptCtx r).2
    have hnext : ∀ x, update ends side (recordEncrypt host ossl (ends side) r.1 r.2).2 x =
        { ends x with
          encryptSeq := update (fun x => (ends x).encryptSeq) side
            ((ends side).encryptSeq + 1) x } := by
      intro x
      rw [hrec]
      by_cases hx : x = side
      · subst hx
        simp only [update_self]
      · simp only [update_of_ne hx]
    rw [aeadCalls, List.map_cons, stamps, List.map_cons, Session.encryptNonce, hkey, hsalt, ih]
    · simp only [hnext]
    · intro x
      rw [hnext]
      exact hdone x
    · intro x
      rw [hnext]
      exact hkey x
    · intro x
      rw [hnext]
      exact hsalt x

/-- Counters below `2 ^ 64` differ. -/
lemma natCast_counter_injOn {n : Nat} (hn : n < 2 ^ 64) :
    Set.InjOn (Nat.cast : ℕ → UInt64) {k | k < n} := by
  intro k hk l hl e
  have e' : k % 2 ^ 64 = l % 2 ^ 64 := by
    have := congrArg UInt64.toNat e
    exact (UInt64.toNat_ofNat' (n := k)).symm.trans (this.trans UInt64.toNat_ofNat')
  rwa [Nat.mod_eq_of_lt (lt_trans hk hn), Nat.mod_eq_of_lt (lt_trans hl hn)] at e'

/-- After an honest handshake no two encryptions use the same key and nonce exactly when only one of
the endpoints encrypts. -/
theorem handshake_nonces_nodup_iff (host : Endian) (ossl : Openssl) (client server : Conn)
    (run : HonestRun host ossl client server) (calls : List (Side × Record))
    (hx : ossl.X25519Commutes) (ha : client.session.algo = .aes256Gcm)
    (hcount : ∀ side, (calls.map Prod.fst).count side < 2 ^ 64) :
    (aeadCalls host ossl run.ends calls).Nodup ↔
      ∀ side ∈ calls.map Prod.fst, ∀ side' ∈ calls.map Prod.fst, side = side' := by
  obtain ⟨okm, iv, kc, ks⟩ := run.keyed hx ha
  have hdone : ∀ x, (run.ends x).handshakeDone = true := by
    intro x
    cases x with
    | client => exact kc.done
    | server => exact ks.done
  have hkey : ∀ x, (run.ends x).encryptCtx.key = okm.slice 0 32 (by decide) := by
    intro x
    cases x with
    | client => exact kc.encKey
    | server => exact ks.encKey
  have hsalt : ∀ x, (run.ends x).encryptCtx.nonceSalt = iv.slice 0 12 (by decide) := by
    intro x
    cases x with
    | client => exact kc.encSalt
    | server => exact ks.encSalt
  have hseq : (fun x => (run.ends x).encryptSeq) = fun _ => (0 : UInt64) := by
    funext x
    cases x with
    | client => exact kc.encSeq
    | server => exact ks.encSeq
  rw [aeadCalls_eq hdone hkey hsalt, hseq, List.nodup_map_iff,
    nodup_stamps_iff fun side => natCast_counter_injOn (hcount side)]
  intro c d e
  exact (deriveNonce_inj (congrArg Prod.snd e)).2

/-- One record of each endpoint. -/
def sampleCalls : List (Side × Record) :=
  [(.client, (sampleHdr, samplePayload)), (.server, (sampleHdr, samplePayload))]

/-- One record of each endpoint of the vectors. -/
theorem handshake_nonces_sample :
    ¬ (aeadCalls .little vectors sampleRun.ends sampleCalls).Nodup := by
  rw [handshake_nonces_nodup_iff .little vectors sampleConn sampleConn sampleRun sampleCalls
    vectors_x25519Commutes rfl (fun side => by cases side <;> decide)]
  decide

/-- The two write keys of the vectors differ, and both endpoints use the first one with the nonce of
counter 0. -/
theorem handshake_nonce_reused :
    sampleOkm.slice 0 32 (by decide) ≠ sampleOkm.slice 32 32 (by decide) ∧
    aeadCalls .little vectors sampleRun.ends sampleCalls =
      [(sampleKey, sampleNonce), (sampleKey, sampleNonce)] := by
  decide +kernel

end RoboControl.Handshake
