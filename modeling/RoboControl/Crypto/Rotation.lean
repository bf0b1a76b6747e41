import RoboControl.Crypto.Derived
import Mathlib.Data.Set.Function

/-!
# Key rotation

Whole-session properties of `rc_session_rotate_keys`. A rotation derives its keys from the master
secret, which never changes, and from `encrypt_seq`, which every rotation resets.
`rotation_fresh_iff`: over any run of encryptions, decryptions and rotations, no key comes back
exactly when no two rotations happen at the same value of `encrypt_seq`.

Both sides of a connection give the first half of the derived material to encryption, so that two
peers that both rotate are never peers again (`rotated_never_peers`).
-/

namespace RoboControl.Crypto
open Base Proto

/-! ## Freshness -/

/-- What can happen to a session with keys. -/
inductive SessionOp where
  | encrypt (hdr : PktHdr) (payload : List UInt8)
  | decrypt (hdr : PktHdr) (payload : List UInt8)
  | rotate (encRandom decRandom : Option (Bytes 12))

/-- The session after an operation. -/
def SessionOp.apply (host : Endian) (ossl : Openssl) (s : Session) : SessionOp → Session
  | .encrypt hdr payload => (recordEncrypt host ossl s hdr payload).2
  | .decrypt hdr payload => (recordDecrypt host ossl s hdr payload).2
  | .rotate encRandom decRandom => (sessionRotateKeys ossl encRandom decRandom s).2

/-- An operation that is a successful rotation. -/
def SessionOp.rotates (ossl : Openssl) (s : Session) : SessionOp → Bool
  | .rotate encRandom decRandom => (sessionRotateKeys ossl encRandom decRandom s).1 = 0
  | _ => false

/-- The encryption keys that the rotations of a run install, in order. -/
def installedKeys (host : Endian) (ossl : Openssl) : Session → List SessionOp → List (Bytes 32)
  | _, [] => []
  | s, op :: ops =>
    if op.rotates ossl s then
      (op.apply host ossl s).encryptCtx.key :: installedKeys host ossl (op.apply host ossl s) ops
    else installedKeys host ossl (op.apply host ossl s) ops

/-- The values of `encrypt_seq` at which the rotations of a run happen, in order. -/
def rotationSeqs (host : Endian) (ossl : Openssl) : Session → List SessionOp → List UInt64
  | _, [] => []
  | s, op :: ops =>
    if op.rotates ossl s then
      s.encryptSeq :: rotationSeqs host ossl (op.apply host ossl s) ops
    else rotationSeqs host ossl (op.apply host ossl s) ops

/-- The input of an HKDF call: input key material, salt and info. -/
abbrev HkdfInput := List UInt8 × List UInt8 × List UInt8

/-- The encryption key that an HKDF input gives: the first half of 64 bytes. -/
def hkdfKey (ossl : Openssl) (x : HkdfInput) : Option (Bytes 32) :=
  (hkdfSha256 ossl x.1 x.2.1 x.2.2 64).map (·.slice 0 32 low_half_le)

/-- The HKDF input of a rotation with a given key material and counter. -/
def rotationInput (key : Bytes 32) (seq : UInt64) : HkdfInput :=
  (key.toList, key.toList ++ store .big 8 seq.toNat, keyRotationInfo)

/-- Different sequence numbers give different inputs. -/
lemma rotationInput_injective (key : Bytes 32) : Function.Injective (rotationInput key) := by
  intro c d e
  have es : key.toList ++ store .big 8 c.toNat = key.toList ++ store .big 8 d.toNat :=
    congrArg (fun x : HkdfInput => x.2.1) e
  exact UInt64.toNat_inj.mp (store_inj c.toNat_lt d.toNat_lt (List.append_cancel_left es))

/-- A session with rotated keys. -/
def Session.rotated (s : Session) (okm : Bytes 64) (e d : Option (Bytes 12)) : Session :=
  { s with
    encryptCtx := { s.encryptCtx with
      key := okm.slice 0 32 low_half_le, nonceSalt := e.getD s.encryptCtx.nonceSalt }
    decryptCtx := { s.decryptCtx with
      key := okm.slice 32 32 high_half_le, nonceSalt := d.getD s.decryptCtx.nonceSalt }
    encryptSeq := 0
    decryptSeq := 0 }

/-- A rotation for which HKDF succeeds. -/
lemma sessionRotateKeys_of_hkdf {ossl : Openssl} {s : Session} {okm : Bytes 64}
    (hd : s.handshakeDone = true) (e d : Option (Bytes 12))
    (hk : hkdfSha256 ossl s.rotationKey.toList s.rotationSalt keyRotationInfo 64 = some okm) :
    sessionRotateKeys ossl e d s = (0, s.rotated okm e d) := by
  rw [sessionRotateKeys, if_neg (by simp [hd]), hk]
  rfl

/-- A rotation fails and changes nothing, or installs the halves of the derived material. -/
lemma sessionRotateKeys_cases (ossl : Openssl) {s : Session} (hd : s.handshakeDone = true)
    (e d : Option (Bytes 12)) :
    sessionRotateKeys ossl e d s = (-1, s) ∨
    ∃ okm, hkdfSha256 ossl s.rotationKey.toList s.rotationSalt keyRotationInfo 64 = some okm ∧
      sessionRotateKeys ossl e d s = (0, s.rotated okm e d) := by
  cases h : hkdfSha256 ossl s.rotationKey.toList s.rotationSalt keyRotationInfo 64 with
  | none =>
    rw [sessionRotateKeys, if_neg (by simp [hd]), h]
    exact .inl rfl
  | some okm => exact .inr ⟨okm, rfl, sessionRotateKeys_of_hkdf hd e d h⟩

/-- No operation changes the master secret or takes the keys away. -/
lemma SessionOp.apply_master (host : Endian) (ossl : Openssl) {s : Session}
    (hd : s.handshakeDone = true) (op : SessionOp) :
    (op.apply host ossl s).masterSecret = s.masterSecret ∧
      (op.apply host ossl s).handshakeDone = true := by
  cases op with
  | encrypt hdr payload =>
    rw [SessionOp.apply, recordEncrypt, if_neg (by simp [hd])]
    exact ⟨rfl, hd⟩
  | decrypt hdr payload =>
    rw [SessionOp.apply, recordDecrypt, if_neg (by simp [hd])]
    split
    · exact ⟨rfl, hd⟩
    · exact ⟨rfl, hd⟩
  | rotate e d =>
    obtain h | ⟨okm, -, h⟩ := sessionRotateKeys_cases ossl hd e d
    · rw [SessionOp.apply, h]
      exact ⟨rfl, hd⟩
    · rw [SessionOp.apply, h]
      exact ⟨rfl, hd⟩

/-- A successful rotation installs the key of its HKDF input. -/
lemma SessionOp.rotates_key {host : Endian} {ossl : Openssl} {s : Session} {op : SessionOp}
    (hd : s.handshakeDone = true) (hr : op.rotates ossl s = true) :
    hkdfKey ossl (rotationInput s.rotationKey s.encryptSeq) =
      some (op.apply host ossl s).encryptCtx.key := by
  cases op with
  | encrypt hdr payload => cases hr
  | decrypt hdr payload => cases hr
  | rotate e d =>
    obtain h | ⟨okm, hok, h⟩ := sessionRotateKeys_cases ossl hd e d
    · rw [SessionOp.rotates, h] at hr
      cases hr
    · rw [SessionOp.apply, h]
      have hok' : hkdfSha256 ossl (rotationInput s.rotationKey s.encryptSeq).1
          (rotationInput s.rotationKey s.encryptSeq).2.1
          (rotationInput s.rotationKey s.encryptSeq).2.2 64 = some okm := hok
      rw [hkdfKey, hok']
      rfl

/-- The installed keys of a run are those of the HKDF inputs of its rotations. -/
lemma installedKeys_eq (host : Endian) (ossl : Openssl) {s : Session} (hd : s.handshakeDone = true)
    (ops : List SessionOp) :
    (installedKeys host ossl s ops).map some =
      (rotationSeqs host ossl s ops).map fun seq =>
        hkdfKey ossl (rotationInput s.rotationKey seq) := by
  induction ops generalizing s with
  | nil => rfl
  | cons op ops ih =>
    obtain ⟨hm, hd'⟩ := op.apply_master host ossl hd
    have hkey : (op.apply host ossl s).rotationKey = s.rotationKey := by
      rw [Session.rotationKey, hm]
      rfl
    have ih' := ih hd'
    rw [hkey] at ih'
    rw [installedKeys, rotationSeqs]
    split
    · rename_i hr
      rw [List.map_cons, List.map_cons, SessionOp.rotates_key hd hr, ih']
    · exact ih'

/-- The HKDF inputs of a session: that of the derivation, then those of the rotations. -/
def hkdfInputs (host : Endian) (ossl : Openssl) (secret : List UInt8) (cr sr : Bytes 32)
    (s : Session) (ops : List SessionOp) : List HkdfInput :=
  (secret, cr.toList ++ sr.toList, keyExpansionInfo) ::
    (rotationSeqs host ossl s ops).map (rotationInput s.rotationKey)

/-- No two HKDF inputs of a session are the same exactly when no two rotations happen at the same
counter. -/
lemma nodup_hkdfInputs (host : Endian) (ossl : Openssl) (secret : List UInt8) (cr sr : Bytes 32)
    (s : Session) (ops : List SessionOp) :
    (hkdfInputs host ossl secret cr sr s ops).Nodup ↔ (rotationSeqs host ossl s ops).Nodup := by
  have info : keyExpansionInfo ≠ keyRotationInfo := by decide
  rw [hkdfInputs, List.nodup_cons, List.nodup_map_iff (rotationInput_injective s.rotationKey)]
  refine ⟨And.right, fun h => ⟨fun hm => ?_, h⟩⟩
  obtain ⟨seq, -, e⟩ := List.mem_map.mp hm
  exact info (congrArg (fun x : HkdfInput => x.2.2) e).symm

/-- No key comes back in a session exactly when no two of its rotations happen at the same value of
`encrypt_seq`. -/
theorem rotation_fresh_iff (host : Endian) (ossl : Openssl) (secret : List UInt8) (cr sr : Bytes 32)
    (er dr : Option (Bytes 12)) (s₀ s : Session) (ops : List SessionOp) (ha : s₀.algo ≠ .unset)
    (hd : deriveSessionKeys ossl secret cr sr er dr s₀ = (0, s))
    (hinj : Set.InjOn (hkdfKey ossl) {x | x ∈ hkdfInputs host ossl secret cr sr s ops}) :
    (s.encryptCtx.key :: installedKeys host ossl s ops).Nodup ↔
      (rotationSeqs host ossl s ops).Nodup := by
  obtain ⟨okm, iv, hk, -, keyed⟩ := deriveSessionKeys_keyed ha hd
  have first : hkdfKey ossl (secret, cr.toList ++ sr.toList, keyExpansionInfo) =
      some s.encryptCtx.key := by
    rw [hkdfKey, hk, keyed.encKey]
    rfl
  have keys : (s.encryptCtx.key :: installedKeys host ossl s ops).map some =
      (hkdfInputs host ossl secret cr sr s ops).map (hkdfKey ossl) := by
    rw [List.map_cons, installedKeys_eq host ossl keyed.done, hkdfInputs, List.map_cons, first,
      List.map_map]
    rfl
  rw [← List.nodup_map_iff (Option.some_injective _), keys, ← nodup_hkdfInputs host ossl secret cr
    sr]
  exact ⟨List.Nodup.of_map _, fun h => h.map_on fun x hx y hy e => hinj hx hy e⟩

/-- A record, a rotation at counter 1 and a rotation at counter 0. -/
def sampleOps : List SessionOp :=
  [.encrypt sampleHdr samplePayload, .rotate (some (.zeros 12)) (some (.zeros 12)),
    .rotate (some (.zeros 12)) (some (.zeros 12))]

/-- The keys of `sampleOps` are fresh. -/
theorem rotation_fresh_sample :
    (sampleSession.encryptCtx.key :: installedKeys .little vectors sampleSession sampleOps).Nodup :=
  (rotation_fresh_iff .little vectors sampleSecret.toList clientRandom serverRandom none none
    (sessionInit .aes256Gcm) sampleSession sampleOps (by decide) (by decide +kernel)
    (fun x hx y hy e => List.inj_on_of_nodup_map (by decide +kernel) hx hy e)).mpr
    (by decide +kernel)

/-- Two rotations in a row install the same key. -/
theorem rotation_repeats_key :
    (sessionRotateKeys vectors (some (.zeros 12)) (some (.zeros 12)) sampleSession).1 = 0 ∧
    installedKeys .little vectors sampleSession
        [.rotate (some (.zeros 12)) (some (.zeros 12)),
          .rotate (some (.zeros 12)) (some (.zeros 12))] =
      [sampleRotation0.slice 0 32 (by decide), sampleRotation0.slice 0 32 (by decide)] := by
  decide +kernel

/-! ## Coordinated rotation -/

/-- Two sessions that decrypt what the other encrypts. -/
structure Peers (a b : Session) : Prop where
  forth : Feeds a b
  back : Feeds b a
  master : a.masterSecret = b.masterSecret

/-- A half of the 64 bytes that an HKDF input gives: the first one, or the second. -/
def hkdfHalf (ossl : Openssl) (x : HkdfInput × Bool) : Option (Bytes 32) :=
  (hkdfSha256 ossl x.1.1 x.1.2.1 x.1.2.2 64).map fun okm =>
    if x.2 then okm.slice 32 32 high_half_le else okm.slice 0 32 low_half_le

/-- A successful rotation installs the first half for encryption and the second for decryption. -/
lemma sessionRotateKeys_halves {ossl : Openssl} {s : Session} {e d : Option (Bytes 12)}
    (hd : s.handshakeDone = true) (h : (sessionRotateKeys ossl e d s).1 = 0) :
    ∃ okm, (sessionRotateKeys ossl e d s).2 = s.rotated okm e d ∧
      hkdfHalf ossl (rotationInput s.rotationKey s.encryptSeq, false) =
        some (s.rotated okm e d).encryptCtx.key ∧
      hkdfHalf ossl (rotationInput s.rotationKey s.encryptSeq, true) =
        some (s.rotated okm e d).decryptCtx.key := by
  obtain hfail | ⟨okm, hokm, hrot⟩ := sessionRotateKeys_cases ossl hd e d
  · rw [hfail] at h
    cases h
  · have hokm' : hkdfSha256 ossl (rotationInput s.rotationKey s.encryptSeq).1
        (rotationInput s.rotationKey s.encryptSeq).2.1
        (rotationInput s.rotationKey s.encryptSeq).2.2 64 = some okm := hokm
    refine ⟨okm, by rw [hrot], ?_, ?_⟩
    · rw [hkdfHalf, hokm']
      rfl
    · rw [hkdfHalf, hokm']
      rfl

/-- Two peers that both rotate are not peers again, whatever was sent before and whatever they draw:
if HKDF gives different halves for different inputs or places, each encrypts under a key that the
other does not decrypt under, and no record goes through. -/
theorem rotated_never_peers (host : Endian) (ossl : Openssl) (a b : Session) (cipher : EvpCipher)
    (ea da eb db : Option (Bytes 12)) (records : List Record) (law : ossl.AeadInverts)
    (peers : Peers a b) (hc : a.encryptCtx.algo.cipher = some cipher)
    (hA : (sessionRotateKeys ossl ea da a).1 = 0) (hB : (sessionRotateKeys ossl eb db b).1 = 0)
    (hinj : Set.InjOn (hkdfHalf ossl) {x | x.1 = rotationInput a.rotationKey a.encryptSeq ∨
      x.1 = rotationInput b.rotationKey b.encryptSeq})
    (hrej : ∀ r ∈ records, ∀ c, ossl.AeadRejects cipher (recordAad host r.1) (evpInput r.2)
      ((sessionRotateKeys ossl ea da a).2.encryptCtx.key,
        deriveNonce (sessionRotateKeys ossl ea da a).2.encryptCtx.nonceSalt c)
      ((sessionRotateKeys ossl eb db b).2.decryptCtx.key,
        deriveNonce (sessionRotateKeys ossl eb db b).2.decryptCtx.nonceSalt c)) :
    ¬ Peers (sessionRotateKeys ossl ea da a).2 (sessionRotateKeys ossl eb db b).2 ∧
      (AllDecrypt host ossl (sessionRotateKeys ossl ea da a).2 (sessionRotateKeys ossl eb db b).2
        (records.map .genuine) ↔ records = []) := by
  obtain ⟨forth, back, -⟩ := peers
  obtain ⟨okmA, rotA, encA, -⟩ := sessionRotateKeys_halves forth.encDone hA
  obtain ⟨okmB, rotB, -, decB⟩ := sessionRotateKeys_halves back.encDone hB
  rw [rotA, rotB] at hrej ⊢
  -- The first half of one side is not the second half of the other.
  have hkey : (a.rotated okmA ea da).encryptCtx.key ≠ (b.rotated okmB eb db).decryptCtx.key := by
    intro e
    have hsame := hinj (.inl rfl) (.inr rfl) (encA.trans ((congrArg some e).trans decB.symm))
    exact Bool.false_ne_true (congrArg Prod.snd hsame)
  refine ⟨fun peers => hkey peers.forth.key.symm, ?_⟩
  exact allDecrypt_iff_nil forth.encDone back.encDone rfl law hc forth.algo
    (fun c e => hkey (congrArg Prod.fst e)) hrej

/-- The peer of `sampleSession`. -/
def samplePeer : Session :=
  { sampleSession with
    encryptCtx := sampleSession.decryptCtx, decryptCtx := sampleSession.encryptCtx }

/-- They are peers before a rotation. -/
lemma sampleSession_peers : Peers sampleSession samplePeer :=
  ⟨⟨by decide +kernel, by decide +kernel, rfl, rfl, rfl, by decide +kernel⟩,
    ⟨by decide +kernel, by decide +kernel, rfl, rfl, rfl, by decide +kernel⟩, rfl⟩

/-- The sample peers do not stay peers, and lose a record. -/
theorem rotated_never_peers_sample :
    ¬ Peers (sessionRotateKeys vectors (some (.zeros 12)) (some (.zeros 12)) sampleSession).2
        (sessionRotateKeys vectors (some (.zeros 12)) (some (.zeros 12)) samplePeer).2 ∧
      (AllDecrypt .little vectors
        (sessionRotateKeys vectors (some (.zeros 12)) (some (.zeros 12)) sampleSession).2
        (sessionRotateKeys vectors (some (.zeros 12)) (some (.zeros 12)) samplePeer).2
        ([(sampleHdr, samplePayload)].map .genuine) ↔ [(sampleHdr, samplePayload)] = []) := by
  refine rotated_never_peers .little vectors sampleSession samplePeer .aes256Gcm _ _ _ _ _
    vectors_aeadInverts sampleSession_peers (by decide +kernel) (by decide +kernel)
    (by decide +kernel) ?_ fun r _ c => vectors_aeadRejects _ _ _ _ _ (fun _ _ => ?_) ?_ ?_
  rotate_left
  · dsimp only
    decide +kernel
  · dsimp only
    decide +kernel
  · dsimp only
    decide +kernel
  -- Both sides have the same rotation key and counter, so there is one input with its two halves.
  rintro ⟨x, p⟩ hx ⟨y, q⟩ hy h
  obtain rfl : x = rotationInput sampleSession.rotationKey 0 := hx.elim id id
  obtain rfl : y = rotationInput sampleSession.rotationKey 0 := hy.elim id id
  cases p <;> cases q
  · rfl
  · exact absurd h (by decide +kernel)
  · exact absurd h (by decide +kernel)
  · rfl

/-- After both sample peers have rotated, with the same draws, neither decrypts under the key the
other encrypts under. -/
theorem rotation_parts_peers :
    sampleSession.encryptCtx = samplePeer.decryptCtx ∧
    samplePeer.encryptCtx = sampleSession.decryptCtx ∧
    sampleSession.masterSecret = samplePeer.masterSecret ∧
    sampleSession.encryptSeq = samplePeer.decryptSeq ∧
    samplePeer.encryptSeq = sampleSession.decryptSeq ∧
    (sessionRotateKeys vectors (some (.zeros 12)) (some (.zeros 12)) sampleSession).1 = 0 ∧
    (sessionRotateKeys vectors (some (.zeros 12)) (some (.zeros 12)) samplePeer).1 = 0 ∧
    (sessionRotateKeys vectors (some (.zeros 12)) (some (.zeros 12))
      sampleSession).2.encryptCtx.key ≠
      (sessionRotateKeys vectors (some (.zeros 12)) (some (.zeros 12))
        samplePeer).2.decryptCtx.key ∧
    (sessionRotateKeys vectors (some (.zeros 12)) (some (.zeros 12)) samplePeer).2.encryptCtx.key ≠
      (sessionRotateKeys vectors (some (.zeros 12)) (some (.zeros 12))
        sampleSession).2.decryptCtx.key := by
  decide +kernel

end RoboControl.Crypto
