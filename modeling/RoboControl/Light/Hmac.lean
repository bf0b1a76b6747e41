import RoboControl.Light.Sha256

/-!
# HMAC-SHA256

Model of `rc_hmac_sha256` of `include/crypto.h` on a memory (`hmacSha256`): the key, the data and
the output may be anywhere, in the same place too, because the key is copied first and the data is
taken in before anything is written. What is written is the HMAC of RFC 2104 (`hmac`) of what was in
memory before.
-/

namespace RoboControl.Light
open Base

/-- Bytes at addresses. -/
def Mem := Nat → UInt8

/-- The `n` bytes from address `p` on. -/
def Mem.read (mem : Mem) (p n : Nat) : List UInt8 := (List.range n).map fun i => mem (p + i)

/-- Memory with bytes written from address `p` on. -/
def Mem.write (mem : Mem) (p : Nat) (bs : List UInt8) : Mem := fun a =>
  if p ≤ a then (bs[a - p]?).getD (mem a) else mem a

/-- The buffer `k` of `rc_hmac_sha256`: the key, or its digest if it is longer than a block, with
zeros behind it. -/
def hmacKey (key : List UInt8) : List UInt8 :=
  let key := if key.length > 64 then sha256 key else key
  writeAt 0 key (List.replicate 64 0)

/-- The inner hash. -/
def hmacInner (k data : List UInt8) : List UInt8 :=
  let ctx := sha256Update sha256Init (k.map (· ^^^ 0x36))
  (sha256Final (sha256Update ctx data)).1

/-- The outer hash. -/
def hmacOuter (k inner : List UInt8) : List UInt8 :=
  let ctx := sha256Update sha256Init (k.map (· ^^^ 0x5C))
  (sha256Final (sha256Update ctx inner)).1

/-- HMAC of the data under the key, written to `out` (C `rc_hmac_sha256`). -/
def hmacSha256 (mem : Mem) (key keyLen data dataLen out : Nat) : Mem :=
  let k := hmacKey (mem.read key keyLen)
  let mem := mem.write out (hmacInner k (mem.read data dataLen))
  mem.write out (hmacOuter k (mem.read out 32))

/-- HMAC with a hash function that has blocks of `size` bytes (RFC 2104, section 2). -/
def hmac (hash : List UInt8 → List UInt8) (size : Nat) (key text : List UInt8) : List UInt8 :=
  let key := if key.length > size then hash key else key
  let key := key ++ List.replicate (size - key.length) 0
  hash (key.map (· ^^^ 0x5C) ++ hash (key.map (· ^^^ 0x36) ++ text))

@[simp] lemma Mem.length_read (mem : Mem) (p n : Nat) : (mem.read p n).length = n := by
  simp [Mem.read]

/-- What was written is read. -/
lemma Mem.read_write (mem : Mem) (p : Nat) (bs : List UInt8) :
    (mem.write p bs).read p bs.length = bs := by
  apply List.ext_getElem
  · exact Mem.length_read _ _ _
  · intro i _ hi
    simp [Mem.read, Mem.write, hi]

/-- Bytes written over as many bytes hide them. -/
lemma Mem.write_write (mem : Mem) (p : Nat) {bs bs' : List UInt8} (h : bs.length = bs'.length) :
    (mem.write p bs).write p bs' = mem.write p bs' := by
  funext a
  by_cases ha : p ≤ a
  · by_cases hlt : a - p < bs'.length
    · simp [Mem.write, ha, hlt]
    · simp [Mem.write, ha, hlt, h]
  · simp [Mem.write, ha]

/-- The digest of one piece. -/
lemma sha256_eq (data : List UInt8) : sha256 data = Sha256.sha256 data := by
  have h := sha256_chunks [data]
  rwa [List.flatten_singleton] at h

/-- The digest of two pieces. -/
lemma sha256_two (a b : List UInt8) :
    (sha256Final (sha256Update (sha256Update sha256Init a) b)).1 = Sha256.sha256 (a ++ b) := by
  have h := sha256_chunks [a, b]
  rwa [List.flatten_cons, List.flatten_singleton] at h

lemma length_hmacInner (k data : List UInt8) : (hmacInner k data).length = 32 := by
  rw [hmacInner, sha256_two, Sha256.length_sha256]

lemma length_hmacOuter (k inner : List UInt8) : (hmacOuter k inner).length = 32 := by
  rw [hmacOuter, sha256_two, Sha256.length_sha256]

/-- The key is hashed if it is long, and filled up. -/
lemma hmacKey_eq (key : List UInt8) :
    hmacKey key = (if key.length > 64 then Sha256.sha256 key else key) ++
      List.replicate (64 - (if key.length > 64 then Sha256.sha256 key else key).length) 0 := by
  simp only [hmacKey, sha256_eq]
  rw [writeAt_zero, List.drop_replicate]

/-- The inner and the outer hash make up the HMAC. -/
lemma hmacOuter_hmacInner (key data : List UInt8) :
    hmacOuter (hmacKey key) (hmacInner (hmacKey key) data) = hmac Sha256.sha256 64 key data := by
  rw [hmacOuter, hmacInner, sha256_two, sha256_two, hmacKey_eq]
  rfl

/-- The streaming hash gives the digest of FIPS 180-4 of the whole message, however it was
split, and the keyed hash writes the HMAC of RFC 2104 of the key and the data, wherever they and
the output are. -/
theorem sha256_hmac_correct :
    (∀ chunks : List (List UInt8),
      (sha256Final (chunks.foldl sha256Update sha256Init)).1 = Sha256.sha256 chunks.flatten) ∧
    ∀ (mem : Mem) (key keyLen data dataLen out : Nat),
      hmacSha256 mem key keyLen data dataLen out =
        mem.write out (hmac Sha256.sha256 64 (mem.read key keyLen) (mem.read data dataLen)) := by
  refine ⟨sha256_chunks, ?_⟩
  intro mem key keyLen data dataLen out
  have hread := mem.read_write out (hmacInner (hmacKey (mem.read key keyLen))
    (mem.read data dataLen))
  rw [length_hmacInner] at hread
  simp only [hmacSha256, hread]
  rw [Mem.write_write _ _ ((length_hmacInner _ _).trans (length_hmacOuter _ _).symm),
    hmacOuter_hmacInner]

example : sha256 [0x61, 0x62, 0x63] = [0xba, 0x78, 0x16, 0xbf, 0x8f, 0x01, 0xcf, 0xea, 0x41, 0x41,
    0x40, 0xde, 0x5d,
    0xae, 0x22, 0x23, 0xb0, 0x03, 0x61, 0xa3, 0x96, 0x17, 0x7a, 0x9c, 0xb4, 0x10, 0xff, 0x61, 0xf2,
      0x00, 0x15, 0xad] := by
  decide +kernel

end RoboControl.Light
