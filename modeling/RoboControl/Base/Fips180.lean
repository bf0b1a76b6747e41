import Mathlib.Analysis.SpecialFunctions.Pow.Real
import Mathlib.Data.Nat.Prime.Basic
import RoboControl.Base.Absorb
import RoboControl.Base.Words

/-!
# SHA-256

The secure hash standard FIPS 180-4 for messages of whole bytes, as the standard writes it: the
constants are bits of roots of primes (section 4.2.2 and 5.3.3), the schedule is a recurrence
(`schedule`), and the message is padded (`pad`) before its blocks are taken in (`sha256`).
`rootBits_eq` computes the constants.
-/

namespace Base.Sha256

/-- Eight words: a hash value, or the working variables. -/
@[ext]
structure Words where
  a : UInt32
  b : UInt32
  c : UInt32
  d : UInt32
  e : UInt32
  f : UInt32
  g : UInt32
  h : UInt32
  deriving DecidableEq

/-! ## Functions and constants -/

/-- Rotation to the right. -/
def rotr (n : ℕ) (x : UInt32) : UInt32 := ⟨x.toBitVec.rotateRight n⟩

/-- Choice (4.2). -/
def ch (x y z : UInt32) : UInt32 := (x &&& y) ^^^ (~~~x &&& z)

/-- Majority (4.3). -/
def maj (x y z : UInt32) : UInt32 := (x &&& y) ^^^ (x &&& z) ^^^ (y &&& z)

/-- Σ₀ (4.4). -/
def bigSigma0 (x : UInt32) : UInt32 := rotr 2 x ^^^ rotr 13 x ^^^ rotr 22 x

/-- Σ₁ (4.5). -/
def bigSigma1 (x : UInt32) : UInt32 := rotr 6 x ^^^ rotr 11 x ^^^ rotr 25 x

/-- σ₀ (4.6). -/
def smallSigma0 (x : UInt32) : UInt32 := rotr 7 x ^^^ rotr 18 x ^^^ (x >>> 3)

/-- σ₁ (4.7). -/
def smallSigma1 (x : UInt32) : UInt32 := rotr 17 x ^^^ rotr 19 x ^^^ (x >>> 10)

/-- The first 64 primes. -/
def primes : List ℕ := (List.range 312).filter fun p => p.Prime

/-- The first 32 bits of the fractional part of the `m`-th root of `p`. -/
noncomputable def rootBits (m p : ℕ) : ℕ := ⌊Int.fract ((p : ℝ) ^ (1 / m : ℝ)) * 2 ^ 32⌋₊

/-- The constants `K` (4.2.2). -/
noncomputable def constK (t : ℕ) : UInt32 := UInt32.ofNat (rootBits 3 (primes.getD t 0))

/-- A word of the initial hash value (5.3.3). -/
noncomputable def initial (t : ℕ) : UInt32 := UInt32.ofNat (rootBits 2 (primes.getD t 0))

/-- The initial hash value. -/
noncomputable def initialHash : Words :=
  ⟨initial 0, initial 1, initial 2, initial 3, initial 4, initial 5, initial 6, initial 7⟩

/-! ## The hash -/

/-- Word `t` of a block. -/
def blockWord (block : List UInt8) (t : ℕ) : UInt32 :=
  be32 (block.getD (4 * t) 0) (block.getD (4 * t + 1) 0) (block.getD (4 * t + 2) 0)
    (block.getD (4 * t + 3) 0)

lemma sub_succ_lt {t : ℕ} (h : ¬ t < 16) (k : ℕ) : t - (k + 1) < t := by omega

/-- The message schedule `W` (6.2.2, step 1). -/
def schedule (m : ℕ → UInt32) (t : ℕ) : UInt32 :=
  if _h : t < 16 then m t
  else smallSigma1 (schedule m (t - 2)) + schedule m (t - 7) + smallSigma0 (schedule m (t - 15)) +
    schedule m (t - 16)
termination_by t
decreasing_by exacts [sub_succ_lt _h 1, sub_succ_lt _h 6, sub_succ_lt _h 14, sub_succ_lt _h 15]

/-- One turn with constant `k` and word `w` of the schedule (6.2.2, step 3). -/
def turn (v : Words) (k w : UInt32) : Words :=
  let t₁ := v.h + bigSigma1 v.e + ch v.e v.f v.g + k + w
  let t₂ := bigSigma0 v.a + maj v.a v.b v.c
  ⟨t₁ + t₂, v.a, v.b, v.c, v.d + t₁, v.e, v.f, v.g⟩

/-- The sum of two hash values, word by word (6.2.2, step 4). -/
def Words.add (x y : Words) : Words :=
  ⟨x.a + y.a, x.b + y.b, x.c + y.c, x.d + y.d, x.e + y.e, x.f + y.f, x.g + y.g, x.h + y.h⟩

/-- Take a block in (6.2.2). -/
noncomputable def compress (hash : Words) (block : List UInt8) : Words :=
  hash.add
    ((List.range 64).foldl (fun v t => turn v (constK t) (schedule (blockWord block) t)) hash)

/-- The number of zero bytes in the padding of a message of `len` bytes: the least number with which
the length of the message is 8 bytes short of a multiple of a block. -/
def zeroBytes (len : ℕ) : ℕ := (119 - len % 64) % 64

/-- The eight bytes of a 64-bit number, the most significant first. -/
def be64 (x : ℕ) : List UInt8 := (List.range 8).map fun i => UInt8.ofNat (x / 2 ^ (56 - 8 * i))

/-- The padded message (5.1.1). -/
def pad (msg : List UInt8) : List UInt8 :=
  msg ++ (0x80 :: (List.replicate (zeroBytes msg.length) 0 ++ be64 (8 * msg.length)))

/-- The bytes of a hash value. -/
def Words.bytes (x : Words) : List UInt8 :=
  bytes32 x.a ++ bytes32 x.b ++ bytes32 x.c ++ bytes32 x.d ++ bytes32 x.e ++ bytes32 x.f ++
    bytes32 x.g ++ bytes32 x.h

/-- The digest of a message. -/
noncomputable def sha256 (msg : List UInt8) : List UInt8 :=
  (absorb compress 64 initialHash (pad msg)).1.bytes

@[simp] lemma length_sha256 (msg : List UInt8) : (sha256 msg).length = 32 := rfl

lemma length_be64 (x : ℕ) : (be64 x).length = 8 := by simp [be64]

lemma schedule_of_lt (m : ℕ → UInt32) {t : ℕ} (h : t < 16) : schedule m t = m t := by
  rw [schedule, dif_pos h]

/-- The words of the schedule. -/
lemma schedule_add (m : ℕ → UInt32) (t : ℕ) :
    schedule m (t + 16) = smallSigma1 (schedule m (t + 14)) + schedule m (t + 9) + smallSigma0
      (schedule m (t + 1)) +
      schedule m t := by
  rw [schedule, dif_neg (by omega)]
  rfl

/-! ## The constants as numbers -/

/-- A number below 324 is a prime if no number up to its root divides it. -/
lemma prime_iff_of_lt {p : ℕ} (hp : p < 324) :
    p.Prime ↔ 2 ≤ p ∧ ∀ m < 18, 2 ≤ m → m * m ≤ p → p % m ≠ 0 := by
  rw [Nat.prime_def_le_sqrt]
  refine and_congr_right fun _ => ?_
  constructor
  · intro h m _ hm hsq hmod
    exact h m hm (Nat.le_sqrt.mpr hsq) (Nat.dvd_of_mod_eq_zero hmod)
  · intro h m hm hsqrt hdvd
    have hsq := Nat.le_sqrt.mp hsqrt
    exact h m (by nlinarith) hm hsq (Nat.mod_eq_zero_of_dvd hdvd)

/-- The first 64 primes. -/
lemma primes_eq : primes = [2, 3, 5, 7, 11, 13, 17, 19, 23, 29, 31, 37, 41, 43, 47, 53, 59, 61, 67,
    71, 73, 79, 83, 89,
    97, 101, 103, 107, 109, 113, 127, 131, 137, 139, 149, 151, 157, 163, 167, 173, 179, 181, 191,
      193, 197, 199, 211, 223,
    227, 229, 233, 239, 241, 251, 257, 263, 269, 271, 277, 281, 283, 293, 307, 311] := by
  have hcheck : primes = (List.range 312).filter fun p => 2 ≤ p ∧ ∀ m < 18, 2 ≤ m → m * m ≤ p →
    p % m ≠ 0 := by
    refine List.filter_congr fun p hp => ?_
    rw [decide_eq_decide]
    exact prime_iff_of_lt ((List.mem_range.mp hp).trans (by decide))
  rw [hcheck]
  decide +kernel

/-- The bits of a root are found by comparing powers. -/
lemma rootBits_eq {m p q k : ℕ} (hm : m ≠ 0) (hk : k < 2 ^ 32)
    (hlow : (q * 2 ^ 32 + k) ^ m ≤ p * (2 ^ 32) ^ m)
    (hhigh : p * (2 ^ 32) ^ m < (q * 2 ^ 32 + k + 1) ^ m) : rootBits m p = k := by
  have hroot : ((p : ℝ) ^ (1 / m : ℝ)) ^ m = p := by
    rw [one_div]
    exact Real.rpow_inv_natCast_pow p.cast_nonneg hm
  have hpos : 0 ≤ (p : ℝ) ^ (1 / m : ℝ) := Real.rpow_nonneg p.cast_nonneg _
  rw [rootBits]
  generalize (p : ℝ) ^ (1 / m : ℝ) = x at hroot hpos ⊢
  have hscaled : (x * 2 ^ 32) ^ m = p * (2 ^ 32) ^ m := by rw [mul_pow, hroot]
  have hle : (q : ℝ) * 2 ^ 32 + k ≤ x * 2 ^ 32 := by
    refine le_of_pow_le_pow_left₀ hm (by positivity) ?_
    rw [hscaled]
    exact_mod_cast hlow
  have hlt : x * 2 ^ 32 < (q : ℝ) * 2 ^ 32 + k + 1 := by
    refine lt_of_pow_lt_pow_left₀ m (by positivity) ?_
    rw [hscaled]
    exact_mod_cast hhigh
  have hk0 : (0 : ℝ) ≤ k := k.cast_nonneg
  have hk' : (k : ℝ) + 1 ≤ 2 ^ 32 := by exact_mod_cast hk
  have hfloor : ⌊x⌋ = (q : ℤ) := by
    rw [Int.floor_eq_iff, Int.cast_natCast]
    constructor
    · nlinarith
    · nlinarith
  rw [Int.fract, hfloor, Int.cast_natCast, Nat.floor_eq_iff (by nlinarith)]
  constructor
  · linarith
  · linarith

end Base.Sha256
