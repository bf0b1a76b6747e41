import RoboControl.Base.CubeRoot
import RoboControl.Congestion.Cubic

/-!
# The cube root of the congestion control

The cube root `icbrt` of `src/core/rc_congestion.c`, for the arguments its callers give it
(`kCubed`): neither of its loops computes a product that does not fit into 64 bits, it does not
divide by zero, and its result is the cube root, rounded down, or one more (`icbrt_accurate`). The
second loop is Newton's method, which may go back and forth between these two.
-/

namespace RoboControl.Congestion
open Base

/-! ## The rounds of the loops -/

/-- The guesses of the rounds of the first loop of `icbrt`, whose cubes it computes. -/
def icbrtGuessRounds (x : UInt64) : Nat → UInt32 → List UInt32
  | 0, _ => []
  | fuel + 1, guess =>
    guess ::
      if guess.toUInt64 * guess.toUInt64 * guess.toUInt64 ≤ x then
        icbrtGuessRounds x fuel (guess <<< 1)
      else []

/-- The guesses of the rounds of the second loop. -/
def icbrtRefineRounds (x : UInt64) : Nat → UInt32 → List UInt32
  | 0, _ => []
  | n + 1, guess =>
    let g := guess.toUInt64
    guess :: if g * g * g = x then []
      else if g * g = 0 then []
      else icbrtRefineRounds x n ((2 * g + x / (g * g)) / 3).toUInt32

/-- The guesses of all rounds of `icbrt`. -/
def icbrtRounds (x : UInt64) : List UInt32 :=
  if x = 0 then []
  else
    icbrtGuessRounds x 33 1 ++
      match icbrtGuess x 33 1 with
      | none => []
      | some guess => icbrtRefineRounds x 20 (guess >>> 1)

/-! ## The loops -/

section Loops
variable {x : UInt64} {guess : UInt32}

/-- The cube of a guess fits into 64 bits. -/
lemma toNat_cube (hguess : guess.toNat ≤ 2 ^ 19) :
    (guess.toUInt64 * guess.toUInt64).toNat = guess.toNat * guess.toNat ∧
      (guess.toUInt64 * guess.toUInt64 * guess.toUInt64).toNat = guess.toNat ^ 3 := by
  have h2 : guess.toNat * guess.toNat ≤ 2 ^ 19 * 2 ^ 19 := Nat.mul_le_mul hguess hguess
  have h3 : guess.toNat * guess.toNat * guess.toNat ≤ 2 ^ 19 * 2 ^ 19 * 2 ^ 19 :=
    Nat.mul_le_mul h2 hguess
  have hsq : (guess.toUInt64 * guess.toUInt64).toNat = guess.toNat * guess.toNat := by
    rw [UInt64.toNat_mul, UInt32.toNat_toUInt64]
    omega
  refine ⟨hsq, ?_⟩
  have hpow : guess.toNat ^ 3 = guess.toNat * guess.toNat * guess.toNat := by ring
  rw [UInt64.toNat_mul, hsq, UInt32.toNat_toUInt64, hpow]
  omega

/-- A guess is doubled in 32 bits. -/
lemma toNat_double {i : ℕ} (hguess : guess.toNat = 2 ^ i) (hi : i ≤ 17) :
    (guess <<< 1).toNat = 2 ^ (i + 1) := by
  have e1 : (1 : UInt32).toNat % 32 = 1 := rfl
  have hpow : 2 ^ (i + 1) ≤ 2 ^ 18 := Nat.pow_le_pow_right two_pos (by omega)
  rw [UInt32.toNat_shiftLeft, hguess, e1, Nat.shiftLeft_eq, pow_one, ← pow_succ]
  omega

/-- A power of two whose cube is greater, and whose half has a cube that is not, gives
the first guess. -/
lemma cubeGuess_half {j : ℕ} (hguess : guess.toNat = 2 ^ (j + 1)) (hlow : (2 ^ j) ^ 3 ≤ x.toNat)
    (hhigh : x.toNat < (2 ^ (j + 1)) ^ 3) (hj : j ≤ 17) :
    CubeGuess x.toNat (2 ^ 17) (guess >>> 1).toNat ∧ (guess >>> 1).toNat ^ 3 ≤ x.toNat := by
  have hhalf : (guess >>> 1).toNat = 2 ^ j := by
    rw [UInt32.toNat_shiftRight, hguess, Nat.shiftRight_eq_div_pow, pow_succ]
    exact Nat.mul_div_cancel _ two_pos
  have hpow : 2 ^ j ≤ 2 ^ 17 := Nat.pow_le_pow_right two_pos hj
  rw [hhalf]
  refine ⟨⟨by positivity, by omega, ?_⟩, hlow⟩
  rwa [← Nat.pow_succ']

/-- The first loop ends, at a power of two whose half is a guess that is not above the root. -/
lemma icbrtGuess_eq (hx : 0 < x.toNat) (hle : x.toNat ≤ (2 ^ 17) ^ 3) {fuel i : ℕ}
    (hfuel : 19 ≤ fuel + i) (hi : i ≤ 18) (hguess : guess.toNat = 2 ^ i)
    (hlow : i = 0 ∨ (2 ^ (i - 1)) ^ 3 ≤ x.toNat) :
    (∀ r ∈ icbrtGuessRounds x fuel guess, r.toNat ≤ 2 ^ 19) ∧
    ∃ g, icbrtGuess x fuel guess = some g ∧ CubeGuess x.toNat (2 ^ 17) (g >>> 1).toNat ∧
      (g >>> 1).toNat ^ 3 ≤ x.toNat := by
  induction fuel generalizing guess i with
  | zero => omega
  | succ fuel ih =>
    have hpow : 2 ^ i ≤ 2 ^ 18 := Nat.pow_le_pow_right two_pos hi
    have hround : guess.toNat ≤ 2 ^ 19 := by omega
    have hcube : (guess.toUInt64 * guess.toUInt64 * guess.toUInt64).toNat = guess.toNat ^ 3 :=
      (toNat_cube hround).2
    rw [icbrtGuess, icbrtGuessRounds, List.forall_mem_cons]
    split
    · next hnext =>
      rw [UInt64.le_iff_toNat_le, hcube, hguess] at hnext
      have hi' : i ≤ 17 := by
        have h := (Nat.pow_le_pow_iff_left three_ne_zero).mp (hnext.trans hle)
        exact (Nat.pow_le_pow_iff_right one_lt_two).mp h
      obtain ⟨hrounds, hend⟩ :=
        ih (i := i + 1) (by omega) (by omega) (toNat_double hguess hi') (.inr hnext)
      exact ⟨⟨hround, hrounds⟩, hend⟩
    · next hstop =>
      rw [UInt64.le_iff_toNat_le, hcube, hguess, not_le] at hstop
      have hi0 : i ≠ 0 := by
        rintro rfl
        omega
      obtain ⟨j, rfl⟩ := Nat.exists_eq_succ_of_ne_zero hi0
      refine ⟨⟨hround, List.forall_mem_nil _⟩, guess, rfl, ?_⟩
      exact cubeGuess_half hguess (hlow.resolve_left hi0) hstop (by omega)

/-- A round of the second loop is a step of Newton's method. -/
lemma toNat_refined (hguess : CubeGuess x.toNat (2 ^ 17) guess.toNat)
    (hstep : newtonStep x.toNat guess.toNat ≤ 2 ^ 19) :
    ((2 * guess.toUInt64 + x / (guess.toUInt64 * guess.toUInt64)) / 3).toUInt32.toNat =
      newtonStep x.toNat guess.toNat := by
  have e2 : (2 : UInt64).toNat = 2 := rfl
  have e3 : (3 : UInt64).toNat = 3 := rfl
  have hdiv : x.toNat / (guess.toNat * guess.toNat) ≤ x.toNat := Nat.div_le_self _ _
  have hg := hguess.le
  rw [UInt64.toNat_toUInt32, UInt64.toNat_div, UInt64.toNat_add, UInt64.toNat_div,
    (toNat_cube hguess.le).1, UInt64.toNat_mul, UInt32.toNat_toUInt64, e2, e3]
  rw [newtonStep] at hstep ⊢
  have hsum : 2 * guess.toNat + x.toNat / (guess.toNat * guess.toNat) < 2 ^ 64 := by omega
  rw [Nat.mod_eq_of_lt (show 2 * guess.toNat < 2 ^ 64 by omega), Nat.mod_eq_of_lt hsum,
    Nat.mod_eq_of_lt (by omega)]

/-- The second loop does not divide by zero, and ends at the root itself or after all its steps. -/
lemma icbrtRefine_ok (hx : 0 < x.toNat) (hle : x.toNat ≤ (2 ^ 17) ^ 3)
    (hguess : CubeGuess x.toNat (2 ^ 17) guess.toNat) (n : ℕ) :
    (∀ r ∈ icbrtRefineRounds x n guess, r.toNat ≤ 2 ^ 19) ∧
    ∃ g, icbrtRefine x n guess = .ok g ∧ CubeGuess x.toNat (2 ^ 17) g.toNat ∧
      (g.toNat ^ 3 = x.toNat ∨ g.toNat = (newtonStep x.toNat)^[n] guess.toNat) := by
  induction n generalizing guess with
  | zero => exact ⟨List.forall_mem_nil _, guess, rfl, hguess, .inr rfl⟩
  | succ n ih =>
    obtain ⟨hsq, hcube⟩ := toNat_cube hguess.le
    have hne : guess.toUInt64 * guess.toUInt64 ≠ 0 := by
      intro h
      have h0 := congrArg UInt64.toNat h
      rw [hsq] at h0
      exact (Nat.mul_pos hguess.pos hguess.pos).ne' h0
    rw [icbrtRefine, icbrtRefineRounds, if_neg hne, if_neg hne, List.forall_mem_cons]
    split
    · next hroot =>
      refine ⟨⟨hguess.le, List.forall_mem_nil _⟩, guess, rfl, hguess, .inl ?_⟩
      rw [← hcube, hroot]
    · have hstep := hguess.step hx hle
      have htoNat := toNat_refined hguess hstep.le
      rw [← htoNat] at hstep
      obtain ⟨hrounds, g, hg, hend, hroot⟩ := ih hstep
      refine ⟨⟨hguess.le, hrounds⟩, g, hg, hend, ?_⟩
      rwa [htoNat, ← Function.iterate_succ_apply] at hroot

end Loops

/-! ## The cube root -/

/-- `r` is the cube root of `x`, rounded down, or one more. -/
def NearCubeRoot (x r : ℕ) : Prop := x < (r + 1) ^ 3 ∧ (r = 0 ∨ (r - 1) ^ 3 ≤ x)

/-- A root that is exact. -/
lemma nearCubeRoot_of_cube_eq {x r : ℕ} (h : r ^ 3 = x) : NearCubeRoot x r := by
  subst h
  exact ⟨Nat.pow_lt_pow_left (Nat.lt_succ_self r) three_ne_zero,
    .inr (Nat.pow_le_pow_left (Nat.sub_le r 1) 3)⟩

/-- What `icbrt` does for a number of 51 bits that is not too small. -/
lemma icbrt_ok {x : UInt64} (hle : x.toNat ≤ (2 ^ 17) ^ 3) (hlarge : x = 0 ∨ 4 ^ 3 ≤ x.toNat) :
    (∀ r ∈ icbrtRounds x, r.toNat ≤ 2 ^ 19) ∧
    ∃ k, icbrt x = .ok k ∧ k.toNat ≤ 2 ^ 19 ∧ NearCubeRoot x.toNat k.toNat := by
  rw [icbrt, icbrtRounds]
  split
  · next hx =>
    rw [hx]
    exact ⟨List.forall_mem_nil _, 0, rfl, Nat.zero_le _, nearCubeRoot_of_cube_eq rfl⟩
  · next hx =>
    have hlarge := hlarge.resolve_left hx
    have hpos : 0 < x.toNat := by omega
    have hfirst : (1 : UInt32).toNat = 2 ^ 0 := rfl
    obtain ⟨hrounds, g, hg, hguess, hlow⟩ :=
      icbrtGuess_eq hpos hle (show 19 ≤ 33 + 0 by omega) (by omega) hfirst (.inl rfl)
    obtain ⟨hrounds', k, hk, hroot, hend⟩ := icbrtRefine_ok hpos hle hguess 20
    rw [hg]
    refine ⟨List.forall_mem_append.mpr ⟨hrounds, hrounds'⟩, k, hk, hroot.le, ?_⟩
    rcases hend with hcube | hend
    · exact nearCubeRoot_of_cube_eq hcube
    · -- eleven of the twenty steps are enough for 32 bits
      have hnear := iterate_newtonStep_near (k := 5) (n := 20) hlarge hguess.pos hlow hguess.lt
        (by omega) (by omega)
      rw [← hend] at hnear
      exact ⟨hnear.1, .inr hnear.2⟩

lemma toNat_kCubed (wMax : UInt32) : (kCubed wMax).toNat = wMax.toNat * 1024 * 307 / 4 := by
  have hw := wMax.toNat_lt
  have e1 : cubicBetaScale.toUInt64.toNat = 1024 := rfl
  have e2 : (cubicBetaScale - cubicBeta).toUInt64.toNat = 307 := rfl
  have e3 : cubicC.toUInt64.toNat = 4 := rfl
  rw [kCubed, UInt64.toNat_div, UInt64.toNat_mul, UInt64.toNat_mul, UInt32.toNat_toUInt64, e1, e2,
    e3]
  omega

/-- What `icbrt` does for the argument that gives `k`. -/
lemma icbrt_kCubed (wMax : UInt32) :
    (∀ r ∈ icbrtRounds (kCubed wMax), r.toNat ≤ 2 ^ 19) ∧
    ∃ k, icbrt (kCubed wMax) = .ok k ∧ k.toNat ≤ 2 ^ 19 ∧
      NearCubeRoot (kCubed wMax).toNat k.toNat := by
  have hw := wMax.toNat_lt
  have hx := toNat_kCubed wMax
  refine icbrt_ok (by omega) ?_
  by_cases hzero : wMax.toNat = 0
  · refine .inl (UInt64.toNat_inj.mp ?_)
    rw [hx, hzero]
    rfl
  · exact .inr (by omega)

/-- The cube root for `k` is computed for every window. -/
lemma icbrt_kCubed_ok (wMax : UInt32) : ∃ k, icbrt (kCubed wMax) = .ok k ∧ k.toNat ≤ 2 ^ 19 := by
  obtain ⟨-, k, hk, hle, -⟩ := icbrt_kCubed wMax
  exact ⟨k, hk, hle⟩

/-- For every window the argument of `icbrt` is computed exactly, and `icbrt` returns: none of its
products and sums overflows 64 bits in any round, it does not divide by zero, and its result is the
cube root, rounded down, or one more. -/
theorem icbrt_accurate (wMax : UInt32) :
    (kCubed wMax).toNat = wMax.toNat * 1024 * 307 / 4 ∧
    (∀ g ∈ icbrtRounds (kCubed wMax), g.toNat * g.toNat * g.toNat < 2 ^ 64 ∧
      2 * g.toNat + (kCubed wMax).toNat / (g.toNat * g.toNat) < 2 ^ 64) ∧
    ∃ r, icbrt (kCubed wMax) = .ok r ∧ (kCubed wMax).toNat < (r.toNat + 1) ^ 3 ∧
      (r.toNat = 0 ∨ (r.toNat - 1) ^ 3 ≤ (kCubed wMax).toNat) := by
  have hx := toNat_kCubed wMax
  obtain ⟨hrounds, r, hr, -, hnear⟩ := icbrt_kCubed wMax
  refine ⟨hx, fun g hg => ⟨?_, ?_⟩, r, hr, hnear.1, hnear.2⟩
  · have h2 : g.toNat * g.toNat ≤ 2 ^ 19 * 2 ^ 19 := Nat.mul_le_mul (hrounds g hg) (hrounds g hg)
    have h3 : g.toNat * g.toNat * g.toNat ≤ 2 ^ 19 * 2 ^ 19 * 2 ^ 19 :=
      Nat.mul_le_mul h2 (hrounds g hg)
    omega
  · have hdiv := Nat.div_le_self (kCubed wMax).toNat (g.toNat * g.toNat)
    have hw := wMax.toNat_lt
    have hg := hrounds g hg
    omega

/-- A window of ten segments: the cube root of 1147443200 is 1046, and so is the result. -/
example : icbrt (kCubed 14600) = .ok 1046 := by rfl

end RoboControl.Congestion
