import Mathlib.Tactic

/-!
# Newton's method for cube roots of natural numbers

One step of Newton's method in integer arithmetic. A step never undershoots: the cube of its
successor is greater than `x` (`lt_succ_newtonStep_cube`). Started at a number not below half the
root, it stays below four times a bound of the root (`CubeGuess.step`), so words that hold the cube
of that never overflow. Above the root the distance from it shrinks by a third in every step, and
near it the number of its digits that are right doubles, until the steps stay at the root and its
successor (`iterate_newtonStep_near`).
-/

namespace Base
variable {x g b : ℕ}

/-- A step of Newton's method for the cube root of `x`. -/
def newtonStep (x g : ℕ) : ℕ := (2 * g + x / (g * g)) / 3

/-- The inequality of arithmetic and geometric means for `u`, `g` and `g`. -/
lemma three_mul_mul_sq_le (u g : ℕ) : 3 * u * (g * g) ≤ u ^ 3 + 2 * g ^ 3 := by
  have h : (0 : ℤ) ≤ ((u : ℤ) - g) ^ 2 * (u + 2 * g) := by positivity
  zify
  nlinarith [h]

/-- A step does not go below the root. -/
lemma lt_succ_newtonStep_cube (hg : 0 < g) : x < (newtonStep x g + 1) ^ 3 := by
  have hstep : 2 * g + x / (g * g) < 3 * (newtonStep x g + 1) := by
    rw [newtonStep]
    omega
  have hdiv : x < (g * g) * (x / (g * g) + 1) := Nat.lt_mul_div_succ x (Nat.mul_pos hg hg)
  have hmean := three_mul_mul_sq_le (newtonStep x g + 1) g
  -- `x + 2 g ^ 3` is at most `g ^ 2` times what the step divides by three, rounded up.
  have hmul : (g * g) * (2 * g + x / (g * g) + 1) ≤ (g * g) * (3 * (newtonStep x g + 1)) :=
    Nat.mul_le_mul_left _ hstep
  nlinarith [hdiv, hmean, hmul]

/-- A step stays positive. -/
lemma newtonStep_pos (hx : 0 < x) (hg : 0 < g) : 0 < newtonStep x g := by
  have h := lt_succ_newtonStep_cube (x := x) hg
  by_contra hzero
  rw [Nat.eq_zero_of_not_pos hzero] at h
  omega

/-- From above the root a step goes down. -/
lemma newtonStep_le_self (h : x ≤ g ^ 3) : newtonStep x g ≤ g := by
  have hdiv : x / (g * g) ≤ g := by
    refine Nat.div_le_of_le_mul ?_
    calc x ≤ g ^ 3 := h
      _ = g * g * g := by ring
  rw [newtonStep]
  omega

/-- From at least half the root a step goes to at most four times its start. -/
lemma newtonStep_le_mul (hg : 0 < g) (h : x < (2 * g) ^ 3) : newtonStep x g ≤ 4 * g := by
  have hdiv : x / (g * g) ≤ 8 * g := by
    refine Nat.div_le_of_le_mul ?_
    calc x ≤ (2 * g) ^ 3 := h.le
      _ = g * g * (8 * g) := by ring
  rw [newtonStep]
  omega

/-- A guess for the cube root of `x`, which is at most `b`: not below half of it, and
at most `4 b`. -/
structure CubeGuess (x b g : ℕ) : Prop where
  pos : 0 < g
  le : g ≤ 4 * b
  lt : x < (2 * g) ^ 3

/-- Newton's method makes guesses from guesses. -/
lemma CubeGuess.step (guess : CubeGuess x b g) (hx : 0 < x) (hb : x ≤ b ^ 3) :
    CubeGuess x b (newtonStep x g) := by
  have hpos := newtonStep_pos hx guess.pos
  refine ⟨hpos, ?_, ?_⟩
  · by_cases hgb : b ≤ g
    · exact (newtonStep_le_self (hb.trans (Nat.pow_le_pow_left hgb 3))).trans guess.le
    · have h4 := newtonStep_le_mul guess.pos guess.lt
      omega
  · refine (lt_succ_newtonStep_cube guess.pos).trans_le (Nat.pow_le_pow_left ?_ 3)
    omega

/-! ## Convergence -/

section Convergence
variable {t : ℕ}

/-- Above `t` a step takes away a third of the distance. -/
lemma three_mul_newtonStep_sub_le (hx : x < t ^ 3) (hg : t ≤ g) :
    3 * (newtonStep x g - t) ≤ 2 * (g - t) := by
  have hdiv : x / (g * g) < t := by
    refine Nat.div_lt_of_lt_mul (hx.trans_le ?_)
    calc t ^ 3 = t * t * t := by ring
      _ ≤ g * g * t := Nat.mul_le_mul_right t (Nat.mul_le_mul hg hg)
  rw [newtonStep]
  omega

/-- Above `t` a step squares the distance, as a part of `t`. -/
lemma newtonStep_sub_mul_le (hx : x < t ^ 3) (hg : t ≤ g) :
    (newtonStep x g - t) * t ≤ (g - t) ^ 2 := by
  rcases Nat.le_total (newtonStep x g) t with hle | hle
  · rw [Nat.sub_eq_zero_of_le hle, Nat.zero_mul]
    exact Nat.zero_le _
  obtain ⟨e, rfl⟩ := Nat.exists_eq_add_of_le hg
  obtain ⟨d, hd⟩ := Nat.exists_eq_add_of_le hle
  have ht : 0 < t := Nat.pos_of_ne_zero fun h => by simp [h] at hx
  have hstep : 3 * newtonStep x (t + e) ≤ 2 * (t + e) + x / ((t + e) * (t + e)) :=
    Nat.mul_div_le _ 3
  have hdiv : (t + e) * (t + e) * (x / ((t + e) * (t + e))) ≤ x := Nat.mul_div_le x _
  have hmul : (t + e) * (t + e) * (3 * (t + d)) ≤ (t + e) * (t + e) * (2 * (t + e)) + x := by
    rw [← hd]
    calc (t + e) * (t + e) * (3 * newtonStep x (t + e))
        ≤ (t + e) * (t + e) * (2 * (t + e) + x / ((t + e) * (t + e))) := Nat.mul_le_mul_left _ hstep
      _ ≤ (t + e) * (t + e) * (2 * (t + e)) + x := by rw [Nat.mul_add]; omega
  -- The difference of the cubes has the factor `e ^ 2`.
  have hfactor : 3 * (t + e) * (t + e) * d ≤ e ^ 2 * (3 * (t + e)) := by nlinarith [hmul, hx]
  rw [hd, Nat.add_sub_cancel_left, Nat.add_sub_cancel_left]
  have hcancel : (t + e) * d ≤ e ^ 2 := by
    refine Nat.le_of_mul_le_mul_left ?_ (show 0 < 3 * (t + e) by omega)
    calc 3 * (t + e) * ((t + e) * d) = 3 * (t + e) * (t + e) * d := by ring
      _ ≤ e ^ 2 * (3 * (t + e)) := hfactor
      _ = 3 * (t + e) * e ^ 2 := by ring
  calc d * t ≤ (t + e) * d := by nlinarith
    _ ≤ e ^ 2 := hcancel

/-- A bound of the root of `x` that is not too small and exceeds it by at most one. -/
structure CubeBound (x t : ℕ) : Prop where
  le : (t - 1) ^ 3 ≤ x
  lt : x < t ^ 3
  large : 5 ≤ t

/-- Every number has a root. -/
lemma exists_cubeBound (hx : 4 ^ 3 ≤ x) : ∃ t, CubeBound x t := by
  have hex : ∃ t, x < t ^ 3 :=
    ⟨x + 1, (Nat.lt_succ_self x).trans_le (Nat.le_self_pow three_ne_zero _)⟩
  have hlt := Nat.find_spec hex
  have hlarge : 4 < Nat.find hex := (Nat.pow_lt_pow_iff_left three_ne_zero).mp (hx.trans_lt hlt)
  refine ⟨Nat.find hex, Nat.not_lt.mp (Nat.find_min hex (Nat.sub_lt ?_ one_pos)), hlt, hlarge⟩
  omega

namespace CubeBound

/-- What a step gives is not below the root. -/
lemma le_succ (bound : CubeBound x t) (hg : x < (g + 1) ^ 3) : t ≤ g + 1 := by
  have h := (Nat.pow_lt_pow_iff_left three_ne_zero).mp (bound.le.trans_lt hg)
  omega

/-- From the root and its successor a step goes to one of the two. -/
lemma newtonStep_le (bound : CubeBound x t) (hg : x < (g + 1) ^ 3) (hle : g ≤ t) :
    newtonStep x g ≤ t := by
  rcases Nat.eq_or_lt_of_le hle with rfl | hlt
  · exact newtonStep_le_self bound.lt.le
  · have hlarge := bound.large
    have hsucc := bound.le_succ hg
    obtain rfl : t = g + 1 := by omega
    have hdiv : x / (g * g) < g + 4 := by
      refine Nat.div_lt_of_lt_mul (bound.lt.trans_le ?_)
      nlinarith
    rw [newtonStep]
    omega

/-- A step comes closer. -/
lemma three_mul_sub_le (bound : CubeBound x t) (hg : x < (g + 1) ^ 3) :
    3 * (newtonStep x g - t) ≤ 2 * (g - t) := by
  rcases Nat.le_total g t with hle | hle
  · have h := bound.newtonStep_le hg hle
    omega
  · exact three_mul_newtonStep_sub_le bound.lt hle

/-- A step near the root comes much closer. -/
lemma sub_mul_le (bound : CubeBound x t) (hg : x < (g + 1) ^ 3) :
    (newtonStep x g - t) * t ≤ (g - t) ^ 2 := by
  rcases Nat.le_total g t with hle | hle
  · rw [Nat.sub_eq_zero_of_le (bound.newtonStep_le hg hle), Nat.zero_mul]
    exact Nat.zero_le _
  · exact newtonStep_sub_mul_le bound.lt hle

end CubeBound

lemma pos_of_lt_succ_cube (hx : 0 < x) (hg : x < (g + 1) ^ 3) : 0 < g := by
  refine Nat.pos_of_ne_zero ?_
  rintro rfl
  omega

/-- No number that steps give is below the root. -/
lemma lt_succ_iterate_newtonStep (hx : 0 < x) (hg : x < (g + 1) ^ 3) (n : ℕ) :
    x < ((newtonStep x)^[n] g + 1) ^ 3 := by
  induction n with
  | zero => exact hg
  | succ n ih =>
    rw [Function.iterate_succ_apply']
    exact lt_succ_newtonStep_cube (pos_of_lt_succ_cube hx ih)

namespace CubeBound

lemma pos (bound : CubeBound x t) : 0 < x := by
  have hlarge := bound.large
  exact (Nat.pow_pos (show 0 < t - 1 by omega)).trans_le bound.le

/-- Steps approach the root at least as a geometric sequence. -/
lemma three_pow_mul_sub_le (bound : CubeBound x t) (hg : x < (g + 1) ^ 3) (n : ℕ) :
    3 ^ n * ((newtonStep x)^[n] g - t) ≤ 2 ^ n * (g - t) := by
  induction n with
  | zero => exact le_refl _
  | succ n ih =>
    have hstep := bound.three_mul_sub_le (lt_succ_iterate_newtonStep bound.pos hg n)
    rw [Function.iterate_succ_apply', pow_succ, pow_succ]
    calc 3 ^ n * 3 * (newtonStep x ((newtonStep x)^[n] g) - t)
        = 3 ^ n * (3 * (newtonStep x ((newtonStep x)^[n] g) - t)) := by ring
      _ ≤ 3 ^ n * (2 * ((newtonStep x)^[n] g - t)) := Nat.mul_le_mul_left _ hstep
      _ = 2 * (3 ^ n * ((newtonStep x)^[n] g - t)) := by ring
      _ ≤ 2 * (2 ^ n * (g - t)) := Nat.mul_le_mul_left 2 ih
      _ = 2 ^ n * 2 * (g - t) := by ring

/-- A step from a part `1 / m` of the bound above it goes to a part `1 / m ^ 2`. -/
lemma sub_mul_sq_le (bound : CubeBound x t) (hg : x < (g + 1) ^ 3) {m : ℕ} (hm : (g - t) * m ≤ t) :
    (newtonStep x g - t) * (m * m) ≤ t := by
  have hlarge := bound.large
  refine Nat.le_of_mul_le_mul_right ?_ (show 0 < t by omega)
  calc (newtonStep x g - t) * (m * m) * t = (newtonStep x g - t) * t * (m * m) := by ring
    _ ≤ (g - t) ^ 2 * (m * m) := Nat.mul_le_mul_right _ (bound.sub_mul_le hg)
    _ = (g - t) * m * ((g - t) * m) := by ring
    _ ≤ t * t := Nat.mul_le_mul hm hm

/-- From half the bound above it, the steps converge quadratically. -/
lemma sub_mul_pow_le (bound : CubeBound x t) (hg : x < (g + 1) ^ 3) (hhalf : (g - t) * 2 ≤ t)
    (k : ℕ) :
    ((newtonStep x)^[k] g - t) * 2 ^ 2 ^ k ≤ t := by
  induction k with
  | zero => exact hhalf
  | succ k ih =>
    have hstep := bound.sub_mul_sq_le (lt_succ_iterate_newtonStep bound.pos hg k) ih
    rwa [Function.iterate_succ_apply', pow_succ, pow_mul, sq]

/-- At the root and its successor the steps stay there. -/
lemma iterate_newtonStep_le (bound : CubeBound x t) (hg : x < (g + 1) ^ 3) (hle : g ≤ t) (n : ℕ) :
    (newtonStep x)^[n] g ≤ t := by
  induction n with
  | zero => exact hle
  | succ n ih =>
    rw [Function.iterate_succ_apply']
    exact bound.newtonStep_le (lt_succ_iterate_newtonStep bound.pos hg n) ih

end CubeBound

/-- Started between half the root and the root of `x`, Newton's method is at the root or its
successor after six steps and as many more as squarings of 2 give a number above twice the root. -/
lemma iterate_newtonStep_near {k n : ℕ} (hx : 4 ^ 3 ≤ x) (hpos : 0 < g) (hle : g ^ 3 ≤ x)
    (hlt : x < (2 * g) ^ 3) (hk : 8 * x < (2 ^ 2 ^ k) ^ 3) (hn : k + 6 ≤ n) :
    x < ((newtonStep x)^[n] g + 1) ^ 3 ∧ ((newtonStep x)^[n] g - 1) ^ 3 ≤ x := by
  obtain ⟨t, bound⟩ := exists_cubeBound hx
  have hlarge := bound.large
  have hfirst : x < (newtonStep x g + 1) ^ 3 := lt_succ_newtonStep_cube hpos
  have hgt : g < t := (Nat.pow_lt_pow_iff_left three_ne_zero).mp (hle.trans_lt bound.lt)
  have hdist : newtonStep x g - t ≤ 3 * t := by
    have h4 := newtonStep_le_mul hpos hlt
    omega
  -- five steps bring the distance below half the bound
  have hhalf : ((newtonStep x)^[5] (newtonStep x g) - t) * 2 ≤ t := by
    have h := bound.three_pow_mul_sub_le hfirst 5
    omega
  have hnear := lt_succ_iterate_newtonStep bound.pos hfirst 5
  have htk : t < 2 ^ 2 ^ k := by
    refine (Nat.pow_lt_pow_iff_left three_ne_zero).mp (lt_of_le_of_lt ?_ hk)
    calc t ^ 3 ≤ (2 * (t - 1)) ^ 3 := Nat.pow_le_pow_left (by omega) 3
      _ = 8 * (t - 1) ^ 3 := by ring
      _ ≤ 8 * x := Nat.mul_le_mul_left 8 bound.le
  have hroot : (newtonStep x)^[k] ((newtonStep x)^[5] (newtonStep x g)) ≤ t := by
    have h := bound.sub_mul_pow_le hnear hhalf k
    by_contra hgt
    have hone : 1 ≤ (newtonStep x)^[k] ((newtonStep x)^[5] (newtonStep x g)) - t := by omega
    exact absurd ((Nat.le_mul_of_pos_left _ hone).trans h) (Nat.not_le.mpr htk)
  obtain ⟨j, rfl⟩ := Nat.exists_eq_add_of_le hn
  have hsplit : (newtonStep x)^[k + 6 + j] g =
      (newtonStep x)^[j] ((newtonStep x)^[k] ((newtonStep x)^[5] (newtonStep x g))) := by
    rw [← Function.iterate_succ_apply, ← Function.iterate_add_apply, ← Function.iterate_add_apply]
    congr 1
    omega
  rw [hsplit]
  have hlow := lt_succ_iterate_newtonStep bound.pos hnear k
  refine ⟨lt_succ_iterate_newtonStep bound.pos hlow j, ?_⟩
  have hend := bound.iterate_newtonStep_le hlow hroot j
  exact (Nat.pow_le_pow_left (Nat.sub_le_sub_right hend 1) 3).trans bound.le

end Convergence

end Base
