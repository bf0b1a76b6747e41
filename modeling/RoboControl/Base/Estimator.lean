import Mathlib.Data.Nat.Dist
import Mathlib.Tactic

/-!
# Smoothed estimates

An estimate of a quantity from samples, in integer arithmetic: a smoothed mean, and a smoothed
deviation from it. The first sample sets both (`Estimate.first`), every other moves the mean by an
eighth and the deviation by a quarter (`Estimate.update`). The mean stays between the samples, and
the deviation below the greatest of them (`within_estimate`), although every division rounds down.
-/

namespace Base

/-- A smoothed mean and a smoothed deviation. -/
structure Estimate where
  mean : ℕ
  dev : ℕ

/-- The estimate from one sample. -/
def Estimate.first (r : ℕ) : Estimate := ⟨r, r / 2⟩

/-- The estimate after another sample. -/
def Estimate.update (e : Estimate) (r : ℕ) : Estimate :=
  ⟨(7 * e.mean + r) / 8, (3 * e.dev + e.mean.dist r) / 4⟩

/-- The estimate from a sample and those after it. -/
def estimate (r : ℕ) (rs : List ℕ) : Estimate := rs.foldl Estimate.update (.first r)

/-- The last sample. -/
lemma estimate_concat (r : ℕ) (rs : List ℕ) (x : ℕ) :
    estimate r (rs ++ [x]) = (estimate r rs).update x := by
  rw [estimate, List.foldl_append]
  rfl

/-- The mean is between two bounds and the deviation is not above the upper one. -/
structure Estimate.Within (lo hi : ℕ) (e : Estimate) : Prop where
  le_mean : lo ≤ e.mean
  mean_le : e.mean ≤ hi
  dev_le : e.dev ≤ hi

section Within
variable {lo hi r : ℕ} {rs : List ℕ} {e : Estimate}

/-- The first sample. -/
lemma Estimate.within_first (hlo : lo ≤ r) (hhi : r ≤ hi) : (Estimate.first r).Within lo hi :=
  ⟨hlo, hhi, (Nat.div_le_self r 2).trans hhi⟩

/-- One more sample. -/
lemma Estimate.Within.update (within : e.Within lo hi) (hlo : lo ≤ r) (hhi : r ≤ hi) :
    (e.update r).Within lo hi := by
  obtain ⟨hlo', hhi', hdev⟩ := within
  refine ⟨?_, ?_, ?_⟩
  · show lo ≤ (7 * e.mean + r) / 8
    omega
  · show (7 * e.mean + r) / 8 ≤ hi
    omega
  · show (3 * e.dev + (e.mean - r + (r - e.mean))) / 4 ≤ hi
    omega

/-- An estimate is within all bounds of its samples. -/
lemma within_estimate (h : ∀ x ∈ r :: rs, lo ≤ x ∧ x ≤ hi) : (estimate r rs).Within lo hi := by
  induction rs using List.reverseRecOn with
  | nil =>
    obtain ⟨hlo, hhi⟩ := h r List.mem_cons_self
    exact Estimate.within_first hlo hhi
  | append_singleton rs x ih =>
    rw [estimate_concat]
    obtain ⟨hlo, hhi⟩ := h x (by simp)
    refine (ih fun y hy => h y ?_).update hlo hhi
    rw [← List.cons_append]
    exact List.mem_append_left [x] hy

end Within
end Base
