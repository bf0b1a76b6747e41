import Mathlib.Data.List.Basic
import Mathlib.Tactic

/-!
# Absorbing a string block by block

A state that takes in a string in blocks of `n` elements (`absorb`): all blocks that are complete,
and what is left over. A string may come in pieces, if what is left over of the first is put in
front of the second (`absorb_append`).
-/

namespace Base
variable {σ α : Type*} (step : σ → List α → σ) (n : ℕ)

lemma length_drop_lt {n : ℕ} {l : List α} (h : 0 < n ∧ n ≤ l.length) :
    (l.drop n).length < l.length := by
  rw [List.length_drop]
  omega

/-- Take in the blocks of a string that are complete; the second component is what is left over. -/
def absorb (s : σ) (l : List α) : σ × List α :=
  if _h : 0 < n ∧ n ≤ l.length then absorb (step s (l.take n)) (l.drop n) else (s, l)
termination_by l.length
decreasing_by exact length_drop_lt _h

section
variable {step n}

/-- Less than a block. -/
lemma absorb_of_lt {l : List α} (h : l.length < n) (s : σ) : absorb step n s l = (s, l) := by
  rw [absorb, dif_neg]
  omega

/-- The first block. -/
lemma absorb_of_le (hn : 0 < n) {l : List α} (h : n ≤ l.length) (s : σ) :
    absorb step n s l = absorb step n (step s (l.take n)) (l.drop n) := by
  rw [absorb, dif_pos ⟨hn, h⟩]

/-- A complete block in front is taken in. -/
lemma absorb_block_append (hn : 0 < n) {b : List α} (hb : b.length = n) (l : List α) (s : σ) :
    absorb step n s (b ++ l) = absorb step n (step s b) l := by
  rw [absorb_of_le hn (by rw [List.length_append]; omega), List.take_left' hb, List.drop_left' hb]

/-- One block. -/
lemma absorb_block (hn : 0 < n) {b : List α} (hb : b.length = n) (s : σ) :
    absorb step n s b = (step s b, []) := by
  have h : absorb step n s (b ++ []) = absorb step n (step s b) [] := absorb_block_append hn hb [] s
  have hnil : ([] : List α).length < n := hn
  rwa [List.append_nil, absorb_of_lt hnil] at h

/-- The string may be given in two pieces. -/
lemma absorb_append (hn : 0 < n) (s : σ) (l m : List α) :
    absorb step n s (l ++ m) = absorb step n (absorb step n s l).1
      ((absorb step n s l).2 ++ m) := by
  induction s, l using absorb.induct step n with
  | case1 s l h ih =>
    rw [absorb_of_le hn (by rw [List.length_append]; omega), List.take_append_of_le_length h.2,
      List.drop_append_of_le_length h.2, ih, absorb_of_le hn h.2]
  | case2 s l h =>
    have hlt : l.length < n := by omega
    rw [absorb_of_lt hlt s]

/-- What is left. -/
lemma length_absorb_snd (hn : 0 < n) (s : σ) (l : List α) :
    (absorb step n s l).2.length = l.length % n := by
  induction s, l using absorb.induct step n with
  | case1 s l h ih => rw [absorb_of_le hn h.2, ih, List.length_drop, ← Nat.mod_eq_sub_mod h.2]
  | case2 s l h =>
    have hlt : l.length < n := by omega
    rw [absorb_of_lt hlt s, Nat.mod_eq_of_lt hlt]

end

end Base
