import Mathlib.Data.List.Nodup
import Mathlib.Data.Set.Function
import Mathlib.Logic.Function.Basic
import Mathlib.Tactic

/-!
# Slots

An array of slots that are in use or not is a function to `Bool`. Changing one slot changes the
number of those in use by at most one (`countP_update`). Where a counter gives each slot that is
taken into use its next value as an id, the ids in use are distinct (`Numbered`).
-/

namespace Base
open Function
variable {α : Type*}

/-- The number of slots in use after one of them was changed. -/
lemma countP_update [DecidableEq α] {l : List α} (hl : l.Nodup) {i : α} (hi : i ∈ l)
    (used : α → Bool) (b : Bool) :
    l.countP (update used i b) + (used i).toNat = l.countP used + b.toNat := by
  induction l with
  | nil => cases hi
  | cons a l ih =>
    obtain ⟨hal, hl'⟩ := List.nodup_cons.mp hl
    rw [List.countP_cons, List.countP_cons]
    by_cases hia : i = a
    · subst hia
      have hsame : l.countP (update used i b) = l.countP used := by
        refine List.countP_congr fun x hx => ?_
        rw [update_of_ne (ne_of_mem_of_not_mem hx hal)]
      rw [hsame, update_self]
      cases b <;> cases used i <;> simp
    · have hmem : i ∈ l := (List.mem_cons.mp hi).resolve_left hia
      have h := ih hl' hmem
      rw [update_of_ne (Ne.symm hia)]
      omega

/-- One slot more is used. -/
lemma countP_update_true [DecidableEq α] {l : List α} (hl : l.Nodup) {i : α} (hi : i ∈ l)
    {used : α → Bool} (h : used i = false) : l.countP (update used i true) = l.countP used + 1 := by
  have hcount := countP_update hl hi used true
  rwa [h] at hcount

/-- One slot less is used. -/
lemma countP_update_false [DecidableEq α] {l : List α} (hl : l.Nodup) {i : α} (hi : i ∈ l)
    {used : α → Bool} (h : used i = true) : l.countP (update used i false) + 1 = l.countP used := by
  have hcount := countP_update hl hi used false
  rwa [h] at hcount

/-- The members of `s` have distinct ids from `1` to `top`. -/
structure Numbered (s : Set α) (id : α → ℕ) (top : ℕ) : Prop where
  pos : ∀ i ∈ s, 0 < id i
  le : ∀ i ∈ s, id i ≤ top
  inj : Set.InjOn id s

section Numbered
variable {s s' : Set α} {id id' : α → ℕ} {top : ℕ}

/-- Fewer slots. -/
lemma Numbered.mono (num : Numbered s id top) (hs : s' ⊆ s) (hid : ∀ i ∈ s', id' i = id i) :
    Numbered s' id' top := by
  refine ⟨fun i hi => ?_, fun i hi => ?_, fun i hi j hj hij => ?_⟩
  · rw [hid i hi]
    exact num.pos i (hs hi)
  · rw [hid i hi]
    exact num.le i (hs hi)
  · rw [hid i hi, hid j hj] at hij
    exact num.inj (hs hi) (hs hj) hij

/-- One more member gets the next id. -/
lemma Numbered.next (num : Numbered s id top) {i : α} (hs : ∀ j ∈ s', j ≠ i → j ∈ s)
    (hid : ∀ j ∈ s', j ≠ i → id' j = id j) (hi : id' i = top + 1) : Numbered s' id' (top + 1) := by
  have hlow : ∀ j ∈ s', j ≠ i → id' j ≤ top := fun j hj hji => by
    rw [hid j hj hji]
    exact num.le j (hs j hj hji)
  refine ⟨fun j hj => ?_, fun j hj => ?_, fun j hj k hk hjk => ?_⟩
  · by_cases hji : j = i
    · rw [hji, hi]
      exact top.succ_pos
    · rw [hid j hj hji]
      exact num.pos j (hs j hj hji)
  · by_cases hji : j = i
    · rw [hji, hi]
    · exact (hlow j hj hji).trans top.le_succ
  · by_cases hji : j = i
    · by_contra hne
      have hki : k ≠ i := fun hki => hne (hji.trans hki.symm)
      have hle := hlow k hk hki
      rw [← hjk, hji, hi] at hle
      exact absurd hle top.not_succ_le_self
    · by_cases hki : k = i
      · have hle := hlow j hj hji
        rw [hjk, hki, hi] at hle
        exact absurd hle top.not_succ_le_self
      · rw [hid j hj hji, hid k hk hki] at hjk
        exact num.inj (hs j hj hji) (hs k hk hki) hjk

end Numbered

end Base
