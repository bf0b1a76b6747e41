import Mathlib.Logic.Function.Iterate
import Mathlib.Tactic

/-!
# Circular buffers

A buffer whose index counts up for ever, also through a wrap-around of its type, and whose slots
repeat after `size` steps (`Circular`). `window` is the list of the elements between two indices. A
loop over a window that rewrites elements in place (`sweep`) acts on that list as `mapAccum`
(`window_sweep`), and an element stored behind the window is appended to it (`window_push`), as is a
whole list (`window_write`). `counter k` is the ring of `2 ^ k` slots whose index is a counter of 32
bits.
-/

namespace Base
open Function

/-- The indices and slots of a circular buffer: `size` consecutive indices have different slots. -/
structure Circular (I K : Type*) where
  succ : I → I
  slot : I → K
  size : ℕ
  distinct : ∀ (h : I) (i j : ℕ), i < size → j < size →
    slot (succ^[i] h) = slot (succ^[j] h) → i = j

/-- Run through a list with an accumulator, replacing its elements. -/
def mapAccum {σ α : Type*} (body : σ → α → σ × α) : σ → List α → σ × List α
  | s, [] => (s, [])
  | s, a :: l =>
    let (s, b) := body s a
    let (s, l) := mapAccum body s l
    (s, b :: l)

lemma mapAccum_cons {σ α : Type*} (body : σ → α → σ × α) (s : σ) (a : α) (l : List α) :
    mapAccum body s (a :: l) =
      ((mapAccum body (body s a).1 l).1, (body s a).2 :: (mapAccum body (body s a).1 l).2) :=
  rfl

/-- An element that the body leaves as it is. -/
lemma mem_mapAccum_of_fixed {σ α : Type*} {body : σ → α → σ × α} {a : α} {l : List α}
    (hbody : ∀ s, (body s a).2 = a) (ha : a ∈ l) (s : σ) : a ∈ (mapAccum body s l).2 := by
  induction l generalizing s with
  | nil => cases ha
  | cons b l ih =>
    rw [mapAccum_cons]
    obtain rfl | ha := List.mem_cons.mp ha
    · exact List.mem_cons.mpr (.inl (hbody s).symm)
    · exact List.mem_cons_of_mem _ (ih ha _)

/-- An element behind a pass is what the body makes of one. -/
lemma exists_of_mem_mapAccum {σ α : Type*} {body : σ → α → σ × α} {s : σ} {b : α} {l : List α}
    (hb : b ∈ (mapAccum body s l).2) : ∃ s', ∃ a ∈ l, b = (body s' a).2 := by
  induction l generalizing s with
  | nil => cases hb
  | cons a l ih =>
    rw [mapAccum_cons] at hb
    obtain rfl | hb := List.mem_cons.mp hb
    · exact ⟨s, a, List.mem_cons_self, rfl⟩
    · obtain ⟨s', a', ha', rfl⟩ := ih hb
      exact ⟨s', a', List.mem_cons_of_mem _ ha', rfl⟩

namespace Circular
variable {I K σ α : Type*} (ring : Circular I K)

/-- The `n` elements from index `h` on. -/
def window (es : K → α) : I → ℕ → List α
  | _, 0 => []
  | h, n + 1 => es (ring.slot h) :: window es (ring.succ h) n

@[simp] lemma length_window (es : K → α) (h : I) (n : ℕ) : (ring.window es h n).length = n := by
  induction n generalizing h with
  | zero => rfl
  | succ n ih => rw [window, List.length_cons, ih]

/-- The entries in the window decide. -/
lemma window_congr {es es' : K → α} {h : I} {n : ℕ}
    (e : ∀ i < n, es' (ring.slot (ring.succ^[i] h)) = es (ring.slot (ring.succ^[i] h))) :
    ring.window es' h n = ring.window es h n := by
  induction n generalizing h with
  | zero => rfl
  | succ n ih =>
    have h0 : es' (ring.slot h) = es (ring.slot h) := e 0 (Nat.succ_pos n)
    rw [window, window, h0, ih fun i hi => e (i + 1) (Nat.succ_lt_succ hi)]

/-- A window is split at an index. -/
lemma window_append (es : K → α) (h : I) (m n : ℕ) :
    ring.window es h (m + n) = ring.window es h m ++ ring.window es (ring.succ^[m] h) n := by
  induction m generalizing h with
  | zero => rw [Nat.zero_add, window, List.nil_append, Function.iterate_zero_apply]
  | succ m ih =>
    rw [Nat.succ_add, window, window, ih, List.cons_append, Function.iterate_succ_apply]

/-- The entries in the window. -/
lemma window_eq_map_range (es : K → α) (h : I) (n : ℕ) :
    ring.window es h n = (List.range n).map fun i => es (ring.slot (ring.succ^[i] h)) := by
  induction n with
  | zero => rfl
  | succ n ih => rw [window_append, ih, List.range_succ, List.map_append]; rfl

/-- A list stored behind a window: its elements are there, and those of the window are unchanged. -/
lemma window_write {es es' : K → α} {h : I} {n : ℕ} {l : List α}
    (frame : ∀ i < n, es' (ring.slot (ring.succ^[i] h)) = es (ring.slot (ring.succ^[i] h)))
    (stored : ∀ j a, l[j]? = some a → es' (ring.slot (ring.succ^[n + j] h)) = a) :
    ring.window es' h (n + l.length) = ring.window es h n ++ l := by
  rw [window_append, ring.window_congr frame]
  refine congrArg _ (List.ext_getElem? fun j => ?_)
  rw [window_eq_map_range, List.getElem?_map]
  by_cases hj : j < l.length
  · have hl := List.getElem?_eq_getElem hj
    rw [List.getElem?_range hj, hl, Option.map_some, ← Function.iterate_add_apply, Nat.add_comm j,
      stored j _ hl]
  · rw [List.getElem?_eq_none (by simpa using hj), List.getElem?_eq_none (not_lt.mp hj)]
    rfl

/-- The first slot is not one of the others of a window. -/
lemma slot_ne {n : ℕ} (hn : n < ring.size) (h : I) {i : ℕ} (hi : i < n) :
    ring.slot (ring.succ^[i] (ring.succ h)) ≠ ring.slot h := by
  intro e
  exact Nat.succ_ne_zero i (ring.distinct h (i + 1) 0 (by omega) (by omega) e)

variable [DecidableEq K]

/-- A loop over the `n` elements from index `h` on that replaces each in place. -/
def sweep (body : σ → α → σ × α) : ℕ → I → σ → (K → α) → σ × (K → α)
  | 0, _, s, es => (s, es)
  | n + 1, h, s, es =>
    let (s, a) := body s (es (ring.slot h))
    sweep body n (ring.succ h) s (update es (ring.slot h) a)

/-- A change in front of the window. -/
lemma window_update_head {n : ℕ} (hn : n < ring.size) (es : K → α) (h : I) (a : α) :
    ring.window (update es (ring.slot h) a) (ring.succ h) n =
      ring.window es (ring.succ h) n :=
  ring.window_congr fun _ hi => update_of_ne (ring.slot_ne hn h hi) _ _

/-- An element stored behind a window that leaves room for it. -/
lemma window_push {n : ℕ} (hn : n < ring.size) (es : K → α) (h : I) (a : α) :
    ring.window (update es (ring.slot (ring.succ^[n] h)) a) h (n + 1) =
      ring.window es h n ++ [a] := by
  induction n generalizing h with
  | zero => simp [window]
  | succ n ih =>
    have hne : ring.slot h ≠ ring.slot (ring.succ^[n + 1] h) :=
      (ring.slot_ne hn h (Nat.lt_succ_self n)).symm
    rw [window, update_of_ne hne, Function.iterate_succ_apply, ih (by omega)]
    rfl

/-- A sweep leaves the slots outside its window alone. -/
lemma sweep_frame (body : σ → α → σ × α) {n : ℕ} {h : I} {k : K}
    (hk : ∀ i < n, ring.slot (ring.succ^[i] h) ≠ k) (s : σ) (es : K → α) :
    (ring.sweep body n h s es).2 k = es k := by
  induction n generalizing h s es with
  | zero => rfl
  | succ n ih =>
    have h0 : ring.slot h ≠ k := hk 0 (Nat.succ_pos n)
    rw [sweep]
    refine (ih (fun i hi => ?_) _ _).trans (update_of_ne h0.symm _ _)
    exact hk (i + 1) (Nat.succ_lt_succ hi)

/-- A sweep relates every element to what it becomes as its body does. -/
lemma sweep_rel {r : α → α → Prop} (hrefl : ∀ a, r a a) (htrans : ∀ a b c, r a b → r b c → r a c)
    {body : σ → α → σ × α} (hbody : ∀ s a, r a (body s a).2) (n : ℕ) (h : I) (s : σ) (es : K → α)
    (k : K) : r (es k) ((ring.sweep body n h s es).2 k) := by
  induction n generalizing h s es with
  | zero => exact hrefl _
  | succ n ih =>
    rw [sweep]
    refine htrans _ _ _ ?_ (ih _ _ _)
    by_cases hk : k = ring.slot h
    · rw [hk, update_self]
      exact hbody s _
    · rw [update_of_ne hk]
      exact hrefl _

/-- A sweep over a window acts on the window's list. -/
lemma window_sweep (body : σ → α → σ × α) {n : ℕ} (hn : n ≤ ring.size) (h : I) (s : σ)
    (es : K → α) :
    (ring.sweep body n h s es).1 = (mapAccum body s (ring.window es h n)).1 ∧
      ring.window (ring.sweep body n h s es).2 h n =
        (mapAccum body s (ring.window es h n)).2 := by
  induction n generalizing h s es with
  | zero => exact ⟨rfl, rfl⟩
  | succ n ih =>
    obtain ⟨hs, hw⟩ := ih (by omega) (ring.succ h) (body s (es (ring.slot h))).1
      (update es (ring.slot h) (body s (es (ring.slot h))).2)
    rw [ring.window_update_head hn] at hs hw
    refine ⟨hs, ?_⟩
    rw [window, sweep, hw, ring.sweep_frame body (fun i hi => ring.slot_ne hn h hi),
      update_self]
    rfl

end Circular

/-! ## Counters of 32 bits -/

/-- A 32-bit index that counts up wraps around. -/
lemma toNat_iterate_add_one (h : UInt32) (k : ℕ) :
    ((· + 1)^[k] h).toNat = (h.toNat + k) % 2 ^ 32 := by
  induction k with
  | zero => exact (Nat.mod_eq_of_lt h.toNat_lt).symm
  | succ k ih =>
    have e1 : (1 : UInt32).toNat = 1 := rfl
    rw [Function.iterate_succ_apply', UInt32.toNat_add, ih, e1]
    omega

/-- Counting up. -/
lemma iterate_add_one (h n : UInt32) : (· + 1)^[n.toNat] h = h + n := by
  apply UInt32.toNat_inj.mp
  rw [UInt32.toNat_add]
  exact toNat_iterate_add_one h n.toNat

/-- The slot of an index modulo a power of two does not see the wrap-around. -/
lemma toNat_iterate_mod {k : ℕ} (hk : k ≤ 32) (h : UInt32) (i : ℕ) :
    ((· + 1)^[i] h).toNat % 2 ^ k = (h.toNat + i) % 2 ^ k := by
  rw [toNat_iterate_add_one, Nat.mod_mod_of_dvd _ (pow_dvd_pow 2 hk)]

/-- The places in a window differ. -/
lemma counter_distinct {k : ℕ} (hk : k ≤ 32) (h : UInt32) (i j : ℕ) (hi : i < 2 ^ k)
    (hj : j < 2 ^ k) (e : ((· + 1)^[i] h).toNat % 2 ^ k = ((· + 1)^[j] h).toNat % 2 ^ k) :
    i = j := by
  rw [toNat_iterate_mod hk, toNat_iterate_mod hk] at e
  have e' : i ≡ j [MOD 2 ^ k] := Nat.ModEq.add_left_cancel' _ e
  rwa [Nat.ModEq, Nat.mod_eq_of_lt hi, Nat.mod_eq_of_lt hj] at e'

/-- The ring of `2 ^ k` slots whose index is a 32-bit counter. -/
def counter (k : ℕ) (hk : k ≤ 32) : Circular UInt32 ℕ where
  succ idx := idx + 1
  slot idx := idx.toNat % 2 ^ k
  size := 2 ^ k
  distinct := counter_distinct hk

end Base
