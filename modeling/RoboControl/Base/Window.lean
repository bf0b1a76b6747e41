import Mathlib.Tactic

/-!
# Sliding and fixed windows

A log of events, each with a time and a weight. `windowSum` is the weight of the events in a window
of some length, and `trailing` that of the last window up to some time. A bound on all windows is a
bound on those that end with an event (`forall_windowSum_iff`).

`blocks` splits a log into windows of some length that do not slide: a new one starts with the first
event that is too late for the one before. A window of the same length that does slide meets at most
two of them, so that a bound on the sliding windows is one on neighbouring blocks
(`forall_trailing_iff`).
-/

namespace Base
variable {α : Type*} (time weight : α → ℕ)

/-- The weight of the events with a property. -/
def weightOf (p : α → Bool) (log : List α) : ℕ := ((log.filter p).map weight).sum

/-- The weight of the events within `w` units of time from `t` on. -/
def windowSum (log : List α) (t w : ℕ) : ℕ :=
  weightOf weight (fun a => t ≤ time a && time a < t + w) log

/-- The weight of the events in the last `w` units of time up to `now`. -/
def trailing (log : List α) (now w : ℕ) : ℕ :=
  weightOf weight (fun a => time a ≤ now && now < time a + w) log

/-- Two neighbouring blocks: with each event of the second, what the second has up to it and what
the first has in the last `w` units of time is within the bound. -/
def Apart (w bound : ℕ) (u v : List α) : Prop :=
  ∀ e ∈ v, weightOf weight (fun a => time e < time a + w) u +
    weightOf weight (fun a => time a ≤ time e) v ≤ bound

instance (w bound : ℕ) (u v : List α) : Decidable (Apart time weight w bound u v) :=
  inferInstanceAs (Decidable (∀ e ∈ v, _))

/-- Put an event into the first block. -/
def addTo (a : α) : List (ℕ × List α) → List (ℕ × List α)
  | [] => []
  | b :: bs => (b.1, a :: b.2) :: bs

/-- A log from a window that starts at `start` on: the starts of the windows, and the
events in each. -/
def blocks (w : ℕ) : ℕ → List α → List (ℕ × List α)
  | start, [] => [(start, [])]
  | start, a :: log =>
    if start + w ≤ time a then (start, []) :: addTo a (blocks w (time a) log)
    else addTo a (blocks w start log)

variable {time weight} {log : List α} {p q : α → Bool} {w bound : ℕ}

/-! ## Weights -/

/-- The weight of a log by its first event. -/
lemma weightOf_cons (p : α → Bool) (a : α) (log : List α) :
    weightOf weight p (a :: log) = (if p a then weight a else 0) + weightOf weight p log := by
  rw [weightOf, List.filter_cons]
  split
  · rw [List.map_cons, List.sum_cons]
    rfl
  · exact (Nat.zero_add _).symm

/-- The weight of two logs, one behind the other. -/
lemma weightOf_append (p : α → Bool) (l₁ l₂ : List α) :
    weightOf weight p (l₁ ++ l₂) = weightOf weight p l₁ + weightOf weight p l₂ := by
  rw [weightOf, List.filter_append, List.map_append, List.sum_append]
  rfl

/-- The weight of a log by its newest event. -/
lemma weightOf_concat (p : α → Bool) (log : List α) (e : α) :
    weightOf weight p (log ++ [e]) = weightOf weight p log + if p e then weight e else 0 := by
  rw [weightOf_append, weightOf_cons]
  rfl

/-- More events weigh more. -/
lemma weightOf_le (h : ∀ a ∈ log, p a = true → q a = true) :
    weightOf weight p log ≤ weightOf weight q log := by
  induction log with
  | nil => exact le_rfl
  | cons a log ih =>
    obtain ⟨ha, hlog⟩ := List.forall_mem_cons.mp h
    rw [weightOf_cons, weightOf_cons]
    refine Nat.add_le_add ?_ (ih hlog)
    by_cases hp : p a = true
    · rw [if_pos hp, if_pos (ha hp)]
    · rw [if_neg hp]
      exact Nat.zero_le _

/-- The same events weigh the same. -/
lemma weightOf_congr (h : ∀ a ∈ log, p a = q a) :
    weightOf weight p log = weightOf weight q log := by
  rw [weightOf, List.filter_congr h]
  rfl

/-- No event weighs nothing. -/
lemma weightOf_eq_zero (h : ∀ a ∈ log, p a = false) : weightOf weight p log = 0 := by
  rw [weightOf, List.filter_eq_nil_iff.mpr fun a ha => Bool.eq_false_iff.mp (h a ha)]
  rfl

/-! ## Sliding windows -/

/-- A bound on every window, by the windows that end with an event. -/
lemma forall_windowSum_iff :
    (∀ t, windowSum time weight log t w ≤ bound) ↔
      ∀ e ∈ log, trailing time weight log (time e) w ≤ bound := by
  constructor
  · intro h e _
    refine le_trans (weightOf_le fun a _ ha => ?_) (h (time e + 1 - w))
    rw [Bool.and_eq_true, decide_eq_true_eq, decide_eq_true_eq] at ha ⊢
    omega
  · intro h t
    -- The latest event of the window ends a window that has all its events.
    cases hmax : (log.filter fun a => t ≤ time a && time a < t + w).argmax time with
    | none =>
      rw [windowSum, weightOf, List.argmax_eq_none.mp hmax]
      exact Nat.zero_le _
    | some e =>
      obtain ⟨he, hin⟩ := List.mem_filter.mp (List.argmax_mem hmax)
      refine le_trans (weightOf_le fun a ha hain => ?_) (h e he)
      have hle := List.le_of_mem_argmax (List.mem_filter.mpr ⟨ha, hain⟩) hmax
      rw [Bool.and_eq_true, decide_eq_true_eq, decide_eq_true_eq] at hin hain ⊢
      omega

/-! ## Fixed windows -/

/-- What precedes the window that ends with an event of a block: nothing of the blocks before the
last one, and nothing behind the block. -/
lemma trailing_block {pre u v rest : List α} {s : ℕ} {e : α} (he : e ∈ v)
    (hv : ∀ a ∈ v, s ≤ time a ∧ time a < s + w) (hpre : ∀ a ∈ pre, time a + w ≤ s)
    (hu : ∀ a ∈ u, time a < s) (hrest : ∀ a ∈ rest, s + w ≤ time a) :
    trailing time weight (pre ++ u ++ (v ++ rest)) (time e) w =
      weightOf weight (fun a => time e < time a + w) u +
        weightOf weight (fun a => time a ≤ time e) v := by
  obtain ⟨hlo, hhi⟩ := hv e he
  have h₁ : weightOf weight (fun a => time a ≤ time e && time e < time a + w) pre = 0 := by
    refine weightOf_eq_zero fun a ha => ?_
    have := hpre a ha
    simp
    omega
  have h₂ : weightOf weight (fun a => time a ≤ time e && time e < time a + w) rest = 0 := by
    refine weightOf_eq_zero fun a ha => ?_
    have := hrest a ha
    simp
    omega
  rw [trailing, weightOf_append, weightOf_append, weightOf_append, h₁, h₂, Nat.zero_add,
    Nat.add_zero]
  congr 1
  · refine weightOf_congr fun a ha => ?_
    have := hu a ha
    simp
    omega
  · refine weightOf_congr fun a ha => ?_
    have := hv a ha
    simp
    omega

/-- A bound on the windows that end with an event, by neighbouring blocks: `pre` and `u` are the
events before, those of the last block in `u`. -/
lemma forall_trailing_iff {bs : List (ℕ × List α)} (pre u : List α)
    (hin : ∀ b ∈ bs, ∀ a ∈ b.2, b.1 ≤ time a ∧ time a < b.1 + w)
    (hstarts : bs.Pairwise fun b c => b.1 + w ≤ c.1)
    (hpre : ∀ b ∈ bs, ∀ a ∈ pre, time a + w ≤ b.1) (hu : ∀ b ∈ bs, ∀ a ∈ u, time a < b.1) :
    (∀ e ∈ (bs.map Prod.snd).flatten,
      trailing time weight (pre ++ u ++ (bs.map Prod.snd).flatten) (time e) w ≤ bound) ↔
      (u :: bs.map Prod.snd).IsChain (Apart time weight w bound) := by
  induction bs generalizing pre u with
  | nil => simp
  | cons b bs ih =>
    obtain ⟨hb, hbs⟩ := List.forall_mem_cons.mp hin
    obtain ⟨hnext, hstarts'⟩ := List.pairwise_cons.mp hstarts
    obtain ⟨hpreb, hpre'⟩ := List.forall_mem_cons.mp hpre
    obtain ⟨hub, hu'⟩ := List.forall_mem_cons.mp hu
    have hrest : ∀ a ∈ (bs.map Prod.snd).flatten, b.1 + w ≤ time a := by
      intro a ha
      obtain ⟨l, hl, hal⟩ := List.mem_flatten.mp ha
      obtain ⟨c, hc, rfl⟩ := List.mem_map.mp hl
      exact (hnext c hc).trans (hbs c hc a hal).1
    -- The events of the block, and those behind it.
    rw [List.map_cons, List.flatten_cons, List.isChain_cons_cons, List.forall_mem_append]
    refine and_congr (forall₂_congr fun e he => ?_) ?_
    · rw [trailing_block he hb hpreb hub hrest]
    · rw [← ih (pre ++ u) b.2 hbs hstarts', List.append_assoc (pre ++ u)]
      · intro c hc a ha
        rcases List.mem_append.mp ha with ha | ha
        · exact (hpreb a ha).trans ((Nat.le_add_right _ _).trans (hnext c hc))
        · have := hub a ha
          have := hnext c hc
          omega
      · exact fun c hc a ha => (hb a ha).2.trans_le (hnext c hc)

/-- The blocks of a log in the order of time: the first one starts at `start`, every event lies in
its window, and the windows do not overlap. -/
lemma exists_blocks (time : α → ℕ) (hw : 0 < w) {start : ℕ} (hstart : ∀ a ∈ log, start ≤ time a)
    (hsorted : log.Pairwise (time · ≤ time ·)) :
    ∃ l bs, blocks time w start log = (start, l) :: bs ∧
      (∀ b ∈ (start, l) :: bs, ∀ a ∈ b.2, b.1 ≤ time a ∧ time a < b.1 + w) ∧
      ((start, l) :: bs).Pairwise fun b c => b.1 + w ≤ c.1 := by
  induction log generalizing start with
  | nil => exact ⟨[], [], rfl, by simp, by simp⟩
  | cons a log ih =>
    obtain ⟨ha, hstart'⟩ := List.forall_mem_cons.mp hstart
    obtain ⟨hfirst, hlog⟩ := List.pairwise_cons.mp hsorted
    rw [blocks]
    split
    · next hlate =>
      obtain ⟨l, bs, heq, hin, hstarts⟩ := ih hfirst hlog
      obtain ⟨hl, hbs⟩ := List.forall_mem_cons.mp hin
      refine ⟨[], (time a, a :: l) :: bs, by rw [heq, addTo], ?_, ?_⟩
      · refine List.forall_mem_cons.mpr ⟨by simp, List.forall_mem_cons.mpr ⟨?_, hbs⟩⟩
        exact List.forall_mem_cons.mpr ⟨⟨le_rfl, Nat.lt_add_of_pos_right hw⟩, hl⟩
      · refine List.pairwise_cons.mpr ⟨List.forall_mem_cons.mpr ⟨hlate, fun c hc => ?_⟩, ?_⟩
        · have := (List.pairwise_cons.mp hstarts).1 c hc
          dsimp only at this ⊢
          omega
        · exact List.pairwise_cons.mpr (List.pairwise_cons.mp hstarts)
    · next hearly =>
      obtain ⟨l, bs, heq, hin, hstarts⟩ := ih hstart' hlog
      obtain ⟨hl, hbs⟩ := List.forall_mem_cons.mp hin
      refine ⟨a :: l, bs, by rw [heq, addTo], ?_, ?_⟩
      · refine List.forall_mem_cons.mpr ⟨List.forall_mem_cons.mpr ⟨⟨ha, ?_⟩, hl⟩, hbs⟩
        exact not_le.mp hearly
      · exact List.pairwise_cons.mpr (List.pairwise_cons.mp hstarts)

end Base
