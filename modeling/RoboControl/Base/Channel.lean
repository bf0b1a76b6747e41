import Mathlib.Algebra.Ring.Basic
import Mathlib.Tactic

/-!
# Channels with implicit counters

A sender and a receiver that protect each message under a counter of their own: the counter is not
sent, so a message is recovered only while the two counters agree. `Lossless` says that every
genuine message of a sequence is recovered, with forged messages inserted anywhere; `drift` counts
the forged messages that make the receiver count. `lossless_iff` is the exact condition for a
receiver that also counts what it then rejects, and `lossless_genuine_iff` the one for a sequence
without forged messages.

Several senders that each count for themselves produce the interleaved counters `stamps`;
`nodup_stamps_iff`: counters that start alike stay distinct exactly when only one sender sends.
-/

namespace Base
open Function

/-- A channel: `protect` and `recover` under a counter, and the messages a receiver looks at. -/
structure Channel (C P X : Type*) where
  protect : C → P → Option X
  recover : C → X → Option P
  admits : X → Bool

/-- A message on its way: sent by the peer, or put there by someone else. -/
inductive Item (P X : Type*) where
  | genuine (p : P)
  | forged (x : X)

namespace Channel
variable {C P X : Type*} [AddCommGroupWithOne C]

/-- One receipt: a message that is looked at costs a counter value, whatever comes of it. -/
def recv (ch : Channel C P X) (d : C) (x : X) : Option P × C :=
  if ch.admits x then (ch.recover d x, d + 1) else (none, d)

/-- Every genuine message is recovered, from sender counter `c` and receiver counter `d` on. -/
def Lossless (ch : Channel C P X) : C → C → List (Item P X) → Prop
  | _, _, [] => True
  | c, d, .genuine p :: is =>
    ∃ x, ch.protect c p = some x ∧ (ch.recv d x).1 = some p ∧ Lossless ch (c + 1) (ch.recv d x).2 is
  | c, d, .forged x :: is => Lossless ch c (ch.recv d x).2 is

/-- The number of forged messages that the receiver looks at. -/
def drift (ch : Channel C P X) : List (Item P X) → Nat
  | [] => 0
  | .genuine _ :: is => drift ch is
  | .forged x :: is => (if ch.admits x then 1 else 0) + drift ch is

/-- A message protected under a counter is looked at and recovered under the same counter. -/
def Recovered (ch : Channel C P X) (c : C) (p : P) : Prop :=
  ∃ x, ch.protect c p = some x ∧ ch.admits x = true ∧ ch.recover c x = some p

/-- A protected message is not recovered under another counter. -/
def Authentic (ch : Channel C P X) (p : P) : Prop :=
  ∀ c d x, c ≠ d → ch.protect c p = some x → ch.recover d x = none

variable {ch : Channel C P X} {d : C} {x : X} {p : P}

/-- What a receipt that recovers something has done. -/
lemma recv_eq_some (h : (ch.recv d x).1 = some p) :
    ch.admits x = true ∧ ch.recover d x = some p ∧ (ch.recv d x).2 = d + 1 := by
  rw [recv] at h ⊢
  split at h
  · rename_i adm
    rw [if_pos adm]
    exact ⟨adm, h, rfl⟩
  · cases h

/-- A message that is counted. -/
lemma recv_of_admits (adm : ch.admits x = true) :
    ch.recv d x = (ch.recover d x, d + 1) := if_pos adm

variable {c : C} {is : List (Item P X)}

/-- With equal counters, a genuine message is recovered if it can be, and the
counters stay equal. -/
lemma lossless_genuine_cons :
    ch.Lossless c c (.genuine p :: is) ↔ ch.Recovered c p ∧ ch.Lossless (c + 1) (c + 1) is := by
  constructor
  · rintro ⟨x, hx, hrec, hrest⟩
    obtain ⟨adm, hu, hd⟩ := recv_eq_some hrec
    rw [hd] at hrest
    exact ⟨⟨x, hx, adm, hu⟩, hrest⟩
  · rintro ⟨⟨x, hx, adm, hu⟩, hrest⟩
    refine ⟨x, hx, ?_, ?_⟩
    · rw [recv_of_admits adm]
      exact hu
    · rw [recv_of_admits adm]
      exact hrest

/-- With different counters, a genuine message is not recovered. -/
lemma not_lossless_genuine_cons
    (ha : ch.Authentic p) (hne : c ≠ d) : ¬ ch.Lossless c d (.genuine p :: is) := by
  rintro ⟨x, hx, hrec, _⟩
  obtain ⟨_, hu, _⟩ := recv_eq_some hrec
  cases hu.symm.trans (ha c d x hne hx)

/-- A forged message moves the receiver's counter if it is looked at. -/
lemma lossless_forged_cons {k : C} :
    ch.Lossless c (c + k) (.forged x :: is) ↔
      ch.Lossless c (c + (k + ((if ch.admits x then 1 else 0 : ℕ) : C))) is := by
  have hr : (ch.recv (c + k) x).2 = c + (k + ((if ch.admits x then 1 else 0 : ℕ) : C)) := by
    rw [recv]
    split <;> simp [add_assoc]
  rw [Lossless, hr]

/-- What holds at every genuine message of a list, by the first item. -/
lemma forall_genuine_cons {Q : List (Item P X) → P → Prop} {i : Item P X} :
    (∀ pre p post, i :: is = pre ++ .genuine p :: post → Q pre p) ↔
      (∀ p, i = .genuine p → Q [] p) ∧
        ∀ pre p post, is = pre ++ .genuine p :: post → Q (i :: pre) p := by
  constructor
  · refine fun h => ⟨fun p e => ?_, fun pre p post e => ?_⟩
    · exact h [] p is (by rw [e]; rfl)
    · exact h (i :: pre) p post (by rw [e]; rfl)
  · rintro ⟨hhead, htail⟩ pre p post e
    cases pre with
    | nil =>
      cases e
      exact hhead p rfl
    | cons j pre =>
      cases e
      exact htail pre p post rfl

/-- The genuine messages are recovered exactly when each can be (`F`) and the receiver's counter has
not drifted away from the sender's at any of them. -/
theorem lossless_iff (ch : Channel C P X) {F : P → Prop} (items : List (Item P X)) {k : C}
    (hf : ∀ p, .genuine p ∈ items → ∀ c, F p ↔ ch.Recovered c p)
    (ha : ∀ p, .genuine p ∈ items → ch.Authentic p) :
    ch.Lossless c (c + k) items ↔
      ∀ pre p post, items = pre ++ .genuine p :: post → F p ∧ k + (ch.drift pre : C) = 0 := by
  induction items generalizing c k with
  | nil => simp [Lossless]
  | cons i is ih =>
    have hf' : ∀ p, .genuine p ∈ is → ∀ c, F p ↔ ch.Recovered c p :=
      fun p hp => hf p (List.mem_cons_of_mem _ hp)
    have ha' : ∀ p, .genuine p ∈ is → ch.Authentic p :=
      fun p hp => ha p (List.mem_cons_of_mem _ hp)
    rw [forall_genuine_cons]
    cases i with
    | genuine p =>
      have hp := hf p List.mem_cons_self c
      -- A genuine message is recovered only while the counters agree, that is for `k = 0`.
      by_cases hk : k = 0
      · subst hk
        have hrest := @ih (c + 1) 0 hf' ha'
        rw [add_zero] at hrest
        rw [add_zero, lossless_genuine_cons, ← hp, hrest]
        refine and_congr_left fun _ => ⟨fun fp q e => ?_, fun h => (h p rfl).1⟩
        cases e
        exact ⟨fp, by simp [drift]⟩
      · refine iff_of_false (not_lossless_genuine_cons (ha p List.mem_cons_self) ?_) fun h => hk ?_
        · exact fun e => hk (left_eq_add.mp e)
        · simpa [drift] using (h.1 p rfl).2
    | forged x =>
      rw [lossless_forged_cons, ih hf' ha']
      refine ⟨fun h => ⟨fun _ e => (by cases e), fun pre q post e => ?_⟩, fun h pre q post e => ?_⟩
      · rw [drift, Nat.cast_add, ← add_assoc]
        exact h pre q post e
      · have h' := h.2 pre q post e
        rw [drift, Nat.cast_add, ← add_assoc] at h'
        exact h'

/-- Without forged messages and from equal counters on, nothing is lost exactly when each message
can be recovered. -/
theorem lossless_genuine_iff (ch : Channel C P X) {F : P → Prop} {ps : List P}
    (hf : ∀ p ∈ ps, ∀ c, F p ↔ ch.Recovered c p) :
    ch.Lossless c c (ps.map .genuine) ↔ ∀ p ∈ ps, F p := by
  induction ps generalizing c with
  | nil => simp [Lossless]
  | cons p ps ih =>
    rw [List.forall_mem_cons, List.map_cons, lossless_genuine_cons, hf p List.mem_cons_self c]
    exact and_congr_right fun _ => ih fun q hq => hf q (List.mem_cons_of_mem _ hq)

end Channel

/-! ## Interleaved senders -/

section Stamps
variable {I C : Type*} [DecidableEq I] [AddMonoidWithOne C]

/-- The counter values that senders `is` use in this order, each counting from its own `n`. -/
def stamps (n : I → C) : List I → List C
  | [] => []
  | i :: is => n i :: stamps (update n i (n i + 1)) is

variable {is : List I}

/-- The first value of every sender is used. -/
lemma mem_stamps {n : I → C} {i : I} (h : i ∈ is) : n i ∈ stamps n is := by
  induction is generalizing n with
  | nil => cases h
  | cons j is ih =>
    by_cases hij : i = j
    · subst hij
      exact List.mem_cons_self
    · have hi : i ∈ is := (List.mem_cons.mp h).resolve_left hij
      have hm := @ih (update n j (n j + 1)) hi
      rw [update_of_ne hij] at hm
      exact List.mem_cons_of_mem _ hm

/-- A single sender counts up. -/
lemma stamps_of_forall_eq {n : I → C} {i : I} (h : ∀ j ∈ is, j = i) :
    stamps n is = (List.range is.length).map fun k : ℕ => n i + (k : C) := by
  induction is generalizing n with
  | nil => rfl
  | cons j is ih =>
    obtain ⟨rfl, his⟩ := List.forall_mem_cons.mp h
    rw [stamps, ih his, List.length_cons, List.range_succ_eq_map, List.map_cons, List.map_map]
    simp only [update_self, Nat.cast_zero, add_zero, List.cons.injEq, true_and]
    refine List.map_congr_left fun k _ => ?_
    show n j + 1 + (k : C) = n j + ((k + 1 : ℕ) : C)
    rw [add_assoc, Nat.add_comm k 1, Nat.cast_add, Nat.cast_one]

/-- Senders that start from the same value use distinct values exactly when only one
of them sends. -/
theorem nodup_stamps_iff
    (hinj : ∀ i, Set.InjOn (Nat.cast : ℕ → C) {k | k < is.count i}) :
    (stamps (fun _ => (0 : C)) is).Nodup ↔ ∀ i ∈ is, ∀ j ∈ is, i = j := by
  constructor
  · intro hn
    cases is with
    | nil => simp
    | cons i is =>
      -- Another sender would use the start value again.
      have hall : ∀ j ∈ i :: is, j = i := by
        intro j hj
        by_contra hji
        have hm := mem_stamps (n := update (fun _ => (0 : C)) i (0 + 1))
          ((List.mem_cons.mp hj).resolve_left hji)
        rw [update_of_ne hji] at hm
        exact (List.nodup_cons.mp hn).1 hm
      intro j hj k hk
      rw [hall j hj, hall k hk]
  · intro h
    cases is with
    | nil => exact List.nodup_nil
    | cons i is =>
      -- A single sender counts from 0 to its number of messages.
      have hall : ∀ j ∈ i :: is, j = i := fun j hj => h j hj i List.mem_cons_self
      have hcount : (i :: is).count i = (i :: is).length :=
        List.count_eq_length.mpr fun j hj => (hall j hj).symm
      rw [stamps_of_forall_eq hall]
      simp only [zero_add]
      refine List.nodup_range.map_on fun k hk l hl e => hinj i ?_ ?_ e
      · rw [hcount]
        exact List.mem_range.mp hk
      · rw [hcount]
        exact List.mem_range.mp hl

end Stamps

end Base
