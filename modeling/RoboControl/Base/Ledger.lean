import RoboControl.Base.Window

/-!
# Counters with a bound

A counter that stays below a bound: an event is taken if its weight still fits, and refused
otherwise. The `Ledger` has the events of both kinds, the counter is the weight of those that were
taken, and no event is lost (`weightOf_ledger`).
-/

namespace Base
variable {α : Type*} (weight : α → ℕ) (bound : ℕ)

/-- The events that a counter has taken, and those it has refused. -/
structure Ledger (α : Type*) where
  taken : List α
  refused : List α
  deriving DecidableEq

/-- The value of the counter. -/
def Ledger.count (l : Ledger α) : ℕ := weightOf weight (fun _ => true) l.taken

/-- Take an event if it fits. -/
def Ledger.add (l : Ledger α) (e : α) : Ledger α :=
  if l.count weight + weight e < bound then { l with taken := l.taken ++ [e] }
  else { l with refused := l.refused ++ [e] }

/-- The ledger of a log of events. -/
def ledger (log : List α) : Ledger α := log.foldl (Ledger.add weight bound) ⟨[], []⟩

variable {weight bound} {log : List α} {p : α → Bool} {e : α}

/-- The last entry. -/
lemma ledger_concat (log : List α) (e : α) :
    ledger weight bound (log ++ [e]) = (ledger weight bound log).add weight bound e :=
  List.foldl_concat ..

/-- One more entry. -/
lemma Ledger.count_add (l : Ledger α) (e : α) :
    (l.add weight bound e).count weight =
      if l.count weight + weight e < bound then l.count weight + weight e else l.count weight := by
  rw [add]
  split
  · exact (weightOf_concat _ _ e).trans (congrArg _ (if_pos rfl))
  · rfl

/-- Every event is in one of the lists. -/
lemma weightOf_ledger (bound : ℕ) (p : α → Bool) (log : List α) :
    weightOf weight p log =
      weightOf weight p (ledger weight bound log).taken + weightOf weight p
        (ledger weight bound log).refused := by
  induction log using List.reverseRecOn with
  | nil => rfl
  | append_singleton log e ih =>
    rw [weightOf_concat, ih, ledger_concat, Ledger.add]
    by_cases hfits : (ledger weight bound log).count weight + weight e < bound
    · rw [if_pos hfits, weightOf_concat, Nat.add_right_comm]
    · rw [if_neg hfits, weightOf_concat, Nat.add_assoc]

/-- The weight of the events with a property and of those without it. -/
lemma weightOf_add_not (p : α → Bool) (log : List α) :
    weightOf weight p log + weightOf weight (fun a => !p a) log = weightOf weight (fun _ => true)
      log := by
  induction log with
  | nil => rfl
  | cons a log ih =>
    rw [weightOf_cons, weightOf_cons, weightOf_cons, ← ih]
    cases p a <;> simp <;> omega

/-- Nothing weighs anything. -/
lemma weightOf_eq_zero_iff : weightOf weight p log = 0 ↔ ∀ a ∈ log, p a = true → weight a = 0 := by
  rw [weightOf, List.sum_eq_zero_iff, List.forall_mem_map]
  simp only [List.mem_filter, and_imp]

/-- The counter agrees with the weight of some of the events exactly if the others that were taken
weigh as much as those of them that were refused. -/
lemma count_ledger_eq_iff (p : α → Bool) (log : List α) :
    (ledger weight bound log).count weight = weightOf weight p log ↔
      weightOf weight (fun a => !p a) (ledger weight bound log).taken =
        weightOf weight p (ledger weight bound log).refused := by
  rw [weightOf_ledger bound p log, Ledger.count, ← weightOf_add_not p]
  omega

/-- A log that fits as a whole is taken as a whole. -/
lemma ledger_of_fits (h : weightOf weight (fun _ => true) log < bound) :
    ledger weight bound log = ⟨log, []⟩ := by
  induction log using List.reverseRecOn with
  | nil => rfl
  | append_singleton log e ih =>
    rw [weightOf_concat, if_pos rfl] at h
    rw [ledger_concat, ih (by omega), Ledger.add]
    exact if_pos h

/-- A log that fits as a whole: the counter agrees with the weight of some of the events exactly if
the others weigh nothing. -/
lemma count_ledger_eq_iff_of_fits (h : weightOf weight (fun _ => true) log < bound) (p : α → Bool) :
    (ledger weight bound log).count weight = weightOf weight p log ↔
      ∀ a ∈ log, p a = false → weight a = 0 := by
  rw [count_ledger_eq_iff, ledger_of_fits h]
  refine weightOf_eq_zero_iff.trans (forall₂_congr fun a _ => ?_)
  rw [Bool.not_eq_true']

end Base
