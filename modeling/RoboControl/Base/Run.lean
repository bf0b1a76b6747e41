import Mathlib.Tactic

/-!
# Runs

A system whose steps may fail is a function `step : σ → α → Option σ`, and a run of it is the fold
of the steps over a list of actions. `Along step C s l` says that every step of the run of `l` from
`s` meets the condition `C` in the state it is made in. What such a step keeps, the run keeps
(`Along.invariant`), and if such steps succeed, so does the run (`Along.exists_run`). `total step w
s l` is the sum of a weight of the steps of a run; a counter that each step raises by its weight,
modulo some number, has counted it (`total_modEq`). A measure that steps of a kind lower bounds
their number (`countP_add_le`).
-/

namespace Base
variable {σ α : Type*} {step : σ → α → Option σ} {C : σ → α → Prop}

/-- Every step of a run meets a condition in the state it is made in. -/
def Along (step : σ → α → Option σ) (C : σ → α → Prop) : σ → List α → Prop
  | _, [] => True
  | s, a :: l => C s a ∧ ∀ s' ∈ step s a, Along step C s' l

instance [∀ s, DecidablePred (C s)] : ∀ s, DecidablePred (Along step C s)
  | _, [] => inferInstanceAs (Decidable True)
  | s, a :: l =>
    have : DecidablePred (Along step C · l) := fun s' => instDecidablePredListAlong s' l
    inferInstanceAs (Decidable (C s a ∧ ∀ s' ∈ step s a, Along step C s' l))

/-- The first step of a run. -/
lemma foldlM_cons_eq_some {s s' : σ} {a : α} {l : List α}
    (h : (a :: l).foldlM step s = some s') : ∃ s₁, step s a = some s₁ ∧
      l.foldlM step s₁ = some s' := by
  rw [List.foldlM_cons] at h
  exact Option.bind_eq_some_iff.mp h

/-- The first step of a run. -/
lemma foldlM_cons_of_some {s s' : σ} {a : α} (h : step s a = some s') (l : List α) :
    (a :: l).foldlM step s = l.foldlM step s' := by
  rw [List.foldlM_cons, h]
  rfl

/-- What every step under the condition keeps holds after the run. -/
lemma Along.invariant {P : σ → Prop}
    (keep : ∀ {s a s'}, P s → C s a → step s a = some s' → P s') {s s' : σ} {l : List α}
    (along : Along step C s l) (init : P s) (hrun : l.foldlM step s = some s') : P s' := by
  induction l generalizing s with
  | nil =>
    cases hrun
    exact init
  | cons a l ih =>
    obtain ⟨s₁, hstep, hrest⟩ := foldlM_cons_eq_some hrun
    obtain ⟨hC, hl⟩ := along
    exact ih (hl s₁ hstep) (keep init hC hstep) hrest

/-- What every step under the condition keeps of a state and of the run that has led to it. -/
lemma Along.history {P : List α → σ → Prop} {s₀ : σ}
    (keep : ∀ {l s a s'}, l.foldlM step s₀ = some s → P l s → C s a → step s a = some s' →
      P (l ++ [a]) s') {s' : σ}
    {l : List α} (along : Along step C s₀ l) (init : P [] s₀) (hrun : l.foldlM step s₀ = some s') :
    P l s' := by
  suffices h : ∀ before s, before.foldlM step s₀ = some s → P before s → Along step C s l →
    l.foldlM step s = some s' →
      P (before ++ l) s' from h [] s₀ rfl init along hrun
  clear along hrun
  induction l with
  | nil =>
    intro before s _ hs _ hrun
    cases hrun
    rwa [List.append_nil]
  | cons a l ih =>
    intro before s hbefore hs along hrun
    obtain ⟨s₁, hstep, hrest⟩ := foldlM_cons_eq_some hrun
    have hbefore₁ : (before ++ [a]).foldlM step s₀ = some s₁ := by
      rw [List.foldlM_append, hbefore]
      exact foldlM_cons_of_some hstep []
    rw [List.append_cons]
    exact ih _ s₁ hbefore₁ (keep hbefore hs along.1 hstep) (along.2 s₁ hstep) hrest

/-- If every step under the condition succeeds and keeps a property, the run succeeds. -/
lemma Along.exists_run {P : σ → Prop}
    (keep : ∀ {s a}, P s → C s a → ∃ s', step s a = some s' ∧ P s') {s : σ} {l : List α}
    (along : Along step C s l) (init : P s) : ∃ s', l.foldlM step s = some s' ∧ P s' := by
  induction l generalizing s with
  | nil => exact ⟨s, rfl, init⟩
  | cons a l ih =>
    obtain ⟨hC, hl⟩ := along
    obtain ⟨s₁, hstep, hs₁⟩ := keep init hC
    obtain ⟨s', hrun, hs'⟩ := ih (hl s₁ hstep) hs₁
    refine ⟨s', ?_, hs'⟩
    rw [foldlM_cons_of_some hstep]
    exact hrun

/-- No condition. -/
lemma along_true (s : σ) (l : List α) : Along step (fun _ _ => True) s l := by
  induction l generalizing s with
  | nil => trivial
  | cons a l ih => exact ⟨trivial, fun s' _ => ih s'⟩

/-- What every step keeps holds after every run. -/
lemma run_invariant {P : σ → Prop} (keep : ∀ {s a s'}, P s → step s a = some s' → P s') {s s' : σ}
    {l : List α} (init : P s) (hrun : l.foldlM step s = some s') : P s' :=
  (along_true s l).invariant (fun hs _ h => keep hs h) init hrun

/-- A measure out of which every step of a kind pays, under an invariant, bounds the number
of such steps. -/
lemma countP_add_le {P : σ → Prop} (p : α → Bool) (measure : σ → ℕ)
    (pay : ∀ {s a s'}, P s → step s a = some s' → P s' ∧
      (if p a then 1 else 0) + measure s' ≤ measure s) {s s' : σ}
    {l : List α} (init : P s) (hrun : l.foldlM step s = some s') :
    l.countP p + measure s' ≤ measure s := by
  induction l generalizing s with
  | nil =>
    cases hrun
    exact (Nat.zero_add _).le
  | cons a l ih =>
    obtain ⟨s₁, hstep, hrest⟩ := foldlM_cons_eq_some hrun
    obtain ⟨hs₁, hpay⟩ := pay init hstep
    have := ih hs₁ hrest
    rw [List.countP_cons]
    omega

/-- The sum of the weights of the steps of a run. -/
def total (step : σ → α → Option σ) (w : σ → α → ℕ) : σ → List α → ℕ
  | _, [] => 0
  | s, a :: l => w s a + ((step s a).map fun s' => total step w s' l).getD 0

section Total
variable {w : σ → α → ℕ}

/-- The first step counts. -/
lemma total_cons {s s' : σ} {a : α} (h : step s a = some s') (l : List α) :
    total step w s (a :: l) = w s a + total step w s' l := by
  rw [total, h, Option.map_some, Option.getD_some]

/-- The total is zero exactly if every step has weight zero. -/
lemma total_eq_zero_iff {s : σ} {l : List α} :
    total step w s l = 0 ↔ Along step (fun s a => w s a = 0) s l := by
  induction l generalizing s with
  | nil => exact ⟨fun _ => trivial, fun _ => rfl⟩
  | cons a l ih =>
    rw [total, Along, Nat.add_eq_zero_iff]
    refine and_congr_right fun _ => ?_
    cases step s a with
    | none => simp
    | some s₁ => simp [ih]

/-- A counter that every step raises by its weight. -/
lemma total_modEq {n : ℕ} (counter : σ → ℕ)
    (count : ∀ {s a s'}, step s a = some s' → counter s' ≡ counter s + w s a [MOD n]) {s s' : σ}
    {l : List α} (hrun : l.foldlM step s = some s') :
    counter s' ≡ counter s + total step w s l [MOD n] := by
  induction l generalizing s with
  | nil =>
    cases hrun
    exact Nat.ModEq.refl _
  | cons a l ih =>
    obtain ⟨s₁, hstep, hrest⟩ := foldlM_cons_eq_some hrun
    rw [total_cons hstep, ← Nat.add_assoc]
    exact (ih hrest).trans ((count hstep).add_right _)

end Total

end Base
