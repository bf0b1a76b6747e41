import Mathlib.Data.List.Basic
import Mathlib.Tactic

/-!
# One entry per key

A table that makes an entry for a key unless it finds one (`enter`). Entries have numbers in the
order in which they are made, and what is known of an entry is the key it was made for. `M m k` says
that `k` finds an entry made for `m`; the newest such entry is taken. If an entry made for a key
that finds it is found by no other key, a run gives every key an entry of its own exactly if no key
that does not find its own entry comes back or has its entry found (`faithful_run_iff`).
-/

namespace Base.Intern
variable {K : Type*} (M : K → K → Prop)

/-- The key that entry `e` was made for; keys are listed by the age of their entries, the
newest first. -/
def owner (made : List K) (e : ℕ) : Option K := made.reverse[e]?

/-- The newest entry that a key finds. -/
def find [DecidableRel M] (k : K) : List K → Option ℕ
  | [] => none
  | m :: made => if M m k then some made.length else find k made

/-- The entry of a key, which is made if none is found, and the entries afterwards. -/
def enter [DecidableRel M] (made : List K) (k : K) : ℕ × List K :=
  match find M k made with
  | some e => (e, made)
  | none => (made.length, k :: made)

/-- A step of a run: the key and its entry are put behind those before. -/
def call [DecidableRel M] (s : List (K × ℕ) × List K) (k : K) : List (K × ℕ) × List K :=
  (s.1 ++ [(k, (enter M s.2 k).1)], (enter M s.2 k).2)

/-- A run: the keys with their entries, and the entries made. -/
def run [DecidableRel M] (ks : List K) : List (K × ℕ) × List K := ks.foldl (call M) ([], [])

/-- The same key has the same entry, and different keys have different entries. -/
def Faithful (past : List (K × ℕ)) : Prop := ∀ x ∈ past, ∀ y ∈ past, x.1 = y.1 ↔ x.2 = y.2

/-! ## Owners -/

variable {M} {past : List (K × ℕ)} {made : List K} {k m a : K} {e i : ℕ}

/-- The owner of the newest number. -/
lemma owner_cons : owner (k :: made) e = if e = made.length then some k else owner made e := by
  rw [owner, owner, List.reverse_cons]
  rcases lt_trichotomy e made.length with hlt | rfl | hgt
  · rw [List.getElem?_append_left (by rwa [List.length_reverse]), if_neg hlt.ne]
  · rw [if_pos rfl, ← List.length_reverse, List.getElem?_concat_length]
  · rw [if_neg hgt.ne', List.getElem?_eq_none (by simp; omega),
      List.getElem?_eq_none (by simp; omega)]

/-- Only numbers that were given out have owners. -/
lemma lt_of_owner (h : owner made e = some m) : e < made.length := by
  have hlt := (List.getElem?_eq_some_iff.mp h).1
  rwa [List.length_reverse] at hlt

/-- Owners stay. -/
lemma owner_cons_of_owner (h : owner made e = some m) : owner (k :: made) e = some m := by
  rw [owner_cons, if_neg (lt_of_owner h).ne, h]

/-- A number that was given out has an owner. -/
lemma exists_owner (h : e < made.length) : ∃ m, owner made e = some m :=
  ⟨_, List.getElem?_eq_getElem (by rwa [List.length_reverse])⟩

/-- What holds after every run. -/
structure Inv (M : K → K → Prop) (past : List (K × ℕ)) (made : List K) : Prop where
  /-- Entries that were used are there. -/
  used : ∀ x ∈ past, x.2 < made.length
  /-- An entry was used first with the key it was made for. -/
  owned : ∀ {e m}, owner made e = some m → (m, e) ∈ past
  /-- An entry is made if no entry is found. -/
  fresh : ∀ {i j a b}, i < j → owner made i = some a → owner made j = some b → ¬ M a b

/-- Keys with entries of their own are the keys that the entries were made for. -/
lemma Inv.owner_eq (inv : Inv M past made) (faithful : Faithful past) {x : K × ℕ} (hx : x ∈ past) :
    owner made x.2 = some x.1 := by
  obtain ⟨m, hm⟩ := exists_owner (inv.used x hx)
  have heq : m = x.1 := (faithful (m, x.2) (inv.owned hm) x hx).mpr rfl
  rw [hm, heq]

/-- No key has two entries then. -/
lemma Inv.nodup (inv : Inv M past made) (faithful : Faithful past) : made.Nodup := by
  rw [← List.nodup_reverse, List.nodup_iff_getElem?_ne_getElem?]
  intro i j hij hj he
  rw [List.length_reverse] at hj
  obtain ⟨m, hm⟩ := exists_owner hj
  have hi : owner made i = some m := he.trans hm
  exact hij.ne ((faithful (m, i) (inv.owned hi) (m, j) (inv.owned hm)).mp rfl)

/-- One more call. -/
lemma faithful_concat {p : K × ℕ} :
    Faithful (past ++ [p]) ↔ Faithful past ∧ ∀ x ∈ past, x.1 = p.1 ↔ x.2 = p.2 := by
  constructor
  · intro h
    refine ⟨?_, ?_⟩
    · intro x hx y hy
      exact h x (List.mem_append_left _ hx) y (List.mem_append_left _ hy)
    · intro x hx
      exact h x (List.mem_append_left _ hx) p (List.mem_append_right _ List.mem_cons_self)
  · rintro ⟨h, hp⟩ x hx y hy
    rcases List.mem_append.mp hx with hx | hx <;> rcases List.mem_append.mp hy with hy | hy
    · exact h x hx y hy
    · rw [List.mem_singleton.mp hy]
      exact hp x hx
    · rw [List.mem_singleton.mp hx, eq_comm, hp y hy]
      exact eq_comm
    · rw [List.mem_singleton.mp hx, List.mem_singleton.mp hy]
      exact iff_of_true rfl rfl

section
variable [DecidableRel M]

/-- What is found matches and is the newest that does. -/
lemma find_eq_some (h : find M k made = some e) :
    ∃ m, owner made e = some m ∧ M m k ∧ ∀ {i a}, owner made i = some a → M a k → i ≤ e := by
  induction made with
  | nil => cases h
  | cons c made ih =>
    rw [find] at h
    split at h
    · next hc =>
      cases h
      refine ⟨c, by rw [owner_cons, if_pos rfl], hc, fun hi _ => ?_⟩
      exact Nat.le_of_lt_succ (lt_of_owner hi)
    · next hc =>
      obtain ⟨m, hm, hmk, hnew⟩ := ih h
      refine ⟨m, owner_cons_of_owner hm, hmk, fun {i a} hi ha => ?_⟩
      rw [owner_cons] at hi
      split at hi
      · cases hi
        exact absurd ha hc
      · exact hnew hi ha

/-- Nothing is found. -/
lemma find_eq_none (h : find M k made = none) (hi : owner made i = some a) : ¬ M a k := by
  induction made with
  | nil => cases hi
  | cons c made ih =>
    rw [find] at h
    split at h
    · cases h
    · next hc =>
      rw [owner_cons] at hi
      split at hi
      · cases hi
        exact hc
      · exact ih h hi

/-! ## Runs -/

/-- One call. -/
lemma Inv.call (inv : Inv M past made) (k : K) :
    Inv M (call M (past, made) k).1 (call M (past, made) k).2 := by
  rw [Intern.call, enter]
  cases hfind : find M k made with
  | some e =>
    obtain ⟨m, hm, -, -⟩ := find_eq_some hfind
    refine ⟨?_, ?_, inv.fresh⟩
    · intro x hx
      rcases List.mem_append.mp hx with hx | hx
      · exact inv.used x hx
      · rw [List.mem_singleton.mp hx]
        exact lt_of_owner hm
    · intro i a hi
      exact List.mem_append_left _ (inv.owned hi)
  | none =>
    refine ⟨?_, ?_, ?_⟩
    · intro x hx
      rw [List.length_cons]
      rcases List.mem_append.mp hx with hx | hx
      · exact Nat.lt_succ_of_lt (inv.used x hx)
      · rw [List.mem_singleton.mp hx]
        exact Nat.lt_succ_self _
    · intro i a hi
      rw [owner_cons] at hi
      split at hi
      · next he =>
        cases hi
        rw [he]
        exact List.mem_append_right _ List.mem_cons_self
      · exact List.mem_append_left _ (inv.owned hi)
    · intro i j a b hij hi hj
      have hjlt := lt_of_owner hj
      rw [List.length_cons] at hjlt
      rw [owner_cons, if_neg (by omega)] at hi
      rw [owner_cons] at hj
      split at hj
      · cases hj
        exact find_eq_none hfind hi
      · exact inv.fresh hij hi hj

/-- The last call. -/
lemma run_concat (ks : List K) (k : K) : run M (ks ++ [k]) = call M (run M ks) k := by
  rw [run, List.foldl_append]
  rfl

/-- A run. -/
lemma inv_run (ks : List K) : Inv M (run M ks).1 (run M ks).2 := by
  induction ks using List.reverseRecOn with
  | nil =>
    refine ⟨?_, ?_, ?_⟩
    · intro x hx
      cases hx
    · intro e m h
      cases h
    · intro i j a b _ h
      cases h
  | append_singleton ks k ih =>
    rw [run_concat]
    exact ih.call k

/-- The keys of a run. -/
lemma map_fst_run (ks : List K) : (run M ks).1.map Prod.fst = ks := by
  induction ks using List.reverseRecOn with
  | nil => rfl
  | append_singleton ks k ih =>
    rw [run_concat, call, List.map_append, ih]
    rfl

/-- Whether the next key gets an entry of its own. -/
lemma Inv.own_iff (inv : Inv M past made) (sharp : ∀ a b, M a a → M a b → a = b)
    (faithful : Faithful past) (k : K) :
    (∀ x ∈ past, x.1 = k ↔ x.2 = (enter M made k).1) ↔ ∀ x ∈ past, ¬ M x.1 x.1 → k ≠ x.1 ∧
      ¬ M x.1 k := by
  rw [enter]
  cases hfind : find M k made with
  | some e =>
    obtain ⟨m, hm, hmk, hnew⟩ := find_eq_some hfind
    constructor
    · intro own x hx hself
      have hmk' : m = k := (own (m, e) (inv.owned hm)).mpr rfl
      subst hmk'
      have hne : m ≠ x.1 := by
        rintro rfl
        exact hself hmk
      refine ⟨hne, fun hxm => ?_⟩
      -- the entry of `x` is older than the one that was found, which then would not have been made
      have howner := inv.owner_eq faithful hx
      have hlt : x.2 < e := by
        refine lt_of_le_of_ne (hnew howner hxm) fun he => ?_
        rw [he, hm] at howner
        exact hne (Option.some.inj howner)
      exact inv.fresh hlt howner hm hxm
    · intro cond x hx
      have hmm : M m m := by
        by_contra hself
        exact (cond (m, e) (inv.owned hm) hself).2 hmk
      have hmk' : m = k := sharp m k hmm hmk
      subst hmk'
      exact faithful x hx (m, e) (inv.owned hm)
  | none =>
    constructor
    · intro own x hx hself
      have howner := inv.owner_eq faithful hx
      refine ⟨fun he => ?_, find_eq_none hfind howner⟩
      exact (inv.used x hx).ne ((own x hx).mp he.symm)
    · intro cond x hx
      have howner := inv.owner_eq faithful hx
      have hself : x.1 = k → False := by
        rintro rfl
        exact (cond x hx (find_eq_none hfind howner)).1 rfl
      exact iff_of_false hself (inv.used x hx).ne

/-- A run gives every key an entry of its own exactly if a key that does not find its own entry does
not come back, and no later key finds that entry. -/
lemma faithful_run_iff (sharp : ∀ a b, M a a → M a b → a = b) (ks : List K) :
    Faithful (run M ks).1 ↔ ks.Pairwise fun a b => ¬ M a a → b ≠ a ∧ ¬ M a b := by
  induction ks using List.reverseRecOn with
  | nil =>
    refine iff_of_true ?_ List.Pairwise.nil
    intro x hx
    cases hx
  | append_singleton ks k ih =>
    have hkeys : (∀ x ∈ (run M ks).1, ¬ M x.1 x.1 → k ≠ x.1 ∧ ¬ M x.1 k) ↔ ∀ a ∈ ks, ¬ M a a →
      k ≠ a ∧ ¬ M a k := by
      have hmap := List.forall_mem_map (f := Prod.fst) (l := (run M ks).1) (P := fun a => ¬ M a a →
        k ≠ a ∧ ¬ M a k)
      rw [map_fst_run] at hmap
      exact hmap.symm
    rw [run_concat, call, faithful_concat, List.pairwise_append, ← ih]
    constructor
    · rintro ⟨hf, hown⟩
      refine ⟨hf, List.pairwise_singleton _ k, fun a ha b hb => ?_⟩
      rw [List.mem_singleton.mp hb]
      exact hkeys.mp (((inv_run ks).own_iff sharp hf k).mp hown) a ha
    · rintro ⟨hf, -, hcond⟩
      refine ⟨hf, ((inv_run ks).own_iff sharp hf k).mpr (hkeys.mpr fun a ha => ?_)⟩
      exact hcond a ha k List.mem_cons_self

end
end Base.Intern
