import Mathlib.Data.List.Nodup
import Mathlib.Data.List.Perm.Subperm
import Mathlib.Logic.Function.Basic
import Mathlib.Tactic

/-!
# Chains of pointers

Singly linked lists in a heap that is a partial function. `next p` is the link of node `p`: `none`
where `p` is no node of a list, `some none` at the end of one. `Chain next h l` says that the list
which starts at `h` has the nodes `l`. A chain determines its nodes (`Chain.unique`) and has none
twice (`Chain.nodup`), and it only depends on the links of its own nodes (`Chain.congr`).

`Chains next head l` is a family of chains without common nodes. A node in none of them can be put
before one (`Chains.push`), the first node of one can be taken out (`Chains.pop`), a node can be
taken out behind another (`Chains.unlink`), and a whole chain can change its place
(`Chains.transfer`).
-/

namespace Base
open Function
variable {P : Type*} {next next' : P → Option (Option P)}

/-- The list from a pointer on has these nodes and ends. -/
inductive Chain (next : P → Option (Option P)) : Option P → List P → Prop where
  | nil : Chain next none []
  | cons {p : P} {q : Option P} {l : List P} :
    next p = some q →
    Chain next q l →
    Chain next (some p) (p :: l)

/-- The nodes of a chain are determined by its first pointer. -/
lemma Chain.unique {h : Option P} {l l' : List P} (c : Chain next h l) (c' : Chain next h l') :
    l = l' := by
  induction c generalizing l' with
  | nil => cases c'; rfl
  | cons e _ ih =>
    cases c' with
    | cons e' c' =>
      cases e.symm.trans e'
      rw [ih c']

/-- A chain continues from each of its nodes. -/
lemma Chain.suffix {h : Option P} {l : List P} {p : P} (c : Chain next h l) (hp : p ∈ l) :
    ∃ pre post, l = pre ++ p :: post ∧ Chain next (some p) (p :: post) := by
  induction c with
  | nil => cases hp
  | @cons q r l e c ih =>
    obtain rfl | hp := List.mem_cons.mp hp
    · exact ⟨[], l, rfl, .cons e c⟩
    · obtain ⟨pre, post, rfl, c'⟩ := ih hp
      exact ⟨q :: pre, post, rfl, c'⟩

/-- No node is twice in a chain. -/
lemma Chain.nodup {h : Option P} {l : List P} (c : Chain next h l) : l.Nodup := by
  induction c with
  | nil => exact List.nodup_nil
  | @cons p q l e c ih =>
    refine List.nodup_cons.mpr ⟨fun hp => ?_, ih⟩
    -- The chain from the second occurrence would be the whole chain, and shorter.
    obtain ⟨pre, post, rfl, c'⟩ := c.suffix hp
    have hl := congrArg List.length ((Chain.cons e c).unique c')
    simp at hl
    omega

/-- A chain without one of its nodes. -/
lemma Chain.erase_eq [DecidableEq P] {h : Option P} {pre post : List P} {p : P}
    (c : Chain next h (pre ++ p :: post)) : (pre ++ p :: post).erase p = pre ++ post := by
  have hp : p ∉ pre := fun hp => (List.nodup_append.mp c.nodup).2.2 p hp p List.mem_cons_self rfl
  rw [List.erase_append_right _ hp, List.erase_cons_head]

/-- A chain does not depend on the links of other nodes. -/
lemma Chain.congr {h : Option P} {l : List P} (c : Chain next h l)
    (e : ∀ p ∈ l, next' p = next p) : Chain next' h l := by
  induction c with
  | nil => exact .nil
  | cons hp _ ih =>
    obtain ⟨ep, el⟩ := List.forall_mem_cons.mp e
    exact .cons (ep.trans hp) (ih el)

/-- Every element has a link. -/
lemma Chain.next_isSome {h : Option P} {l : List P} {p : P} (c : Chain next h l) (hp : p ∈ l) :
    ∃ q, next p = some q := by
  obtain ⟨_, _, _, c'⟩ := c.suffix hp
  cases c' with
  | cons e _ => exact ⟨_, e⟩

/-- The pointer to a chain points to its first node. -/
lemma Chain.head_eq {h : Option P} {l : List P} (c : Chain next h l) : h = l.head? := by
  cases c <;> rfl

/-- The pointer to a chain points to no later node. -/
lemma Chain.ne_of_mem_tail {h : Option P} {l : List P} {p : P} (c : Chain next h l)
    (hp : p ∈ l.tail) : h ≠ some p := by
  have hnd := c.nodup
  cases c with
  | nil => cases hp
  | cons _ _ =>
    rintro ⟨rfl⟩
    exact (List.nodup_cons.mp hnd).1 hp

/-- The link of a node points to the node after it. -/
lemma Chain.next_eq {h : Option P} {pre post : List P} {p : P}
    (c : Chain next h (pre ++ p :: post)) : next p = some post.head? := by
  induction pre generalizing h with
  | nil =>
    cases c with
    | cons e c => rw [e, c.head_eq]
  | cons a pre ih =>
    cases c with
    | cons _ c => exact ih c

/-- No node of a chain links to itself. -/
lemma Chain.next_ne_self {h : Option P} {l : List P} {p : P} (c : Chain next h l) (hp : p ∈ l) :
    next p ≠ some (some p) := fun e => by
  obtain ⟨pre, post, rfl⟩ := List.append_of_mem hp
  have hnd := (List.nodup_append.mp c.nodup).2.1
  rw [c.next_eq, Option.some.injEq] at e
  exact (List.nodup_cons.mp hnd).1 (List.mem_of_mem_head? e)

/-- The node behind `o` leaves a chain. -/
lemma Chain.unlink [DecidableEq P] {h : Option P} {pre post : List P} {o p : P}
    (c : Chain next h (pre ++ o :: p :: post)) :
    Chain (update next o (next p)) h (pre ++ o :: post) := by
  have hnd := c.nodup
  induction pre generalizing h with
  | nil =>
    have ho : o ∉ p :: post := (List.nodup_cons.mp hnd).1
    cases c with
    | cons _ c =>
      cases c with
      | cons ep c =>
        refine .cons ((update_self _ _ _).trans ep) (c.congr fun r hr => ?_)
        exact update_of_ne (ne_of_mem_of_not_mem (List.mem_cons_of_mem p hr) ho) _ _
  | cons a pre ih =>
    obtain ⟨ha, hnd⟩ := List.nodup_cons.mp hnd
    have hao : a ≠ o := by
      rintro rfl
      exact ha (List.mem_append_right pre List.mem_cons_self)
    cases c with
    | cons e c => exact .cons ((update_of_ne hao _ _).trans e) (ih c hnd)

/-- A chain of addresses below `n` has at most `n` nodes. -/
lemma Chain.length_le {next : ℕ → Option (Option ℕ)} {h : Option ℕ} {l : List ℕ} {n : ℕ}
    (c : Chain next h l) (hn : ∀ p ∈ l, p < n) : l.length ≤ n := by
  have hsub : l ⊆ List.range n := fun p hp => List.mem_range.mpr (hn p hp)
  have hle := (c.nodup.subperm hsub).length_le
  rwa [List.length_range] at hle

/-- The first node of a chain leads to the rest of it. -/
lemma Chain.of_cons {h : Option P} {p : P} {l : List P} (c : Chain next h (p :: l)) :
    h = some p ∧ ∃ q, next p = some q ∧ Chain next q l := by
  cases c with
  | cons e c => exact ⟨rfl, _, e, c⟩

/-- Nodes that link to the next address up to the last one below `n`. -/
lemma chain_range {next : ℕ → Option (Option ℕ)} {n : ℕ}
    (h : ∀ i < n, next i = some (if i + 1 < n then some (i + 1) else none)) (i : ℕ) :
    Chain next (if i < n then some i else none) (List.range' i (n - i)) := by
  induction hk : n - i generalizing i with
  | zero =>
    rw [if_neg (by omega)]
    exact .nil
  | succ k ih =>
    rw [if_pos (by omega), List.range'_succ]
    exact .cons (h i (by omega)) (ih (i + 1) (by omega))

/-! ## Families of chains -/

section Chains
variable {ι : Type*} {head : ι → Option P} {l : ι → List P}

/-- Chains without common nodes. -/
structure Chains (next : P → Option (Option P)) (head : ι → Option P) (l : ι → List P) : Prop where
  chain : ∀ i, Chain next (head i) (l i)
  disjoint : ∀ i j, i ≠ j → List.Disjoint (l i) (l j)

/-- The links of the elements decide. -/
lemma Chains.congr (c : Chains next head l) (e : ∀ i, ∀ p ∈ l i, next' p = next p) :
    Chains next' head l :=
  ⟨fun i => (c.chain i).congr (e i), c.disjoint⟩

variable [DecidableEq ι]

/-- The lists with `p` before the list at `i`. -/
def push (l : ι → List P) (i : ι) (p : P) : ι → List P := update l i (p :: l i)

/-- What is on the lists. -/
@[simp] lemma mem_push {i j : ι} {p q : P} : q ∈ push l i p j ↔ (q = p ∧ j = i) ∨ q ∈ l j := by
  by_cases hj : j = i
  · subst hj
    simp [push]
  · simp [push, hj]

/-- Lists stay disjoint. -/
lemma disjoint_update {i : ι} {r : List P} (hl : ∀ i j, i ≠ j → List.Disjoint (l i) (l j))
    (hr : ∀ j, j ≠ i → List.Disjoint r (l j)) (j k : ι) (hjk : j ≠ k) :
    List.Disjoint (update l i r j) (update l i r k) := by
  by_cases hj : j = i
  · subst hj
    rw [update_self, update_of_ne hjk.symm]
    exact hr k hjk.symm
  · by_cases hk : k = i
    · subst hk
      rw [update_self, update_of_ne hj]
      exact (hr j hj).symm
    · rw [update_of_ne hj, update_of_ne hk]
      exact hl j k hjk

/-- A node of no chain becomes the first of one. -/
lemma Chains.push [DecidableEq P] (c : Chains next head l) {p : P} (hp : ∀ i, p ∉ l i) (i : ι) :
    Chains (update next p (some (head i))) (update head i (some p))
      (Base.push l i p) := by
  -- The new link of `p` is not seen by the chains, which do not contain it.
  have c' : Chains (update next p (some (head i))) head l :=
    c.congr fun j q hq => update_of_ne (ne_of_mem_of_not_mem hq (hp j)) _ _
  refine ⟨fun j => ?_, disjoint_update c.disjoint fun j hj => ?_⟩
  · by_cases hj : j = i
    · subst hj
      rw [Base.push, update_self, update_self]
      exact .cons (update_self _ _ _) (c'.chain j)
    · rw [Base.push, update_of_ne hj, update_of_ne hj]
      exact c'.chain j
  · exact List.disjoint_cons_left.mpr ⟨hp j, c.disjoint i j hj.symm⟩

/-- The first node of a chain leaves it. -/
lemma Chains.pop (c : Chains next head l) {i : ι} {p : P} (hi : head i = some p) :
    ∃ q r, l i = p :: r ∧ next p = some q ∧
      Chains next (update head i q) (update l i r) ∧
      ∀ j, p ∉ update l i r j := by
  have ci := c.chain i
  rw [hi] at ci
  cases hl : l i with
  | nil => rw [hl] at ci; cases ci
  | cons p' r =>
    have hnd := hl ▸ ci.nodup
    rw [hl] at ci
    cases ci with
    | @cons _ q _ hn cr =>
      have hd : ∀ j, j ≠ i → List.Disjoint (p :: r) (l j) := fun j hj => hl ▸ c.disjoint i j hj.symm
      refine ⟨q, r, rfl, hn, ⟨fun j => ?_, disjoint_update c.disjoint fun j hj => ?_⟩, fun j => ?_⟩
      · by_cases hj : j = i
        · subst hj
          rwa [update_self, update_self]
        · rw [update_of_ne hj, update_of_ne hj]
          exact c.chain j
      · exact (List.disjoint_cons_left.mp (hd j hj)).2
      · by_cases hj : j = i
        · subst hj
          rw [update_self]
          exact (List.nodup_cons.mp hnd).1
        · rw [update_of_ne hj]
          exact (List.disjoint_cons_left.mp (hd j hj)).1

/-- The lists without `p` in the list at `i`. -/
def unlink [DecidableEq P] (l : ι → List P) (i : ι) (p : P) : ι → List P :=
  update l i ((l i).erase p)

/-- The first element is taken out. -/
lemma unlink_eq_update [DecidableEq P] {i : ι} {p : P} {r : List P} (hl : l i = p :: r) :
    unlink l i p = update l i r := by
  rw [unlink, hl, List.erase_cons_head]

/-- What is left on the lists. -/
lemma Chains.mem_unlink [DecidableEq P] (c : Chains next head l) {i j : ι} {p q : P} :
    q ∈ Base.unlink l i p j ↔ q ∈ l j ∧ (q = p → j ≠ i) := by
  by_cases hj : j = i
  · subst hj
    rw [Base.unlink, update_self, (c.chain j).nodup.mem_erase_iff]
    simp [and_comm]
  · simp [Base.unlink, hj]

/-- Only the node itself has left. -/
lemma Chains.mem_unlink_of_mem [DecidableEq P] (c : Chains next head l) {i j : ι} {p q : P}
    (hp : p ∈ l i) : q ∈ Base.unlink l i p j ↔ q ∈ l j ∧ q ≠ p := by
  rw [c.mem_unlink]
  refine and_congr_right fun hq => ⟨?_, fun hqp e => absurd e hqp⟩
  rintro h rfl
  exact c.disjoint j i (h rfl) hq hp

/-- Every list has lost the node. -/
lemma Chains.unlink_eq_erase [DecidableEq P] (c : Chains next head l) {i : ι} {p : P} (hp : p ∈ l i)
    (j : ι) : Base.unlink l i p j = (l j).erase p := by
  by_cases hj : j = i
  · subst hj
    rw [Base.unlink, update_self]
  · rw [Base.unlink, update_of_ne hj]
    exact (List.erase_of_not_mem fun h => c.disjoint j i hj h hp).symm

/-- Lists stay disjoint. -/
lemma Chains.disjoint_unlink [DecidableEq P] (c : Chains next head l) (i : ι) (p : P) (j k : ι)
    (hjk : j ≠ k) : List.Disjoint (Base.unlink l i p j) (Base.unlink l i p k) :=
  disjoint_update c.disjoint
    (fun j hj => List.disjoint_of_subset_left List.erase_subset (c.disjoint i j hj.symm)) j k hjk

/-- The first node of a chain leaves it. -/
lemma Chains.unlink_head [DecidableEq P] (c : Chains next head l) {i : ι} {p : P} {q : Option P}
    (hi : head i = some p) (hq : next p = some q) :
    Chains next (update head i q) (Base.unlink l i p) := by
  obtain ⟨q', r, hl, hq', c', -⟩ := c.pop hi
  cases hq.symm.trans hq'
  rw [unlink_eq_update hl]
  exact c'

/-- The node behind `o` leaves its chain. -/
lemma Chains.unlink [DecidableEq P] (c : Chains next head l) {i : ι} {pre post : List P} {o p : P}
    (hl : l i = pre ++ o :: p :: post) :
    Chains (update next o (next p)) head (Base.unlink l i p) := by
  have ci := c.chain i
  rw [hl] at ci
  have herase : (l i).erase p = pre ++ o :: post := by
    rw [hl, List.append_cons]
    rw [List.append_cons] at ci
    rw [ci.erase_eq, ← List.append_cons]
  refine ⟨fun j => ?_, c.disjoint_unlink i p⟩
  by_cases hj : j = i
  · subst hj
    rw [Base.unlink, update_self, herase]
    exact ci.unlink
  · rw [Base.unlink, update_of_ne hj]
    refine (c.chain j).congr fun r hr => update_of_ne ?_ _ _
    rintro rfl
    refine c.disjoint j i hj hr ?_
    rw [hl]
    exact List.mem_append_right pre List.mem_cons_self

/-- A chain takes the place of another. -/
lemma Chains.transfer (c : Chains next head l) (i j : ι) :
    Chains next (update (update head i none) j (head i))
      (update (update l i []) j (l i)) := by
  have hdis : ∀ k k', k ≠ k' →
      List.Disjoint (update l i [] k) (update l i [] k') :=
    disjoint_update c.disjoint fun _ _ => List.disjoint_nil_left _
  refine ⟨fun k => ?_, disjoint_update hdis fun k hk => ?_⟩
  · by_cases hkj : k = j
    · subst hkj
      rw [update_self, update_self]
      exact c.chain i
    · rw [update_of_ne hkj, update_of_ne hkj]
      by_cases hki : k = i
      · subst hki
        rw [update_self, update_self]
        exact .nil
      · rw [update_of_ne hki, update_of_ne hki]
        exact c.chain k
  · by_cases hki : k = i
    · subst hki
      rw [update_self]
      exact List.disjoint_nil_right _
    · rw [update_of_ne hki]
      exact c.disjoint i k (Ne.symm hki)

end Chains

end Base
