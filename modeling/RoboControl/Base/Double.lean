import RoboControl.Base.Chain

/-!
# Back links

The second direction of doubly linked lists. `Back prev b l` says that the back link of the first
node of `l` is `b` and that of every other node is the node before it. Back links tell the first
node of a list from the others (`Back.split`), and they are kept up by the two writes that a list
needs when a node is put before it (`Back.push`) or taken out (`Back.unlink`).

`Deque next prev head tail l` is a list with links in both directions and a pointer to each end. A
node can be put before it (`Deque.push`) and any node can be taken out (`Deque.bypass`).
-/

namespace Base
variable {P : Type*} {prev prev' : P → Option P} {b b' : Option P} {l : List P} {p : P}

/-- The back links of a list that starts behind `b`. -/
inductive Back (prev : P → Option P) : Option P → List P → Prop where
  | nil {b : Option P} : Back prev b []
  | cons {b : Option P} {p : P} {l : List P} :
    prev p = b →
    Back prev (some p) l →
    Back prev b (p :: l)

/-- Back links do not depend on other nodes. -/
lemma Back.congr (h : Back prev b l) (e : ∀ q ∈ l, prev' q = prev q) : Back prev' b l := by
  induction h with
  | nil => exact .nil
  | cons hp _ ih =>
    obtain ⟨ep, el⟩ := List.forall_mem_cons.mp e
    exact .cons (ep.trans hp) (ih el)

/-- A list gets another start. -/
lemma Back.rebase (h : Back prev b l) (hh : ∀ q ∈ l.head?, prev' q = b')
    (ht : ∀ q ∈ l.tail, prev' q = prev q) : Back prev' b' l := by
  cases h with
  | nil => exact .nil
  | cons _ hl => exact .cons (hh _ rfl) (hl.congr ht)

/-- A node is put before a list. -/
lemma Back.push (h : Back prev none l) (hp : prev' p = none) (hh : ∀ q ∈ l.head?, prev' q = some p)
    (ht : ∀ q ∈ l.tail, prev' q = prev q) : Back prev' none (p :: l) :=
  .cons hp (h.rebase hh ht)

/-- A node is the first of its list, or its back link names the node before it. -/
lemma Back.split (h : Back prev b l) (hp : p ∈ l) :
    (∃ post, l = p :: post ∧ prev p = b) ∨
      ∃ pre o post, l = pre ++ o :: p :: post ∧ prev p = some o := by
  induction h with
  | nil => cases hp
  | @cons b a l ha hl ih =>
    obtain rfl | hp := List.mem_cons.mp hp
    · exact .inl ⟨l, rfl, ha⟩
    · obtain ⟨post, rfl, e⟩ | ⟨pre, o, post, rfl, e⟩ := ih hp
      · exact .inr ⟨[], a, post, rfl, e⟩
      · exact .inr ⟨a :: pre, o, post, rfl, e⟩

/-- A node is taken out, and the node behind it gets its back link. -/
lemma Back.unlink {pre post : List P} (h : Back prev b (pre ++ p :: post))
    (hpre : ∀ q ∈ pre, prev' q = prev q) (hh : ∀ q ∈ post.head?, prev' q = prev p)
    (ht : ∀ q ∈ post.tail, prev' q = prev q) : Back prev' b (pre ++ post) := by
  induction pre generalizing b with
  | nil =>
    cases h with
    | cons hp hl => exact hl.rebase (fun q hq => (hh q hq).trans hp) ht
  | cons a pre ih =>
    obtain ⟨ha, hpre⟩ := List.forall_mem_cons.mp hpre
    cases h with
    | cons hp hl => exact .cons (ha.trans hp) (ih hl hpre)

/-- The back link of a node names the node before it. -/
lemma Back.prev_eq {pre post : List P} (h : Back prev none (pre ++ p :: post)) :
    prev p = pre.getLast? := by
  suffices hb : ∀ b, Back prev b (pre ++ p :: post) → prev p = pre.getLast?.or b by
    rw [hb none h, Option.or_none]
  clear h
  intro b hb
  induction pre generalizing b with
  | nil =>
    cases hb with
    | cons hp _ => exact hp
  | cons a pre ih =>
    cases hb with
    | cons _ hl =>
      rw [ih (some a) hl, List.getLast?_cons]
      cases pre.getLast? <;> rfl

/-! ## Lists with two ends -/

section Deque
variable {next next' : P → Option (Option P)} {head head' tail tail' : Option P}

/-- A list with links in both directions and pointers to its ends. -/
structure Deque (next : P → Option (Option P)) (prev : P → Option P) (head tail : Option P)
    (l : List P) : Prop where
  chain : Chain next head l
  back : Back prev none l
  tail_eq : tail = l.getLast?

/-- The links of the elements decide. -/
lemma Deque.congr (d : Deque next prev head tail l) (hn : ∀ q ∈ l, next' q = next q)
    (hp : ∀ q ∈ l, prev' q = prev q) : Deque next' prev' head tail l :=
  ⟨d.chain.congr hn, d.back.congr hp, d.tail_eq⟩

/-- A node is put before a list. -/
lemma Deque.push (d : Deque next prev head tail l) (hnp : next' p = some head)
    (hn : ∀ q ∈ l, next' q = next q) (hpp : prev' p = none) (hh : ∀ q ∈ l.head?, prev' q = some p)
    (ht : ∀ q ∈ l.tail, prev' q = prev q) :
    Deque next' prev' (some p) (some (tail.getD p)) (p :: l) := by
  refine ⟨.cons hnp (d.chain.congr hn), d.back.push hpp hh ht, ?_⟩
  rw [d.tail_eq, List.getLast?_cons]

/-- A node is taken out: the node before it gets its link and the node behind it its back link. -/
lemma Deque.bypass [DecidableEq P] {pre post : List P}
    (d : Deque next prev head tail (pre ++ p :: post))
    (hn : ∀ q ∈ pre ++ post, next' q = if pre.getLast? = some q then next p else next q)
    (hp : ∀ q ∈ pre ++ post, prev' q = if post.head? = some q then prev p else prev q)
    (hh : head' = (pre ++ post).head?) (ht : tail' = (pre ++ post).getLast?) :
    Deque next' prev' head' tail' (pre ++ post) := by
  have hnd := d.chain.nodup
  have hdis := (List.nodup_append.mp hnd).2.2
  refine ⟨?_, d.back.unlink (fun q hq => ?_) (fun q hq => ?_) (fun q hq => ?_), ht⟩
  · rw [hh]
    obtain rfl | ⟨pre, o, rfl⟩ := pre.eq_nil_or_concat
    · have c := d.chain
      cases c with
      | cons _ c =>
        rw [List.nil_append, ← c.head_eq]
        exact c.congr fun q hq => hn q hq
    · simp only [List.concat_eq_append, List.append_assoc, List.cons_append, List.nil_append,
        List.getLast?_append, List.getLast?_singleton, Option.some_or] at hn hdis ⊢
      have c := d.chain
      simp only [List.concat_eq_append, List.append_assoc, List.cons_append, List.nil_append] at c
      have hhead : head = (pre ++ o :: post).head? := by
        rw [c.head_eq]
        cases pre <;> rfl
      rw [← hhead]
      refine c.unlink.congr fun q hq => ?_
      rw [hn q hq]
      by_cases hqo : q = o
      · rw [hqo, Function.update_self, if_pos rfl]
      · rw [Function.update_of_ne hqo, if_neg fun e => hqo (Option.some.inj e).symm]
  · rw [hp q (List.mem_append_left post hq), if_neg fun e => ?_]
    exact hdis q hq q (List.mem_cons_of_mem p (List.mem_of_mem_head? e)) rfl
  · rw [hp q (List.mem_append_right pre (List.mem_of_mem_head? hq))]
    exact if_pos hq
  · have hpost := (List.nodup_cons.mp (List.nodup_append.mp hnd).2.1).2
    rw [hp q (List.mem_append_right pre (List.mem_of_mem_tail hq)), if_neg fun e => ?_]
    cases post with
    | nil => cases hq
    | cons a post =>
      cases e
      exact (List.nodup_cons.mp hpost).1 hq

end Deque

end Base
