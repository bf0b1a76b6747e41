import Mathlib.Tactic

/-!
# Bounded queues

A queue of at most `cap` elements. `put` appends what there is room for, `get` takes from the front;
both say how many elements they moved. The bound is a field of the queue.
-/

namespace Base

/-- A queue of at most `cap` elements, the oldest first. -/
structure Fifo (α : Type*) (cap : ℕ) where
  items : List α
  le : items.length ≤ cap

namespace Fifo
variable {α : Type*} {cap : ℕ}

/-- The empty queue. -/
def empty : Fifo α cap := ⟨[], Nat.zero_le _⟩

lemma length_put (q : Fifo α cap) (data : List α) :
    (q.items ++ data.take (cap - q.items.length)).length ≤ cap := by
  have h := q.le
  rw [List.length_append, List.length_take]
  omega

/-- Append the first elements of a list, as many as there is room for, and return their number. -/
def put (q : Fifo α cap) (data : List α) : ℕ × Fifo α cap :=
  (min data.length (cap - q.items.length), ⟨_, q.length_put data⟩)

lemma length_get (q : Fifo α cap) (n : ℕ) : (q.items.drop n).length ≤ cap := by
  have h := q.le
  rw [List.length_drop]
  omega

/-- Take at most `n` elements from the front, and return them and their number. -/
def get (q : Fifo α cap) (n : ℕ) : ℕ × List α × Fifo α cap :=
  (min n q.items.length, q.items.take n, ⟨_, q.length_get n⟩)

end Fifo

end Base
