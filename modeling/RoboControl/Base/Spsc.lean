import Mathlib.Logic.Function.Basic
import Mathlib.Tactic

/-!
# Rings with one producer and one consumer

A ring of `n` slots between a producer and a consumer that run concurrently. The counters `head` and
`tail` are unbounded, and index `i` is in slot `i % n`. A write has read `tail` when it begins, then
copies its elements in any order, and moves `head` last; a read does the same with the two counters
exchanged. What the other side does in between is not seen, so a write may use less room than there
is, and a read may return less than there is.

`Inv` holds in every state that steps lead to (`Inv.step`). It says that what was returned is the
beginning of what was accepted (`Inv.returned_prefix`), and that a write copies to no slot that
still holds an element (`Inv.slot_ne`).
-/

namespace Base
open Function

/-- A write between its steps: its elements, and which of them are copied. -/
structure Spsc.Write (α : Type*) where
  data : List α
  copied : ℕ → Bool

/-- A read between its steps: its length, and the elements that are copied. -/
structure Spsc.Read (α : Type*) where
  len : ℕ
  dst : ℕ → Option α

/-- A ring with the calls that are going on, and what all calls before have accepted
and returned. -/
structure Spsc (α : Type*) where
  buf : ℕ → α
  head : ℕ
  tail : ℕ
  writing : Option (Spsc.Write α)
  reading : Option (Spsc.Read α)
  accepted : List α
  returned : List α

namespace Spsc
variable {α : Type*} {n : ℕ}

/-- A step of the producer or of the consumer. -/
inductive Step (n : ℕ) : Spsc α → Spsc α → Prop where
  | beginWrite {s : Spsc α} (data : List α) :
    s.writing = none →
    s.head + data.length ≤ s.tail + n →
    Step n s { s with writing := some ⟨data, fun _ => false⟩ }
  | copyIn {s : Spsc α} {w : Write α} {j : ℕ} {a : α} :
    s.writing = some w →
    w.data[j]? = some a →
    Step n s { s with
      buf := update s.buf ((s.head + j) % n) a
      writing := some { w with copied := update w.copied j true } }
  | publish {s : Spsc α} {w : Write α} :
    s.writing = some w →
    (∀ j < w.data.length, w.copied j = true) →
    Step n s { s with
      head := s.head + w.data.length
      writing := none
      accepted := s.accepted ++ w.data }
  | beginRead {s : Spsc α} (len : ℕ) :
    s.reading = none →
    s.tail + len ≤ s.head →
    Step n s { s with reading := some ⟨len, fun _ => none⟩ }
  | copyOut {s : Spsc α} {r : Read α} {j : ℕ} :
    s.reading = some r →
    j < r.len →
    Step n s { s with
      reading :=
        some { r with dst := update r.dst j (some (s.buf ((s.tail + j) % n))) } }
  | consume {s : Spsc α} {r : Read α} {bytes : List α} :
    s.reading = some r →
    bytes.map some = (List.range r.len).map r.dst →
    Step n s { s with
      tail := s.tail + r.len
      reading := none
      returned := s.returned ++ bytes }

/-- A write fits into the room that is left, and its copied elements are in their slots. -/
structure WriteOk (n : ℕ) (s : Spsc α) (w : Write α) : Prop where
  fits : s.head + w.data.length ≤ s.tail + n
  stored : ∀ j a, w.data[j]? = some a → w.copied j = true → s.buf ((s.head + j) % n) = a

/-- A read takes elements that are there, and those it has copied are the right ones. -/
structure ReadOk (s : Spsc α) (r : Read α) : Prop where
  fits : s.tail + r.len ≤ s.head
  copied : ∀ j < r.len, ∀ a, r.dst j = some a → s.accepted[s.tail + j]? = some a

/-- What holds of a ring between any two steps. -/
structure Inv (n : ℕ) (s : Spsc α) : Prop where
  le : s.tail ≤ s.head
  room : s.head ≤ s.tail + n
  head : s.accepted.length = s.head
  returned : s.returned = s.accepted.take s.tail
  stored : ∀ i a, s.tail ≤ i → s.accepted[i]? = some a → s.buf (i % n) = a
  writing : ∀ w, s.writing = some w → WriteOk n s w
  reading : ∀ r, s.reading = some r → ReadOk s r

/-- Indices that are less than `n` apart have different slots. -/
lemma mod_ne_mod {i m : ℕ} (h : i < m) (h' : m < i + n) : m % n ≠ i % n := by
  intro e
  have hdvd : n ∣ m - i := (Nat.modEq_iff_dvd' h.le).mp e.symm
  have hle := Nat.le_of_dvd (by omega) hdvd
  omega

section Inv
variable {s s' : Spsc α}

/-- What was returned was accepted. -/
lemma Inv.returned_prefix (inv : Inv n s) : s.returned <+: s.accepted := by
  rw [inv.returned]
  exact List.take_prefix _ _

/-- The slots of a write hold no element that is not consumed. -/
lemma Inv.slot_ne (inv : Inv n s) {w : Write α} (hw : s.writing = some w) {i j : ℕ}
    (hj : j < w.data.length) (hi : s.tail ≤ i) (hi' : i < s.head) : (s.head + j) % n ≠ i % n := by
  have hfits := (inv.writing w hw).fits
  exact mod_ne_mod (by omega) (by omega)

/-- An empty ring. -/
lemma Inv.empty (buf : ℕ → α) : Inv n (⟨buf, 0, 0, none, none, [], []⟩ : Spsc α) := by
  refine ⟨le_rfl, Nat.zero_le _, rfl, rfl, ?_, ?_, ?_⟩
  · intro i a _ h
    cases h
  · intro w h
    cases h
  · intro r h
    cases h

/-- A copied element does not touch the elements that are there, nor the others of the write. -/
lemma Inv.copyIn (inv : Inv n s) {w : Write α} {j : ℕ} {a : α} (hw : s.writing = some w)
    (ha : w.data[j]? = some a) :
    Inv n { s with
      buf := update s.buf ((s.head + j) % n) a
      writing := some { w with copied := update w.copied j true } } := by
  have ok := inv.writing w hw
  have hj : j < w.data.length := (List.getElem?_eq_some_iff.mp ha).1
  refine ⟨inv.le, inv.room, inv.head, inv.returned, ?_, ?_, ?_⟩
  · intro i b hi hb
    have hi' : i < s.head := by
      rw [← inv.head]
      exact (List.getElem?_eq_some_iff.mp hb).1
    show update s.buf _ a (i % n) = b
    rw [update_of_ne (inv.slot_ne hw hj hi hi').symm]
    exact inv.stored i b hi hb
  · rintro _ ⟨⟩
    refine ⟨ok.fits, fun j' b hb hcopied => ?_⟩
    have hfits := ok.fits
    have hle := inv.le
    have hj' : j' < w.data.length := (List.getElem?_eq_some_iff.mp hb).1
    show update s.buf _ a ((s.head + j') % n) = b
    by_cases hjj : j' = j
    · subst hjj
      rw [update_self]
      exact Option.some.inj (ha.symm.trans hb)
    · have hne : (s.head + j') % n ≠ (s.head + j) % n := by
        obtain hlt | hlt := lt_or_gt_of_ne hjj
        · exact (mod_ne_mod (by omega) (by omega)).symm
        · exact mod_ne_mod (by omega) (by omega)
      have hcopied' : update w.copied j true j' = true := hcopied
      rw [update_of_ne hjj] at hcopied'
      rw [update_of_ne hne]
      exact ok.stored j' b hb hcopied'
  · intro r hr
    exact ⟨(inv.reading r hr).fits, (inv.reading r hr).copied⟩

/-- A write that has copied all its elements appends them. -/
lemma Inv.publish (inv : Inv n s) {w : Write α} (hw : s.writing = some w)
    (hall : ∀ j < w.data.length, w.copied j = true) :
    Inv n { s with
      head := s.head + w.data.length
      writing := none
      accepted := s.accepted ++ w.data } := by
  have ok := inv.writing w hw
  have hle := inv.le
  have hhead := inv.head
  refine ⟨Nat.le_add_right_of_le hle, ok.fits, ?_, ?_, ?_, ?_, ?_⟩
  · show (s.accepted ++ w.data).length = s.head + w.data.length
    rw [List.length_append, hhead]
  · show s.returned = (s.accepted ++ w.data).take s.tail
    rw [List.take_append_of_le_length (by omega), inv.returned]
  · intro i a hi ha
    by_cases hlt : i < s.head
    · have ha' : s.accepted[i]? = some a := by
        rwa [List.getElem?_append_left (by omega)] at ha
      exact inv.stored i a hi ha'
    · have ha' : w.data[i - s.head]? = some a := by
        rwa [List.getElem?_append_right (by omega), hhead] at ha
      have hj : i - s.head < w.data.length := (List.getElem?_eq_some_iff.mp ha').1
      have h := ok.stored (i - s.head) a ha' (hall _ hj)
      rwa [Nat.add_sub_cancel' (not_lt.mp hlt)] at h
  · intro w' h
    cases h
  · intro r hr
    have rok := inv.reading r hr
    refine ⟨Nat.le_add_right_of_le rok.fits, fun j hj a ha => ?_⟩
    have hfits := rok.fits
    show (s.accepted ++ w.data)[s.tail + j]? = some a
    rw [List.getElem?_append_left (by omega)]
    exact rok.copied j hj a ha

/-- A copied element is the accepted one at its index, since no write reaches its slot. -/
lemma Inv.copyOut (inv : Inv n s) {r : Read α} {j : ℕ} (hr : s.reading = some r) (hj : j < r.len) :
    Inv n { s with
      reading :=
        some { r with dst := update r.dst j (some (s.buf ((s.tail + j) % n))) } } := by
  have ok := inv.reading r hr
  have hfits := ok.fits
  refine ⟨inv.le, inv.room, inv.head, inv.returned, inv.stored, ?_, ?_⟩
  · intro w hw
    exact ⟨(inv.writing w hw).fits, (inv.writing w hw).stored⟩
  · rintro _ ⟨⟩
    refine ⟨ok.fits, fun j' hj' a ha => ?_⟩
    have ha' : update r.dst j (some (s.buf ((s.tail + j) % n))) j' = some a := ha
    by_cases hjj : j' = j
    · subst hjj
      rw [update_self] at ha'
      have hlt : s.tail + j' < s.accepted.length := by
        rw [inv.head]
        omega
      have hget := List.getElem?_eq_getElem hlt
      have hstored := inv.stored (s.tail + j') _ (Nat.le_add_right _ _) hget
      show s.accepted[s.tail + j']? = some a
      rw [hget, ← hstored]
      exact ha'
    · rw [update_of_ne hjj] at ha'
      exact ok.copied j' hj' a ha'

/-- A read that has copied all its elements returns them. -/
lemma Inv.consume (inv : Inv n s) {r : Read α} {bytes : List α} (hr : s.reading = some r)
    (hbytes : bytes.map some = (List.range r.len).map r.dst) :
    Inv n { s with
      tail := s.tail + r.len
      reading := none
      returned := s.returned ++ bytes } := by
  have ok := inv.reading r hr
  have hfits := ok.fits
  have hroom := inv.room
  have hlen : bytes.length = r.len := by
    have h := congrArg List.length hbytes
    rwa [List.length_map, List.length_map, List.length_range] at h
  have hslice : bytes = (s.accepted.drop s.tail).take r.len := by
    refine List.ext_getElem? fun j => ?_
    by_cases hj : j < r.len
    · have hget := List.getElem?_eq_getElem (hlen.symm ▸ hj : j < bytes.length)
      have h := congrArg (·[j]?) hbytes
      simp only [List.getElem?_map, List.getElem?_range hj, hget, Option.map_some,
        Option.some.injEq] at h
      rw [List.getElem?_take_of_lt hj, List.getElem?_drop, hget]
      exact (ok.copied j hj _ h.symm).symm
    · rw [List.getElem?_eq_none (by omega), List.getElem?_eq_none (by rw [List.length_take]; omega)]
  refine ⟨ok.fits, ?_, inv.head, ?_, ?_, ?_, ?_⟩
  · show s.head ≤ s.tail + r.len + n
    omega
  · show s.returned ++ bytes = s.accepted.take (s.tail + r.len)
    rw [List.take_add, inv.returned, hslice]
  · intro i a hi ha
    exact inv.stored i a (by have : s.tail + r.len ≤ i := hi; omega) ha
  · intro w hw
    have hwfits := (inv.writing w hw).fits
    refine ⟨?_, (inv.writing w hw).stored⟩
    show s.head + w.data.length ≤ s.tail + r.len + n
    omega
  · intro r' h
    cases h

/-- Every step keeps the invariant. -/
lemma Inv.step (inv : Inv n s) (h : Step n s s') : Inv n s' := by
  cases h with
  | beginWrite data _ hfits =>
    refine ⟨inv.le, inv.room, inv.head, inv.returned, inv.stored, ?_, ?_⟩
    · rintro _ ⟨⟩
      refine ⟨hfits, fun j a _ h => ?_⟩
      cases h
    · intro r hr
      exact ⟨(inv.reading r hr).fits, (inv.reading r hr).copied⟩
  | copyIn hw ha => exact inv.copyIn hw ha
  | publish hw hall => exact inv.publish hw hall
  | beginRead len _ hfits =>
    refine ⟨inv.le, inv.room, inv.head, inv.returned, inv.stored, ?_, ?_⟩
    · intro w hw
      exact ⟨(inv.writing w hw).fits, (inv.writing w hw).stored⟩
    · rintro _ ⟨⟩
      refine ⟨hfits, fun j _ a h => ?_⟩
      cases h
  | copyOut hr hj => exact inv.copyOut hr hj
  | consume hr hbytes => exact inv.consume hr hbytes

end Inv

end Spsc

end Base
