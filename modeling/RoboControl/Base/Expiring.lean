import Mathlib.Tactic

/-!
# Expiring maps and leases

An `ExpiringMap` has with each entry the time at which the entry expires, if there is one. Expired
entries may be removed at any time, which nobody can tell (`contains_purge`); `alter` removes them
before it changes the entry of a key.

`Leases` describes entries of a log that grant keys for a period and revoke them, and `Leases.Held`
says when a key is held: it was granted less than the period ago and not revoked since. A map tracks
a log if it contains exactly the keys that are held, at every time from the last entry on
(`Leases.Tracks`).
-/

namespace Base
open Function

/-- A map whose entries may expire. -/
structure ExpiringMap (κ ν : Type*) where
  entry : κ → Option (ν × Option Nat)

namespace ExpiringMap
variable {κ ν : Type*}

/-- The map without entries. -/
def empty : ExpiringMap κ ν := ⟨fun _ => none⟩

/-- An entry with some expiry has not expired. -/
def alive (now : Nat) : Option Nat → Bool
  | none => true
  | some expiry => now < expiry

/-- The entries that have not expired. -/
def purge (m : ExpiringMap κ ν) (now : Nat) : ExpiringMap κ ν :=
  ⟨fun k => (m.entry k).filter fun e => alive now e.2⟩

/-- There is an entry that has not expired. -/
def contains (m : ExpiringMap κ ν) (now : Nat) (k : κ) : Bool := (m.entry k).any fun e =>
    alive now e.2

/-- Change the entry of a key. -/
def alter [DecidableEq κ] (m : ExpiringMap κ ν) (now : Nat) (k : κ)
    (f : Option (ν × Option Nat) → Option (ν × Option Nat)) : ExpiringMap κ ν :=
  ⟨update (m.purge now).entry k (f ((m.purge now).entry k))⟩

/-- What is alive was alive before. -/
lemma alive_mono {t now : Nat} (h : t ≤ now) {e : Option Nat} (he : alive now e = true) :
    alive t e = true := by
  cases e with
  | none => rfl
  | some expiry => exact decide_eq_true (lt_of_le_of_lt h (of_decide_eq_true he))

/-- What has expired by some time has expired at all later times. -/
lemma contains_purge (m : ExpiringMap κ ν) {t now : Nat} (h : t ≤ now) (k : κ) :
    (m.purge t).contains now k = m.contains now k := by
  show ((m.entry k).filter fun e => alive t e.2).any (fun e => alive now e.2) = m.contains now k
  rw [Option.any_filter, contains]
  congr 1
  funext e
  cases he : alive now e.2 with
  | true => rw [alive_mono h he, Bool.true_and]
  | false => exact Bool.and_false _

variable [DecidableEq κ]

/-- The key that changes. -/
lemma contains_alter_self (m : ExpiringMap κ ν) (t now : Nat) (k : κ)
    (f : Option (ν × Option Nat) → Option (ν × Option Nat)) :
    (m.alter t k f).contains now k = (f ((m.purge t).entry k)).any fun e => alive now e.2 := by
  show (update (m.purge t).entry k (f ((m.purge t).entry k)) k).any (fun e => alive now e.2) = _
  rw [update_self]

/-- The other keys. -/
lemma contains_alter_of_ne (m : ExpiringMap κ ν) {t now : Nat} (h : t ≤ now) {k k' : κ}
    (hk : k' ≠ k) (f : Option (ν × Option Nat) → Option (ν × Option Nat)) :
    (m.alter t k f).contains now k' = m.contains now k' := by
  show (update (m.purge t).entry k (f ((m.purge t).entry k)) k').any (fun e => alive now e.2) = _
  rw [update_of_ne hk]
  exact contains_purge m h k'

end ExpiringMap

/-- Entries of a log that grant keys for a period and revoke keys; an entry revokes
before it grants. -/
structure Leases (ε κ : Type*) where
  time : ε → Nat
  grants : ε → κ → Prop
  revokes : ε → κ → Prop
  period : Nat

namespace Leases
variable {ε κ ι ν : Type*} {L : Leases ε κ} {log : List ε} {t now : Nat} {k : κ} {e : ε}

/-- A key was granted less than the period ago and not revoked since. -/
def Held (L : Leases ε κ) (log : List ε) (now : Nat) (k : κ) : Prop :=
  ∃ before e after, log = before ++ e :: after ∧ L.grants e k ∧ now < L.time e + L.period ∧
    ∀ e' ∈ after, ¬ L.revokes e' k

lemma not_held_nil : ¬ L.Held [] now k := by
  rintro ⟨before, e, after, h, -⟩
  exact List.append_ne_nil_of_right_ne_nil before (List.cons_ne_nil e after) h.symm

/-- What the last entry of a log does to a key. -/
lemma held_concat_iff : L.Held (log ++ [e]) now k ↔
    (L.grants e k ∧ now < L.time e + L.period) ∨ (L.Held log now k ∧ ¬ L.revokes e k) := by
  constructor
  · rintro ⟨before, e', after, h, hgrants, hnow, hafter⟩
    rcases List.eq_nil_or_concat after with rfl | ⟨after, e'', rfl⟩
    · obtain ⟨-, h⟩ := List.append_inj' h rfl
      cases h
      exact .inl ⟨hgrants, hnow⟩
    · rw [List.concat_eq_append] at h hafter
      rw [← List.cons_append, ← List.append_assoc] at h
      obtain ⟨rfl, he⟩ := List.append_inj' h rfl
      cases he
      refine .inr ⟨⟨before, e', after, rfl, hgrants, hnow, fun x hx => ?_⟩, ?_⟩
      · exact hafter x (List.mem_append_left _ hx)
      · exact hafter e (List.mem_append_right _ (List.mem_singleton_self e))
  · rintro (⟨hgrants, hnow⟩ | ⟨⟨before, e', after, rfl, hgrants, hnow, hafter⟩, hrevokes⟩)
    · exact ⟨log, e, [], rfl, hgrants, hnow, fun _ hx => (List.not_mem_nil hx).elim⟩
    · refine ⟨before, e', after ++ [e], by simp, hgrants, hnow, fun x hx => ?_⟩
      rcases List.mem_append.mp hx with hx | hx
      · exact hafter x hx
      · rwa [List.mem_singleton.mp hx]

/-- What is held was granted by the last entry, or before. -/
lemma Held.lt (h : L.Held log now k) (ht : ∀ e ∈ log, L.time e ≤ t) : now < t + L.period := by
  obtain ⟨before, e, after, rfl, -, hnow, -⟩ := h
  exact lt_of_lt_of_le hnow (Nat.add_le_add_right (ht e (by simp)) _)

/-- From a time on, a map contains the keys that are held according to a log. -/
structure Tracks (L : Leases ε κ) (key : κ → ι) (m : ExpiringMap ι ν) (log : List ε) (t : Nat) :
    Prop where
  le : ∀ e ∈ log, L.time e ≤ t
  contains_iff : ∀ now, t ≤ now → ∀ k, m.contains now (key k) = true ↔ L.Held log now k

variable {key : κ → ι} {m m' : ExpiringMap ι ν}

/-- An empty map. -/
lemma Tracks.empty : L.Tracks key (.empty : ExpiringMap ι ν) [] t where
  le _ he := (List.not_mem_nil he).elim
  contains_iff _ _ _ := iff_of_false Bool.false_ne_true not_held_nil

/-- Time passes, and the map changes at other keys. -/
lemma Tracks.frame (tracks : L.Tracks key m log t) {t' : Nat} (ht : t ≤ t')
    (h : ∀ now, t' ≤ now → ∀ k, m'.contains now (key k) = m.contains now (key k)) :
    L.Tracks key m' log t' where
  le e he := (tracks.le e he).trans ht
  contains_iff now hnow k := by
    rw [h now hnow k]
    exact tracks.contains_iff now (ht.trans hnow) k

/-- An entry is made, and the map changes as it says. -/
lemma Tracks.concat (tracks : L.Tracks key m log t) (ht : t ≤ L.time e)
    (h : ∀ now, L.time e ≤ now → ∀ k, m'.contains now (key k) = true ↔
      (L.grants e k ∧ now < L.time e + L.period) ∨
      (¬ L.grants e k ∧ ¬ L.revokes e k ∧ m.contains now (key k) = true)) :
    L.Tracks key m' (log ++ [e]) (L.time e) where
  le e' he' := by
    rcases List.mem_append.mp he' with he' | he'
    · exact (tracks.le e' he').trans ht
    · rw [List.mem_singleton.mp he']
  contains_iff now hnow k := by
    rw [h now hnow k, held_concat_iff, tracks.contains_iff now (ht.trans hnow) k]
    constructor
    · rintro (hgrants | ⟨-, hrevokes, held⟩)
      · exact .inl hgrants
      · exact .inr ⟨held, hrevokes⟩
    · rintro (hgrants | ⟨held, hrevokes⟩)
      · exact .inl hgrants
      · by_cases hgrants : L.grants e k
        · exact .inl ⟨hgrants, held.lt fun e' he' => (tracks.le e' he').trans ht⟩
        · exact .inr ⟨hgrants, hrevokes, held⟩

end Leases

end Base
