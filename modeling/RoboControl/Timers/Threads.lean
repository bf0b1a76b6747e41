import RoboControl.Base.Double
import RoboControl.Timers.Layout

/-!
# Doubly linked lists of the wheel

The lists of a loop with their back links, while timers are also cancelled and rearmed (`Threaded`).
In the middle of an operation some timers are in no list: the one whose callback runs, and the one
that an operation has in hand.

`timer_remove` follows the back link of a timer, and computes the slot of a timer that has none. It
takes the timer out of its list if `CanUnlink` holds (`Threaded.remove`). It does not hold for the
timer whose callback runs, for the timer that is walked over next, whose back link still leads to
that one, and for the head of a slot other than the computed one.
-/

namespace RoboControl.Timers
open Base Function

/-- The back link of a timer. -/
def EventLoop.prev (loop : EventLoop) (p : Ptr) : Option Ptr := (loop.timerPool p).prev

/-- The slot that `timer_slot` computes for a timer at the time of the loop. -/
def EventLoop.slotOf (loop : EventLoop) (t : Ptr) : Nat × Nat :=
  timerSlot loop.currentMs (loop.timerPool t).expiryMs

/-- `timer_remove` finds the link that leads to a timer. -/
def CanUnlink (loop : EventLoop) (t : Ptr) : Prop :=
  (loop.timerPool t).active = true ∧
    (∀ p ∈ (loop.timerPool t).prev, (loop.timerPool p).active = true) ∧
    ((loop.timerPool t).prev = none → loop.wheel (loop.slotOf t) = some t)

instance (loop : EventLoop) (t : Ptr) : Decidable (CanUnlink loop t) :=
  inferInstanceAs (Decidable (_ ∧ _ ∧ (_ → _)))

/-! ## Fields after an operation -/

/-- The back links after an insertion. -/
lemma timerInsert_prev {loop : EventLoop} {t : Ptr} (hne : loop.wheel (loop.slotOf t) ≠ some t)
    (p : Ptr) :
    (timerInsert loop t).prev p = if p = t then none
      else if loop.wheel (loop.slotOf t) = some p then some t else loop.prev p := by
  rw [EventLoop.slotOf] at hne ⊢
  unfold timerInsert EventLoop.prev
  dsimp only
  split
  · next h hh =>
    have hwheel : loop.wheel (timerSlot loop.currentMs (loop.timerPool t).expiryMs) = some h := hh
    rw [hwheel] at hne ⊢
    have hht : h ≠ t := fun e => hne (congrArg some e)
    by_cases hp : p = t
    · subst hp
      simp [EventLoop.modify, hht.symm]
    · by_cases hph : p = h
      · subst hph
        simp [EventLoop.modify, hp]
      · simp [EventLoop.modify, hp, hph, Ne.symm hph]
  · next hh =>
    have hwheel : loop.wheel (timerSlot loop.currentMs (loop.timerPool t).expiryMs) = none := hh
    rw [hwheel]
    by_cases hp : p = t
    · subst hp
      simp [EventLoop.modify]
    · simp [EventLoop.modify, hp]

section Remove
variable {loop : EventLoop} {t : Ptr}

/-- The first write of `timer_remove`: what leads to a timer is led past it. -/
def leadPast (loop : EventLoop) (t : Ptr) : EventLoop :=
  match (loop.timerPool t).prev with
  | some p => loop.modify p ({ · with next := (loop.timerPool t).next })
  | none =>
    { loop with wheel := update loop.wheel (loop.slotOf t) (loop.timerPool t).next }

/-- The second write of `timer_remove`: the timer behind gets a back link. -/
def linkBack (loop : EventLoop) (b : Option Ptr) : Option Ptr → EventLoop
  | some n => loop.modify n ({ · with prev := b })
  | none => loop

/-- Only the link to the timer changes. -/
lemma leadPast_timerPool (loop : EventLoop) (t p : Ptr) :
    (leadPast loop t).timerPool p = { loop.timerPool p with
      next :=
        if loop.prev t = some p then (loop.timerPool t).next else (loop.timerPool p).next } := by
  rw [leadPast, EventLoop.prev]
  split
  · next o ho =>
    rw [ho]
    by_cases hp : p = o
    · subst hp
      simp
    · simp [hp, Ne.symm hp]
  · next ho => simp [ho]

/-- Only the link back changes. -/
lemma linkBack_timerPool (loop : EventLoop) (b n : Option Ptr) (p : Ptr) :
    (linkBack loop b n).timerPool p =
      { loop.timerPool p with prev := if n = some p then b else (loop.timerPool p).prev } := by
  cases n with
  | none => simp [linkBack]
  | some n =>
    by_cases hp : p = n
    · subst hp
      simp [linkBack]
    · simp [linkBack, hp, Ne.symm hp]

/-- `timer_remove` in three steps. -/
lemma timerRemove_eq (ha : (loop.timerPool t).active = true) (hprev : loop.prev t ≠ some t) :
    timerRemove loop t =
      (linkBack (leadPast loop t) (loop.prev t) (loop.timerPool t).next).modify t
        ({ · with next := none, prev := none, active := false }) := by
  rw [timerRemove, if_neg (by rw [ha]; exact Bool.noConfusion), leadPast]
  rw [EventLoop.prev] at hprev ⊢
  cases ho : (loop.timerPool t).prev with
  | none =>
    simp only [ho]
    cases (loop.timerPool t).next <;> rfl
  | some p =>
    -- The first write is not to the timer itself.
    have hpt : t ≠ p := fun e => hprev (ho.trans (congrArg some e.symm))
    simp only [modify_timerPool_of_ne _ hpt, ho]
    cases (loop.timerPool t).next <;> rfl

/-- The wheel after a removal. -/
lemma timerRemove_wheel (ha : (loop.timerPool t).active = true) (hprev : loop.prev t ≠ some t) :
    (timerRemove loop t).wheel = if loop.prev t = none then
      update loop.wheel (loop.slotOf t) (loop.timerPool t).next else loop.wheel := by
  rw [timerRemove_eq ha hprev]
  have hback : ∀ loop' b n, (linkBack loop' b n).wheel = loop'.wheel := fun _ _ n => by
    cases n <;> rfl
  refine (hback _ _ _).trans ?_
  rw [leadPast, EventLoop.prev]
  cases (loop.timerPool t).prev <;> rfl

/-- The pool after a removal. -/
lemma timerRemove_timerPool (ha : (loop.timerPool t).active = true) (hprev : loop.prev t ≠ some t)
    (p : Ptr) :
    (timerRemove loop t).timerPool p =
      if p = t then { loop.timerPool t with next := none, prev := none, active := false }
      else { loop.timerPool p with
        next := if loop.prev t = some p then (loop.timerPool t).next else (loop.timerPool p).next
        prev := if (loop.timerPool t).next = some p then loop.prev t else loop.prev p } := by
  rw [timerRemove_eq ha hprev]
  by_cases hp : p = t
  · subst hp
    rw [modify_timerPool_self, linkBack_timerPool, leadPast_timerPool, if_pos rfl]
  · rw [modify_timerPool_of_ne _ hp, linkBack_timerPool, leadPast_timerPool, if_neg hp]
    rfl

/-- What it leaves alone. -/
lemma timerRemove_frame (ha : (loop.timerPool t).active = true) (hprev : loop.prev t ≠ some t) :
    (timerRemove loop t).timerFree = loop.timerFree ∧
      (timerRemove loop t).timerPoolSize = loop.timerPoolSize ∧
      (timerRemove loop t).currentMs = loop.currentMs := by
  rw [timerRemove_eq ha hprev, leadPast]
  cases (loop.timerPool t).prev <;> cases (loop.timerPool t).next <;> exact ⟨rfl, rfl, rfl⟩

/-- The heads of the lists after a removal. -/
lemma timerRemove_head (ha : (loop.timerPool t).active = true) (hprev : loop.prev t ≠ some t)
    (rest : Option Ptr) :
    (timerRemove loop t).head rest = if loop.prev t = none then
      update (loop.head rest) (.slot (loop.slotOf t)) (loop.timerPool t).next
      else loop.head rest := by
  obtain ⟨hfree, -, -⟩ := timerRemove_frame ha hprev
  have hw := timerRemove_wheel ha hprev
  split
  · next ho =>
    rw [if_pos ho] at hw
    rw [head_wheel]
    exact head_congr hw hfree
  · next ho =>
    rw [if_neg ho] at hw
    exact head_congr hw hfree

/-- The links after a removal. -/
lemma timerRemove_next (ha : (loop.timerPool t).active = true) (hprev : loop.prev t ≠ some t)
    {p : Ptr} (hp : p ≠ t) : (timerRemove loop t).next p =
      if loop.prev t = some p then loop.next t else loop.next p := by
  rw [EventLoop.next, timerRemove_timerPool ha hprev, if_neg hp]
  split <;> rfl

/-- The back links after a removal. -/
lemma timerRemove_prev (ha : (loop.timerPool t).active = true) (hprev : loop.prev t ≠ some t)
    {p : Ptr} (hp : p ≠ t) : (timerRemove loop t).prev p =
      if (loop.timerPool t).next = some p then loop.prev t else loop.prev p := by
  rw [EventLoop.prev, timerRemove_timerPool ha hprev, if_neg hp]

/-- It disarms the timer only. -/
lemma timerRemove_active (ha : (loop.timerPool t).active = true) (hprev : loop.prev t ≠ some t)
    (p : Ptr) : ((timerRemove loop t).timerPool p).active =
      if p = t then false else (loop.timerPool p).active := by
  rw [timerRemove_timerPool ha hprev]
  split <;> rfl

/-- A removed timer is not active. -/
lemma timerRemove_active_self (loop : EventLoop) (t : Ptr) :
    ((timerRemove loop t).timerPool t).active = false := by
  rw [timerRemove]
  split
  · assumption
  · rw [modify_timerPool_self]

end Remove

/-! ## Threaded lists -/

/-- The lists of a loop with their back links. `out` are the timers in no list, and `firing` is the
one among them whose callback runs; the timers that are walked over come behind it. -/
structure Threaded (loop : EventLoop) (rest firing : Option Ptr) (out : List Ptr)
    (lists : Place → List Ptr) : Prop extends Links loop rest lists where
  armed : ∀ p ∉ out, (loop.timerPool p).active = true ↔ Armed lists p
  slots : ∀ key, Back loop.prev none (lists (.slot key))
  flight : ∃ b, Back loop.prev b (lists .inFlight) ∧ ∀ t ∈ firing, b = some t
  fired : ∀ t ∈ firing, t ∈ out ∧ (loop.timerPool t).active = false
  outside : ∀ p ∈ out, p < loop.timerPoolSize.toNat ∧ ∀ pl, p ∉ lists pl
  cover : ∀ p < loop.timerPoolSize.toNat, p ∉ out → ∃ pl, p ∈ lists pl

section Threaded
variable {loop loop' : EventLoop} {rest firing : Option Ptr} {out : List Ptr}
  {lists : Place → List Ptr} {t : Ptr}

/-- The lists only depend on the wheel, the free list and the pool. -/
lemma Threaded.of_eq (inv : Threaded loop rest firing out lists) (hw : loop'.wheel = loop.wheel)
    (hp : loop'.timerPool = loop.timerPool) (hf : loop'.timerFree = loop.timerFree)
    (hs : loop'.timerPoolSize = loop.timerPoolSize) : Threaded loop' rest firing out lists := by
  have hprev : loop'.prev = loop.prev := by
    funext p
    rw [EventLoop.prev, hp]
    rfl
  refine ⟨inv.toLinks.of_eq hw hp hf hs, ?_, ?_, ?_, ?_, ?_, ?_⟩
  · rw [hp]
    exact inv.armed
  · rw [hprev]
    exact inv.slots
  · rw [hprev]
    exact inv.flight
  · rw [hp]
    exact inv.fired
  · rw [hs]
    exact inv.outside
  · rw [hs]
    exact inv.cover

/-- A timer in no list is changed. -/
lemma Threaded.modify (inv : Threaded loop rest firing out lists) (ht : t ∈ out) {f : Timer → Timer}
    (hf : firing = some t → (f (loop.timerPool t)).active = false) :
    Threaded (loop.modify t f) rest firing out lists := by
  have hnot := (inv.outside t ht).2
  have hprev : ∀ pl, ∀ p ∈ lists pl, (loop.modify t f).prev p = loop.prev p := fun pl p hp => by
    rw [EventLoop.prev, modify_timerPool_of_ne loop (ne_of_mem_of_not_mem hp (hnot pl))]
    rfl
  obtain ⟨b, hb, hfire⟩ := inv.flight
  refine ⟨inv.toLinks.modify hnot f, fun p hp => ?_, fun key => (inv.slots key).congr (hprev _),
    ⟨b, hb.congr (hprev _), hfire⟩, fun u hu => ⟨(inv.fired u hu).1, ?_⟩, inv.outside, inv.cover⟩
  · rw [modify_timerPool_of_ne loop (ne_of_mem_of_not_mem ht hp).symm]
    exact inv.armed p hp
  · by_cases hut : u = t
    · subst hut
      rw [modify_timerPool_self]
      exact hf hu
    · rw [modify_timerPool_of_ne loop hut]
      exact (inv.fired u hu).2

/-- A timer of no list is no head. -/
lemma Links.wheel_ne (inv : Links loop rest lists) (ht : ∀ pl, t ∉ lists pl) (key : Nat × Nat) :
    loop.wheel key ≠ some t := fun h => by
  have hhead : loop.wheel key = (lists (.slot key)).head? := (inv.chain (.slot key)).head_eq
  exact ht (.slot key) (List.mem_of_mem_head? (hhead.symm.trans h))

/-- Pushing a held timer keeps the others outside. -/
lemma Threaded.outside_push (inv : Threaded loop rest firing (t :: out) lists) (ht : t ∉ out)
    (i : Place) (p : Ptr) (hp : p ∈ out) :
    p < loop.timerPoolSize.toNat ∧ ∀ pl, p ∉ push lists i t pl := by
  obtain ⟨hpn, hnot⟩ := inv.outside p (List.mem_cons_of_mem t hp)
  refine ⟨hpn, fun pl hpl => ?_⟩
  obtain ⟨rfl, _⟩ | hpl := mem_push.mp hpl
  · exact ht hp
  · exact hnot pl hpl

/-- Every timer that is not held is on a list. -/
lemma Threaded.cover_push (inv : Threaded loop rest firing (t :: out) lists) (i : Place) (p : Ptr)
    (hp : p < loop.timerPoolSize.toNat) (hpo : p ∉ out) : ∃ pl, p ∈ push lists i t pl := by
  by_cases hpt : p = t
  · exact ⟨i, mem_push.mpr (.inl ⟨hpt, rfl⟩)⟩
  · obtain ⟨pl, hpl⟩ := inv.cover p hp (List.not_mem_cons_of_ne_of_not_mem hpt hpo)
    exact ⟨pl, mem_push.mpr (.inr hpl)⟩

/-- The timer whose callback runs is not the one that is put into a list. -/
lemma Threaded.fired_push (inv : Threaded loop rest firing (t :: out) lists) (hf : firing ≠ some t)
    {u : Ptr} (hu : u ∈ firing) : u ≠ t ∧ u ∈ out ∧ (loop.timerPool u).active = false := by
  obtain ⟨hu', ha⟩ := inv.fired u hu
  have hut : u ≠ t := by
    rintro rfl
    exact hf hu
  exact ⟨hut, (List.mem_cons.mp hu').resolve_left hut, ha⟩

/-- A timer that leaves its list is in none. -/
lemma Threaded.outside_unlink (inv : Threaded loop rest firing out lists) {i : Place}
    (ht : t ∈ lists i) (p : Ptr) (hp : p ∈ t :: out) :
    p < loop.timerPoolSize.toNat ∧ ∀ pl, p ∉ unlink lists i t pl := by
  obtain rfl | hp := List.mem_cons.mp hp
  · exact ⟨inv.bound i p ht, fun pl h => ((inv.toChains.mem_unlink_of_mem ht).mp h).2 rfl⟩
  · obtain ⟨hpn, hnot⟩ := inv.outside p hp
    exact ⟨hpn, fun pl h => hnot pl ((inv.toChains.mem_unlink_of_mem ht).mp h).1⟩

/-- The timer that is unlinked is held. -/
lemma Threaded.cover_unlink (inv : Threaded loop rest firing out lists) {i : Place}
    (ht : t ∈ lists i) (p : Ptr) (hp : p < loop.timerPoolSize.toNat) (hpo : p ∉ t :: out) :
    ∃ pl, p ∈ unlink lists i t pl := by
  rw [List.mem_cons, not_or] at hpo
  obtain ⟨pl, hpl⟩ := inv.cover p hp hpo.2
  exact ⟨pl, (inv.toChains.mem_unlink_of_mem ht).mpr ⟨hpl, hpo.1⟩⟩

/-- A timer in no list is inserted into its slot. -/
lemma Threaded.insert (inv : Threaded loop rest firing (t :: out) lists) (ht : t ∉ out)
    (hf : firing ≠ some t) :
    Threaded (timerInsert loop t) rest firing out (push lists (.slot (loop.slotOf t)) t) := by
  obtain ⟨htn, hnot⟩ := inv.outside t List.mem_cons_self
  have hprev := timerInsert_prev (inv.toLinks.wheel_ne hnot (loop.slotOf t))
  have hhead : loop.wheel (loop.slotOf t) = (lists (.slot (loop.slotOf t))).head? :=
    (inv.chain (.slot (loop.slotOf t))).head_eq
  -- The head of the slot gets a back link; the other timers keep theirs.
  have hkeep : ∀ pl, ∀ p ∈ lists pl, loop.wheel (loop.slotOf t) ≠ some p →
      (timerInsert loop t).prev p = loop.prev p := fun pl p hp hh => by
    rw [hprev, if_neg (ne_of_mem_of_not_mem hp (hnot pl)), if_neg hh]
  have hother : ∀ pl, pl ≠ .slot (loop.slotOf t) → ∀ p ∈ lists pl,
      (timerInsert loop t).prev p = loop.prev p := fun pl hpl p hp => by
    refine hkeep pl p hp fun hh => inv.disjoint _ _ hpl hp ?_
    exact List.mem_of_mem_head? (hhead.symm.trans hh)
  refine ⟨inv.toLinks.insert htn hnot, fun p hp => ?_, fun key => ?_, ?_, fun u hu => ?_, ?_, ?_⟩
  · rw [timerInsert_active]
    by_cases hpt : p = t
    · subst hpt
      rw [if_pos rfl]
      simp only [true_iff]
      exact ⟨_, Place.noConfusion, mem_push.mpr (.inl ⟨rfl, rfl⟩)⟩
    · rw [if_neg hpt, inv.armed p (List.not_mem_cons_of_ne_of_not_mem hpt hp)]
      simp [Armed, hpt]
  · by_cases hkey : key = loop.slotOf t
    · subst hkey
      rw [push, update_self]
      refine (inv.slots _).push ?_ (fun q hq => ?_) fun q hq => ?_
      · rw [hprev, if_pos rfl]
      · have hq' := List.mem_of_mem_head? hq
        rw [hprev, if_neg (ne_of_mem_of_not_mem hq' (hnot _)), if_pos (hhead.trans hq)]
      · exact hkeep _ q (List.mem_of_mem_tail hq) ((inv.chain _).ne_of_mem_tail hq)
    · have hpl : Place.slot key ≠ .slot (loop.slotOf t) := fun e => hkey (Place.slot.inj e)
      rw [push, update_of_ne hpl]
      exact (inv.slots key).congr (hother _ hpl)
  · obtain ⟨b, hb, hfire⟩ := inv.flight
    rw [push, update_of_ne Place.noConfusion]
    exact ⟨b, hb.congr (hother _ Place.noConfusion), hfire⟩
  · obtain ⟨hut, hu', hua⟩ := inv.fired_push hf hu
    rw [timerInsert_active, if_neg hut]
    exact ⟨hu', hua⟩
  · rw [timerInsert_timerPoolSize]
    exact inv.outside_push ht _
  · rw [timerInsert_timerPoolSize]
    exact inv.cover_push _

/-- A timer in no list is put on the free list. -/
lemma Threaded.release (inv : Threaded loop rest firing (t :: out) lists) (ht : t ∉ out)
    (hf : firing ≠ some t) (ha : (loop.timerPool t).active = false) :
    Threaded (timerRelease loop t) rest firing out (push lists .free t) := by
  obtain ⟨htn, hnot⟩ := inv.outside t List.mem_cons_self
  have hpool : ∀ p, p ≠ t → (timerRelease loop t).timerPool p = loop.timerPool p :=
    fun p hp => update_of_ne hp _ _
  have hprev : (timerRelease loop t).prev = loop.prev := by
    funext p
    by_cases hp : p = t
    · subst hp
      simp [EventLoop.prev, timerRelease]
    · rw [EventLoop.prev, hpool p hp]
      rfl
  refine ⟨inv.toLinks.release htn hnot, fun p hp => ?_, fun key => ?_, ?_, fun u hu => ?_,
    inv.outside_push ht _, inv.cover_push _⟩
  · have hiff : Armed (push lists .free t) p ↔ Armed lists p := armed_update_free p
    rw [hiff]
    by_cases hpt : p = t
    · subst hpt
      have hactive : ((timerRelease loop p).timerPool p).active = false := by
        simp [timerRelease, ha]
      rw [hactive]
      refine ⟨Bool.noConfusion, fun harmed => ?_⟩
      obtain ⟨pl, -, hp⟩ := harmed
      exact absurd hp (hnot pl)
    · rw [hpool p hpt]
      exact inv.armed p (List.not_mem_cons_of_ne_of_not_mem hpt hp)
  · rw [push, update_of_ne Place.noConfusion, hprev]
    exact inv.slots key
  · rw [push, update_of_ne Place.noConfusion, hprev]
    exact inv.flight
  · obtain ⟨hut, hu', hua⟩ := inv.fired_push hf hu
    rw [hpool u hut]
    exact ⟨hu', hua⟩

/-! While no timer fires, a timer in no list is free to be changed and put anywhere. -/

/-- A held timer may change. -/
lemma Threaded.modify_held (inv : Threaded loop rest none [t] lists) (f : Timer → Timer) :
    Threaded (loop.modify t f) rest none [t] lists :=
  inv.modify List.mem_cons_self nofun

/-- A held timer is inserted. -/
lemma Threaded.insert_held (inv : Threaded loop rest none [t] lists) :
    Threaded (timerInsert loop t) rest none [] (push lists (.slot (loop.slotOf t)) t) :=
  inv.insert List.not_mem_nil nofun

/-- A held timer is freed. -/
lemma Threaded.release_held (inv : Threaded loop rest none [t] lists)
    (ha : (loop.timerPool t).active = false) :
    Threaded (timerRelease loop t) rest none [] (push lists .free t) :=
  inv.release List.not_mem_nil nofun ha

/-- The first timer of the free list is taken. -/
lemma Threaded.popFree (inv : Threaded loop rest firing out lists) (ht : loop.timerFree = some t) :
    ∃ r, lists .free = t :: r ∧
      Threaded { loop with timerFree := (loop.timerPool t).next } rest firing (t :: out)
        (update lists .free r) := by
  obtain ⟨r, hl, links, -⟩ := inv.toLinks.popFree ht
  have hmem : t ∈ lists .free := hl ▸ List.mem_cons_self
  refine ⟨r, hl, links, fun p hp => ?_, fun key => ?_, ?_, fun u hu => ?_, ?_, ?_⟩
  · rw [armed_update_free]
    exact inv.armed p fun h => hp (List.mem_cons_of_mem t h)
  · rw [update_of_ne Place.noConfusion]
    exact inv.slots key
  · rw [update_of_ne Place.noConfusion]
    exact inv.flight
  · obtain ⟨hu', ha⟩ := inv.fired u hu
    exact ⟨List.mem_cons_of_mem t hu', ha⟩
  · rw [← unlink_eq_update hl]
    exact inv.outside_unlink hmem
  · rw [← unlink_eq_update hl]
    exact inv.cover_unlink hmem

/-- The walk takes its first timer; the next one still leads back to it. -/
lemma Threaded.popFlight (inv : Threaded loop (some t) none [] lists) :
    ∃ r, lists .inFlight = t :: r ∧
      Threaded loop (loop.timerPool t).next none [t] (update lists .inFlight r) ∧
      Back loop.prev (some t) r := by
  obtain ⟨r, hl, links, -⟩ := inv.toLinks.popFlight
  obtain ⟨b, hb, -⟩ := inv.flight
  have hr : Back loop.prev (some t) r := by
    rw [hl] at hb
    cases hb with
    | cons _ hr => exact hr
  have hmem : t ∈ lists .inFlight := hl ▸ List.mem_cons_self
  refine ⟨r, hl, ⟨links, fun p hp => ?_, fun key => ?_, ⟨some t, ?_, nofun⟩, nofun, ?_, ?_⟩, hr⟩
  · rw [armed_update_inFlight hl (List.ne_of_not_mem_cons hp)]
    exact inv.armed p List.not_mem_nil
  · rw [update_of_ne Place.noConfusion]
    exact inv.slots key
  · rwa [update_self]
  · rw [← unlink_eq_update hl]
    exact inv.outside_unlink hmem
  · rw [← unlink_eq_update hl]
    exact inv.cover_unlink hmem

/-- The callback of the timer that the walk has taken starts. -/
lemma Threaded.startFiring (inv : Threaded loop rest none [t] lists)
    (hb : Back loop.prev (some t) (lists .inFlight)) (ha : (loop.timerPool t).active = false) :
    Threaded loop rest (some t) [t] lists := by
  refine ⟨inv.toLinks, inv.armed, inv.slots, ⟨some t, hb, fun u hu => hu⟩, fun u hu => ?_,
    inv.outside, inv.cover⟩
  cases hu
  exact ⟨List.mem_cons_self, ha⟩

/-- The callback is over. -/
lemma Threaded.endFiring (inv : Threaded loop rest firing out lists) :
    Threaded loop rest none out lists := by
  obtain ⟨b, hb, -⟩ := inv.flight
  exact ⟨inv.toLinks, inv.armed, inv.slots, ⟨b, hb, nofun⟩, nofun, inv.outside, inv.cover⟩

/-- A slot is detached. -/
lemma Threaded.detach (inv : Threaded loop none none [] lists) (key : Nat × Nat) :
    Threaded (detach loop key) (loop.wheel key) none [] (detached lists key) := by
  have hnil := inv.inFlight_eq_nil
  refine ⟨inv.toLinks.detach key, fun p hp => ?_, fun key' => ?_, ⟨none, ?_, nofun⟩, nofun,
    fun p hp => (nomatch hp), fun p hp _ => ?_⟩
  · rw [armed_detached hnil]
    exact inv.armed p hp
  · by_cases hk : key' = key
    · subst hk
      rw [detached_slot]
      exact .nil
    · rw [detached_of_ne Place.noConfusion fun e => hk (Place.slot.inj e)]
      exact inv.slots key'
  · rw [detached_inFlight]
    exact inv.slots key
  · rw [mem_detached hnil]
    exact inv.cover p hp List.not_mem_nil

/-! ## Removal -/

/-- Where a timer is that `timer_remove` can take out, and how its list is led to it. -/
lemma Threaded.linked (inv : Threaded loop rest firing out lists)
    (hrest : firing = none → lists .inFlight = []) (ht : t ∉ out) (hcan : CanUnlink loop t) :
    ∃ pl, t ∈ lists pl ∧
      ((loop.prev t = none ∧ pl = .slot (loop.slotOf t) ∧ ∃ post, lists pl = t :: post) ∨
        ∃ pre o post, loop.prev t = some o ∧ lists pl = pre ++ o :: t :: post) := by
  obtain ⟨ha, hsome, hnone⟩ := hcan
  obtain ⟨pl, hpl, htl⟩ := (inv.armed t ht).mp ha
  refine ⟨pl, htl, ?_⟩
  cases pl with
  | free => exact absurd rfl hpl
  | slot key =>
    obtain ⟨post, hl, hp⟩ | ⟨pre, o, post, hl, hp⟩ := (inv.slots key).split htl
    · refine .inl ⟨hp, ?_, post, hl⟩
      -- The timer is in the slot it heads, and in the one that is computed.
      by_contra hne
      have hhead : loop.wheel (loop.slotOf t) = (lists (.slot (loop.slotOf t))).head? :=
        (inv.chain (.slot (loop.slotOf t))).head_eq
      exact inv.disjoint _ _ hne htl (List.mem_of_mem_head? (hhead.symm.trans (hnone hp)))
    · exact .inr ⟨pre, o, post, hp, hl⟩
  | inFlight =>
    obtain ⟨b, hb, hfire⟩ := inv.flight
    obtain ⟨post, hl, hp⟩ | ⟨pre, o, post, hl, hp⟩ := hb.split htl
    · -- The first timer that is walked over leads back to the timer whose callback runs.
      cases firing with
      | none =>
        rw [hrest rfl] at hl
        cases hl
      | some u =>
        rw [hfire u rfl] at hp
        have hu := hsome u hp
        rw [(inv.fired u rfl).2] at hu
        cases hu
    · exact .inr ⟨pre, o, post, hp, hl⟩

/-- The links after a removal. -/
lemma Links.remove (inv : Links loop rest lists) {pl : Place}
    (ha : (loop.timerPool t).active = true) (htl : t ∈ lists pl)
    (hlink : (loop.prev t = none ∧ pl = .slot (loop.slotOf t) ∧ ∃ post, lists pl = t :: post) ∨
      ∃ pre o post, loop.prev t = some o ∧ lists pl = pre ++ o :: t :: post) :
    loop.prev t ≠ some t ∧ Links (timerRemove loop t) rest (unlink lists pl t) := by
  have hmem : ∀ {pl' p}, p ∈ unlink lists pl t pl' ↔ p ∈ lists pl' ∧ p ≠ t :=
    inv.toChains.mem_unlink_of_mem htl
  have hprev : loop.prev t ≠ some t := by
    obtain ⟨ho, -, -⟩ | ⟨pre, o, post, ho, hl⟩ := hlink
    · rw [ho]
      exact nofun
    · have hnd := (inv.chain pl).nodup
      rw [hl] at hnd
      rw [ho]
      rintro ⟨⟩
      exact (List.nodup_cons.mp (List.nodup_append.mp hnd).2.1).1 List.mem_cons_self
  refine ⟨hprev, ⟨?_, fun pl' p hp => ?_⟩⟩
  · rw [timerRemove_head ha hprev]
    obtain ⟨ho, rfl, post, hl⟩ | ⟨pre, o, post, ho, hl⟩ := hlink
    · -- The slot is led past the timer.
      have hhead : loop.head rest (.slot (loop.slotOf t)) = some t := by
        rw [(inv.chain (.slot (loop.slotOf t))).head_eq, hl]
        rfl
      rw [if_pos ho]
      refine (inv.toChains.unlink_head hhead rfl).congr fun pl' p hp => ?_
      rw [timerRemove_next ha hprev (hmem.mp hp).2, ho, if_neg nofun]
    · -- The timer before it is led past it.
      have hsome : loop.prev t ≠ none := by
        rw [ho]
        exact nofun
      rw [if_neg hsome]
      refine (inv.toChains.unlink hl).congr fun pl' p hp => ?_
      rw [timerRemove_next ha hprev (hmem.mp hp).2, ho]
      by_cases hpo : p = o
      · subst hpo
        rw [if_pos rfl, update_self]
      · rw [if_neg fun e => hpo (Option.some.inj e).symm, update_of_ne hpo]
  · obtain ⟨-, hsize, -⟩ := timerRemove_frame ha hprev
    rw [hsize]
    exact inv.bound pl' p (hmem.mp hp).1

/-- The back links after a removal. -/
lemma Links.back_remove (inv : Links loop rest lists) (ha : (loop.timerPool t).active = true)
    (hprev : loop.prev t ≠ some t) {pl : Place} (htl : t ∈ lists pl) {pl' : Place} {b : Option Ptr}
    (h : Back loop.prev b (lists pl')) :
    Back (timerRemove loop t).prev b (unlink lists pl t pl') := by
  obtain ⟨pre, post, hl⟩ := List.append_of_mem htl
  have c := inv.chain pl
  rw [hl] at c
  have hnext : (loop.timerPool t).next = post.head? := Option.some.inj c.next_eq
  by_cases hpl : pl' = pl
  · subst hpl
    rw [unlink, update_self, hl, c.erase_eq]
    rw [hl] at h
    obtain ⟨-, hnd, hdis⟩ := List.nodup_append.mp c.nodup
    obtain ⟨htpost, hpost⟩ := List.nodup_cons.mp hnd
    refine h.unlink (fun q hq => ?_) (fun q hq => ?_) fun q hq => ?_
    · have hqt : q ≠ t := hdis q hq t List.mem_cons_self
      rw [timerRemove_prev ha hprev hqt, if_neg fun e => ?_]
      have hq' := List.mem_of_mem_head? (hnext.symm.trans e)
      exact hdis q hq q (List.mem_cons_of_mem t hq') rfl
    · have hqt : q ≠ t := ne_of_mem_of_not_mem (List.mem_of_mem_head? hq) htpost
      rw [timerRemove_prev ha hprev hqt, if_pos (hnext.trans hq)]
    · have hqt : q ≠ t := ne_of_mem_of_not_mem (List.mem_of_mem_tail hq) htpost
      rw [timerRemove_prev ha hprev hqt, if_neg fun e => ?_]
      cases post with
      | nil => cases hq
      | cons a post =>
        cases hnext.symm.trans e
        exact (List.nodup_cons.mp hpost).1 hq
  · rw [unlink, update_of_ne hpl]
    refine h.congr fun q hq => ?_
    have hqt : q ≠ t := by
      rintro rfl
      exact inv.disjoint pl' pl hpl hq htl
    rw [timerRemove_prev ha hprev hqt, if_neg fun e => ?_]
    have hq' := List.mem_of_mem_head? (hnext.symm.trans e)
    refine inv.disjoint pl' pl hpl hq ?_
    rw [hl]
    exact List.mem_append_right pre (List.mem_cons_of_mem t hq')

/-- `timer_remove` takes a timer out of its list. -/
lemma Threaded.remove (inv : Threaded loop rest firing out lists)
    (hrest : firing = none → lists .inFlight = []) (ht : t ∉ out) (hcan : CanUnlink loop t) :
    loop.prev t ≠ some t ∧ ∃ pl, t ∈ lists pl ∧
      Threaded (timerRemove loop t) rest firing (t :: out) (unlink lists pl t) := by
  obtain ⟨pl, htl, hlink⟩ := inv.linked hrest ht hcan
  have ha := hcan.1
  obtain ⟨hprev, links⟩ := inv.toLinks.remove ha htl hlink
  obtain ⟨-, hsize, -⟩ := timerRemove_frame ha hprev
  have hmem : ∀ {pl' p}, p ∈ unlink lists pl t pl' ↔ p ∈ lists pl' ∧ p ≠ t :=
    inv.toChains.mem_unlink_of_mem htl
  obtain ⟨b, hb, hfire⟩ := inv.flight
  refine ⟨hprev, pl, htl, links, fun p hp => ?_, fun key => inv.back_remove ha hprev htl
    (inv.slots key), ⟨b, inv.back_remove ha hprev htl hb, hfire⟩, fun u hu => ?_, ?_, ?_⟩
  · rw [List.mem_cons, not_or] at hp
    rw [timerRemove_active ha hprev, if_neg hp.1, inv.armed p hp.2]
    simp only [Armed, hmem, hp.1, ne_eq, not_false_eq_true, and_true]
  · obtain ⟨hu', hua⟩ := inv.fired u hu
    rw [timerRemove_active ha hprev, if_neg (ne_of_mem_of_not_mem hu' ht)]
    exact ⟨List.mem_cons_of_mem t hu', hua⟩
  · rw [hsize]
    exact inv.outside_unlink htl
  · rw [hsize]
    exact inv.cover_unlink htl

end Threaded

/-- In a new loop every timer is free. -/
lemma loopCreate_threaded {maxFds : UInt32} {now : UInt64} {loop : EventLoop}
    (h : loopCreate maxFds now = some loop) :
    Threaded loop none none [] (newLists loop.timerPoolSize.toNat) := by
  have layout := loopCreate_layout h
  refine ⟨layout.toLinks, fun p _ => (layout.armed p).active, fun _ => .nil, ⟨none, .nil, nofun⟩,
    nofun, fun p hp => (nomatch hp), fun p hp _ => ⟨.free, ?_⟩⟩
  rw [newLists, List.mem_range'_1]
  omega

end RoboControl.Timers
