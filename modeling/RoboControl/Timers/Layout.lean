import RoboControl.Base.Chain
import RoboControl.Timers.Wheel

/-!
# Lists of the wheel

While timers are only added and processed, the slots of the wheel and the free list hold chains
without common timers, and a timer is active when it is in a slot (`Layout`). The chain that
`process_timers` has detached and walks over is one more list, `inFlight`. The operations of the
file move a timer from one list to another; each lemma says which.
-/

namespace RoboControl.Timers
open Base Function

/-! ## Fields after an operation -/

/-- What a timer is armed with: everything but its links and `active`. -/
def Timer.content (x : Timer) : UInt64 × UInt32 × Option Nat × Nat :=
  (x.expiryMs, x.intervalMs, x.callback, x.arg)

/-- The link of a timer. -/
def EventLoop.next (loop : EventLoop) (p : Ptr) : Option (Option Ptr) :=
  some (loop.timerPool p).next

/-- The timer that is changed. -/
@[simp] lemma modify_timerPool_self (loop : EventLoop) (t : Ptr) (f : Timer → Timer) :
    (loop.modify t f).timerPool t = f (loop.timerPool t) :=
  update_self _ _ _

/-- Another timer. -/
@[simp] lemma modify_timerPool_of_ne (loop : EventLoop) {t p : Ptr} (h : p ≠ t)
    (f : Timer → Timer) :
    (loop.modify t f).timerPool p = loop.timerPool p :=
  update_of_ne h _ _

/-- Two changes are one. -/
lemma modify_modify (loop : EventLoop) (t : Ptr) (f g : Timer → Timer) :
    (loop.modify t f).modify t g = loop.modify t (fun x => g (f x)) := by
  simp [EventLoop.modify]

section Insert
variable (loop : EventLoop) (t : Ptr)

@[simp] lemma timerInsert_currentMs : (timerInsert loop t).currentMs = loop.currentMs := by
  unfold timerInsert
  dsimp only
  split <;> rfl

@[simp] lemma timerInsert_wheelTicks : (timerInsert loop t).wheelTicks = loop.wheelTicks := by
  unfold timerInsert
  dsimp only
  split <;> rfl

@[simp] lemma timerInsert_timerFree : (timerInsert loop t).timerFree = loop.timerFree := by
  unfold timerInsert
  dsimp only
  split <;> rfl

@[simp] lemma timerInsert_timerPoolSize :
    (timerInsert loop t).timerPoolSize = loop.timerPoolSize := by
  unfold timerInsert
  dsimp only
  split <;> rfl

@[simp] lemma timerInsert_added : (timerInsert loop t).added = loop.added := by
  unfold timerInsert
  dsimp only
  split <;> rfl

@[simp] lemma timerInsert_fired : (timerInsert loop t).fired = loop.fired := by
  unfold timerInsert
  dsimp only
  split <;> rfl

/-- The timer becomes the head of its slot. -/
lemma timerInsert_wheel :
    (timerInsert loop t).wheel = update loop.wheel
      (timerSlot loop.currentMs (loop.timerPool t).expiryMs) (some t) := by
  unfold timerInsert
  dsimp only
  split <;> rfl

/-- The pool after an insertion, up to the back links. -/
lemma timerInsert_timerPool (p : Ptr) :
    ∃ prev, (timerInsert loop t).timerPool p =
      { loop.timerPool p with
        prev := prev
        next := if p = t then loop.wheel (timerSlot loop.currentMs (loop.timerPool t).expiryMs)
          else (loop.timerPool p).next
        active := if p = t then true else (loop.timerPool p).active } := by
  unfold timerInsert
  dsimp only
  split
  · next h _ =>
    by_cases hp : p = t
    · subst hp
      by_cases hh : p = h
      · subst hh
        exact ⟨some p, by simp [EventLoop.modify]⟩
      · exact ⟨none, by simp [EventLoop.modify, hh]⟩
    · by_cases hh : p = h
      · subst hh
        exact ⟨some t, by simp [EventLoop.modify, hp]⟩
      · exact ⟨(loop.timerPool p).prev, by simp [EventLoop.modify, hp, hh]⟩
  · by_cases hp : p = t
    · subst hp
      exact ⟨none, by simp [EventLoop.modify]⟩
    · exact ⟨(loop.timerPool p).prev, by simp [EventLoop.modify, hp]⟩

/-- An insertion changes no content. -/
@[simp] lemma timerInsert_content (p : Ptr) :
    ((timerInsert loop t).timerPool p).content = (loop.timerPool p).content := by
  obtain ⟨prev, h⟩ := timerInsert_timerPool loop t p
  rw [h]
  rfl

/-- It arms the timer only. -/
lemma timerInsert_active (p : Ptr) :
    ((timerInsert loop t).timerPool p).active =
      if p = t then true else (loop.timerPool p).active := by
  obtain ⟨prev, h⟩ := timerInsert_timerPool loop t p
  rw [h]

/-- The old head comes next. -/
lemma timerInsert_next :
    (timerInsert loop t).next = update loop.next t
      (some (loop.wheel (timerSlot loop.currentMs (loop.timerPool t).expiryMs))) := by
  funext p
  obtain ⟨prev, h⟩ := timerInsert_timerPool loop t p
  rw [EventLoop.next, h]
  by_cases hp : p = t
  · subst hp
    simp
  · simp [hp, EventLoop.next]

end Insert

/-! ## Lists -/

/-- A list of timers of a loop: of a slot, the free list, or the list that is walked over. -/
inductive Place where
  | slot (key : Nat × Nat)
  | free
  | inFlight
  deriving DecidableEq

/-- The first timer of a list; `rest` is where the walk is. -/
def EventLoop.head (loop : EventLoop) (rest : Option Ptr) : Place → Option Ptr
  | .slot key => loop.wheel key
  | .free => loop.timerFree
  | .inFlight => rest

/-- A timer that is in a slot or walked over. -/
def Armed (lists : Place → List Ptr) (p : Ptr) : Prop := ∃ pl, pl ≠ .free ∧ p ∈ lists pl

/-- The lists of a loop are chains of timers of its pool, without common timers. -/
structure Links (loop : EventLoop) (rest : Option Ptr) (lists : Place → List Ptr) : Prop
    extends Chains loop.next (loop.head rest) lists where
  bound : ∀ pl, ∀ p ∈ lists pl, p < loop.timerPoolSize.toNat

/-- The armed timers are active and have a callback. -/
structure ArmedOk (loop : EventLoop) (lists : Place → List Ptr) (p : Ptr) : Prop where
  active : (loop.timerPool p).active = true ↔ Armed lists p
  callback : Armed lists p → (loop.timerPool p).callback ≠ none

/-- The lists of a loop, with the armed timers marked. -/
structure Layout (loop : EventLoop) (rest : Option Ptr) (lists : Place → List Ptr) : Prop
    extends Links loop rest lists where
  armed : ∀ p, ArmedOk loop lists p

/-- A new head of a slot. -/
lemma head_wheel (loop : EventLoop) (rest : Option Ptr) (key : Nat × Nat) (x : Option Ptr) :
    update (loop.head rest) (.slot key) x =
      EventLoop.head { loop with wheel := update loop.wheel key x } rest := by
  funext pl
  cases pl with
  | slot key' =>
    by_cases hk : key' = key
    · subst hk
      simp [EventLoop.head]
    · simp [EventLoop.head, hk]
  | free => rfl
  | inFlight => rfl

/-- A new head of the free list. -/
lemma head_timerFree (loop : EventLoop) (rest x : Option Ptr) :
    update (loop.head rest) .free x = EventLoop.head { loop with timerFree := x } rest := by
  funext pl
  cases pl <;> rfl

/-- A new head of the list that is walked over. -/
lemma head_inFlight (loop : EventLoop) (rest x : Option Ptr) :
    update (loop.head rest) .inFlight x = loop.head x := by
  funext pl
  cases pl <;> rfl

section Lists
variable {loop loop' : EventLoop} {rest : Option Ptr} {lists : Place → List Ptr} {t : Ptr}

/-- The heads only depend on the wheel and the free list. -/
lemma head_congr (hw : loop'.wheel = loop.wheel) (hf : loop'.timerFree = loop.timerFree) :
    loop'.head rest = loop.head rest := by
  funext pl
  cases pl with
  | slot key => exact congrFun hw key
  | free => exact hf
  | inFlight => rfl

/-- The lists depend on the heads and the links. -/
lemma Links.congr (inv : Links loop rest lists) (hh : loop'.head rest = loop.head rest)
    (hn : ∀ pl, ∀ p ∈ lists pl, loop'.next p = loop.next p)
    (hs : loop'.timerPoolSize = loop.timerPoolSize) : Links loop' rest lists := by
  refine ⟨?_, fun pl p hp => ?_⟩
  · rw [hh]
    exact inv.toChains.congr hn
  · rw [hs]
    exact inv.bound pl p hp

/-- Fields that are not part of the lists may change. -/
lemma Links.of_eq (inv : Links loop rest lists) (hw : loop'.wheel = loop.wheel)
    (hp : loop'.timerPool = loop.timerPool) (hf : loop'.timerFree = loop.timerFree)
    (hs : loop'.timerPoolSize = loop.timerPoolSize) : Links loop' rest lists := by
  refine inv.congr (head_congr hw hf) (fun _ p _ => ?_) hs
  rw [EventLoop.next, hp]
  rfl

/-- A timer of no list may change. -/
lemma Links.modify (inv : Links loop rest lists) (ht : ∀ pl, t ∉ lists pl) (f : Timer → Timer) :
    Links (loop.modify t f) rest lists := by
  refine inv.congr (head_congr rfl rfl) (fun pl p hp => ?_) rfl
  rw [EventLoop.next, modify_timerPool_of_ne loop (ne_of_mem_of_not_mem hp (ht pl))]
  rfl

/-- Pushing stays in the pool. -/
lemma Links.bound_push (inv : Links loop rest lists) (htn : t < loop.timerPoolSize.toNat)
    (i pl : Place) (p : Ptr) (hp : p ∈ push lists i t pl) : p < loop.timerPoolSize.toNat := by
  obtain ⟨rfl, _⟩ | hp := mem_push.mp hp
  · exact htn
  · exact inv.bound pl p hp

/-- `timer_insert` puts a timer before the list of its slot. -/
lemma Links.insert (inv : Links loop rest lists) (htn : t < loop.timerPoolSize.toNat)
    (ht : ∀ pl, t ∉ lists pl) :
    Links (timerInsert loop t) rest
      (push lists (.slot (timerSlot loop.currentMs (loop.timerPool t).expiryMs)) t) := by
  have c := inv.toChains.push ht (.slot (timerSlot loop.currentMs (loop.timerPool t).expiryMs))
  refine ⟨?_, ?_⟩
  · rw [head_wheel] at c
    have hh : (timerInsert loop t).head rest = EventLoop.head { loop with
        wheel := update loop.wheel
          (timerSlot loop.currentMs (loop.timerPool t).expiryMs) (some t) } rest :=
      head_congr (timerInsert_wheel loop t) (timerInsert_timerFree loop t)
    rw [hh, timerInsert_next]
    exact c
  · rw [timerInsert_timerPoolSize]
    exact inv.bound_push htn _

/-- A freed timer is before the free list. -/
lemma Links.release (inv : Links loop rest lists) (htn : t < loop.timerPoolSize.toNat)
    (ht : ∀ pl, t ∉ lists pl) : Links (timerRelease loop t) rest (push lists .free t) := by
  have c := inv.toChains.push ht .free
  have hn : (timerRelease loop t).next = update loop.next t (some loop.timerFree) := by
    funext p
    by_cases hp : p = t
    · subst hp
      simp [EventLoop.next, timerRelease]
    · simp [EventLoop.next, timerRelease, hp]
  refine ⟨?_, inv.bound_push htn _⟩
  rw [head_timerFree] at c
  rw [hn]
  exact c

/-- Dropping the head stays in the pool. -/
lemma Links.bound_tail (inv : Links loop rest lists) {i : Place} {r : List Ptr}
    (hi : lists i = t :: r) (pl : Place) (p : Ptr) (hp : p ∈ update lists i r pl) :
    p < loop.timerPoolSize.toNat := by
  by_cases hpl : pl = i
  · subst hpl
    rw [update_self] at hp
    exact inv.bound pl p (hi ▸ List.mem_cons_of_mem t hp)
  · rw [update_of_ne hpl] at hp
    exact inv.bound pl p hp

/-- The head of the free list is taken. -/
lemma Links.popFree (inv : Links loop rest lists) (ht : loop.timerFree = some t) :
    ∃ r, lists .free = t :: r ∧
      Links { loop with timerFree := (loop.timerPool t).next } rest (update lists .free r) ∧
      ∀ pl, t ∉ update lists .free r pl := by
  obtain ⟨q, r, hl, hq, c, hnot⟩ := inv.toChains.pop (i := .free) (p := t) ht
  cases hq
  rw [head_timerFree] at c
  exact ⟨r, hl, ⟨c, inv.bound_tail hl⟩, hnot⟩

/-- The walk takes its first timer. -/
lemma Links.popFlight (inv : Links loop (some t) lists) :
    ∃ r, lists .inFlight = t :: r ∧
      Links loop (loop.timerPool t).next (update lists .inFlight r) ∧
      ∀ pl, t ∉ update lists .inFlight r pl := by
  obtain ⟨q, r, hl, hq, c, hnot⟩ := inv.toChains.pop (i := .inFlight) (p := t) rfl
  cases hq
  rw [head_inFlight] at c
  exact ⟨r, hl, ⟨c, inv.bound_tail hl⟩, hnot⟩

/-- A list in flight that has not been walked to its end is not empty. -/
lemma Links.inFlight_pos (inv : Links loop (some t) lists) : 0 < (lists .inFlight).length := by
  obtain ⟨r, hl, -⟩ := inv.popFlight
  rw [hl]
  exact Nat.succ_pos _

/-! ## Layouts -/

/-- A timer that an insertion arms. -/
lemma Links.arm (inv : Links loop rest lists) (htn : t < loop.timerPoolSize.toNat)
    (ht : ∀ pl, t ∉ lists pl) (hcb : (loop.timerPool t).callback ≠ none)
    (harm : ∀ p, p ≠ t → ArmedOk loop lists p) :
    Layout (timerInsert loop t) rest
      (push lists (.slot (timerSlot loop.currentMs (loop.timerPool t).expiryMs)) t) := by
  refine ⟨inv.insert htn ht, fun p => ?_⟩
  have hcp : ((timerInsert loop t).timerPool p).callback = (loop.timerPool p).callback :=
    congrArg (·.2.2.1) (timerInsert_content loop t p)
  by_cases hp : p = t
  · subst hp
    refine ⟨?_, fun _ => hcp ▸ hcb⟩
    rw [timerInsert_active, if_pos rfl]
    simp only [true_iff]
    exact ⟨_, Place.noConfusion, mem_push.mpr (Or.inl ⟨rfl, rfl⟩)⟩
  · have hiff : Armed (push lists
        (.slot (timerSlot loop.currentMs (loop.timerPool t).expiryMs)) t) p ↔ Armed lists p := by
      simp [Armed, hp]
    obtain ⟨ha, hc⟩ := harm p hp
    refine ⟨?_, fun h => hcp ▸ hc (hiff.mp h)⟩
    rw [timerInsert_active, if_neg hp, hiff]
    exact ha

/-- The flag, the callback and the lists decide. -/
lemma ArmedOk.congr {lists' : Place → List Ptr} {p : Ptr} (h : ArmedOk loop lists p)
    (hiff : Armed lists' p ↔ Armed lists p)
    (ha : (loop'.timerPool p).active = (loop.timerPool p).active)
    (hc : (loop'.timerPool p).callback = (loop.timerPool p).callback) : ArmedOk loop' lists' p := by
  refine ⟨?_, fun hp => ?_⟩
  · rw [ha, hiff]
    exact h.active
  · rw [hc]
    exact h.callback (hiff.mp hp)

/-- A layout only depends on the wheel, the free list and the pool. -/
lemma Layout.of_eq (inv : Layout loop rest lists) (hw : loop'.wheel = loop.wheel)
    (hp : loop'.timerPool = loop.timerPool) (hf : loop'.timerFree = loop.timerFree)
    (hs : loop'.timerPoolSize = loop.timerPoolSize) : Layout loop' rest lists := by
  refine ⟨inv.toLinks.of_eq hw hp hf hs, fun p => (inv.armed p).congr Iff.rfl ?_ ?_⟩
  · rw [hp]
  · rw [hp]

/-- Free timers are idle. -/
lemma Layout.active_of_mem_free (inv : Layout loop rest lists) (ht : t ∈ lists .free) :
    (loop.timerPool t).active = false := by
  rw [← Bool.not_eq_true, (inv.armed t).active]
  rintro ⟨pl, hpl, hp⟩
  exact inv.disjoint pl .free hpl hp ht

/-- The free list has no say in which timers are armed. -/
lemma armed_update_free {r : List Ptr} (p : Ptr) :
    Armed (update lists .free r) p ↔ Armed lists p := by
  refine exists_congr fun pl => and_congr_right fun hpl => ?_
  rw [update_of_ne hpl]

/-- The walk goes on past another timer. -/
lemma armed_update_inFlight {r : List Ptr} (hl : lists .inFlight = t :: r) {p : Ptr} (hp : p ≠ t) :
    Armed (update lists .inFlight r) p ↔ Armed lists p := by
  refine exists_congr fun pl => and_congr_right fun _ => ?_
  by_cases hpl : pl = .inFlight
  · subst hpl
    simp [hl, hp]
  · rw [update_of_ne hpl]

/-- No list is walked over outside of a walk. -/
lemma Links.inFlight_eq_nil (inv : Links loop none lists) : lists .inFlight = [] := by
  have c := inv.chain .inFlight
  cases hl : lists .inFlight with
  | nil => rfl
  | cons _ _ =>
    rw [hl] at c
    cases c

/-- The lists after the one of a slot was detached to be walked over. -/
def detached (lists : Place → List Ptr) (key : Nat × Nat) : Place → List Ptr :=
  update (update lists (.slot key) []) .inFlight (lists (.slot key))

/-- The detached slot is walked over. -/
@[simp] lemma detached_inFlight (key : Nat × Nat) :
    detached lists key .inFlight = lists (.slot key) :=
  update_self _ _ _

/-- Other lists stay. -/
lemma detached_of_ne {key : Nat × Nat} {pl : Place} (hf : pl ≠ .inFlight) (hs : pl ≠ .slot key) :
    detached lists key pl = lists pl := by
  rw [detached, update_of_ne hf, update_of_ne hs]

/-- The detached slot is empty. -/
@[simp] lemma detached_slot (key : Nat × Nat) : detached lists key (.slot key) = [] := by
  rw [detached, update_of_ne Place.noConfusion, update_self]

/-- The timers of a detached list stay armed. -/
lemma armed_detached (hnil : lists .inFlight = []) (key : Nat × Nat) (p : Ptr) :
    Armed (detached lists key) p ↔ Armed lists p := by
  constructor
  · rintro ⟨pl, hpl, hp⟩
    by_cases hf : pl = .inFlight
    · subst hf
      rw [detached_inFlight] at hp
      exact ⟨.slot key, Place.noConfusion, hp⟩
    · by_cases hs : pl = .slot key
      · subst hs
        rw [detached_slot] at hp
        cases hp
      · rw [detached_of_ne hf hs] at hp
        exact ⟨pl, hpl, hp⟩
  · rintro ⟨pl, hpl, hp⟩
    by_cases hs : pl = .slot key
    · subst hs
      exact ⟨.inFlight, Place.noConfusion, by rwa [detached_inFlight]⟩
    · have hf : pl ≠ .inFlight := by
        rintro rfl
        rw [hnil] at hp
        cases hp
      exact ⟨pl, hpl, by rwa [detached_of_ne hf hs]⟩

/-- Detaching a list moves its timers to the list that is walked over. -/
lemma mem_detached (hnil : lists .inFlight = []) (key : Nat × Nat) (p : Ptr) :
    (∃ pl, p ∈ detached lists key pl) ↔ ∃ pl, p ∈ lists pl := by
  have hfree : detached lists key .free = lists .free :=
    detached_of_ne Place.noConfusion Place.noConfusion
  constructor
  · rintro ⟨pl, hp⟩
    by_cases hpl : pl = .free
    · subst hpl
      exact ⟨.free, hfree ▸ hp⟩
    · obtain ⟨pl', _, hp'⟩ := (armed_detached hnil key p).mp ⟨pl, hpl, hp⟩
      exact ⟨pl', hp'⟩
  · rintro ⟨pl, hp⟩
    by_cases hpl : pl = .free
    · subst hpl
      exact ⟨.free, hfree.symm ▸ hp⟩
    · obtain ⟨pl', _, hp'⟩ := (armed_detached hnil key p).mpr ⟨pl, hpl, hp⟩
      exact ⟨pl', hp'⟩

/-- A slot is detached. -/
lemma Links.detach (inv : Links loop none lists) (key : Nat × Nat) :
    Links (detach loop key) (loop.wheel key) (detached lists key) := by
  have c := inv.toChains.transfer (.slot key) .inFlight
  rw [head_wheel, head_inFlight] at c
  refine ⟨c, fun pl p hp => ?_⟩
  obtain ⟨pl', hp'⟩ := (mem_detached inv.inFlight_eq_nil key p).mp ⟨pl, hp⟩
  exact inv.bound pl' p hp'

/-- The list changes its place; nothing else happens to the timers. -/
lemma Layout.detach (inv : Layout loop none lists) (key : Nat × Nat) :
    Layout (detach loop key) (loop.wheel key) (detached lists key) :=
  ⟨inv.toLinks.detach key, fun p =>
    (inv.armed p).congr (armed_detached inv.inFlight_eq_nil key p) rfl rfl⟩

end Lists

/-! ## Creation -/

/-- The lists of a new loop. -/
def newLists (n : Nat) : Place → List Ptr
  | .free => List.range' 0 n
  | _ => []

/-- At first no timer is armed. -/
lemma not_armed_newLists (n : Nat) (p : Ptr) : ¬ Armed (newLists n) p := by
  rintro ⟨pl, hpl, hp⟩
  cases pl with
  | free => exact hpl rfl
  | slot _ => cases hp
  | inFlight => cases hp

/-- In a new loop every timer is free. -/
lemma loopCreate_layout {maxFds : UInt32} {now : UInt64} {loop : EventLoop}
    (h : loopCreate maxFds now = some loop) :
    Layout loop none (newLists loop.timerPoolSize.toNat) := by
  rw [loopCreate] at h
  split at h
  · cases h
  · next hn =>
    cases h
    have hpos : 0 < (timerPoolSize maxFds).toNat := UInt32.pos_iff_ne_zero.mpr hn
    refine ⟨⟨⟨fun pl => ?_, fun i j hij p hi hj => ?_⟩, fun pl p hp => ?_⟩, fun p => ⟨?_, ?_⟩⟩
    · cases pl with
      | slot _ => exact .nil
      | inFlight => exact .nil
      | free =>
        have hfree := chain_range (n := (timerPoolSize maxFds).toNat) (fun i _ => rfl) 0
        rw [if_pos hpos] at hfree
        exact hfree
    · cases i with
      | slot _ => cases hi
      | inFlight => cases hi
      | free =>
        cases j with
        | slot _ => cases hj
        | inFlight => cases hj
        | free => exact hij rfl
    · cases pl with
      | slot _ => cases hp
      | inFlight => cases hp
      | free =>
        obtain ⟨i, hi, rfl⟩ := List.mem_range'.mp hp
        rw [Nat.zero_add, Nat.one_mul]
        exact hi
    · exact ⟨fun h => Bool.noConfusion h, fun h => absurd h (not_armed_newLists _ p)⟩
    · exact fun h => absurd h (not_armed_newLists _ p)

end RoboControl.Timers
