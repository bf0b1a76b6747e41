import Mathlib.Data.List.Perm.Basic
import RoboControl.Timers.Layout

/-!
# What is due, and what was run

An account of the one-shot timers of a loop. Each call of `rc_timer_add` makes one entry that is due
at its expiry time (`EventLoop.dues`); each run of a callback takes one off at its tick
(`EventLoop.shots`); the armed timers hold the others (`EventLoop.pending`). The account balances as
long as a timer only fires at its expiry time, which depends on the places of the timers in the
wheel: `Timely R F` says that the timers in a slot satisfy `R` and those walked over satisfy `F`.
The lemmas follow one timer through `process_timers` for any such predicates.
-/

namespace RoboControl.Timers
open Base Function

/-! ## The account -/

/-- The expiry time that a call of `rc_timer_add` sets. -/
def Added.expiryMs (a : Added) : UInt64 := a.atMs + a.delayMs.toUInt64

/-- The entry of a new one-shot timer. -/
def Added.due (a : Added) : Option (Nat × UInt64) :=
  if a.intervalMs = 0 then some (a.arg, a.expiryMs) else none

/-- The entry that the run of a one-shot timer's callback takes off. -/
def Fired.shot (f : Fired) : Option (Nat × UInt64) :=
  if f.intervalMs = 0 then some (f.arg, f.tick) else none

/-- The entry that an armed one-shot timer holds. -/
def Timer.due (x : Timer) : Option (Nat × UInt64) :=
  if x.active = true ∧ x.intervalMs = 0 then some (x.arg, x.expiryMs) else none

/-- One-shot timers created, with their expiry times. -/
def EventLoop.dues (loop : EventLoop) : List (Nat × UInt64) := loop.added.filterMap Added.due

/-- Callbacks of one-shot timers run, with their ticks. -/
def EventLoop.shots (loop : EventLoop) : List (Nat × UInt64) := loop.fired.filterMap Fired.shot

/-- Armed one-shot timers, with their expiry times. -/
def EventLoop.pending (loop : EventLoop) : List (Nat × UInt64) :=
  (List.range loop.timerPoolSize.toNat).filterMap fun p => (loop.timerPool p).due

/-- What is due depends on the content and the flag. -/
lemma Timer.due_congr {x y : Timer} (hc : x.content = y.content) (ha : x.active = y.active) :
    x.due = y.due := by
  obtain ⟨⟩ := x
  obtain ⟨⟩ := y
  cases hc
  cases ha
  rfl

/-- An idle timer is not due. -/
lemma Timer.due_of_not_active {x : Timer} (h : x.active = false) : x.due = none := by
  simp [Timer.due, h]

/-- A repeating timer is not counted. -/
lemma Timer.due_of_interval {x : Timer} (h : x.intervalMs ≠ 0) : x.due = none := by
  simp [Timer.due, h]

/-- A function that gains a value at one element of a list. -/
lemma filterMap_perm_of_ne {α β : Type*} [DecidableEq α] {f g : α → Option β} {l : List α} {a : α}
    (hl : l.Nodup) (ha : a ∈ l) (hf : f a = none) (h : ∀ b, b ≠ a → g b = f b) :
    (l.filterMap g).Perm ((g a).toList ++ l.filterMap f) := by
  have hperm := List.perm_cons_erase ha
  have herase : ∀ b ∈ l.erase a, g b = f b := fun b hb => h b (hl.mem_erase_iff.mp hb).1
  have hold := hperm.filterMap f
  rw [List.filterMap_cons_none hf] at hold
  have hnew := hperm.filterMap g
  rw [List.filterMap_cons, List.filterMap_congr herase] at hnew
  cases hg : g a with
  | none =>
    rw [hg] at hnew
    exact hnew.trans hold.symm
  | some x =>
    rw [hg] at hnew
    exact hnew.trans (hold.symm.cons x)

lemma expiryMs_eq_of_content {x y : Timer} (h : x.content = y.content) : x.expiryMs = y.expiryMs :=
  congrArg (·.1) h

lemma intervalMs_eq_of_content {x y : Timer} (h : x.content = y.content) :
    x.intervalMs = y.intervalMs :=
  congrArg (·.2.1) h

lemma callback_eq_of_content {x y : Timer} (h : x.content = y.content) : x.callback = y.callback :=
  congrArg (·.2.2.1) h

/-- A change that keeps the content of a timer keeps that of all. -/
lemma modify_content (loop : EventLoop) {t : Ptr} {f : Timer → Timer}
    (hf : (f (loop.timerPool t)).content = (loop.timerPool t).content) (p : Ptr) :
    ((loop.modify t f).timerPool p).content = (loop.timerPool p).content := by
  by_cases hp : p = t
  · subst hp
    rw [modify_timerPool_self]
    exact hf
  · rw [modify_timerPool_of_ne loop hp]

/-- One more element at the end. -/
lemma filterMap_snoc {α β : Type*} (f : α → Option β) (l : List α) (a : α) :
    (l ++ [a]).filterMap f = l.filterMap f ++ (f a).toList := by
  cases h : f a <;> simp [h]

section Pending
variable {loop loop' : EventLoop} {t : Ptr}

/-- What is pending depends on what each timer has due. -/
lemma pending_congr (hs : loop'.timerPoolSize = loop.timerPoolSize)
    (h : ∀ p, (loop'.timerPool p).due = (loop.timerPool p).due) : loop'.pending = loop.pending := by
  rw [EventLoop.pending, EventLoop.pending, hs]
  exact List.filterMap_congr fun p _ => h p

/-- A timer that held nothing and is changed adds what it now holds. -/
lemma pending_perm (hs : loop'.timerPoolSize = loop.timerPoolSize)
    (htn : t < loop.timerPoolSize.toNat) (ht : (loop.timerPool t).due = none)
    (h : ∀ p, p ≠ t → (loop'.timerPool p).due = (loop.timerPool p).due) :
    loop'.pending.Perm ((loop'.timerPool t).due.toList ++ loop.pending) := by
  rw [EventLoop.pending, EventLoop.pending, hs]
  exact filterMap_perm_of_ne List.nodup_range (List.mem_range.mpr htn) ht h

end Pending

/-! ## Timely loops -/

/-- The one-shot timers of the slots satisfy `R`, and those walked over satisfy `F`. -/
structure Located (R : Nat × Nat → UInt64 → Prop) (F : UInt64 → Prop) (loop : EventLoop)
    (lists : Place → List Ptr) : Prop where
  slots : ∀ key, ∀ p ∈ lists (.slot key), (loop.timerPool p).intervalMs = 0 →
    R key (loop.timerPool p).expiryMs
  flight : ∀ p ∈ lists .inFlight, (loop.timerPool p).intervalMs = 0 → F (loop.timerPool p).expiryMs

/-- The one-shot timers are where they should be, and the account balances. -/
structure Timely (R : Nat × Nat → UInt64 → Prop) (F : UInt64 → Prop) (loop : EventLoop)
    (lists : Place → List Ptr) : Prop extends Located R F loop lists where
  balance : loop.dues.Perm (loop.shots ++ loop.pending)

/-- A loop with its lists, timely if all calls of `rc_timer_add` satisfied `G`. -/
structure Inv (G : Added → Prop) (R : Nat × Nat → UInt64 → Prop) (F : UInt64 → Prop)
    (loop : EventLoop) (rest : Option Ptr) (lists : Place → List Ptr) :
    Prop extends Layout loop rest lists where
  timely : (∀ a ∈ loop.added, G a) → Timely R F loop lists

/-- The parts of a loop that walks and calls leave alone; callbacks are run at the current tick. -/
structure Frame (loop loop' : EventLoop) : Prop where
  currentMs : loop'.currentMs = loop.currentMs
  wheelTicks : loop'.wheelTicks = loop.wheelTicks
  timerPoolSize : loop'.timerPoolSize = loop.timerPoolSize
  fired : ∀ f ∈ loop'.fired, f ∈ loop.fired ∨ f.tick = loop.currentMs

/-- Nothing happened. -/
lemma Frame.refl (loop : EventLoop) : Frame loop loop := ⟨rfl, rfl, rfl, fun _ h => Or.inl h⟩

/-- One after the other. -/
lemma Frame.trans {loop₁ loop₂ loop₃ : EventLoop} (h : Frame loop₁ loop₂) (h' : Frame loop₂ loop₃) :
    Frame loop₁ loop₃ := by
  refine ⟨h'.currentMs.trans h.currentMs, h'.wheelTicks.trans h.wheelTicks,
    h'.timerPoolSize.trans h.timerPoolSize, fun f hf => ?_⟩
  obtain hf | hf := h'.fired f hf
  · exact h.fired f hf
  · exact Or.inr (hf.trans h.currentMs)

/-- An insertion fires nothing. -/
lemma Frame.insert (loop : EventLoop) (t : Ptr) (f : Timer → Timer) :
    Frame loop (timerInsert (loop.modify t f) t) :=
  ⟨timerInsert_currentMs _ t, timerInsert_wheelTicks _ t, timerInsert_timerPoolSize _ t,
    fun _ h => Or.inl (timerInsert_fired (loop.modify t f) t ▸ h)⟩

section Moves
variable {G : Added → Prop} {R R' : Nat × Nat → UInt64 → Prop} {F F' : UInt64 → Prop}
  {loop loop' : EventLoop} {rest : Option Ptr} {lists lists' : Place → List Ptr} {t : Ptr}

/-- Timers that stay in their lists with their contents stay where they should be. -/
lemma Located.mono (h : Located R F loop lists)
    (hsub : ∀ pl, pl ≠ .free → ∀ p ∈ lists' pl, p ∈ lists pl ∧
      (loop'.timerPool p).content = (loop.timerPool p).content) : Located R F loop' lists' := by
  refine ⟨fun key p hp hi => ?_, fun p hp hi => ?_⟩
  · obtain ⟨hp, hc⟩ := hsub _ Place.noConfusion p hp
    rw [intervalMs_eq_of_content hc] at hi
    rw [expiryMs_eq_of_content hc]
    exact h.slots key p hp hi
  · obtain ⟨hp, hc⟩ := hsub _ Place.noConfusion p hp
    rw [intervalMs_eq_of_content hc] at hi
    rw [expiryMs_eq_of_content hc]
    exact h.flight p hp hi

/-- A timer goes where it belongs. -/
lemma Located.insert (h : Located R F loop lists)
    (hR : (loop.timerPool t).intervalMs = 0 →
      R (timerSlot loop.currentMs (loop.timerPool t).expiryMs) (loop.timerPool t).expiryMs) :
    Located R F (timerInsert loop t)
      (push lists (.slot (timerSlot loop.currentMs (loop.timerPool t).expiryMs)) t) := by
  refine ⟨fun key p hp hi => ?_, fun p hp hi => ?_⟩
  · have hc := timerInsert_content loop t p
    rw [intervalMs_eq_of_content hc] at hi
    rw [expiryMs_eq_of_content hc]
    obtain ⟨rfl, he⟩ | hp := mem_push.mp hp
    · cases he
      exact hR hi
    · exact h.slots key p hp hi
  · have hc := timerInsert_content loop t p
    rw [intervalMs_eq_of_content hc] at hi
    rw [expiryMs_eq_of_content hc]
    exact h.flight p ((mem_push.mp hp).resolve_left fun e => Place.noConfusion e.2) hi

/-- A timer of no list may change. -/
lemma Located.modify (h : Located R F loop lists) (hnot : ∀ pl, t ∉ lists pl) (f : Timer → Timer) :
    Located R F (loop.modify t f) lists :=
  h.mono fun pl _ p hp => by
    rw [modify_timerPool_of_ne loop (ne_of_mem_of_not_mem hp (hnot pl))]
    exact ⟨hp, rfl⟩

/-- The walk goes on. -/
lemma Located.tail (h : Located R F loop lists) {r : List Ptr} (hl : lists .inFlight = t :: r) :
    Located R F loop (update lists .inFlight r) := by
  refine h.mono fun pl _ p hp => ⟨?_, rfl⟩
  by_cases hpl : pl = .inFlight
  · subst hpl
    rw [update_self] at hp
    exact hl ▸ List.mem_cons_of_mem t hp
  · rwa [update_of_ne hpl] at hp

/-- Another timer may change. -/
lemma ArmedOk.modify {p : Ptr} (h : ArmedOk loop lists p) (hp : p ≠ t)
    (hiff : Armed lists' p ↔ Armed lists p) (f : Timer → Timer) :
    ArmedOk (loop.modify t f) lists' p :=
  h.congr hiff (by rw [modify_timerPool_of_ne loop hp]) (by rw [modify_timerPool_of_ne loop hp])

/-- The walk puts a timer back into the wheel. -/
lemma Inv.relink (inv : Inv G R F loop (some t) lists) {f : Timer → Timer}
    (hf : (f (loop.timerPool t)).content = (loop.timerPool t).content)
    (hR : F (loop.timerPool t).expiryMs →
      R (timerSlot loop.currentMs (loop.timerPool t).expiryMs) (loop.timerPool t).expiryMs) :
    ∃ lists', Inv G R F (timerInsert (loop.modify t f) t) (loop.timerPool t).next lists' ∧
      lists .inFlight = t :: lists' .inFlight := by
  obtain ⟨r, hl, links, hnot⟩ := inv.toLinks.popFlight
  have hmem : t ∈ lists .inFlight := hl ▸ List.mem_cons_self
  have harmed : Armed lists t := ⟨.inFlight, Place.noConfusion, hmem⟩
  have hc := modify_content loop hf
  have hcb : ((loop.modify t f).timerPool t).callback ≠ none := by
    rw [callback_eq_of_content (hc t)]
    exact (inv.armed t).callback harmed
  have lay := (links.modify hnot f).arm (inv.bound _ t hmem) hnot hcb fun p hp =>
    (inv.armed p).modify hp (armed_update_inFlight hl hp) f
  -- The timer is active before and after, and holds the same entry.
  have hpend : (timerInsert (loop.modify t f) t).pending = loop.pending := by
    refine pending_congr (timerInsert_timerPoolSize _ t) fun p =>
      Timer.due_congr ((timerInsert_content _ t p).trans (hc p)) ?_
    rw [timerInsert_active]
    by_cases hp : p = t
    · subst hp
      rw [if_pos rfl, (inv.armed p).active.mpr harmed]
    · rw [if_neg hp, modify_timerPool_of_ne loop hp]
  refine ⟨_, ⟨lay, fun hg => ?_⟩, by simp [push, hl]⟩
  rw [timerInsert_added] at hg
  have ht := inv.timely hg
  refine ⟨((ht.toLocated.tail hl).modify hnot f).insert fun hi => ?_, ?_⟩
  · rw [intervalMs_eq_of_content (hc t)] at hi
    rw [expiryMs_eq_of_content (hc t)]
    exact hR (ht.flight t hmem hi)
  · rw [EventLoop.dues, EventLoop.shots, timerInsert_added, timerInsert_fired, hpend]
    exact ht.balance

/-- The walk takes a timer that has expired, and its callback is run. -/
lemma Inv.expire (inv : Inv G R F loop (some t) lists) {f : Timer → Timer}
    (hf : (f (loop.timerPool t)).content = (loop.timerPool t).content)
    (hfa : (f (loop.timerPool t)).active = false)
    (hF : F (loop.timerPool t).expiryMs → (loop.timerPool t).expiryMs = loop.currentMs) :
    ∃ lists', Inv G R F { loop.modify t f with
        fired := loop.fired ++
          [⟨(loop.timerPool t).intervalMs, (loop.timerPool t).arg, loop.currentMs⟩] }
        (loop.timerPool t).next lists' ∧
      lists .inFlight = t :: lists' .inFlight ∧ ∀ pl, t ∉ lists' pl := by
  obtain ⟨r, hl, links, hnot⟩ := inv.toLinks.popFlight
  have hmem : t ∈ lists .inFlight := hl ▸ List.mem_cons_self
  have hact : (loop.timerPool t).active = true :=
    (inv.armed t).active.mpr ⟨.inFlight, Place.noConfusion, hmem⟩
  have lay : Layout (loop.modify t f) (loop.timerPool t).next (update lists .inFlight r) := by
    refine ⟨links.modify hnot f, fun p => ?_⟩
    by_cases hp : p = t
    · subst hp
      have hna : ¬ Armed (update lists .inFlight r) p := fun ⟨pl, _, h⟩ => hnot pl h
      refine ⟨?_, fun h => absurd h hna⟩
      rw [modify_timerPool_self, hfa]
      exact ⟨fun h => Bool.noConfusion h, fun h => absurd h hna⟩
    · exact (inv.armed p).modify hp (armed_update_inFlight hl hp) f
  have hpend : loop.pending.Perm ((loop.timerPool t).due.toList ++ (loop.modify t f).pending) := by
    refine pending_perm rfl (inv.bound _ t hmem) (Timer.due_of_not_active ?_) fun p hp => ?_
    · rw [modify_timerPool_self, hfa]
    · rw [modify_timerPool_of_ne loop hp]
  refine ⟨_, ⟨lay.of_eq rfl rfl rfl rfl, fun hg => ?_⟩, by simp [hl], hnot⟩
  have ht := inv.timely hg
  obtain ⟨hslots, hflight⟩ := (ht.toLocated.tail hl).modify hnot f
  refine ⟨⟨hslots, hflight⟩, ?_⟩
  -- A one-shot timer fires at its expiry time, so that what it held is what is taken off.
  have hdue : (loop.timerPool t).due =
      Fired.shot ⟨(loop.timerPool t).intervalMs, (loop.timerPool t).arg, loop.currentMs⟩ := by
    by_cases hi : (loop.timerPool t).intervalMs = 0
    · simp [Timer.due, Fired.shot, hact, hi, hF (ht.flight t hmem hi)]
    · simp [Timer.due, Fired.shot, hi]
  refine (ht.balance.trans (hpend.append_left _)).trans ?_
  rw [hdue, ← List.append_assoc]
  dsimp only [EventLoop.shots]
  rw [filterMap_snoc]
  exact List.Perm.refl _

/-- A timer of no list is freed. -/
lemma Inv.release (inv : Inv G R F loop rest lists) (htn : t < loop.timerPoolSize.toNat)
    (hnot : ∀ pl, t ∉ lists pl) :
    Inv G R F (timerRelease loop t) rest (push lists .free t) := by
  have hc := modify_content loop (t := t) (f := ({ · with next := loop.timerFree })) rfl
  have ha : ∀ p, ((timerRelease loop t).timerPool p).active = (loop.timerPool p).active := by
    intro p
    by_cases hp : p = t
    · subst hp
      simp [timerRelease]
    · simp [timerRelease, hp]
  have hpend : (timerRelease loop t).pending = loop.pending :=
    pending_congr rfl fun p => Timer.due_congr (hc p) (ha p)
  refine ⟨⟨inv.toLinks.release htn hnot, fun p => ?_⟩, fun hg => ⟨?_, ?_⟩⟩
  · exact (inv.armed p).congr (armed_update_free p) (ha p) (callback_eq_of_content (hc p))
  · refine (inv.timely hg).toLocated.mono fun pl hpl p hp => ⟨?_, hc p⟩
    exact (mem_push.mp hp).resolve_left fun e => hpl e.2
  · rw [hpend]
    exact (inv.timely hg).balance

/-- A repeating timer is armed again. -/
lemma Inv.rearm (inv : Inv G R F loop rest lists) (htn : t < loop.timerPoolSize.toNat)
    (hnot : ∀ pl, t ∉ lists pl) (hi : (loop.timerPool t).intervalMs ≠ 0)
    (hcb : (loop.timerPool t).callback ≠ none) (expiryMs : UInt64) :
    ∃ lists', Inv G R F (timerInsert (loop.modify t ({ · with expiryMs := expiryMs })) t) rest
      lists' ∧
      lists' .inFlight = lists .inFlight := by
  have hi₁ : ((loop.modify t ({ · with expiryMs := expiryMs })).timerPool t).intervalMs ≠ 0 := by
    rw [modify_timerPool_self]
    exact hi
  have lay := (inv.toLinks.modify hnot ({ · with expiryMs := expiryMs })).arm htn hnot
    (by rw [modify_timerPool_self]; exact hcb) fun p hp => (inv.armed p).modify hp Iff.rfl _
  -- A repeating timer holds no entry, and the account does not see its new expiry time.
  have hpend : (timerInsert (loop.modify t ({ · with expiryMs := expiryMs })) t).pending =
      loop.pending := by
    refine pending_congr (timerInsert_timerPoolSize _ t) fun p => ?_
    by_cases hp : p = t
    · subst hp
      rw [Timer.due_of_interval hi, Timer.due_of_interval]
      rwa [intervalMs_eq_of_content (timerInsert_content _ p p)]
    · refine Timer.due_congr ?_ ?_
      · rw [timerInsert_content, modify_timerPool_of_ne loop hp]
      · rw [timerInsert_active, if_neg hp, modify_timerPool_of_ne loop hp]
  refine ⟨_, ⟨lay, fun hg => ?_⟩, by simp [push]⟩
  rw [timerInsert_added] at hg
  have ht := inv.timely hg
  refine ⟨(ht.toLocated.modify hnot _).insert fun h => absurd h hi₁, ?_⟩
  rw [EventLoop.dues, EventLoop.shots, timerInsert_added, timerInsert_fired, hpend]
  exact ht.balance

/-! ## Calls -/

/-- What calls leave alone: the clock, the list that is walked over, and the timers of no list. -/
structure Beside (loop : EventLoop) (lists : Place → List Ptr) (loop' : EventLoop)
    (lists' : Place → List Ptr) : Prop extends Frame loop loop' where
  quiet : loop'.fired = loop.fired
  inFlight : lists' .inFlight = lists .inFlight
  other : ∀ t, (∀ pl, t ∉ lists pl) →
    (∀ pl, t ∉ lists' pl) ∧ (loop'.timerPool t).content = (loop.timerPool t).content

/-- Nothing happened. -/
lemma Beside.refl (loop : EventLoop) (lists : Place → List Ptr) : Beside loop lists loop lists :=
  ⟨Frame.refl loop, rfl, rfl, fun _ h => ⟨h, rfl⟩⟩

/-- One after the other. -/
lemma Beside.trans {loop₁ loop₂ loop₃ : EventLoop} {lists₁ lists₂ lists₃ : Place → List Ptr}
    (h : Beside loop₁ lists₁ loop₂ lists₂) (h' : Beside loop₂ lists₂ loop₃ lists₃) :
    Beside loop₁ lists₁ loop₃ lists₃ := by
  refine ⟨h.toFrame.trans h'.toFrame, h'.quiet.trans h.quiet, h'.inFlight.trans h.inFlight,
    fun t ht => ?_⟩
  obtain ⟨ht₂, hc₂⟩ := h.other t ht
  obtain ⟨ht₃, hc₃⟩ := h'.other t ht₂
  exact ⟨ht₃, hc₃.trans hc₂⟩

/-- The timer that `rc_timer_add` takes, before it is inserted. -/
def newTimer (loop : EventLoop) (d i : UInt32) (f arg : Nat) : Timer where
  expiryMs := loop.currentMs + d.toUInt64
  intervalMs := i
  callback := some f
  arg := arg

/-- The loop before `rc_timer_add` inserts the timer `t`. -/
def taken (loop : EventLoop) (t : Ptr) (d i : UInt32) (f arg : Nat) : EventLoop :=
  EventLoop.modify { loop with timerFree := (loop.timerPool t).next } t
    fun _ => newTimer loop d i f arg

/-- An added timer is taken from the free list and inserted. -/
lemma apply_add (hfree : loop.timerFree = some t) (b : Bool) (d i : UInt32) (f arg : Nat) :
    (TimerCall.add d i (some f) arg).apply b loop =
      { timerInsert (taken loop t d i f arg) t with
        added := loop.added ++ [⟨d, i, arg, loop.currentMs, b⟩] } := by
  simp only [TimerCall.apply, timerAdd, hfree, timerInsert_added]
  rfl

/-- The timer that is taken is new. -/
lemma taken_self (d i : UInt32) (f arg : Nat) :
    (taken loop t d i f arg).timerPool t = newTimer loop d i f arg :=
  modify_timerPool_self _ t _

/-- The others are not touched. -/
lemma taken_of_ne {p : Ptr} (hp : p ≠ t) (d i : UInt32) (f arg : Nat) :
    (taken loop t d i f arg).timerPool p = loop.timerPool p :=
  modify_timerPool_of_ne _ hp _

/-- What an added timer makes pending. -/
lemma pending_taken (htn : t < loop.timerPoolSize.toNat) (ha : (loop.timerPool t).active = false)
    (b : Bool) (d i : UInt32) (f arg : Nat) :
    (timerInsert (taken loop t d i f arg) t).pending.Perm
      ((Added.due ⟨d, i, arg, loop.currentMs, b⟩).toList ++ loop.pending) := by
  have hdue : ((timerInsert (taken loop t d i f arg) t).timerPool t).due =
      Added.due ⟨d, i, arg, loop.currentMs, b⟩ := by
    obtain ⟨prev, h⟩ := timerInsert_timerPool (taken loop t d i f arg) t t
    rw [h, taken_self]
    simp [Timer.due, Added.due, Added.expiryMs, newTimer]
  rw [← hdue]
  refine pending_perm (timerInsert_timerPoolSize _ t) htn (Timer.due_of_not_active ha) fun p hp =>
    ?_
  refine Timer.due_congr ?_ ?_
  · rw [timerInsert_content, taken_of_ne hp]
  · rw [timerInsert_active, if_neg hp, taken_of_ne hp]

/-- A timer of no list is in none of the shorter ones. -/
lemma not_mem_update_tail {i : Place} {r : List Ptr} {p : Ptr} (hl : lists i = t :: r)
    (hp : ∀ pl, p ∉ lists pl) (pl : Place) : p ∉ update lists i r pl := by
  by_cases hpl : pl = i
  · subst hpl
    rw [update_self]
    exact fun h => hp pl (hl ▸ List.mem_cons_of_mem t h)
  · rw [update_of_ne hpl]
    exact hp pl

/-- `rc_timer_add` takes a free timer, if there is one, and puts it where `R` allows. -/
lemma Inv.add (inv : Inv G R F loop rest lists) (b : Bool) (d i : UInt32) (cb : Option Nat)
    (arg : Nat) (hR : G ⟨d, i, arg, loop.currentMs, b⟩ → i = 0 →
      R (timerSlot loop.currentMs (loop.currentMs + d.toUInt64)) (loop.currentMs + d.toUInt64)) :
    ∃ lists', Inv G R F ((TimerCall.add d i cb arg).apply b loop) rest lists' ∧
      Beside loop lists ((TimerCall.add d i cb arg).apply b loop) lists' := by
  cases cb with
  | none => exact ⟨lists, inv, Beside.refl loop lists⟩
  | some f =>
    cases hfree : loop.timerFree with
    | none =>
      have he : (TimerCall.add d i (some f) arg).apply b loop = loop := by
        simp [TimerCall.apply, timerAdd, hfree]
      rw [he]
      exact ⟨lists, inv, Beside.refl loop lists⟩
    | some t =>
      rw [apply_add hfree]
      obtain ⟨r, hl, links, hnot⟩ := inv.toLinks.popFree hfree
      have hmem : t ∈ lists .free := hl ▸ List.mem_cons_self
      have htn := inv.bound _ t hmem
      have lay := (links.modify hnot fun _ => newTimer loop d i f arg).arm htn hnot
        (by rw [modify_timerPool_self]; exact Option.some_ne_none f) fun p hp =>
        (inv.armed p).congr (armed_update_free p) (congrArg Timer.active (taken_of_ne hp d i f arg))
          (congrArg Timer.callback (taken_of_ne hp d i f arg))
      refine ⟨_, ⟨lay.of_eq rfl rfl rfl rfl, fun hg => ?_⟩,
        ⟨⟨timerInsert_currentMs _ t, timerInsert_wheelTicks _ t, timerInsert_timerPoolSize _ t,
          fun _ h => Or.inl (timerInsert_fired (taken loop t d i f arg) t ▸ h)⟩,
          timerInsert_fired _ t, by simp [push], fun p hp => ?_⟩⟩
      · obtain ⟨hgold, hgnew⟩ := List.forall_mem_append.mp hg
        have ht := inv.timely hgold
        have hloc : Located R F { loop with timerFree := (loop.timerPool t).next }
            (update lists .free r) := ht.toLocated.mono fun pl hpl p hp =>
          ⟨by rwa [update_of_ne hpl] at hp, rfl⟩
        obtain ⟨hslots, hflight⟩ := (hloc.modify hnot fun _ => newTimer loop d i f arg).insert
          (t := t) (by
            rw [modify_timerPool_self]
            exact hR (hgnew _ (List.mem_singleton_self _)))
        refine ⟨⟨hslots, hflight⟩, ?_⟩
        have hpend := pending_taken htn (inv.active_of_mem_free hmem) b d i f arg
        dsimp only [EventLoop.dues, EventLoop.shots]
        rw [filterMap_snoc, timerInsert_fired]
        refine (ht.balance.append_right _).trans ?_
        rw [List.append_assoc]
        exact (List.perm_append_comm.trans hpend.symm).append_left _
      · have hpt : p ≠ t := fun e => hp .free (e ▸ hmem)
        refine ⟨fun pl hpl => ?_, ?_⟩
        · exact not_mem_update_tail hl hp pl ((mem_push.mp hpl).resolve_left fun e => hpt e.1)
        · exact (timerInsert_content _ t p).trans
            (congrArg Timer.content (taken_of_ne hpt d i f arg))

/-- A call of `rc_timer_add`. -/
def TimerCall.IsAdd : TimerCall → Prop
  | .add .. => True
  | _ => False

/-- Calls that add timers keep the invariant. -/
lemma Inv.calls (inv : Inv G R F loop rest lists) (b : Bool) {cs : List TimerCall}
    (hcs : ∀ c ∈ cs, c.IsAdd)
    (hR : ∀ d arg, G ⟨d, 0, arg, loop.currentMs, b⟩ →
      R (timerSlot loop.currentMs (loop.currentMs + d.toUInt64)) (loop.currentMs + d.toUInt64)) :
    ∃ lists', Inv G R F (cs.foldl (TimerCall.apply b) loop) rest lists' ∧
      Beside loop lists (cs.foldl (TimerCall.apply b) loop) lists' := by
  induction cs generalizing loop lists with
  | nil => exact ⟨lists, inv, Beside.refl loop lists⟩
  | cons c cs ih =>
    obtain ⟨hc, hcs'⟩ := List.forall_mem_cons.mp hcs
    cases c with
    | cancel _ => exact hc.elim
    | rearm _ _ => exact hc.elim
    | add d i cb arg =>
      obtain ⟨lists₁, inv₁, h₁⟩ := inv.add b d i cb arg fun hg hi => by
        subst hi
        exact hR d arg hg
      obtain ⟨lists₂, inv₂, h₂⟩ := ih inv₁ hcs' (by rw [h₁.currentMs]; exact hR)
      exact ⟨lists₂, inv₂, h₁.trans h₂⟩

/-! ## Walks -/

/-- A slot is detached to be walked over. -/
lemma Inv.detach (inv : Inv G R F loop none lists) (key : Nat × Nat)
    (hR : ∀ key', key' ≠ key → ∀ e, R key' e → R' key' e) (hF : ∀ e, R key e → F' e) :
    Inv G R' F' (detach loop key) (loop.wheel key) (detached lists key) := by
  refine ⟨inv.toLayout.detach key, fun hg => ⟨⟨fun key' p hp hi => ?_, fun p hp hi => ?_⟩, ?_⟩⟩
  · by_cases hk : key' = key
    · subst hk
      rw [detached_slot] at hp
      cases hp
    · rw [detached_of_ne Place.noConfusion fun e => hk (Place.slot.inj e)] at hp
      exact hR key' hk _ ((inv.timely hg).slots key' p hp hi)
  · rw [detached_inFlight] at hp
    exact hF _ ((inv.timely hg).slots key p hp hi)
  · exact (inv.timely hg).balance

/-- A weaker rule for the slots. -/
lemma Inv.mono (inv : Inv G R F loop rest lists) (hR : ∀ key e, R key e → R' key e) :
    Inv G R' F loop rest lists := by
  refine ⟨inv.toLayout, fun hg => ⟨⟨fun key p hp hi => ?_, (inv.timely hg).flight⟩, ?_⟩⟩
  · exact hR key _ ((inv.timely hg).slots key p hp hi)
  · exact (inv.timely hg).balance

/-- After a walk nothing is said of the timers walked over. -/
lemma Inv.flight_irrel (inv : Inv G R F loop none lists) : Inv G R F' loop none lists := by
  refine ⟨inv.toLayout, fun hg => ⟨⟨(inv.timely hg).slots, fun p hp => ?_⟩,
    (inv.timely hg).balance⟩⟩
  rw [inv.inFlight_eq_nil] at hp
  cases hp

/-- The timers of a higher slot are inserted anew, where `R` allows. -/
lemma Inv.reinsert (inv : Inv G R F loop rest lists) {fuel : Nat}
    (hfuel : (lists .inFlight).length ≤ fuel)
    (hR : ∀ e, F e → R (timerSlot loop.currentMs e) e) :
    ∃ loop' lists', reinsert fuel loop rest = some loop' ∧ Inv G R F loop' none lists' ∧
      Frame loop loop' ∧ loop'.fired = loop.fired := by
  induction fuel generalizing loop rest lists with
  | zero =>
    cases rest with
    | none => exact ⟨loop, lists, rfl, inv, Frame.refl loop, rfl⟩
    | some t => exact absurd hfuel inv.toLinks.inFlight_pos.not_ge
  | succ fuel ih =>
    cases rest with
    | none => exact ⟨loop, lists, rfl, inv, Frame.refl loop, rfl⟩
    | some t =>
      obtain ⟨lists₁, inv₁, hl⟩ := inv.relink (f := ({ · with next := none, prev := none })) rfl
        (hR _)
      rw [hl] at hfuel
      have hframe := Frame.insert loop t ({ · with next := none, prev := none })
      obtain ⟨loop₂, lists₂, h₂, inv₂, hframe₂, hfired⟩ := ih inv₁ (Nat.le_of_succ_le_succ hfuel)
        (by rw [hframe.currentMs]; exact hR)
      exact ⟨loop₂, lists₂, h₂, inv₂, hframe.trans hframe₂, hfired.trans (timerInsert_fired _ t)⟩

/-- The clock and the cursors are not part of it. -/
lemma Inv.of_eq (inv : Inv G R F loop rest lists) (currentMs : UInt64) (wheelTicks : Nat → UInt32) :
    Inv G R F { loop with currentMs := currentMs, wheelTicks := wheelTicks } rest lists := by
  refine ⟨inv.toLayout.of_eq rfl rfl rfl rfl, fun hg => ?_⟩
  obtain ⟨⟨hslots, hflight⟩, hbal⟩ := inv.timely hg
  exact ⟨⟨hslots, hflight⟩, hbal⟩

/-- No list is longer than the pool. -/
lemma Inv.length_le (inv : Inv G R F loop rest lists) (pl : Place) :
    (lists pl).length ≤ loop.timerPoolSize.toNat :=
  (inv.chain pl).length_le (inv.bound pl)

/-- A level is cascaded while its cursor is in range: its slot is emptied, and `R'` may say more of
what is in it afterwards. -/
lemma Inv.cascadeLevel (inv : Inv G R F loop none lists) (lvl : Nat) {key : Nat × Nat}
    (hkey : key = (lvl, (loop.wheelTicks lvl).toNat)) (hs : key.2 < timerSlots)
    (R' : Nat × Nat → UInt64 → Prop) (hR : ∀ key', key' ≠ key → ∀ e, R key' e → R' key' e)
    (hF : ∀ e, R key e → R' (timerSlot loop.currentMs e) e) :
    ∃ loop' lists', cascadeLevel loop lvl = some loop' ∧ Inv G R' F loop' none lists' ∧
      loop'.currentMs = loop.currentMs ∧ loop'.fired = loop.fired ∧
      loop'.wheelTicks = update loop.wheelTicks lvl (loop.wheelTicks lvl + 1) := by
  subst hkey
  have inv₁ := (inv.of_eq loop.currentMs
    (update loop.wheelTicks lvl (loop.wheelTicks lvl + 1))).detach
    (lvl, (loop.wheelTicks lvl).toNat) hR hF
  obtain ⟨loop₂, lists₂, h₂, inv₂, hframe, hfired⟩ :=
    inv₁.reinsert (inv₁.length_le .inFlight) fun _ h => h
  refine ⟨loop₂, lists₂, ?_, inv₂.flight_irrel, hframe.currentMs, hfired, hframe.wheelTicks⟩
  rw [Timers.cascadeLevel, if_neg (Nat.not_le.mpr hs)]
  exact h₂

variable {calls : Nat → List TimerCall}

/-- What follows a callback keeps the invariant. -/
lemma Inv.settle (inv : Inv G R F loop rest lists) (htn : t < loop.timerPoolSize.toNat)
    (hnot : ∀ pl, t ∉ lists pl) (hcb : (loop.timerPool t).callback ≠ none) :
    ∃ lists', Inv G R F (settle loop t) rest lists' ∧ Frame loop (settle loop t) ∧
      lists' .inFlight = lists .inFlight := by
  rw [Timers.settle]
  split
  · next hi =>
    obtain ⟨lists', inv', hl⟩ := inv.rearm htn hnot (UInt32.pos_iff_ne_zero.mp hi) hcb
      (loop.currentMs + (loop.timerPool t).intervalMs.toUInt64)
    exact ⟨lists', inv', Frame.insert loop t _, hl⟩
  · exact ⟨_, inv.release htn hnot, ⟨rfl, rfl, rfl, fun _ h => Or.inl h⟩, by simp [push]⟩

/-- A timer that has expired is run, and armed again or freed. -/
lemma Inv.fire (inv : Inv G R F loop (some t) lists) (hcalls : ∀ n, ∀ c ∈ calls n, c.IsAdd)
    (hF : F (loop.timerPool t).expiryMs → (loop.timerPool t).expiryMs = loop.currentMs)
    (hadd : ∀ d arg, G ⟨d, 0, arg, loop.currentMs, true⟩ →
      R (timerSlot loop.currentMs (loop.currentMs + d.toUInt64)) (loop.currentMs + d.toUInt64)) :
    ∃ loop' lists', fire calls (loop.modify t ({ · with next := none, prev := none })) t =
      some loop' ∧
      Inv G R F loop' (loop.timerPool t).next lists' ∧ Frame loop loop' ∧
      lists .inFlight = t :: lists' .inFlight := by
  have hmem : t ∈ lists .inFlight := by
    obtain ⟨r, hl, _⟩ := inv.toLinks.popFlight
    exact hl ▸ List.mem_cons_self
  have hcb := (inv.armed t).callback ⟨.inFlight, Place.noConfusion, hmem⟩
  obtain ⟨lists₁, inv₁, hl₁, hnot₁⟩ := inv.expire
    (f := ({ · with next := none, prev := none, active := false })) rfl rfl hF
  -- While the callback runs, `t` is in no list: its calls cannot touch it.
  obtain ⟨lists₂, inv₂, hb⟩ := inv₁.calls true (hcalls loop.fired.length) hadd
  obtain ⟨hnot₂, hc₂⟩ := hb.other t hnot₁
  have hcb₂ := callback_eq_of_content hc₂
  rw [modify_timerPool_self] at hcb₂
  obtain ⟨lists₃, inv₃, hframe, hl₃⟩ := inv₂.settle
    ((inv.bound _ t hmem).trans_eq (congrArg UInt32.toNat hb.timerPoolSize.symm)) hnot₂
    (by rw [hcb₂]; exact hcb)
  have hframe₁ :
    Frame loop { loop.modify t ({ · with next := none, prev := none, active := false }) with
      fired := loop.fired ++
        [⟨(loop.timerPool t).intervalMs, (loop.timerPool t).arg, loop.currentMs⟩] } := by
    refine ⟨rfl, rfl, rfl, fun f hf => ?_⟩
    obtain hf | hf := List.mem_append.mp hf
    · exact Or.inl hf
    · rw [List.mem_singleton.mp hf]
      exact Or.inr rfl
  refine ⟨_, lists₃, ?_, inv₃, (hframe₁.trans hb.toFrame).trans hframe, ?_⟩
  · rw [Timers.fire]
    dsimp only
    rw [modify_modify, modify_timerPool_self, if_neg hcb, runCallback, modify_timerPool_self]
    rfl
  · rw [hl₁, hl₃, hb.inFlight]

/-- One step of the walk over a slot. -/
lemma Inv.walkStep (inv : Inv G R F loop (some t) lists) (hcalls : ∀ n, ∀ c ∈ calls n, c.IsAdd)
    (hF : ∀ e, F e → e ≤ loop.currentMs → e = loop.currentMs)
    (hR : ∀ e, F e → loop.currentMs < e → R (timerSlot loop.currentMs e) e)
    (hadd : ∀ d arg, G ⟨d, 0, arg, loop.currentMs, true⟩ →
      R (timerSlot loop.currentMs (loop.currentMs + d.toUInt64)) (loop.currentMs + d.toUInt64)) :
    ∃ loop' lists', walkStep calls loop t = some loop' ∧
      Inv G R F loop' (loop.timerPool t).next lists' ∧ Frame loop loop' ∧
      lists .inFlight = t :: lists' .inFlight := by
  rw [Timers.walkStep, modify_timerPool_self]
  split
  · next he => exact inv.fire hcalls (fun h => hF _ h he) hadd
  · next he =>
    obtain ⟨lists', inv', hl⟩ := inv.relink (f := ({ · with next := none, prev := none })) rfl
      fun h => hR _ h (UInt64.not_le.mp he)
    exact ⟨_, lists', rfl, inv', Frame.insert loop t _, hl⟩

/-- The walk over a slot: `F` says which of its timers fire now, `R` where the others may go. -/
lemma Inv.walk (inv : Inv G R F loop rest lists) {fuel : Nat}
    (hfuel : (lists .inFlight).length ≤ fuel) (hcalls : ∀ n, ∀ c ∈ calls n, c.IsAdd)
    (hF : ∀ e, F e → e ≤ loop.currentMs → e = loop.currentMs)
    (hR : ∀ e, F e → loop.currentMs < e → R (timerSlot loop.currentMs e) e)
    (hadd : ∀ d arg, G ⟨d, 0, arg, loop.currentMs, true⟩ →
      R (timerSlot loop.currentMs (loop.currentMs + d.toUInt64)) (loop.currentMs + d.toUInt64)) :
    ∃ loop' lists', walk calls fuel loop rest = some loop' ∧ Inv G R F loop' none lists' ∧
      Frame loop loop' := by
  induction fuel generalizing loop rest lists with
  | zero =>
    cases rest with
    | none => exact ⟨loop, lists, rfl, inv, Frame.refl loop⟩
    | some t => exact absurd hfuel inv.toLinks.inFlight_pos.not_ge
  | succ fuel ih =>
    cases rest with
    | none => exact ⟨loop, lists, rfl, inv, Frame.refl loop⟩
    | some t =>
      -- One timer leaves the list in flight; timers that its callback adds do not enter it.
      obtain ⟨loop₁, lists₁, h₁, inv₁, hframe₁, hl⟩ := inv.walkStep hcalls hF hR hadd
      rw [hl] at hfuel
      rw [← hframe₁.currentMs] at hF hR hadd
      obtain ⟨loop₂, lists₂, h₂, inv₂, hframe₂⟩ :=
        ih inv₁ (Nat.le_of_succ_le_succ hfuel) hF hR hadd
      refine ⟨loop₂, lists₂, ?_, inv₂, hframe₁.trans hframe₂⟩
      rw [Timers.walk, h₁]
      exact h₂

end Moves

end RoboControl.Timers
