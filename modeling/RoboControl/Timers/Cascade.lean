import RoboControl.Timers.Exact
import RoboControl.Timers.Partition

/-!
# Cascades stay in the wheel

`process_timers` takes the index of the slot that it cascades from a counter that is never reduced.
The cascade with number 256 of a loop reads `wheel[1][256]`, which is no slot of level 1. Up to that
tick, the `horizon` of the loop, every index is below `RC_TIMER_SLOTS`, and every active timer is in
the list of a slot of the wheel, provided that the timers which are cancelled or rearmed can be
unlinked (`timer_cascade_in_wheel_iff`). `processSlots` are the slots that the cascades of a pass
access.
-/

namespace RoboControl.Timers
open Base Function

/-- An element of the array `wheel`. -/
def InWheel (key : Nat × Nat) : Prop := key.1 < timerLevels ∧ key.2 < timerSlots

instance (key : Nat × Nat) : Decidable (InWheel key) := inferInstanceAs (Decidable (_ ∧ _))

/-- Every active timer is in the list of a slot of the wheel. -/
def EventLoop.AllReachable (loop : EventLoop) : Prop :=
  ∀ p, (loop.timerPool p).active = true →
    ∃ key, InWheel key ∧ ∃ l, Chain loop.next (loop.wheel key) l ∧ p ∈ l

/-- Every computed slot is in the wheel. -/
lemma timerSlot_inWheel (c e : UInt64) : InWheel (timerSlot c e) := by
  have hmod : ∀ n, n % timerSlots < timerSlots := fun n => Nat.mod_lt n (by decide)
  rw [timerSlot]
  split
  · exact ⟨show 0 < timerLevels by decide, hmod _⟩
  split
  · exact ⟨show 1 < timerLevels by decide, hmod _⟩
  split
  · exact ⟨show 2 < timerLevels by decide, hmod _⟩
  · exact ⟨show 3 < timerLevels by decide, hmod _⟩

/-! ## The slots of a pass -/

/-- The slots that a cascade accesses, each as its level and the index, in bounds or not. -/
def cascadeSlots : List Nat → EventLoop → List (Nat × Nat)
  | [], _ => []
  | lvl :: lvls, loop =>
    (lvl, (loop.wheelTicks lvl).toNat) ::
      match cascadeLevel loop lvl with
      | none => []
      | some loop =>
        if (loop.wheelTicks lvl).toNat % timerSlots ≠ 0 then [] else cascadeSlots lvls loop

section Passes
variable (calls : Nat → List TimerCall)

/-- The slots that the cascade of a tick accesses. -/
def tickSlots (loop : EventLoop) : List (Nat × Nat) :=
  let slot := loop.currentMs.toNat % timerSlots
  match walk calls loop.timerPoolSize.toNat (detach loop (0, slot)) (loop.wheel (0, slot)) with
  | none => []
  | some loop =>
    if slot = 0 then
      cascadeSlots (List.range' 1 (timerLevels - 1)) { loop with currentMs := loop.currentMs + 1 }
    else []

/-- The slots that the cascades of a number of ticks access. -/
def ticksSlots : Nat → EventLoop → List (Nat × Nat)
  | 0, _ => []
  | n + 1, loop =>
    tickSlots calls loop ++
      match tick calls loop with
      | none => []
      | some loop => ticksSlots n loop

/-- The slots that the cascades of `process_timers` access. -/
def processSlots (loop : EventLoop) (now : UInt64) : List (Nat × Nat) :=
  ticksSlots calls (now.toNat + 1 - loop.currentMs.toNat) loop

end Passes

/-! ## The clock of a loop -/

/-- The time, the cursors and the size of the pool are the same. -/
structure SameClock (loop loop' : EventLoop) : Prop where
  currentMs : loop'.currentMs = loop.currentMs
  wheelTicks : loop'.wheelTicks = loop.wheelTicks
  size : loop'.timerPoolSize = loop.timerPoolSize

section Clock
variable {calls : Nat → List TimerCall} {loop loop' : EventLoop} {t : Ptr}

/-- Nothing happened. -/
lemma SameClock.refl (loop : EventLoop) : SameClock loop loop := ⟨rfl, rfl, rfl⟩

/-- One after the other. -/
lemma SameClock.trans {loop₁ loop₂ : EventLoop} (h : SameClock loop loop₁)
    (h' : SameClock loop₁ loop₂) :
    SameClock loop loop₂ :=
  ⟨h'.currentMs.trans h.currentMs, h'.wheelTicks.trans h.wheelTicks, h'.size.trans h.size⟩

/-- Arming leaves the clock alone. -/
lemma rearmed_sameClock (loop : EventLoop) (t : Ptr) (f : Timer → Timer) :
    SameClock loop (timerInsert (loop.modify t f) t) :=
  ⟨timerInsert_currentMs _ t, timerInsert_wheelTicks _ t, timerInsert_timerPoolSize _ t⟩

/-- `timer_remove` leaves the clock alone. -/
lemma timerRemove_sameClock (loop : EventLoop) (t : Ptr) : SameClock loop (timerRemove loop t) := by
  unfold timerRemove
  dsimp only
  split
  · exact .refl loop
  · split <;> split <;> exact ⟨rfl, rfl, rfl⟩

/-- A call leaves the clock alone. -/
lemma TimerCall.apply_sameClock (b : Bool) (loop : EventLoop) (c : TimerCall) :
    SameClock loop (c.apply b loop) := by
  cases c with
  | add delayMs intervalMs callback arg =>
    cases callback with
    | none => exact .refl loop
    | some f =>
      cases hfree : loop.timerFree with
      | none =>
        simp only [apply, timerAdd, hfree]
        exact .refl loop
      | some t =>
        rw [apply_add hfree]
        exact ⟨timerInsert_currentMs _ t, timerInsert_wheelTicks _ t, timerInsert_timerPoolSize _ t⟩
  | cancel t =>
    obtain ⟨hc, hw, hs⟩ := timerRemove_sameClock loop t
    exact ⟨hc, hw, hs⟩
  | rearm t delayMs =>
    exact (timerRemove_sameClock loop t).trans (rearmed_sameClock _ t _)

/-- Calls leave the clock alone. -/
lemma calls_sameClock (b : Bool) (loop : EventLoop) (cs : List TimerCall) :
    SameClock loop (cs.foldl (TimerCall.apply b) loop) := by
  induction cs generalizing loop with
  | nil => exact .refl loop
  | cons c cs ih => exact (c.apply_sameClock b loop).trans (ih _)

/-- What follows a callback leaves the clock alone. -/
lemma settle_sameClock (loop : EventLoop) (t : Ptr) : SameClock loop (settle loop t) := by
  rw [settle]
  split
  · exact rearmed_sameClock loop t _
  · exact ⟨rfl, rfl, rfl⟩

/-- A step of the walk leaves the clock alone. -/
lemma walkStep_sameClock (h : walkStep calls loop t = some loop') : SameClock loop loop' := by
  rw [walkStep_eq] at h
  split at h
  · split at h
    · cases h
    · cases h
      have hstart : SameClock loop (fireStart (walkStart loop t) t) := ⟨rfl, rfl, rfl⟩
      exact (hstart.trans (calls_sameClock true _ _)).trans (settle_sameClock _ t)
  · cases h
    exact rearmed_sameClock loop t _

/-- The walk leaves the clock alone. -/
lemma walk_sameClock {fuel : Nat} {rest : Option Ptr} (h : walk calls fuel loop rest = some loop') :
    SameClock loop loop' := by
  induction fuel generalizing loop rest with
  | zero =>
    cases rest with
    | none =>
      cases h
      exact .refl _
    | some t => cases h
  | succ fuel ih =>
    cases rest with
    | none =>
      cases h
      exact .refl _
    | some t =>
      rw [walk] at h
      obtain ⟨loop₁, h₁, h⟩ := Option.bind_eq_some_iff.mp h
      exact (walkStep_sameClock h₁).trans (ih h)

end Clock

/-! ## Callbacks and slots -/

/-- Whoever can be called has a callback, and only slots of the wheel hold timers. -/
structure Sound (loop : EventLoop) (firing : Option Ptr) : Prop where
  called : ∀ p, (loop.timerPool p).active = true ∨ firing = some p →
    (loop.timerPool p).callback ≠ none
  ranged : ∀ key, loop.wheel key ≠ none → InWheel key

section Sound
variable {loop loop' : EventLoop} {rest firing : Option Ptr}
  {lists : Place → List Ptr} {t : Ptr}

/-- No timer gets active, and all keep their callbacks. -/
lemma Sound.of_pool (sound : Sound loop firing) (hw : loop'.wheel = loop.wheel)
    (hactive : ∀ p, (loop'.timerPool p).active = true → (loop.timerPool p).active = true)
    (hcallback : ∀ p, (loop'.timerPool p).callback = (loop.timerPool p).callback) :
    Sound loop' firing := by
  refine ⟨fun p hp => ?_, fun key hkey => sound.ranged key (hw ▸ hkey)⟩
  rw [hcallback]
  exact sound.called p (hp.imp_left (hactive p))

/-- A change that arms nothing and keeps the callback. -/
lemma Sound.modify (sound : Sound loop firing) (t : Ptr) {f : Timer → Timer}
    (hactive : (f (loop.timerPool t)).active = true → (loop.timerPool t).active = true)
    (hcallback : (f (loop.timerPool t)).callback = (loop.timerPool t).callback) :
    Sound (loop.modify t f) firing := by
  refine sound.of_pool rfl (fun p hp => ?_) fun p => ?_
  · by_cases hpt : p = t
    · subst hpt
      rw [modify_timerPool_self] at hp
      exact hactive hp
    · rwa [modify_timerPool_of_ne loop hpt] at hp
  · by_cases hpt : p = t
    · subst hpt
      rw [modify_timerPool_self, hcallback]
    · rw [modify_timerPool_of_ne loop hpt]

/-- A timer with a callback is inserted. -/
lemma Sound.insert (sound : Sound loop firing) (ht : (loop.timerPool t).callback ≠ none) :
    Sound (timerInsert loop t) firing := by
  refine ⟨fun p hp => ?_, fun key hkey => ?_⟩
  · rw [callback_eq_of_content (timerInsert_content loop t p)]
    by_cases hpt : p = t
    · exact hpt ▸ ht
    · rw [timerInsert_active, if_neg hpt] at hp
      exact sound.called p hp
  · rw [timerInsert_wheel] at hkey
    by_cases h : key = timerSlot loop.currentMs (loop.timerPool t).expiryMs
    · exact h ▸ timerSlot_inWheel _ _
    · rw [update_of_ne h] at hkey
      exact sound.ranged key hkey

/-- A timer is taken out. -/
lemma Sound.remove (sound : Sound loop firing) (ha : (loop.timerPool t).active = true)
    (hprev : loop.prev t ≠ some t) : Sound (timerRemove loop t) firing := by
  refine ⟨fun p hp => ?_, fun key hkey => ?_⟩
  · have hcallback : ((timerRemove loop t).timerPool p).callback = (loop.timerPool p).callback := by
      rw [timerRemove_timerPool ha hprev]
      split
      · next h => rw [h]
      · rfl
    rw [timerRemove_active ha hprev] at hp
    rw [hcallback]
    refine sound.called p (hp.imp_left fun hp => ?_)
    split at hp
    · cases hp
    · exact hp
  · rw [timerRemove_wheel ha hprev] at hkey
    split at hkey
    · by_cases h : key = loop.slotOf t
      · exact h ▸ timerSlot_inWheel _ _
      · rw [update_of_ne h] at hkey
        exact sound.ranged key hkey
    · exact sound.ranged key hkey

/-- A timer is freed. -/
lemma Sound.release (sound : Sound loop firing) (t : Ptr) : Sound (timerRelease loop t) firing :=
  (sound.modify t (f := ({ · with next := loop.timerFree })) id rfl).of_pool rfl (fun _ h => h)
    fun _ => rfl

/-- A safe call. -/
lemma Sound.call (sound : Sound loop firing) (inv : Threaded loop rest firing firing.toList lists)
    (hrest : firing = none → rest = none) {c : TimerCall} (safe : c.Safe loop) (b : Bool) :
    Sound (c.apply b loop) firing := by
  cases c with
  | add delayMs intervalMs callback arg =>
    cases callback with
    | none => exact sound
    | some f =>
      cases hfree : loop.timerFree with
      | none =>
        simp only [TimerCall.apply, timerAdd, hfree]
        exact sound
      | some t =>
        have htaken : Sound (taken loop t delayMs intervalMs f arg) firing := by
          refine ⟨fun p hp => ?_, sound.ranged⟩
          by_cases hpt : p = t
          · rw [hpt, taken_self]
            exact Option.some_ne_none f
          · rw [taken_of_ne hpt] at hp ⊢
            exact sound.called p hp
        have hcallback : ((taken loop t delayMs intervalMs f arg).timerPool t).callback ≠ none := by
          rw [taken_self]
          exact Option.some_ne_none f
        rw [apply_add hfree]
        exact (htaken.insert hcallback).of_pool rfl (fun _ h => h) fun _ => rfl
  | cancel t =>
    obtain ⟨-, hprev, -⟩ := inv.unlinked hrest safe
    exact (sound.remove safe.1 hprev).release t
  | rearm t delayMs =>
    obtain ⟨-, hprev, -⟩ := inv.unlinked hrest safe
    have hremoved := sound.remove safe.1 hprev
    have hcallback : ((timerRemove loop t).timerPool t).callback ≠ none := by
      rw [timerRemove_timerPool safe.1 hprev, if_pos rfl]
      exact sound.called t (.inl safe.1)
    show Sound (timerInsert ((timerRemove loop t).modify t
      ({ · with expiryMs := (timerRemove loop t).currentMs + delayMs.toUInt64 })) t) firing
    exact (hremoved.modify t (fun h => h) rfl).insert (by rwa [modify_timerPool_self])

/-- Safe calls, one after the other. -/
lemma Sound.calls (sound : Sound loop firing) (inv : Threaded loop rest firing firing.toList lists)
    (hrest : firing = none → rest = none) {b : Bool} {cs : List TimerCall}
    (safe : CallsMeet TimerCall.Safe b loop cs) :
    Sound (cs.foldl (TimerCall.apply b) loop) firing := by
  induction cs generalizing loop lists with
  | nil => exact sound
  | cons c cs ih =>
    obtain ⟨hc, hcs⟩ := safe
    obtain ⟨-, lists₁, inv₁, -⟩ := inv.call hrest hc b
    exact ih (sound.call inv hrest hc b) inv₁ hcs

/-- A slot is detached. -/
lemma Sound.detach (sound : Sound loop firing) (key : Nat × Nat) :
    Sound (detach loop key) firing := by
  refine ⟨sound.called, fun key' hkey => ?_⟩
  have hwheel : update loop.wheel key none key' ≠ none := hkey
  by_cases h : key' = key
  · rw [h, update_self] at hwheel
    exact absurd rfl hwheel
  · rw [update_of_ne h] at hwheel
    exact sound.ranged key' hwheel

/-- The timer that is walked over has a callback. -/
lemma Sound.callback (sound : Sound loop none) (inv : Threaded loop (some t) none [] lists) :
    (loop.timerPool t).callback ≠ none := by
  obtain ⟨r, hl, -⟩ := inv.popFlight
  have harmed : Armed lists t := ⟨.inFlight, Place.noConfusion, hl ▸ List.mem_cons_self⟩
  exact sound.called t (.inl ((inv.armed t List.not_mem_nil).mpr harmed))

end Sound

/-! ## Walks and cascades end -/

section Progress
variable {calls : Nat → List TimerCall} {loop loop' : EventLoop} {rest : Option Ptr}
  {lists : Place → List Ptr} {t : Ptr} {fuel : Nat}

/-- The timer that fired is freed or armed again. -/
lemma Sound.settle (sound : Sound loop (some t)) : Sound (settle loop t) none := by
  have hcallback := sound.called t (.inr rfl)
  have hidle : Sound loop none :=
    ⟨fun p hp => sound.called p (hp.imp_right (by intro h; cases h)), sound.ranged⟩
  rw [Timers.settle]
  split
  · show Sound (timerInsert (loop.modify t
      ({ · with expiryMs := loop.currentMs + (loop.timerPool t).intervalMs.toUInt64 })) t) none
    exact (hidle.modify t (fun h => h) rfl).insert (by rwa [modify_timerPool_self])
  · exact hidle.release t

/-- A timer that is not due is inserted anew. -/
lemma Sound.reinserted (sound : Sound loop none) (inv : Threaded loop (some t) none [] lists) :
    Sound (timerInsert (walkStart loop t) t) none := by
  have hstart : Sound (walkStart loop t) none := sound.modify t (fun h => h) rfl
  refine hstart.insert ?_
  rw [walkStart, modify_timerPool_self]
  exact sound.callback inv

/-- A timer begins to fire. -/
lemma Sound.fireStart (sound : Sound loop none) (inv : Threaded loop (some t) none [] lists) :
    Sound (fireStart (walkStart loop t) t) (some t) := by
  have hstart : Sound (walkStart loop t) none := sound.modify t (fun h => h) rfl
  have hidle : Sound ((walkStart loop t).modify t ({ · with active := false })) none :=
    hstart.modify t (fun h => by cases h) rfl
  refine ⟨fun p hp => ?_, hidle.ranged⟩
  rcases hp with hp | hp
  · exact hidle.called p (.inl hp)
  · cases hp
    simpa [Timers.fireStart, walkStart] using sound.callback inv

/-- One step of the walk. -/
lemma Sound.walkStep (sound : Sound loop none) (inv : Threaded loop (some t) none [] lists)
    (safe : WalkStepMeets calls TimerCall.Safe loop t) :
    ∃ loop', walkStep calls loop t = some loop' ∧ Sound loop' none := by
  rw [walkStep_eq, if_neg (sound.callback inv)]
  split
  · next hexp =>
    obtain ⟨r, -, inv₁⟩ := inv.fireStart
    have hcalls := (sound.fireStart inv).calls inv₁ (absurd · (Option.some_ne_none t)) (safe hexp)
    exact ⟨_, rfl, hcalls.settle⟩
  · exact ⟨_, rfl, sound.reinserted inv⟩

/-- A walk visits no more timers than there are in the list it began with. -/
lemma Sound.walk (sound : Sound loop none) (inv : Threaded loop rest none [] lists)
    (safe : WalkMeets calls TimerCall.Safe fuel loop rest)
    (hlen : (lists .inFlight).length ≤ fuel) :
    ∃ loop', walk calls fuel loop rest = some loop' ∧ Sound loop' none := by
  induction fuel generalizing loop rest lists with
  | zero =>
    cases rest with
    | none => exact ⟨loop, rfl, sound⟩
    | some t => exact absurd hlen inv.toLinks.inFlight_pos.not_ge
  | succ fuel ih =>
    cases rest with
    | none => exact ⟨loop, rfl, sound⟩
    | some t =>
      obtain ⟨hstep, hrest⟩ := safe
      obtain ⟨loop₁, h₁, sound₁⟩ := sound.walkStep inv hstep
      obtain ⟨-, lists₁, inv₁, hlt⟩ := inv.walkStep hstep h₁
      obtain ⟨loop₂, h₂, sound₂⟩ :=
        ih sound₁ inv₁ (hrest loop₁ h₁) (Nat.le_of_lt_succ (hlt.trans_le hlen))
      refine ⟨loop₂, ?_, sound₂⟩
      rw [Timers.walk, h₁]
      exact h₂

/-- The timers of a cascaded slot are inserted again. -/
lemma Sound.reinsert (sound : Sound loop none) (inv : Threaded loop rest none [] lists)
    (hlen : (lists .inFlight).length ≤ fuel) :
    ∃ loop', reinsert fuel loop rest = some loop' ∧ Sound loop' none ∧ SameClock loop loop' := by
  induction fuel generalizing loop rest lists with
  | zero =>
    cases rest with
    | none => exact ⟨loop, rfl, sound, .refl loop⟩
    | some t => exact absurd hlen inv.toLinks.inFlight_pos.not_ge
  | succ fuel ih =>
    cases rest with
    | none => exact ⟨loop, rfl, sound, .refl loop⟩
    | some t =>
      obtain ⟨r, hl, inv₁, -⟩ := inv.popFlight
      have inv₂ : Threaded (walkStart loop t) _ none [t] _ := inv₁.modify_held _
      obtain ⟨loop', h, sound', hclock⟩ := ih (sound.reinserted inv) inv₂.insert_held (by
        rw [push, update_of_ne Place.noConfusion, update_self]
        rw [hl] at hlen
        exact Nat.le_of_succ_le_succ hlen)
      exact ⟨loop', h, sound', (rearmed_sameClock loop t _).trans hclock⟩

/-- The cascade of one level. -/
lemma Sound.cascadeLevel (sound : Sound loop none) (inv : Threaded loop none none [] lists)
    {lvl : Nat} (hlt : (loop.wheelTicks lvl).toNat < timerSlots) :
    ∃ loop', cascadeLevel loop lvl = some loop' ∧ Sound loop' none ∧
      loop'.currentMs = loop.currentMs ∧
      loop'.wheelTicks = update loop.wheelTicks lvl (loop.wheelTicks lvl + 1) := by
  have inv₁ : Threaded { loop with
      wheelTicks := update loop.wheelTicks lvl (loop.wheelTicks lvl + 1) } none none [] lists :=
    inv.of_eq rfl rfl rfl rfl
  have sound₁ : Sound { loop with
      wheelTicks := update loop.wheelTicks lvl (loop.wheelTicks lvl + 1) } none :=
    sound.of_pool rfl (fun _ h => h) fun _ => rfl
  have inv₂ := inv₁.detach (lvl, (loop.wheelTicks lvl).toNat)
  obtain ⟨loop', h, sound', hclock⟩ := (sound₁.detach _).reinsert inv₂
    ((inv₂.chain .inFlight).length_le (inv₂.bound .inFlight))
  rw [Timers.cascadeLevel]
  dsimp only
  rw [if_neg (Nat.not_le.mpr hlt)]
  exact ⟨loop', h, sound', hclock.currentMs, hclock.wheelTicks⟩

/-- The slots that the levels from one on read. -/
lemma cascadeSlots_cons {loop₁ : EventLoop} {lvl : Nat}
    (h : Timers.cascadeLevel loop lvl = some loop₁) (lvls : List Nat) :
    cascadeSlots (lvl :: lvls) loop = (lvl, (loop.wheelTicks lvl).toNat) ::
      if (loop₁.wheelTicks lvl).toNat % timerSlots ≠ 0 then [] else cascadeSlots lvls loop₁ := by
  rw [cascadeSlots, h]

/-- A cascade ends and stays in the wheel as long as the cursor of level 1 does. -/
lemma Sound.cascade (sound : Sound loop none) (inv : Threaded loop none none [] lists) {m : Nat}
    (hm : (loop.wheelTicks 1).toNat = m) (hlt : m < timerSlots) (h2 : loop.wheelTicks 2 = 0) :
    (∀ key ∈ cascadeSlots (List.range' 1 (timerLevels - 1)) loop, key.2 < timerSlots) ∧
      ∃ loop' lists', cascade (List.range' 1 (timerLevels - 1)) loop = some loop' ∧
        Sound loop' none ∧
        Threaded loop' none none [] lists' ∧ loop'.currentMs = loop.currentMs ∧
        (loop'.wheelTicks 1).toNat = m + 1 ∧ (m + 1 < timerSlots → loop'.wheelTicks 2 = 0) := by
  have hlt₁ : (loop.wheelTicks 1).toNat < timerSlots := hm ▸ hlt
  obtain ⟨loop₁, h₁, sound₁, hc₁, hw₁⟩ := sound.cascadeLevel inv hlt₁
  obtain ⟨lists₁, inv₁⟩ := inv.cascadeLevel h₁
  obtain ⟨hm₁, h2₁⟩ := cursors_of_level_one hm hlt h2 hw₁
  rw [show List.range' 1 (timerLevels - 1) = [1, 2, 3] from rfl, cascadeSlots_cons h₁,
    cascade_cons h₁]
  by_cases hlast : m + 1 = timerSlots
  · -- Level 2 is cascaded as well, for the first and last time.
    have hmod : (loop₁.wheelTicks 1).toNat % timerSlots = 0 := by rw [hm₁, hlast, Nat.mod_self]
    have hlt₂ : (loop₁.wheelTicks 2).toNat < timerSlots := by
      rw [h2₁]
      decide
    obtain ⟨loop₂, h₂, sound₂, hc₂, hw₂⟩ := sound₁.cascadeLevel inv₁ hlt₂
    obtain ⟨lists₂, inv₂⟩ := inv₁.cascadeLevel h₂
    obtain ⟨hw1, hw2⟩ := cursors_of_level_two h2₁ hw₂
    rw [if_neg (not_not.mpr hmod), if_neg (not_not.mpr hmod), cascadeSlots_cons h₂, cascade_cons h₂,
      hw2, if_pos (by decide), if_pos (by decide)]
    refine ⟨?_, loop₂, lists₂, rfl, sound₂, inv₂, hc₂.trans hc₁, hw1 ▸ hm₁,
      fun h => absurd hlast h.ne⟩
    simp only [List.forall_mem_cons, List.not_mem_nil]
    exact ⟨hlt₁, hlt₂, fun _ h => h.elim⟩
  · rw [hm₁, Nat.mod_eq_of_lt (Nat.lt_of_le_of_ne hlt hlast), if_pos (Nat.succ_ne_zero m),
      if_pos (Nat.succ_ne_zero m)]
    refine ⟨fun key hkey => ?_, loop₁, lists₁, rfl, sound₁, inv₁, hc₁, hm₁, fun _ => h2₁⟩
    rw [List.mem_singleton.mp hkey]
    exact hlt₁

end Progress

/-! ## Ticks -/

/-- A loop between ticks: its cursors are those of its time, and its lists are in order. -/
structure Good (start : UInt64) (loop : EventLoop) : Prop
    extends Clock start loop, Sound loop none where
  threaded : ∃ lists, Threaded loop none none [] lists

section Ticks
variable {calls : Nat → List TimerCall} {start : UInt64} {loop loop' : EventLoop}

/-- The same clock and cursors. -/
lemma Clock.of_same (clock : Clock start loop) (h : SameClock loop loop') : Clock start loop' := by
  obtain ⟨hge, hle, hlt, hs, h2⟩ := clock
  rw [← h.wheelTicks] at hle hlt hs h2
  rw [← h.currentMs] at hge hle hlt
  exact ⟨hge, hle, hlt, hs, h2⟩

/-- Every armed timer is on its list. -/
lemma Good.allReachable (good : Good start loop) : loop.AllReachable := by
  obtain ⟨lists, inv⟩ := good.threaded
  intro p hp
  obtain ⟨pl, hpl, hmem⟩ := (inv.armed p List.not_mem_nil).mp hp
  cases pl with
  | free => exact absurd rfl hpl
  | inFlight =>
    rw [inv.inFlight_eq_nil] at hmem
    cases hmem
  | slot key =>
    have c : Chain loop.next (loop.wheel key) (lists (.slot key)) := inv.chain (.slot key)
    refine ⟨key, good.ranged key fun hnone => ?_, _, c, hmem⟩
    rw [List.head?_eq_none_iff.mp (c.head_eq.symm.trans hnone)] at hmem
    cases hmem

/-- The walk of a tick. -/
lemma Good.walk (good : Good start loop) (safe : TickMeets calls TimerCall.Safe loop)
    {key : Nat × Nat} (hkey : key = (0, loop.currentMs.toNat % timerSlots)) :
    ∃ loop' lists', walk calls loop.timerPoolSize.toNat (detach loop key) (loop.wheel key) =
      some loop' ∧
      Sound loop' none ∧ Threaded loop' none none [] lists' ∧ SameClock loop loop' := by
  subst hkey
  obtain ⟨lists, inv⟩ := good.threaded
  have inv₁ := inv.detach (0, loop.currentMs.toNat % timerSlots)
  obtain ⟨loop', h, sound'⟩ := (good.toSound.detach _).walk inv₁ safe
    ((inv₁.chain .inFlight).length_le (inv₁.bound .inFlight))
  obtain ⟨-, lists', inv'⟩ := inv₁.walk safe h
  obtain ⟨hc, hw, hs⟩ := walk_sameClock h
  exact ⟨loop', lists', h, sound', inv', hc, hw, hs⟩

/-- A tick before the horizon. -/
lemma Good.tick (good : Good start loop) (safe : TickMeets calls TimerCall.Safe loop)
    (hc : loop.currentMs.toNat < horizon start) (hmax : loop.currentMs.toNat + 1 < 2 ^ 64) :
    (∀ key ∈ tickSlots calls loop, key.2 < timerSlots) ∧
      ∃ loop', tick calls loop = some loop' ∧ Good start loop' ∧
        loop'.currentMs.toNat = loop.currentMs.toNat + 1 := by
  have hsucc : (loop.currentMs + 1).toNat = loop.currentMs.toNat + 1 := by
    rw [UInt64.toNat_add, show (1 : UInt64).toNat = 1 from rfl, Nat.mod_eq_of_lt hmax]
  obtain ⟨loop₁, lists₁, h₁, sound₁, inv₁, hclock⟩ := good.walk safe rfl
  have inv₂ : Threaded { loop₁ with currentMs := loop₁.currentMs + 1 } none none [] lists₁ :=
    inv₁.of_eq rfl rfl rfl rfl
  have sound₂ : Sound { loop₁ with currentMs := loop₁.currentMs + 1 } none :=
    sound₁.of_pool rfl (fun _ h => h) fun _ => rfl
  rw [tickSlots, Timers.tick]
  dsimp only [Option.bind_eq_bind]
  rw [h₁]
  dsimp only [Option.bind_some]
  by_cases hslot : loop.currentMs.toNat % timerSlots = 0
  · rw [if_pos hslot, if_pos hslot]
    obtain ⟨hlt, hceq⟩ := good.toClock.wrap hc hslot
    obtain ⟨hslots, loop₃, lists₃, h₃, sound₃, inv₃, hc₃, hm₃, h2₃⟩ := sound₂.cascade inv₂
      (congrArg UInt32.toNat (congrFun hclock.wheelTicks 1)) hlt
      ((congrFun hclock.wheelTicks 2).trans (good.second hlt))
    have hn : loop₃.currentMs.toNat = loop.currentMs.toNat + 1 := by
      rw [hc₃, ← hsucc, ← hclock.currentMs]
    exact ⟨hslots, loop₃, h₃, ⟨good.toClock.cascaded hceq hlt hn hm₃ h2₃, sound₃, lists₃, inv₃⟩, hn⟩
  · rw [if_neg hslot, if_neg hslot]
    have hn : (loop₁.currentMs + 1).toNat = loop.currentMs.toNat + 1 := by
      rw [hclock.currentMs, hsucc]
    exact ⟨fun _ h => absurd h List.not_mem_nil, _, rfl,
      ⟨good.toClock.next hslot hn hclock.wheelTicks, sound₂, lists₁, inv₂⟩, hn⟩

/-- The tick at the horizon leaves the wheel. -/
lemma Good.tick_out (good : Good start loop) (safe : TickMeets calls TimerCall.Safe loop)
    (hc : loop.currentMs.toNat = horizon start) :
    (1, timerSlots) ∈ tickSlots calls loop ∧ Timers.tick calls loop = none := by
  obtain ⟨loop₁, lists₁, h₁, -, -, hclock⟩ := good.walk safe rfl
  have hslot : loop.currentMs.toNat % timerSlots = 0 := by
    rw [hc]
    exact Nat.mul_mod_right _ _
  have hcursor : (loop.wheelTicks 1).toNat = timerSlots := by
    have hle := good.le
    have hs := good.le_slots
    rw [hc, horizon, cascadeTick, cascadeTick] at hle
    exact hs.antisymm (Nat.le_of_add_le_add_left (Nat.le_of_mul_le_mul_left hle (by decide)))
  have hcursor₁ : (loop₁.wheelTicks 1).toNat = timerSlots := by rw [hclock.wheelTicks, hcursor]
  have hrange : List.range' 1 (timerLevels - 1) = [1, 2, 3] := rfl
  rw [tickSlots, Timers.tick]
  dsimp only [Option.bind_eq_bind]
  rw [h₁]
  dsimp only [Option.bind_some]
  rw [if_pos hslot, if_pos hslot, hrange, cascadeSlots, Timers.cascade, Timers.cascadeLevel]
  dsimp only
  rw [hcursor₁, if_pos le_rfl]
  exact ⟨List.mem_cons_self, rfl⟩

/-- Ticks before the horizon stay in the wheel. -/
lemma Good.ticks (good : Good start loop) {k : Nat} (safe : TicksMeet calls TimerCall.Safe k loop)
    (hk : loop.currentMs.toNat + k ≤ horizon start) (hmax : loop.currentMs.toNat + k < 2 ^ 64) :
    (∀ key ∈ ticksSlots calls k loop, key.2 < timerSlots) ∧
      ∃ loop', ticks calls k loop = some loop' ∧ Good start loop' := by
  induction k generalizing loop with
  | zero => exact ⟨fun _ h => absurd h List.not_mem_nil, loop, rfl, good⟩
  | succ k ih =>
    obtain ⟨htick, hrest⟩ := safe
    obtain ⟨hslots₁, loop₁, h₁, good₁, hc₁⟩ := good.tick htick (by omega) (by omega)
    obtain ⟨hslots₂, loop₂, h₂, good₂⟩ := ih good₁ (hrest loop₁ h₁) (by omega) (by omega)
    rw [ticksSlots, Timers.ticks, h₁]
    refine ⟨fun key hkey => ?_, loop₂, h₂, good₂⟩
    rcases List.mem_append.mp hkey with hkey | hkey
    · exact hslots₁ key hkey
    · exact hslots₂ key hkey

/-- Ticks beyond the horizon leave the wheel. -/
lemma Good.ticks_out (good : Good start loop) {k : Nat}
    (safe : TicksMeet calls TimerCall.Safe k loop) (hk : horizon start < loop.currentMs.toNat + k)
    (hmax : loop.currentMs.toNat + k < 2 ^ 64) :
    (1, timerSlots) ∈ ticksSlots calls k loop ∧ Timers.ticks calls k loop = none := by
  induction k generalizing loop with
  | zero => exact absurd good.toClock.le_horizon (Nat.not_le.mpr hk)
  | succ k ih =>
    obtain ⟨htick, hrest⟩ := safe
    rw [ticksSlots, Timers.ticks]
    rcases good.toClock.le_horizon.eq_or_lt with hc | hc
    · obtain ⟨hslot, hnone⟩ := good.tick_out htick hc
      rw [hnone]
      exact ⟨List.mem_append_left _ hslot, rfl⟩
    · obtain ⟨-, loop₁, h₁, good₁, hc₁⟩ := good.tick htick hc (by omega)
      obtain ⟨hslot, hnone⟩ := ih good₁ (hrest loop₁ h₁) (by omega) (by omega)
      rw [h₁]
      exact ⟨List.mem_append_right _ hslot, hnone⟩

end Ticks

/-! ## Runs -/

section Runs
variable {calls : Nat → List TimerCall} {start : UInt64} {loop loop' : EventLoop}

/-- A safe call. -/
lemma Good.call (good : Good start loop) {c : TimerCall} (safe : c.Safe loop) :
    Good start (c.apply false loop) := by
  obtain ⟨lists, inv⟩ := good.threaded
  have inv₀ : Threaded loop none none (Option.toList none) lists := inv
  obtain ⟨-, lists', inv', -⟩ := inv₀.call (fun _ => rfl) safe false
  exact ⟨good.toClock.of_same (c.apply_sameClock false loop),
    good.toSound.call inv₀ (fun _ => rfl) safe false, lists', inv'⟩

/-- A pass at a time before the horizon. -/
lemma Good.process (good : Good start loop) {now : UInt64}
    (safe : TicksMeet calls TimerCall.Safe (now.toNat + 1 - loop.currentMs.toNat) loop)
    (hmax : now.toNat + 1 < 2 ^ 64) (hlt : now.toNat < horizon start) :
    (∀ key ∈ processSlots calls loop now, key.2 < timerSlots) ∧
      ∃ loop', processTimers calls loop now = some loop' ∧ Good start loop' := by
  have hhor := good.toClock.le_horizon
  rw [processSlots, processTimers, if_neg hmax.ne]
  by_cases hle : loop.currentMs.toNat ≤ now.toNat + 1
  · exact good.ticks safe (by omega) (by omega)
  · -- The time of the clock has been processed already.
    rw [Nat.sub_eq_zero_of_le (by omega)]
    exact ⟨fun _ h => absurd h List.not_mem_nil, loop, rfl, good⟩

/-- A pass at a later time. -/
lemma Good.process_out (good : Good start loop) {now : UInt64}
    (safe : TicksMeet calls TimerCall.Safe (now.toNat + 1 - loop.currentMs.toNat) loop)
    (hmax : now.toNat + 1 < 2 ^ 64) (hge : horizon start ≤ now.toNat) :
    (1, timerSlots) ∈ processSlots calls loop now ∧ processTimers calls loop now = none := by
  have hhor := good.toClock.le_horizon
  rw [processSlots, processTimers, if_neg hmax.ne]
  exact good.ticks_out safe (by omega) (by omega)

/-- A pass that returns was made before the horizon. -/
lemma Good.before_horizon (good : Good start loop) {now : UInt64}
    (safe : TicksMeet calls TimerCall.Safe (now.toNat + 1 - loop.currentMs.toNat) loop)
    (h : processTimers calls loop now = some loop') :
    now.toNat + 1 < 2 ^ 64 ∧ now.toNat < horizon start := by
  have hmax : now.toNat + 1 < 2 ^ 64 := by
    refine Nat.lt_of_le_of_ne now.toNat_lt fun hlast => ?_
    rw [processTimers, if_pos hlast] at h
    cases h
  refine ⟨hmax, ?_⟩
  by_contra hge
  obtain ⟨-, hnone⟩ := good.process_out safe hmax (Nat.not_lt.mp hge)
  cases hnone.symm.trans h

/-- An operation that meets the condition. -/
lemma Good.op (good : Good start loop) {op : TimerOp} (safe : op.Meets calls TimerCall.Safe loop)
    (h : op.apply calls loop = some loop') : Good start loop' := by
  cases op with
  | call c =>
    cases h
    exact good.call safe
  | process now =>
    obtain ⟨hmax, hlt⟩ := good.before_horizon safe h
    obtain ⟨-, loop₁, h₁, good₁⟩ := good.process safe hmax hlt
    cases h₁.symm.trans h
    exact good₁

/-- A new loop is good. -/
lemma loopCreate_good {maxFds : UInt32} (h : loopCreate maxFds start = some loop) :
    Good start loop := by
  refine ⟨(loopCreate_steady h).toClock, ⟨fun p hp => ?_, fun key hkey => ?_⟩, _,
    loopCreate_threaded h⟩
  · rw [loopCreate] at h
    split at h
    · cases h
    · cases h
      rcases hp with hp | hp <;> cases hp
  · rw [loopCreate] at h
    split at h
    · cases h
    · cases h
      exact absurd rfl hkey

/-- Every state of a run is good. -/
lemma runNew_good {maxFds : UInt32} {ops : List TimerOp}
    (safe : RunCalls calls TimerCall.Safe maxFds start ops)
    (h : runNew calls maxFds start ops = some loop) : Good start loop := by
  obtain ⟨loop₀, h₀, h⟩ := Option.bind_eq_some_iff.mp h
  exact (safe loop₀ h₀).invariant (fun good hop h => Good.op good hop h) (loopCreate_good h₀) h

/-- After every run in which the timers that are cancelled or rearmed can be unlinked, every active
timer can be reached from a slot of the wheel. Safe calls keep this, and so does a pass, without
accessing anything but slots of the wheel, exactly if its time is before the horizon. -/
theorem timer_cascade_in_wheel_iff {maxFds : UInt32} {ops : List TimerOp}
    (safe : RunCalls calls TimerCall.Safe maxFds start ops)
    (hrun : runNew calls maxFds start ops = some loop) :
    loop.AllReachable ∧
      (∀ c : TimerCall, c.Safe loop → (c.apply false loop).AllReachable) ∧
      ∀ now : UInt64, TicksMeet calls TimerCall.Safe (now.toNat + 1 - loop.currentMs.toNat) loop →
        (((∀ key ∈ processSlots calls loop now, key.2 < timerSlots) ∧
            ∃ loop', processTimers calls loop now = some loop' ∧ loop'.AllReachable) ↔
          now.toNat + 1 < 2 ^ 64 ∧ now.toNat < horizon start) := by
  have good := runNew_good safe hrun
  refine ⟨good.allReachable, fun c hc => (good.call hc).allReachable, fun now hnow => ⟨?_, ?_⟩⟩
  · rintro ⟨-, loop', h, -⟩
    exact good.before_horizon hnow h
  · rintro ⟨hmax, hlt⟩
    obtain ⟨hslots, loop', h, good'⟩ := good.process hnow hmax hlt
    exact ⟨hslots, loop', h, good'.allReachable⟩

/-- Three timers in a pass before the horizon, of which a callback has cancelled one. -/
theorem timer_cascade_in_wheel_iff_sample :
    RunCalls sampleCallbacks TimerCall.Safe 2 0 sampleCancels ∧
      ∃ loop, runNew sampleCallbacks 2 0 sampleCancels = some loop ∧ loop.AllReachable ∧
        (∀ key ∈ processSlots sampleCallbacks loop 8, key.2 < timerSlots) ∧
        ∃ loop', processTimers sampleCallbacks loop 8 = some loop' ∧ loop'.AllReachable := by
  have safe : RunCalls sampleCallbacks TimerCall.Safe 2 0 sampleCancels := by decide +kernel
  have hpass : (runNew sampleCallbacks 2 0 sampleCancels).map (fun loop =>
      decide (TicksMeet sampleCallbacks TimerCall.Safe
        ((8 : UInt64).toNat + 1 - loop.currentMs.toNat) loop)) = some true := by decide +kernel
  obtain ⟨loop, hrun, hnow⟩ := Option.map_eq_some_iff.mp hpass
  obtain ⟨hreach, -, hiff⟩ := timer_cascade_in_wheel_iff safe hrun
  exact ⟨safe, loop, hrun, hreach, (hiff 8 (of_decide_eq_true hnow)).mpr ⟨by decide, by decide⟩⟩

/-- A walk without calls meets any condition. -/
lemma walkMeets_of_no_calls {C : EventLoop → TimerCall → Prop} (fuel : Nat) (loop : EventLoop)
    (rest : Option Ptr) : WalkMeets (fun _ => []) C fuel loop rest := by
  induction fuel generalizing loop rest with
  | zero => cases rest <;> trivial
  | succ fuel ih =>
    cases rest with
    | none => trivial
    | some t => exact ⟨fun _ => trivial, fun loop' _ => ih loop' _⟩

/-- Ticks without calls meet any condition. -/
lemma ticksMeet_of_no_calls {C : EventLoop → TimerCall → Prop} (n : Nat) (loop : EventLoop) :
    TicksMeet (fun _ => []) C n loop := by
  induction n generalizing loop with
  | zero => trivial
  | succ n ih => exact ⟨walkMeets_of_no_calls _ _ _, fun loop' _ => ih loop'⟩

/-- A loop without timers that was created at time 0 accesses slot 256 of level 1 in a
pass at 65536 ms. -/
theorem cascade_leaves_wheel :
    ∃ loop, runNew (fun _ => []) 1 0 [] = some loop ∧
      (1, 256) ∈ processSlots (fun _ => []) loop 65536 ∧ ¬ InWheel (1, 256) ∧
      processTimers (fun _ => []) loop 65536 = none := by
  obtain ⟨loop, h⟩ : ∃ loop, loopCreate 1 0 = some loop := ⟨_, rfl⟩
  have safe : TicksMeet (fun _ => []) TimerCall.Safe
      ((65536 : UInt64).toNat + 1 - loop.currentMs.toNat) loop := ticksMeet_of_no_calls _ loop
  obtain ⟨hslot, hnone⟩ := (loopCreate_good h).process_out safe (by decide) (by decide)
  refine ⟨loop, ?_, hslot, by decide, hnone⟩
  rw [runNew, h]
  rfl

end Runs

end RoboControl.Timers
