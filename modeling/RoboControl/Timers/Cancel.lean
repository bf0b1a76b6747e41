import RoboControl.Timers.Partition

/-!
# Cancelling and rearming timers

What `rc_timer_cancel` and `rc_timer_rearm` do to the lists of the wheel. The slot of a timer at the
head of a list is not stored, it is computed from the time of the loop. After a run whose calls are
safe the two functions leave all other timers alone exactly if the timer can be unlinked
(`timer_cancel_exact`): if it is not at the head of its list, or its slot is still the computed one.
-/

namespace RoboControl.Timers
open Base Function

/-- From one loop to another a timer has left the slot that it was in, and entered the one of
`into`. The other timers are in the lists as before, with what they were armed with. -/
structure Relinks (loop loop' : EventLoop) (t : Ptr) (into : Option (Nat × Nat)) : Prop where
  slots : ∀ key l, Chain loop.next (loop.wheel key) l →
    ∃ l', Chain loop'.next (loop'.wheel key) l' ∧
      l'.Perm (if into = some key then t :: l.erase t else l.erase t)
  others : ∀ p, p ≠ t → (loop'.timerPool p).content = (loop.timerPool p).content ∧
    (loop'.timerPool p).active = (loop.timerPool p).active

/-- Cancelling a timer unlinks it, and does nothing else to the wheel. -/
def CancelsOnly (loop : EventLoop) (t : Ptr) : Prop :=
  Relinks loop (timerCancel loop t) t none ∧ ((timerCancel loop t).timerPool t).active = false

/-- Rearming a timer moves it to the slot of its new expiry time, and does nothing else
to the wheel. -/
def RearmsOnly (loop : EventLoop) (t : Ptr) (delayMs : UInt32) : Prop :=
  Relinks loop (timerRearm loop t delayMs) t
      (some (timerSlot loop.currentMs (loop.currentMs + delayMs.toUInt64))) ∧
    ((timerRearm loop t delayMs).timerPool t).expiryMs = loop.currentMs + delayMs.toUInt64 ∧
    ((timerRearm loop t delayMs).timerPool t).active = true

section Cancel
variable {loop : EventLoop} {lists : Place → List Ptr} {t : Ptr}

/-- The lists that a slot can have are the one it has. -/
lemma Threaded.relinks {loop' : EventLoop} {lists' : Place → List Ptr}
    (inv : Threaded loop none none [] lists) (inv' : Threaded loop' none none [] lists')
    {into : Option (Nat × Nat)}
    (hslots : ∀ key, (lists' (.slot key)).Perm (if into = some key
      then t :: (lists (.slot key)).erase t
      else (lists (.slot key)).erase t))
    (hothers : ∀ p, p ≠ t → (loop'.timerPool p).content = (loop.timerPool p).content ∧
      (loop'.timerPool p).active = (loop.timerPool p).active) : Relinks loop loop' t into := by
  refine ⟨fun key l hl => ⟨lists' (.slot key), inv'.chain (.slot key), ?_⟩, hothers⟩
  rw [hl.unique (inv.chain (.slot key))]
  exact hslots key

/-- What the other timers are armed with after a removal. -/
lemma timerRemove_others (ha : (loop.timerPool t).active = true) (hprev : loop.prev t ≠ some t)
    {p : Ptr} (hp : p ≠ t) : ((timerRemove loop t).timerPool p).content =
      (loop.timerPool p).content ∧
      ((timerRemove loop t).timerPool p).active = (loop.timerPool p).active := by
  rw [timerRemove_timerPool ha hprev, if_neg hp]
  exact ⟨rfl, rfl⟩

/-- A timer that can be unlinked is cancelled and no other. -/
lemma Threaded.cancelsOnly (inv : Threaded loop none none [] lists) (hcan : CanUnlink loop t) :
    CancelsOnly loop t := by
  have inv₀ : Threaded loop none none (Option.toList none) lists := inv
  obtain ⟨-, hprev, pl, htl, inv₁⟩ := inv₀.unlinked (fun _ => rfl) hcan
  have inv₂ : Threaded (timerCancel loop t) none none [] _ :=
    inv₁.release_held (timerRemove_active_self loop t)
  refine ⟨inv.relinks inv₂ (fun key => ?_) fun p hp => ?_, ?_⟩
  · rw [push, update_of_ne Place.noConfusion, inv.toChains.unlink_eq_erase htl,
      if_neg (Option.some_ne_none _).symm]
  · have hpool : (timerCancel loop t).timerPool p = (timerRemove loop t).timerPool p :=
      update_of_ne hp _ _
    rw [hpool]
    exact timerRemove_others hcan.1 hprev hp
  · simp [timerCancel, timerRelease, timerRemove_active_self]

/-- The loop in which `rc_timer_rearm` inserts a timer. -/
def withdrawn (loop : EventLoop) (t : Ptr) (delayMs : UInt32) : EventLoop :=
  (timerRemove loop t).modify t
    ({ · with expiryMs := (timerRemove loop t).currentMs + delayMs.toUInt64 })

/-- Rearming is an insertion of the timer after it was withdrawn. -/
lemma timerRearm_eq (loop : EventLoop) (t : Ptr) (delayMs : UInt32) :
    timerRearm loop t delayMs = timerInsert (withdrawn loop t delayMs) t := rfl

/-- The new time of the timer. -/
lemma withdrawn_expiryMs (ha : (loop.timerPool t).active = true) (hprev : loop.prev t ≠ some t)
    (delayMs : UInt32) :
    ((withdrawn loop t delayMs).timerPool t).expiryMs = loop.currentMs + delayMs.toUInt64 := by
  obtain ⟨-, -, hcur⟩ := timerRemove_frame ha hprev
  rw [withdrawn, modify_timerPool_self, hcur]

/-- The new slot of the timer. -/
lemma withdrawn_slotOf (ha : (loop.timerPool t).active = true) (hprev : loop.prev t ≠ some t)
    (delayMs : UInt32) : (withdrawn loop t delayMs).slotOf t =
      timerSlot loop.currentMs (loop.currentMs + delayMs.toUInt64) := by
  rw [EventLoop.slotOf, withdrawn_expiryMs ha hprev]
  exact congrArg (timerSlot · _) (timerRemove_frame ha hprev).2.2

/-- A timer that can be unlinked is rearmed and no other. -/
lemma Threaded.rearmsOnly (inv : Threaded loop none none [] lists) (hcan : CanUnlink loop t)
    (delayMs : UInt32) : RearmsOnly loop t delayMs := by
  have inv₀ : Threaded loop none none (Option.toList none) lists := inv
  obtain ⟨-, hprev, pl, htl, inv₁⟩ := inv₀.unlinked (fun _ => rfl) hcan
  have inv₂ : Threaded (withdrawn loop t delayMs) none none [t] _ :=
    inv₁.modify_held _
  have inv₃ := inv₂.insert_held
  rw [withdrawn_slotOf hcan.1 hprev, ← timerRearm_eq] at inv₃
  refine ⟨inv.relinks inv₃ (fun key => ?_) fun p hp => ?_, ?_, ?_⟩
  · by_cases hkey : key = timerSlot loop.currentMs (loop.currentMs + delayMs.toUInt64)
    · subst hkey
      rw [push, update_self, inv.toChains.unlink_eq_erase htl, if_pos rfl]
    · rw [push, update_of_ne fun e => hkey (Place.slot.inj e),
        inv.toChains.unlink_eq_erase htl, if_neg fun e => hkey (Option.some.inj e).symm]
  · rw [timerRearm_eq, timerInsert_content, timerInsert_active, if_neg hp, withdrawn,
      modify_timerPool_of_ne _ hp]
    exact timerRemove_others hcan.1 hprev hp
  · rw [← withdrawn_expiryMs hcan.1 hprev]
    exact congrArg (·.1) (timerInsert_content (withdrawn loop t delayMs) t t)
  · rw [timerRearm_eq, timerInsert_active, if_pos rfl]

/-- An armed timer that cannot be unlinked is the head of a slot that is not the computed one. -/
lemma Threaded.head_of_not_canUnlink (inv : Threaded loop none none [] lists)
    (ha : (loop.timerPool t).active = true) (hcan : ¬ CanUnlink loop t) :
    ∃ key post, lists (.slot key) = t :: post ∧ loop.prev t = none ∧ key ≠ loop.slotOf t := by
  obtain ⟨pl, hpl, htl⟩ := (inv.armed t List.not_mem_nil).mp ha
  cases pl with
  | free => exact absurd rfl hpl
  | inFlight =>
    rw [inv.inFlight_eq_nil] at htl
    cases htl
  | slot key =>
    obtain ⟨post, hl, hp⟩ | ⟨pre, o, post, hl, hp⟩ := (inv.slots key).split htl
    · refine ⟨key, post, hl, hp, ?_⟩
      rintro rfl
      refine hcan ⟨ha, fun p hp' => ?_, fun _ => ?_⟩
      · cases hp.symm.trans hp'
      · have hhead : loop.wheel (loop.slotOf t) = _ := (inv.chain (.slot (loop.slotOf t))).head_eq
        rw [hhead, hl]
        rfl
    · -- The timer before it is in the same slot, and so it is active.
      refine absurd ⟨ha, fun p hp' => ?_, fun hp' => ?_⟩ hcan
      · cases hp.symm.trans hp'
        refine (inv.armed _ List.not_mem_nil).mpr ⟨.slot key, Place.noConfusion, ?_⟩
        rw [hl]
        exact List.mem_append_right pre List.mem_cons_self
      · cases hp.symm.trans hp'

/-- The slot of such a timer still leads to it after it was removed. -/
lemma Threaded.wheel_of_not_canUnlink (inv : Threaded loop none none [] lists)
    (ha : (loop.timerPool t).active = true) (hcan : ¬ CanUnlink loop t) :
    loop.prev t ≠ some t ∧ ∃ key post, Chain loop.next (loop.wheel key) (t :: post) ∧ t ∉ post ∧
      (timerRemove loop t).wheel key = some t := by
  obtain ⟨key, post, hl, hp, hne⟩ := inv.head_of_not_canUnlink ha hcan
  have c : Chain loop.next (loop.wheel key) (t :: post) := hl ▸ inv.chain (.slot key)
  have hprev : loop.prev t ≠ some t := by
    rw [hp]
    exact nofun
  refine ⟨hprev, key, post, c, (List.nodup_cons.mp c.nodup).1, ?_⟩
  rw [timerRemove_wheel ha hprev, if_pos hp, update_of_ne hne]
  exact c.head_eq

/-- Only a timer that can be unlinked is cancelled alone. -/
lemma Threaded.canUnlink_of_cancelsOnly (inv : Threaded loop none none [] lists)
    (ha : (loop.timerPool t).active = true) (h : CancelsOnly loop t) : CanUnlink loop t := by
  by_contra hcan
  obtain ⟨-, key, post, c, hnot, hw⟩ := inv.wheel_of_not_canUnlink ha hcan
  obtain ⟨l', c', hperm⟩ := h.1.slots key _ c
  have hw' : (timerCancel loop t).wheel key = some t := hw
  rw [if_neg nofun, List.erase_cons_head] at hperm
  have hmem : t ∈ l' := List.mem_of_mem_head? (c'.head_eq.symm.trans hw')
  exact hnot (hperm.mem_iff.mp hmem)

/-- Only a timer that can be unlinked is rearmed alone. -/
lemma Threaded.canUnlink_of_rearmsOnly (inv : Threaded loop none none [] lists)
    (ha : (loop.timerPool t).active = true) {delayMs : UInt32} (h : RearmsOnly loop t delayMs) :
    CanUnlink loop t := by
  by_contra hcan
  obtain ⟨hprev, key, post, c, hnot, hw⟩ := inv.wheel_of_not_canUnlink ha hcan
  obtain ⟨l', c', hperm⟩ := h.1.slots key _ c
  have hslot := withdrawn_slotOf ha hprev delayMs
  have hwheel : (timerRearm loop t delayMs).wheel key = some t := by
    rw [timerRearm_eq, timerInsert_wheel]
    by_cases hkey : key = (withdrawn loop t delayMs).slotOf t
    · subst hkey
      exact update_self _ _ _
    · exact (update_of_ne hkey _ _).trans hw
  have hmem : t ∈ l' := List.mem_of_mem_head? (c'.head_eq.symm.trans hwheel)
  by_cases hkey : key = timerSlot loop.currentMs (loop.currentMs + delayMs.toUInt64)
  · -- The timer is inserted before itself.
    refine c'.next_ne_self hmem ?_
    rw [timerRearm_eq, timerInsert_next, update_self]
    rw [← hslot] at hkey
    subst hkey
    exact congrArg some hw
  · rw [if_neg fun e => hkey (Option.some.inj e).symm, List.erase_cons_head] at hperm
    exact hnot (hperm.mem_iff.mp hmem)

end Cancel

/-- After a run whose calls are safe, every armed timer is in the list of one slot. Cancelling it,
and rearming it, touches no other timer exactly if it can be unlinked. -/
theorem timer_cancel_exact {calls : Nat → List TimerCall} {maxFds : UInt32} {start : UInt64}
    {ops : List TimerOp} {loop : EventLoop} {t : Ptr}
    (safe : RunCalls calls TimerCall.Safe maxFds start ops)
    (hrun : runNew calls maxFds start ops = some loop) (ht : (loop.timerPool t).active = true) :
    (∃! key, ∃ l, Chain loop.next (loop.wheel key) l ∧ t ∈ l) ∧
      (CancelsOnly loop t ↔ CanUnlink loop t) ∧
      ∀ delayMs, RearmsOnly loop t delayMs ↔ CanUnlink loop t := by
  obtain ⟨-, lists, inv⟩ := runNew_threaded safe hrun
  refine ⟨?_, ⟨inv.canUnlink_of_cancelsOnly ht, inv.cancelsOnly⟩,
    fun delayMs => ⟨inv.canUnlink_of_rearmsOnly ht, fun hcan => inv.rearmsOnly hcan delayMs⟩⟩
  obtain ⟨pl, hpl, htl⟩ := (inv.armed t List.not_mem_nil).mp ht
  obtain ⟨-, hfree⟩ | ⟨-, ⟨key, hkey, huniq⟩, -⟩ := inv.partition.place t (inv.bound pl t htl)
  · rw [ht] at hfree
    cases hfree.2
  · refine ⟨key, ⟨_, inv.chain (.slot key), hkey⟩, ?_⟩
    rintro key' ⟨l, c, htl'⟩
    rw [c.unique (inv.chain (.slot key'))] at htl'
    exact huniq key' htl'

/-- A repeating timer, after a callback has cancelled another one. -/
theorem timer_cancel_exact_sample :
    RunCalls sampleCallbacks TimerCall.Safe 2 0 sampleCancels.dropLast ∧
      ∃ loop, runNew sampleCallbacks 2 0 sampleCancels.dropLast = some loop ∧
        (loop.timerPool 2).active = true ∧
        (∃! key, ∃ l, Chain loop.next (loop.wheel key) l ∧ 2 ∈ l) ∧
        (CancelsOnly loop 2 ↔ CanUnlink loop 2) ∧
        ∀ delayMs, RearmsOnly loop 2 delayMs ↔ CanUnlink loop 2 := by
  have safe : RunCalls sampleCallbacks TimerCall.Safe 2 0 sampleCancels.dropLast := by
    decide +kernel
  have hactive : (runNew sampleCallbacks 2 0 sampleCancels.dropLast).map
      (fun loop => (loop.timerPool 2).active) = some true := by decide +kernel
  obtain ⟨loop, hrun, ht⟩ := Option.map_eq_some_iff.mp hactive
  exact ⟨safe, loop, hrun, ht, timer_cancel_exact safe hrun ht⟩

/-- A timer of the second level, one tick later: it is cancelled in a slot of the first level,
and the slot that holds it still leads to it when it is free. When it is rearmed, it is put
before itself. -/
theorem cancel_misses_slot :
    (runNew (fun _ => []) 1 0 [.call (.add 256 0 (some 0) 0), .process 0]).map
        (fun loop => ((loop.timerPool 0).active, loop.wheel (1, 1))) = some (true, some 0) ∧
      (runNew (fun _ => []) 1 0 [.call (.add 256 0 (some 0) 0), .process 0]).map
        (fun loop => ((timerCancel loop 0).wheel (1, 1), (timerCancel loop 0).timerFree)) =
          some (some 0, some 0) ∧
      (runNew (fun _ => []) 1 0 [.call (.add 256 0 (some 0) 0), .process 0]).map
        (fun loop => ((timerRearm loop 0 256).wheel (1, 1),
          ((timerRearm loop 0 256).timerPool 0).next)) =
          some (some 0, some 0) :=
  ⟨by decide +kernel, by decide +kernel, by decide +kernel⟩

end RoboControl.Timers
