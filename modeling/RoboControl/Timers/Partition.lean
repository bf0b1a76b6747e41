import RoboControl.Base.Run
import RoboControl.Timers.Threads

/-!
# The timer pool

Between the operations of a program every timer of the pool is on the free list or in the list of
one slot, provided that every timer which is cancelled or rearmed can be unlinked
(`timer_pool_partition`). A program makes calls of its own and in the callbacks of timers;
`RunCalls` says of all of them that they meet a condition in the state they are made in.
-/

namespace RoboControl.Timers
open Base Function

/-! ## Conditions on calls -/

/-- A timer that is cancelled or rearmed can be unlinked. -/
def TimerCall.Safe (loop : EventLoop) : TimerCall → Prop
  | .add _ _ _ _ => True
  | .cancel t => CanUnlink loop t
  | .rearm t _ => CanUnlink loop t

/-- A timer that is handed out is not armed. -/
def TimerCall.Fresh (loop : EventLoop) : TimerCall → Prop
  | .add delayMs intervalMs callback arg =>
    ∀ t ∈ (timerAdd loop delayMs intervalMs callback arg).1, (loop.timerPool t).active = false
  | .cancel _ => True
  | .rearm _ _ => True

section Conditions
variable (calls : Nat → List TimerCall) (C : EventLoop → TimerCall → Prop)

/-- Calls in order meet a condition. -/
def CallsMeet (inCallback : Bool) : EventLoop → List TimerCall → Prop
  | _, [] => True
  | loop, c :: cs => C loop c ∧ CallsMeet inCallback (c.apply inCallback loop) cs

/-- The loop when the callback of a timer starts. -/
def fireStart (loop : EventLoop) (t : Ptr) : EventLoop :=
  let loop := loop.modify t ({ · with active := false })
  { loop with fired := loop.fired ++
      [⟨(loop.timerPool t).intervalMs, (loop.timerPool t).arg, loop.currentMs⟩] }

/-- The loop when a walk has taken a timer out of its list. -/
def walkStart (loop : EventLoop) (t : Ptr) : EventLoop :=
  loop.modify t ({ · with next := none, prev := none })

/-- The calls of the callback of a timer that is walked over. -/
def WalkStepMeets (loop : EventLoop) (t : Ptr) : Prop :=
  loop.currentMs ≥ (loop.timerPool t).expiryMs →
    CallsMeet C true (fireStart (walkStart loop t) t) (calls loop.fired.length)

/-- The calls of the callbacks of a walk. -/
def WalkMeets : Nat → EventLoop → Option Ptr → Prop
  | _, _, none => True
  | 0, _, some _ => True
  | fuel + 1, loop, some t =>
    WalkStepMeets calls C loop t ∧
      ∀ loop' ∈ walkStep calls loop t, WalkMeets fuel loop' (loop.timerPool t).next

/-- The calls of the callbacks of a tick. -/
def TickMeets (loop : EventLoop) : Prop :=
  WalkMeets calls C loop.timerPoolSize.toNat (detach loop (0, loop.currentMs.toNat % timerSlots))
    (loop.wheel (0, loop.currentMs.toNat % timerSlots))

/-- The calls of the callbacks of a number of ticks. -/
def TicksMeet : Nat → EventLoop → Prop
  | 0, _ => True
  | n + 1, loop => TickMeets calls C loop ∧ ∀ loop' ∈ tick calls loop, TicksMeet n loop'

/-- The calls of a step of a program. -/
def TimerOp.Meets (loop : EventLoop) : TimerOp → Prop
  | .call c => C loop c
  | .process now => TicksMeet calls C (now.toNat + 1 - loop.currentMs.toNat) loop

/-- Every call of a run on a new loop meets a condition in the state it is made in. -/
def RunCalls (maxFds : UInt32) (start : UInt64) (ops : List TimerOp) : Prop :=
  ∀ loop ∈ loopCreate maxFds start, Along (TimerOp.apply calls) (TimerOp.Meets calls C) loop ops

end Conditions

instance (loop : EventLoop) : DecidablePred (TimerCall.Safe loop)
  | .add _ _ _ _ => inferInstanceAs (Decidable True)
  | .cancel t => inferInstanceAs (Decidable (CanUnlink loop t))
  | .rearm t _ => inferInstanceAs (Decidable (CanUnlink loop t))

section Decidable
variable (calls : Nat → List TimerCall) (C : EventLoop → TimerCall → Prop)
  [∀ loop, DecidablePred (C loop)]

instance decidableCallsMeet (inCallback : Bool) :
    ∀ loop, DecidablePred (CallsMeet C inCallback loop)
  | _, [] => inferInstanceAs (Decidable True)
  | loop, c :: cs =>
    have : Decidable (CallsMeet C inCallback (c.apply inCallback loop) cs) :=
      decidableCallsMeet inCallback (c.apply inCallback loop) cs
    inferInstanceAs (Decidable (C loop c ∧ CallsMeet C inCallback (c.apply inCallback loop) cs))

instance (loop : EventLoop) (t : Ptr) : Decidable (WalkStepMeets calls C loop t) :=
  inferInstanceAs (Decidable (_ → _))

instance decidableWalkMeets : ∀ fuel loop, DecidablePred (WalkMeets calls C fuel loop)
  | 0, _, none => inferInstanceAs (Decidable True)
  | _ + 1, _, none => inferInstanceAs (Decidable True)
  | 0, _, some _ => inferInstanceAs (Decidable True)
  | fuel + 1, loop, some t =>
    have : DecidablePred (WalkMeets calls C fuel · (loop.timerPool t).next) :=
      fun loop' => decidableWalkMeets fuel loop' (loop.timerPool t).next
    inferInstanceAs (Decidable (WalkStepMeets calls C loop t ∧
      ∀ loop' ∈ walkStep calls loop t, WalkMeets calls C fuel loop' (loop.timerPool t).next))

instance (loop : EventLoop) : Decidable (TickMeets calls C loop) :=
  inferInstanceAs (Decidable (WalkMeets calls C _ _ _))

instance decidableTicksMeet : ∀ n, DecidablePred (TicksMeet calls C n)
  | 0, _ => inferInstanceAs (Decidable True)
  | n + 1, loop =>
    have : DecidablePred (TicksMeet calls C n) := decidableTicksMeet n
    inferInstanceAs (Decidable (TickMeets calls C loop ∧
      ∀ loop' ∈ tick calls loop, TicksMeet calls C n loop'))

instance (loop : EventLoop) : DecidablePred (TimerOp.Meets calls C loop)
  | .call c => inferInstanceAs (Decidable (C loop c))
  | .process _ => inferInstanceAs (Decidable (TicksMeet calls C _ loop))

instance (maxFds : UInt32) (start : UInt64) (ops : List TimerOp) :
    Decidable (RunCalls calls C maxFds start ops) :=
  inferInstanceAs (Decidable (∀ loop ∈ loopCreate maxFds start,
    Along (TimerOp.apply calls) (TimerOp.Meets calls C) loop ops))

end Decidable

/-! ## Calls -/

section Calls
variable {loop : EventLoop} {rest firing : Option Ptr} {lists : Place → List Ptr} {t : Ptr}

/-- Free timers are idle and not held. -/
lemma Threaded.active_of_mem_free {out : List Ptr} (inv : Threaded loop rest firing out lists)
    (ht : t ∈ lists .free) : t ∉ out ∧ (loop.timerPool t).active = false := by
  have hout : t ∉ out := fun h => (inv.outside t h).2 .free ht
  refine ⟨hout, ?_⟩
  rw [← Bool.not_eq_true, inv.armed t hout]
  rintro ⟨pl, hpl, hp⟩
  exact inv.disjoint pl .free hpl hp ht

/-- A timer that is not held does not fire. -/
lemma Threaded.firing_ne (inv : Threaded loop rest firing firing.toList lists)
    (ht : t ∉ firing.toList) : firing ≠ some t := fun h => ht (inv.fired t h).1

/-- No timer joins those that are walked over. -/
def NoneJoins (lists lists' : Place → List Ptr) : Prop :=
  (lists' .inFlight).Sublist (lists .inFlight)

/-- Nothing happened. -/
lemma NoneJoins.refl (lists : Place → List Ptr) : NoneJoins lists lists := List.Sublist.refl _

/-- One after the other. -/
lemma NoneJoins.trans {lists₁ lists₂ : Place → List Ptr} (h : NoneJoins lists lists₁)
    (h' : NoneJoins lists₁ lists₂) : NoneJoins lists lists₂ := List.Sublist.trans h' h

/-- Other lists do not matter. -/
lemma noneJoins_update {pl : Place} (hpl : pl ≠ .inFlight) (l : List Ptr) :
    NoneJoins lists (update lists pl l) := by
  rw [NoneJoins, update_of_ne hpl.symm]

/-- Unlinking adds nothing. -/
lemma noneJoins_unlink (pl : Place) (t : Ptr) : NoneJoins lists (unlink lists pl t) := by
  by_cases hpl : pl = .inFlight
  · rw [NoneJoins, unlink, hpl, update_self]
    exact List.erase_sublist
  · exact noneJoins_update hpl _

/-- A new timer is taken from the free list and inserted. -/
lemma Threaded.add (inv : Threaded loop rest firing firing.toList lists)
    (delayMs intervalMs : UInt32) (callback : Option Nat) (arg : Nat) :
    (∀ t ∈ (timerAdd loop delayMs intervalMs callback arg).1, (loop.timerPool t).active = false) ∧
      ∃ lists', Threaded (timerAdd loop delayMs intervalMs callback arg).2 rest firing firing.toList
        lists' ∧ NoneJoins lists lists' := by
  rw [timerAdd.eq_def]
  split
  · exact ⟨nofun, lists, inv, .refl lists⟩
  · exact ⟨nofun, lists, inv, .refl lists⟩
  · next f t hfree =>
    obtain ⟨r, hl, inv₁⟩ := inv.popFree hfree
    obtain ⟨hout, ha⟩ := inv.active_of_mem_free (hl ▸ List.mem_cons_self)
    have hne := inv.firing_ne hout
    refine ⟨fun u hu => ?_, ?_⟩
    · cases hu
      exact ha
    · refine ⟨_, (inv₁.modify List.mem_cons_self fun h => absurd h hne).insert hout hne, ?_⟩
      exact (noneJoins_update Place.noConfusion r).trans (noneJoins_update Place.noConfusion _)

/-- A timer that can be unlinked is held afterwards. -/
lemma Threaded.unlinked (inv : Threaded loop rest firing firing.toList lists)
    (hrest : firing = none → rest = none) (hcan : CanUnlink loop t) :
    t ∉ firing.toList ∧ loop.prev t ≠ some t ∧
      ∃ pl, t ∈ lists pl ∧
        Threaded (timerRemove loop t) rest firing (t :: firing.toList) (unlink lists pl t) := by
  have hout : t ∉ firing.toList := fun h => by
    have ha := (inv.fired t (Option.mem_toList.mp h)).2
    rw [hcan.1] at ha
    cases ha
  refine ⟨hout, inv.remove (fun h => ?_) hout hcan⟩
  have links := inv.toLinks
  rw [hrest h] at links
  exact links.inFlight_eq_nil

/-- A call keeps the lists, and hands out no armed timer. -/
lemma Threaded.call (inv : Threaded loop rest firing firing.toList lists)
    (hrest : firing = none → rest = none) {c : TimerCall} (safe : c.Safe loop) (inCallback : Bool) :
    c.Fresh loop ∧ ∃ lists', Threaded (c.apply inCallback loop) rest firing firing.toList lists' ∧
      NoneJoins lists lists' := by
  cases c with
  | add delayMs intervalMs callback arg =>
    obtain ⟨hfresh, lists', inv', hjoin⟩ := inv.add delayMs intervalMs callback arg
    refine ⟨hfresh, lists', ?_, hjoin⟩
    rw [TimerCall.apply]
    split
    · next h => rwa [h] at inv'
    · next h =>
      rw [h] at inv'
      exact inv'.of_eq rfl rfl rfl rfl
  | cancel t =>
    obtain ⟨hout, -, pl, -, inv₁⟩ := inv.unlinked hrest safe
    exact ⟨trivial, _, inv₁.release hout (inv.firing_ne hout) (timerRemove_active_self loop t),
      (noneJoins_unlink pl t).trans (noneJoins_update Place.noConfusion _)⟩
  | rearm t delayMs =>
    obtain ⟨hout, -, pl, -, inv₁⟩ := inv.unlinked hrest safe
    have hne := inv.firing_ne hout
    exact ⟨trivial, _, (inv₁.modify List.mem_cons_self fun h => absurd h hne).insert hout hne,
      (noneJoins_unlink pl t).trans (noneJoins_update Place.noConfusion _)⟩

/-- Safe calls, one after the other. -/
lemma Threaded.calls (inv : Threaded loop rest firing firing.toList lists)
    (hrest : firing = none → rest = none) {inCallback : Bool} {cs : List TimerCall}
    (safe : CallsMeet TimerCall.Safe inCallback loop cs) :
    CallsMeet TimerCall.Fresh inCallback loop cs ∧
      ∃ lists', Threaded (cs.foldl (TimerCall.apply inCallback) loop) rest firing firing.toList
        lists' ∧ NoneJoins lists lists' := by
  induction cs generalizing loop lists with
  | nil => exact ⟨trivial, lists, inv, .refl lists⟩
  | cons c cs ih =>
    obtain ⟨hc, hcs⟩ := safe
    obtain ⟨hfresh, lists₁, inv₁, hjoin₁⟩ := inv.call hrest hc inCallback
    obtain ⟨hfresh', lists', inv', hjoin'⟩ := ih inv₁ hcs
    exact ⟨⟨hfresh, hfresh'⟩, lists', inv', hjoin₁.trans hjoin'⟩

end Calls

/-! ## Processing -/

section Processing
variable {calls : Nat → List TimerCall} {loop loop' : EventLoop} {lists : Place → List Ptr}
  {t : Ptr}

/-- After its callback a timer is in a slot or free again. -/
lemma Threaded.settle {rest : Option Ptr} (inv : Threaded loop rest (some t) [t] lists) :
    ∃ lists', Threaded (settle loop t) rest none [] lists' ∧ NoneJoins lists lists' := by
  have ha := (inv.fired t rfl).2
  have inv₁ := inv.endFiring
  rw [Timers.settle]
  split
  · exact ⟨_, (inv₁.modify_held _).insert_held, noneJoins_update Place.noConfusion _⟩
  · exact ⟨_, inv₁.release_held ha, noneJoins_update Place.noConfusion _⟩

/-- A step of the walk fires the timer or inserts it again. -/
lemma walkStep_eq (calls : Nat → List TimerCall) (loop : EventLoop) (t : Ptr) :
    walkStep calls loop t =
      if loop.currentMs ≥ (loop.timerPool t).expiryMs then
        if (loop.timerPool t).callback = none then none
        else some (settle ((calls loop.fired.length).foldl (TimerCall.apply true)
          (fireStart (walkStart loop t) t)) t)
      else some (timerInsert (walkStart loop t) t) := by
  simp only [walkStep, fire, modify_timerPool_self]
  rfl

/-- The lists when the callback of the timer that is walked over starts. -/
lemma Threaded.fireStart (inv : Threaded loop (some t) none [] lists) :
    ∃ r, lists .inFlight = t :: r ∧
      Threaded (fireStart (walkStart loop t) t) (loop.timerPool t).next (some t) [t]
        (update lists .inFlight r) := by
  obtain ⟨r, hl, inv₁, hback⟩ := inv.popFlight
  have inv₂ : Threaded (walkStart loop t) _ none [t] _ := inv₁.modify_held _
  have inactive : Threaded ((walkStart loop t).modify t ({ · with active := false })) _ none
    [t] _ :=
    inv₂.modify_held _
  have inv₃ : Threaded (Timers.fireStart (walkStart loop t) t) (loop.timerPool t).next none [t]
      (update lists .inFlight r) := inactive.of_eq rfl rfl rfl rfl
  have hnot : t ∉ r := by
    have hflight := (inv₁.outside t List.mem_cons_self).2 .inFlight
    rwa [update_self] at hflight
  have hback₃ : Back (Timers.fireStart (walkStart loop t) t).prev (some t)
      (update lists .inFlight r .inFlight) := by
    rw [update_self]
    refine hback.congr fun q hq => ?_
    simp [EventLoop.prev, Timers.fireStart, walkStart, ne_of_mem_of_not_mem hq hnot]
  exact ⟨r, hl, inv₃.startFiring hback₃ (by simp [Timers.fireStart])⟩

/-- The walk keeps the lists at each timer, and has one timer less to come to. -/
lemma Threaded.walkStep (inv : Threaded loop (some t) none [] lists)
    (safe : WalkStepMeets calls TimerCall.Safe loop t) (h : walkStep calls loop t = some loop') :
    WalkStepMeets calls TimerCall.Fresh loop t ∧
      ∃ lists', Threaded loop' (loop.timerPool t).next none [] lists' ∧
        (lists' .inFlight).length < (lists .inFlight).length := by
  have hless : ∀ r, lists .inFlight = t :: r →
      ∀ lists', NoneJoins (update lists .inFlight r) lists' →
      (lists' .inFlight).length < (lists .inFlight).length := fun r hl lists' hjoin => by
    rw [NoneJoins, update_self] at hjoin
    rw [hl]
    exact Nat.lt_succ_of_le hjoin.length_le
  rw [walkStep_eq] at h
  split at h
  · next hexp =>
    split at h
    · cases h
    · cases h
      obtain ⟨r, hl, inv₁⟩ := inv.fireStart
      obtain ⟨hfresh, lists₂, inv₂, hjoin₂⟩ :=
        Threaded.calls inv₁ (absurd · (Option.some_ne_none t)) (safe hexp)
      obtain ⟨lists₃, inv₃, hjoin₃⟩ := inv₂.settle
      exact ⟨fun _ => hfresh, lists₃, inv₃, hless r hl lists₃ (hjoin₂.trans hjoin₃)⟩
  · next hexp =>
    cases h
    obtain ⟨r, hl, inv₁, -⟩ := inv.popFlight
    have inv₂ : Threaded (walkStart loop t) _ none [t] _ := inv₁.modify_held _
    exact ⟨fun hexp' => absurd hexp' hexp, _, inv₂.insert_held,
      hless r hl _ (noneJoins_update Place.noConfusion _)⟩

/-- The walk keeps the lists. -/
lemma Threaded.walk {fuel : Nat} {rest : Option Ptr} (inv : Threaded loop rest none [] lists)
    (safe : WalkMeets calls TimerCall.Safe fuel loop rest)
    (h : walk calls fuel loop rest = some loop') :
    WalkMeets calls TimerCall.Fresh fuel loop rest ∧
      ∃ lists', Threaded loop' none none [] lists' := by
  induction fuel generalizing loop rest lists with
  | zero =>
    cases rest with
    | none =>
      cases h
      exact ⟨trivial, lists, inv⟩
    | some t => cases h
  | succ fuel ih =>
    cases rest with
    | none =>
      cases h
      exact ⟨trivial, lists, inv⟩
    | some t =>
      obtain ⟨hstep, hrest⟩ := safe
      rw [Timers.walk] at h
      obtain ⟨loop₁, h₁, h⟩ := Option.bind_eq_some_iff.mp h
      obtain ⟨hfresh, lists₁, inv₁, -⟩ := inv.walkStep hstep h₁
      obtain ⟨hfresh', inv'⟩ := ih inv₁ (hrest loop₁ h₁) h
      refine ⟨⟨hfresh, fun loop₂ h₂ => ?_⟩, inv'⟩
      cases h₁.symm.trans h₂
      exact hfresh'

/-- A cascade only moves timers. -/
lemma Threaded.reinsert {fuel : Nat} {rest : Option Ptr} (inv : Threaded loop rest none [] lists)
    (h : reinsert fuel loop rest = some loop') : ∃ lists', Threaded loop' none none [] lists' := by
  induction fuel generalizing loop rest lists with
  | zero =>
    cases rest with
    | none =>
      cases h
      exact ⟨lists, inv⟩
    | some t => cases h
  | succ fuel ih =>
    cases rest with
    | none =>
      cases h
      exact ⟨lists, inv⟩
    | some t =>
      obtain ⟨r, -, inv₁, -⟩ := inv.popFlight
      have inv₂ : Threaded (walkStart loop t) _ none [t] _ := inv₁.modify_held _
      exact ih (inv₂.insert_held) h

/-- The cascade of one level keeps the lists. -/
lemma Threaded.cascadeLevel (inv : Threaded loop none none [] lists) {lvl : Nat}
    (h : cascadeLevel loop lvl = some loop') : ∃ lists', Threaded loop' none none [] lists' := by
  rw [Timers.cascadeLevel] at h
  dsimp only at h
  split at h
  · cases h
  · have inv₁ : Threaded { loop with
        wheelTicks := update loop.wheelTicks lvl (loop.wheelTicks lvl + 1) } none none [] lists :=
      inv.of_eq rfl rfl rfl rfl
    exact (inv₁.detach _).reinsert h

/-- The cascade of all levels keeps the lists. -/
lemma Threaded.cascade (inv : Threaded loop none none [] lists) {lvls : List Nat}
    (h : cascade lvls loop = some loop') : ∃ lists', Threaded loop' none none [] lists' := by
  induction lvls generalizing loop lists with
  | nil =>
    cases h
    exact ⟨lists, inv⟩
  | cons lvl lvls ih =>
    rw [Timers.cascade] at h
    obtain ⟨loop₁, h₁, h⟩ := Option.bind_eq_some_iff.mp h
    obtain ⟨lists₁, inv₁⟩ := inv.cascadeLevel h₁
    split at h
    · cases h
      exact ⟨lists₁, inv₁⟩
    · exact ih inv₁ h

/-- A tick whose calls are safe. -/
lemma Threaded.tick (inv : Threaded loop none none [] lists)
    (safe : TickMeets calls TimerCall.Safe loop) (h : tick calls loop = some loop') :
    TickMeets calls TimerCall.Fresh loop ∧ ∃ lists', Threaded loop' none none [] lists' := by
  rw [Timers.tick] at h
  obtain ⟨loop₁, h₁, h⟩ := Option.bind_eq_some_iff.mp h
  obtain ⟨hfresh, lists₁, inv₁⟩ := (inv.detach _).walk safe h₁
  have inv₂ : Threaded { loop₁ with currentMs := loop₁.currentMs + 1 } none none [] lists₁ :=
    inv₁.of_eq rfl rfl rfl rfl
  refine ⟨hfresh, ?_⟩
  dsimp only at h
  split at h
  · exact inv₂.cascade h
  · cases h
    exact ⟨lists₁, inv₂⟩

/-- Ticks whose calls are safe. -/
lemma Threaded.ticks (inv : Threaded loop none none [] lists) {n : Nat}
    (safe : TicksMeet calls TimerCall.Safe n loop) (h : ticks calls n loop = some loop') :
    TicksMeet calls TimerCall.Fresh n loop ∧ ∃ lists', Threaded loop' none none [] lists' := by
  induction n generalizing loop lists with
  | zero =>
    cases h
    exact ⟨trivial, lists, inv⟩
  | succ n ih =>
    obtain ⟨htick, hrest⟩ := safe
    rw [Timers.ticks] at h
    obtain ⟨loop₁, h₁, h⟩ := Option.bind_eq_some_iff.mp h
    obtain ⟨hfresh, lists₁, inv₁⟩ := inv.tick htick h₁
    obtain ⟨hfresh', inv'⟩ := ih inv₁ (hrest loop₁ h₁) h
    refine ⟨⟨hfresh, fun loop₂ h₂ => ?_⟩, inv'⟩
    cases h₁.symm.trans h₂
    exact hfresh'

/-- A step of a program keeps the lists. -/
lemma Threaded.op (inv : Threaded loop none none [] lists) {op : TimerOp}
    (safe : op.Meets calls TimerCall.Safe loop) (h : op.apply calls loop = some loop') :
    op.Meets calls TimerCall.Fresh loop ∧ ∃ lists', Threaded loop' none none [] lists' := by
  cases op with
  | call c =>
    cases h
    have inv₀ : Threaded loop none none (Option.toList none) lists := inv
    obtain ⟨hfresh, lists', inv', -⟩ := inv₀.call (fun _ => rfl) safe false
    exact ⟨hfresh, lists', inv'⟩
  | process now =>
    rw [TimerOp.apply, processTimers] at h
    split at h
    · cases h
    · exact inv.ticks safe h

end Processing

/-! ## Runs -/

section Runs
variable {calls : Nat → List TimerCall} {loop loop' : EventLoop} {lists : Place → List Ptr}

/-- A run whose calls are safe. -/
lemma Threaded.run (inv : Threaded loop none none [] lists) {ops : List TimerOp}
    (safe : Along (TimerOp.apply calls) (TimerOp.Meets calls TimerCall.Safe) loop ops)
    (h : run calls loop ops = some loop') :
    Along (TimerOp.apply calls) (TimerOp.Meets calls TimerCall.Fresh) loop ops ∧
      ∃ lists', Threaded loop' none none [] lists' := by
  induction ops generalizing loop lists with
  | nil =>
    cases h
    exact ⟨trivial, lists, inv⟩
  | cons op ops ih =>
    obtain ⟨hop, hrest⟩ := safe
    obtain ⟨loop₁, h₁, h⟩ := foldlM_cons_eq_some h
    obtain ⟨hfresh, lists₁, inv₁⟩ := inv.op hop h₁
    obtain ⟨hfresh', inv'⟩ := ih inv₁ (hrest loop₁ h₁) h
    refine ⟨⟨hfresh, fun loop₂ h₂ => ?_⟩, inv'⟩
    cases h₁.symm.trans h₂
    exact hfresh'

/-- The lists after a run whose calls are safe. -/
lemma runNew_threaded {maxFds : UInt32} {start : UInt64} {ops : List TimerOp}
    (safe : RunCalls calls TimerCall.Safe maxFds start ops)
    (h : runNew calls maxFds start ops = some loop) :
    RunCalls calls TimerCall.Fresh maxFds start ops ∧
      ∃ lists, Threaded loop none none [] lists := by
  obtain ⟨loop₀, h₀, h⟩ := Option.bind_eq_some_iff.mp h
  obtain ⟨hfresh, inv⟩ := (loopCreate_threaded h₀).run (safe loop₀ h₀) h
  refine ⟨fun loop₁ h₁ => ?_, inv⟩
  cases h₀.symm.trans h₁
  exact hfresh

/-- Every timer of the pool is once on the free list and not active, or once in the list of one
slot and active. -/
structure Partition (loop : EventLoop) (free : List Ptr) (slots : Nat × Nat → List Ptr) : Prop where
  freeList : Chain loop.next loop.timerFree free
  slotList : ∀ key, Chain loop.next (loop.wheel key) (slots key)
  freeOnce : free.Nodup
  slotOnce : ∀ key, (slots key).Nodup
  place : ∀ p < loop.timerPoolSize.toNat,
    (p ∈ free ∧ (∀ key, p ∉ slots key) ∧ (loop.timerPool p).active = false) ∨
      (p ∉ free ∧ (∃! key, p ∈ slots key) ∧ (loop.timerPool p).active = true)

/-- The lists between operations partition the pool. -/
lemma Threaded.partition (inv : Threaded loop none none [] lists) :
    Partition loop (lists .free) fun key => lists (.slot key) := by
  refine ⟨inv.chain .free, fun key => inv.chain (.slot key), (inv.chain .free).nodup,
    fun key => (inv.chain (.slot key)).nodup, fun p hp => ?_⟩
  obtain ⟨pl, hpl⟩ := inv.cover p hp List.not_mem_nil
  cases pl with
  | free =>
    refine .inl ⟨hpl, fun key hkey => ?_, (inv.active_of_mem_free hpl).2⟩
    exact inv.disjoint _ _ Place.noConfusion hpl hkey
  | slot key =>
    refine .inr ⟨fun hfree => ?_, ⟨key, hpl, fun key' hkey' => ?_⟩, ?_⟩
    · exact inv.disjoint _ _ Place.noConfusion hpl hfree
    · by_contra hne
      exact inv.disjoint _ _ (fun e => hne (Place.slot.inj e)) hkey' hpl
    · exact (inv.armed p List.not_mem_nil).mpr ⟨_, Place.noConfusion, hpl⟩
  | inFlight =>
    rw [inv.inFlight_eq_nil] at hpl
    cases hpl

/-- After every run in which the timers that are cancelled or rearmed can be unlinked, the pool is
partitioned, and no timer was handed out that was still armed. -/
theorem timer_pool_partition {maxFds : UInt32} {start : UInt64} {ops : List TimerOp}
    (safe : RunCalls calls TimerCall.Safe maxFds start ops)
    (hrun : runNew calls maxFds start ops = some loop) :
    (∃ free slots, Partition loop free slots) ∧
      RunCalls calls TimerCall.Fresh maxFds start ops := by
  obtain ⟨hfresh, lists, inv⟩ := runNew_threaded safe hrun
  exact ⟨⟨_, _, inv.partition⟩, hfresh⟩

/-- The first callback cancels a timer that is walked over later, the second adds one. -/
def sampleCallbacks : Nat → List TimerCall
  | 0 => [.cancel 0]
  | 1 => [.add 5 0 (some 0) 13]
  | _ => []

/-- Three timers expire at the same tick, one of them repeats and is cancelled afterwards. -/
def sampleCancels : List TimerOp :=
  [.call (.add 1 0 (some 0) 10), .call (.add 1 0 (some 0) 11), .call (.add 1 7 (some 0) 12),
    .process 1, .call (.cancel 2)]

/-- A callback cancels a timer, another one adds one. -/
theorem timer_pool_partition_sample :
    RunCalls sampleCallbacks TimerCall.Safe 2 0 sampleCancels ∧
      (∃ loop, runNew sampleCallbacks 2 0 sampleCancels = some loop ∧
        ∃ free slots, Partition loop free slots) ∧
      RunCalls sampleCallbacks TimerCall.Fresh 2 0 sampleCancels := by
  have safe : RunCalls sampleCallbacks TimerCall.Safe 2 0 sampleCancels := by decide +kernel
  have hsome : (runNew sampleCallbacks 2 0 sampleCancels).isSome = true := by decide +kernel
  obtain ⟨loop, hrun⟩ := Option.isSome_iff_exists.mp hsome
  obtain ⟨hpart, hfresh⟩ := timer_pool_partition safe hrun
  exact ⟨safe, ⟨loop, hrun, hpart⟩, hfresh⟩

/-- A callback that cancels its own timer, which fires once, frees it twice: the free list leads
from the timer back to it. It is then handed out by every call, also while it is armed. -/
theorem cancel_in_callback_frees_twice :
    (runNew (fun _ => [.cancel 0]) 1 0 [.call (.add 0 0 (some 0) 0), .process 0]).map
        (fun loop => (loop.timerFree, (loop.timerPool 0).next)) = some (some 0, some 0) ∧
      (runNew (fun _ => [.cancel 0]) 1 0
          [.call (.add 0 0 (some 0) 0), .process 0, .call (.add 9 0 (some 0) 1)]).map
        (fun loop => ((loop.timerPool 0).active, (timerAdd loop 9 0 (some 0) 2).1)) =
          some (true, some 0) :=
  ⟨by decide +kernel, by decide +kernel⟩

end Runs

end RoboControl.Timers
