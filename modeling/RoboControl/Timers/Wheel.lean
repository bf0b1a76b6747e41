import Mathlib.Logic.Function.Basic
import Mathlib.Tactic

/-!
# Timer wheel

Model of the timers of `src/core/rc_epoll.c`: the pool and the wheel of an event loop, the
operations `timerAdd` (C `rc_timer_add`), `timerCancel` (C `rc_timer_cancel`) and `timerRearm` (C
`rc_timer_rearm`), and `processTimers` (C `process_timers`) with its walk over a slot and its
cascades.

A timer is an index into the pool; a slot holds the first timer of a doubly linked list. `none` as
the result of a step stands for what the C program does not define or does not leave: an access to
`wheel[lvl]` out of bounds, a call of a null callback, a walk that does not end. What a callback
does is an argument: `calls n` are the calls on the loop which the callback makes that is run after
`n` others. The fields `added` and `fired` are no data of the program; they record what happened to
it.
-/

namespace RoboControl.Timers
open Function

/-- Slots of each level of the wheel (C `RC_TIMER_SLOTS`). -/
def timerSlots : Nat := 256

/-- Levels of the wheel (C `RC_TIMER_LEVELS`). -/
def timerLevels : Nat := 4

/-- An element of the timer pool. -/
abbrev Ptr := Nat

/-- A timer (C `rc_timer_t`); functions and their arguments are numbered. -/
structure Timer where
  expiryMs : UInt64 := 0
  intervalMs : UInt32 := 0
  callback : Option Nat := none
  arg : Nat := 0
  active : Bool := false
  next : Option Ptr := none
  prev : Option Ptr := none
  deriving DecidableEq

/-- A successful call of `rc_timer_add`: its arguments, the time of the loop, and whether a callback
made it. -/
structure Added where
  delayMs : UInt32
  intervalMs : UInt32
  arg : Nat
  atMs : UInt64
  inCallback : Bool
  deriving DecidableEq

/-- A call of a timer's callback: the timer's interval and argument, and the tick. -/
structure Fired where
  intervalMs : UInt32
  arg : Nat
  tick : UInt64
  deriving DecidableEq

/-- The timers of an event loop (C `rc_event_loop_t`). -/
structure EventLoop where
  wheel : Nat × Nat → Option Ptr
  currentMs : UInt64
  wheelTicks : Nat → UInt32
  timerPool : Ptr → Timer
  timerFree : Option Ptr
  timerPoolSize : UInt32
  added : List Added
  fired : List Fired

/-- Number of timers for a number of descriptors (C `rc_loop_create`). -/
def timerPoolSize (maxFds : UInt32) : UInt32 := (if maxFds = 0 then 1024 else maxFds) * 2

/-- A new loop at time `now` (C `rc_loop_create`). A pool size that wraps to zero makes the loop
which links the free list run off the pool. -/
def loopCreate (maxFds : UInt32) (now : UInt64) : Option EventLoop :=
  if timerPoolSize maxFds = 0 then none
  else some {
    wheel := fun _ => none
    currentMs := now
    wheelTicks := fun _ => 0
    timerPool := fun i =>
      { next := if i + 1 < (timerPoolSize maxFds).toNat then some (i + 1) else none }
    timerFree := some 0
    timerPoolSize := timerPoolSize maxFds
    added := []
    fired := [] }

/-- Change a timer in place. -/
def EventLoop.modify (loop : EventLoop) (t : Ptr) (f : Timer → Timer) : EventLoop :=
  { loop with timerPool := update loop.timerPool t (f (loop.timerPool t)) }

/-! ## Slots -/

/-- Level and slot of an expiry time (C `timer_slot`). -/
def timerSlot (currentMs expiryMs : UInt64) : Nat × Nat :=
  -- An expiry time in the past wraps around and counts as one far in the future.
  let delta := (expiryMs - currentMs).toNat
  if delta < timerSlots then (0, expiryMs.toNat % timerSlots)
  else if delta < timerSlots * timerSlots then (1, expiryMs.toNat / timerSlots % timerSlots)
  else if delta < timerSlots * timerSlots * timerSlots then
    (2, expiryMs.toNat / (timerSlots * timerSlots) % timerSlots)
  else (3, expiryMs.toNat / (timerSlots * timerSlots * timerSlots) % timerSlots)

/-- Insert a timer at the head of its slot (C `timer_insert`). -/
def timerInsert (loop : EventLoop) (t : Ptr) : EventLoop :=
  let key := timerSlot loop.currentMs (loop.timerPool t).expiryMs
  let loop := loop.modify t ({ · with prev := none, next := loop.wheel key })
  let loop :=
    match loop.wheel key with
    | some h => loop.modify h ({ · with prev := some t })
    | none => loop
  let loop := { loop with wheel := update loop.wheel key (some t) }
  loop.modify t ({ · with active := true })

/-- Remove a timer from its slot, which is computed anew for the head of a list (C
`timer_remove`). -/
def timerRemove (loop : EventLoop) (t : Ptr) : EventLoop :=
  if (loop.timerPool t).active = false then loop
  else
    let loop :=
      match (loop.timerPool t).prev with
      | some p => loop.modify p ({ · with next := (loop.timerPool t).next })
      | none =>
        -- The slot is not stored: it is the one the timer would get now.
        let key := timerSlot loop.currentMs (loop.timerPool t).expiryMs
        { loop with wheel := update loop.wheel key (loop.timerPool t).next }
    let loop :=
      match (loop.timerPool t).next with
      | some n => loop.modify n ({ · with prev := (loop.timerPool t).prev })
      | none => loop
    loop.modify t ({ · with next := none, prev := none, active := false })

/-! ## Operations -/

/-- Take a timer from the pool and arm it (C `rc_timer_add`). -/
def timerAdd (loop : EventLoop) (delayMs intervalMs : UInt32) (callback : Option Nat) (arg : Nat) :
    Option Ptr × EventLoop :=
  match callback, loop.timerFree with
  | none, _ => (none, loop)
  | some _, none => (none, loop)
  | some f, some t =>
    let loop := { loop with timerFree := (loop.timerPool t).next }
    let loop := loop.modify t fun _ =>
      { expiryMs := loop.currentMs + delayMs.toUInt64
        intervalMs := intervalMs
        callback := some f
        arg := arg
        active := false
        next := none
        prev := none }
    (some t, timerInsert loop t)

/-- Put a timer on the free list. -/
def timerRelease (loop : EventLoop) (t : Ptr) : EventLoop :=
  { loop.modify t ({ · with next := loop.timerFree }) with timerFree := some t }

/-- Cancel a timer (C `rc_timer_cancel`). -/
def timerCancel (loop : EventLoop) (t : Ptr) : EventLoop :=
  timerRelease (timerRemove loop t) t

/-- Arm a timer anew (C `rc_timer_rearm`). -/
def timerRearm (loop : EventLoop) (t : Ptr) (delayMs : UInt32) : EventLoop :=
  let loop := timerRemove loop t
  let loop := loop.modify t ({ · with expiryMs := loop.currentMs + delayMs.toUInt64 })
  timerInsert loop t

/-- A call on the timers of a loop. -/
inductive TimerCall where
  | add (delayMs intervalMs : UInt32) (callback : Option Nat) (arg : Nat)
  | cancel (t : Ptr)
  | rearm (t : Ptr) (delayMs : UInt32)
  deriving DecidableEq

/-- Make a call, and record a timer it creates. -/
def TimerCall.apply (inCallback : Bool) (loop : EventLoop) : TimerCall → EventLoop
  | .add delayMs intervalMs callback arg =>
    match timerAdd loop delayMs intervalMs callback arg with
    | (none, loop) => loop
    | (some _, loop') =>
      { loop' with
        added := loop'.added ++ [⟨delayMs, intervalMs, arg, loop.currentMs, inCallback⟩] }
  | .cancel t => timerCancel loop t
  | .rearm t delayMs => timerRearm loop t delayMs

/-! ## Processing -/

section Processing
variable (calls : Nat → List TimerCall)

/-- Run the callback of a timer: record it, then make its calls. -/
def runCallback (loop : EventLoop) (t : Ptr) : EventLoop :=
  let record : Fired := ⟨(loop.timerPool t).intervalMs, (loop.timerPool t).arg, loop.currentMs⟩
  (calls loop.fired.length).foldl (TimerCall.apply true)
    { loop with fired := loop.fired ++ [record] }

/-- After its callback, arm a timer again if it repeats, and free it otherwise. -/
def settle (loop : EventLoop) (t : Ptr) : EventLoop :=
  if (loop.timerPool t).intervalMs > 0 then
    let expiryMs := loop.currentMs + (loop.timerPool t).intervalMs.toUInt64
    timerInsert (loop.modify t ({ · with expiryMs := expiryMs })) t
  else timerRelease loop t

/-- Fire a timer that has expired. -/
def fire (loop : EventLoop) (t : Ptr) : Option EventLoop :=
  let loop := loop.modify t ({ · with active := false })
  if (loop.timerPool t).callback = none then none
  else some (settle (runCallback calls loop t) t)

/-- The body of the walk over a slot, for one timer. -/
def walkStep (loop : EventLoop) (t : Ptr) : Option EventLoop :=
  let loop := loop.modify t ({ · with next := none, prev := none })
  -- A slot may also hold timers of a later round.
  if loop.currentMs ≥ (loop.timerPool t).expiryMs then fire calls loop t
  else some (timerInsert loop t)

/-- The walk over the timers of the current slot, from `t` on. -/
def walk : Nat → EventLoop → Option Ptr → Option EventLoop
  | _, loop, none => some loop
  | 0, _, some _ => none
  | fuel + 1, loop, some t => do
    let loop' ← walkStep calls loop t
    walk fuel loop' (loop.timerPool t).next

/-- Insert the timers of a slot of a higher level anew, from `t` on. -/
def reinsert : Nat → EventLoop → Option Ptr → Option EventLoop
  | _, loop, none => some loop
  | 0, _, some _ => none
  | fuel + 1, loop, some t =>
    let loop' := timerInsert (loop.modify t ({ · with next := none, prev := none })) t
    reinsert fuel loop' (loop.timerPool t).next

/-- Detach the list of a slot. -/
def detach (loop : EventLoop) (key : Nat × Nat) : EventLoop :=
  { loop with wheel := update loop.wheel key none }

/-- Empty the slot at the cursor of a level, and advance the cursor. The cursor is not reduced. -/
def cascadeLevel (loop : EventLoop) (lvl : Nat) : Option EventLoop :=
  let parentSlot := loop.wheelTicks lvl
  let loop := { loop with wheelTicks := update loop.wheelTicks lvl (parentSlot + 1) }
  -- `wheel[lvl]` has no such element.
  if parentSlot.toNat ≥ timerSlots then none
  else
    let key := (lvl, parentSlot.toNat)
    reinsert loop.timerPoolSize.toNat (detach loop key) (loop.wheel key)

/-- Cascade the levels in order, until a cursor is not at a multiple of the slots. -/
def cascade : List Nat → EventLoop → Option EventLoop
  | [], loop => some loop
  | lvl :: lvls, loop => do
    let loop ← cascadeLevel loop lvl
    if (loop.wheelTicks lvl).toNat % timerSlots ≠ 0 then some loop else cascade lvls loop

/-- One tick: the body of the outer loop of `process_timers`. -/
def tick (loop : EventLoop) : Option EventLoop := do
  let slot := loop.currentMs.toNat % timerSlots
  let loop ← walk calls loop.timerPoolSize.toNat (detach loop (0, slot)) (loop.wheel (0, slot))
  let loop := { loop with currentMs := loop.currentMs + 1 }
  if slot = 0 then cascade (List.range' 1 (timerLevels - 1)) loop else some loop

/-- A number of ticks. -/
def ticks : Nat → EventLoop → Option EventLoop
  | 0, loop => some loop
  | n + 1, loop => do
    let loop ← tick calls loop
    ticks n loop

/-- Process all ticks up to the time `now` (C `process_timers`). At the last value of the clock the
loop of the source does not end. -/
def processTimers (loop : EventLoop) (now : UInt64) : Option EventLoop :=
  if now.toNat + 1 = 2 ^ 64 then none
  else ticks calls (now.toNat + 1 - loop.currentMs.toNat) loop

/-- A step of a program that uses the timers of a loop: a call, or a pass at a time of the clock. -/
inductive TimerOp where
  | call (c : TimerCall)
  | process (now : UInt64)
  deriving DecidableEq

/-- Make one step. -/
def TimerOp.apply (loop : EventLoop) : TimerOp → Option EventLoop
  | .call c => some (c.apply false loop)
  | .process now => processTimers calls loop now

/-- Make the steps in order. -/
def run (loop : EventLoop) (ops : List TimerOp) : Option EventLoop :=
  ops.foldlM (TimerOp.apply calls) loop

/-- Make the steps on a new loop. -/
def runNew (maxFds : UInt32) (start : UInt64) (ops : List TimerOp) : Option EventLoop := do
  let loop ← loopCreate maxFds start
  run calls loop ops

end Processing

end RoboControl.Timers
