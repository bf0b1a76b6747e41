import RoboControl.Base.Run
import RoboControl.Watchers.Dispatch

/-!
# Stopping the event loop

Model of `rc_loop_run`, `rc_loop_stop` and `rc_loop_wakeup` of `src/core/rc_epoll.c` with other
threads. The thread of the loop tests `running`, processes timers, waits for events and handles
them; other threads and the callbacks clear `running` and write to the eventfd, which makes
`epoll_wait` return. The eventfd is only read between the wait and the next test, so a stop is not
lost there. `loop_stops` says that after a stop the loop makes only the steps of one more batch, and
does not block in a wait. A stop before the start is lost, since `rc_loop_run` sets `running`.

What the callbacks do apart from stops does not matter here: `Watchers.Dispatch` and `Timers` have
it.
-/

namespace RoboControl.Loop
open Base
open Watchers (epollMaxEvents)

/-- Where the thread of the loop is: before the start, at the test of `running`, before the timers,
in `epoll_wait`, in the loop over the events of a batch, or behind the loop. An event is `true` if
it is that of the eventfd. -/
inductive Place where
  | outside
  | test
  | timers
  | wait
  | events (batch : List Bool)
  | done
  deriving DecidableEq

/-- What the threads share, the place of the loop, and the number of threads that have cleared
`running` and have not written to the eventfd yet. -/
structure LoopState where
  place : Place
  running : Bool
  eventfd : UInt64
  stopping : Nat
  deriving DecidableEq

/-- A loop after `rc_loop_create`. -/
def LoopState.created : LoopState := ⟨.outside, false, 0, 0⟩

/-- Write 1 to an eventfd that does not block: it fails if the counter has no room. -/
def eventfdWrite (counter : UInt64) : UInt64 :=
  if counter < 0xfffffffffffffffe then counter + 1 else counter

/-- A step of the loop: its start, the test, the timers, the four ways in which `epoll_wait`
returns, and an event or the end of the batch. A step of other threads or of callbacks: the two
parts of `rc_loop_stop`, and `rc_loop_wakeup`. -/
inductive LoopAct where
  | start
  | test
  | timers
  | ready (batch : List Bool)
  | timeout
  | interrupted
  | failed
  | event
  | clear
  | wake
  | wakeup
  deriving DecidableEq

/-- A step that the loop makes after its start. -/
def LoopAct.ofLoop : LoopAct → Bool
  | .test | .timers | .ready _ | .timeout | .interrupted | .failed | .event => true
  | .start | .clear | .wake | .wakeup => false

/-- What a step does to a loop; `none` if the loop is at another place, or `epoll_wait` cannot
return in this way. -/
def LoopState.step (s : LoopState) : LoopAct → Option LoopState
  | .start => if s.place = .outside then some { s with place := .test, running := true } else none
  | .test =>
    if s.place = .test then some { s with place := if s.running then .timers else .done } else none
  | .timers => if s.place = .timers then some { s with place := .wait } else none
  | .ready batch =>
    if s.place = .wait ∧ batch ≠ [] ∧ batch.length ≤ epollMaxEvents ∧
        (true ∈ batch → 0 < s.eventfd) then
      some { s with place := .events batch }
    else none
  -- Nothing was ready, the eventfd in particular.
  | .timeout =>
    if s.place = .wait ∧ s.eventfd = 0 then some { s with place := .events [] } else none
  | .interrupted => if s.place = .wait then some { s with place := .test } else none
  | .failed => if s.place = .wait then some { s with place := .done } else none
  | .event => match s.place with
    | .events [] => some { s with place := .test }
    | .events (e :: batch) =>
      some { s with place := .events batch, eventfd := if e then 0 else s.eventfd }
    | _ => none
  | .clear => some { s with running := false, stopping := s.stopping + 1 }
  | .wake =>
    if 0 < s.stopping then
      some { s with eventfd := eventfdWrite s.eventfd, stopping := s.stopping - 1 }
    else none
  | .wakeup => some { s with eventfd := eventfdWrite s.eventfd }

/-- The eventfd becomes readable. -/
lemma eventfdWrite_pos (counter : UInt64) : 0 < eventfdWrite counter := by
  rw [eventfdWrite]
  split
  · next h =>
    rw [UInt64.lt_iff_toNat_lt, UInt64.toNat_add] at *
    simp at *
    omega
  · next h =>
    rw [UInt64.not_lt] at h
    exact UInt64.lt_of_lt_of_le (by decide) h

/-- The steps that the loop can still make once `running` is cleared. -/
def LoopState.remaining (s : LoopState) : Nat :=
  match s.place with
  | .outside | .done => 0
  | .test => 1
  | .events batch => batch.length + 2
  | .wait => epollMaxEvents + 3
  | .timers => epollMaxEvents + 4

/-- What a step of the loop does: it comes to the timers only if it is running, and to the wait only
from the timers. -/
structure LoopMove (s : LoopState) (a : LoopAct) (s' : LoopState) : Prop where
  running : s'.running = s.running
  started : s'.place ≠ .outside
  timers : s'.place = .timers → s.running = true
  wait : s'.place = .wait → s.place = .timers ∧ s'.eventfd = s.eventfd ∧ s'.stopping = s.stopping
  ended : s'.place = .done → s.running = false ∨ a = .failed
  remaining : s.running = false → s'.remaining + 1 ≤ s.remaining
  bound : s.remaining ≤ epollMaxEvents + 4 → s'.remaining ≤ epollMaxEvents + 4

section Steps
variable {since : List LoopAct} {a : LoopAct} {s s' : LoopState}

lemma remaining_congr (h : s'.place = s.place) : s'.remaining = s.remaining := by
  rw [LoopState.remaining, LoopState.remaining, h]

/-- A step is one of the loop, or the first part of a stop, or a write. -/
lemma step_cases (hstarted : s.place ≠ .outside) (hstep : s.step a = some s') :
    (a.ofLoop = true ∧ LoopMove s a s') ∨
      (a = .clear ∧ s' = { s with running := false, stopping := s.stopping + 1 }) ∨
      ((a = .wake ∨ a = .wakeup) ∧ s'.place = s.place ∧ s'.running = s.running ∧
        0 < s'.eventfd) := by
  obtain ⟨place, running, eventfd, stopping⟩ := s
  cases a with
  | start =>
    rw [LoopState.step, Option.ite_none_right_eq_some] at hstep
    exact absurd hstep.1 hstarted
  | test =>
    rw [LoopState.step, Option.ite_none_right_eq_some, Option.some.injEq] at hstep
    obtain ⟨rfl, rfl⟩ := hstep
    refine .inl ⟨rfl, ?_⟩
    cases running with
    | false =>
      exact ⟨rfl, by simp, by simp, by simp, fun _ => .inl rfl, fun _ => le_rfl,
      fun _ => Nat.zero_le _⟩
    | true => exact ⟨rfl, by simp, fun _ => rfl, by simp, by simp, by simp, fun _ => le_rfl⟩
  | timers =>
    rw [LoopState.step, Option.ite_none_right_eq_some, Option.some.injEq] at hstep
    obtain ⟨rfl, rfl⟩ := hstep
    exact .inl ⟨rfl, rfl, by simp, by simp, fun _ => ⟨rfl, rfl, rfl⟩, by simp, fun _ => le_rfl,
      fun _ => Nat.le_succ _⟩
  | ready batch =>
    rw [LoopState.step, Option.ite_none_right_eq_some, Option.some.injEq] at hstep
    obtain ⟨⟨rfl, -, hlen, -⟩, rfl⟩ := hstep
    exact .inl ⟨rfl, rfl, by simp, by simp, by simp, by simp, fun _ => Nat.add_le_add_right hlen 3,
      fun _ => Nat.add_le_add hlen (by decide)⟩
  | timeout =>
    rw [LoopState.step, Option.ite_none_right_eq_some, Option.some.injEq] at hstep
    obtain ⟨⟨rfl, -⟩, rfl⟩ := hstep
    exact .inl ⟨rfl, rfl, by simp, by simp, by simp, by simp, fun _ => Nat.le_add_left 3 _,
      fun _ => Nat.le_add_left 2 (epollMaxEvents + 2)⟩
  | interrupted =>
    rw [LoopState.step, Option.ite_none_right_eq_some, Option.some.injEq] at hstep
    obtain ⟨rfl, rfl⟩ := hstep
    exact .inl ⟨rfl, rfl, by simp, by simp, by simp, by simp, fun _ => Nat.le_add_left 2 _,
      fun _ => Nat.le_add_left 1 (epollMaxEvents + 3)⟩
  | failed =>
    rw [LoopState.step, Option.ite_none_right_eq_some, Option.some.injEq] at hstep
    obtain ⟨rfl, rfl⟩ := hstep
    exact .inl ⟨rfl, rfl, by simp, by simp, by simp, by simp, fun _ => Nat.le_add_left 1 _,
      fun _ => Nat.zero_le _⟩
  | event =>
    rw [LoopState.step] at hstep
    dsimp only at hstep
    split at hstep
    · cases hstep
      exact .inl ⟨rfl, rfl, by simp, by simp, by simp, by simp, fun _ => le_rfl,
        fun _ => Nat.le_add_left 1 (epollMaxEvents + 3)⟩
    · next e batch =>
      cases hstep
      exact .inl ⟨rfl, rfl, by simp, by simp, by simp, by
        simp, fun _ => (Nat.add_right_comm batch.length 2 1).le, fun h =>
          (Nat.add_le_add_right (Nat.le_succ _) 2).trans h⟩
    · cases hstep
  | clear =>
    cases hstep
    exact .inr (.inl ⟨rfl, rfl⟩)
  | wake =>
    rw [LoopState.step, Option.ite_none_right_eq_some, Option.some.injEq] at hstep
    obtain ⟨-, rfl⟩ := hstep
    exact .inr (.inr ⟨.inl rfl, rfl, rfl, eventfdWrite_pos _⟩)
  | wakeup =>
    cases hstep
    exact .inr (.inr ⟨.inr rfl, rfl, rfl, eventfdWrite_pos _⟩)

/-- What holds of a loop after the steps that were made since its start. -/
structure Heard (since : List LoopAct) (s : LoopState) : Prop where
  started : s.place ≠ .outside
  running : s.running = false ↔ .clear ∈ since
  heard : s.running = false → s.place = .timers ∨ s.place = .wait → 0 < s.eventfd ∨ 0 < s.stopping
  ended : s.place = .done → .clear ∈ since ∨ .failed ∈ since
  bound : s.remaining ≤ epollMaxEvents + 4

/-- A stop is not lost: a step after the start keeps what holds since then. -/
lemma Heard.step (h : Heard since s) (hstep : s.step a = some s') : Heard (since ++ [a]) s' := by
  have hclear (ha : a ≠ .clear) : LoopAct.clear ∈ since ++ [a] ↔ .clear ∈ since := by simp [ha.symm]
  obtain ⟨ha, move⟩ | ⟨rfl, rfl⟩ | ⟨ha, hplace, hrunning, hfd⟩ := step_cases h.started hstep
  · have hne : a ≠ .clear := by
      rintro rfl
      exact Bool.false_ne_true ha
    refine ⟨move.started, ?_, ?_, ?_, move.bound h.bound⟩
    · rw [move.running, hclear hne, h.running]
    · rw [move.running]
      rintro hfalse (htimers | hwait)
      · exact absurd (move.timers htimers) (by rw [hfalse]; exact Bool.false_ne_true)
      · obtain ⟨hbefore, hfd, hstopping⟩ := move.wait hwait
        rw [hfd, hstopping]
        exact h.heard hfalse (.inl hbefore)
    · intro hdone
      obtain hfalse | rfl := move.ended hdone
      · exact .inl ((hclear hne).mpr (h.running.mp hfalse))
      · exact .inr (List.mem_append_right _ List.mem_cons_self)
  · have hmem : LoopAct.clear ∈ since ++ [.clear] := List.mem_append_right _ List.mem_cons_self
    exact ⟨h.started, iff_of_true rfl hmem, fun _ _ => .inr (Nat.succ_pos _), fun _ => .inl hmem,
      h.bound⟩
  · have hne : a ≠ .clear := by
      rintro rfl
      simp at ha
    refine ⟨hplace ▸ h.started, ?_, fun _ _ => .inl hfd, ?_,
      (remaining_congr hplace).le.trans h.bound⟩
    · rw [hrunning, hclear hne, h.running]
    · rw [hplace]
      exact fun hdone => (h.ended hdone).imp (List.mem_append_left _) (List.mem_append_left _)

/-- A loop that was told to stop. -/
def Told (s : LoopState) : Prop := s.place ≠ .outside ∧ s.running = false

/-- A loop that was told to stop makes each of its steps out of those that remain. -/
lemma Told.step (h : Told s) (hstep : s.step a = some s') :
    Told s' ∧ (if a.ofLoop then 1 else 0) + s'.remaining ≤ s.remaining := by
  obtain ⟨hstarted, hfalse⟩ := h
  obtain ⟨ha, move⟩ | ⟨rfl, rfl⟩ | ⟨ha, hplace, hrunning, -⟩ := step_cases hstarted hstep
  · refine ⟨⟨move.started, move.running.trans hfalse⟩, ?_⟩
    rw [if_pos ha, Nat.add_comm]
    exact move.remaining hfalse
  · exact ⟨⟨hstarted, rfl⟩, (Nat.zero_add _).le⟩
  · have hno : ¬ a.ofLoop = true := by
      obtain rfl | rfl := ha <;> exact Bool.false_ne_true
    refine ⟨⟨hplace ▸ hstarted, hrunning.trans hfalse⟩, ?_⟩
    rw [if_neg hno, Nat.zero_add, remaining_congr hplace]

/-- A loop that was told to stop and does not block. -/
structure Woken (s : LoopState) : Prop where
  told : Told s
  readable : s.place = .timers ∨ s.place = .wait → 0 < s.eventfd

/-- One step after a wakeup. -/
lemma Woken.step (h : Woken s) (hstep : s.step a = some s') : a ≠ .timeout ∧ Woken s' := by
  have hfalse : s.running = false := h.told.2
  refine ⟨?_, (h.told.step hstep).1, ?_⟩
  · rintro rfl
    rw [LoopState.step, Option.ite_none_right_eq_some] at hstep
    have hpos := h.readable (.inr hstep.1.1)
    rw [hstep.1.2] at hpos
    exact absurd hpos (by decide)
  · obtain ⟨-, move⟩ | ⟨rfl, rfl⟩ | ⟨-, -, -, hfd⟩ := step_cases h.told.1 hstep
    · rintro (htimers | hwait)
      · exact absurd (move.timers htimers) (by rw [hfalse]; exact Bool.false_ne_true)
      · obtain ⟨hbefore, hfd, -⟩ := move.wait hwait
        rw [hfd]
        exact h.readable (.inl hbefore)
    · exact h.readable
    · exact fun _ => hfd

/-- A run after a wakeup. -/
lemma Woken.run {acts : List LoopAct} (h : Woken s)
    (hrun : acts.foldlM LoopState.step s = some s') :
    .timeout ∉ acts ∧ Woken s' := by
  refine (along_true s acts).history (P := fun acts s => .timeout ∉ acts ∧ Woken s) ?_
    ⟨List.not_mem_nil, h⟩ hrun
  intro acts s a s' _ hacts _ hstep
  obtain ⟨hne, h'⟩ := hacts.2.step hstep
  refine ⟨fun hmem => ?_, h'⟩
  exact (List.mem_append.mp hmem).elim hacts.1 fun h => hne (List.mem_singleton.mp h).symm

end Steps

/-- A loop after its start. -/
lemma heard_start {before since : List LoopAct} {s : LoopState}
    (hs : (before ++ .start :: since).foldlM LoopState.step .created = some s) : Heard since s := by
  rw [List.foldlM_append] at hs
  obtain ⟨s₀, -, hrest⟩ := Option.bind_eq_some_iff.mp hs
  obtain ⟨s₁, hstart, hsince⟩ := foldlM_cons_eq_some hrest
  rw [LoopState.step, Option.ite_none_right_eq_some, Option.some.injEq] at hstart
  obtain ⟨-, rfl⟩ := hstart
  have h₁ : Heard [] { s₀ with place := .test, running := true } :=
    ⟨by simp, by simp, by simp, by simp, Nat.le_add_left 1 _⟩
  exact (along_true _ since).history (fun _ h _ hstep => h.step hstep) h₁ hsince

end RoboControl.Loop
