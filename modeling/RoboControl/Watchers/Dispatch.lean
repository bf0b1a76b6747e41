import RoboControl.Watchers.Pool

/-!
# Dispatch of events

Model of the dispatch of `rc_loop_run` in `src/core/rc_epoll.c`. `epoll_wait` fills a batch with the
pointers to watchers that it was given at their registration, and the loop calls the callback of
each watcher that is active when its turn comes. Between two events of a batch callbacks delete
watchers and register others (`Step`), and `rc_io_add` hands out the watcher that was deleted last.
An event therefore goes to the callback that its descriptor was registered with, exactly as long as
no registration takes a watcher that an event of the batch or a registered descriptor still names
(`dispatch_right_iff`).
-/

namespace RoboControl.Watchers
open Base Function

/-- Size of a batch (C `RC_EPOLL_MAX_EVENTS`). -/
def epollMaxEvents : Nat := 1024

/-- An event of a batch (C `struct epoll_event`): `data.ptr` and the mask. For reference it has the
descriptor on which it occurred, with the callback and the argument of its registration. -/
structure Ready where
  ptr : Option Ptr
  events : UInt32
  fd : Int
  callback : Option Nat
  arg : Nat
  deriving DecidableEq

/-- A call of a callback. -/
structure Call where
  callback : Nat
  fd : Int
  events : UInt32
  arg : Nat
  deriving DecidableEq

/-- The event that `epoll_wait` reports for a registered descriptor. -/
def report (loop : EventLoop) (x : Int × UInt32) : Option Ready :=
  (loop.interest x.1).map fun reg => ⟨reg.ptr, x.2, x.1, reg.callback, reg.arg⟩

/-- The call that the loop makes for an event (the body of the dispatch of C `rc_loop_run`). -/
def Ready.dispatch (loop : EventLoop) (e : Ready) : Option Call :=
  match e.ptr with
  -- The event of the eventfd is drained.
  | none => none
  | some w =>
    if (loop.ioPool w).active = true then
      (loop.ioPool w).callback.map fun f => ⟨f, (loop.ioPool w).fd, e.events, (loop.ioPool w).arg⟩
    else none

/-- A loop with the events of its batch that are still to come, and the calls that were made. -/
structure Dispatcher where
  loop : EventLoop
  batch : List Ready
  made : List (Ready × Call)

/-- A step of a program: `epoll_wait` returns events of some descriptors, as far as they are
registered; the loop comes to the next event of its batch; or a callback performs an operation. -/
inductive Step where
  | wait (ready : List (Int × UInt32))
  | next
  | op (op : IoOp)
  deriving DecidableEq

/-- Make a step. -/
def Dispatcher.step (d : Dispatcher) : Step → Option Dispatcher
  | .wait ready =>
    if d.batch ≠ [] ∨ ready.length > epollMaxEvents then none
    else some { d with batch := ready.filterMap (report d.loop) }
  | .next =>
    match d.batch with
    | [] => none
    | e :: batch => some { d with batch, made := d.made ++ ((e.dispatch d.loop).map (e, ·)).toList }
  | .op op => some { d with loop := op.apply d.loop }

/-- What a step does: a batch is reported, its first event is dispatched, or a callback performs
an operation. -/
lemma Dispatcher.step_cases {d d' : Dispatcher} {s : Step} (h : d.step s = some d') :
    (∃ ready, s = .wait ready ∧ d' = { d with batch := ready.filterMap (report d.loop) }) ∨
    (∃ e batch, s = .next ∧ d.batch = e :: batch ∧
      d' = { d with batch, made := d.made ++ ((e.dispatch d.loop).map (e, ·)).toList }) ∨
    ∃ op, s = .op op ∧ d' = { d with loop := op.apply d.loop } := by
  cases s with
  | wait ready =>
    rw [Dispatcher.step] at h
    split at h
    · cases h
    · cases h
      exact .inl ⟨ready, rfl, rfl⟩
  | next =>
    rw [Dispatcher.step] at h
    cases hbatch : d.batch with
    | nil =>
      rw [hbatch] at h
      cases h
    | cons e batch =>
      rw [hbatch] at h
      cases h
      exact .inr (.inl ⟨e, batch, rfl, rfl, rfl⟩)
  | op op =>
    cases h
    exact .inr (.inr ⟨op, rfl, rfl⟩)

/-- A dispatcher of a new loop. -/
def Dispatcher.new (maxFds : UInt32) (wakeupFd : Int) : Dispatcher :=
  ⟨loopCreate maxFds wakeupFd, [], []⟩

/-! ## Right calls -/

/-- A call has the callback, the descriptor and the argument that belong to an event. -/
def Ready.Right (e : Ready) (call : Call) : Prop :=
  e.callback = some call.callback ∧ e.fd = call.fd ∧ e.arg = call.arg

instance (e : Ready) (call : Call) : Decidable (e.Right call) :=
  inferInstanceAs (Decidable (_ ∧ _ ∧ _))

/-- An event goes to the right callback now, if at all. -/
def Ready.Goes (loop : EventLoop) (e : Ready) : Prop := ∀ call ∈ e.dispatch loop, e.Right call

/-- All events go to the right callbacks: those that were dispatched did, and those of the batch,
and all that `epoll_wait` may report next, do if they are dispatched now. -/
structure Dispatcher.Right (d : Dispatcher) : Prop where
  made : ∀ x ∈ d.made, x.1.Right x.2
  batch : ∀ e ∈ d.batch, e.Goes d.loop
  next : ∀ x, ∀ e ∈ report d.loop x, e.Goes d.loop

/-- A step of the loop itself, and no operation of a callback. -/
def Step.Quiet (s : Step) : Prop := ∀ op, s ≠ .op op

/-- All events that were dispatched went to the right callbacks, and so do all that the loop
dispatches from here on while the callbacks perform no operation. -/
def Dispatcher.Delivers (d : Dispatcher) : Prop :=
  ∀ steps : List Step, (∀ s ∈ steps, s.Quiet) → ∀ d', steps.foldlM Dispatcher.step d = some d' →
    ∀ x ∈ d'.made, x.1.Right x.2

/-- An event is in the batch, or may be reported next. -/
def Dispatcher.Pending (d : Dispatcher) (e : Ready) : Prop := e ∈ d.batch ∨ ∃ x, e ∈ report d.loop x

/-- The condition on a step. A registration takes no watcher that a pending event names, unless the
event belongs to the same descriptor, callback and argument; and a change of the events of a watcher
is made for a descriptor that was registered with the callback and the argument of the watcher. -/
def Dispatcher.Proper (d : Dispatcher) : Step → Prop
  | .wait _ => True
  | .next => True
  | .op (.add fd _ callback arg _) =>
    0 ≤ fd → callback ≠ none → ∀ w ∈ d.loop.ioWatchers, ∀ e, d.Pending e → e.ptr = some w →
      e.callback = callback ∧ e.fd = fd ∧ e.arg = arg
  | .op (.mod watcher _ ok) =>
    ok = true → ∀ w ∈ watcher, (d.loop.ioPool w).active = true → ∀ f ∈ (d.loop.ioPool w).callback,
      ∀ reg ∈ d.loop.interest (d.loop.ioPool w).fd,
        reg.callback = some f ∧ reg.arg = (d.loop.ioPool w).arg
  | .op (.del _) => True

section Right
variable {loop loop' : EventLoop} {d d' : Dispatcher} {e : Ready} {w : Ptr}

/-- The calls so far and those that may come. -/
lemma Dispatcher.right_iff (d : Dispatcher) :
    d.Right ↔ (∀ x ∈ d.made, x.1.Right x.2) ∧ ∀ e, d.Pending e → e.Goes d.loop := by
  constructor
  · rintro ⟨hmade, hbatch, hnext⟩
    refine ⟨hmade, fun e he => ?_⟩
    rcases he with he | ⟨x, he⟩
    · exact hbatch e he
    · exact hnext x e he
  · rintro ⟨hmade, hpending⟩
    exact ⟨hmade, fun e he => hpending e (.inl he), fun x e he => hpending e (.inr ⟨x, he⟩)⟩

/-- The events of a watcher that is active go right if they have its data. -/
lemma goes_iff (hptr : e.ptr = some w) (hactive : (loop.ioPool w).active = true) :
    e.Goes loop ↔ ∀ f ∈ (loop.ioPool w).callback,
      e.callback = some f ∧ e.fd = (loop.ioPool w).fd ∧ e.arg = (loop.ioPool w).arg := by
  rw [Ready.Goes, Ready.dispatch, hptr]
  dsimp only
  rw [if_pos hactive]
  constructor
  · intro h f hf
    rw [Option.mem_def.mp hf] at h
    exact h _ rfl
  · intro h call hcall
    obtain ⟨f, hf, rfl⟩ := Option.map_eq_some_iff.mp hcall
    exact h f hf

/-- An event whose watcher is inactive is not dispatched. -/
lemma goes_of_inactive (hptr : e.ptr = some w) (hidle : (loop.ioPool w).active = false) :
    e.Goes loop := by
  intro call hcall
  rw [Ready.dispatch, hptr] at hcall
  dsimp only at hcall
  rw [hidle, if_neg Bool.false_ne_true] at hcall
  cases hcall

/-- The event of the eventfd is not dispatched. -/
lemma goes_of_none (hptr : e.ptr = none) : e.Goes loop := by
  intro call hcall
  rw [Ready.dispatch, hptr] at hcall
  cases hcall

/-- An event whose watcher has not changed, its events apart, goes where it went. -/
lemma goes_congr
    (h : ∀ w, e.ptr = some w → ∃ events, loop'.ioPool w = { loop.ioPool w with events }) :
    e.Goes loop' ↔ e.Goes loop := by
  cases hptr : e.ptr with
  | none => exact ⟨fun _ => goes_of_none hptr, fun _ => goes_of_none hptr⟩
  | some w =>
    obtain ⟨events, hw⟩ := h w hptr
    by_cases hactive : (loop.ioPool w).active = true
    · have hactive' : (loop'.ioPool w).active = true := by
        rw [hw]
        exact hactive
      rw [goes_iff hptr hactive, goes_iff hptr hactive', hw]
    · rw [Bool.not_eq_true] at hactive
      have hactive' : (loop'.ioPool w).active = false := by
        rw [hw]
        exact hactive
      exact ⟨fun _ => goes_of_inactive hptr hactive, fun _ => goes_of_inactive hptr hactive'⟩

/-- An event goes where it went while only another watcher changes. -/
lemma goes_other (hpool : ∀ u, u ≠ w → loop'.ioPool u = loop.ioPool u) (hptr : e.ptr ≠ some w) :
    e.Goes loop' ↔ e.Goes loop := by
  refine goes_congr fun u hu => ⟨(loop.ioPool u).events, hpool u ?_⟩
  rintro rfl
  exact hptr hu

/-- What epoll reports. -/
lemma report_eq_some {x : Int × UInt32} :
    e ∈ report loop x ↔ ∃ reg, loop.interest x.1 = some reg ∧
      e = ⟨reg.ptr, x.2, x.1, reg.callback, reg.arg⟩ := by
  rw [Option.mem_def, report, Option.map_eq_some_iff]
  exact exists_congr fun reg => and_congr_right fun _ => eq_comm

/-- What is reported for a descriptor whose registration changes. -/
lemma report_self {fd : Int} {reg : Option Registration}
    (h : loop'.interest = update loop.interest fd reg) (mask : UInt32) :
    report loop' (fd, mask) = reg.map fun reg => ⟨reg.ptr, mask, fd, reg.callback, reg.arg⟩ := by
  rw [report, h, update_self]

/-- Reports of other descriptors. -/
lemma report_of_ne {fd : Int} {reg : Option Registration}
    (h : loop'.interest = update loop.interest fd reg) (x : Int × UInt32) (hx : x.1 ≠ fd) :
    report loop' x = report loop x := by
  rw [report, h, update_of_ne hx, report]

end Right

/-! ## Steps -/

section Steps
variable {d d' : Dispatcher}

/-- A watcher is filled in for a descriptor, which may get registered. Everything stays right
exactly if the events that name the watcher belong to the new data. -/
lemma Dispatcher.Right.taken (right : d.Right) {loop' : EventLoop} {w : Ptr} {watcher : Watcher}
    {f : Nat} (hpool : loop'.ioPool = update d.loop.ioPool w watcher)
    (hactive : watcher.active = true) (hcallback : watcher.callback = some f)
    (hold : ∀ x, ∀ e ∈ report d.loop x, e ∈ report loop' x)
    (hnew : ∀ x, ∀ e ∈ report loop' x, e ∈ report d.loop x ∨
      (e.ptr = some w ∧ e.callback = some f ∧ e.fd = watcher.fd ∧ e.arg = watcher.arg)) :
    Dispatcher.Right { d with loop := loop' } ↔ ∀ e, d.Pending e → e.ptr = some w →
      e.callback = some f ∧ e.fd = watcher.fd ∧ e.arg = watcher.arg := by
  obtain ⟨hmade, hgoes⟩ := d.right_iff.mp right
  have hself : loop'.ioPool w = watcher := by rw [hpool, update_self]
  have hnamed : ∀ e : Ready, e.ptr = some w →
      (e.Goes loop' ↔ e.callback = some f ∧ e.fd = watcher.fd ∧ e.arg = watcher.arg) := by
    intro e hptr
    rw [goes_iff hptr (hself ▸ hactive), hself, hcallback]
    exact ⟨fun h => h f rfl, fun h g hg => Option.some.inj hg ▸ h⟩
  have hother : ∀ u, u ≠ w → loop'.ioPool u = d.loop.ioPool u := by
    intro u hu
    rw [hpool, update_of_ne hu]
  rw [Dispatcher.right_iff]
  constructor
  · rintro ⟨-, h⟩ e he hptr
    refine (hnamed e hptr).mp (h e ?_)
    rcases he with he | ⟨x, he⟩
    · exact .inl he
    · exact .inr ⟨x, hold x e he⟩
  · intro h
    refine ⟨hmade, fun e he => ?_⟩
    by_cases hptr : e.ptr = some w
    · rw [hnamed e hptr]
      rcases he with he | ⟨x, he⟩
      · exact h e (.inl he) hptr
      · rcases hnew x e he with he | he
        · exact h e (.inr ⟨x, he⟩) hptr
        · exact he.2
    · rw [goes_other hother hptr]
      rcases he with he | ⟨x, he⟩
      · exact hgoes e (.inl he)
      · rcases hnew x e he with he | he
        · exact hgoes e (.inr ⟨x, he⟩)
        · exact absurd he.1 hptr

/-- When adding a watcher is right. -/
lemma Dispatcher.Right.add_iff (right : d.Right) (fd : Int) (events : UInt32)
    (callback : Option Nat) (arg : Nat) (ok : Bool) :
    Dispatcher.Right { d with loop := (IoOp.add fd events callback arg ok).apply d.loop } ↔
      d.Proper (.op (.add fd events callback arg ok)) := by
  rw [IoOp.apply, Dispatcher.Proper]
  obtain ⟨hguard, e⟩ | ⟨hfd, hcallback, w, hfree, hcases⟩ :=
    ioAdd_cases d.loop fd events callback arg ok
  · rw [e]
    refine ⟨fun _ hfd hcallback w hw => ?_, fun _ => right⟩
    rcases hguard with hguard | hguard | hguard
    · exact absurd hfd (Int.not_le.mpr hguard)
    · exact absurd hguard hcallback
    · cases hguard.symm.trans hw
  · obtain ⟨f, rfl⟩ := Option.ne_none_iff_exists'.mp hcallback
    have hproper : (0 ≤ fd → some f ≠ none → ∀ u ∈ d.loop.ioWatchers, ∀ e, d.Pending e →
        e.ptr = some u → e.callback = some f ∧ e.fd = fd ∧ e.arg = arg) ↔
        ∀ e, d.Pending e → e.ptr = some w → e.callback = some f ∧ e.fd = fd ∧ e.arg = arg := by
      rw [hfree]
      exact ⟨fun h => h hfd hcallback w rfl, fun h _ _ u hu => Option.some.inj hu ▸ h⟩
    rw [hproper]
    rcases hcases with ⟨-, e⟩ | ⟨-, hnone, e⟩
    · have hpool : (refusedAdd d.loop w fd events (some f) arg).ioPool = update d.loop.ioPool w
          ⟨fd, events, some f, arg, true, (d.loop.ioPool w).next⟩ := rfl
      rw [e]
      exact right.taken hpool rfl rfl (fun _ _ h => h) fun _ _ h => .inl h
    · have hpool : (acceptedAdd d.loop w fd events (some f) arg).ioPool = update d.loop.ioPool w
          ⟨fd, events, some f, arg, true, none⟩ := rfl
      have hinterest : (acceptedAdd d.loop w fd events (some f) arg).interest =
          update d.loop.interest fd (some _) := rfl
      rw [e]
      refine right.taken hpool rfl rfl (fun x e he => ?_) fun x e he => ?_
      · obtain ⟨reg, hreg, -⟩ := report_eq_some.mp he
        rw [report_of_ne hinterest x fun h => by cases hnone.symm.trans (h ▸ hreg)]
        exact he
      · obtain ⟨fd', mask⟩ := x
        by_cases h : fd' = fd
        · subst h
          cases (report_self hinterest mask).symm.trans he
          exact .inr ⟨rfl, rfl, rfl, rfl⟩
        · exact .inl (report_of_ne hinterest (fd', mask) h ▸ he)

/-- When changing the events is right. -/
lemma Dispatcher.Right.mod_iff (right : d.Right) (watcher : Option Ptr) (events : UInt32)
    (ok : Bool) :
    Dispatcher.Right { d with loop := (IoOp.mod watcher events ok).apply d.loop } ↔
      d.Proper (.op (.mod watcher events ok)) := by
  obtain ⟨hmade, hgoes⟩ := d.right_iff.mp right
  rw [IoOp.apply, Dispatcher.Proper]
  obtain ⟨hfail, e⟩ | ⟨w, reg, rfl, hactive, hreg, hok, e⟩ := ioMod_cases d.loop watcher events ok
  · rw [e]
    refine ⟨fun _ hok w hw hactive f _ reg hreg => ?_, fun _ => right⟩
    cases (hfail w reg hw hactive hreg).symm.trans hok
  rw [e]
  have hsame : ∀ e : Ready, e.Goes (moddedLoop d.loop w reg events) ↔ e.Goes d.loop := by
    refine fun e => goes_congr fun u _ => ?_
    by_cases hu : u = w
    · subst hu
      exact ⟨events, update_self _ _ _⟩
    · exact ⟨(d.loop.ioPool u).events, update_of_ne hu _ _⟩
  -- Only the event of the descriptor of the watcher may go elsewhere than before.
  have hinterest : (moddedLoop d.loop w reg events).interest =
      update d.loop.interest (d.loop.ioPool w).fd (some _) := rfl
  rw [Dispatcher.right_iff]
  constructor
  · rintro ⟨-, h⟩ - u hu - f hf reg' hreg'
    cases hu
    cases hreg.symm.trans hreg'
    have hgo := (hsame _).mp (h _ (.inr ⟨_, report_self hinterest 0⟩))
    obtain ⟨hcallback, -, harg⟩ := (goes_iff rfl hactive).mp hgo f hf
    exact ⟨hcallback, harg⟩
  · intro h
    refine ⟨hmade, fun e he => (hsame e).mpr ?_⟩
    rcases he with he | ⟨x, he⟩
    · exact hgoes e (.inl he)
    · by_cases hx : x.1 = (d.loop.ioPool w).fd
      · obtain ⟨fd, mask⟩ := x
        cases hx
        cases (report_self hinterest mask).symm.trans he
        refine (goes_iff rfl hactive).mpr fun f hf => ?_
        obtain ⟨hcallback, harg⟩ := h hok w rfl hactive f hf reg hreg
        exact ⟨hcallback, rfl, harg⟩
      · rw [report_of_ne hinterest x hx] at he
        exact hgoes e (.inr ⟨x, he⟩)

/-- Deleting is right. -/
lemma Dispatcher.Right.del (right : d.Right) (watcher : Option Ptr) :
    Dispatcher.Right { d with loop := (IoOp.del watcher).apply d.loop } := by
  obtain ⟨hmade, hgoes⟩ := d.right_iff.mp right
  rw [IoOp.apply]
  obtain e | ⟨w, -, hactive, e⟩ := ioDel_cases d.loop watcher
  · rw [e]
    exact right
  rw [e, Dispatcher.right_iff]
  refine ⟨hmade, fun e he => ?_⟩
  -- Nothing new is reported.
  have hinterest : (deletedLoop d.loop w).interest =
      update d.loop.interest (d.loop.ioPool w).fd none := rfl
  have hold : d.Pending e := by
    rcases he with he | ⟨⟨fd, mask⟩, he⟩
    · exact .inl he
    · by_cases h : fd = (d.loop.ioPool w).fd
      · subst h
        cases (report_self hinterest mask).symm.trans he
      · exact .inr ⟨(fd, mask), report_of_ne hinterest (fd, mask) h ▸ he⟩
  by_cases hptr : e.ptr = some w
  · have hidle : ((deletedLoop d.loop w).ioPool w).active = false := by simp [deletedLoop]
    exact goes_of_inactive hptr hidle
  · exact (goes_other (fun u hu => update_of_ne hu _ _) hptr).mpr (hgoes e hold)

/-- A step keeps everything right exactly if it meets the condition. -/
lemma Dispatcher.Right.step_iff (right : d.Right) {s : Step} (h : d.step s = some d') :
    d'.Right ↔ d.Proper s := by
  obtain ⟨ready, rfl, rfl⟩ | ⟨e, batch, rfl, hbatch, rfl⟩ | ⟨op, rfl, rfl⟩ :=
    Dispatcher.step_cases h
  · refine ⟨fun _ => trivial, fun _ => ⟨right.made, fun e he => ?_, right.next⟩⟩
    obtain ⟨x, -, hx⟩ := List.mem_filterMap.mp he
    exact right.next x e hx
  · have hall := right.batch
    rw [hbatch] at hall
    obtain ⟨hfirst, hrest⟩ := List.forall_mem_cons.mp hall
    refine ⟨fun _ => trivial, fun _ => ⟨fun x hx => ?_, hrest, right.next⟩⟩
    rcases List.mem_append.mp hx with hx | hx
    · exact right.made x hx
    · obtain ⟨call, hcall, rfl⟩ := Option.map_eq_some_iff.mp (Option.mem_toList.mp hx)
      exact hfirst call hcall
  · cases op with
    | add fd events callback arg ok => exact right.add_iff fd events callback arg ok
    | mod watcher events ok => exact right.mod_iff watcher events ok
    | del watcher => exact ⟨fun _ => trivial, fun _ => right.del watcher⟩

end Steps

/-! ## Delivery -/

section Delivery
variable {d d' : Dispatcher}

/-- The dispatcher after its batch, if the callbacks perform no operation. -/
def Dispatcher.drained (d : Dispatcher) : Dispatcher where
  loop := d.loop
  batch := []
  made := d.made ++ d.batch.flatMap fun e => ((e.dispatch d.loop).map (e, ·)).toList

/-- A batch is worked off. -/
lemma Dispatcher.drain (d : Dispatcher) :
    (List.replicate d.batch.length Step.next).foldlM Dispatcher.step d = some d.drained := by
  obtain ⟨loop, batch, made⟩ := d
  induction batch generalizing made with
  | nil =>
    rw [Dispatcher.drained, List.flatMap_nil, List.append_nil]
    rfl
  | cons e batch ih =>
    rw [List.length_cons, List.replicate_succ, foldlM_cons_of_some rfl, ih, Dispatcher.drained,
      Dispatcher.drained, List.flatMap_cons, List.append_assoc]

/-- After its batch the loop may wait and come to the event of any descriptor. -/
lemma Dispatcher.drain_wait (d : Dispatcher) {x : Int × UInt32} {e : Ready}
    (he : e ∈ report d.loop x) :
    (List.replicate d.batch.length Step.next ++ [Step.wait [x], Step.next]).foldlM Dispatcher.step
      d =
        some { d.drained with
          made := d.drained.made ++ ((e.dispatch d.loop).map (e, ·)).toList } := by
  have hbatch : [x].filterMap (report d.loop) = [e] := List.filterMap_cons_some he
  have hroom : ¬ (d.drained.batch ≠ [] ∨ [x].length > epollMaxEvents) := by
    rintro (h | h)
    · exact h rfl
    · exact absurd h (show ¬ 1 > epollMaxEvents by decide)
  have hwait : d.drained.step (.wait [x]) = some { d.drained with batch := [e] } := by
    rw [Dispatcher.step, if_neg hroom]
    exact congrArg (fun batch => some { d.drained with batch }) hbatch
  rw [List.foldlM_append, d.drain]
  exact foldlM_cons_of_some hwait [Step.next]

/-- Everything is right exactly if all that is delivered without further operations is. -/
lemma Dispatcher.delivers_iff : d.Delivers ↔ d.Right := by
  constructor
  · intro h
    have hmem : ∀ {e : Ready} {call : Call}, call ∈ e.dispatch d.loop →
        (e, call) ∈ ((e.dispatch d.loop).map (e, ·)).toList := fun hcall =>
      Option.mem_toList.mpr (Option.map_eq_some_iff.mpr ⟨_, hcall, rfl⟩)
    have hquiet : ∀ s ∈ List.replicate d.batch.length Step.next, s.Quiet := by
      rintro s hs op rfl
      cases List.eq_of_mem_replicate hs
    refine ⟨h [] (fun _ hs => (List.not_mem_nil hs).elim) d rfl, fun e he call hcall => ?_,
      fun x e he call hcall => ?_⟩
    · refine h _ hquiet _ d.drain (e, call) (List.mem_append_right _ ?_)
      exact List.mem_flatMap.mpr ⟨e, he, hmem hcall⟩
    · refine h _ (fun s hs => ?_) _ (d.drain_wait he) (e, call)
        (List.mem_append_right _ (hmem hcall))
      rcases List.mem_append.mp hs with hs | hs
      · exact hquiet s hs
      · rintro op rfl
        rcases List.mem_cons.mp hs with hs | hs
        · cases hs
        · cases List.mem_singleton.mp hs
  · intro right steps hquiet d' hrun
    have hright : d'.Right := by
      induction steps generalizing d with
      | nil =>
        cases hrun
        exact right
      | cons s steps ih =>
        obtain ⟨d₁, hstep, hrest⟩ := foldlM_cons_eq_some hrun
        obtain ⟨hs, hsteps⟩ := List.forall_mem_cons.mp hquiet
        refine ih ((right.step_iff hstep).mpr ?_) hsteps hrest
        cases s with
        | wait | next => trivial
        | op op => exact absurd rfl (hs op)
    exact hright.made

end Delivery

/-! ## Runs -/

/-- A new loop is right. -/
lemma new_right (maxFds : UInt32) (wakeupFd : Int) : (Dispatcher.new maxFds wakeupFd).Right := by
  refine ⟨fun x hx => (by cases hx), fun e he => (by cases he), fun x e he => ?_⟩
  obtain ⟨reg, hreg, rfl⟩ := report_eq_some.mp he
  obtain ⟨-, hptr⟩ | ⟨w, -, hactive, -⟩ := (loopCreate_inv maxFds wakeupFd).known x.1 reg hreg
  · exact goes_of_none hptr
  · cases hactive

/-- The condition on a step where no registration is refused: only the events of the
batch matter. -/
def Dispatcher.Clear (d : Dispatcher) : Step → Prop
  | .wait _ => True
  | .next => True
  | .op (.add fd _ callback arg ok) =>
    ¬ Refused d.loop fd callback ok ∧ ∀ w ∈ d.loop.ioWatchers, ∀ e ∈ d.batch, e.ptr = some w →
      e.callback = callback ∧ e.fd = fd ∧ e.arg = arg
  | .op (.mod _ _ _) => True
  | .op (.del _) => True

instance (d : Dispatcher) : DecidablePred d.Clear
  | .wait _ => inferInstanceAs (Decidable True)
  | .next => inferInstanceAs (Decidable True)
  | .op (.add fd _ callback arg ok) =>
    inferInstanceAs (Decidable (¬ Refused d.loop fd callback ok ∧
      ∀ w ∈ d.loop.ioWatchers, ∀ e ∈ d.batch, e.ptr = some w →
        e.callback = callback ∧ e.fd = fd ∧ e.arg = arg))
  | .op (.mod _ _ _) => inferInstanceAs (Decidable True)
  | .op (.del _) => inferInstanceAs (Decidable True)

section Runs
variable {d d' : Dispatcher} {free : List Ptr} {s : Step}

/-- A clear step is proper. -/
lemma Dispatcher.Clear.proper (clear : d.Clear s) (inv : Inv d.loop free) (right : d.Right) :
    d.Proper s := by
  cases s with
  | wait ready => trivial
  | next => trivial
  | op op =>
    cases op with
    | add fd events callback arg ok =>
      intro _ _ w hw e he hptr
      rcases he with he | ⟨x, he⟩
      · exact clear.2 w hw e he hptr
      · -- No descriptor is registered for a free watcher.
        obtain ⟨reg, hreg, rfl⟩ := report_eq_some.mp he
        have hfree : w ∈ free := List.mem_of_mem_head? (inv.chain.head_eq.symm.trans hw)
        exact absurd hptr (inv.unnamed hfree hreg)
    | mod watcher events ok =>
      intro _ w _ hactive f hf reg hreg
      obtain ⟨hlt, hnot⟩ := inv.of_active hactive
      have hptr : reg.ptr = some w := by
        have hwatch := (inv.busy w hlt hnot).2.2
        rwa [EventLoop.watcherOf, Option.mem_def.mp hreg] at hwatch
      have hgo := right.next ((d.loop.ioPool w).fd, 0) _ (report_eq_some.mpr ⟨reg, hreg, rfl⟩)
      obtain ⟨hcallback, -, harg⟩ := (goes_iff hptr hactive).mp hgo f hf
      exact ⟨hcallback, harg⟩
    | del watcher => trivial

/-- A clear step keeps the invariant. -/
lemma Dispatcher.Clear.inv (clear : d.Clear s) (inv : Inv d.loop free) (h : d.step s = some d') :
    ∃ free', Inv d'.loop free' := by
  obtain ⟨ready, rfl, rfl⟩ | ⟨e, batch, rfl, -, rfl⟩ | ⟨op, rfl, rfl⟩ := Dispatcher.step_cases h
  · exact ⟨free, inv⟩
  · exact ⟨free, inv⟩
  · refine (inv.apply ?_).1
    cases op with
    | add fd events callback arg ok => exact clear.1
    | mod watcher events ok => exact not_false
    | del watcher => exact not_false

/-- In a run in which no registration is refused, only the events of the batch matter. -/
lemma along_proper_of_clear {steps : List Step}
    (clear : Along Dispatcher.step Dispatcher.Clear d steps) (inv : Inv d.loop free)
    (right : d.Right) : Along Dispatcher.step Dispatcher.Proper d steps := by
  induction steps generalizing d free with
  | nil => trivial
  | cons s steps ih =>
    obtain ⟨hs, hrest⟩ := clear
    have proper := hs.proper inv right
    refine ⟨proper, fun d' h => ?_⟩
    obtain ⟨free', inv'⟩ := hs.inv inv h
    exact ih (hrest d' h) inv' ((right.step_iff h).mpr proper)

end Runs

/-- In every run whose steps meet the condition all events are delivered to the right callbacks, and
the next step keeps this exactly if it meets the condition. -/
theorem dispatch_right_iff {maxFds : UInt32} {wakeupFd : Int} {steps : List Step} {d : Dispatcher}
    (proper : Along Dispatcher.step Dispatcher.Proper (.new maxFds wakeupFd) steps)
    (hrun : steps.foldlM Dispatcher.step (.new maxFds wakeupFd) = some d) :
    d.Delivers ∧ ∀ s d', d.step s = some d' → (d'.Delivers ↔ d.Proper s) := by
  have right : d.Right := proper.invariant
    (fun right hs h => (Dispatcher.Right.step_iff right h).mpr hs) (new_right maxFds wakeupFd) hrun
  exact ⟨Dispatcher.delivers_iff.mpr right, fun s d' h => Dispatcher.delivers_iff.trans
    (right.step_iff h)⟩

/-- Two descriptors are ready. The callback of the first deletes the watcher of the second, which is
recycled after the batch. -/
def dispatchSample : List Step :=
  [.op (.add 5 epollIn (some 1) 50 true), .op (.add 6 epollIn (some 2) 60 true),
    .wait [(5, epollIn), (6, epollIn)], .next, .op (.del (some 1)), .next,
    .op (.add 7 epollIn (some 3) 70 true), .wait [(7, epollIn)], .next]

/-- Events of two watchers. -/
theorem dispatch_right_iff_sample :
    Along Dispatcher.step Dispatcher.Proper (.new 4 3) dispatchSample ∧
      ∃ d, dispatchSample.foldlM Dispatcher.step (.new 4 3) = some d ∧ d.Delivers ∧
        d.made.map (·.2) = [⟨1, 5, epollIn, 50⟩, ⟨3, 7, epollIn, 70⟩] := by
  have clear : Along Dispatcher.step Dispatcher.Clear (.new 4 3) dispatchSample := by decide +kernel
  have proper := along_proper_of_clear clear (loopCreate_inv 4 3) (new_right 4 3)
  have hmade : (dispatchSample.foldlM Dispatcher.step (.new 4 3)).map (fun d => d.made.map (·.2)) =
      some [⟨1, 5, epollIn, 50⟩, ⟨3, 7, epollIn, 70⟩] := by decide +kernel
  obtain ⟨d, hrun, hd⟩ := Option.map_eq_some_iff.mp hmade
  exact ⟨proper, d, hrun, (dispatch_right_iff proper hrun).1, hd⟩

/-- The callback of descriptor 5 deletes the watcher of descriptor 6 and registers descriptor 7,
which gets the same watcher. The event of descriptor 6, still in the batch, goes to the callback of
descriptor 7. -/
theorem event_reaches_recycled_watcher :
    ([.op (.add 5 epollIn (some 1) 50 true), .op (.add 6 epollIn (some 2) 60 true),
        .wait [(5, epollIn), (6, epollIn)], .next, .op (.del (some 1)),
        .op (.add 7 epollIn (some 3) 70 true), .next].foldlM Dispatcher.step (.new 4 3)).map
        Dispatcher.made =
      some [(⟨some 0, epollIn, 5, some 1, 50⟩, ⟨1, 5, epollIn, 50⟩),
        (⟨some 1, epollIn, 6, some 2, 60⟩, ⟨3, 7, epollIn, 70⟩)] ∧
      ¬ Ready.Right ⟨some 1, epollIn, 6, some 2, 60⟩ ⟨3, 7, epollIn, 70⟩ :=
  ⟨by decide +kernel, by decide +kernel⟩

end RoboControl.Watchers
