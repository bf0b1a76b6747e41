import RoboControl.Base.Chain
import RoboControl.Base.Run

/-!
# I/O watchers

Model of the I/O watchers of `src/core/rc_epoll.c`: their pool in the event loop `EventLoop` (C
`rc_event_loop_t`), `ioAdd`, `ioMod` and `ioDel` (C `rc_io_add`, `rc_io_mod`, `rc_io_del`), and what
`loopDestroy` (C `rc_loop_destroy`) takes out of epoll. The interest list of epoll is part of the
state, and whether the kernel accepts a registration or a change is an argument.

A watcher is free and inactive, or active and registered for its descriptor, as long as no
registration is refused: `rc_io_add` puts the watcher back, but leaves it active and with the
descriptor, the callback and the argument of the failed call (`io_pool_iff`).
-/

namespace RoboControl.Watchers
open Base Function

/-! ## State -/

/-- An element of the watcher pool. -/
abbrev Ptr := Nat

/-- A watcher (C `rc_io_watcher_t`); functions and their arguments are numbered. -/
structure Watcher where
  fd : Int := 0
  events : UInt32 := 0
  callback : Option Nat := none
  arg : Nat := 0
  active : Bool := false
  next : Option Ptr := none
  deriving DecidableEq

/-- What epoll holds for a descriptor: `data.ptr` and the events. The callback and the argument are
those of the call that registered the descriptor; epoll does not know them. -/
structure Registration where
  ptr : Option Ptr
  events : UInt32
  callback : Option Nat
  arg : Nat
  deriving DecidableEq

/-- The I/O part of an event loop (C `rc_event_loop_t`), with the interest list of its
epoll instance. -/
structure EventLoop where
  interest : Int → Option Registration
  wakeupFd : Int
  ioWatchers : Option Ptr
  ioPool : Ptr → Watcher
  ioPoolSize : UInt32

/-- Event masks (C `EPOLLIN`, `EPOLLET`, `EPOLLEXCLUSIVE`). -/
def epollIn : UInt32 := 1

@[inherit_doc epollIn]
def epollEt : UInt32 := 0x80000000

@[inherit_doc epollIn]
def epollExclusive : UInt32 := 0x10000000

/-- A new loop (C `rc_loop_create`), which has only its eventfd registered. -/
def loopCreate (maxFds : UInt32) (wakeupFd : Int) : EventLoop :=
  let ioPoolSize : UInt32 := if maxFds = 0 then 1024 else maxFds
  { interest := update (fun _ => none) wakeupFd (some ⟨none, epollIn, none, 0⟩)
    wakeupFd := wakeupFd
    ioWatchers := some 0
    ioPool := fun i => { next := if i + 1 < ioPoolSize.toNat then some (i + 1) else none }
    ioPoolSize := ioPoolSize }

/-- Change a watcher in place. -/
def EventLoop.modify (loop : EventLoop) (w : Ptr) (f : Watcher → Watcher) : EventLoop :=
  { loop with ioPool := update loop.ioPool w (f (loop.ioPool w)) }

/-! ## Operations -/

/-- Register a descriptor (`EPOLL_CTL_ADD`), unless the kernel refuses or has it already. -/
def epollAdd (loop : EventLoop) (fd : Int) (reg : Registration) (ok : Bool) : Option EventLoop :=
  if ok = false ∨ (loop.interest fd).isSome then none
  else some { loop with interest := update loop.interest fd (some reg) }

/-- Change the registration of a descriptor (`EPOLL_CTL_MOD`), unless the kernel refuses or
does not have it. -/
def epollMod (loop : EventLoop) (fd : Int) (ptr : Option Ptr) (events : UInt32) (ok : Bool) :
    Option EventLoop :=
  match loop.interest fd with
  | none => none
  | some reg =>
    if ok = false then none
    else some { loop with interest := update loop.interest fd (some { reg with ptr, events }) }

/-- Take a descriptor out of the interest list (`EPOLL_CTL_DEL`). -/
def epollDel (loop : EventLoop) (fd : Int) : EventLoop :=
  { loop with interest := update loop.interest fd none }

/-- Take a watcher from the head of the free list and fill it in. -/
def ioTake (loop : EventLoop) (w : Ptr) (fd : Int) (events : UInt32) (callback : Option Nat)
    (arg : Nat) :
    EventLoop :=
  let loop := { loop with ioWatchers := (loop.ioPool w).next }
  loop.modify w fun _ => { fd, events, callback, arg, active := true, next := none }

/-- Return a watcher to the free list. -/
def ioRelease (loop : EventLoop) (w : Ptr) : EventLoop :=
  { loop.modify w ({ · with next := loop.ioWatchers }) with ioWatchers := some w }

/-- Take a watcher from the pool and register it (C `rc_io_add`). -/
def ioAdd (loop : EventLoop) (fd : Int) (events : UInt32) (callback : Option Nat) (arg : Nat)
    (ok : Bool) :
    Option Ptr × EventLoop :=
  if fd < 0 ∨ callback = none then (none, loop)
  else
    match loop.ioWatchers with
    | none => (none, loop)
    | some w =>
      let loop := ioTake loop w fd events callback arg
      match epollAdd loop fd ⟨some w, events ||| epollEt ||| epollExclusive, callback, arg⟩ ok with
      -- The watcher goes back, and stays active.
      | none => (none, ioRelease loop w)
      | some loop => (some w, loop)

/-- Change the events of a watcher (C `rc_io_mod`). -/
def ioMod (loop : EventLoop) (watcher : Option Ptr) (events : UInt32) (ok : Bool) :
    Int × EventLoop :=
  match watcher with
  | none => (-1, loop)
  | some w =>
    if (loop.ioPool w).active = false then (-1, loop)
    else
      match
        epollMod loop (loop.ioPool w).fd (some w) (events ||| epollEt ||| epollExclusive) ok with
      | none => (-1, loop)
      | some loop => (0, loop.modify w ({ · with events }))

/-- Unregister a watcher and give it back (C `rc_io_del`). -/
def ioDel (loop : EventLoop) (watcher : Option Ptr) : EventLoop :=
  match watcher with
  | none => loop
  | some w =>
    if (loop.ioPool w).active = false then loop
    else
      let loop := epollDel loop (loop.ioPool w).fd
      ioRelease (loop.modify w ({ · with active := false, fd := -1 })) w

/-- Unregister a watcher if it is active (the body of the loop of C `rc_loop_destroy`). -/
def destroyStep (loop : EventLoop) (w : Ptr) : EventLoop :=
  if (loop.ioPool w).active = true ∧ (loop.ioPool w).fd ≥ 0 then epollDel loop (loop.ioPool w).fd
  else loop

/-- Unregister the active watchers (C `rc_loop_destroy`, before it frees the memory). -/
def loopDestroy (loop : EventLoop) : EventLoop :=
  (List.range loop.ioPoolSize.toNat).foldl destroyStep loop

/-- An operation on the watchers of a loop. -/
inductive IoOp where
  | add (fd : Int) (events : UInt32) (callback : Option Nat) (arg : Nat) (ok : Bool)
  | mod (watcher : Option Ptr) (events : UInt32) (ok : Bool)
  | del (watcher : Option Ptr)
  deriving DecidableEq

/-- Perform an operation. -/
def IoOp.apply (loop : EventLoop) : IoOp → EventLoop
  | .add fd events callback arg ok => (ioAdd loop fd events callback arg ok).2
  | .mod watcher events ok => (ioMod loop watcher events ok).2
  | .del watcher => ioDel loop watcher

/-! ## What the operations do -/

section Cases
variable {loop : EventLoop} {w : Ptr}

/-- The watcher that changes. -/
@[simp] lemma modify_self (loop : EventLoop) (w : Ptr) (f : Watcher → Watcher) :
    (loop.modify w f).ioPool w = f (loop.ioPool w) := update_self _ _ _

/-- A call of `rc_io_add` that takes a watcher which epoll does not accept. -/
def Refused (loop : EventLoop) (fd : Int) (callback : Option Nat) (ok : Bool) : Prop :=
  0 ≤ fd ∧ callback ≠ none ∧ loop.ioWatchers ≠ none ∧ (ok = false ∨ (loop.interest fd).isSome)

instance (loop : EventLoop) (fd : Int) (callback : Option Nat) (ok : Bool) :
    Decidable (Refused loop fd callback ok) := inferInstanceAs (Decidable (_ ∧ _ ∧ _ ∧ _))

/-- The loop after a registration that was refused: only the watcher at the head of the free
list has changed. -/
def refusedAdd (loop : EventLoop) (w : Ptr) (fd : Int) (events : UInt32) (callback : Option Nat)
    (arg : Nat) :
    EventLoop :=
  loop.modify w ({ fd, events, callback, arg, active := true, next := ·.next })

/-- The loop after a registration. -/
def acceptedAdd (loop : EventLoop) (w : Ptr) (fd : Int) (events : UInt32) (callback : Option Nat)
    (arg : Nat) : EventLoop :=
  { ioTake loop w fd events callback arg with
    interest := update loop.interest fd
      (some ⟨some w, events ||| epollEt ||| epollExclusive, callback, arg⟩) }

/-- A watcher that is taken and given back. -/
lemma ioRelease_ioTake (h : loop.ioWatchers = some w) (fd : Int) (events : UInt32)
    (callback : Option Nat) (arg : Nat) :
    ioRelease (ioTake loop w fd events callback arg) w = refusedAdd loop w fd events callback
      arg := by
  rw [ioRelease, ioTake, refusedAdd, EventLoop.modify, EventLoop.modify, EventLoop.modify, h]
  dsimp only
  rw [update_idem, update_self]

/-- What a call of `rc_io_add` does. -/
lemma ioAdd_cases (loop : EventLoop) (fd : Int) (events : UInt32) (callback : Option Nat)
    (arg : Nat) (ok : Bool) :
    ((fd < 0 ∨ callback = none ∨ loop.ioWatchers = none) ∧
        ioAdd loop fd events callback arg ok = (none, loop)) ∨
      (0 ≤ fd ∧ callback ≠ none ∧ ∃ w, loop.ioWatchers = some w ∧
        (((ok = false ∨ (loop.interest fd).isSome) ∧
            ioAdd loop fd events callback arg ok =
              (none, refusedAdd loop w fd events callback arg)) ∨
          (ok = true ∧ loop.interest fd = none ∧
            ioAdd loop fd events callback arg ok = (some w,
              acceptedAdd loop w fd events callback arg)))) := by
  rw [ioAdd]
  by_cases hguard : fd < 0 ∨ callback = none
  · rw [if_pos hguard]
    exact .inl ⟨hguard.imp_right .inl, rfl⟩
  rw [if_neg hguard]
  obtain ⟨hfd, hcallback⟩ := not_or.mp hguard
  cases hfree : loop.ioWatchers with
  | none => exact .inl ⟨.inr (.inr rfl), rfl⟩
  | some w =>
    refine .inr ⟨Int.not_lt.mp hfd, hcallback, w, rfl, ?_⟩
    dsimp only
    rw [epollAdd]
    by_cases href : ok = false ∨ (loop.interest fd).isSome
    · refine .inl ⟨href, ?_⟩
      rw [if_pos (show ok = false ∨
        ((ioTake loop w fd events callback arg).interest fd).isSome from href),
          ioRelease_ioTake hfree]
    · rw [if_neg
        (show ¬ (ok = false ∨
        ((ioTake loop w fd events callback arg).interest fd).isSome) from href)]
      obtain ⟨hok, hnone⟩ := not_or.mp href
      exact .inr ⟨Bool.of_not_eq_false hok, Option.not_isSome_iff_eq_none.mp hnone, rfl⟩

/-- The loop after the events of a watcher were changed. -/
def moddedLoop (loop : EventLoop) (w : Ptr) (reg : Registration) (events : UInt32) : EventLoop :=
  { loop.modify w ({ · with events }) with
    interest := update loop.interest (loop.ioPool w).fd
      (some { reg with ptr := some w, events := events ||| epollEt ||| epollExclusive }) }

/-- What a call of `rc_io_mod` does. -/
lemma ioMod_cases (loop : EventLoop) (watcher : Option Ptr) (events : UInt32) (ok : Bool) :
    ((∀ w reg, watcher = some w → (loop.ioPool w).active = true →
          loop.interest (loop.ioPool w).fd = some reg → ok = false) ∧
        ioMod loop watcher events ok = (-1, loop)) ∨
      ∃ w reg, watcher = some w ∧ (loop.ioPool w).active = true ∧
        loop.interest (loop.ioPool w).fd = some reg ∧ ok = true ∧
        ioMod loop watcher events ok = (0, moddedLoop loop w reg events) := by
  cases watcher with
  | none => exact .inl ⟨fun _ _ h => (by cases h), rfl⟩
  | some w =>
    rw [ioMod]
    by_cases hactive : (loop.ioPool w).active = false
    · rw [if_pos hactive]
      refine .inl ⟨fun u reg hu hactive' => ?_, rfl⟩
      cases hu
      cases hactive.symm.trans hactive'
    rw [if_neg hactive, epollMod]
    cases hreg : loop.interest (loop.ioPool w).fd with
    | none =>
      refine .inl ⟨fun u reg hu _ hreg' => ?_, rfl⟩
      cases hu
      cases hreg.symm.trans hreg'
    | some reg =>
      dsimp only
      by_cases hok : ok = false
      · rw [if_pos hok]
        exact .inl ⟨fun _ _ _ _ _ => hok, rfl⟩
      · rw [if_neg hok]
        exact .inr ⟨w, reg, rfl, Bool.of_not_eq_false hactive, hreg, Bool.of_not_eq_false hok, rfl⟩

/-- The loop after a watcher was deleted. -/
def deletedLoop (loop : EventLoop) (w : Ptr) : EventLoop :=
  { loop with
    interest := update loop.interest (loop.ioPool w).fd none
    ioWatchers := some w
    ioPool := update loop.ioPool w
      { loop.ioPool w with active := false, fd := -1, next := loop.ioWatchers } }

/-- What a call of `rc_io_del` does. -/
lemma ioDel_cases (loop : EventLoop) (watcher : Option Ptr) :
    ioDel loop watcher = loop ∨
      ∃ w, watcher = some w ∧ (loop.ioPool w).active = true ∧ ioDel loop watcher = deletedLoop loop
        w := by
  cases watcher with
  | none => exact .inl rfl
  | some w =>
    rw [ioDel]
    dsimp only
    by_cases hactive : (loop.ioPool w).active = false
    · rw [if_pos hactive]
      exact .inl rfl
    · rw [if_neg hactive]
      refine .inr ⟨w, rfl, Bool.of_not_eq_false hactive, ?_⟩
      rw [ioRelease, EventLoop.modify, EventLoop.modify, deletedLoop]
      dsimp only
      rw [update_idem, update_self]
      rfl

end Cases

/-! ## The invariant -/

/-- The link of a watcher in the free list. -/
def EventLoop.next (loop : EventLoop) (w : Ptr) : Option (Option Ptr) := some (loop.ioPool w).next

/-- The watcher that epoll reports for a descriptor. -/
def EventLoop.watcherOf (loop : EventLoop) (fd : Int) : Option Ptr :=
  (loop.interest fd).bind Registration.ptr

/-- Every watcher of the pool is once on the free list, which ends, and inactive; or it is not on
it, active, and registered for its descriptor. -/
structure PoolOk (loop : EventLoop) (free : List Ptr) : Prop where
  chain : Chain loop.next loop.ioWatchers free
  once : free.Nodup
  place : ∀ w < loop.ioPoolSize.toNat,
    (w ∈ free ∧ (loop.ioPool w).active = false) ∨
      (w ∉ free ∧ (loop.ioPool w).active = true ∧ loop.watcherOf (loop.ioPool w).fd = some w)

/-- What the operations keep: the pool is in order, nothing outside of it is active, and epoll holds
nothing but the eventfd and the descriptors of active watchers. -/
structure Inv (loop : EventLoop) (free : List Ptr) : Prop where
  chain : Chain loop.next loop.ioWatchers free
  bound : ∀ w ∈ free, w < loop.ioPoolSize.toNat
  idle : ∀ w, w ∈ free ∨ loop.ioPoolSize.toNat ≤ w → (loop.ioPool w).active = false
  busy : ∀ w < loop.ioPoolSize.toNat, w ∉ free →
    (loop.ioPool w).active = true ∧ 0 ≤ (loop.ioPool w).fd ∧
      loop.watcherOf (loop.ioPool w).fd = some w
  known : ∀ fd reg, loop.interest fd = some reg →
    (fd = loop.wakeupFd ∧ reg.ptr = none) ∨
      ∃ w, reg.ptr = some w ∧ (loop.ioPool w).active = true ∧ (loop.ioPool w).fd = fd

section Inv
variable {loop : EventLoop} {free : List Ptr} {w : Ptr}

/-- What the invariant says of the pool. -/
lemma Inv.poolOk (inv : Inv loop free) : PoolOk loop free := by
  refine ⟨inv.chain, inv.chain.nodup, fun w hw => ?_⟩
  by_cases hmem : w ∈ free
  · exact .inl ⟨hmem, inv.idle w (.inl hmem)⟩
  · obtain ⟨hactive, -, hreg⟩ := inv.busy w hw hmem
    exact .inr ⟨hmem, hactive, hreg⟩

/-- An active watcher is in the pool and not free. -/
lemma Inv.of_active (inv : Inv loop free) (h : (loop.ioPool w).active = true) :
    w < loop.ioPoolSize.toNat ∧ w ∉ free := by
  constructor
  · by_contra hge
    rw [inv.idle w (.inr (Nat.not_lt.mp hge))] at h
    cases h
  · intro hmem
    rw [inv.idle w (.inl hmem)] at h
    cases h

/-- No descriptor is registered for a free watcher. -/
lemma Inv.unnamed (inv : Inv loop free) (hw : w ∈ free) {fd : Int} {reg : Registration}
    (hreg : loop.interest fd = some reg) : reg.ptr ≠ some w := by
  intro hptr
  obtain ⟨-, hnone⟩ | ⟨u, hu, hactive, -⟩ := inv.known fd reg hreg
  · cases hnone.symm.trans hptr
  · cases hu.symm.trans hptr
    exact (inv.of_active hactive).2 hw

/-- No watcher without a registration. -/
lemma watcherOf_eq_none {fd : Int} (h : loop.interest fd = none) : loop.watcherOf fd = none := by
  rw [EventLoop.watcherOf, h]
  rfl

/-- Other descriptors keep their watchers. -/
lemma watcherOf_of_ne {loop' : EventLoop} {fd fd' : Int} {reg : Option Registration}
    (h : loop'.interest = update loop.interest fd reg) (hne : fd' ≠ fd) :
    loop'.watcherOf fd' = loop.watcherOf fd' := by
  rw [EventLoop.watcherOf, h, update_of_ne hne]
  rfl

/-- The watcher of a registration. -/
lemma watcherOf_eq {fd : Int} {reg : Registration} (h : loop.interest fd = some reg)
    (hptr : reg.ptr = some w) : loop.watcherOf fd = some w := by
  rw [EventLoop.watcherOf, h]
  exact hptr

/-- A watcher that epoll accepts. -/
lemma Inv.accepted (inv : Inv loop (w :: free)) {fd : Int} (hfd : 0 ≤ fd)
    (hnone : loop.interest fd = none) (events : UInt32) (callback : Option Nat) (arg : Nat) :
    Inv (acceptedAdd loop w fd events callback arg) free := by
  obtain ⟨-, q, hq, hchain⟩ := inv.chain.of_cons
  obtain ⟨hnot, -⟩ := List.nodup_cons.mp inv.chain.nodup
  obtain ⟨hlt, hbound⟩ := List.forall_mem_cons.mp inv.bound
  have hw : (acceptedAdd loop w fd events callback arg).ioPool w =
      { fd, events, callback, arg, active := true, next := none } := update_self _ _ _
  have hother : ∀ u, u ≠ w → (acceptedAdd loop w fd events callback arg).ioPool u = loop.ioPool u :=
    fun u hu => update_of_ne hu _ _
  refine ⟨?_, hbound, fun u hu => ?_, fun u hu hmem => ?_, fun fd' reg hreg => ?_⟩
  · show Chain _ (loop.ioPool w).next free
    rw [show (loop.ioPool w).next = q from Option.some.inj hq]
    refine hchain.congr fun u hu => ?_
    rw [EventLoop.next, hother u (ne_of_mem_of_not_mem hu hnot)]
    rfl
  · have hne : u ≠ w := by
      rintro rfl
      exact hu.elim hnot (Nat.not_le.mpr hlt)
    rw [hother u hne]
    exact inv.idle u (hu.imp_left (List.mem_cons_of_mem w))
  · by_cases hne : u = w
    · subst hne
      rw [hw]
      exact ⟨rfl, hfd, watcherOf_eq (update_self _ _ _) rfl⟩
    · rw [hother u hne]
      obtain ⟨hactive, hnonneg, hreg⟩ := inv.busy u hu fun h => (List.mem_cons.mp h).elim hne hmem
      refine ⟨hactive, hnonneg, ?_⟩
      rw [watcherOf_of_ne rfl, hreg]
      intro e
      rw [e, watcherOf_eq_none hnone] at hreg
      cases hreg
  · by_cases h : fd' = fd
    · subst h
      cases (update_self _ _ _).symm.trans hreg
      exact .inr ⟨w, rfl, by rw [hw], by rw [hw]⟩
    · refine (inv.known fd' reg ((update_of_ne h _ _).symm.trans hreg)).imp_right ?_
      rintro ⟨u, hptr, hactive, hu⟩
      have hne : u ≠ w := by
        rintro rfl
        exact (inv.of_active hactive).2 List.mem_cons_self
      exact ⟨u, hptr, by rw [hother u hne, hactive], by rw [hother u hne, hu]⟩

/-- The events of a watcher are changed. -/
lemma Inv.modded (inv : Inv loop free) {reg : Registration}
    (hactive : (loop.ioPool w).active = true) (hreg : loop.interest (loop.ioPool w).fd = some reg)
    (events : UInt32) :
    Inv (moddedLoop loop w reg events) free := by
  have hsame : ∀ {β : Type} (g : Watcher → β), (∀ u : Watcher, g { u with events } = g u) →
      ∀ u, g ((moddedLoop loop w reg events).ioPool u) = g (loop.ioPool u) := fun g hg u => by
    by_cases hu : u = w
    · subst hu
      exact (congrArg g (update_self _ _ _)).trans (hg _)
    · exact congrArg g (update_of_ne hu _ _)
  have hpart : (moddedLoop loop w reg events).watcherOf (loop.ioPool w).fd = some w :=
    watcherOf_eq (update_self _ _ _) rfl
  have hfd := hsame Watcher.fd fun _ => rfl
  have hact := hsame Watcher.active fun _ => rfl
  refine ⟨?_, inv.bound, fun u hu => ?_, fun u hu hmem => ?_, fun fd' reg' hreg' => ?_⟩
  · refine inv.chain.congr fun u _ => ?_
    exact congrArg some (hsame Watcher.next (fun _ => rfl) u)
  · rw [hact]
    exact inv.idle u hu
  · rw [hact, hfd]
    obtain ⟨hactive', hnonneg, hreg'⟩ := inv.busy u hu hmem
    refine ⟨hactive', hnonneg, ?_⟩
    by_cases h : (loop.ioPool u).fd = (loop.ioPool w).fd
    · -- The two watchers are registered for one descriptor.
      obtain ⟨hlt, hnot⟩ := inv.of_active hactive
      have hu := (inv.busy w hlt hnot).2.2
      rw [h, hpart, ← hu, ← hreg', h]
    · rw [watcherOf_of_ne rfl h]
      exact hreg'
  · by_cases h : fd' = (loop.ioPool w).fd
    · subst h
      cases (update_self _ _ _).symm.trans hreg'
      exact .inr ⟨w, rfl, (hact w).trans hactive, hfd w⟩
    · refine (inv.known fd' reg' ((update_of_ne h _ _).symm.trans hreg')).imp_right ?_
      rintro ⟨u, hptr, hactive', hu⟩
      exact ⟨u, hptr, (hact u).trans hactive', (hfd u).trans hu⟩

/-- A watcher is deleted. -/
lemma Inv.deleted (inv : Inv loop free) (hactive : (loop.ioPool w).active = true) :
    Inv (deletedLoop loop w) (w :: free) := by
  obtain ⟨hlt, hnot⟩ := inv.of_active hactive
  obtain ⟨-, -, hreg⟩ := inv.busy w hlt hnot
  have hw : (deletedLoop loop w).ioPool w =
      { loop.ioPool w with active := false, fd := -1, next := loop.ioWatchers } :=
    update_self _ _ _
  have hother : ∀ u, u ≠ w → (deletedLoop loop w).ioPool u = loop.ioPool u :=
    fun u hu => update_of_ne hu _ _
  refine ⟨.cons (congrArg (fun u : Watcher => some u.next) hw) (inv.chain.congr fun u hu => ?_),
    List.forall_mem_cons.mpr ⟨hlt, inv.bound⟩, fun u hu => ?_, fun u hu hmem => ?_,
      fun fd' reg' hreg' => ?_⟩
  · rw [EventLoop.next, hother u (ne_of_mem_of_not_mem hu hnot)]
    rfl
  · by_cases hne : u = w
    · rw [hne, hw]
    · rw [hother u hne]
      exact inv.idle u (hu.imp_left fun h => (List.mem_cons.mp h).resolve_left hne)
  · obtain ⟨hne, hmem'⟩ := not_or.mp (List.mem_cons.not.mp hmem)
    obtain ⟨hactive', hnonneg, hreg'⟩ := inv.busy u hu hmem'
    rw [hother u hne]
    refine ⟨hactive', hnonneg, ?_⟩
    rw [watcherOf_of_ne rfl, hreg']
    intro e
    rw [e, hreg] at hreg'
    exact hne (Option.some.inj hreg').symm
  · have hne : fd' ≠ (loop.ioPool w).fd := by
      rintro rfl
      cases (update_self _ _ _).symm.trans hreg'
    refine (inv.known fd' reg' ((update_of_ne hne _ _).symm.trans hreg')).imp_right ?_
    rintro ⟨u, hptr, hactive', hu⟩
    have huw : u ≠ w := by
      rintro rfl
      exact hne hu.symm
    exact ⟨u, hptr, by rw [hother u huw, hactive'], by rw [hother u huw, hu]⟩

/-- A loop that was just created. -/
lemma loopCreate_inv (maxFds : UInt32) (wakeupFd : Int) :
    Inv (loopCreate maxFds wakeupFd) (List.range
      (loopCreate maxFds wakeupFd).ioPoolSize.toNat) := by
  have hpos : 0 < (loopCreate maxFds wakeupFd).ioPoolSize.toNat := by
    rw [loopCreate]
    dsimp only
    split
    · decide
    · next h => exact UInt32.pos_iff_ne_zero.mpr h
  refine ⟨?_, fun w hw => List.mem_range.mp hw, fun _ _ => rfl, fun w hw hmem => ?_,
    fun fd reg hreg => ?_⟩
  · rw [List.range_eq_range']
    generalize hn : (loopCreate maxFds wakeupFd).ioPoolSize.toNat = n at hpos
    have hfree : Chain (loopCreate maxFds wakeupFd).next (if 0 < n then some 0 else none)
        (List.range' 0 (n - 0)) := chain_range (fun i _ => hn ▸ rfl) 0
    rw [if_pos hpos] at hfree
    exact hfree
  · exact absurd (List.mem_range.mpr hw) hmem
  · by_cases h : fd = wakeupFd
    · subst h
      have hself : (loopCreate maxFds fd).interest fd = some ⟨none, epollIn, none, 0⟩ := by
        simp [loopCreate]
      cases hself.symm.trans hreg
      exact .inl ⟨rfl, rfl⟩
    · cases (update_of_ne h _ fun _ => none).symm.trans hreg

/-- After a registration was refused, a free watcher is active. -/
lemma not_poolOk_refused {fd : Int} (hfree : loop.ioWatchers = some w) (events : UInt32)
    (callback : Option Nat) (arg : Nat) (hw : w < loop.ioPoolSize.toNat) :
    ¬ ∃ free, PoolOk (refusedAdd loop w fd events callback arg) free := by
  rintro ⟨free, ok⟩
  have hactive : ((refusedAdd loop w fd events callback arg).ioPool w).active = true := by
    rw [refusedAdd, modify_self]
  have hmem : w ∈ free := List.mem_of_mem_head? (ok.chain.head_eq.symm.trans hfree)
  rcases ok.place w hw with ⟨-, hidle⟩ | ⟨hnot, -⟩
  · cases hidle.symm.trans hactive
  · exact hnot hmem

end Inv

/-! ## Destruction -/

section Destroy
variable {loop : EventLoop} {free : List Ptr} {fd : Int}

/-- The active watcher of a descriptor. -/
def EventLoop.Watches (loop : EventLoop) (fd : Int) (w : Ptr) : Prop :=
  (loop.ioPool w).active = true ∧ (loop.ioPool w).fd ≥ 0 ∧ (loop.ioPool w).fd = fd

/-- The end leaves the pool alone. -/
lemma destroyStep_ioPool (loop : EventLoop) (w : Ptr) :
    (destroyStep loop w).ioPool = loop.ioPool := by
  rw [destroyStep]
  split <;> rfl

/-- One watcher is unregistered. -/
lemma destroyStep_interest {w : Ptr} (h : loop.interest fd = none ∨ loop.Watches fd w) :
    (destroyStep loop w).interest fd = none := by
  rw [destroyStep]
  rcases h with h | ⟨hactive, hnonneg, hfd⟩
  · split
    · by_cases hfd : fd = (loop.ioPool w).fd
      · rw [hfd]
        exact update_self _ _ _
      · exact (update_of_ne hfd _ _).trans h
    · exact h
  · rw [if_pos ⟨hactive, hnonneg⟩, hfd]
    exact update_self _ _ _

/-- All watchers are unregistered. -/
lemma destroy_interest {l : List Ptr} (h : loop.interest fd = none ∨ ∃ w ∈ l, loop.Watches fd w) :
    (l.foldl destroyStep loop).interest fd = none := by
  induction l generalizing loop with
  | nil =>
    rcases h with h | ⟨w, hw, -⟩
    · exact h
    · cases hw
  | cons u l ih =>
    refine ih ?_
    rcases h with h | ⟨w, hw, hwatch⟩
    · exact .inl (destroyStep_interest (.inl h))
    · rcases List.mem_cons.mp hw with rfl | hw
      · exact .inl (destroyStep_interest (.inr hwatch))
      · refine .inr ⟨w, hw, ?_⟩
        rw [EventLoop.Watches, destroyStep_ioPool]
        exact hwatch

/-- Only the eventfd is left in epoll when the loop is destroyed. -/
lemma Inv.destroyed (inv : Inv loop free) (hfd : fd ≠ loop.wakeupFd) :
    (loopDestroy loop).interest fd = none := by
  refine destroy_interest ?_
  cases hreg : loop.interest fd with
  | none => exact .inl rfl
  | some reg =>
    obtain ⟨he, -⟩ | ⟨w, -, hactive, hw⟩ := inv.known fd reg hreg
    · exact absurd he hfd
    · obtain ⟨hlt, hnot⟩ := inv.of_active hactive
      exact .inr ⟨w, List.mem_range.mpr hlt, hactive, (inv.busy w hlt hnot).2.1, hw⟩

end Destroy

/-! ## Runs -/

/-- An operation that registers a descriptor and is refused. -/
def IoOp.Refused (loop : EventLoop) : IoOp → Prop
  | .add fd _ callback _ ok => Watchers.Refused loop fd callback ok
  | .mod _ _ _ => False
  | .del _ => False

instance (loop : EventLoop) : DecidablePred (IoOp.Refused loop)
  | .add fd _ callback _ ok => inferInstanceAs (Decidable (Watchers.Refused loop fd callback ok))
  | .mod _ _ _ => inferInstanceAs (Decidable False)
  | .del _ => inferInstanceAs (Decidable False)

/-- If the operation is a call of `rc_io_add` that fails, it leaves the pool as it was. -/
def IoOp.FailsClean (loop : EventLoop) : IoOp → Prop
  | .add fd events callback arg ok =>
    (ioAdd loop fd events callback arg ok).1 = none →
      (ioAdd loop fd events callback arg ok).2.ioPool = loop.ioPool ∧
        (ioAdd loop fd events callback arg ok).2.ioWatchers = loop.ioWatchers
  | .mod _ _ _ => True
  | .del _ => True

section Runs
variable {loop : EventLoop} {free : List Ptr} {op : IoOp}

/-- An operation that is not refused keeps the invariant. -/
lemma Inv.apply (inv : Inv loop free) (h : ¬ op.Refused loop) :
    (∃ free', Inv (op.apply loop) free') ∧ op.FailsClean loop := by
  cases op with
  | add fd events callback arg ok =>
    rw [IoOp.apply, IoOp.FailsClean]
    obtain ⟨-, e⟩ | ⟨hfd, hcallback, w, hfree, ⟨href, -⟩ | ⟨-, hnone, e⟩⟩ :=
      ioAdd_cases loop fd events callback arg ok
    · rw [e]
      exact ⟨⟨free, inv⟩, fun _ => ⟨rfl, rfl⟩⟩
    · exact absurd ⟨hfd, hcallback, hfree ▸ Option.some_ne_none w, href⟩ h
    · obtain ⟨rest, rfl⟩ : ∃ rest, free = w :: rest :=
        List.head?_eq_some_iff.mp (inv.chain.head_eq.symm.trans hfree)
      rw [e]
      exact ⟨⟨rest, inv.accepted hfd hnone events callback arg⟩, fun hnone => by cases hnone⟩
  | mod watcher events ok =>
    refine ⟨?_, trivial⟩
    rw [IoOp.apply]
    obtain ⟨-, e⟩ | ⟨w, reg, -, hactive, hreg, -, e⟩ := ioMod_cases loop watcher events ok
    · rw [e]
      exact ⟨free, inv⟩
    · rw [e]
      exact ⟨free, inv.modded hactive hreg events⟩
  | del watcher =>
    refine ⟨?_, trivial⟩
    rw [IoOp.apply]
    obtain e | ⟨w, -, hactive, e⟩ := ioDel_cases loop watcher
    · rw [e]
      exact ⟨free, inv⟩
    · rw [e]
      exact ⟨w :: free, inv.deleted hactive⟩

/-- One that is refused breaks it. -/
lemma Inv.not_poolOk (inv : Inv loop free) (h : op.Refused loop) :
    ¬ ∃ free', PoolOk (op.apply loop) free' := by
  cases op with
  | add fd events callback arg ok =>
    obtain ⟨hfd, hcallback, hsome, href⟩ := h
    rw [IoOp.apply]
    obtain ⟨hguard, -⟩ | ⟨-, -, w, hfree, ⟨-, e⟩ | ⟨hok, hnone, -⟩⟩ :=
      ioAdd_cases loop fd events callback arg ok
    · rcases hguard with hguard | hguard | hguard
      · exact absurd hfd (Int.not_le.mpr hguard)
      · exact absurd hguard hcallback
      · exact absurd hguard hsome
    · rw [e]
      have hmem : w ∈ free := List.mem_of_mem_head? (inv.chain.head_eq.symm.trans hfree)
      exact not_poolOk_refused hfree events callback arg (inv.bound w hmem)
    · rw [hok, hnone] at href
      rcases href with href | href <;> cases href
  | mod watcher events ok => exact h.elim
  | del watcher => exact h.elim

/-- A run of operations on a new loop. -/
def runNew (maxFds : UInt32) (wakeupFd : Int) (ops : List IoOp) : EventLoop :=
  ops.foldl IoOp.apply (loopCreate maxFds wakeupFd)

/-- Every operation of a run on a new loop meets a condition in the state it is made in. -/
def RunOps (C : EventLoop → IoOp → Prop) (maxFds : UInt32) (wakeupFd : Int) (ops : List IoOp) :
    Prop :=
  Along (fun loop op => some (IoOp.apply loop op)) C (loopCreate maxFds wakeupFd) ops

instance (C : EventLoop → IoOp → Prop) [∀ loop, DecidablePred (C loop)] (maxFds : UInt32)
    (wakeupFd : Int) (ops : List IoOp) : Decidable (RunOps C maxFds wakeupFd ops) :=
  inferInstanceAs (Decidable (Along _ _ _ ops))

/-- A run without a refusal. -/
lemma runNew_inv {maxFds : UInt32} {wakeupFd : Int} {ops : List IoOp}
    (h : RunOps (fun loop op => ¬ op.Refused loop) maxFds wakeupFd ops) :
    ∃ free, Inv (runNew maxFds wakeupFd ops) free := by
  have hrun : ops.foldlM (fun loop op => some (IoOp.apply loop op)) (loopCreate maxFds wakeupFd) =
      some (runNew maxFds wakeupFd ops) := List.foldlM_pure
  refine Along.invariant (P := fun loop => ∃ free, Inv loop free) ?_ h
    ⟨_, loopCreate_inv maxFds wakeupFd⟩ hrun
  rintro loop op loop' ⟨free, inv⟩ hop e
  cases e
  exact (inv.apply hop).1

/-- After every run in which no registration was refused, the watchers are free or registered, and
`rc_loop_destroy` leaves none of their descriptors in epoll. The next operation keeps the watchers
so, and leaves the pool alone if it is a registration that fails, exactly if it is not refused. -/
theorem io_pool_iff {maxFds : UInt32} {wakeupFd : Int} {ops : List IoOp}
    (h : RunOps (fun loop op => ¬ op.Refused loop) maxFds wakeupFd ops) :
    (∃ free, PoolOk (runNew maxFds wakeupFd ops) free) ∧
      (∀ fd, fd ≠ (runNew maxFds wakeupFd ops).wakeupFd →
        (loopDestroy (runNew maxFds wakeupFd ops)).interest fd = none) ∧
      ∀ op : IoOp,
        ((∃ free, PoolOk (runNew maxFds wakeupFd (ops ++ [op])) free) ∧
            op.FailsClean (runNew maxFds wakeupFd ops)) ↔
          ¬ op.Refused (runNew maxFds wakeupFd ops) := by
  obtain ⟨free, inv⟩ := runNew_inv h
  refine ⟨⟨free, inv.poolOk⟩, fun fd hfd => inv.destroyed hfd, fun op => ?_⟩
  rw [runNew, List.foldl_append]
  constructor
  · rintro ⟨hok, -⟩ href
    exact inv.not_poolOk href hok
  · intro hop
    obtain ⟨⟨free', inv'⟩, hclean⟩ := inv.apply hop
    exact ⟨⟨free', inv'.poolOk⟩, hclean⟩

/-- Two descriptors are registered, one of them is deleted and its watcher taken again; then there
is no watcher left. -/
def poolSample : List IoOp :=
  [.add 5 epollIn (some 1) 50 true, .add 6 epollIn (some 2) 60 true, .del (some 0),
    .add 7 epollIn (some 3) 70 true, .mod (some 1) 4 false, .add 8 epollIn (some 4) 80 true]

/-- Watchers are added, deleted and added again. -/
theorem io_pool_iff_sample :
    RunOps (fun loop op => ¬ op.Refused loop) 2 3 poolSample ∧
      (∃ free, PoolOk (runNew 2 3 poolSample) free) ∧
      (runNew 2 3 poolSample).watcherOf 7 = some 0 ∧ (runNew 2 3 poolSample).ioWatchers = none := by
  have h : RunOps (fun loop op => ¬ op.Refused loop) 2 3 poolSample := by decide +kernel
  exact ⟨h, (io_pool_iff h).1, by decide +kernel, by decide +kernel⟩

/-- A registration that the kernel refuses returns `NULL`, and leaves the watcher at the head of the
free list active, with the data of the call. -/
theorem refused_watcher_active :
    (ioAdd (loopCreate 2 3) 9 epollIn (some 1) 50 false).1 = none ∧
      (runNew 2 3 [.add 9 epollIn (some 1) 50 false]).ioWatchers = some 0 ∧
      (runNew 2 3 [.add 9 epollIn (some 1) 50 false]).ioPool 0 =
        { fd := 9, events := epollIn, callback := some 1, arg := 50, active := true,
          next := some 1 } ∧
      (runNew 2 3 [.add 9 epollIn (some 1) 50 false]).watcherOf 9 = none ∧
      (¬ ∃ free, PoolOk (runNew 2 3 [.add 9 epollIn (some 1) 50 false]) free) := by
  have href : (IoOp.add 9 epollIn (some 1) 50 false).Refused (loopCreate 2 3) := by decide +kernel
  exact ⟨by decide +kernel, by decide +kernel, by decide +kernel, by decide +kernel,
    (loopCreate_inv 2 3).not_poolOk href⟩

end Runs

end RoboControl.Watchers
