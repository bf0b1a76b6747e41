import RoboControl.Base.Double
import RoboControl.RelayServer.Table

/-!
# LRU list of the relay server

The LRU list as a list with two ends (`LruOk`). What the functions on it do to the links and to the
two ends is said once (`lruLink_lruBypass`, `lruBack_lruPush` and so on); a session that is touched
moves to the head (`LruOk.touch`) and a session that is destroyed leaves the list (`LruOk.remove`).
Nothing that the server does to the hash table is seen by the list (`LruOk.of_offHash`).
-/

namespace RoboControl.RelayServer
open Base Proto Function

/-- The link of a session towards the tail of the list. -/
def Server.lruLink (srv : Server) (s : Ptr) : Option (Option Ptr) := some (srv.sessions s).lruNext

/-- The link of a session towards the head of the list. -/
def Server.lruBack (srv : Server) (s : Ptr) : Option Ptr := (srv.sessions s).lruPrev

/-- The LRU list has these sessions, from head to tail. -/
abbrev LruOk (srv : Server) (l : List Ptr) : Prop :=
  Deque srv.lruLink srv.lruBack srv.lruHead srv.lruTail l

/-! ## Links -/

@[simp] lemma lruLink_setLruPrev (srv : Server) (s : Ptr) (q : Option Ptr) :
    (srv.setLruPrev s q).lruLink = srv.lruLink := by
  funext p
  refine congrArg some (modify_frame Session.lruNext (fun sess => ?_) srv s p)
  rfl

@[simp] lemma lruBack_setLruNext (srv : Server) (s : Ptr) (q : Option Ptr) :
    (srv.setLruNext s q).lruBack = srv.lruBack := by
  funext p
  refine modify_frame Session.lruPrev (fun sess => ?_) srv s p
  rfl

@[simp] lemma lruLink_setLruNext (srv : Server) (s : Ptr) (q : Option Ptr) :
    (srv.setLruNext s q).lruLink = update srv.lruLink s (some q) := by
  funext p
  by_cases hp : p = s
  · subst hp
    simp [Server.lruLink, Server.setLruNext, Server.modify]
  · simp [Server.lruLink, Server.setLruNext, Server.modify, hp]

@[simp] lemma lruBack_setLruPrev (srv : Server) (s : Ptr) (q : Option Ptr) :
    (srv.setLruPrev s q).lruBack = update srv.lruBack s q := by
  funext p
  by_cases hp : p = s
  · subst hp
    simp [Server.lruBack, Server.setLruPrev, Server.modify]
  · simp [Server.lruBack, Server.setLruPrev, Server.modify, hp]

/-- A link of a session is not an end of the list. -/
lemma ends_setLru (srv : Server) (s : Ptr) (q : Option Ptr) :
    (srv.setLruNext s q).lruHead = srv.lruHead ∧ (srv.setLruNext s q).lruTail = srv.lruTail ∧
      (srv.setLruPrev s q).lruHead = srv.lruHead ∧ (srv.setLruPrev s q).lruTail = srv.lruTail :=
  ⟨rfl, rfl, rfl, rfl⟩

/-- The ends of the list are not links. -/
lemma lru_ends (srv : Server) (h t : Option Ptr) :
    { srv with lruHead := h, lruTail := t }.lruLink = srv.lruLink ∧
      { srv with lruHead := h, lruTail := t }.lruBack = srv.lruBack :=
  ⟨rfl, rfl⟩

/-- The first write of `lru_touch` does not change the session that is moved. -/
@[simp] lemma sessions_setLruNext_self (srv : Server) (s p : Ptr) :
    (srv.setLruNext p (srv.sessions s).lruNext).sessions s = srv.sessions s := by
  by_cases hp : s = p
  · subst hp
    simp [Server.setLruNext, Server.modify]
  · simp [Server.setLruNext, Server.modify, hp]

section Links
variable (srv : Server) (s : Ptr)

/-- What leading the list past a session does to its links and its ends. -/
lemma lruBypass_spec :
    (∀ q, (lruBypass srv s).lruLink q =
      if srv.lruBack s = some q then srv.lruLink s else srv.lruLink q) ∧
    (∀ q, (lruBypass srv s).lruBack q =
      if srv.lruLink s = some (some q) then srv.lruBack s else srv.lruBack q) ∧
    (lruBypass srv s).lruHead =
      (if srv.lruBack s = none then (srv.sessions s).lruNext else srv.lruHead) ∧
    (lruBypass srv s).lruTail =
      if srv.lruLink s = some none then srv.lruBack s else srv.lruTail := by
  rw [lruBypass, show srv.lruBack s = (srv.sessions s).lruPrev from rfl,
    show srv.lruLink s = some (srv.sessions s).lruNext from rfl]
  cases hp : (srv.sessions s).lruPrev with
  | none =>
    cases hn : (srv.sessions s).lruNext <;>
      simp [hp, lru_ends, ends_setLru, update_apply, eq_comm]
  | some p =>
    dsimp only
    rw [sessions_setLruNext_self, hp]
    cases hn : (srv.sessions s).lruNext <;>
      simp [lru_ends, ends_setLru, update_apply, eq_comm]

/-- What putting a session at the head does to the links and the ends. -/
lemma lruPush_spec :
    (lruPush srv s).lruLink = update srv.lruLink s (some srv.lruHead) ∧
    (∀ q, (lruPush srv s).lruBack q =
      if srv.lruHead = some q then some s else update srv.lruBack s none q) ∧
    (lruPush srv s).lruHead = some s ∧
    (lruPush srv s).lruTail = some (srv.lruTail.getD s) := by
  rw [lruPush]
  cases hh : srv.lruHead <;> cases ht : srv.lruTail <;>
    simp [hh, ht, lru_ends, ends_setLru, update_apply, eq_comm]

/-- The end of `session_destroy` does to a list what `lru_touch` does, where the ends fit. -/
lemma lruSkip_eq_lruBypass (hh : srv.lruBack s = none → srv.lruHead = some s)
    (ht : (srv.sessions s).lruNext = none → srv.lruTail = some s) :
    lruSkipFromTail (lruSkipFromHead srv s) s = lruBypass srv s := by
  rw [lruSkipFromHead, lruSkipFromTail, lruBypass]
  change (srv.sessions s).lruPrev = none → _ at hh
  cases hp : (srv.sessions s).lruPrev with
  | none =>
    simp only [if_pos (hh hp), hp]
    cases hn : (srv.sessions s).lruNext with
    | none => simp only [ht hn, if_true]
    | some n => rfl
  | some p =>
    simp only [sessions_setLruNext_self, ends_setLru, hp]
    cases hn : (srv.sessions s).lruNext with
    | none => simp only [ht hn, if_true]
    | some n => rfl

end Links

/-! ## The list -/

section List
variable {srv srv' : Server} {l pre post : List Ptr} {s : Ptr}

/-- The hash table has no say. -/
lemma LruOk.of_offHash (inv : LruOk srv l) (h : srv'.offHash = srv.offHash) : LruOk srv' l := by
  have hs : ∀ p, (srv'.sessions p).offHash = (srv.sessions p).offHash :=
    fun p => congrFun (congrArg Server.sessions h) p
  have hh : srv'.lruHead = srv.lruHead := (congrArg Server.lruHead h :)
  have ht : srv'.lruTail = srv.lruTail := (congrArg Server.lruTail h :)
  rw [LruOk, hh, ht]
  exact inv.congr (fun p _ => congrArg some (congrArg Session.lruNext (hs p) :))
    fun p _ => (congrArg Session.lruPrev (hs p) :)

/-- A session is taken out. -/
lemma LruOk.bypass (inv : LruOk srv (pre ++ s :: post)) :
    LruOk (lruBypass srv s) (pre ++ post) := by
  have hback : srv.lruBack s = pre.getLast? := inv.back.prev_eq
  have hlink : srv.lruLink s = some post.head? := inv.chain.next_eq
  have hhead := inv.chain.head_eq
  obtain ⟨hl, hb, hh, ht⟩ := lruBypass_spec srv s
  refine Deque.bypass inv (fun q _ => ?_) (fun q _ => ?_) ?_ ?_
  · rw [hl, hback]
  · rw [hb, hlink]
    simp only [Option.some.injEq]
  · rw [hh, hback, Option.some.inj hlink, hhead]
    cases pre <;> simp
  · rw [ht, hback, hlink, inv.tail_eq]
    cases post <;> simp

/-- A session becomes the first. -/
lemma LruOk.push (inv : LruOk srv l) (hs : s ∉ l) : LruOk (lruPush srv s) (s :: l) := by
  obtain ⟨hl, hb, hh, ht⟩ := lruPush_spec srv s
  have hhead := inv.chain.head_eq
  rw [LruOk, hh, ht]
  refine Deque.push inv ?_ (fun q hq => ?_) ?_ (fun q hq => ?_) fun q hq => ?_
  · rw [hl, update_self]
  · rw [hl, update_of_ne (ne_of_mem_of_not_mem hq hs)]
  · rw [hb, update_self, if_neg fun e => ?_]
    exact hs (List.mem_of_mem_head? (hhead ▸ e))
  · rw [hb]
    exact if_pos (hhead.trans hq)
  · have hql := List.mem_of_mem_tail hq
    rw [hb, if_neg (inv.chain.ne_of_mem_tail hq),
      update_of_ne (ne_of_mem_of_not_mem hql hs)]

/-- A session of the list moves to its head. -/
lemma LruOk.touch (inv : LruOk srv l) (hs : s ∈ l) : LruOk (lruTouch srv s) (s :: l.erase s) := by
  obtain ⟨pre, post, rfl⟩ := List.append_of_mem hs
  have hnd := inv.chain.nodup
  have hback : (srv.sessions s).lruPrev = pre.getLast? := inv.back.prev_eq
  have hcond : (srv.sessions s).lruPrev ≠ none ∨ (srv.sessions s).lruNext ≠ none ∨
      srv.lruHead = some s := by
    cases pre with
    | nil => exact .inr (.inr inv.chain.head_eq)
    | cons a pre => exact .inl (by simp [hback])
  rw [lruTouch, if_pos hcond, inv.chain.erase_eq]
  refine inv.bypass.push fun h => ?_
  rw [List.nodup_middle, List.nodup_cons] at hnd
  exact hnd.1 h

/-- A session with cleared links comes to the head of the list. -/
lemma LruOk.touch_new (inv : LruOk srv l) (hs : s ∉ l) (hp : (srv.sessions s).lruPrev = none)
    (hn : (srv.sessions s).lruNext = none) : LruOk (lruTouch srv s) (s :: l) := by
  have hh : srv.lruHead ≠ some s := fun e => hs (List.mem_of_mem_head? (inv.chain.head_eq ▸ e))
  rw [lruTouch, if_neg (by simp [hp, hn, hh])]
  exact inv.push hs

/-- A session leaves the list. -/
lemma LruOk.remove (inv : LruOk srv l) (hs : s ∈ l) : LruOk (lruRemove srv s) (l.erase s) := by
  obtain ⟨pre, post, rfl⟩ := List.append_of_mem hs
  have hback : srv.lruBack s = pre.getLast? := inv.back.prev_eq
  have hlink : (srv.sessions s).lruNext = post.head? := Option.some.inj inv.chain.next_eq
  have hnd := inv.chain.nodup
  rw [List.nodup_middle, List.nodup_cons] at hnd
  rw [lruRemove, lruSkip_eq_lruBypass, inv.chain.erase_eq]
  · refine Deque.congr inv.bypass (fun q hq => ?_) fun q hq => ?_
    · rw [lruLink_setLruPrev, lruLink_setLruNext,
        update_of_ne (ne_of_mem_of_not_mem hq hnd.1)]
    · rw [lruBack_setLruPrev, lruBack_setLruNext,
        update_of_ne (ne_of_mem_of_not_mem hq hnd.1)]
  · intro e
    rw [hback, List.getLast?_eq_none_iff] at e
    rw [inv.chain.head_eq, e]
    rfl
  · intro e
    rw [hlink, List.head?_eq_none_iff] at e
    rw [inv.tail_eq, e, List.getLast?_concat]

end List

end RoboControl.RelayServer
