import RoboControl.RelayServer.Find
import RoboControl.RelayServer.Lru

/-!
# Session registry of the relay server

The three structures that the relay server keeps its sessions in agree (`RegistryOk`): the LRU list
and the hash table have exactly the active sessions, each once, the list is ordered by the last
activity, and the counter is their number. With a clock that does not go back, every operation keeps
this and comes to an end (`Registry.step`), so every run does (`registry_agrees`). A cleanup
destroys sessions of the list it walks; it is at any time before a part of the list that has not
changed (`cleanupFrom_keeps`).
-/

namespace RoboControl.RelayServer
open Base Proto Function

/-! ## Order of activity -/

section Recency
variable {last last' : Ptr → UInt64} {t t' : UInt64} {l l' : List Ptr} {s : Ptr}

/-- A list is ordered by times, the latest first, and none of them is after `t`. -/
structure Recency (last : Ptr → UInt64) (t : UInt64) (l : List Ptr) : Prop where
  sorted : l.Pairwise fun p q => last q ≤ last p
  latest : ∀ p ∈ l, last p ≤ t

/-- The times decide. -/
lemma Recency.congr (rec : Recency last t l) (h : ∀ p ∈ l, last' p = last p) :
    Recency last' t l := by
  refine ⟨rec.sorted.imp_of_mem fun {p q} hp hq hpq => ?_, fun p hp => ?_⟩
  · rwa [h p hp, h q hq]
  · rw [h p hp]
    exact rec.latest p hp

/-- Some sessions less. -/
lemma Recency.sublist (rec : Recency last t l) (h : l'.Sublist l) : Recency last t l' :=
  ⟨rec.sorted.sublist h, fun p hp => rec.latest p (h.subset hp)⟩

/-- A later time. -/
lemma Recency.mono (rec : Recency last t l) (h : t ≤ t') : Recency last t' l :=
  ⟨rec.sorted, fun p hp => UInt64.le_trans (rec.latest p hp) h⟩

/-- What is active now comes first. -/
lemma Recency.front (rec : Recency last t l) (hs : last s = t') (h : t ≤ t') :
    Recency last t' (s :: l) := by
  subst hs
  have hl : ∀ p ∈ l, last p ≤ last s := fun p hp => UInt64.le_trans (rec.latest p hp) h
  refine ⟨List.pairwise_cons.mpr ⟨hl, rec.sorted⟩, fun p hp => ?_⟩
  obtain rfl | hp := List.mem_cons.mp hp
  · exact UInt64.le_refl _
  · exact hl p hp

end Recency

/-! ## Registry -/

/-- The time of the last activity of a session. -/
def Server.last (srv : Server) (s : Ptr) : UInt64 := (srv.sessions s).lastActivityMs

/-- The number of active sessions. -/
def Server.actives (srv : Server) : Nat :=
  (List.range maxSessions).countP fun s => (srv.sessions s).active

/-- The LRU list is well formed and has exactly the active sessions, by their last activity; the
hash table has exactly the active sessions, by their first peers; the counter is their number, and
the peak is not below it. -/
structure RegistryOk (srv : Server) : Prop where
  lru : ∃ l, LruOk srv l ∧ l.Nodup ∧ (∀ s, s ∈ l ↔ (srv.sessions s).active = true) ∧
    l.Pairwise fun p q => srv.last q ≤ srv.last p
  hash : ∃ chains, HashOk srv chains ∧ ∀ b, (chains b).Nodup
  count : srv.sessionCount.toNat = srv.actives
  peak : srv.sessionCount ≤ srv.peakSessions

/-- The LRU list `l` and the hash table have exactly the active sessions. -/
structure Listed (srv : Server) (l : List Ptr) : Prop where
  lru : LruOk srv l
  mem_iff : ∀ s, s ∈ l ↔ (srv.sessions s).active = true
  hash : ∃ chains, HashOk srv chains

/-- A server with the LRU list `l` and no activity after `t`. -/
structure Registry (srv : Server) (t : UInt64) (l : List Ptr) : Prop where
  lru : LruOk srv l
  mem_iff : ∀ s, s ∈ l ↔ (srv.sessions s).active = true
  recency : Recency srv.last t l
  hash : ∃ chains, HashOk srv chains
  count : srv.sessionCount.toNat = l.length
  peak : srv.sessionCount ≤ srv.peakSessions

section Registry
variable {srv srv' : Server} {t : UInt64} {l : List Ptr} {s : Ptr}

/-- The part about the list. -/
lemma Registry.listed (reg : Registry srv t l) : Listed srv l := ⟨reg.lru, reg.mem_iff, reg.hash⟩

/-- The sessions are in the pool. -/
lemma Listed.lt_maxSessions (listed : Listed srv l) (hs : s ∈ l) : s < maxSessions := by
  obtain ⟨chains, hash⟩ := listed.hash
  exact hash.bound s ((listed.mem_iff s).mp hs)

/-- There are no more than in the pool. -/
lemma Listed.length_le (listed : Listed srv l) : l.length ≤ maxSessions :=
  listed.lru.chain.length_le fun _ hs => listed.lt_maxSessions hs

/-- The list is the active sessions in another order. -/
lemma Registry.length_eq (reg : Registry srv t l) : l.length = srv.actives := by
  rw [Server.actives, List.countP_eq_length_filter]
  refine List.Perm.length_eq ((List.perm_ext_iff_of_nodup reg.lru.chain.nodup
    (List.nodup_range.filter _)).mpr fun s => ?_)
  rw [List.mem_filter, List.mem_range, ← reg.mem_iff]
  exact ⟨fun hs => ⟨reg.listed.lt_maxSessions hs, hs⟩, And.right⟩

/-- What the registry is for. -/
lemma Registry.ok (reg : Registry srv t l) : RegistryOk srv where
  lru := ⟨l, reg.lru, reg.lru.chain.nodup, reg.mem_iff, reg.recency.sorted⟩
  hash := reg.hash.imp fun _ hash => ⟨hash, fun b => (hash.chain b).nodup⟩
  count := reg.count.trans reg.length_eq
  peak := reg.peak

/-- A later time. -/
lemma Registry.mono {t' : UInt64} (reg : Registry srv t l) (h : t ≤ t') : Registry srv t' l :=
  { reg with recency := reg.recency.mono h }

/-- At first there is no session. -/
lemma serverInit_registry : Registry serverInit 0 [] where
  lru := ⟨.nil, .nil, rfl⟩
  mem_iff _ := ⟨(nomatch ·), (nomatch ·)⟩
  recency := ⟨.nil, fun _ h => nomatch h⟩
  hash := ⟨_, serverInit_hashOk⟩
  count := rfl
  peak := UInt32.le_refl 0

/-- What the functions on the LRU list leave of the sessions. -/
lemma sessions_of_offLru (h : srv'.offLru = srv.offLru) (p : Ptr) :
    (srv'.sessions p).active = (srv.sessions p).active ∧ srv'.last p = srv.last p := by
  have hp : (srv'.sessions p).offLru = (srv.sessions p).offLru :=
    congrFun (congrArg Server.sessions h) p
  exact ⟨(congrArg Session.active hp :), (congrArg Session.lastActivityMs hp :)⟩

lemma counters_of_offLru (h : srv'.offLru = srv.offLru) :
    srv'.sessionCount = srv.sessionCount ∧ srv'.peakSessions = srv.peakSessions :=
  ⟨(congrArg Server.sessionCount h :), (congrArg Server.peakSessions h :)⟩

/-! ## Creation -/

/-- A free session is not listed. -/
lemma firstSession_inactive (reg : Registry srv t l)
    (h : firstSession srv (!·.active) maxSessions 0 = some s) : s ∉ l := fun hs => by
  obtain ⟨hinactive, -⟩ := firstSession_eq_some h
  rw [(reg.mem_iff s).mp hs] at hinactive
  cases hinactive

/-- The session that `session_create` has set up and put into the hash table. -/
lemma sessionCreate_sessions (srv : Server) (s : Ptr) (a b : PeerAddr) (now now' : UInt64) :
    (sessionInsertHash { srv.modify s fun _ => newSession srv a b now now' with
      nextSessionId := srv.nextSessionId + 1 } s).sessions = update srv.sessions s
        { newSession srv a b now now' with hashNext := srv.hashTable (bucket a.addr) } :=
  sessionInsertHash_sessions srv s (newSession srv a b now now')

/-- A session that was set up comes to the head of the list. -/
lemma Registry.touch_new (reg : Registry srv t l) (hs : s ∉ l) {srv₁ : Server}
    (hhead : srv₁.lruHead = srv.lruHead) (htail : srv₁.lruTail = srv.lruTail)
    (hold : ∀ p, p ≠ s → srv₁.sessions p = srv.sessions p)
    (hprev : (srv₁.sessions s).lruPrev = none) (hnext : (srv₁.sessions s).lruNext = none)
    (hactive : (srv₁.sessions s).active = true) (hnow : t ≤ srv₁.last s) :
    LruOk (lruTouch srv₁ s) (s :: l) ∧
      (∀ p, p ∈ s :: l ↔ ((lruTouch srv₁ s).sessions p).active = true) ∧
      Recency (lruTouch srv₁ s).last (srv₁.last s) (s :: l) := by
  have hne : ∀ p ∈ l, p ≠ s := fun p hp => ne_of_mem_of_not_mem hp hs
  have lru₁ : LruOk srv₁ l := by
    rw [LruOk, hhead, htail]
    exact Deque.congr reg.lru
      (fun p hp => congrArg some (congrArg Session.lruNext (hold p (hne p hp))))
      fun p hp => congrArg Session.lruPrev (hold p (hne p hp))
  -- The rest of the sessions is as the list left it.
  have off := sessions_of_offLru (offLru_lruTouch srv₁ s)
  refine ⟨lru₁.touch_new hs hprev hnext, fun p => ?_, ?_⟩
  · rw [List.mem_cons, (off p).1]
    by_cases hp : p = s
    · subst hp
      simp [hactive]
    · simp [hp, hold p hp, reg.mem_iff]
  · refine (reg.recency.congr fun p hp => ?_).front (off s).2 hnow
    rw [(off p).2, Server.last, hold p (hne p hp)]
    rfl

/-- The counter has room for every session. -/
lemma Registry.count_succ (reg : Registry srv t l) (hlen : l.length < maxSessions) :
    (srv.sessionCount + 1).toNat = l.length + 1 := by
  rw [maxSessions] at hlen
  rw [UInt32.toNat_add, reg.count, UInt32.toNat_one]
  exact Nat.mod_eq_of_lt (by omega)

/-- A new session comes to the head of the list. -/
lemma Registry.create (reg : Registry srv t l) (a b : PeerAddr) (now : UInt64) {now' : UInt64}
    (hnow : t ≤ now') : ∃ l', Registry (sessionCreate srv a b now now').2 now' l' := by
  obtain ⟨chains, hash⟩ := reg.hash
  have hash' := hash.create a b now now'
  rw [sessionCreate] at hash' ⊢
  split
  · exact ⟨l, reg.mono hnow⟩
  · next s hfirst =>
    rw [hfirst] at hash'
    have hs := firstSession_inactive reg hfirst
    have hlt := (firstSession_eq_some hfirst).2
    have hsess := sessionCreate_sessions srv s a b now now'
    set srv₁ := sessionInsertHash { srv.modify s fun _ => newSession srv a b now now' with
      nextSessionId := srv.nextSessionId + 1 } s
    have hold : ∀ p, p ≠ s → srv₁.sessions p = srv.sessions p := fun p hp => by
      rw [hsess, update_of_ne hp]
    have hnew : srv₁.sessions s =
        { newSession srv a b now now' with hashNext := srv.hashTable (bucket a.addr) } := by
      rw [hsess, update_self]
    have hhead : srv₁.lruHead = srv.lruHead := rfl
    have htail : srv₁.lruTail = srv.lruTail := rfl
    have hlast : srv₁.last s = now' := congrArg Session.lastActivityMs hnew
    obtain ⟨lru₂, hmem, hrec⟩ := reg.touch_new hs hhead htail hold (congrArg Session.lruPrev hnew)
      (congrArg Session.lruNext hnew) (congrArg Session.active hnew) (hlast ▸ hnow)
    rw [hlast] at hrec
    have hcount : (lruTouch srv₁ s).sessionCount = srv.sessionCount :=
      (counters_of_offLru (offLru_lruTouch srv₁ s)).1
    have hlen : (s :: l).length ≤ maxSessions := lru₂.chain.length_le fun p hp => by
      obtain rfl | hp := List.mem_cons.mp hp
      · simpa using hlt
      · exact reg.listed.lt_maxSessions hp
    refine ⟨s :: l, lru₂, hmem, hrec, hash', ?_, ?_⟩
    · rw [List.length_cons, ← reg.count_succ hlen, ← hcount]
    · dsimp only
      split
      · exact UInt32.le_refl _
      · next h => exact UInt32.not_lt.mp h

/-! ## Destruction -/

/-- The flag is not part of the list. -/
lemma LruOk.deactivate (inv : LruOk srv l) (s : Ptr) : LruOk (srv.deactivate s) l := by
  refine Deque.congr inv (fun p _ => congrArg some ?_) fun p _ => ?_
  · refine modify_frame Session.lruNext (fun sess => ?_) srv s p
    rfl
  · refine modify_frame Session.lruPrev (fun sess => ?_) srv s p
    rfl

/-- The flag is not part of the times. -/
lemma last_deactivate (srv : Server) (s p : Ptr) : (srv.deactivate s).last p = srv.last p := by
  refine modify_frame Session.lastActivityMs (fun sess => ?_) srv s p
  rfl

/-- A destroyed session has left the list, and was counted if it was there. -/
lemma Listed.destroy (listed : Listed srv l) (s : Ptr) :
    ∃ srv', sessionDestroy srv s = some srv' ∧ Listed srv' (l.erase s) ∧ srv'.last = srv.last ∧
      srv'.peakSessions = srv.peakSessions ∧
      srv'.sessionCount = if s ∈ l then srv.sessionCount - 1 else srv.sessionCount := by
  cases hs : (srv.sessions s).active with
  | false =>
    have hmem : s ∉ l := fun h => by rw [(listed.mem_iff s).mp h] at hs; cases hs
    rw [List.erase_of_not_mem hmem, if_neg hmem]
    exact ⟨srv, if_pos hs, listed, rfl, rfl, rfl⟩
  | true =>
    have hmem := (listed.mem_iff s).mpr hs
    obtain ⟨chains, hash⟩ := listed.hash
    obtain ⟨srv', chains', h', hash'⟩ := hash.destroy s
    obtain ⟨srv₁, off₁, h₁⟩ := hash.sessionDestroy_eq hs
    cases h'.symm.trans h₁
    have hsess : ∀ p, (srv₁.sessions p).offHash = ((srv.deactivate s).sessions p).offHash :=
      fun p => congrFun (congrArg Server.sessions off₁) p
    have off := sessions_of_offLru (offLru_lruRemove srv₁ s)
    obtain ⟨hcount₁, hpeak₁⟩ := counters_of_offLru (offLru_lruRemove srv₁ s)
    rw [if_pos hmem]
    refine ⟨_, h₁, ⟨((listed.lru.deactivate s).of_offHash off₁).remove hmem, fun p => ?_,
      ⟨chains', hash'⟩⟩, funext fun p => ?_, ?_, ?_⟩
    · have hactive : (srv₁.sessions p).active = ((srv.deactivate s).sessions p).active :=
        (congrArg Session.active (hsess p) :)
      rw [show _ = _ from (off p).1, hactive, active_deactivate, ← listed.mem_iff,
        listed.lru.chain.nodup.mem_erase_iff, and_comm]
    · have hlast : srv₁.last p = (srv.deactivate s).last p :=
        (congrArg Session.lastActivityMs (hsess p) :)
      exact (off p).2.trans (hlast.trans (last_deactivate srv s p))
    · exact hpeak₁.trans (congrArg Server.peakSessions off₁ :)
    · exact congrArg (· - 1) (hcount₁.trans (congrArg Server.sessionCount off₁ :))

/-- A destroyed session has left the registry. -/
lemma Registry.destroy (reg : Registry srv t l) (s : Ptr) :
    ∃ srv', sessionDestroy srv s = some srv' ∧ Registry srv' t (l.erase s) ∧
      srv'.last = srv.last := by
  obtain ⟨srv', h', listed, hlast, hpeak, hcount⟩ := reg.listed.destroy s
  have hrec : Recency srv'.last t (l.erase s) := by
    rw [hlast]
    exact reg.recency.sublist List.erase_sublist
  have hcounters : srv'.sessionCount.toNat = (l.erase s).length ∧
      srv'.sessionCount ≤ srv'.peakSessions := by
    rw [hcount, hpeak]
    by_cases hmem : s ∈ l
    · have hone : (1 : UInt32) ≤ srv.sessionCount := by
        rw [UInt32.le_iff_toNat_le, reg.count]
        exact List.length_pos_of_mem hmem
      have hpred : (srv.sessionCount - 1).toNat = srv.sessionCount.toNat - 1 :=
        UInt32.toNat_sub_of_le _ _ hone
      rw [if_pos hmem, UInt32.le_iff_toNat_le, hpred, List.length_erase_of_mem hmem, ← reg.count]
      exact ⟨rfl, (Nat.sub_le _ _).trans (UInt32.le_iff_toNat_le.mp reg.peak)⟩
    · rw [if_neg hmem, List.erase_of_not_mem hmem]
      exact ⟨reg.count, reg.peak⟩
  exact ⟨srv', h', ⟨listed.lru, listed.mem_iff, hrec, listed.hash, hcounters.1, hcounters.2⟩, hlast⟩

/-! ## Cleanup -/

/-- When a listed session is stale. -/
lemma Listed.stale_iff (listed : Listed srv l) (hs : s ∈ l) (deadline : UInt64) :
    (srv.sessions s).stale deadline = true ↔ srv.last s < deadline := by
  rw [Session.stale, (listed.mem_iff s).mp hs, Bool.true_and, decide_eq_true_iff]
  rfl

section Cleanup
variable {P : Server → List Ptr → Prop} (hlisted : ∀ {srv l}, P srv l → Listed srv l)
variable (hdestroy : ∀ {srv l}, P srv l → ∀ s,
  ∃ srv', sessionDestroy srv s = some srv' ∧ P srv' (l.erase s) ∧ srv'.last = srv.last)
include hlisted hdestroy

/-- What destroying a session keeps, a cleanup keeps. It leaves the part of the list behind it, and
of the rest the sessions that are not stale. -/
lemma cleanupFrom_keeps {pre post : List Ptr} {fuel : Nat} (h : P srv (pre ++ post))
    (hf : pre.length ≤ fuel) (deadline : UInt64) :
    ∃ srv', cleanupFrom deadline fuel srv pre.getLast? = some srv' ∧
      P srv' (pre.filter (fun s => deadline ≤ srv.last s) ++ post) := by
  induction pre using List.reverseRecOn generalizing srv post fuel with
  | nil => exact ⟨srv, by cases fuel <;> rfl, h⟩
  | append_singleton pre s ih =>
    rw [List.length_append, List.length_singleton] at hf
    obtain ⟨fuel, rfl⟩ := Nat.exists_eq_add_one_of_ne_zero (Nat.ne_zero_of_lt hf)
    have hfuel := Nat.le_of_succ_le_succ hf
    rw [← List.append_cons] at h
    have listed := hlisted h
    have hprev : (srv.sessions s).lruPrev = pre.getLast? := listed.lru.back.prev_eq
    have hstale := listed.stale_iff (List.mem_append_right pre List.mem_cons_self) deadline
    rw [List.getLast?_concat, cleanupFrom, hprev, cleanupStep, List.filter_append]
    by_cases hlast : deadline ≤ srv.last s
    · have hkeep : [s].filter (fun s => deadline ≤ srv.last s) = [s] := by simp [hlast]
      rw [if_neg fun h => UInt64.not_lt.mpr hlast (hstale.mp h), hkeep, List.append_assoc]
      exact ih h hfuel
    · have hdrop : [s].filter (fun s => deadline ≤ srv.last s) = [] := by simp [hlast]
      obtain ⟨srv₁, h₁, hP₁, hlast₁⟩ := hdestroy h s
      rw [listed.lru.chain.erase_eq] at hP₁
      rw [if_pos (hstale.mpr (UInt64.not_le.mp hlast)), hdrop, List.append_nil, h₁, ← hlast₁]
      exact ih hP₁ hfuel

/-- A cleanup leaves the sessions that are not stale. -/
lemma cleanupStale_keeps (h : P srv l) (now : UInt64) :
    ∃ srv', cleanupStale srv now = some srv' ∧
      P srv' (l.filter fun s => now - sessionTimeout * 1000 ≤ srv.last s) := by
  have h' : P srv (l ++ []) := by rwa [List.append_nil]
  obtain ⟨srv', hfrom, hleft⟩ := cleanupFrom_keeps hlisted hdestroy h' (hlisted h).length_le
    (now - sessionTimeout * 1000)
  rw [List.append_nil] at hleft
  refine ⟨srv', ?_, hleft⟩
  rw [cleanupStale, (hlisted h).lru.tail_eq]
  exact hfrom

end Cleanup

/-- Old sessions are destroyed. -/
lemma Registry.cleanup (reg : Registry srv t l) (now : UInt64) :
    ∃ srv' l', cleanupStale srv now = some srv' ∧ Registry srv' t l' := by
  obtain ⟨srv', h', reg'⟩ := cleanupStale_keeps Registry.listed Registry.destroy reg now
  exact ⟨srv', _, h', reg'⟩

/-! ## Control plane and data plane -/

/-- A control message. -/
lemma Registry.control (reg : Registry srv t l) (host : Endian) (msg : List UInt8) (now : UInt64)
    {now' : UInt64} (hnow : t ≤ now') :
    ∃ reply srv' l', handleControl host srv msg now now' = some (reply, srv') ∧
      Registry srv' now' l' := by
  cases msg with
  | nil => exact ⟨[], srv, l, rfl, reg.mono hnow⟩
  | cons cmd rest =>
    rw [handleControl]
    split
    · have created := reg.create .control .control now hnow
      split
      · next srv₁ h₁ =>
        rw [h₁] at created
        exact ⟨_, _, created.choose, rfl, created.choose_spec⟩
      · next s srv₁ h₁ =>
        rw [h₁] at created
        exact ⟨_, _, created.choose, rfl, created.choose_spec⟩
    · split
      · split
        · exact ⟨[], srv, l, rfl, reg.mono hnow⟩
        · dsimp only
          split
          · exact ⟨[], srv, l, rfl, reg.mono hnow⟩
          · next s _ =>
            obtain ⟨srv₁, h₁, reg₁, -⟩ := reg.destroy s
            rw [h₁]
            exact ⟨[], srv₁, _, rfl, reg₁.mono hnow⟩
      · exact ⟨[], srv, l, rfl, reg.mono hnow⟩

/-- What counting a packet leaves and sets of a session. -/
lemma Session.count_spec (sess : Session) (src : SockAddr) (n : Nat) (now : UInt64) :
    (sess.count src n now).lruPrev = sess.lruPrev ∧ (sess.count src n now).lruNext = sess.lruNext ∧
      (sess.count src n now).active = sess.active ∧ (sess.count src n now).lastActivityMs =
        now := by
  rw [Session.count]
  split <;> exact ⟨rfl, rfl, rfl, rfl⟩

/-- A session that forwards a packet comes to the head of the list. -/
lemma Registry.forward (reg : Registry srv t l) (hs : s ∈ l) (src : SockAddr) (n : Nat)
    {now : UInt64} (hnow : t ≤ now) :
    Registry (lruTouch (srv.count s src n now) s) now (s :: l.erase s) := by
  obtain ⟨chains, hash⟩ := reg.hash
  have lru₁ : LruOk (srv.count s src n now) l := by
    refine Deque.congr reg.lru (fun p _ => congrArg some ?_) fun p _ => ?_
    · exact modify_frame Session.lruNext (fun sess => (sess.count_spec src n now).2.1) srv s p
    · exact modify_frame Session.lruPrev (fun sess => (sess.count_spec src n now).1) srv s p
  have hactive : ∀ p, ((srv.count s src n now).sessions p).active = (srv.sessions p).active :=
    modify_frame Session.active (fun sess => (sess.count_spec src n now).2.2.1) srv s
  have hself : (srv.count s src n now).last s = now := by
    rw [Server.last, Server.count, Server.modify]
    dsimp only
    rw [update_self]
    exact ((srv.sessions s).count_spec src n now).2.2.2
  have hother : ∀ p, p ≠ s → (srv.count s src n now).last p = srv.last p := fun p hp => by
    rw [Server.last, Server.count, Server.modify]
    dsimp only
    rw [update_of_ne hp]
    rfl
  have off := sessions_of_offLru (offLru_lruTouch (srv.count s src n now) s)
  obtain ⟨hcount, hpeak⟩ := counters_of_offLru (offLru_lruTouch (srv.count s src n now) s)
  have hnd := reg.lru.chain.nodup
  refine ⟨lru₁.touch hs, fun p => ?_, ?_,
    ⟨chains, (hash.count s src n now).of_offLru (offLru_lruTouch _ s)⟩, ?_, ?_⟩
  · rw [(off p).1, hactive, ← reg.mem_iff, List.mem_cons, hnd.mem_erase_iff]
    refine ⟨?_, fun hp => (em (p = s)).imp_right fun h => ⟨h, hp⟩⟩
    rintro (rfl | ⟨-, hp⟩)
    · exact hs
    · exact hp
  · refine ((reg.recency.sublist List.erase_sublist).congr fun p hp => ?_).front ?_ hnow
    · rw [(off p).2, hother p (hnd.mem_erase_iff.mp hp).1]
    · rw [(off s).2, hself]
  · rw [hcount, List.length_cons, List.length_erase_of_mem hs]
    exact reg.count.trans (Nat.succ_pred_eq_of_pos (List.length_pos_of_mem hs)).symm
  · rw [hcount, hpeak]
    exact reg.peak

/-- A packet of a peer. -/
lemma Registry.packet (reg : Registry srv t l) (host : Endian) (src : SockAddr) (buf : List UInt8)
    {now : UInt64} (hnow : t ≤ now) :
    ∃ sent srv' l', relayPacket host srv src buf now = some (sent, srv') ∧
      Registry srv' now l' := by
  obtain ⟨chains, hash⟩ := reg.hash
  rw [relayPacket]
  split
  · exact ⟨none, srv, l, rfl, reg.mono hnow⟩
  · have hfind : sessionFind srv src = _ :=
      findChain_eq (hash.chain (bucket src)) (hash.length_le _)
    rw [hfind]
    cases hs : (chains (bucket src)).find? fun s =>
        (srv.sessions s).active && (srv.sessions s).hasPeer src with
    | none => exact ⟨none, srv, l, rfl, reg.mono hnow⟩
    | some s =>
      have hmem := ((hash.mem_iff _ s).mp (List.mem_of_find?_eq_some hs)).1
      exact ⟨_, _, _, rfl, reg.forward ((reg.mem_iff s).mpr hmem) src _ hnow⟩

/-! ## Runs -/

/-- The readings of the clock during an operation, in order. -/
def ServerOp.readings : ServerOp → List UInt64
  | .create _ _ now now' => [now, now']
  | .destroy _ => []
  | .cleanup now => [now]
  | .control _ now now' => [now, now']
  | .packet _ _ now => [now]

/-- An operation keeps the registry, if the clock does not go back. -/
lemma Registry.step (reg : Registry srv t l) (host : Endian) (op : ServerOp)
    (hclock : (t :: op.readings).Pairwise (· ≤ ·)) :
    ∃ srv' l', op.apply host srv = some srv' ∧ Registry srv' (op.readings.getLastD t) l' := by
  have hle : ∀ r ∈ op.readings, t ≤ r := (List.pairwise_cons.mp hclock).1
  cases op with
  | create a b now now' =>
    have hnow : t ≤ now' := hle now' (by simp [ServerOp.readings])
    obtain ⟨l', reg'⟩ := reg.create a b now hnow
    exact ⟨_, l', rfl, reg'⟩
  | destroy s =>
    obtain ⟨srv', h', reg', -⟩ := reg.destroy s
    exact ⟨srv', _, h', reg'⟩
  | cleanup now =>
    have hnow : t ≤ now := hle now List.mem_cons_self
    obtain ⟨srv', l', h', reg'⟩ := reg.cleanup now
    exact ⟨srv', l', h', reg'.mono hnow⟩
  | control msg now now' =>
    have hnow : t ≤ now' := hle now' (by simp [ServerOp.readings])
    obtain ⟨reply, srv', l', h', reg'⟩ := reg.control host msg now hnow
    exact ⟨srv', l', by rw [ServerOp.apply, h', Option.map_some], reg'⟩
  | packet src buf now =>
    have hnow : t ≤ now := hle now List.mem_cons_self
    obtain ⟨sent, srv', l', h', reg'⟩ := reg.packet host src buf hnow
    exact ⟨srv', l', by rw [ServerOp.apply, h', Option.map_some], reg'⟩

/-- Operations keep the registry and come to an end, if the clock does not go back. -/
lemma Registry.run (reg : Registry srv t l) (host : Endian) {ops : List ServerOp}
    (hclock : (t :: ops.flatMap ServerOp.readings).Pairwise (· ≤ ·)) :
    ∃ srv' t' l', ops.foldlM (ServerOp.apply host) srv = some srv' ∧ Registry srv' t' l' := by
  induction ops generalizing srv t l with
  | nil => exact ⟨srv, t, l, rfl, reg⟩
  | cons op ops ih =>
    rw [List.flatMap_cons, ← List.cons_append] at hclock
    obtain ⟨hop, hops, hall⟩ := List.pairwise_append.mp hclock
    obtain ⟨srv₁, l₁, h₁, reg₁⟩ := reg.step host op hop
    rw [List.foldlM_cons, h₁]
    refine ih reg₁ (List.pairwise_cons.mpr ⟨fun r hr => hall _ ?_ r hr, hops⟩)
    rw [← List.getLast_eq_getLastD (List.cons_ne_nil t _)]
    exact List.getLast_mem _

end Registry

/-- Every run comes to an end, and the LRU list, the hash table and the counters agree after it. -/
theorem registry_agrees (host : Endian) (ops : List ServerOp)
    (hclock : (ops.flatMap ServerOp.readings).Pairwise (· ≤ ·)) :
    ∃ srv, serverRun host ops = some srv ∧ RegistryOk srv := by
  have hstart : (0 :: ops.flatMap ServerOp.readings).Pairwise (· ≤ ·) :=
    List.pairwise_cons.mpr ⟨fun _ _ => UInt64.zero_le, hclock⟩
  obtain ⟨srv, _, _, hrun, reg⟩ := serverInit_registry.run host hstart
  exact ⟨srv, hrun, reg.ok⟩

/-- Two sessions, a packet that is too short, a cleanup after their time, and one
destroyed again. -/
theorem registry_agrees_sample :
    ∃ srv, serverRun .little [.create .zero .control 1 1, .create .control .zero 2 3,
      .packet PeerAddr.zero.addr [82, 67, 79, 78] 5, .cleanup 400000, .destroy 1] = some srv ∧
      RegistryOk srv :=
  registry_agrees .little _ (by decide)

end RoboControl.RelayServer
