import RoboControl.Base.Slots
import RoboControl.Signaling.Clients

/-!
# Clients in use and free clients

Every client of the pool of `src/signaling/signaling_server.c` is on the free list or mapped from
its descriptor, and `active_clients` counts the descriptors that are mapped
(`signaling_pool_partition`). Only `client_alloc` and `client_free` touch the pool: all else that a
message does is between two servers with the same pool (`SamePool`), whatever became of the rooms.
-/

namespace RoboControl.Signaling
open Base Proto Connection Function

/-! ## Shutting down -/

/-- A round of the loop with which `main` frees the clients at the end. -/
def cleanupStep (srv : Server) (fd : Nat) : Option Server :=
  match srv.fdMap fd with
  | none => some srv
  | some c => clientFree srv c

/-- The first rounds of that loop; there are `MAX_CONNECTIONS` of them. -/
def cleanup (srv : Server) (rounds : Nat) : Option Server :=
  (List.range rounds).foldlM cleanupStep srv

/-! ## The pool -/

/-- The number of descriptors that are mapped. -/
def Server.mapped (srv : Server) : Nat :=
  (List.range maxConnections).countP fun fd : Nat => (srv.fdMap fd).isSome

/-- Every client is once on the free list, which ends, or mapped from one descriptor, which is its
own. The descriptors that are mapped are counted. -/
structure PoolPartition (srv : Server) (free : List Ptr) : Prop where
  freeList : Chain srv.freeLink srv.freeClients free
  once : free.Nodup
  place : ∀ c < maxConnections,
    (c ∈ free ∧ ∀ fd, srv.fdMap fd ≠ some c) ∨
      (c ∉ free ∧ (∃! fd, srv.fdMap fd = some c) ∧ srv.fdMap (srv.clientPool c).fd = some c)
  ranged : ∀ fd c, srv.fdMap fd = some c → 0 ≤ fd ∧ fd < maxConnections ∧ c < maxConnections
  active : srv.activeClients.toNat = srv.mapped

/-- A descriptor that is accepted is not mapped. -/
def Event.Fresh (m : Main) : Event → Prop
  | .accept _ fd => 0 ≤ fd ∧ m.srv.fdMap fd = none
  | .received _ _ _ => True
  | .hangup _ => True

instance (m : Main) (e : Event) : Decidable (e.Fresh m) :=
  match e with
  | .accept _ fd => inferInstanceAs (Decidable (0 ≤ fd ∧ m.srv.fdMap fd = none))
  | .received _ _ _ => inferInstanceAs (Decidable True)
  | .hangup _ => inferInstanceAs (Decidable True)

/-! ## What leaves the pool alone -/

/-- What the pool consists of is the same. -/
structure SamePool (srv srv' : Server) : Prop where
  free : srv'.freeClients = srv.freeClients
  map : srv'.fdMap = srv.fdMap
  active : srv'.activeClients = srv.activeClients
  next : ∀ c, (srv'.clientPool c).hashNext = (srv.clientPool c).hashNext
  fd : ∀ c, (srv'.clientPool c).fd = (srv.clientPool c).fd

section SamePool
variable {srv srv' : Server} {c : Ptr} {r : RoomPtr} {env : Env} {host : Endian} {name : List UInt8}

/-- Nothing happened. -/
lemma SamePool.refl (srv : Server) : SamePool srv srv := ⟨rfl, rfl, rfl, fun _ => rfl, fun _ => rfl⟩

/-- One after the other. -/
lemma SamePool.trans {srv₁ srv₂ : Server} (h : SamePool srv srv₁) (h' : SamePool srv₁ srv₂) :
    SamePool srv srv₂ :=
  ⟨h'.free.trans h.free, h'.map.trans h.map, h'.active.trans h.active,
    fun c => (h'.next c).trans (h.next c), fun c => (h'.fd c).trans (h.fd c)⟩

lemma SamePool.of_some (h : some srv = some srv') : SamePool srv srv' := by
  cases h
  exact .refl srv

/-- The outputs are not part of the pool. -/
lemma SamePool.setOut (srv : Server) (out : List Output) : SamePool srv { srv with out } :=
  ⟨rfl, rfl, rfl, fun _ => rfl, fun _ => rfl⟩

/-- A change of a client that keeps its link and descriptor. -/
lemma SamePool.modify {f : Client → Client}
    (hnext : (f (srv.clientPool c)).hashNext = (srv.clientPool c).hashNext)
    (hfd : (f (srv.clientPool c)).fd = (srv.clientPool c).fd) : SamePool srv (srv.modify c f) :=
  ⟨rfl, rfl, rfl, client_frame Client.hashNext hnext, client_frame Client.fd hfd⟩

/-- The lists of rooms are not part of the pool. -/
lemma SamePool.of_offLists (h : srv'.offLists = srv.offLists) : SamePool srv srv' where
  free := (congrArg Server.freeClients h :)
  map := (congrArg Server.fdMap h :)
  active := (congrArg Server.activeClients h :)
  next := (SameClients.of_offLists h).next
  fd := (SameClients.of_offLists h).fd

/-- Leaving a list keeps the pool. -/
lemma leaveList_samePool (h : leaveList srv c = some srv') : SamePool srv srv' := by
  obtain ⟨found, -, h⟩ := Option.bind_eq_some_iff.mp h
  cases found with
  | none => exact .of_some h
  | some r =>
    obtain rfl | ⟨pp, -, -, rfl⟩ := removeFrom_cases h
    · exact .refl _
    · exact .of_offLists (offLists_removeAt srv c r pp)

/-- Leaving a room with a name keeps the pool. -/
lemma leaveNamed_samePool (h : leaveNamed srv c = some srv') : SamePool srv srv' := by
  rw [leaveNamed] at h
  split at h
  · exact leaveList_samePool h
  · exact .of_some h

lemma redisRegisterConnection_samePool (srv : Server) (clientId : UInt32) (name : List UInt8) :
    SamePool srv (redisRegisterConnection srv clientId name) := by
  rw [redisRegisterConnection]
  split
  · exact .refl srv
  · exact .setOut srv _

lemma redisUnregisterConnection_samePool (srv : Server) (clientId : UInt32) :
    SamePool srv (redisUnregisterConnection srv clientId) := by
  rw [redisUnregisterConnection]
  split
  · exact .refl srv
  · exact .setOut srv _

/-- Linking a client into a room keeps the pool. -/
lemma linkClient_samePool (srv : Server) (c : Ptr) (r : RoomPtr) (name : List UInt8) :
    SamePool srv (linkClient srv c r name) := by
  have hclient : SamePool srv
      (srv.modify c ({ · with roomId := name, roomNext := (srv.roomHeap r).clients })) :=
        .modify rfl rfl
  exact ⟨rfl, rfl, rfl, hclient.next, hclient.fd⟩

/-- `room_join` keeps the pool. -/
lemma roomJoin_samePool (h : roomJoin env srv c name = some srv') : SamePool srv srv' := by
  obtain ⟨srv₁, hleave, h⟩ := Option.bind_eq_some_iff.mp h
  obtain ⟨found, -, h⟩ := Option.bind_eq_some_iff.mp h
  refine (leaveNamed_samePool hleave).trans ?_
  cases found with
  | some r =>
    cases h
    exact (linkClient_samePool srv₁ c r name).trans (redisRegisterConnection_samePool _ _ _)
  | none =>
    rw [roomCreate] at h
    by_cases halloc : env.alloc = false
    · rw [if_pos halloc] at h
      cases h
      exact .refl _
    · rw [if_neg halloc] at h
      cases h
      have hroom : SamePool srv₁
          (insertRoom srv₁ { Room.zero with roomId := name, createdAt := env.created }) :=
        ⟨rfl, rfl, rfl, fun _ => rfl, fun _ => rfl⟩
      exact hroom.trans ((linkClient_samePool _ c _ name).trans
        (redisRegisterConnection_samePool _ _ _))

/-- `room_broadcast` keeps the pool. -/
lemma roomBroadcast_samePool {fd : Int} {bytes : List UInt8}
    (h : roomBroadcast srv name fd bytes = some srv') : SamePool srv srv' := by
  obtain ⟨found, -, h⟩ := Option.bind_eq_some_iff.mp h
  cases found with
  | none => exact .of_some h
  | some r =>
    obtain ⟨visited, -, h⟩ := Option.bind_eq_some_iff.mp h
    cases h
    exact .setOut srv _

/-- `MSG_LEAVE_ROOM` keeps the pool. -/
lemma handleLeave_samePool (h : handleLeave srv c = some srv') : SamePool srv srv' := by
  obtain ⟨srv₁, hleave, h⟩ := Option.bind_eq_some_iff.mp h
  cases h
  exact (leaveList_samePool hleave).trans
    ((redisUnregisterConnection_samePool srv₁ _).trans (.modify rfl rfl))

/-- A message leaves the pool alone, or frees its client. -/
def Handled (srv : Server) (c : Ptr) (srv' : Server) : Prop :=
  SamePool srv srv' ∨ ∃ srv₁, SamePool srv srv₁ ∧ clientFree srv₁ c = some srv'

/-- `MSG_AUTH` keeps the pool or frees the client. -/
lemma handleAuth_handled {token : List UInt8} (h : handleAuth host env srv c token = some srv') :
    Handled srv c srv' := by
  rw [handleAuth] at h
  split at h
  · cases h
    refine .inl (SamePool.trans ?_ (.setOut _ _))
    exact .modify rfl rfl
  · exact .inr ⟨_, .setOut srv _, h⟩

/-- A message with a header keeps the pool or frees its client. -/
lemma dispatch_handled {hdr : SigHdr} {data : Nat → UInt8} {len : Nat}
    (h : dispatch host env srv c hdr data len = some srv') : Handled srv c srv' := by
  rw [dispatch] at h
  cases htype : MsgType.ofCode hdr.msgType with
  | none =>
    rw [htype] at h
    exact .inl (.of_some h)
  | some type =>
    rw [htype] at h
    cases type with
    | auth => exact handleAuth_handled h
    | joinRoom =>
      dsimp only at h
      split at h
      · exact .inl (.of_some h)
      · exact .inl (roomJoin_samePool h)
    | leaveRoom =>
      dsimp only at h
      split at h
      · exact .inl (.of_some h)
      · exact .inl (handleLeave_samePool h)
    | offer | answer | iceCandidate =>
      dsimp only at h
      split at h
      · exact .inl (.of_some h)
      · exact .inl (roomBroadcast_samePool h)
    | ping =>
      cases h
      exact .inl (.setOut srv _)
    | roomList | pong | error => exact .inl (.of_some h)

/-- `handle_message` keeps the pool or frees the client. -/
lemma handleMessage_handled {data : Nat → UInt8} {len : Nat}
    (h : handleMessage host env srv c data len = some srv') : Handled srv c srv' := by
  rw [handleMessage] at h
  split at h
  · exact .inl (.of_some h)
  dsimp only at h
  split at h
  · exact .inl (.of_some h)
  · have hseen : SamePool srv (srv.modify c ({ · with lastActivity := env.now })) := .modify rfl rfl
    obtain hsame | ⟨srv₁, hsame, hfree⟩ := dispatch_handled h
    · exact .inl (hseen.trans hsame)
    · exact .inr ⟨srv₁, hseen.trans hsame, hfree⟩

end SamePool

/-! ## The invariant -/

/-- The pool is in order, and the descriptors in use are counted. -/
structure Counted (srv : Server) (free : List Ptr) : Prop extends PoolOk srv free where
  active : srv.activeClients.toNat = srv.mapped

section Counted
variable {srv srv' : Server} {free : List Ptr} {c : Ptr} {host : Endian} {m m' : Main}

/-- There are no more mapped descriptors than clients. -/
lemma mapped_le (srv : Server) : srv.mapped ≤ maxConnections := by
  have hle := List.countP_le_length (p := fun fd : Nat => (srv.fdMap fd).isSome)
    (l := List.range maxConnections)
  rwa [List.length_range] at hle

/-- Which descriptors are mapped after a change of one. -/
lemma isSome_update (map : Int → Option Ptr) (n : Nat) (v : Option Ptr) :
    (fun i : Nat => (update map n v i).isSome) =
      update (fun i : Nat => (map i).isSome) n v.isSome := by
  funext i
  by_cases hi : i = n
  · rw [hi, update_self, update_self]
  · rw [update_of_ne hi, update_of_ne fun e => hi (Int.ofNat_inj.mp e)]

/-- One descriptor less is mapped. -/
lemma mapped_remove {fd : Int} (hfd : 0 ≤ fd ∧ fd < maxConnections) (hc : srv.fdMap fd = some c)
    (hmap : srv'.fdMap = update srv.fdMap fd none) : srv'.mapped + 1 = srv.mapped := by
  obtain ⟨n, rfl⟩ := Int.eq_ofNat_of_zero_le hfd.1
  rw [Server.mapped, hmap, isSome_update]
  exact countP_update_false List.nodup_range (List.mem_range.mpr (Int.ofNat_lt.mp hfd.2))
    (congrArg Option.isSome hc)

/-- One descriptor more is mapped. -/
lemma mapped_insert {fd : Int} (hfd : 0 ≤ fd ∧ fd < maxConnections) (hopen : srv.fdMap fd = none)
    (hmap : srv'.fdMap = update srv.fdMap fd (some c)) : srv'.mapped = srv.mapped + 1 := by
  obtain ⟨n, rfl⟩ := Int.eq_ofNat_of_zero_le hfd.1
  rw [Server.mapped, hmap, isSome_update]
  exact countP_update_true List.nodup_range (List.mem_range.mpr (Int.ofNat_lt.mp hfd.2))
    (congrArg Option.isSome hopen)

/-- A step that keeps the pool. -/
lemma Counted.congr (inv : Counted srv free) (h : SamePool srv srv') : Counted srv' free := by
  refine ⟨inv.toPoolOk.congr h.free h.map h.next h.fd, ?_⟩
  rw [h.active, Server.mapped, h.map]
  exact inv.active

/-- The counter goes up without wrapping around. -/
lemma toNat_active {active : UInt32} {n : Nat} (h : active.toNat + 1 = n)
    (hn : n ≤ maxConnections) :
    (active + 1).toNat = n := by
  rw [maxConnections] at hn
  rw [UInt32.toNat_add, show (1 : UInt32).toNat = 1 from rfl, h]
  omega

/-- The counter goes down. -/
lemma toNat_inactive {active : UInt32} {n : Nat} (h : active.toNat = n + 1) :
    (active - 1).toNat = n := by
  have hle : (1 : UInt32) ≤ active := UInt32.le_iff_toNat_le.mpr (h ▸ Nat.le_add_left 1 n)
  rw [UInt32.toNat_sub_of_le _ _ hle, h]
  rfl

/-- A client is freed. -/
lemma Counted.drop (inv : Counted srv free) (hlive : c < maxConnections ∧ c ∉ free) :
    Counted (clientDrop srv c) (c :: free) := by
  have hmapped := inv.fdMap_eq hlive
  have hfd := inv.range _ c hmapped
  have hframe : ∀ d, ((srv.modify c ({ · with hashNext := srv.freeClients })).clientPool d).fd =
      (srv.clientPool d).fd := client_frame Client.fd rfl
  have hcount : (clientDrop srv c).mapped + 1 = srv.mapped :=
    mapped_remove hfd hmapped (by rw [clientDrop_eq hfd])
  refine ⟨?_, ?_⟩
  · rw [clientDrop_eq hfd]
    exact inv.push hlive rfl rfl (freeLink_modify srv c ({ · with hashNext := srv.freeClients }))
      hframe
  · have hactive : (clientDrop srv c).activeClients = srv.activeClients - 1 := by
      rw [clientDrop_eq hfd]
    rw [hactive]
    exact toNat_inactive (inv.active.trans hcount.symm)

/-- A client in use is freed. -/
lemma Counted.frees (inv : Counted srv free) (hlive : c < maxConnections ∧ c ∉ free)
    (h : clientFree srv c = some srv') : Counted srv' (c :: free) := by
  rw [clientFree] at h
  split at h
  · obtain ⟨srv₁, hleave, h⟩ := Option.bind_eq_some_iff.mp h
    cases h
    have inv₁ := inv.congr (leaveList_samePool hleave)
    exact (inv₁.congr (redisUnregisterConnection_samePool srv₁ _)).drop hlive
  · cases h
    exact inv.drop hlive

/-- A message is handled. -/
lemma Counted.handled (inv : Counted srv free) (hlive : c < maxConnections ∧ c ∉ free)
    (h : Handled srv c srv') : ∃ free', Counted srv' free' := by
  obtain hsame | ⟨srv₁, hsame, hfree⟩ := h
  · exact ⟨free, inv.congr hsame⟩
  · exact ⟨c :: free, (inv.congr hsame).frees hlive hfree⟩

/-- A connection is accepted. -/
lemma Counted.accept (inv : Counted srv free) {fd : Int} (hfd : 0 ≤ fd)
    (hopen : srv.fdMap fd = none) (now : UInt64) : ∃ free',
      Counted (acceptClient srv now fd) free' := by
  rw [acceptClient]
  split
  · exact ⟨free, inv.congr (.setOut srv _)⟩
  · next hlt =>
    rw [clientAlloc]
    cases hhead : srv.freeClients with
    | none => exact ⟨free, inv.congr (.setOut srv _)⟩
    | some c =>
      obtain ⟨rest, rfl⟩ : ∃ rest, free = c :: rest :=
        List.head?_eq_some_iff.mp (inv.chain.head_eq.symm.trans hhead)
      have hlt' : fd < maxConnections := lt_of_not_ge hlt
      simp only [if_pos hlt']
      refine ⟨rest, inv.pop ⟨hfd, hlt'⟩ hopen rfl rfl ?_ fun d hd => update_of_ne hd _ _, ?_⟩
      · exact congrArg Client.fd (update_self c _ srv.clientPool)
      · refine toNat_active ?_ (mapped_le _)
        rw [mapped_insert ⟨hfd, hlt'⟩ hopen rfl, ← inv.active]
        rfl

/-- Every event keeps the pool in order. -/
lemma Counted.step (inv : Counted m.srv free) {e : Event} (hfresh : e.Fresh m)
    (h : m.step host e = some m') : ∃ free', Counted m'.srv free' := by
  obtain ⟨now, fd, rfl, rfl⟩ | rfl | ⟨env, fd, bytes, c, srv', -, hc, hmsg, rfl⟩ | ⟨fd, c, srv', -,
    hc, hfree, rfl⟩ :=
    Main.step_cases h
  · exact inv.accept hfresh.1 hfresh.2 now
  · exact ⟨free, inv⟩
  · exact inv.handled (inv.live_of_clientOf hc) (handleMessage_handled hmsg)
  · exact ⟨c :: free, inv.frees (inv.live_of_clientOf hc) hfree⟩

/-- One descriptor is closed at the end. -/
lemma Counted.cleanupStep (inv : Counted srv free) {fd : Nat} (h : cleanupStep srv fd = some srv') :
    ∃ free', Counted srv' free' := by
  rw [Signaling.cleanupStep] at h
  cases hc : srv.fdMap fd with
  | none =>
    rw [hc] at h
    cases h
    exact ⟨free, inv⟩
  | some c =>
    rw [hc] at h
    obtain ⟨hlt, hnot, -⟩ := (inv.mapped fd c).mp hc
    exact ⟨c :: free, inv.frees ⟨hlt, hnot⟩ h⟩

/-- Counted clients are a partition of the pool. -/
lemma Counted.partition (inv : Counted srv free) : PoolPartition srv free := by
  refine ⟨inv.chain, inv.chain.nodup, fun c hc => ?_, fun fd c h => ?_, inv.active⟩
  · by_cases hmem : c ∈ free
    · exact .inl ⟨hmem, fun fd h => ((inv.mapped fd c).mp h).2.1 hmem⟩
    · refine .inr ⟨hmem, ⟨_, inv.fdMap_eq ⟨hc, hmem⟩, fun fd h => ?_⟩, inv.fdMap_eq ⟨hc, hmem⟩⟩
      exact ((inv.mapped fd c).mp h).2.2.symm
  · obtain ⟨hge, hlt⟩ := inv.range fd c h
    exact ⟨hge, hlt, ((inv.mapped fd c).mp h).1⟩

/-- At first all clients are free. -/
lemma serverInit_counted (redis : Bool) :
    Counted (serverInit redis) (List.range maxConnections) := by
  have hzero : (serverInit redis).mapped = 0 := by
    rw [Server.mapped, List.countP_eq_zero]
    exact fun fd _ => Bool.false_ne_true
  refine ⟨(serverInit_settled redis).pool, ?_⟩
  rw [hzero]
  rfl

end Counted

/-- In every state that events lead to, each of them accepting only descriptors that are not mapped,
the clients of the pool are free or mapped. The same holds after any number of rounds of the loop
that frees the clients at the end. -/
theorem signaling_pool_partition {host : Endian} {redis : Bool} {buf : Nat → UInt8}
    {events : List Event} {m : Main}
    (fresh : Along (Main.step host) (fun m e => e.Fresh m) ⟨serverInit redis, buf⟩ events)
    (hrun : mainRun host redis buf events = some m) :
    (∃ free, PoolPartition m.srv free) ∧
      ∀ rounds srv, cleanup m.srv rounds = some srv → ∃ free, PoolPartition srv free := by
  have init : ∃ free, Counted (⟨serverInit redis, buf⟩ : Main).srv free :=
    ⟨_, serverInit_counted redis⟩
  obtain ⟨free, inv⟩ : ∃ free, Counted m.srv free :=
    fresh.invariant (P := fun m => ∃ free, Counted m.srv free)
      (fun ⟨_, inv⟩ hfresh h => inv.step hfresh h) init hrun
  refine ⟨⟨free, inv.partition⟩, fun rounds srv h => ?_⟩
  obtain ⟨free', inv'⟩ : ∃ free, Counted srv free :=
    run_invariant (P := fun srv => ∃ free, Counted srv free)
      (fun ⟨_, inv⟩ h => inv.cleanupStep h) ⟨free, inv⟩ h
  exact ⟨free', inv'.partition⟩

/-- A token that Redis does not know frees its client, whose record the next connection gets. -/
def poolSample : List Event :=
  [.accept 0 5, .accept 0 6, .received ⟨0, 0, fun _ => false, true⟩ 5 (message .little .auth [84]),
    .accept 0 7, .hangup 6, .accept 0 5]

/-- Clients come and go, and the server ends. -/
theorem signaling_pool_partition_sample :
    Along (Main.step .little) (fun m e => e.Fresh m) ⟨serverInit true, fun _ => 0⟩ poolSample ∧
      ∃ m, mainRun .little true (fun _ => 0) poolSample = some m ∧
        m.srv.fdMap 5 = some 1 ∧ m.srv.fdMap 6 = none ∧ m.srv.fdMap 7 = some 0 ∧
        (∃ free, PoolPartition m.srv free) ∧
        ∃ srv, cleanup m.srv 8 = some srv ∧ srv.activeClients = 0 ∧ ∃ free,
          PoolPartition srv free := by
  have fresh : Along (Main.step .little) (fun m e => e.Fresh m) ⟨serverInit true, fun _ => 0⟩
    poolSample := by
    decide +kernel
  have hmap : (mainRun .little true (fun _ => 0) poolSample).map
      (fun m => (m.srv.fdMap 5, m.srv.fdMap 6, m.srv.fdMap 7,
        (cleanup m.srv 8).map Server.activeClients)) = some (some 1, none, some 0, some 0) := by
    decide +kernel
  obtain ⟨m, hrun, hm⟩ := Option.map_eq_some_iff.mp hmap
  simp only [Prod.mk.injEq] at hm
  obtain ⟨h5, h6, h7, hclean⟩ := hm
  obtain ⟨srv, hsrv, hactive⟩ := Option.map_eq_some_iff.mp hclean
  obtain ⟨hpart, hcleanup⟩ := signaling_pool_partition fresh hrun
  exact ⟨fresh, m, hrun, h5, h6, h7, hpart, srv, hsrv, hactive, hcleanup 8 srv hsrv⟩

end RoboControl.Signaling
