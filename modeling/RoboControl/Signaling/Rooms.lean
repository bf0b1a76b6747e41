import RoboControl.Base.Chain
import RoboControl.Signaling.Server

/-!
# Rooms of the signaling server

The server records membership twice: as the name in a client's record and as a list of clients in a
room's record. Both implement one partial map from clients to names, `home`. `Ok srv free home` says
that the client pool is free or mapped, that the room table finds every room by its name, and that
the list of a room with a name holds exactly the clients that `home` puts there; in a settled state
(`Settled`) the records of the clients agree with `home`.

The room with the empty name is left out: no function takes a client for a member of it, so its list
is whatever the joins to it made of it.
-/

namespace RoboControl.Signaling
open Base Proto Connection Function

/-! ## Links -/

/-- The link of a client in the list of a room. -/
def Server.link (srv : Server) (c : Ptr) : Option (Option Ptr) := some (srv.clientPool c).roomNext

/-- The first client of a room with a name. -/
def Server.head (srv : Server) (r : RoomPtr) : Option Ptr :=
  if (srv.roomHeap r).roomId = [] then none else (srv.roomHeap r).clients

/-- The link of a client in the free list. -/
def Server.freeLink (srv : Server) (c : Ptr) : Option (Option Ptr) :=
  some (srv.clientPool c).hashNext

/-- The link of a room in its bucket. -/
def Server.roomLink (srv : Server) (r : RoomPtr) : Option (Option RoomPtr) :=
  some (srv.roomHeap r).next

variable {srv : Server} {c : Ptr}

/-- A change of one client leaves what it keeps of that client. -/
lemma client_frame {β : Type} (g : Client → β) {f : Client → Client}
    (h : g (f (srv.clientPool c)) = g (srv.clientPool c)) (p : Ptr) :
    g ((srv.modify c f).clientPool p) = g (srv.clientPool p) := by
  show g (update srv.clientPool c (f (srv.clientPool c)) p) = g (srv.clientPool p)
  by_cases hp : p = c
  · subst hp
    rw [update_self, h]
  · rw [update_of_ne hp]

variable {r : RoomPtr} {f : Room → Room}

/-- A change of one room leaves what it keeps of that room. -/
lemma room_frame {β : Type} (g : Room → β)
    (h : g (f (srv.roomHeap r)) = g (srv.roomHeap r)) (r' : RoomPtr) :
    g ((srv.modifyRoom r f).roomHeap r') = g (srv.roomHeap r') := by
  show g (update srv.roomHeap r (f (srv.roomHeap r)) r') = g (srv.roomHeap r')
  by_cases hr : r' = r
  · subst hr
    rw [update_self, h]
  · rw [update_of_ne hr]

/-- The client that changes. -/
@[simp] lemma clientPool_modify_self (srv : Server) (c : Ptr) (f : Client → Client) :
    (srv.modify c f).clientPool c = f (srv.clientPool c) := update_self _ _ _

/-- The other clients. -/
lemma clientPool_modify_of_ne {p : Ptr} {f : Client → Client} (h : p ≠ c) :
    (srv.modify c f).clientPool p = srv.clientPool p := update_of_ne h _ _

/-- The room that changes. -/
@[simp] lemma roomHeap_modifyRoom_self (srv : Server) (r : RoomPtr) (f : Room → Room) :
    (srv.modifyRoom r f).roomHeap r = f (srv.roomHeap r) := update_self _ _ _

/-- The other rooms. -/
lemma roomHeap_modifyRoom_of_ne {r' : RoomPtr} (h : r' ≠ r) :
    (srv.modifyRoom r f).roomHeap r' = srv.roomHeap r' := update_of_ne h _ _

/-- The links after a change of a client. -/
lemma link_modify (srv : Server) (c : Ptr) (f : Client → Client) :
    (srv.modify c f).link = update srv.link c (some (f (srv.clientPool c)).roomNext) := by
  funext p
  by_cases hp : p = c
  · subst hp
    rw [update_self, Server.link, clientPool_modify_self]
  · rw [update_of_ne hp, Server.link, clientPool_modify_of_ne hp]
    rfl

/-- The list of a room with a name. -/
lemma head_eq (hr : (srv.roomHeap r).roomId ≠ []) :
    srv.head r = (srv.roomHeap r).clients := if_neg hr

/-- The lists after a change of a room. -/
lemma head_modifyRoom
    (hr : (srv.roomHeap r).roomId ≠ [])
    (hf : (f (srv.roomHeap r)).roomId = (srv.roomHeap r).roomId) :
    (srv.modifyRoom r f).head = update srv.head r (f (srv.roomHeap r)).clients := by
  funext r'
  by_cases h : r' = r
  · subst h
    rw [update_self, Server.head, roomHeap_modifyRoom_self, hf, if_neg hr]
  · rw [update_of_ne h, Server.head, roomHeap_modifyRoom_of_ne h]
    rfl

/-- The room without a name may change. -/
lemma head_modifyRoom_unnamed
    (hr : (srv.roomHeap r).roomId = []) (hf : (f (srv.roomHeap r)).roomId = []) :
    (srv.modifyRoom r f).head = srv.head := by
  funext r'
  by_cases h : r' = r
  · subst h
    rw [Server.head, Server.head, roomHeap_modifyRoom_self, if_pos hf, if_pos hr]
  · rw [Server.head, roomHeap_modifyRoom_of_ne h]
    rfl

/-! ## Invariant -/

/-- Each client of the pool is once on the free list, or mapped from its descriptor. -/
structure PoolOk (srv : Server) (free : List Ptr) : Prop where
  chain : Chain srv.freeLink srv.freeClients free
  bound : ∀ c ∈ free, c < maxConnections
  mapped : ∀ fd c, srv.fdMap fd = some c ↔
    c < maxConnections ∧ c ∉ free ∧ (srv.clientPool c).fd = fd
  range : ∀ fd c, srv.fdMap fd = some c → 0 ≤ fd ∧ fd < maxConnections

/-- The table has exactly the rooms that were created, each in the bucket of its name. -/
structure TableOk (srv : Server) (buckets : Nat → List RoomPtr) : Prop
    extends Chains srv.roomLink srv.rooms buckets where
  mem : ∀ b r, r ∈ buckets b ↔ r < srv.roomCount ∧ roomBucket (srv.roomHeap r).roomId = b
  unique : ∀ r r', r < srv.roomCount → r' < srv.roomCount →
    (srv.roomHeap r).roomId = (srv.roomHeap r').roomId → r = r'
  fresh : ∀ r, srv.roomCount ≤ r → (srv.roomHeap r).roomId = []

/-- The list of a room with a name holds the clients whose home it is. -/
structure ListsOk (srv : Server) (home : Ptr → List UInt8) (members : RoomPtr → List Ptr) : Prop
    extends Chains srv.link srv.head members where
  mem : ∀ r c, c ∈ members r ↔
    (srv.roomHeap r).roomId ≠ [] ∧ home c = (srv.roomHeap r).roomId
  count : ∀ r, (srv.roomHeap r).roomId ≠ [] →
    (srv.roomHeap r).clientCount = UInt32.ofNat (members r).length

/-- A client without a home is on no list. -/
lemma ListsOk.not_mem {home : Ptr → List UInt8} {members : RoomPtr → List Ptr}
    (lists : ListsOk srv home members) (hc : home c = []) (r : RoomPtr) : c ∉ members r :=
  fun hmem => by
  obtain ⟨hne, e⟩ := (lists.mem r c).mp hmem
  exact hne (e.symm.trans hc)

/-- A client with a home is in use and authenticated, and its home is a room. -/
structure HomeOk (srv : Server) (free : List Ptr) (home : Ptr → List UInt8) : Prop where
  live : ∀ c, home c ≠ [] → c < maxConnections ∧ c ∉ free
  authenticated : ∀ c, home c ≠ [] → (srv.clientPool c).authenticated = true
  room : ∀ c, home c ≠ [] → ∃ r < srv.roomCount, (srv.roomHeap r).roomId = home c

/-- The server implements a free list and a map from clients to the names of their rooms. -/
structure Ok (srv : Server) (free : List Ptr) (home : Ptr → List UInt8) : Prop where
  pool : PoolOk srv free
  table : ∃ buckets, TableOk srv buckets
  lists : ∃ members, ListsOk srv home members
  homes : HomeOk srv free home

/-- The records of the clients in use name their homes. -/
structure Settled (srv : Server) (free : List Ptr) (home : Ptr → List UInt8) : Prop
    extends Ok srv free home where
  agree : ∀ c, c < maxConnections → c ∉ free → (srv.clientPool c).roomId = home c

/-- Rooms without a name have not changed. -/
def SameUnnamed (srv srv' : Server) : Prop :=
  ∀ r, (srv'.roomHeap r).roomId = [] → srv'.roomHeap r = srv.roomHeap r

/-! ## Frames -/

section Frames
variable {srv srv' : Server} {free : List Ptr} {home : Ptr → List UInt8}

/-- The fields of the pool decide. -/
lemma PoolOk.congr (h : PoolOk srv free) (hfree : srv'.freeClients = srv.freeClients)
    (hmap : srv'.fdMap = srv.fdMap)
    (hnext : ∀ c, (srv'.clientPool c).hashNext = (srv.clientPool c).hashNext)
    (hfd : ∀ c, (srv'.clientPool c).fd = (srv.clientPool c).fd) : PoolOk srv' free := by
  refine ⟨?_, h.bound, fun fd c => ?_, fun fd c => ?_⟩
  · rw [hfree]
    exact h.chain.congr fun c _ => congrArg some (hnext c)
  · rw [hmap, hfd]
    exact h.mapped fd c
  · rw [hmap]
    exact h.range fd c

/-- The fields of the table decide. -/
lemma TableOk.congr {buckets : Nat → List RoomPtr} (h : TableOk srv buckets)
    (hrooms : srv'.rooms = srv.rooms) (hcount : srv'.roomCount = srv.roomCount)
    (hnext : ∀ r, (srv'.roomHeap r).next = (srv.roomHeap r).next)
    (hname : ∀ r, (srv'.roomHeap r).roomId = (srv.roomHeap r).roomId) : TableOk srv' buckets := by
  refine ⟨?_, fun b r => ?_, fun r r' => ?_, fun r => ?_⟩
  · rw [hrooms]
    exact h.toChains.congr fun _ r _ => congrArg some (hnext r)
  · rw [hcount, hname]
    exact h.mem b r
  · rw [hcount, hname, hname]
    exact h.unique r r'
  · rw [hcount, hname]
    exact h.fresh r

/-- The names and the flags decide. -/
lemma HomeOk.congr (h : HomeOk srv free home) (hcount : srv'.roomCount = srv.roomCount)
    (hauth : ∀ c, (srv.clientPool c).authenticated = true →
      (srv'.clientPool c).authenticated = true)
    (hname : ∀ r, (srv'.roomHeap r).roomId = (srv.roomHeap r).roomId) : HomeOk srv' free home := by
  refine ⟨h.live, fun c hc => hauth c (h.authenticated c hc), fun c hc => ?_⟩
  obtain ⟨r, hr, e⟩ := h.room c hc
  exact ⟨r, hcount ▸ hr, (hname r).trans e⟩

/-- The lists depend on the links of their clients only. -/
lemma ListsOk.congr {members : RoomPtr → List Ptr} (h : ListsOk srv home members)
    (hheap : srv'.roomHeap = srv.roomHeap)
    (hlink : ∀ r, ∀ c ∈ members r, (srv'.clientPool c).roomNext = (srv.clientPool c).roomNext) :
    ListsOk srv' home members := by
  have hhead : srv'.head = srv.head := funext fun r => by rw [Server.head, Server.head, hheap]
  refine ⟨?_, fun r c => ?_, fun r => ?_⟩
  · rw [hhead]
    exact h.toChains.congr fun r c hc => congrArg some (hlink r c hc)
  · rw [hheap]
    exact h.mem r c
  · rw [hheap]
    exact h.count r

/-- What the invariant reads of a client, its link in a room's list apart. -/
structure SameClients (srv srv' : Server) : Prop where
  next : ∀ c, (srv'.clientPool c).hashNext = (srv.clientPool c).hashNext
  fd : ∀ c, (srv'.clientPool c).fd = (srv.clientPool c).fd
  auth : ∀ c, (srv.clientPool c).authenticated = true → (srv'.clientPool c).authenticated = true

/-- A change of other data of the clients and of the log keeps the invariant. -/
lemma Ok.congr (ok : Ok srv free home) (same : SameClients srv srv')
    (hlink : ∀ c, (srv'.clientPool c).roomNext = (srv.clientPool c).roomNext)
    (hfree : srv'.freeClients = srv.freeClients) (hmap : srv'.fdMap = srv.fdMap)
    (hrooms : srv'.rooms = srv.rooms) (hcount : srv'.roomCount = srv.roomCount)
    (hheap : srv'.roomHeap = srv.roomHeap) : Ok srv' free home := by
  have hname : ∀ r, (srv'.roomHeap r).roomId = (srv.roomHeap r).roomId := fun r => by rw [hheap]
  obtain ⟨buckets, table⟩ := ok.table
  obtain ⟨members, lists⟩ := ok.lists
  exact ⟨ok.pool.congr hfree hmap same.next same.fd,
    ⟨buckets, table.congr hrooms hcount (fun r => by rw [hheap]) hname⟩,
    ⟨members, lists.congr hheap fun _ c _ => hlink c⟩, ok.homes.congr hcount same.auth hname⟩

/-- The outputs do not matter. -/
lemma Ok.setOut (ok : Ok srv free home) (out : List Output) : Ok { srv with out } free home :=
  ok.congr ⟨fun _ => rfl, fun _ => rfl, fun _ h => h⟩ (fun _ => rfl) rfl rfl rfl rfl rfl

/-- A change of one client that the invariant does not see. -/
lemma Ok.modify (ok : Ok srv free home) {c : Ptr} {f : Client → Client}
    (hnext : (f (srv.clientPool c)).hashNext = (srv.clientPool c).hashNext)
    (hfd : (f (srv.clientPool c)).fd = (srv.clientPool c).fd)
    (hlink : (f (srv.clientPool c)).roomNext = (srv.clientPool c).roomNext)
    (hauth : (srv.clientPool c).authenticated = true →
      (f (srv.clientPool c)).authenticated = true) :
    Ok (srv.modify c f) free home := by
  refine ok.congr ⟨client_frame Client.hashNext hnext, client_frame Client.fd hfd, fun p hp => ?_⟩
    (client_frame Client.roomNext hlink) rfl rfl rfl rfl rfl
  by_cases hpc : p = c
  · subst hpc
    rw [clientPool_modify_self]
    exact hauth hp
  · rwa [clientPool_modify_of_ne hpc]

end Frames

/-! ## Finding a room -/

section Find
variable {srv : Server}

/-- The search along a bucket. -/
lemma roomFindFrom_spec (name : List UInt8) {h : Option RoomPtr} {l : List RoomPtr} {fuel : Nat}
    (c : Chain srv.roomLink h l) (hf : l.length ≤ fuel) :
    (∃ r ∈ l, (srv.roomHeap r).roomId = name ∧ roomFindFrom srv name fuel h = some (some r)) ∨
      ((∀ r ∈ l, (srv.roomHeap r).roomId ≠ name) ∧ roomFindFrom srv name fuel h = some none) := by
  induction c generalizing fuel with
  | nil => exact .inr ⟨fun _ h => absurd h List.not_mem_nil, by cases fuel <;> rfl⟩
  | @cons r q l e c ih =>
    cases fuel with
    | zero => cases hf
    | succ fuel =>
      have hq : (srv.roomHeap r).next = q := Option.some.inj e
      rw [roomFindFrom, hq]
      split
      · next hr => exact .inl ⟨r, List.mem_cons_self, hr, rfl⟩
      · next hr =>
        obtain ⟨r', hmem, hname, hfind⟩ | ⟨hnone, hfind⟩ := ih (Nat.le_of_succ_le_succ hf)
        · exact .inl ⟨r', List.mem_cons_of_mem r hmem, hname, hfind⟩
        · exact .inr ⟨List.forall_mem_cons.mpr ⟨hr, hnone⟩, hfind⟩

/-- A room is found by its name, if there is one. -/
lemma TableOk.roomFind {buckets : Nat → List RoomPtr} (table : TableOk srv buckets)
    (name : List UInt8) :
    (∃ r < srv.roomCount, (srv.roomHeap r).roomId = name ∧ roomFind srv name = some (some r)) ∨
      ((∀ r < srv.roomCount, (srv.roomHeap r).roomId ≠ name) ∧ roomFind srv name = some none) := by
  have hc := table.chain (roomBucket name)
  have hlen := hc.length_le fun r hr => ((table.mem _ r).mp hr).1
  obtain ⟨r, hmem, hname, hfind⟩ | ⟨hnone, hfind⟩ := roomFindFrom_spec name hc hlen
  · exact .inl ⟨r, ((table.mem _ r).mp hmem).1, hname, hfind⟩
  · refine .inr ⟨fun r hr hname => hnone r ?_ hname, hfind⟩
    exact (table.mem _ r).mpr ⟨hr, by rw [hname]⟩

end Find

end RoboControl.Signaling
