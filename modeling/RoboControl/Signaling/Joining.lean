import RoboControl.Signaling.Leaving

/-!
# Joining a room

A client that joins a room leaves the list it is on, finds or creates the room, and becomes the
first of its list (`Settled.join`). `Joined` is what this does to the rooms.
-/

namespace RoboControl.Signaling
open Base Proto Connection Function

section Join
variable {srv srv' : Server} {free : List Ptr} {home : Ptr → List UInt8} {c : Ptr}
  {name : List UInt8}

variable {r : RoomPtr}

/-- Joining changes the name and the link of the client, and nothing else of any client. -/
lemma linkClient_frame {β : Type} (g : Client → β)
    (h : ∀ client q, g { client with roomId := name, roomNext := q } = g client) (p : Ptr) :
    g ((linkClient srv c r name).clientPool p) = g (srv.clientPool p) := by
  refine client_frame g (f := ({ · with roomId := name, roomNext := (srv.roomHeap r).clients })) ?_
    p
  exact h _ _

/-- The client that joins. -/
lemma linkClient_self (srv : Server) (c : Ptr) (r : RoomPtr) (name : List UInt8) :
    (linkClient srv c r name).clientPool c =
      { srv.clientPool c with roomId := name, roomNext := (srv.roomHeap r).clients } :=
  update_self _ _ _

/-- The other clients. -/
lemma linkClient_of_ne {d : Ptr} (h : d ≠ c) :
    (linkClient srv c r name).clientPool d = srv.clientPool d := update_of_ne h _ _

lemma linkClient_roomId (srv : Server) (c : Ptr) (r r' : RoomPtr) (name : List UInt8) :
    ((linkClient srv c r name).roomHeap r').roomId = (srv.roomHeap r').roomId := by
  rw [linkClient, room_frame Room.roomId rfl]
  rfl

/-- The client leads to the old head. -/
lemma linkClient_link (srv : Server) (c : Ptr) (r : RoomPtr) (name : List UInt8) :
    (linkClient srv c r name).link = update srv.link c (some (srv.roomHeap r).clients) := by
  show (srv.modify c ({ · with roomId := name, roomNext := (srv.roomHeap r).clients })).link = _
  rw [link_modify]

/-- The counts of the other rooms. -/
lemma linkClient_clientCount {r' : RoomPtr} (h : r' ≠ r) :
    ((linkClient srv c r name).roomHeap r').clientCount = (srv.roomHeap r').clientCount := by
  rw [linkClient, roomHeap_modifyRoom_of_ne h]
  rfl

variable {members : RoomPtr → List Ptr}

/-- The room with the empty name keeps no list, so a client that is put there is on no list. -/
lemma ListsOk.link_unnamed (lists : ListsOk srv home members)
    (hc : home c = []) (hname : (srv.roomHeap r).roomId = []) :
    ListsOk (linkClient srv c r []) home members := by
  refine ⟨?_, fun r' d => ?_, fun r' hr' => ?_⟩
  · have hhead : (linkClient srv c r []).head = srv.head := by
      rw [linkClient, head_modifyRoom_unnamed]
      · rfl
      · exact hname
      · exact hname
    rw [linkClient_link, hhead]
    exact lists.toChains.congr fun r' p hp =>
      update_of_ne (ne_of_mem_of_not_mem hp (lists.not_mem hc r')) _ _
  · rw [linkClient_roomId]
    exact lists.mem r' d
  · rw [linkClient_roomId] at hr'
    rw [linkClient_clientCount (by rintro rfl; exact hr' hname)]
    exact lists.count r' hr'

variable {buckets : Nat → List RoomPtr}

/-- A client that is in no room is put before the list of a room with a name. -/
lemma ListsOk.link_named
    (lists : ListsOk srv home members) (table : TableOk srv buckets) (hc : home c = [])
    (hr : r < srv.roomCount) (hname : (srv.roomHeap r).roomId = name) (hne : name ≠ []) :
    ListsOk (linkClient srv c r name) (update home c name) (push members r c) := by
  have hr' : (srv.roomHeap r).roomId ≠ [] := hname ▸ hne
  refine ⟨?_, fun r' d => ?_, fun r' hr₀ => ?_⟩
  · have hhead : (linkClient srv c r name).head = update srv.head r (some c) := by
      rw [linkClient, head_modifyRoom]
      · rfl
      · exact hr'
      · rfl
    rw [linkClient_link, hhead, ← head_eq hr']
    exact lists.toChains.push (lists.not_mem hc) r
  · rw [mem_push, lists.mem, linkClient_roomId]
    by_cases hd : d = c
    · subst hd
      rw [update_self, hc]
      constructor
      · rintro (⟨-, rfl⟩ | ⟨hne, e⟩)
        · exact ⟨hr', hname.symm⟩
        · exact absurd e.symm hne
      · rintro ⟨hne, e⟩
        refine .inl ⟨rfl, table.unique r' r ?_ hr (by rw [← e, hname])⟩
        by_contra hge
        exact hne (table.fresh r' (Nat.le_of_not_lt hge))
    · rw [update_of_ne hd]
      exact ⟨fun h => h.resolve_left fun h => hd h.1, .inr⟩
  · rw [linkClient_roomId] at hr₀
    by_cases h : r' = r
    · subst h
      rw [linkClient, roomHeap_modifyRoom_self, push, update_self, List.length_cons,
        UInt32.ofNat_add]
      exact congrArg (· + 1) (lists.count r' hr₀)
    · rw [linkClient_clientCount h, push, update_of_ne h]
      exact lists.count r' hr₀

/-- The lists after a client has joined. -/
lemma ListsOk.link
    (lists : ListsOk srv home members) (table : TableOk srv buckets) (hc : home c = [])
    (hr : r < srv.roomCount) (hname : (srv.roomHeap r).roomId = name) :
    ∃ members', ListsOk (linkClient srv c r name) (update home c name) members' := by
  by_cases hnil : name = []
  · subst hnil
    rw [update_homeless hc]
    exact ⟨members, lists.link_unnamed hc hname⟩
  · exact ⟨_, lists.link_named table hc hr hname hnil⟩

/-- A client without a room joins one. -/
lemma Ok.link (ok : Ok srv free home) (hlive : c < maxConnections ∧ c ∉ free)
    (hauth : (srv.clientPool c).authenticated = true) (hc : home c = [])
    (hr : r < srv.roomCount) (hname : (srv.roomHeap r).roomId = name) :
    Ok (linkClient srv c r name) free (update home c name) := by
  obtain ⟨buckets, table⟩ := ok.table
  obtain ⟨members, lists⟩ := ok.lists
  have hkeep : ∀ p, ((linkClient srv c r name).clientPool p).authenticated =
      (srv.clientPool p).authenticated := linkClient_frame Client.authenticated fun _ _ => rfl
  refine ⟨ok.pool.congr rfl rfl (linkClient_frame Client.hashNext fun _ _ => rfl)
      (linkClient_frame Client.fd fun _ _ => rfl),
    ⟨buckets, table.congr rfl rfl (fun r' => ?_) (linkClient_roomId srv c r · name)⟩,
    lists.link table hc hr hname, ?_⟩
  · rw [linkClient, room_frame Room.next rfl]
    rfl
  · have homes : HomeOk (linkClient srv c r name) free home :=
      ok.homes.congr rfl (fun p hp => by rwa [hkeep]) (linkClient_roomId srv c r · name)
    refine ⟨fun d hd => ?_, fun d hd => ?_, fun d hd => ?_⟩
    · by_cases hdc : d = c
      · exact hdc ▸ hlive
      · rw [update_of_ne hdc] at hd
        exact homes.live d hd
    · by_cases hdc : d = c
      · rw [hdc, hkeep]
        exact hauth
      · rw [update_of_ne hdc] at hd
        exact homes.authenticated d hd
    · by_cases hdc : d = c
      · subst hdc
        rw [update_self]
        exact ⟨r, hr, (linkClient_roomId srv d r r name).trans hname⟩
      · rw [update_of_ne hdc] at hd ⊢
        exact homes.room d hd

/-- The new room. -/
lemma insertRoom_self (srv : Server) (room : Room) :
    (insertRoom srv room).roomHeap srv.roomCount =
      { room with next := srv.rooms (roomBucket room.roomId) } := update_self _ _ _

variable {room : Room}

/-- The other rooms. -/
lemma insertRoom_of_ne (h : r ≠ srv.roomCount) :
    (insertRoom srv room).roomHeap r = srv.roomHeap r := update_of_ne h _ _

/-- The names after a room was inserted. -/
lemma insertRoom_lt (h : r < (insertRoom srv room).roomCount) :
    (r = srv.roomCount ∧ ((insertRoom srv room).roomHeap r).roomId = room.roomId) ∨
      (r < srv.roomCount ∧ (insertRoom srv room).roomHeap r = srv.roomHeap r) := by
  obtain hlt | rfl := Nat.lt_succ_iff_lt_or_eq.mp h
  · exact .inr ⟨hlt, insertRoom_of_ne (Nat.ne_of_lt hlt)⟩
  · exact .inl ⟨rfl, by rw [insertRoom_self]⟩

/-- A new room in the table. -/
lemma TableOk.insert (table : TableOk srv buckets)
    (hnone : ∀ r < srv.roomCount, (srv.roomHeap r).roomId ≠ room.roomId) :
    TableOk (insertRoom srv room) (push buckets (roomBucket room.roomId) srv.roomCount) := by
  have hnot : ∀ b, srv.roomCount ∉ buckets b := fun b h =>
    absurd ((table.mem b _).mp h).1 (Nat.lt_irrefl _)
  refine ⟨?_, fun b r => ?_, fun r r' hr hr' e => ?_, fun r hr => ?_⟩
  · have hlink : (insertRoom srv room).roomLink =
        update srv.roomLink srv.roomCount (some (srv.rooms (roomBucket room.roomId))) := by
      funext r
      by_cases h : r = srv.roomCount
      · subst h
        rw [update_self, Server.roomLink, insertRoom_self]
      · rw [update_of_ne h, Server.roomLink, insertRoom_of_ne h]
        rfl
    rw [hlink]
    exact table.toChains.push hnot _
  · rw [mem_push, table.mem]
    constructor
    · rintro (⟨rfl, rfl⟩ | ⟨hr, rfl⟩)
      · exact ⟨Nat.lt_succ_self _, by rw [insertRoom_self]⟩
      · exact ⟨Nat.lt_succ_of_lt hr, by rw [insertRoom_of_ne (Nat.ne_of_lt hr)]⟩
    · rintro ⟨hr, rfl⟩
      obtain ⟨rfl, hname⟩ | ⟨hlt, e⟩ := insertRoom_lt hr
      · exact .inl ⟨rfl, by rw [hname]⟩
      · exact .inr ⟨hlt, by rw [e]⟩
  · obtain ⟨h, hname⟩ | ⟨hlt, hroom⟩ := insertRoom_lt hr
    · obtain ⟨h', -⟩ | ⟨hlt', hroom'⟩ := insertRoom_lt hr'
      · exact h.trans h'.symm
      · rw [hname, hroom'] at e
        exact absurd e.symm (hnone r' hlt')
    · obtain ⟨-, hname'⟩ | ⟨hlt', hroom'⟩ := insertRoom_lt hr'
      · rw [hname', hroom] at e
        exact absurd e (hnone r hlt)
      · rw [hroom, hroom'] at e
        exact table.unique r r' hlt hlt' e
  · have hlt : srv.roomCount < r := hr
    rw [insertRoom_of_ne (Nat.ne_of_gt hlt)]
    exact table.fresh r hlt.le

/-- A new room has no members. -/
lemma ListsOk.insert
    (lists : ListsOk srv home members) (table : TableOk srv buckets) (homes : HomeOk srv free home)
    (hnone : ∀ r < srv.roomCount, (srv.roomHeap r).roomId ≠ room.roomId)
    (hclients : room.clients = none) (hcount : room.clientCount = 0) :
    ListsOk (insertRoom srv room) home members := by
  have hfresh := table.fresh srv.roomCount le_rfl
  have hempty : members srv.roomCount = [] :=
    List.eq_nil_iff_forall_not_mem.mpr fun d hd => ((lists.mem _ d).mp hd).1 hfresh
  refine ⟨?_, fun r d => ?_, fun r hr => ?_⟩
  · have hhead : (insertRoom srv room).head = srv.head := by
      funext r
      by_cases h : r = srv.roomCount
      · subst h
        rw [Server.head, Server.head, insertRoom_self, if_pos hfresh, hclients, ite_self]
      · rw [Server.head, insertRoom_of_ne h]
        rfl
    rw [hhead]
    exact lists.toChains
  · by_cases h : r = srv.roomCount
    · subst h
      rw [insertRoom_self, hempty]
      refine ⟨fun h => absurd h List.not_mem_nil, fun h => ?_⟩
      -- A client with this name would have a room.
      obtain ⟨hne, e⟩ := h
      obtain ⟨r, hr, hname⟩ := homes.room d (e ▸ hne)
      exact absurd (hname.trans e) (hnone r hr)
    · rw [insertRoom_of_ne h]
      exact lists.mem r d
  · by_cases h : r = srv.roomCount
    · subst h
      rw [insertRoom_self, hempty]
      exact hcount
    · rw [insertRoom_of_ne h] at hr ⊢
      exact lists.count r hr

/-- A room that is not there is created. -/
lemma Ok.insert (ok : Ok srv free home)
    (hnone : ∀ r < srv.roomCount, (srv.roomHeap r).roomId ≠ room.roomId)
    (hclients : room.clients = none) (hcount : room.clientCount = 0) :
    Ok (insertRoom srv room) free home := by
  obtain ⟨buckets, table⟩ := ok.table
  obtain ⟨members, lists⟩ := ok.lists
  refine ⟨ok.pool.congr rfl rfl (fun _ => rfl) (fun _ => rfl), ⟨_, table.insert hnone⟩,
    ⟨_, lists.insert table ok.homes hnone hclients hcount⟩, ok.homes.live,
    ok.homes.authenticated, fun d hd => ?_⟩
  obtain ⟨r, hr, hname⟩ := ok.homes.room d hd
  exact ⟨r, Nat.lt_succ_of_lt hr, by rw [insertRoom_of_ne (Nat.ne_of_lt hr), hname]⟩

/-- What a client finds after it has joined a room: it is the first of the room's list, and joining
a room with a name leaves the room without one alone. -/
structure Joined (srv srv' : Server) (c : Ptr) (name : List UInt8) : Prop where
  first : ∃ r < srv'.roomCount, (srv'.roomHeap r).roomId = name ∧ (srv'.roomHeap r).clients = some c
  unnamed : name ≠ [] → SameUnnamed srv srv'

/-- What joining means. -/
lemma linkClient_joined (hr : r < srv.roomCount)
    (hname : (srv.roomHeap r).roomId = name) :
    Joined srv (linkClient srv c r name) c name := by
  refine ⟨⟨r, hr, (linkClient_roomId srv c r r name).trans hname, ?_⟩, fun hne r' hr' => ?_⟩
  · rw [linkClient, roomHeap_modifyRoom_self]
  · rw [linkClient_roomId] at hr'
    rw [linkClient, roomHeap_modifyRoom_of_ne]
    · rfl
    · rintro rfl
      exact hne (hname.symm.trans hr')

lemma redisRegisterConnection_eq (srv : Server) (clientId : UInt32) (name : List UInt8) :
    redisRegisterConnection srv clientId name =
      { srv with out := (redisRegisterConnection srv clientId name).out } := by
  rw [redisRegisterConnection]
  split <;> rfl

lemma redisUnregisterConnection_eq (srv : Server) (clientId : UInt32) :
    redisUnregisterConnection srv clientId =
      { srv with out := (redisUnregisterConnection srv clientId).out } := by
  rw [redisUnregisterConnection]
  split <;> rfl

/-- The second half of joining. -/
lemma Ok.enter (ok : Ok srv free home) {env : Env} (halloc : env.alloc = true)
    (hlive : c < maxConnections ∧ c ∉ free) (hauth : (srv.clientPool c).authenticated = true)
    (hc : home c = []) (name : List UInt8) :
    ∃ srv₁ r, Ok (linkClient srv₁ c r name) free (update home c name) ∧
      Joined srv (linkClient srv₁ c r name) c name ∧ srv₁.clientPool = srv.clientPool ∧
      (roomFind srv name = some (some r) ∧ srv₁ = srv ∨
        roomFind srv name = some none ∧ roomCreate env srv name = (some r, srv₁)) := by
  obtain ⟨buckets, table⟩ := ok.table
  obtain ⟨r, hr, hname, hfind⟩ | ⟨hnone, hfind⟩ := table.roomFind name
  · exact ⟨srv, r, ok.link hlive hauth hc hr hname, linkClient_joined hr hname, rfl,
      .inl ⟨hfind, rfl⟩⟩
  · have hcreate : roomCreate env srv name = (some srv.roomCount,
        insertRoom srv { Room.zero with roomId := name, createdAt := env.created }) := by
      rw [roomCreate, halloc]
      rfl
    have ok₁ : Ok (insertRoom srv { Room.zero with roomId := name, createdAt := env.created }) free
      home :=
      ok.insert hnone rfl rfl
    have hr : srv.roomCount < srv.roomCount + 1 := Nat.lt_succ_self _
    have hname := congrArg Room.roomId
      (insertRoom_self srv { Room.zero with roomId := name, createdAt := env.created })
    have joined := linkClient_joined (c := c) hr hname
    refine ⟨_, _, ok₁.link hlive hauth hc hr hname, ⟨joined.first, fun hne r hr' => ?_⟩, rfl,
      .inr ⟨hfind, hcreate⟩⟩
    rw [joined.unnamed hne r hr', insertRoom_of_ne]
    rintro rfl
    rw [linkClient_roomId] at hr'
    exact hne (hname.symm.trans hr')

/-- A client that joins a room has left the one it was in. -/
lemma Settled.join (st : Settled srv free home) {env : Env} (halloc : env.alloc = true)
    (hlive : c < maxConnections ∧ c ∉ free) (hauth : (srv.clientPool c).authenticated = true)
    (name : List UInt8) :
    ∃ srv', roomJoin env srv c name = some srv' ∧
      Settled srv' free (update home c name) ∧ Joined srv srv' c name := by
  have agree := st.agree c hlive.1 hlive.2
  obtain ⟨srv₁, hleave, off, ok₁, hrooms⟩ := st.leaveNamed agree
  have hauth₁ : (srv₁.clientPool c).authenticated = true :=
    (SameClients.of_offLists off).auth c hauth
  obtain ⟨srv₂, r, ok₂, joined, hpool, hcases⟩ :=
    ok₁.enter halloc hlive hauth₁ (update_self c [] home) name
  rw [update_idem] at ok₂
  refine ⟨redisRegisterConnection (linkClient srv₂ c r name) (srv₂.clientPool c).clientId name, ?_,
    ?_, ?_⟩
  · rw [roomJoin, hleave]
    obtain ⟨hfind, rfl⟩ | ⟨hfind, hcreate⟩ := hcases
    · simp only [Option.bind_eq_bind, Option.bind_some, hfind]
      rfl
    · simp only [Option.bind_eq_bind, Option.bind_some, hfind, hcreate]
      rfl
  · rw [redisRegisterConnection_eq]
    refine ⟨ok₂.setOut _, fun d hd hd' => ?_⟩
    show ((linkClient srv₂ c r name).clientPool d).roomId = _
    by_cases hdc : d = c
    · rw [hdc, update_self, linkClient_self]
    · rw [linkClient_of_ne hdc, hpool, update_of_ne hdc, ← st.agree d hd hd']
      exact (congrArg Client.roomId (offLists_client off d) :)
  · rw [redisRegisterConnection_eq]
    refine ⟨joined.first, fun hne r' hr' => ?_⟩
    have hsame : (linkClient srv₂ c r name).roomHeap r' = srv₁.roomHeap r' :=
      joined.unnamed hne r' hr'
    exact hsame.trans (hrooms r' (hsame ▸ hr'))

end Join

end RoboControl.Signaling
