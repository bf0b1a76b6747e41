import RoboControl.Signaling.Rooms

/-!
# Leaving a room

`room_join`, `client_free` and `MSG_LEAVE_ROOM` take a client out of a list with the same loop,
which finds the client behind the slots of the list. On the list of a room with a name it finds
exactly the members (`removeFrom_named`). Only `MSG_LEAVE_ROOM` lets a client without a room walk
the list of the room without a name. If that walk ends, it has changed no list of another room
(`chains_removeAt_unnamed`): a client that is on one of these links to clients that are on it, too,
and never to the client that leaves.
-/

namespace RoboControl.Signaling
open Base Proto Connection Function

/-! ## What a removal leaves -/

/-- A client without its link in a room's list. -/
def Client.offList (client : Client) : Client := { client with roomNext := none }

/-- A room without its list. -/
def Room.offList (room : Room) : Room := { room with clients := none, clientCount := 0 }

/-- The server without the lists of its rooms. -/
def Server.offLists (srv : Server) : Server :=
  { srv with
    clientPool := fun c => (srv.clientPool c).offList
    roomHeap := fun r => (srv.roomHeap r).offList }

section OffLists
variable {srv srv' : Server} {free : List Ptr} {home : Ptr → List UInt8}

@[simp] lemma offLists_write (srv : Server) (q : Option Ptr) (pp : Slot) :
    (srv.write q pp).offLists = srv.offLists := by
  cases pp with
  | room r =>
    refine congrArg (Server.mk _ _ _ _ _ _ · _ _ _) (funext fun r' => ?_)
    rw [Server.write, room_frame Room.offList rfl]
  | link c =>
    refine congrArg (Server.mk · _ _ _ _ _ _ _ _ _) (funext fun p => ?_)
    rw [Server.write, client_frame Client.offList rfl]

@[simp] lemma offLists_modifyRoom {r : RoomPtr} {f : Room → Room}
    (h : (f (srv.roomHeap r)).offList = (srv.roomHeap r).offList) :
    (srv.modifyRoom r f).offLists = srv.offLists :=
  congrArg (Server.mk _ _ _ _ _ _ · _ _ _) (funext fun r' => room_frame Room.offList h r')

/-- What a client has besides its lists. -/
lemma offLists_client (h : srv'.offLists = srv.offLists) (c : Ptr) :
    (srv'.clientPool c).offList = (srv.clientPool c).offList :=
  congrFun (congrArg Server.clientPool h) c

/-- What a room has besides its list. -/
lemma offLists_room (h : srv'.offLists = srv.offLists) (r : RoomPtr) :
    (srv'.roomHeap r).offList = (srv.roomHeap r).offList :=
  congrFun (congrArg Server.roomHeap h) r

/-- The names of the rooms. -/
lemma roomId_of_offLists (h : srv'.offLists = srv.offLists) (r : RoomPtr) :
    (srv'.roomHeap r).roomId = (srv.roomHeap r).roomId :=
  (congrArg Room.roomId (offLists_room h r) :)

/-- The clients but for the lists. -/
lemma SameClients.of_offLists (h : srv'.offLists = srv.offLists) : SameClients srv srv' where
  next c := (congrArg Client.hashNext (offLists_client h c) :)
  fd c := (congrArg Client.fd (offLists_client h c) :)
  auth c ha := (congrArg Client.authenticated (offLists_client h c) :).trans ha

/-- What a change of the lists leaves of the invariant. -/
lemma Ok.of_offLists (ok : Ok srv free home) (h : srv'.offLists = srv.offLists)
    {home' : Ptr → List UInt8} (hhome : ∀ c, home' c ≠ [] → home' c = home c)
    (lists : ∃ members, ListsOk srv' home' members) : Ok srv' free home' := by
  have same := SameClients.of_offLists h
  have hcount : srv'.roomCount = srv.roomCount := (congrArg Server.roomCount h :)
  obtain ⟨buckets, table⟩ := ok.table
  refine ⟨ok.pool.congr (congrArg Server.freeClients h :) (congrArg Server.fdMap h :) same.next
    same.fd, ⟨buckets, table.congr (congrArg Server.rooms h :) hcount ?_ (roomId_of_offLists h)⟩,
      lists, ?_⟩
  · exact fun r => (congrArg Room.next (offLists_room h r) :)
  · have homes := ok.homes.congr hcount same.auth (roomId_of_offLists h)
    refine ⟨fun c hc => ?_, fun c hc => ?_, fun c hc => ?_⟩
    · exact homes.live c (hhome c hc ▸ hc)
    · exact homes.authenticated c (hhome c hc ▸ hc)
    · rw [hhome c hc]
      exact homes.room c (hhome c hc ▸ hc)

end OffLists

section Walk
variable {srv srv' : Server} {members : RoomPtr → List Ptr} {r : RoomPtr} {c : Ptr}

/-- Where the link to the rest of a list is stored, behind its first clients. -/
def slotBehind (r : RoomPtr) (pre : List Ptr) : Slot := pre.getLast?.elim (.room r) .link

/-- What a slot behind some members has. -/
lemma read_slotBehind (cs : Chains srv.link srv.head members) (hr : (srv.roomHeap r).roomId ≠ [])
    {pre rest : List Ptr} (hl : members r = pre ++ rest) :
    srv.read (slotBehind r pre) = rest.head? := by
  have cr := cs.chain r
  rw [hl, head_eq hr] at cr
  obtain rfl | ⟨pre, o, rfl⟩ := pre.eq_nil_or_concat
  · exact cr.head_eq
  · rw [List.concat_eq_append, List.append_assoc] at cr
    rw [List.concat_eq_append, slotBehind, List.getLast?_concat]
    exact Option.some.inj cr.next_eq

/-- A client is taken out of the list it is in. -/
lemma unlink_slotBehind (cs : Chains srv.link srv.head members) (hr : (srv.roomHeap r).roomId ≠ [])
    {pre rest : List Ptr} (hl : members r = pre ++ c :: rest) :
    Chains (srv.write (srv.clientPool c).roomNext (slotBehind r pre)).link
      (srv.write (srv.clientPool c).roomNext (slotBehind r pre)).head (unlink members r c) := by
  obtain rfl | ⟨pre, o, rfl⟩ := pre.eq_nil_or_concat
  · have hc : srv.head r = some c := by
      rw [(cs.chain r).head_eq, hl]
      rfl
    rw [show slotBehind r [] = .room r from rfl, Server.write, head_modifyRoom hr rfl]
    exact cs.unlink_head hc rfl
  · rw [List.concat_eq_append, List.append_assoc] at hl
    rw [List.concat_eq_append, slotBehind, List.getLast?_concat]
    dsimp only [Option.elim_some, Server.write]
    rw [link_modify]
    exact cs.unlink hl

lemma head_count (srv : Server) (r : RoomPtr) (f : UInt32 → UInt32) :
    (srv.modifyRoom r fun room => { room with clientCount := f room.clientCount }).head =
      srv.head := by
  funext r'
  refine room_frame (fun room => if room.roomId = [] then none else room.clients) ?_ r'
  rfl

lemma offLists_removeAt (srv : Server) (c : Ptr) (r : RoomPtr) (pp : Slot) :
    (removeAt srv c r pp).offLists = srv.offLists := by
  rw [removeAt, offLists_modifyRoom rfl, offLists_write]

/-- The lists of the other rooms start where they did. -/
lemma roomHeap_removeAt {pp : Slot} (hpp : ∀ r', pp = .room r' → r' = r) {r' : RoomPtr}
    (h : r' ≠ r) :
    (removeAt srv c r pp).roomHeap r' = srv.roomHeap r' := by
  rw [removeAt, roomHeap_modifyRoom_of_ne h]
  cases pp with
  | room r₀ =>
    obtain rfl := hpp r₀ rfl
    rw [Server.write, roomHeap_modifyRoom_of_ne h]
  | link o => rfl

/-- The count goes down. -/
lemma clientCount_removeAt (pp : Slot) :
    ((removeAt srv c r pp).roomHeap r).clientCount = (srv.roomHeap r).clientCount - 1 := by
  rw [removeAt, roomHeap_modifyRoom_self]
  cases pp with
  | room r₀ =>
    show ((srv.write _ (.room r₀)).roomHeap r).clientCount - 1 = _
    rw [Server.write, room_frame Room.clientCount rfl]
  | link o => rfl

/-- A member is taken out. -/
lemma chains_removeAt (cs : Chains srv.link srv.head members) (hr : (srv.roomHeap r).roomId ≠ [])
    {pre rest : List Ptr} (hl : members r = pre ++ c :: rest) :
    Chains (removeAt srv c r (slotBehind r pre)).link (removeAt srv c r (slotBehind r pre)).head
      (unlink members r c) := by
  rw [removeAt, head_count _ r (· - 1)]
  exact unlink_slotBehind cs hr hl

/-- A walk of the list of a room with a name finds every client that is on it. -/
lemma removeFrom_named (cs : Chains srv.link srv.head members) (hr : (srv.roomHeap r).roomId ≠ [])
    {pre rest : List Ptr} (hl : members r = pre ++ rest) (hc : c ∈ rest) {fuel : Nat}
    (hf : rest.length ≤ fuel) :
    ∃ pre' post, members r = pre' ++ c :: post ∧
      removeFrom c r fuel srv (slotBehind r pre) = some (removeAt srv c r (slotBehind r pre')) := by
  have hread := read_slotBehind cs hr hl
  induction rest generalizing pre fuel with
  | nil => cases hc
  | cons p rest ih =>
    rw [removeFrom.eq_def]
    simp only [hread, List.head?_cons]
    split
    · next hp =>
      subst hp
      exact ⟨pre, rest, hl, rfl⟩
    · next hp =>
      cases fuel with
      | zero => cases hf
      | succ fuel =>
        have hl' : members r = (pre ++ [p]) ++ rest := by rw [hl, List.append_cons]
        have hslot : slotBehind r (pre ++ [p]) = .link p := by
          rw [slotBehind, List.getLast?_concat]
          rfl
        rw [← hslot]
        exact ih hl' ((List.mem_cons.mp hc).resolve_left (Ne.symm hp)) (Nat.le_of_succ_le_succ hf)
          (read_slotBehind cs hr hl')

/-- A walk is at its end, at the client, or goes on. -/
lemma removeFrom_step {fuel : Nat} {pp : Slot} (h : removeFrom c r fuel srv pp = some srv') :
    srv' = srv ∨ (srv.read pp = some c ∧ srv' = removeAt srv c r pp) ∨
      ∃ p fuel', fuel = fuel' + 1 ∧ removeFrom c r fuel' srv (.link p) = some srv' := by
  rw [removeFrom.eq_def] at h
  cases hread : srv.read pp with
  | none =>
    simp only [hread] at h
    cases h
    exact .inl rfl
  | some p =>
    simp only [hread] at h
    split at h
    · next hp =>
      cases h
      exact .inr (.inl ⟨congrArg some hp, rfl⟩)
    · cases fuel with
      | zero => cases h
      | succ fuel => exact .inr (.inr ⟨p, fuel, rfl, h⟩)

/-- A walk that ends changes nothing, or takes the client out where it is. -/
lemma removeFrom_cases {fuel : Nat} {pp : Slot} (h : removeFrom c r fuel srv pp = some srv') :
    srv' = srv ∨ ∃ pp', srv.read pp' = some c ∧ (pp' = pp ∨ ∃ o, pp' = .link o) ∧
      srv' = removeAt srv c r pp' := by
  induction fuel generalizing pp with
  | zero =>
    obtain e | ⟨hread, e⟩ | ⟨_, _, hfuel, -⟩ := removeFrom_step h
    · exact .inl e
    · exact .inr ⟨pp, hread, .inl rfl, e⟩
    · cases hfuel
  | succ fuel ih =>
    obtain e | ⟨hread, e⟩ | ⟨p, _, hfuel, hrest⟩ := removeFrom_step h
    · exact .inl e
    · exact .inr ⟨pp, hread, .inl rfl, e⟩
    · cases hfuel
      obtain e | ⟨pp', hread', hpp', e⟩ := ih hrest
      · exact .inl e
      · refine .inr ⟨pp', hread', .inr ?_, e⟩
        obtain rfl | ho := hpp'
        · exact ⟨p, rfl⟩
        · exact ho

/-- Taking a client that is on no list out of the room without a name leaves all lists alone: a
client on a list links to no such client. -/
lemma chains_removeAt_unnamed (cs : Chains srv.link srv.head members)
    (hr : (srv.roomHeap r).roomId = []) (hc : ∀ r', c ∉ members r') {pp : Slot}
    (hread : srv.read pp = some c) (hpp : ∀ r', pp = .room r' → r' = r) :
    Chains (removeAt srv c r pp).link (removeAt srv c r pp).head members := by
  rw [removeAt, head_count _ r (· - 1)]
  cases pp with
  | room r₀ =>
    obtain rfl := hpp r₀ rfl
    rw [Server.write, head_modifyRoom_unnamed hr hr]
    exact cs
  | link o =>
    show Chains (srv.modify o ({ · with roomNext := (srv.clientPool c).roomNext })).link srv.head
      members
    rw [link_modify]
    refine cs.congr fun r' p hp => update_of_ne ?_ _ _
    rintro rfl
    obtain ⟨pre, post, hl⟩ := List.append_of_mem hp
    have cr := cs.chain r'
    rw [hl] at cr
    have hnext : post.head? = some c := Option.some.inj
      (cr.next_eq.symm.trans (congrArg some hread))
    refine hc r' (hl ▸ List.mem_append_right pre (List.mem_cons_of_mem p ?_))
    exact List.mem_of_mem_head? hnext

end Walk

section Leave
variable {srv srv' : Server} {free : List Ptr} {home : Ptr → List UInt8}
  {members : RoomPtr → List Ptr}
  {c : Ptr}

/-- A slot of the room. -/
lemma slotBehind_room {r r' : RoomPtr} {pre : List Ptr} (h : slotBehind r pre = .room r') :
    r' = r := by
  obtain rfl | ⟨pre, o, rfl⟩ := pre.eq_nil_or_concat
  · cases h
    rfl
  · rw [List.concat_eq_append, slotBehind, List.getLast?_concat] at h
    cases h

/-- No list is longer than the pool. -/
lemma ListsOk.length_le (lists : ListsOk srv home members) (homes : HomeOk srv free home)
    (r : RoomPtr) : (members r).length ≤ maxConnections := by
  refine (lists.chain r).length_le fun c hc => ?_
  obtain ⟨hname, hhome⟩ := (lists.mem r c).mp hc
  exact (homes.live c (hhome ▸ hname)).1

/-- One member less. -/
lemma count_erase {l : List Ptr} (h : c ∈ l) :
    UInt32.ofNat l.length - 1 = UInt32.ofNat (l.erase c).length := by
  rw [List.length_erase_of_mem h]
  have hpos : 1 ≤ l.length := List.length_pos_of_mem h
  rw [show l.length = l.length - 1 + 1 by omega, UInt32.ofNat_add, Nat.add_sub_cancel]
  exact UInt32.add_sub_cancel _ 1

/-- The client has left the list of its room, and no other list has changed. -/
lemma ListsOk.remove (lists : ListsOk srv home members) {r : RoomPtr}
    (hr : (srv.roomHeap r).roomId ≠ []) {pre post : List Ptr} (hl : members r = pre ++ c :: post) :
    ListsOk (removeAt srv c r (slotBehind r pre)) (update home c []) (unlink members r c) := by
  have off := offLists_removeAt srv c r (slotBehind r pre)
  have hmem : c ∈ members r := hl ▸ List.mem_append_right pre List.mem_cons_self
  refine ⟨chains_removeAt lists.toChains hr hl, fun r' d => ?_, fun r' hr' => ?_⟩
  · rw [lists.toChains.mem_unlink_of_mem hmem, lists.mem, roomId_of_offLists off]
    by_cases hd : d = c
    · subst hd
      rw [update_self]
      exact ⟨fun h => absurd rfl h.2, fun h => absurd h.2.symm h.1⟩
    · rw [update_of_ne hd]
      exact and_iff_left hd
  · rw [roomId_of_offLists off] at hr'
    by_cases h : r' = r
    · subst h
      rw [clientCount_removeAt, lists.count r' hr, unlink, update_self]
      exact count_erase hmem
    · rw [roomHeap_removeAt (fun _ => slotBehind_room) h, lists.count r' hr', unlink,
        update_of_ne h]

/-- A client leaves the room with a name that it is in. -/
lemma Ok.leave_named (ok : Ok srv free home) (hc : home c ≠ [])
    (agree : (srv.clientPool c).roomId = home c) :
    ∃ srv', leaveList srv c = some srv' ∧ srv'.offLists = srv.offLists ∧
      Ok srv' free (update home c []) ∧
      SameUnnamed srv srv' := by
  obtain ⟨buckets, table⟩ := ok.table
  obtain ⟨members, lists⟩ := ok.lists
  obtain ⟨r, hr, hname, hfind⟩ | ⟨hnone, -⟩ := table.roomFind (srv.clientPool c).roomId
  · have hr' : (srv.roomHeap r).roomId ≠ [] := by rwa [hname, agree]
    have hmem : c ∈ members r := (lists.mem r c).mpr ⟨hr', by rw [hname, agree]⟩
    obtain ⟨pre, post, hl, hremove⟩ := removeFrom_named lists.toChains hr'
      (List.nil_append (members r)).symm hmem (lists.length_le ok.homes r)
    refine ⟨removeAt srv c r (slotBehind r pre), ?_, offLists_removeAt _ _ _ _, ?_, ?_⟩
    · rw [leaveList, hfind]
      exact hremove
    · refine ok.of_offLists (offLists_removeAt _ _ _ _) (fun d hd => ?_) ⟨_, lists.remove hr' hl⟩
      by_cases hdc : d = c
      · subst hdc
        rw [update_self] at hd
        exact absurd rfl hd
      · rw [update_of_ne hdc]
    · intro r₀ hr₀
      refine roomHeap_removeAt (fun _ => slotBehind_room) ?_
      rintro rfl
      rw [roomId_of_offLists (offLists_removeAt _ _ _ _)] at hr₀
      exact hr' hr₀
  · obtain ⟨r, hr, hname⟩ := ok.homes.room c hc
    exact absurd (hname.trans agree.symm) (hnone r hr)

/-- A client without a room may walk the list of the room without a name; if that ends, no other
list has changed. -/
lemma Ok.leave_unnamed (ok : Ok srv free home) (hc : home c = [])
    (agree : (srv.clientPool c).roomId = home c) (h : leaveList srv c = some srv') :
    srv'.offLists = srv.offLists ∧ Ok srv' free home := by
  obtain ⟨buckets, table⟩ := ok.table
  obtain ⟨members, lists⟩ := ok.lists
  rw [leaveList] at h
  obtain ⟨r, -, hname, hfind⟩ | ⟨-, hfind⟩ := table.roomFind (srv.clientPool c).roomId
  · have hr : (srv.roomHeap r).roomId = [] := by rw [hname, agree, hc]
    rw [hfind] at h
    obtain rfl | ⟨pp, hread, hpp, rfl⟩ := removeFrom_cases h
    · exact ⟨rfl, ok⟩
    · have off := offLists_removeAt srv c r pp
      have hpp' : ∀ r', pp = .room r' → r' = r := by
        rintro r' rfl
        obtain e | ⟨o, e⟩ := hpp
        · cases e
          rfl
        · cases e
      refine ⟨off, ok.of_offLists off (fun _ _ => rfl) ⟨members, ?_⟩⟩
      refine ⟨chains_removeAt_unnamed lists.toChains hr (lists.not_mem hc) hread hpp',
        fun r' d => ?_, fun r' hr' => ?_⟩
      · rw [lists.mem, roomId_of_offLists off]
      · rw [roomId_of_offLists off] at hr'
        have hne : r' ≠ r := by
          rintro rfl
          exact hr' hr
        rw [roomHeap_removeAt hpp' hne, lists.count r' hr']
  · rw [hfind] at h
    cases h
    exact ⟨rfl, ok⟩

/-- A client without a home cannot lose it. -/
lemma update_homeless (hc : home c = []) : update home c [] = home := by
  rw [← hc, update_eq_self]

/-- A client leaves its room. -/
lemma Ok.leave (ok : Ok srv free home) (agree : (srv.clientPool c).roomId = home c)
    (h : leaveList srv c = some srv') :
    srv'.offLists = srv.offLists ∧ Ok srv' free (update home c []) := by
  by_cases hc : home c = []
  · rw [update_homeless hc]
    exact ok.leave_unnamed hc agree h
  · obtain ⟨srv₁, e, off, ok', -⟩ := ok.leave_named hc agree
    cases e.symm.trans h
    exact ⟨off, ok'⟩

/-- The guard of `room_join` keeps off the list of the room without a name. -/
lemma Ok.leaveNamed (ok : Ok srv free home) (agree : (srv.clientPool c).roomId = home c) :
    ∃ srv', leaveNamed srv c = some srv' ∧ srv'.offLists = srv.offLists ∧
      Ok srv' free (update home c []) ∧
      SameUnnamed srv srv' := by
  rw [Signaling.leaveNamed]
  split
  · next hne => exact ok.leave_named (agree ▸ hne) agree
  · next hnil =>
    rw [agree, not_not] at hnil
    refine ⟨srv, rfl, rfl, ?_, fun _ _ => rfl⟩
    rw [update_homeless hnil]
    exact ok

end Leave

end RoboControl.Signaling
