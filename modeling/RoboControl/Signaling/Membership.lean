import RoboControl.Signaling.Actions

/-!
# Membership in rooms

Every list of clients of `src/signaling/signaling_server.c` ends, holds the clients in use that name
its room, and gives a client up when it is freed (`Membership`), as long as no client joins the room
with the empty name. `room_join` takes the empty name like any other, but the guards of `room_join`
and `client_free` take it for no room at all, so neither takes the client out of that list again
(`room_membership_iff`).
-/

namespace RoboControl.Signaling
open Base Proto Connection

/-- A client on the free list. -/
def Server.Free (srv : Server) (c : Ptr) : Prop :=
  ∃ free, Chain srv.freeLink srv.freeClients free ∧ c ∈ free

/-- A client of the pool that is in use. -/
def Server.Live (srv : Server) (c : Ptr) : Prop := c < maxConnections ∧ ¬ srv.Free c

/-- The list of a room ends and has these clients. -/
def Server.Listed (srv : Server) (r : RoomPtr) (l : List Ptr) : Prop :=
  Chain srv.link (srv.roomHeap r).clients l

/-- Lists of clients end, are counted, hold clients in use by the names of their rooms, and have no
client in common; and a client that is freed is on none of them. -/
structure Membership (srv : Server) : Prop where
  list : ∀ r < srv.roomCount, ∃ l, srv.Listed r l ∧ l.Nodup ∧
    (srv.roomHeap r).clientCount.toNat = l.length ∧
    ∀ c ∈ l, srv.Live c ∧ (srv.clientPool c).roomId = (srv.roomHeap r).roomId
  once : ∀ r < srv.roomCount, ∀ r' < srv.roomCount, r ≠ r' →
    ∀ l l', srv.Listed r l → srv.Listed r' l' → List.Disjoint l l'
  freed : ∀ c, srv.Live c → ∃ srv', clientFree srv c = some srv' ∧
    ∀ r < srv'.roomCount, ∃ l, srv'.Listed r l ∧ c ∉ l

section Membership
variable {srv srv' : Server} {free : List Ptr} {home : Ptr → List UInt8} {c : Ptr}

/-- The clients in use. -/
lemma PoolOk.live_iff (pool : PoolOk srv free) : srv.Live c ↔ c < maxConnections ∧ c ∉ free := by
  refine and_congr_right fun _ => not_congr ⟨?_, fun h => ⟨free, pool.chain, h⟩⟩
  rintro ⟨free', hchain, h⟩
  rwa [hchain.unique pool.chain] at h

lemma Server.Quiet.of_same (hq : srv.Quiet) (h : SameUnnamed srv srv') : srv'.Quiet := by
  intro r hr
  have hsame := h r hr
  rw [hsame] at hr ⊢
  exact hq r hr

/-- While the room without a name is empty, every list holds the clients with its name
as their home. -/
lemma Settled.listed (st : Settled srv free home) (hq : srv.Quiet) (r : RoomPtr) :
    ∃ l, srv.Listed r l ∧ (srv.roomHeap r).clientCount.toNat = l.length ∧
      ∀ c, c ∈ l ↔ (srv.roomHeap r).roomId ≠ [] ∧ home c = (srv.roomHeap r).roomId := by
  obtain ⟨members, lists⟩ := st.lists
  by_cases hr : (srv.roomHeap r).roomId = []
  · obtain ⟨hclients, hcount⟩ := hq r hr
    refine ⟨[], ?_, by rw [hcount]; rfl, fun c => ?_⟩
    · rw [Server.Listed, hclients]
      exact .nil
    · exact ⟨fun h => absurd h List.not_mem_nil, fun h => absurd hr h.1⟩
  · have hchain := lists.chain r
    rw [head_eq hr] at hchain
    refine ⟨members r, hchain, ?_, lists.mem r⟩
    have hle : (members r).length ≤ 1000000 := lists.length_le st.homes r
    rw [lists.count r hr, UInt32.toNat_ofNat']
    omega

/-- Who is in which room. -/
lemma Settled.membership (st : Settled srv free home) (hq : srv.Quiet) : Membership srv := by
  refine ⟨fun r _ => ?_, fun r hr r' hr' hne l l' hl hl' => ?_, fun c hc => ?_⟩
  · obtain ⟨l, hl, hcount, hmem⟩ := st.listed hq r
    refine ⟨l, hl, hl.nodup, hcount, fun c hc => ?_⟩
    obtain ⟨hname, hhome⟩ := (hmem c).mp hc
    have hlive := st.homes.live c (hhome ▸ hname)
    exact ⟨st.pool.live_iff.mpr hlive, (st.agree c hlive.1 hlive.2).trans hhome⟩
  · obtain ⟨l₀, hl₀, -, hmem⟩ := st.listed hq r
    obtain ⟨l₀', hl₀', -, hmem'⟩ := st.listed hq r'
    obtain ⟨buckets, table⟩ := st.table
    rw [hl.unique hl₀, hl'.unique hl₀']
    intro c hc hc'
    exact hne (table.unique r r' hr hr' (((hmem c).mp hc).2.symm.trans ((hmem' c).mp hc').2))
  · obtain ⟨srv', hfree, st', same⟩ := st.frees (st.pool.live_iff.mp hc)
    refine ⟨srv', hfree, fun r _ => ?_⟩
    obtain ⟨l, hl, -, hmem⟩ := st'.listed (hq.of_same same) r
    refine ⟨l, hl, fun hc => ?_⟩
    obtain ⟨hname, hhome⟩ := (hmem c).mp hc
    rw [Function.update_self] at hhome
    exact hname hhome.symm

/-- The room with the empty name does not give its clients up. -/
lemma Settled.not_membership (st : Settled srv free home) (hlive : c < maxConnections ∧ c ∉ free)
    (hhome : home c = []) (joined : ∃ r < srv.roomCount, (srv.roomHeap r).roomId = [] ∧
      (srv.roomHeap r).clients = some c) : ¬ Membership srv := by
  intro h
  obtain ⟨r, hr, -, hfirst⟩ := joined
  have hroom : (srv.clientPool c).roomId = [] := (st.agree c hlive.1 hlive.2).trans hhome
  obtain ⟨srv', hfree, hlists⟩ := h.freed c (st.pool.live_iff.mpr hlive)
  rw [clientFree, if_neg (not_not.mpr hroom)] at hfree
  cases hfree
  have hcount : (clientDrop srv c).roomCount = srv.roomCount := by
    rw [clientDrop]
    split <;> split <;> rfl
  obtain ⟨l, hl, hnot⟩ := hlists r (hcount ▸ hr)
  rw [Server.Listed, clientDrop_roomHeap, hfirst] at hl
  cases hl with
  | cons _ _ => exact hnot List.mem_cons_self

end Membership

/-! ## Steps and runs -/

section Runs
variable {host : Endian} {m : Main} {e : Event}

/-- A state in which the rooms are in order. -/
def Main.Orderly (m : Main) : Prop := ∃ free home, Settled m.srv free home ∧ m.srv.Quiet

/-- Who is in which room. -/
lemma Main.Orderly.membership (h : m.Orderly) : Membership m.srv := by
  obtain ⟨free, home, st, hq⟩ := h
  exact st.membership hq

/-- From a state in order every event leads to one, but a join of the room with the empty name. -/
lemma Main.Orderly.step (h : m.Orderly) (hposs : e.Possible m) (halloc : e.Allocates) :
    ∃ m', m.step host e = some m' ∧ (¬ e.JoinsUnnamed host m → m'.Orderly) ∧
      (e.JoinsUnnamed host m → ¬ Membership m'.srv) := by
  obtain ⟨free, home, st, hq⟩ := h
  obtain ⟨hno, m', free', home', hstep, st', same⟩ | ⟨hjoin, m', c, hstep, st', hlive, joined⟩ |
      ⟨hno, srv, c, buf, hstep, st₁, hlive, hheap⟩ := st.step_cases hposs halloc
  · exact ⟨m', hstep, fun _ => ⟨free', home', st', hq.of_same same⟩, fun h => absurd h hno⟩
  · refine ⟨m', hstep, fun h => absurd hjoin h, fun _ => ?_⟩
    exact st'.not_membership hlive (Function.update_self _ _ _) joined.first
  · have hq₁ : srv.Quiet := hq.of_same fun r _ => congrFun hheap r
    obtain ⟨srv', hleave, same⟩ := st₁.leaves_quiet hlive hq₁
    rw [hstep, hleave]
    refine ⟨_, rfl, fun _ => ?_, fun h => absurd h hno⟩
    exact ⟨_, _, st₁.leaves hlive hleave, hq₁.of_same same⟩

end Runs

/-- In every run in which no client joins the room with the empty name, the lists of the rooms are
in order, every event returns, and it keeps them in order exactly if it is no such join. -/
theorem room_membership_iff (host : Endian) (redis : Bool) (buf : Nat → UInt8) (events : List Event)
    (h : Along (Main.step host)
      (fun m e => e.Possible m ∧ e.Allocates ∧ ¬ e.JoinsUnnamed host m) ⟨serverInit redis, buf⟩
        events) :
    ∃ m, mainRun host redis buf events = some m ∧ Membership m.srv ∧
      ∀ e : Event, e.Possible m → e.Allocates →
        ∃ m', m.step host e = some m' ∧ (Membership m'.srv ↔ ¬ e.JoinsUnnamed host m) := by
  have init : (⟨serverInit redis, buf⟩ : Main).Orderly :=
    ⟨_, _, serverInit_settled redis, fun _ _ => ⟨rfl, rfl⟩⟩
  have keep : ∀ {m : Main} {e : Event}, m.Orderly →
      (e.Possible m ∧ e.Allocates ∧ ¬ e.JoinsUnnamed host m) →
      ∃ m', m.step host e = some m' ∧ m'.Orderly := by
    intro m e hm he
    obtain ⟨m', hstep, hkeep, -⟩ := hm.step he.1 he.2.1
    exact ⟨m', hstep, hkeep he.2.2⟩
  obtain ⟨m, hrun, hm⟩ := h.exists_run keep init
  refine ⟨m, hrun, hm.membership, fun e hposs halloc => ?_⟩
  obtain ⟨m', hstep, hkeep, hbreak⟩ := hm.step hposs halloc
  exact ⟨m', hstep, fun hmem hjoin => hbreak hjoin hmem, fun hno => (hkeep hno).membership⟩

/-- Readings of 0, every token valid, and memory available. -/
def Env.plain : Env := ⟨0, 0, fun _ => true, true⟩

/-- Two clients join a room, one leaves it and one is disconnected. -/
theorem room_membership_sample :
    ∃ m, mainRun .little false (fun _ => 0)
      [.accept 0 5, .accept 0 6, .received .plain 5 (message .little .auth [84]),
        .received .plain 6 (message .little .auth [84]),
        .received .plain 5 (message .little .joinRoom [97]),
        .received .plain 6 (message .little .joinRoom [97]),
        .received .plain 5 (message .little .leaveRoom []), .hangup 6] = some m ∧
      Membership m.srv := by
  obtain ⟨m, hrun, hm, -⟩ := room_membership_iff .little false (fun _ => 0)
    [.accept 0 5, .accept 0 6, .received .plain 5 (message .little .auth [84]),
      .received .plain 6 (message .little .auth [84]),
      .received .plain 5 (message .little .joinRoom [97]),
      .received .plain 6 (message .little .joinRoom [97]),
      .received .plain 5 (message .little .leaveRoom []), .hangup 6] (by decide +kernel)
  exact ⟨m, hrun, hm⟩

/-- A client that joins the room with the empty name twice is behind itself in the list, which
does not end. -/
theorem unnamed_room_cycles :
    ∃ m, mainRun .little false (fun _ => 0)
      [.accept 0 5, .received .plain 5 (message .little .auth [84]),
        .received .plain 5 (message .little .joinRoom []),
        .received .plain 5 (message .little .joinRoom [])] = some m ∧
      (m.srv.roomHeap 0).clients = some 0 ∧ (m.srv.clientPool 0).roomNext = some 0 ∧
      (∀ l, ¬ m.srv.Listed 0 l) ∧ ¬ Membership m.srv := by
  have e : (mainRun .little false (fun _ => 0)
      [.accept 0 5, .received .plain 5 (message .little .auth [84]),
        .received .plain 5 (message .little .joinRoom []),
        .received .plain 5 (message .little .joinRoom [])]).map
      (fun m => (m.srv.roomCount, (m.srv.roomHeap 0).clients, (m.srv.clientPool 0).roomNext)) =
      some (1, some 0, some 0) := by decide +kernel
  obtain ⟨m, hrun, hm⟩ := Option.map_eq_some_iff.mp e
  simp only [Prod.mk.injEq] at hm
  obtain ⟨hcount, hclients, hnext⟩ := hm
  have hends : ∀ l, ¬ m.srv.Listed 0 l := by
    intro l hl
    rw [Server.Listed, hclients] at hl
    refine hl.next_ne_self (p := 0) ?_ (congrArg some hnext)
    cases hl with
    | cons _ _ => exact List.mem_cons_self
  refine ⟨m, hrun, hclients, hnext, hends, fun h => ?_⟩
  obtain ⟨l, hl, -⟩ := h.list 0 (by rw [hcount]; decide)
  exact hends l hl

end RoboControl.Signaling
