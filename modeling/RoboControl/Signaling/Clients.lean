import RoboControl.Signaling.Joining

/-!
# The client pool

A connection takes the first client of the free list, and a client that is freed leaves its room and
goes back to it. Both keep the rooms in order (`Settled.accept`, `Settled.frees`), which they are at
first (`serverInit_settled`).
-/

namespace RoboControl.Signaling
open Base Proto Connection Function

section Pool
variable {srv srv' : Server} {free : List Ptr} {home : Ptr → List UInt8} {c : Ptr}

/-- The links of the free list. -/
lemma freeLink_modify (srv : Server) (c : Ptr) (f : Client → Client) :
    (srv.modify c f).freeLink =
      update srv.freeLink c (some (f (srv.clientPool c)).hashNext) := by
  funext p
  by_cases hp : p = c
  · subst hp
    rw [update_self, Server.freeLink, clientPool_modify_self]
  · rw [update_of_ne hp, Server.freeLink, clientPool_modify_of_ne hp]
    rfl

/-- A client in use is mapped from its descriptor. -/
lemma PoolOk.fdMap_eq (pool : PoolOk srv free) (hlive : c < maxConnections ∧ c ∉ free) :
    srv.fdMap (srv.clientPool c).fd = some c := (pool.mapped _ c).mpr ⟨hlive.1, hlive.2, rfl⟩

/-- The client of a descriptor is in use. -/
lemma PoolOk.live_of_clientOf (pool : PoolOk srv free) {fd : Int} (h : srv.clientOf fd = some c) :
    c < maxConnections ∧ c ∉ free := by
  rw [Server.clientOf] at h
  split at h
  · obtain ⟨hlt, hnot, -⟩ := (pool.mapped fd c).mp h
    exact ⟨hlt, hnot⟩
  · cases h

/-- Clients in use have different descriptors. -/
lemma PoolOk.eq_of_fd (pool : PoolOk srv free) {d : Ptr} (hc : c < maxConnections ∧ c ∉ free)
    (hd : d < maxConnections ∧ d ∉ free) (h : (srv.clientPool c).fd = (srv.clientPool d).fd) :
    c = d := by
  have e := pool.fdMap_eq hc
  rw [h, pool.fdMap_eq hd] at e
  exact (Option.some.inj e).symm

/-- A client is put back. -/
lemma clientDrop_eq (h : 0 ≤ (srv.clientPool c).fd ∧ (srv.clientPool c).fd < maxConnections) :
    clientDrop srv c = { srv.modify c ({ · with hashNext := srv.freeClients }) with
      fdMap := update srv.fdMap (srv.clientPool c).fd none
      out := srv.out ++ [.close (srv.clientPool c).fd]
      activeClients := srv.activeClients - 1
      freeClients := some c } := by
  rw [clientDrop, if_pos h, if_pos h.1]
  rfl

/-- A client in use goes before the free list. -/
lemma PoolOk.push (pool : PoolOk srv free) (hlive : c < maxConnections ∧ c ∉ free)
    (hfree : srv'.freeClients = some c)
    (hmap : srv'.fdMap = update srv.fdMap (srv.clientPool c).fd none)
    (hlink : srv'.freeLink = update srv.freeLink c (some srv.freeClients))
    (hfd : ∀ d, (srv'.clientPool d).fd = (srv.clientPool d).fd) : PoolOk srv' (c :: free) := by
  refine ⟨?_, List.forall_mem_cons.mpr ⟨hlive.1, pool.bound⟩, fun fd d => ?_, fun fd d h => ?_⟩
  · rw [hfree, hlink]
    refine .cons (update_self _ _ _) (pool.chain.congr fun p hp => ?_)
    exact update_of_ne (ne_of_mem_of_not_mem hp hlive.2) _ _
  · rw [hmap, hfd, List.mem_cons, not_or]
    by_cases h : fd = (srv.clientPool c).fd
    · subst h
      rw [update_self]
      refine ⟨fun h => (by cases h), ?_⟩
      rintro ⟨hd, ⟨hne, hnot⟩, e⟩
      exact absurd (pool.eq_of_fd ⟨hd, hnot⟩ hlive e) hne
    · rw [update_of_ne h, pool.mapped]
      refine and_congr_right fun _ => ⟨?_, fun hd => ⟨hd.1.2, hd.2⟩⟩
      rintro ⟨hnot, e⟩
      refine ⟨⟨?_, hnot⟩, e⟩
      rintro rfl
      exact h e.symm
  · rw [hmap] at h
    by_cases hf : fd = (srv.clientPool c).fd
    · subst hf
      rw [update_self] at h
      cases h
    · rw [update_of_ne hf] at h
      exact pool.range fd d h

/-- A client that is in no room goes back to the free list. -/
lemma Ok.drop (ok : Ok srv free home) (hlive : c < maxConnections ∧ c ∉ free) (hc : home c = []) :
    Ok (clientDrop srv c) (c :: free) home := by
  rw [clientDrop_eq (ok.pool.range _ c (ok.pool.fdMap_eq hlive))]
  obtain ⟨buckets, table⟩ := ok.table
  obtain ⟨members, lists⟩ := ok.lists
  have hframe : ∀ {β : Type} (g : Client → β),
    (∀ client q, g { client with hashNext := q } = g client) →
      ∀ d, g ((srv.modify c ({ · with hashNext := srv.freeClients })).clientPool d) =
        g (srv.clientPool d) := fun g hg => client_frame g (hg _ _)
  refine ⟨ok.pool.push hlive rfl rfl (freeLink_modify srv c
    ({ · with hashNext := srv.freeClients }))
      (hframe Client.fd fun _ _ => rfl),
    ⟨buckets, table.congr rfl rfl (fun _ => rfl) (fun _ => rfl)⟩,
    ⟨members, lists.congr rfl fun _ d _ => hframe Client.roomNext (fun _ _ => rfl) d⟩, ?_⟩
  refine ⟨fun d hd => ?_, fun d hd => ?_, ok.homes.room⟩
  · obtain ⟨hlt, hnot⟩ := ok.homes.live d hd
    refine ⟨hlt, fun hmem => (List.mem_cons.mp hmem).elim (fun e => hd ?_) hnot⟩
    rw [e, hc]
  · exact (hframe Client.authenticated (fun _ _ => rfl) d).trans (ok.homes.authenticated d hd)

@[simp] lemma clientDrop_clientPool (srv : Server) (c : Ptr) :
    (clientDrop srv c).clientPool =
      update srv.clientPool c { srv.clientPool c with hashNext := srv.freeClients } := by
  rw [clientDrop]
  split <;> split <;> rfl

@[simp] lemma clientDrop_roomHeap (srv : Server) (c : Ptr) :
    (clientDrop srv c).roomHeap = srv.roomHeap := by
  rw [clientDrop]
  split <;> split <;> rfl

lemma clientDrop_roomId (srv : Server) (c d : Ptr) :
    ((clientDrop srv c).clientPool d).roomId = (srv.clientPool d).roomId := by
  rw [clientDrop_clientPool]
  by_cases h : d = c
  · rw [h, update_self]
  · rw [update_of_ne h]

/-- A client that is freed has left its room. -/
lemma Settled.frees (st : Settled srv free home) (hlive : c < maxConnections ∧ c ∉ free) :
    ∃ srv', clientFree srv c = some srv' ∧
      Settled srv' (c :: free) (update home c []) ∧
      SameUnnamed srv srv' := by
  have agree := st.agree c hlive.1 hlive.2
  -- Whoever is still in use keeps its record.
  have hagree : ∀ srv₁ : Server, (∀ d, (srv₁.clientPool d).roomId = (srv.clientPool d).roomId) →
      ∀ d, d < maxConnections → d ∉ c :: free →
        ((clientDrop srv₁ c).clientPool d).roomId = update home c [] d := by
    intro srv₁ hsame d hd hnot
    rw [List.mem_cons, not_or] at hnot
    rw [clientDrop_roomId, hsame, update_of_ne hnot.1]
    exact st.agree d hd hnot.2
  rw [clientFree]
  split
  · next hne =>
    obtain ⟨srv₁, hleave, off, ok₁, hrooms⟩ := st.leave_named (agree ▸ hne) agree
    have hlast := update_self c [] home
    refine ⟨clientDrop (redisUnregisterConnection srv₁ (srv₁.clientPool c).clientId) c, ?_, ?_, ?_⟩
    · rw [hleave]
      rfl
    · rw [redisUnregisterConnection_eq]
      refine ⟨(ok₁.setOut _).drop hlive hlast, hagree _ fun d => ?_⟩
      exact (congrArg Client.roomId (offLists_client off d) :)
    · rw [SameUnnamed, clientDrop_roomHeap, redisUnregisterConnection_eq]
      exact hrooms
  · next hnil =>
    rw [agree, not_not] at hnil
    refine ⟨clientDrop srv c, rfl, ⟨?_, hagree srv fun _ => rfl⟩, fun r _ => ?_⟩
    · rw [update_homeless hnil]
      exact st.drop hlive hnil
    · rw [clientDrop_roomHeap]

/-- The first free client gets a descriptor. -/
lemma PoolOk.pop (pool : PoolOk srv (c :: free)) {fd : Int} (hfd : 0 ≤ fd ∧ fd < maxConnections)
    (hopen : srv.fdMap fd = none) (hfree : srv'.freeClients = (srv.clientPool c).hashNext)
    (hmap : srv'.fdMap = update srv.fdMap fd (some c)) (hself : (srv'.clientPool c).fd = fd)
    (hother : ∀ d, d ≠ c → srv'.clientPool d = srv.clientPool d) : PoolOk srv' free := by
  have hnodup := List.nodup_cons.mp pool.chain.nodup
  obtain ⟨hlt, hbound⟩ := List.forall_mem_cons.mp pool.bound
  refine ⟨?_, hbound, fun fd' d => ?_, fun fd' d h => ?_⟩
  · obtain ⟨-, q, hq, hchain⟩ := pool.chain.of_cons
    rw [hfree, show (srv.clientPool c).hashNext = q from Option.some.inj hq]
    refine hchain.congr fun p hp => ?_
    rw [Server.freeLink, hother p (ne_of_mem_of_not_mem hp hnodup.1)]
    rfl
  · rw [hmap]
    by_cases hd : d = c
    · subst hd
      rw [hself]
      by_cases h : fd' = fd
      · subst h
        rw [update_self]
        exact ⟨fun _ => ⟨hlt, hnodup.1, rfl⟩, fun _ => rfl⟩
      · rw [update_of_ne h, pool.mapped]
        exact ⟨fun hd => absurd List.mem_cons_self hd.2.1, fun hd => absurd hd.2.2.symm h⟩
    · rw [hother d hd]
      have hmem : d ∉ c :: free ↔ d ∉ free := by rw [List.mem_cons, not_or, and_iff_right hd]
      by_cases h : fd' = fd
      · subst h
        rw [update_self]
        refine ⟨fun e => absurd (Option.some.inj e).symm hd, ?_⟩
        rintro ⟨hd', hnot, e⟩
        -- The descriptor would be open.
        have hmapped := (pool.mapped fd' d).mpr ⟨hd', hmem.mpr hnot, e⟩
        cases hopen.symm.trans hmapped
      · rw [update_of_ne h, pool.mapped, hmem]
  · rw [hmap] at h
    by_cases hf : fd' = fd
    · exact hf ▸ hfd
    · rw [update_of_ne hf] at h
      exact pool.range fd' d h

/-- A client that takes a new connection is in no room. -/
lemma Settled.alloc (st : Settled srv (c :: free) home) {fd : Int}
    (hfd : 0 ≤ fd ∧ fd < maxConnections) (hopen : srv.fdMap fd = none) {client : Client}
    (hclient : client.fd = fd) (hroom : client.roomId = []) {active peak : UInt32} :
    Settled { srv with
      clientPool := update srv.clientPool c client
      freeClients := (srv.clientPool c).hashNext
      fdMap := update srv.fdMap fd (some c)
      activeClients := active
      peakClients := peak } free home := by
  have hc : home c = [] := by
    by_contra hne
    exact (st.homes.live c hne).2 List.mem_cons_self
  obtain ⟨buckets, table⟩ := st.table
  obtain ⟨members, lists⟩ := st.lists
  refine ⟨⟨st.pool.pop hfd hopen rfl rfl ?_ fun d hd => update_of_ne hd _ _,
    ⟨buckets, table.congr rfl rfl (fun _ => rfl) (fun _ => rfl)⟩,
    ⟨members, lists.congr rfl fun r d hd => ?_⟩, fun d hd => ?_, fun d hd => ?_, st.homes.room⟩,
    fun d hd hnot => ?_⟩
  · exact (congrArg Client.fd (update_self c client srv.clientPool)).trans hclient
  · have hne : d ≠ c := ne_of_mem_of_not_mem hd (lists.not_mem hc r)
    exact congrArg Client.roomNext (update_of_ne hne client srv.clientPool)
  · obtain ⟨hlt, hnot⟩ := st.homes.live d hd
    exact ⟨hlt, fun h => hnot (List.mem_cons_of_mem c h)⟩
  · have hne : d ≠ c := by
      rintro rfl
      exact hd hc
    exact (congrArg Client.authenticated (update_of_ne hne client srv.clientPool)).trans
      (st.homes.authenticated d hd)
  · show (update srv.clientPool c client d).roomId = home d
    by_cases hdc : d = c
    · subst hdc
      rw [update_self, hroom, hc]
    · rw [update_of_ne hdc]
      refine st.agree d hd fun h => ?_
      exact (List.mem_cons.mp h).elim hdc hnot

/-- The outputs do not matter. -/
lemma Settled.setOut (st : Settled srv free home) (out : List Output) :
    Settled { srv with out } free home := ⟨st.toOk.setOut out, st.agree⟩

/-- A connection is accepted. -/
lemma Settled.accept (st : Settled srv free home) {fd : Int} (hfd : 0 ≤ fd)
    (hopen : srv.fdMap fd = none) (now : UInt64) :
    (∃ free', Settled (acceptClient srv now fd) free' home) ∧
      (acceptClient srv now fd).roomHeap = srv.roomHeap := by
  rw [acceptClient]
  split
  · exact ⟨⟨free, st.setOut _⟩, rfl⟩
  · next hlt =>
    rw [clientAlloc]
    cases hhead : srv.freeClients with
    | none => exact ⟨⟨free, st.setOut _⟩, rfl⟩
    | some c =>
      have hchain := st.pool.chain.head_eq
      rw [hhead] at hchain
      obtain ⟨rest, rfl⟩ : ∃ rest, free = c :: rest := by
        cases free with
        | nil => cases hchain
        | cons d rest =>
          cases hchain
          exact ⟨rest, rfl⟩
      have hlt' : fd < maxConnections := lt_of_not_ge hlt
      simp only [if_pos hlt']
      exact ⟨⟨rest, st.alloc ⟨hfd, hlt'⟩ hopen rfl rfl⟩, rfl⟩

/-! ## The first state -/

/-- A new server is settled. -/
lemma serverInit_settled (redis : Bool) :
    Settled (serverInit redis) (List.range maxConnections) fun _ => [] := by
  refine ⟨⟨⟨?_, fun c hc => List.mem_range.mp hc, fun fd c => ?_, fun fd c h => (by cases h)⟩,
    ⟨fun _ => [], ⟨⟨fun _ => .nil, fun _ _ _ => List.disjoint_nil_left _⟩, fun b r => ?_,
      fun r r' hr => absurd hr (Nat.not_lt_zero r), fun r _ => rfl⟩⟩,
    ⟨fun _ => [], ⟨⟨fun _ => .nil, fun _ _ _ => List.disjoint_nil_left _⟩, fun r c => ?_,
      fun r hr => absurd rfl hr⟩⟩,
    ⟨fun c hc => absurd rfl hc, fun c hc => absurd rfl hc, fun c hc => absurd rfl hc⟩⟩,
    fun c _ _ => rfl⟩
  · rw [List.range_eq_range']
    exact chain_range (fun i _ => rfl) 0
  · refine ⟨fun h => (by cases h), ?_⟩
    rintro ⟨hlt, hnot, -⟩
    exact absurd (List.mem_range.mpr hlt) hnot
  · exact ⟨fun h => absurd h List.not_mem_nil, fun h => absurd h.1 (Nat.not_lt_zero r)⟩
  · exact ⟨fun h => absurd h List.not_mem_nil, fun h => absurd rfl h.1⟩

end Pool

end RoboControl.Signaling
