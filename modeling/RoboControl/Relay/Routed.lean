import RoboControl.Relay.Table

/-!
# Sessions that share connection ids

What the end of one session of `src/core/rc_relay.c` does to the others. `route_remove` removes all
routes of a connection id, and the ids are the callers'. While no session that is destroyed or
purged shares an id with one that stays, every session in use keeps both its routes, and packets are
still forwarded into it (`relay_sessions_independent`).
-/

namespace RoboControl.Relay
open Base Proto Function

/-! ## Forwarding into a session -/

/-- `rc_relay_forward` forwards a packet and counts it for a session. -/
def ForwardsInto (host : Endian) (srv : RelayServer) (pkt : List UInt8) (now now' : UInt64)
    (session : Nat) : Prop :=
  ∃ srv' datagram, relayForward host srv pkt now now' true = some (0, srv', some datagram) ∧
    (srv'.sessions session).pktsForwarded ≠ (srv.sessions session).pktsForwarded

section Forward
variable {host : Endian} {srv srv' : RelayServer} {pkt : List UInt8} {now now' : UInt64}
  {sent : Bool}

/-- Only the session of the route is changed. -/
lemma relayForward_route {datagram : Option Datagram}
    (h : relayForward host srv pkt now now' sent = some (0, srv', datagram)) :
    ∃ r, routeLookup srv (hdrUnpack host pkt).2.connId = some r ∧
      ∀ i, i ≠ r.session → srv'.sessions i = srv.sessions i := by
  cases hr : routeLookup srv (hdrUnpack host pkt).2.connId with
  | none =>
    obtain ⟨ret, hne, h'⟩ := relayForward_of_no_route hr
    cases h.symm.trans h'
    exact absurd rfl hne
  | some r =>
    refine ⟨r, rfl, fun i hi => ?_⟩
    rw [relayForward_of_route hr] at h
    split at h
    · simp at h
    · obtain ⟨⟨ret, sess, n, datagram'⟩, -, he⟩ := Option.map_eq_some_iff.mp h
      cases he
      exact update_of_ne hi _ _

/-- What is forwarded depends on the route and its session only. -/
lemma relayForward_congr {srv₁ : RelayServer} {r : RelayRoute} {ret : Int}
    {datagram : Option Datagram} (hr : routeLookup srv (hdrUnpack host pkt).2.connId = some r)
    (hr₁ : routeLookup srv₁ (hdrUnpack host pkt).2.connId = some r)
    (hs : srv₁.sessions r.session = srv.sessions r.session)
    (h : relayForward host srv pkt now now' sent = some (ret, srv', datagram)) :
    ∃ srv₁', relayForward host srv₁ pkt now now' sent = some (ret, srv₁', datagram) ∧
      srv₁'.sessions r.session = srv'.sessions r.session := by
  rw [relayForward_of_route hr] at h
  rw [relayForward_of_route hr₁, hs]
  split at h
  · next hbad =>
    cases h
    exact ⟨srv₁, by rw [if_pos hbad], hs⟩
  · next hok =>
    obtain ⟨⟨ret', sess, n, datagram'⟩, hf, he⟩ := Option.map_eq_some_iff.mp h
    cases he
    rw [if_neg hok, hf]
    exact ⟨_, rfl, by simp [RelayServer.setSession]⟩

/-- Forwarding into a session goes on while the route and the session stay. -/
lemma ForwardsInto.congr {srv₁ : RelayServer} {session : Nat}
    (h : ForwardsInto host srv pkt now now' session)
    (hroute : ∀ r, routeLookup srv (hdrUnpack host pkt).2.connId = some r → r.session = session →
      routeLookup srv₁ (hdrUnpack host pkt).2.connId = some r)
    (hs : srv₁.sessions session = srv.sessions session) :
    ForwardsInto host srv₁ pkt now now' session := by
  obtain ⟨srv', datagram, h, hcount⟩ := h
  obtain ⟨r, hr, hother⟩ := relayForward_route h
  have hsession : r.session = session := by
    by_contra hne
    exact hcount (congrArg _ (hother session (Ne.symm hne)))
  subst hsession
  obtain ⟨srv₁', h₁, hs₁⟩ := relayForward_congr hr (hroute r hr rfl) hs h
  refine ⟨srv₁', datagram, h₁, ?_⟩
  rw [hs₁, hs]
  exact hcount

end Forward

/-! ## Closing sessions -/

section Close
variable {srv : RelayServer} {l : List Nat}

lemma routeLookup_eq (srv : RelayServer) (connId : UInt32) :
    routeLookup srv connId = (srv.routes (routeBucket connId)).find? (·.connId = connId) := rfl

/-- The routes of another id stay. -/
lemma routeLookup_routeRemove {connId connId' : UInt32} (h : connId ≠ connId') :
    routeLookup (routeRemove srv connId') connId = routeLookup srv connId := by
  rw [routeLookup_eq, routeLookup_eq, routeRemove]
  by_cases hb : routeBucket connId' = routeBucket connId
  · -- The removed routes are not those that are looked for.
    have hfind (l : List RelayRoute) : (l.filter (·.connId ≠ connId')).find? (·.connId = connId) =
        l.find? (·.connId = connId) := by
      rw [List.find?_filter]
      refine congrArg (List.find? · _) (funext fun r => ?_)
      by_cases hr : r.connId = connId
      · simp [hr, h]
      · simp [hr]
    simp only [hb, update_self, hfind]
  · simp only [update_of_ne (Ne.symm hb)]

/-- The routes of another session's ids stay. -/
lemma routeLookup_closeSession {i : Nat} {connId : UInt32} (h : connId ∉ (srv.sessions i).connIds) :
    routeLookup (closeSession srv i) connId = routeLookup srv connId := by
  simp only [RelaySession.connIds, List.mem_cons, List.not_mem_nil, or_false, not_or] at h
  have hroutes : (closeSession srv i).routes = (routeRemove (routeRemove srv
      (srv.sessions i).ingressConnId) (srv.sessions i).egressConnId).routes := rfl
  rw [routeLookup_eq, hroutes, ← routeLookup_eq, routeLookup_routeRemove h.2,
    routeLookup_routeRemove h.1]

lemma closeSession_connIds (srv : RelayServer) (i j : Nat) :
    ((closeSession srv i).sessions j).connIds = (srv.sessions j).connIds := by
  rw [closeSession_sessions]
  by_cases hj : j = i
  · subst hj
    rw [update_self]
    rfl
  · rw [update_of_ne hj]

/-- The routes of other ids stay. -/
lemma routeLookup_closeAll {connId : UInt32} (h : ∀ i ∈ l, connId ∉ (srv.sessions i).connIds) :
    routeLookup (closeAll srv l) connId = routeLookup srv connId := by
  induction l generalizing srv with
  | nil => rfl
  | cons i l ih =>
    obtain ⟨hi, hl⟩ := List.forall_mem_cons.mp h
    refine (ih fun j hj => ?_).trans (routeLookup_closeSession hi)
    rw [closeSession_connIds]
    exact hl j hj

/-- The routes that are left are those of no connection id of a closed session. -/
lemma mem_closeAll (ok : RoutesOk srv) {bucket : Nat} {r : RelayRoute} :
    r ∈ (closeAll srv l).routes bucket ↔
      r ∈ srv.routes bucket ∧ ∀ i ∈ l, r.connId ∉ (srv.sessions i).connIds := by
  induction l generalizing srv with
  | nil => simp [closeAll]
  | cons i l ih =>
    have h := ih (ok.close i)
    simp only [closeSession_connIds, mem_closeSession ok, and_assoc] at h
    rw [List.forall_mem_cons]
    exact h

/-- Closing sessions keeps the routes right. -/
lemma RoutesOk.closeAll (ok : RoutesOk srv) (l : List Nat) : RoutesOk (closeAll srv l) := by
  induction l generalizing srv with
  | nil => exact ok
  | cons i l ih => exact ih (ok.close i)

/-- The other sessions stay. -/
lemma closeAll_sessions {j : Nat} (hj : j ∉ l) : (closeAll srv l).sessions j = srv.sessions j := by
  induction l generalizing srv with
  | nil => rfl
  | cons i l ih =>
    rw [List.mem_cons, not_or] at hj
    refine (ih hj.2).trans ?_
    rw [closeSession_sessions, update_of_ne hj.1]

lemma closeAll_maxSessions (srv : RelayServer) (l : List Nat) :
    (closeAll srv l).maxSessions = srv.maxSessions := by
  induction l generalizing srv with
  | nil => rfl
  | cons i l ih => exact (ih (closeSession srv i)).trans rfl

/-- A session that is in use afterwards was not closed. -/
lemma not_mem_of_closeAll_active {j : Nat} (hj : (closeAll srv l).active j = true) : j ∉ l := by
  induction l generalizing srv with
  | nil => exact List.not_mem_nil
  | cons i l ih =>
    have hjl : j ∉ l := ih hj
    rw [List.mem_cons, not_or]
    refine ⟨?_, hjl⟩
    rintro rfl
    rw [RelayServer.active] at hj
    have hs : (Relay.closeAll (closeSession srv j) l).sessions j = (closeSession srv j).sessions
      j :=
      closeAll_sessions hjl
    rw [show Relay.closeAll srv (j :: l) = Relay.closeAll (closeSession srv j) l from rfl, hs,
      closeSession_sessions, update_self] at hj
    cases hj

end Close

/-! ## Sessions with both their routes -/

/-- For both connection ids of a session the table has a route to it. -/
def FullyRouted (srv : RelayServer) (session : Nat) : Prop :=
  ∀ connId ∈ (srv.sessions session).connIds,
    ∃ r ∈ srv.routes (routeBucket connId), r.connId = connId ∧ r.session = session

/-- No session that a call takes out of use shares a connection id with one that stays in use. -/
def RelayOp.Isolated (srv : RelayServer) (op : RelayOp) : Prop :=
  ∀ i ∈ op.removes srv, ∀ j < srv.maxSessions.toNat, srv.active j = true → j ∉ op.removes srv →
    ∀ connId ∈ (srv.sessions j).connIds, connId ∉ (srv.sessions i).connIds

-- the ids are looked through by the list and not over all of `UInt32`, which is finite
instance (srv : RelayServer) (op : RelayOp) : Decidable (op.Isolated srv) :=
  have (i j : Nat) :
      Decidable (∀ connId ∈ (srv.sessions j).connIds, connId ∉ (srv.sessions i).connIds) :=
    List.decidableBAll _ _
  inferInstanceAs (Decidable (∀ i ∈ op.removes srv, ∀ j < srv.maxSessions.toNat,
    srv.active j = true → j ∉ op.removes srv →
      ∀ connId ∈ (srv.sessions j).connIds, connId ∉ (srv.sessions i).connIds))

/-- A call that creates a session can allocate both its routes. -/
def RelayOp.Allocates : RelayOp → Prop
  | .create args => args.allocIngress = true ∧ args.allocEgress = true
  | _ => True

instance : DecidablePred RelayOp.Allocates
  | .create args => inferInstanceAs (Decidable (args.allocIngress = true ∧ args.allocEgress = true))
  | .destroy _ => inferInstanceAs (Decidable True)
  | .forward _ _ _ _ => inferInstanceAs (Decidable True)
  | .purge _ _ => inferInstanceAs (Decidable True)

/-- Every session in use has both its routes, and the routes are right. -/
structure Routed (srv : RelayServer) : Prop where
  ok : RoutesOk srv
  routed : ∀ j < srv.maxSessions.toNat, srv.active j = true → FullyRouted srv j

section Routed
variable {host : Endian} {srv srv' : RelayServer}

/-- A session gets both routes. -/
lemma Routed.create {args : SessionArgs} (inv : Routed srv) (hin : args.allocIngress = true)
    (heg : args.allocEgress = true) (created : Created host srv args srv') : Routed srv' := by
  refine ⟨inv.ok.create created, ?_⟩
  cases created with
  | full => exact inv.routed
  | slot i _ _ _ hsessions hmax _ _ hroutes =>
    intro j hj ha connId hc
    by_cases hji : j = i
    · subst hji
      rw [hsessions, update_self] at hc
      obtain rfl | rfl := List.mem_pair.mp hc
      · exact ⟨_, (hroutes _ _).mpr (.inr (.inl ⟨hin, rfl, rfl⟩)), rfl, rfl⟩
      · exact ⟨_, (hroutes _ _).mpr (.inl ⟨heg, rfl, rfl⟩), rfl, rfl⟩
    · rw [hmax] at hj
      rw [hsessions, update_of_ne hji] at hc
      rw [active_create hsessions, update_of_ne hji] at ha
      obtain ⟨r, hr, hrc, hrs⟩ := inv.routed j hj ha connId hc
      exact ⟨r, (hroutes _ _).mpr (.inr (.inr hr)), hrc, hrs⟩

/-- A table with the same sessions. -/
lemma Routed.same (inv : Routed srv) (same : SameTable srv srv') : Routed srv' := by
  refine ⟨inv.ok.same same, fun j hj ha connId hc => ?_⟩
  rw [same.maxSessions] at hj
  rw [same.active] at ha
  rw [RelaySession.connIds, (same.sessions j).ingress, (same.sessions j).egress] at hc
  rw [same.routes]
  exact inv.routed j hj ha connId hc

/-- A session keeps its routes if it shares no id with a closed one. -/
lemma FullyRouted.closeAll {l : List Nat} {j : Nat} (ok : RoutesOk srv) (hj : j ∉ l)
    (routed : FullyRouted srv j)
    (hdisjoint : ∀ i ∈ l, ∀ connId ∈ (srv.sessions j).connIds, connId ∉ (srv.sessions i).connIds) :
    FullyRouted (closeAll srv l) j := by
  intro connId hc
  rw [closeAll_sessions hj] at hc
  obtain ⟨r, hr, rfl, hrs⟩ := routed connId hc
  exact ⟨r, (mem_closeAll ok).mpr ⟨hr, fun i hi => hdisjoint i hi r.connId hc⟩, rfl, hrs⟩

/-- One operation. -/
lemma Routed.apply {op : RelayOp} (inv : Routed srv) (hmeets : op.Isolated srv ∧ op.Allocates)
    (h : op.apply host srv = some srv') : Routed srv' := by
  obtain ⟨hiso, halloc⟩ := hmeets
  obtain ⟨args, rfl, created⟩ | same | rfl := RelayOp.apply_cases h
  · exact inv.create halloc.1 halloc.2 created
  · exact inv.same same
  · refine ⟨inv.ok.closeAll _, fun j hj ha => ?_⟩
    have hjl := not_mem_of_closeAll_active ha
    rw [closeAll_maxSessions] at hj
    rw [RelayServer.active, closeAll_sessions hjl] at ha
    exact (inv.routed j hj ha).closeAll inv.ok hjl fun i hi => hiso i hi j hj ha hjl

/-- A call that destroys a session or purges some leaves each of the others in use, with both its
routes, and the packets that were forwarded into it still are. -/
def RelayOp.LeavesOthers (host : Endian) (srv : RelayServer) (op : RelayOp) : Prop :=
  ∀ j < srv.maxSessions.toNat, srv.active j = true → j ∉ op.removes srv →
    ∀ srv', op.apply host srv = some srv' →
      srv'.active j = true ∧ FullyRouted srv' j ∧
        ∀ pkt now now', (hdrUnpack host pkt).2.connId ∈ (srv.sessions j).connIds →
          ForwardsInto host srv pkt now now' j → ForwardsInto host srv' pkt now now' j

/-- A call of `rc_relay_session_destroy` or `rc_relay_purge_idle`. -/
def RelayOp.closes : RelayOp → Bool
  | .destroy _ => true
  | .purge _ _ => true
  | _ => false

/-- What a closing operation does. -/
lemma RelayOp.apply_closes {op : RelayOp} (hop : op.closes = true) :
    op.apply host srv = some (closeAll srv (op.removes srv)) := by
  cases op with
  | create args => cases hop
  | destroy sessionId => exact congrArg some (sessionDestroy_eq srv sessionId)
  | forward pkt now now' sent => cases hop
  | purge now timeoutMs =>
    exact congrArg (some ∘ Prod.snd) (purgeIdle_eq srv now timeoutMs)

/-- The others are left alone only by isolated operations. -/
lemma Routed.leavesOthers_iff {op : RelayOp} (inv : Routed srv) (hop : op.closes = true) :
    op.LeavesOthers host srv ↔ op.Isolated srv := by
  have happly : op.apply host srv = some (closeAll srv (op.removes srv)) := op.apply_closes hop
  constructor
  · intro hleaves i hi j hj ha hjl connId hc hci
    obtain ⟨-, routed, -⟩ := hleaves j hj ha hjl _ happly
    rw [← closeAll_sessions hjl] at hc
    obtain ⟨r, hr, rfl, -⟩ := routed connId hc
    exact ((mem_closeAll inv.ok).mp hr).2 i hi hci
  · intro hiso j hj ha hjl srv' h
    cases happly.symm.trans h
    have hs : (closeAll srv (op.removes srv)).sessions j = srv.sessions j := closeAll_sessions hjl
    have hdisjoint := fun i hi => hiso i hi j hj ha hjl
    refine ⟨?_, (inv.routed j hj ha).closeAll inv.ok hjl hdisjoint, fun pkt now now' hc hinto => ?_⟩
    · rw [RelayServer.active, hs]
      exact ha
    · refine hinto.congr (fun r hr _ => ?_) hs
      rw [routeLookup_closeAll fun i hi => hdisjoint i hi _ hc]
      exact hr

end Routed

/-- In every run in which no session that is destroyed or purged shares a connection id with one
that stays in use, and in which the routes can be allocated: every session in use has both its
routes; and the next call that destroys a session or purges some leaves the others alone if and only
if it, too, takes no session out of use that shares an id with one that stays. -/
theorem relay_sessions_independent (host : Endian) (maxSessions : UInt32) (ops : List RelayOp)
    (srv : RelayServer)
    (hmeets : Along (RelayOp.apply host) (fun srv op => op.Isolated srv ∧ op.Allocates)
      (relayCreate maxSessions) ops)
    (hrun : relayRun host (relayCreate maxSessions) ops = some srv) :
    (∀ j < srv.maxSessions.toNat, srv.active j = true → FullyRouted srv j) ∧
      ∀ op : RelayOp, op.closes = true → (op.LeavesOthers host srv ↔ op.Isolated srv) := by
  have init : Routed (relayCreate maxSessions) :=
    ⟨(fun _ _ hr => nomatch hr), fun _ _ ha => nomatch ha⟩
  have inv : Routed srv := hmeets.invariant Routed.apply init hrun
  exact ⟨inv.routed, fun op hop => inv.leavesOthers_iff hop⟩

/-- Two sessions without a common connection id, of which the first is destroyed. -/
def separateIdOps : List RelayOp :=
  [.create ⟨1, 2, none, none, 5, 1000, true, true⟩, .create ⟨3, 4, none, none, 5, 1000, true, true⟩,
    .destroy 1]

/-- The second session keeps both its routes. -/
theorem relay_sessions_independent_sample :
    ∃ srv, relayRun .little (relayCreate 2) separateIdOps = some srv ∧ FullyRouted srv 1 := by
  obtain ⟨srv, hrun, hmax, hactive⟩ : ∃ srv, relayRun .little (relayCreate 2) separateIdOps =
    some srv ∧
      srv.maxSessions = 2 ∧ srv.active 1 = true :=
    ⟨_, rfl, rfl, by decide +kernel⟩
  have h := relay_sessions_independent .little 2 separateIdOps srv (by decide +kernel) hrun
  exact ⟨srv, hrun, h.1 1 (by rw [hmax]; decide) hactive⟩

/-- Of two sessions with the common connection id 1 the first is destroyed. Before, packets of
connection 1 belong to the second session, which is in slot 1; afterwards this session is in use,
but has no route for them. -/
theorem relay_destroy_unroutes_other :
    ((relayRun .little (relayCreate 2) (sharedIdOps.take 2)).map fun srv =>
      (srv.active 1, (srv.sessions 1).connIds, routeLookup srv 1)) =
      some (true, [1, 3], some ⟨1, 1, true⟩) ∧
    ((relayRun .little (relayCreate 2) sharedIdOps).map fun srv =>
      (srv.active 1, (srv.sessions 1).connIds, routeLookup srv 1)) =
      some (true, [1, 3], none) := by
  decide +kernel

end RoboControl.Relay
