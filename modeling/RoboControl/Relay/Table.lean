import RoboControl.Base.Run
import RoboControl.Base.Slots
import RoboControl.Relay.Forward

/-!
# Relay sessions and routes

Model of the rest of `src/core/rc_relay.c`: `relayCreate` (C `rc_relay_create`), `routeAdd` and
`routeRemove` (C `route_add`, `route_remove`), `sessionCreate` (C `rc_relay_session_create`),
`sessionDestroy` (C `rc_relay_session_destroy`) and `purgeIdle` (C `rc_relay_purge_idle`), and runs
of these and of `relayForward`. The clock and whether a route can be allocated are arguments.

`TableOk` is what holds of the sessions and the routes after every run (`relay_table_ok`).
-/

namespace RoboControl.Relay
open Base Proto Function

/-! ## Operations -/

/-- Default number of sessions (C `RC_RELAY_MAX_SESSIONS`). -/
def relayMaxSessions : UInt32 := 100000

/-- Bandwidth of a session (C `RC_RELAY_BW_LIMIT_BPS`). -/
def relayBwLimitBps : UInt64 := 50 * 1024 * 1024 / 8

/-- A session of zero bytes, as `calloc` and `memset` leave it. -/
def RelaySession.zero : RelaySession where
  sessionId := 0
  ingressConnId := 0
  egressConnId := 0
  ingressAddr := []
  egressAddr := []
  relayFd := 0
  streams _ := ⟨0, 0, 0, false⟩
  streamCount := 0
  bwBytesThisSec := 0
  bwLimitBps := 0
  bwWindowStartMs := 0
  active := false
  createdMs := 0
  lastActivityMs := 0
  bytesForwarded := 0
  pktsForwarded := 0
  bytesDropped := 0

/-- A new server (C `rc_relay_create`). -/
def relayCreate (maxSessions : UInt32) : RelayServer where
  routes _ := []
  sessions _ := .zero
  sessionCount := 0
  maxSessions := if maxSessions = 0 then relayMaxSessions else maxSessions
  totalForwarded := 0
  totalDropped := 0
  totalSessions := 0

/-- The bucket of a connection id. -/
def routeBucket (connId : UInt32) : Nat := (relayHash connId).toNat % relayRouteBuckets

/-- Add a route before the others of its bucket (C `route_add`). -/
def routeAdd (alloc : Bool) (srv : RelayServer) (connId : UInt32) (session : Nat) (ingress : Bool) :
    RelayServer :=
  if alloc = false then srv
  else
    let bucket := routeBucket connId
    { srv with
      routes := update srv.routes bucket (⟨connId, session, ingress⟩ :: srv.routes bucket) }

/-- Remove all routes of a connection id (C `route_remove`). -/
def routeRemove (srv : RelayServer) (connId : UInt32) : RelayServer :=
  let bucket := routeBucket connId
  { srv with
    routes := update srv.routes bucket ((srv.routes bucket).filter (·.connId ≠ connId)) }

/-- The bytes that are copied of an address: as many as an IPv4 address has, or as an
IPv6 address. -/
def copyAddr (host : Endian) : Option SockAddr → SockAddr
  | none => []
  | some addr => addr.take (if load host (addr.take 2) = 2 then 16 else 28)

/-- The free slot that a new session gets. -/
def freeSlot (srv : RelayServer) : Option Nat :=
  (List.range srv.maxSessions.toNat).find? fun i => !(srv.sessions i).active

/-- Arguments of `rc_relay_session_create`, the time, and whether its routes can be allocated. -/
structure SessionArgs where
  ingressConn : UInt32
  egressConn : UInt32
  ingressAddr : Option SockAddr
  egressAddr : Option SockAddr
  relayFd : Int
  now : UInt64
  allocIngress : Bool
  allocEgress : Bool

/-- The session that is created as the `n`-th. -/
def SessionArgs.session (host : Endian) (args : SessionArgs) (n : UInt64) : RelaySession :=
  { RelaySession.zero with
    sessionId := n.toUInt32
    ingressConnId := args.ingressConn
    egressConnId := args.egressConn
    relayFd := args.relayFd
    active := true
    createdMs := args.now
    lastActivityMs := args.now
    bwLimitBps := relayBwLimitBps
    bwWindowStartMs := args.now
    ingressAddr := copyAddr host args.ingressAddr
    egressAddr := copyAddr host args.egressAddr }

/-- Create a session (C `rc_relay_session_create`): its id, or 0. -/
def sessionCreate (host : Endian) (srv : RelayServer) (args : SessionArgs) : UInt32 × RelayServer :=
  if srv.sessionCount ≥ srv.maxSessions then (0, srv)
  else
    match freeSlot srv with
    | none => (0, srv)
    | some i =>
      let sess := args.session host (srv.totalSessions + 1)
      let srv := { srv.setSession i sess with
        totalSessions := srv.totalSessions + 1, sessionCount := srv.sessionCount + 1 }
      let srv := routeAdd args.allocIngress srv args.ingressConn i true
      let srv := routeAdd args.allocEgress srv args.egressConn i false
      (sess.sessionId, srv)

/-- Take a session out of use, with the routes of its connection ids. -/
def closeSession (srv : RelayServer) (i : Nat) : RelayServer :=
  let sess := srv.sessions i
  let srv := routeRemove srv sess.ingressConnId
  let srv := routeRemove srv sess.egressConnId
  { srv.setSession i { sess with active := false } with sessionCount := srv.sessionCount - 1 }

/-- The session that is destroyed for an id: the first that is active and has it. -/
def findSession (srv : RelayServer) (sessionId : UInt32) : Option Nat :=
  (List.range srv.maxSessions.toNat).find? fun i =>
    (srv.sessions i).active && (srv.sessions i).sessionId = sessionId

/-- Destroy a session (C `rc_relay_session_destroy`). -/
def sessionDestroy (srv : RelayServer) (sessionId : UInt32) : RelayServer :=
  match findSession srv sessionId with
  | none => srv
  | some i => closeSession srv i

/-- A session that is in use and has been idle for too long. -/
def RelaySession.idle (now timeoutMs : UInt64) (sess : RelaySession) : Bool :=
  sess.active && now - sess.lastActivityMs > timeoutMs

/-- The body of the loop of `rc_relay_purge_idle`, with the count `purged`. -/
def purgeStep (now timeoutMs : UInt64) : Nat × RelayServer → Nat → Nat × RelayServer
  | (purged, srv), i =>
    if (srv.sessions i).idle now timeoutMs then (purged + 1, closeSession srv i) else (purged, srv)

/-- Take idle sessions out of use (C `rc_relay_purge_idle`): how many there were. -/
def purgeIdle (srv : RelayServer) (now timeoutMs : UInt64) : Nat × RelayServer :=
  (List.range srv.maxSessions.toNat).foldl (purgeStep now timeoutMs) (0, srv)

/-- A call on a server. -/
inductive RelayOp where
  | create (args : SessionArgs)
  | destroy (sessionId : UInt32)
  | forward (pkt : List UInt8) (now now' : UInt64) (sent : Bool)
  | purge (now timeoutMs : UInt64)

/-- Make a call; `none` if a packet overruns the buffer of `rc_relay_forward`. -/
def RelayOp.apply (host : Endian) (srv : RelayServer) : RelayOp → Option RelayServer
  | .create args => some (sessionCreate host srv args).2
  | .destroy sessionId => some (sessionDestroy srv sessionId)
  | .forward pkt now now' sent => (relayForward host srv pkt now now' sent).map (·.2.1)
  | .purge now timeoutMs => some (purgeIdle srv now timeoutMs).2

/-- Make calls in order. -/
def relayRun (host : Endian) (srv : RelayServer) (ops : List RelayOp) : Option RelayServer :=
  ops.foldlM (RelayOp.apply host) srv

/-! ## Effect on sessions and routes -/

/-- A slot is in use. -/
def RelayServer.active (srv : RelayServer) (i : Nat) : Bool := (srv.sessions i).active

/-- The connection ids of a session. -/
def RelaySession.connIds (sess : RelaySession) : List UInt32 :=
  [sess.ingressConnId, sess.egressConnId]

/-- What the routing table and the account of sessions depend on is the same in two sessions. -/
structure RelaySession.Same (sess sess' : RelaySession) : Prop where
  sessionId : sess'.sessionId = sess.sessionId
  ingress : sess'.ingressConnId = sess.ingressConnId
  egress : sess'.egressConnId = sess.egressConnId
  active : sess'.active = sess.active

/-- Nothing happened. -/
lemma RelaySession.Same.refl (sess : RelaySession) : sess.Same sess := ⟨rfl, rfl, rfl, rfl⟩

/-- One after the other. -/
lemma RelaySession.Same.trans {sess sess₁ sess₂ : RelaySession} (h : sess.Same sess₁)
    (h' : sess₁.Same sess₂) : sess.Same sess₂ :=
  ⟨h'.sessionId.trans h.sessionId, h'.ingress.trans h.ingress, h'.egress.trans h.egress,
    h'.active.trans h.active⟩

/-- `bw_check` keeps the ids and the flag of the session. -/
lemma bwCheck_same (now : UInt64) (sess : RelaySession) (pktLen : UInt32) :
    sess.Same (bwCheck now sess pktLen).2 := by
  rw [bwCheck]
  split <;> split <;> exact ⟨rfl, rfl, rfl, rfl⟩

/-- Counting a packet keeps the ids and the flag. -/
lemma countStream_same (sess : RelaySession) (flags : UInt16) (pktLen : Nat) :
    sess.Same (sess.countStream flags pktLen) := by
  rw [RelaySession.countStream]
  split
  · dsimp only
    split <;> exact ⟨rfl, rfl, rfl, rfl⟩
  · exact .refl sess

/-- Two servers with the same routes and, up to statistics, the same sessions. -/
structure SameTable (srv srv' : RelayServer) : Prop where
  routes : srv'.routes = srv.routes
  sessions : ∀ i, (srv.sessions i).Same (srv'.sessions i)
  sessionCount : srv'.sessionCount = srv.sessionCount
  maxSessions : srv'.maxSessions = srv.maxSessions
  totalSessions : srv'.totalSessions = srv.totalSessions

/-- Nothing happened. -/
lemma SameTable.refl (srv : RelayServer) : SameTable srv srv :=
  ⟨rfl, fun _ => .refl _, rfl, rfl, rfl⟩

variable {srv srv' : RelayServer} {i : Nat}

/-- One session changes, but not its ids and its flag. -/
lemma sameTable_setSession {sess : RelaySession}
    (hsess : (srv.sessions i).Same sess) (hroutes : srv'.routes = srv.routes)
    (hsessions : srv'.sessions = update srv.sessions i sess)
    (hcount : srv'.sessionCount = srv.sessionCount) (hmax : srv'.maxSessions = srv.maxSessions)
    (htotal : srv'.totalSessions = srv.totalSessions) : SameTable srv srv' := by
  refine ⟨hroutes, fun j => ?_, hcount, hmax, htotal⟩
  rw [hsessions]
  by_cases hj : j = i
  · subst hj
    rwa [update_self]
  · rw [update_of_ne hj]
    exact .refl _

/-! ## Forwarding -/

/-- What `rc_relay_forward` does to the session of a route: the code, the session, the bytes that
the server counts, and the datagram. -/
def forwardBy (host : Endian) (pkt : List UInt8) (now now' : UInt64) (sent ingress : Bool)
    (sess : RelaySession) : Option (Int × RelaySession × UInt64 × Option Datagram) :=
  if sess.active = false then some (-2, sess, 0, none)
  else
    let (ok, sess) := bwCheck now sess pkt.length.toUInt32
    if ok = false then some (-1, sess, 0, none)
    else if headerSize + maxPayload < pkt.length then none
    else
      let datagram : Datagram := {
        fd := sess.relayFd
        dst := if ingress then sess.egressAddr else sess.ingressAddr
        bytes :=
          rewriteConnId host (if ingress then sess.egressConnId else sess.ingressConnId) pkt }
      if sent = false then some (-1, sess, 0, some datagram)
      else
        let sess := { sess with
          bytesForwarded := sess.bytesForwarded + pkt.length.toUInt64
          pktsForwarded := sess.pktsForwarded + 1
          lastActivityMs := now' }
        some (0, sess.countStream (hdrUnpack host pkt).2.flags pkt.length, pkt.length.toUInt64,
          some datagram)

section Forward
variable {host : Endian} {srv srv' : RelayServer} {pkt : List UInt8} {now now' : UInt64}
  {sent : Bool}
  {ret : Int} {datagram : Option Datagram}

/-- Forwarding a packet keeps the ids and the flag. -/
lemma forwardBy_same {ingress : Bool} {sess sess' : RelaySession} {n : UInt64}
    (h : forwardBy host pkt now now' sent ingress sess = some (ret, sess', n, datagram)) :
    sess.Same sess' := by
  have hbw := bwCheck_same now sess pkt.length.toUInt32
  rw [forwardBy] at h
  split at h
  · cases h
    exact .refl sess
  · dsimp only at h
    split at h
    · cases h
      exact hbw
    · split at h
      · cases h
      · split at h
        · cases h
          exact hbw
        · cases h
          refine hbw.trans (.trans ?_ (countStream_same _ _ _))
          exact ⟨rfl, rfl, rfl, rfl⟩

/-- A packet without a route is refused. -/
lemma relayForward_of_no_route (hr : routeLookup srv (hdrUnpack host pkt).2.connId = none) :
    ∃ ret, ret ≠ 0 ∧ relayForward host srv pkt now now' sent = some (ret, srv, none) := by
  by_cases hlen : pkt.length < headerSize
  · exact ⟨-1, by decide, relayForward_of_refused (if_pos hlen)⟩
  by_cases hret : (hdrUnpack host pkt).1 ≠ 0
  · exact ⟨-1, by decide, relayForward_of_refused ((if_neg hlen).trans (if_pos hret))⟩
  · refine ⟨-2, by decide, relayForward_of_refused ?_⟩
    simp only [relayForwardTraced, if_neg hlen, if_neg hret, hr]

/-- With a route, the packet is malformed or goes through the session of the route. -/
lemma relayForward_of_route {r : RelayRoute}
    (hr : routeLookup srv (hdrUnpack host pkt).2.connId = some r) :
    relayForward host srv pkt now now' sent =
      if pkt.length < headerSize ∨ (hdrUnpack host pkt).1 ≠ 0 then some (-1, srv, none)
      else (forwardBy host pkt now now' sent r.isIngress (srv.sessions r.session)).map
        fun (ret, sess, n, datagram) =>
          (ret, { srv.setSession r.session sess with totalForwarded := srv.totalForwarded + n },
            datagram) := by
  have hself : { srv.setSession r.session (srv.sessions r.session) with
      totalForwarded := srv.totalForwarded + 0 } = srv := by
    rw [RelayServer.setSession, update_eq_self, UInt64.add_zero]
  by_cases hlen : pkt.length < headerSize
  · rw [if_pos (.inl hlen)]
    exact relayForward_of_refused (if_pos hlen)
  by_cases hret : (hdrUnpack host pkt).1 ≠ 0
  · rw [if_pos (.inr hret)]
    exact relayForward_of_refused ((if_neg hlen).trans (if_pos hret))
  have htraced := relayForwardTraced.eq_1 host srv pkt now now' sent
  simp only [if_neg hlen, if_neg hret, hr] at htraced
  rw [if_neg (not_or.mpr ⟨hlen, hret⟩), forwardBy]
  split
  · next hactive =>
    rw [relayForward_of_refused (htraced.trans (if_pos hactive)), Option.map_some]
    dsimp only
    rw [hself]
  · next hactive =>
    replace htraced := htraced.trans (if_neg hactive)
    dsimp only
    split
    · next hbw =>
      rw [relayForward_of_refused (htraced.trans (if_pos hbw)), Option.map_some]
      dsimp only
      rw [UInt64.add_zero]
      rfl
    · next hbw =>
      replace htraced := htraced.trans (if_neg hbw)
      cases sent with
      | false =>
        rw [relayForward_of_copied htraced]
        split
        · rfl
        · rw [if_pos rfl, Option.map_some]
          dsimp only
          rw [UInt64.add_zero]
          rfl
      | true =>
        rw [relayForward_of_copied htraced]
        split
        · rfl
        · rw [if_neg Bool.true_eq_false.mp, Option.map_some]
          simp only [RelayServer.setSession, update_idem]

/-- `rc_relay_forward` only counts. -/
lemma relayForward_same (h : relayForward host srv pkt now now' sent = some (ret, srv', datagram)) :
    SameTable srv srv' := by
  cases hr : routeLookup srv (hdrUnpack host pkt).2.connId with
  | none =>
    obtain ⟨ret', -, h'⟩ := relayForward_of_no_route hr
    cases h.symm.trans h'
    exact .refl srv
  | some r =>
    rw [relayForward_of_route hr] at h
    split at h
    · cases h
      exact .refl srv
    · obtain ⟨⟨ret', sess, n, datagram'⟩, hf, he⟩ := Option.map_eq_some_iff.mp h
      cases he
      exact sameTable_setSession (forwardBy_same hf) rfl rfl rfl rfl rfl

end Forward

/-! ## The routing table -/

/-- A route is in the bucket of its connection id, and belongs to a session in use of which that is
the ingress or the egress id. -/
structure RouteOk (srv : RelayServer) (bucket : Nat) (r : RelayRoute) : Prop where
  bucket : bucket = routeBucket r.connId
  lt : r.session < srv.maxSessions.toNat
  active : srv.active r.session = true
  connId : r.connId = if r.isIngress then (srv.sessions r.session).ingressConnId
    else (srv.sessions r.session).egressConnId

/-- Every route of the table is such a route. -/
def RoutesOk (srv : RelayServer) : Prop := ∀ bucket, ∀ r ∈ srv.routes bucket, RouteOk srv bucket r

variable {bucket : Nat} {r : RelayRoute}

/-- A route is one of its session's ids. -/
lemma RouteOk.mem_connIds
    (ok : RouteOk srv bucket r) : r.connId ∈ (srv.sessions r.session).connIds := by
  rw [ok.connId, RelaySession.connIds]
  split <;> simp

/-- A route stays right while its session keeps its ids and stays in use. -/
lemma RouteOk.congr
    (ok : RouteOk srv bucket r) (hmax : srv'.maxSessions = srv.maxSessions)
    (hsess : (srv.sessions r.session).Same (srv'.sessions r.session)) : RouteOk srv' bucket r := by
  refine ⟨ok.bucket, ?_, ?_, ?_⟩
  · rw [hmax]
    exact ok.lt
  · rw [RelayServer.active, hsess.active]
    exact ok.active
  · rw [hsess.ingress, hsess.egress]
    exact ok.connId

/-- The routes after `route_add`. -/
lemma mem_routeAdd {alloc : Bool} {connId : UInt32} {session : Nat}
    {ingress : Bool} :
    r ∈ (routeAdd alloc srv connId session ingress).routes bucket ↔
      (alloc = true ∧ r = ⟨connId, session, ingress⟩ ∧ bucket = routeBucket connId) ∨
        r ∈ srv.routes bucket := by
  cases alloc with
  | false => simp [routeAdd]
  | true =>
    by_cases hb : bucket = routeBucket connId
    · subst hb
      simp [routeAdd]
    · simp [routeAdd, hb]

/-- The routes after `route_remove`. -/
lemma mem_routeRemove {connId : UInt32} :
    r ∈ (routeRemove srv connId).routes bucket ↔
      r ∈ srv.routes bucket ∧ (bucket = routeBucket connId → r.connId ≠ connId) := by
  by_cases hb : bucket = routeBucket connId
  · subst hb
    simp [routeRemove]
  · simp [routeRemove, hb]

/-- Closing a session removes the routes of its connection ids, whosever they are. -/
lemma mem_closeSession (ok : RoutesOk srv) :
    r ∈ (closeSession srv i).routes bucket ↔
      r ∈ srv.routes bucket ∧ r.connId ∉ (srv.sessions i).connIds := by
  have hmem : r ∈ (closeSession srv i).routes bucket ↔
      r ∈ (routeRemove (routeRemove srv (srv.sessions i).ingressConnId)
        (srv.sessions i).egressConnId).routes bucket := Iff.rfl
  rw [hmem, mem_routeRemove, mem_routeRemove, and_assoc]
  refine and_congr_right fun hr => ?_
  have hbucket := (ok bucket r hr).bucket
  constructor
  · rintro ⟨hin, heg⟩ hc
    obtain hc | hc := List.mem_pair.mp hc
    · exact hin (hc ▸ hbucket) hc
    · exact heg (hc ▸ hbucket) hc
  · intro hc
    simp only [RelaySession.connIds, List.mem_cons, List.not_mem_nil, or_false, not_or] at hc
    exact ⟨fun _ => hc.1, fun _ => hc.2⟩

lemma closeSession_sessions (srv : RelayServer) (i : Nat) :
    (closeSession srv i).sessions =
      update srv.sessions i { srv.sessions i with active := false } := rfl

/-- A session that is closed is not active. -/
lemma closeSession_active (srv : RelayServer) (i : Nat) :
    (closeSession srv i).active = update srv.active i false := by
  funext j
  rw [RelayServer.active, closeSession_sessions]
  by_cases hj : j = i
  · subst hj
    rw [update_self, update_self]
  · rw [update_of_ne hj, update_of_ne hj]
    rfl

/-- Closing a session keeps the routes right. -/
lemma RoutesOk.close (ok : RoutesOk srv) (i : Nat) :
    RoutesOk (closeSession srv i) := by
  intro bucket r hr
  obtain ⟨hr', hc⟩ := (mem_closeSession ok).mp hr
  have hne : r.session ≠ i := by
    rintro rfl
    exact hc (ok bucket r hr').mem_connIds
  refine (ok bucket r hr').congr rfl ?_
  rw [closeSession_sessions, update_of_ne hne]
  exact .refl _

/-- A table with the same sessions. -/
lemma RoutesOk.same (ok : RoutesOk srv) (same : SameTable srv srv') :
    RoutesOk srv' := by
  intro bucket r hr
  rw [same.routes] at hr
  exact (ok bucket r hr).congr same.maxSessions (same.sessions r.session)

/-! ## Creation -/

/-- What a call of `rc_relay_session_create` does: nothing, or a new session in a free slot. -/
inductive Created (host : Endian) (srv : RelayServer) (args : SessionArgs) :
    RelayServer → Prop where
  | full : Created host srv args srv
  | slot {srv' : RelayServer} (i : Nat) :
    i < srv.maxSessions.toNat →
    srv.active i = false →
    srv.sessionCount < srv.maxSessions →
    srv'.sessions = update srv.sessions i (args.session host (srv.totalSessions + 1)) →
    srv'.maxSessions = srv.maxSessions →
    srv'.totalSessions = srv.totalSessions + 1 →
    srv'.sessionCount = srv.sessionCount + 1 →
    (∀ bucket r, r ∈ srv'.routes bucket ↔
      (args.allocEgress = true ∧ r = ⟨args.egressConn, i, false⟩ ∧
        bucket = routeBucket args.egressConn) ∨
      (args.allocIngress = true ∧ r = ⟨args.ingressConn, i, true⟩ ∧
        bucket = routeBucket args.ingressConn) ∨ r ∈ srv.routes bucket) →
    Created host srv args srv'

section RouteAdd
variable (alloc : Bool) (srv : RelayServer) (connId : UInt32) (session : Nat) (ingress : Bool)

@[simp] lemma routeAdd_sessions :
    (routeAdd alloc srv connId session ingress).sessions = srv.sessions := by
  cases alloc <;> rfl

@[simp] lemma routeAdd_maxSessions :
    (routeAdd alloc srv connId session ingress).maxSessions = srv.maxSessions := by
  cases alloc <;> rfl

@[simp] lemma routeAdd_totalSessions :
    (routeAdd alloc srv connId session ingress).totalSessions = srv.totalSessions := by
  cases alloc <;> rfl

@[simp] lemma routeAdd_sessionCount :
    (routeAdd alloc srv connId session ingress).sessionCount = srv.sessionCount := by
  cases alloc <;> rfl

end RouteAdd

/-- What `rc_relay_session_create` does. -/
lemma sessionCreate_created (host : Endian) (srv : RelayServer) (args : SessionArgs) :
    Created host srv args (sessionCreate host srv args).2 := by
  rw [sessionCreate]
  split
  · exact .full
  · next hroom =>
    split
    · exact .full
    · next i hslot =>
      have hi := List.mem_range.mp (List.mem_of_find?_eq_some hslot)
      have hfree : (srv.sessions i).active = false := by simpa using List.find?_some hslot
      refine .slot i hi hfree (UInt32.not_le.mp hroom) ?_ ?_ ?_ ?_ fun bucket r => ?_
      · simp [RelayServer.setSession]
      · simp [RelayServer.setSession]
      · simp
      · simp
      · rw [mem_routeAdd, mem_routeAdd]
        rfl

variable {host : Endian} {args : SessionArgs}

/-- A session that keeps its slot when another is created. -/
lemma RoutesOk.create
    (ok : RoutesOk srv) (created : Created host srv args srv') : RoutesOk srv' := by
  cases created with
  | full => exact ok
  | slot i hi hfree _ hsessions hmax _ _ hroutes =>
    have hself : srv'.sessions i = args.session host (srv.totalSessions + 1) := by
      rw [hsessions, update_self]
    have hactive : srv'.active i = true := by
      rw [RelayServer.active, hself]
      rfl
    have hi' : i < srv'.maxSessions.toNat := by rwa [hmax]
    intro bucket r hr
    obtain ⟨-, rfl, hb⟩ | ⟨-, rfl, hb⟩ | hr := (hroutes bucket r).mp hr
    · refine ⟨hb, hi', hactive, ?_⟩
      rw [hself]
      rfl
    · refine ⟨hb, hi', hactive, ?_⟩
      rw [hself]
      rfl
    · -- The slot was free, so no old route belongs to it.
      have hne : r.session ≠ i := by
        rintro rfl
        exact Bool.noConfusion (hfree.symm.trans (ok bucket r hr).active)
      refine (ok bucket r hr).congr hmax ?_
      rw [hsessions, update_of_ne hne]
      exact .refl _

/-! ## The sessions -/

/-- What holds of the sessions and the routes of a server. -/
structure TableOk (srv : RelayServer) : Prop where
  count : srv.sessionCount.toNat = (List.range srv.maxSessions.toNat).countP srv.active
  le : srv.sessionCount ≤ srv.maxSessions
  idPos : ∀ i < srv.maxSessions.toNat, srv.active i = true → (srv.sessions i).sessionId ≠ 0
  idInj : ∀ i < srv.maxSessions.toNat, ∀ j < srv.maxSessions.toNat, srv.active i = true →
    srv.active j = true → (srv.sessions i).sessionId = (srv.sessions j).sessionId → i = j
  routes : RoutesOk srv

/-- The table of a server, whose ids are not greater than the number of sessions created so far. -/
structure TableInv (srv : RelayServer) : Prop extends TableOk srv where
  idLe : ∀ i < srv.maxSessions.toNat, srv.active i = true →
    (srv.sessions i).sessionId.toNat ≤ srv.totalSessions.toNat

/-- The sessions in use. -/
def RelayServer.inUse (srv : RelayServer) : Set Nat :=
  {i | i < srv.maxSessions.toNat ∧ srv.active i = true}

/-- The ids of the sessions are those that were given out. -/
lemma TableInv.numbered (inv : TableInv srv) :
    Numbered srv.inUse (fun i => (srv.sessions i).sessionId.toNat) srv.totalSessions.toNat := by
  refine ⟨fun i hi => ?_, fun i hi => inv.idLe i hi.1 hi.2, fun i hi j hj hij => ?_⟩
  · exact Nat.pos_of_ne_zero fun h => inv.idPos i hi.1 hi.2 (UInt32.toNat_inj.mp h)
  · exact inv.idInj i hi.1 j hj.1 hi.2 hj.2 (UInt32.toNat_inj.mp hij)

/-- The parts of the invariant. -/
lemma tableInv_of_numbered
    (count : srv.sessionCount.toNat = (List.range srv.maxSessions.toNat).countP srv.active)
    (routes : RoutesOk srv)
    (num : Numbered srv.inUse (fun i => (srv.sessions i).sessionId.toNat) srv.totalSessions.toNat) :
    TableInv srv := by
  refine ⟨⟨count, ?_, fun i hi ha h => ?_, fun i hi j hj hai haj h => ?_, routes⟩,
    fun i hi ha => num.le i ⟨hi, ha⟩⟩
  · rw [UInt32.le_iff_toNat_le, count]
    refine List.countP_le_length.trans ?_
    rw [List.length_range]
  · exact absurd (congrArg UInt32.toNat h) (num.pos i ⟨hi, ha⟩).ne'
  · exact num.inj ⟨hi, hai⟩ ⟨hj, haj⟩ (congrArg UInt32.toNat h)

/-- A new server. -/
lemma TableInv.relayCreate (maxSessions : UInt32) : TableInv (relayCreate maxSessions) := by
  have hinactive : ∀ i, ¬ (Relay.relayCreate maxSessions).active i = true :=
    fun _ => Bool.noConfusion
  refine tableInv_of_numbered ?_ (fun _ r hr => nomatch hr)
    ⟨fun i hi => ?_, fun i hi => ?_, fun i hi => ?_⟩
  · rw [List.countP_eq_zero.mpr fun i _ => hinactive i]
    rfl
  · exact absurd hi.2 (hinactive i)
  · exact absurd hi.2 (hinactive i)
  · exact absurd hi.2 (hinactive i)

/-- The slots after a session was created. -/
lemma active_create
    {n : UInt64} (hsessions : srv'.sessions = update srv.sessions i (args.session host n)) :
    srv'.active = update srv.active i true := by
  funext j
  rw [RelayServer.active, hsessions]
  by_cases hj : j = i
  · subst hj
    rw [update_self, update_self]
    rfl
  · rw [update_of_ne hj, update_of_ne hj]
    rfl

/-- A new session gets the next id. -/
lemma TableInv.create
    (inv : TableInv srv)
    (hbound : srv'.totalSessions ≠ srv.totalSessions → srv.totalSessions.toNat + 1 < 2 ^ 32)
    (created : Created host srv args srv') : TableInv srv' := by
  have routes := inv.routes.create created
  cases created with
  | full => exact inv
  | slot i hi hfree hroom hsessions hmax htotal hcount _ =>
    have hactive := active_create hsessions
    have hlt : srv.totalSessions.toNat + 1 < 2 ^ 32 := by
      refine hbound fun h => ?_
      rw [htotal] at h
      have h1 := UInt64.add_eq_left.mp h
      cases h1
    have htotal' : srv'.totalSessions.toNat = srv.totalSessions.toNat + 1 := by
      have e1 : (1 : UInt64).toNat = 1 := rfl
      rw [htotal, UInt64.toNat_add, e1]
      omega
    have hid : (srv'.sessions i).sessionId.toNat = srv.totalSessions.toNat + 1 := by
      rw [hsessions, update_self]
      show (srv.totalSessions + 1).toUInt32.toNat = _
      rw [UInt64.toNat_toUInt32, ← htotal, htotal']
      omega
    refine tableInv_of_numbered ?_ routes ?_
    · have e1 : (1 : UInt32).toNat = 1 := rfl
      have hsum := countP_update_true List.nodup_range (List.mem_range.mpr hi) hfree
      have hmaxlt := srv.maxSessions.toNat_lt
      rw [UInt32.lt_iff_toNat_lt] at hroom
      rw [← inv.count] at hsum
      rw [hactive, hmax, hcount, UInt32.toNat_add, e1]
      omega
    · rw [htotal']
      refine inv.numbered.next (fun j hj hji => ?_) (fun j _ hji => ?_) hid
      · obtain ⟨hlt, ha⟩ := hj
        rw [hactive, update_of_ne hji] at ha
        rw [hmax] at hlt
        exact ⟨hlt, ha⟩
      · rw [hsessions, update_of_ne hji]

/-- A closed session leaves its slot. -/
lemma TableInv.close (inv : TableInv srv)
    (hi : i < srv.maxSessions.toNat) (hactive : srv.active i = true) :
    TableInv (closeSession srv i) := by
  refine tableInv_of_numbered ?_ (inv.routes.close i)
    (inv.numbered.mono (fun j hj => ⟨hj.1, ?_⟩) fun j _ => ?_)
  · have hsum := countP_update_false List.nodup_range (List.mem_range.mpr hi) hactive
    rw [← inv.count] at hsum
    have hpos : (1 : UInt32) ≤ srv.sessionCount := by
      rw [UInt32.le_iff_toNat_le]
      show 1 ≤ _
      omega
    rw [closeSession_active]
    show (srv.sessionCount - 1).toNat = _
    rw [UInt32.toNat_sub_of_le _ _ hpos]
    show srv.sessionCount.toNat - 1 = _
    exact Nat.sub_eq_of_eq_add hsum.symm
  · have ha := hj.2
    rw [closeSession_active] at ha
    by_cases hji : j = i
    · rw [hji]
      exact hactive
    · rwa [update_of_ne hji] at ha
  · rw [closeSession_sessions]
    by_cases hji : j = i
    · subst hji
      rw [update_self]
    · rw [update_of_ne hji]

/-- The same sessions are active. -/
lemma SameTable.active (same : SameTable srv srv') :
    srv'.active = srv.active :=
  funext fun i => (same.sessions i).active

/-- A table with the same sessions. -/
lemma TableInv.same (inv : TableInv srv) (same : SameTable srv srv') :
    TableInv srv' := by
  have num := inv.numbered
  refine tableInv_of_numbered ?_ (inv.routes.same same) ?_
  · rw [same.sessionCount, same.maxSessions, same.active]
    exact inv.count
  · rw [same.totalSessions]
    refine num.mono (fun j hj => ?_) fun j _ => ?_
    · rw [RelayServer.inUse, same.maxSessions, same.active] at hj
      exact hj
    · rw [(same.sessions j).sessionId]

/-! ## Steps -/

/-- Take sessions out of use in order. -/
def closeAll (srv : RelayServer) (l : List Nat) : RelayServer := l.foldl closeSession srv

/-- The sessions that a call takes out of use. -/
def RelayOp.removes (srv : RelayServer) : RelayOp → List Nat
  | .destroy sessionId => (findSession srv sessionId).toList
  | .purge now timeoutMs =>
    (List.range srv.maxSessions.toNat).filter fun i => (srv.sessions i).idle now timeoutMs
  | _ => []

/-- The loop of `rc_relay_purge_idle` closes and counts the sessions that are idle
when it starts. -/
lemma foldl_purgeStep (now timeoutMs : UInt64) {l : List Nat} (hl : l.Nodup) (purged : Nat)
    (srv : RelayServer) :
    l.foldl (purgeStep now timeoutMs) (purged, srv) =
      (purged + l.countP fun i => (srv.sessions i).idle now timeoutMs,
        closeAll srv (l.filter fun i => (srv.sessions i).idle now timeoutMs)) := by
  induction l generalizing purged srv with
  | nil => rfl
  | cons i l ih =>
    obtain ⟨hil, hl'⟩ := List.nodup_cons.mp hl
    rw [List.foldl_cons, purgeStep]
    cases hidle : (srv.sessions i).idle now timeoutMs with
    | false =>
      rw [if_neg Bool.false_ne_true, ih hl', List.filter_cons_of_neg (by simp [hidle]),
        List.countP_cons_of_neg (by simp [hidle])]
    | true =>
      -- closing session `i` does not change the sessions that the loop has still to look at
      have hrest : ∀ j ∈ l, ((closeSession srv i).sessions j).idle now timeoutMs =
          (srv.sessions j).idle now timeoutMs := by
        intro j hj
        rw [closeSession_sessions, update_of_ne (ne_of_mem_of_not_mem hj hil)]
      rw [if_pos rfl, ih hl', List.filter_congr hrest,
        List.countP_congr fun j hj => by rw [hrest j hj],
        List.filter_cons_of_pos (by exact hidle), List.countP_cons_of_pos (by exact hidle),
        Nat.add_assoc, Nat.add_comm 1]
      rfl

/-- `rc_relay_purge_idle` closes the sessions it finds. -/
lemma purgeIdle_eq (srv : RelayServer) (now timeoutMs : UInt64) :
    purgeIdle srv now timeoutMs =
      (((RelayOp.purge now timeoutMs).removes srv).length,
        closeAll srv ((RelayOp.purge now timeoutMs).removes srv)) := by
  rw [purgeIdle, foldl_purgeStep now timeoutMs List.nodup_range, Nat.zero_add,
    List.countP_eq_length_filter]
  rfl

/-- `rc_relay_session_destroy` closes the session it finds. -/
lemma sessionDestroy_eq (srv : RelayServer) (sessionId : UInt32) :
    sessionDestroy srv sessionId =
      closeAll srv ((RelayOp.destroy sessionId).removes srv) := by
  rw [sessionDestroy, RelayOp.removes]
  cases findSession srv sessionId <;> rfl

/-- No session is closed twice. -/
lemma RelayOp.nodup_removes (srv : RelayServer) (op : RelayOp) : (op.removes srv).Nodup := by
  cases op with
  | create args => exact List.nodup_nil
  | destroy sessionId =>
    rw [RelayOp.removes]
    cases findSession srv sessionId with
    | none => exact List.nodup_nil
    | some i => exact List.nodup_singleton i
  | forward pkt now now' sent => exact List.nodup_nil
  | purge now timeoutMs => exact List.nodup_range.filter _

variable {op : RelayOp}

/-- Active sessions are closed. -/
lemma RelayOp.mem_removes (h : i ∈ op.removes srv) :
    i < srv.maxSessions.toNat ∧ srv.active i = true := by
  cases op with
  | create args => cases h
  | destroy sessionId =>
    have hfind : findSession srv sessionId = some i := Option.mem_toList.mp h
    have hact := List.find?_some hfind
    rw [Bool.and_eq_true] at hact
    exact ⟨List.mem_range.mp (List.mem_of_find?_eq_some hfind), hact.1⟩
  | forward pkt now now' sent => cases h
  | purge now timeoutMs =>
    obtain ⟨hi, hidle⟩ := List.mem_filter.mp h
    rw [RelaySession.idle, Bool.and_eq_true] at hidle
    exact ⟨List.mem_range.mp hi, hidle.1⟩

/-- A step creates a session, only counts, or takes sessions out of use. -/
lemma RelayOp.apply_cases
    (h : op.apply host srv = some srv') :
    (∃ args, op = .create args ∧ Created host srv args srv') ∨ SameTable srv srv' ∨
      srv' = closeAll srv (op.removes srv) := by
  cases op with
  | create args =>
    cases h
    exact .inl ⟨args, rfl, sessionCreate_created host srv args⟩
  | destroy sessionId =>
    cases h
    exact .inr (.inr (sessionDestroy_eq srv sessionId))
  | forward pkt now now' sent =>
    obtain ⟨⟨ret, srv₁, datagram⟩, hf, rfl⟩ := Option.map_eq_some_iff.mp h
    exact .inr (.inl (relayForward_same hf))
  | purge now timeoutMs =>
    cases h
    exact .inr (.inr (congrArg Prod.snd (purgeIdle_eq srv now timeoutMs)))

/-- Closing sessions keeps the invariant. -/
lemma TableInv.closeAll (inv : TableInv srv) {l : List Nat} (hl : l.Nodup)
    (hactive : ∀ i ∈ l, i < srv.maxSessions.toNat ∧ srv.active i = true) :
    TableInv (closeAll srv l) := by
  induction l generalizing srv with
  | nil => exact inv
  | cons i l ih =>
    obtain ⟨hil, hl'⟩ := List.nodup_cons.mp hl
    obtain ⟨⟨hi, ha⟩, hrest⟩ := List.forall_mem_cons.mp hactive
    refine ih (inv.close hi ha) hl' fun j hj => ?_
    rw [closeSession_active, update_of_ne (ne_of_mem_of_not_mem hj hil)]
    exact hrest j hj

lemma closeAll_totalSessions (srv : RelayServer) (l : List Nat) :
    (closeAll srv l).totalSessions = srv.totalSessions := by
  induction l generalizing srv with
  | nil => rfl
  | cons i l ih => exact (ih (closeSession srv i)).trans rfl

/-- Each step keeps the invariant while it does not create more than `2 ^ 32 - 1` sessions. -/
lemma TableInv.apply (inv : TableInv srv)
    (hbound : srv'.totalSessions ≠ srv.totalSessions → srv.totalSessions.toNat + 1 < 2 ^ 32)
    (h : op.apply host srv = some srv') : TableInv srv' := by
  obtain ⟨args, rfl, created⟩ | same | rfl := RelayOp.apply_cases h
  · exact inv.create hbound created
  · exact inv.same same
  · exact inv.closeAll (op.nodup_removes srv) fun i => RelayOp.mem_removes

/-! ## Whole runs -/

/-- The number of sessions that are created in a run. -/
def sessionsCreated (host : Endian) : RelayServer → List RelayOp → Nat
  | _, [] => 0
  | srv, op :: ops =>
    match op.apply host srv with
    | none => 0
    | some srv' =>
      (if srv'.totalSessions = srv.totalSessions then 0 else 1) + sessionsCreated host srv' ops

/-- A session that is created is counted. -/
lemma RelayOp.apply_totalSessions
    (h : op.apply host srv = some srv') :
    srv'.totalSessions = srv.totalSessions ∨ srv'.totalSessions = srv.totalSessions + 1 := by
  obtain ⟨args, rfl, created⟩ | same | rfl := RelayOp.apply_cases h
  · cases created with
    | full => exact .inl rfl
    | slot i _ _ _ _ _ htotal _ _ => exact .inr htotal
  · exact .inl same.totalSessions
  · exact .inl (closeAll_totalSessions srv _)

/-- A run keeps the invariant. -/
lemma relayRun_inv {ops : List RelayOp}
    (inv : TableInv srv) (hbound : srv.totalSessions.toNat + sessionsCreated host srv ops < 2 ^ 32)
    (hrun : relayRun host srv ops = some srv') : TableInv srv' := by
  induction ops generalizing srv with
  | nil =>
    cases hrun
    exact inv
  | cons op ops ih =>
    obtain ⟨srv₁, h₁, hrest⟩ := foldlM_cons_eq_some hrun
    rw [sessionsCreated, h₁] at hbound
    dsimp only at hbound
    by_cases heq : srv₁.totalSessions = srv.totalSessions
    · rw [if_pos heq, Nat.zero_add] at hbound
      refine ih (inv.apply (fun hne => absurd heq hne) h₁) ?_ hrest
      rwa [heq]
    · have e1 : (1 : UInt64).toNat = 1 := rfl
      rw [if_neg heq] at hbound
      refine ih (inv.apply (fun _ => by omega) h₁) ?_ hrest
      rw [(RelayOp.apply_totalSessions h₁).resolve_left heq, UInt64.toNat_add, e1]
      omega

/-- After every run from a new server in which fewer than `2 ^ 32` sessions are created,
`session_count` is the number of slots in use and at most `max_sessions`, the sessions in use have
different ids that are not zero, and every route is in its bucket and belongs to a session in use,
whose ingress or egress id it is for. -/
theorem relay_table_ok (host : Endian) (maxSessions : UInt32) (ops : List RelayOp)
    (srv : RelayServer) (hcreated : sessionsCreated host (relayCreate maxSessions) ops < 2 ^ 32)
    (hrun : relayRun host (relayCreate maxSessions) ops = some srv) : TableOk srv := by
  refine (relayRun_inv (.relayCreate maxSessions) ?_ hrun).toTableOk
  show 0 + _ < _
  rwa [Nat.zero_add]

/-- Two sessions that share a connection id, of which the first is destroyed. -/
def sharedIdOps : List RelayOp :=
  [.create ⟨1, 2, none, none, 5, 1000, true, true⟩, .create ⟨1, 3, none, none, 5, 1000, true, true⟩,
    .destroy 1]

/-- A server with two slots. -/
theorem relay_table_ok_sample :
    ∃ srv, relayRun .little (relayCreate 2) sharedIdOps = some srv ∧ TableOk srv := by
  obtain ⟨srv, hrun⟩ : ∃ srv, relayRun .little (relayCreate 2) sharedIdOps = some srv :=
    ⟨_, rfl⟩
  exact ⟨srv, hrun, relay_table_ok .little 2 sharedIdOps srv (by decide +kernel) hrun⟩

end RoboControl.Relay
