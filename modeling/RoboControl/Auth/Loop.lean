import RoboControl.Auth.Server

/-!
# Steps of the authentication service

What an event can do to the loop of `main` is said once (`Loop.Moves`, `Loop.step_moves`): nothing,
set up or tear down a connection, make a request longer, or call `handle_request` and tear the
connection down. An event of one descriptor leaves the connections and calls of all others
(`Loop.Moves.frame`).
-/

namespace RoboControl.Auth
open Base Crypto Function

section Requests
variable {ossl : Openssl} {clock : Nat} {draws : Draws} {srv : AuthServer} {redis : Redis}
  {fd : Int}
  {c : AuthConn} {req : List UInt8}

lemma AuthServer.conns_of_connOf (h : srv.connOf fd = some c) : srv.conns fd = some c := by
  rw [connOf] at h
  split at h
  · exact h
  · cases h

/-- The connection that changes. -/
lemma AuthServer.connOf_setConn (h : srv.connOf fd = some c) (c' : AuthConn) :
    (srv.setConn fd c').connOf fd = some c' := by
  rw [connOf] at h ⊢
  split at h
  · rename_i hfd
    rw [if_pos hfd]
    exact update_self _ _ _
  · cases h

/-- The code of the answer to a request that the rate limiter lets pass. -/
def Call.code : Call → Nat
  | .refused code _ => code
  | _ => 200

/-- The status of a reply. -/
lemma respond_code (ossl : Openssl) (clock : Nat) (draws : Draws) (active : UInt32) (redis : Redis)
    (call : Call) : (respond ossl clock draws active redis call).1.code = call.code := by
  cases call <;> rfl

/-- The statuses of the routes. -/
lemma route_code (req : List UInt8) : (route req).code ∈ [200, 400, 404, 405] := by
  simp only [route, parseToken, parseVerify, parseRefresh, parseRegister]
  repeat' split
  all_goals simp [Call.code]

/-- The answer to a request of a connection. -/
lemma handleRequest_of_connOf (h : srv.connOf fd = some c) :
    handleRequest ossl clock draws srv redis fd req =
      if (rateCheck c.rate draws.now).1 then
        ((respond ossl clock draws srv.activeConns redis (route req)).1,
          srv.setConn fd { c with rate := (rateCheck c.rate draws.now).2 },
          (respond ossl clock draws srv.activeConns redis (route req)).2)
      else
        (httpErr 429 (cstr "rate limit exceeded"),
          srv.setConn fd { c with rate := (rateCheck c.rate draws.now).2 }, redis) := by
  rw [handleRequest, h]
  rfl

/-- The rate limiter refuses a request, or the request is answered. -/
lemma handleRequest_cases (ossl : Openssl) (clock : Nat) (draws : Draws) (redis : Redis)
    (req : List UInt8) (h : srv.connOf fd = some c) :
    ((handleRequest ossl clock draws srv redis fd req).1 = httpErr 429
      (cstr "rate limit exceeded") ∧
      (handleRequest ossl clock draws srv redis fd req).2.2 = redis) ∨
    ((handleRequest ossl clock draws srv redis fd req).1 =
        (respond ossl clock draws srv.activeConns redis (route req)).1 ∧
      (handleRequest ossl clock draws srv redis fd req).2.2 =
        (respond ossl clock draws srv.activeConns redis (route req)).2) := by
  rw [handleRequest_of_connOf h]
  split
  · exact .inr ⟨rfl, rfl⟩
  · exact .inl ⟨rfl, rfl⟩

end Requests

variable {ossl : Openssl} {s : Loop} {clock : Nat} {draws : Draws} {fd : Int} {c : AuthConn}
  {req : List UInt8} {accepted : UInt64}

lemma dispatch_handled (ossl : Openssl) (clock : Nat) (draws : Draws) (s : Loop) (fd : Int)
    (accepted : UInt64) (req : List UInt8) :
    (s.dispatch ossl clock draws fd accepted req).handled = s.handled ++
      [⟨clock, fd, s.peers fd, accepted, draws.now, req,
        (handleRequest ossl clock draws s.srv s.redis fd req).1⟩] := rfl

/-- The connection is gone after its call of `handle_request`, and the others are as they were. -/
lemma dispatch_conns (h : s.srv.connOf fd = some c) :
    (s.dispatch ossl clock draws fd accepted req).srv.conns = update s.srv.conns fd none := by
  show ((handleRequest ossl clock draws s.srv s.redis fd req).2.1.close fd).conns = _
  rw [handleRequest_of_connOf h]
  split
  · exact update_idem _ _ _
  · exact update_idem _ _ _

/-- What an event can do. -/
inductive Loop.Moves (ossl : Openssl) (s : Loop) (clock : Nat) : LoopEvent → Loop → Prop where
  | idle (e : LoopEvent) : s.Moves ossl clock e s
  | accept (fd : Int) (peer : List UInt8) (now : UInt64) (alloc : Bool) :
    s.Moves ossl clock (.accept fd peer now alloc)
      { s with srv := s.srv.accept fd now, peers := update s.peers fd peer }
  | close (e : LoopEvent) : s.Moves ossl clock e { s with srv := s.srv.close e.fd }
  | extend (fd : Int) (bytes : List UInt8) (draws : Draws) (c : AuthConn) (reqBuf : List UInt8) :
    s.srv.connOf fd = some c →
    s.Moves ossl clock (.readable fd bytes draws)
      { s with srv := s.srv.setConn fd { c with reqBuf } }
  | handle (fd : Int) (bytes : List UInt8) (draws : Draws) (c : AuthConn) (reqBuf : List UInt8) :
    s.srv.connOf fd = some c →
    s.Moves ossl clock (.readable fd bytes draws)
      (Loop.dispatch ossl clock draws { s with srv := s.srv.setConn fd { c with reqBuf } } fd
        c.rate.lastRefill (Signaling.cstr reqBuf))

/-- Every event is one of these. -/
lemma Loop.step_moves (ossl : Openssl) (s : Loop) (clock : Nat) (e : LoopEvent) :
    s.Moves ossl clock e (s.step ossl (clock, e)) := by
  cases e with
  | accept fd peer now alloc =>
    rw [Loop.step]
    split
    · exact .idle _
    · exact .accept fd peer now alloc
  | readable fd bytes draws =>
    rw [Loop.step]
    cases h : s.srv.connOf fd with
    | none => exact .idle _
    | some c =>
      dsimp only
      split
      · exact .close (.readable fd bytes draws)
      · rw [Loop.receive]
        split
        · exact .handle fd bytes draws c _ h
        · exact .extend fd bytes draws c _ h
  | failed fd =>
    rw [Loop.step]
    cases h : s.srv.connOf fd with
    | none => exact .idle _
    | some c => exact .close (.failed fd)

/-- The texts that `handle_request` was called with for a descriptor. -/
def Loop.calls (s : Loop) (fd : Int) : List (List UInt8) :=
  (s.handled.filter (·.fd = fd)).map (·.text)

/-- An event leaves the connections and calls of other descriptors. -/
lemma Loop.Moves.frame {e : LoopEvent} {s' : Loop} (moves : s.Moves ossl clock e s')
    (h : e.fd ≠ fd) :
    s'.srv.conns fd = s.srv.conns fd ∧ s'.calls fd = s.calls fd := by
  cases moves with
  | idle => exact ⟨rfl, rfl⟩
  | accept => exact ⟨update_of_ne h.symm _ _, rfl⟩
  | close => exact ⟨update_of_ne h.symm _ _, rfl⟩
  | extend => exact ⟨update_of_ne h.symm _ _, rfl⟩
  | handle fd' bytes draws c reqBuf hc =>
    have hne : ¬ fd' = fd := h
    refine ⟨?_, ?_⟩
    · rw [dispatch_conns (AuthServer.connOf_setConn hc _), update_of_ne (Ne.symm hne)]
      exact update_of_ne (Ne.symm hne) _ _
    · rw [Loop.calls, Loop.dispatch, List.filter_append]
      simp [hne, Loop.calls]

/-! ## Single events -/

lemma connOf_congr {s' : Loop} (h : s'.srv.conns fd = s.srv.conns fd) :
    s'.srv.connOf fd = s.srv.connOf fd := by
  rw [AuthServer.connOf, AuthServer.connOf, h]

/-- A chunk that fits is appended to the request. -/
lemma step_readable {bytes : List UInt8} (hc : s.srv.connOf fd = some c) (hne : bytes ≠ [])
    (hsize : c.reqBuf.length + bytes.length < maxReqSize) :
    s.step ossl (clock, .readable fd bytes draws) = s.receive ossl clock draws fd c bytes := by
  have htake : bytes.take (maxReqSize - c.reqBuf.length - 1) = bytes :=
    List.take_of_length_le (by omega)
  simp only [Loop.step, hc, htake, if_neg hne]

/-- A connection is accepted. -/
lemma step_accept (ossl : Openssl) (s : Loop) (clock : Nat) (hfd : 0 ≤ fd ∧ fd < maxConnections)
    (peer : List UInt8) (now : UInt64) :
    s.step ossl (clock, .accept fd peer now true) =
      { s with srv := s.srv.accept fd now, peers := update s.peers fd peer } := by
  refine if_neg ?_
  rintro (h | h | h)
  · exact absurd hfd.1 (not_le.mpr h)
  · exact absurd hfd.2 (not_lt.mpr h)
  · cases h

/-- A new connection has received nothing. -/
lemma connOf_accept (hfd : fd < maxConnections) (srv : AuthServer) (now : UInt64) :
    (srv.accept fd now).connOf fd = some ⟨[], .new now⟩ := by
  rw [AuthServer.connOf, if_pos hfd]
  exact update_self _ _ _

/-- What the clocks and `RAND_bytes` give in samples. -/
def sampleDraws : Draws := ⟨1000, 1000, 1000, Bytes.zeros 16⟩

end RoboControl.Auth
