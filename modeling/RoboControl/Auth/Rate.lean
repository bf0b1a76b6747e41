import RoboControl.Auth.Loop

/-!
# Rate limiting

The token bucket of a connection is new when `handle_request` is called, because the connection is
torn down after its only request. A new bucket refuses a request only if the seconds since the
connection was accepted make its 32-bit count of tokens wrap to zero (`Handled.wrapped`). So the
requests of a client that are not refused are all its requests but those after such a wait
(`rate_limited_iff`).
-/

namespace RoboControl.Auth
open Base Crypto

/-! ## A new bucket -/

/-- The seconds between two times bring the tokens of a new bucket to zero, modulo `2 ^ 32`. -/
def wraps (accepted now : UInt64) : Bool := rateLimitMax + (now - accepted).toUInt32 = 0

/-- A call is allowed if there are tokens. -/
lemma rateCheck_fst (rl : RateLimit) (now : UInt64) :
    (rateCheck rl now).1 = decide ((rl.refill now).tokens > 0) := by
  rw [rateCheck]
  split
  · exact (decide_eq_true ‹_›).symm
  · exact (decide_eq_false ‹_›).symm

/-- The tokens of a new bucket at some later time. -/
lemma refill_new (accepted now : UInt64) :
    ((RateLimit.new accepted).refill now).tokens =
      if rateLimitMax + (now - accepted).toUInt32 > rateLimitMax then rateLimitMax
      else rateLimitMax + (now - accepted).toUInt32 := by
  have hrate : (RateLimit.new accepted).refillRate.toUInt64 = 1 := rfl
  have hlast : (RateLimit.new accepted).lastRefill = accepted := rfl
  rw [RateLimit.refill, hrate, hlast, UInt64.mul_one]
  split
  · rfl
  · rename_i hzero
    rw [show now - accepted = 0 by simpa using hzero]
    rfl

/-- A new bucket refuses if its count wraps around. -/
lemma rateCheck_new (accepted now : UInt64) :
    (rateCheck (.new accepted) now).1 = !wraps accepted now := by
  rw [rateCheck_fst, refill_new, wraps, ← decide_not, decide_eq_decide]
  split
  · rename_i hmore
    exact iff_of_true (by decide) fun h => absurd hmore (by rw [h]; decide)
  · exact UInt32.pos_iff_ne_zero

/-! ## Calls -/

/-- The connection of a call waited until the tokens wrapped. -/
def Handled.wrapped (h : Handled) : Bool := wraps h.accepted h.now

/-- The rate limiter refused a call. -/
def Handled.limited (h : Handled) : Bool := h.reply.code = 429

/-- The buckets of the connections are new, and the calls that were refused are those
that wrapped. -/
structure Loop.Judged (s : Loop) : Prop where
  new : ∀ fd c, s.srv.conns fd = some c → c.rate = .new c.rate.lastRefill
  limited : ∀ h ∈ s.handled, h.limited = h.wrapped

section Steps
variable {ossl : Openssl} {s s' : Loop} {clock : Nat} {draws : Draws} {fd : Int} {c : AuthConn}

lemma forall_conns_update {P : AuthConn → Prop} {conns : Int → Option AuthConn}
    (h : ∀ fd c, conns fd = some c → P c) {o : Option AuthConn} (ho : ∀ c ∈ o, P c) (fd : Int) :
    ∀ fd' c, Function.update conns fd o fd' = some c → P c := by
  intro fd' c hc
  rw [Function.update_apply] at hc
  split at hc
  · exact ho c hc
  · exact h fd' c hc

/-- A call for a connection with a new bucket is refused if the tokens wrap. -/
lemma handleRequest_limited {accepted : UInt64} (hc : s.srv.connOf fd = some c)
    (hnew : c.rate = .new accepted) (req : List UInt8) :
    decide ((handleRequest ossl clock draws s.srv s.redis fd req).1.code = 429) =
      wraps accepted draws.now := by
  rw [handleRequest_of_connOf hc, hnew, rateCheck_new]
  cases wraps accepted draws.now with
  | true => rfl
  | false =>
    refine decide_eq_false fun h : (respond ossl clock draws _ s.redis (route req)).1.code = 429 =>
      ?_
    have hcode := route_code req
    rw [← respond_code, h] at hcode
    exact absurd hcode (by decide)

/-- One event. -/
lemma Loop.Moves.judged {e : LoopEvent} (moves : s.Moves ossl clock e s') (hs : s.Judged) :
    s'.Judged := by
  cases moves with
  | idle => exact hs
  | accept =>
    refine ⟨forall_conns_update hs.new ?_ _, hs.limited⟩
    rintro c ⟨⟩
    rfl
  | close =>
    refine ⟨forall_conns_update hs.new ?_ _, hs.limited⟩
    rintro c ⟨⟩
  | extend fd bytes draws c reqBuf hc =>
    refine ⟨forall_conns_update hs.new ?_ _, hs.limited⟩
    rintro c' ⟨⟩
    exact hs.new fd c (AuthServer.conns_of_connOf hc)
  | handle fd bytes draws c reqBuf hc =>
    have hnew : c.rate = .new c.rate.lastRefill := hs.new _ _ (AuthServer.conns_of_connOf hc)
    refine ⟨?_, ?_⟩
    · rw [dispatch_conns (AuthServer.connOf_setConn hc _)]
      refine forall_conns_update (forall_conns_update hs.new ?_ _) ?_ _
      · rintro c' ⟨⟩
        exact hnew
      · rintro c' ⟨⟩
    · intro h hh
      rcases List.mem_append.mp hh with hh | hh
      · exact hs.limited h hh
      · rw [List.mem_singleton.mp hh]
        exact handleRequest_limited (c := { c with reqBuf }) (AuthServer.connOf_setConn hc _) hnew _

end Steps

/-- A run. -/
lemma loopRun_judged (ossl : Openssl) (redis : Redis) (events : List (Nat × LoopEvent)) :
    (loopRun ossl (.start redis) events).Judged := by
  refine List.foldlRecOn events (Loop.step ossl) ⟨?_, ?_⟩ fun s hs e _ => ?_
  · rintro fd c ⟨⟩
  · exact fun h hh => (List.not_mem_nil hh).elim
  · exact (s.step_moves ossl e.1 e.2).judged hs

/-! ## Windows -/

/-- The calls of a client within `RATE_LIMIT_WINDOW` seconds from some time on that
have a property. -/
def inWindow (log : List Handled) (client : List UInt8) (t : Nat) (p : Handled → Bool) : Nat :=
  log.countP fun h =>
    h.peer = client && t ≤ h.now.toNat && h.now.toNat < t + rateLimitWindow.toNat && p h

/-- In every run, the requests of a client within a window that are not answered 429 are at most
twice `RATE_LIMIT_MAX` exactly if the client makes no more than that, not counting those after a
wait that lets the tokens wrap; and only those are answered 429. -/
theorem rate_limited_iff (ossl : Openssl) (redis : Redis) (events : List (Nat × LoopEvent)) :
    ((∀ client t, inWindow (loopRun ossl (.start redis) events).handled client t
      (fun h => !h.limited) ≤
        2 * rateLimitMax.toNat) ↔
      ∀ client t, inWindow (loopRun ossl (.start redis) events).handled client t
        (fun h => !h.wrapped) ≤
        2 * rateLimitMax.toNat) ∧
    ∀ h ∈ (loopRun ossl (.start redis) events).handled, h.reply.code = 429 ↔ h.wrapped = true := by
  have judged := loopRun_judged ossl redis events
  refine ⟨?_, fun h hh => ?_⟩
  · refine forall₂_congr fun client t => ?_
    rw [inWindow, inWindow, List.countP_congr fun h hh => by rw [judged.limited h hh]]
  · rw [← judged.limited h hh]
    exact decide_eq_true_iff.symm

/-! ## One request for each connection -/

/-- A client connects and asks for the health of the server, in one second. -/
def healthCheck : List (Nat × LoopEvent) :=
  [(0, .accept 5 [10, 0, 0, 1] 1000 true),
    (0, .readable 5 (cstr "GET /health HTTP/1.1\r\n\r\n") sampleDraws)]

/-- The client does so several times. -/
def healthChecks (n : Nat) : List (Nat × LoopEvent) := (List.replicate n healthCheck).flatten

/-- A request of a client. -/
lemma healthCheck_handled (ossl : Openssl) (s : Loop) :
    ∃ h, (loopRun ossl s healthCheck).handled = s.handled ++ [h] ∧ h.peer = [10, 0, 0, 1] ∧
      h.now = 1000 ∧ h.accepted = 1000 := by
  have hconn := connOf_accept (show (5 : Int) < maxConnections by decide) s.srv 1000
  rw [healthCheck, loopRun, List.foldl_cons, List.foldl_cons, step_accept ossl s 0 (by decide),
    step_readable hconn (by decide +kernel) (by decide +kernel), Loop.receive,
      if_pos (by decide +kernel)]
  refine ⟨_, dispatch_handled .., ?_, rfl, rfl⟩
  show Function.update s.peers 5 [10, 0, 0, 1] 5 = [10, 0, 0, 1]
  rw [Function.update_self]

/-- Requests in a window. -/
lemma inWindow_healthChecks (ossl : Openssl) (redis : Redis) (n : Nat) :
    inWindow (loopRun ossl (.start redis) (healthChecks n)).handled [10, 0, 0, 1] 1000
      (fun h => !h.wrapped) = n := by
  induction n with
  | zero => rfl
  | succ n ih =>
    have hsplit : healthChecks (n + 1) = healthChecks n ++ healthCheck := by
      rw [healthChecks, List.replicate_succ', List.flatten_append, List.flatten_singleton,
        healthChecks]
    obtain ⟨h, hrun, hpeer, hnow, haccepted⟩ :=
      healthCheck_handled ossl (loopRun ossl (.start redis) (healthChecks n))
    rw [hsplit, loopRun, List.foldl_append, ← loopRun, ← loopRun, hrun, inWindow,
      List.countP_append, ← inWindow, ih, List.countP_singleton, if_pos]
    rw [Handled.wrapped, hpeer, hnow, haccepted]
    decide +kernel

/-- A client that connects 201 times within one second gets 201 answers that are not 429. -/
theorem limit_evaded :
    inWindow (loopRun vectors (.start .empty) (healthChecks 201)).handled [10, 0, 0, 1] 1000
      (fun h => !h.limited) = 201 ∧ 2 * rateLimitMax.toNat = 200 := by
  refine ⟨?_, rfl⟩
  have judged := loopRun_judged vectors .empty (healthChecks 201)
  rw [inWindow, List.countP_congr fun h hh => by rw [judged.limited h hh]]
  exact inWindow_healthChecks vectors .empty 201

end RoboControl.Auth
