import RoboControl.Auth.Segments
import RoboControl.Signaling.Log
import RoboControl.Signaling.Segments

/-!
# Lifetime of a token

The authentication service and the signaling server share Redis (`System`): the one issues, checks
and revokes tokens, the other checks them. What the services answer is held against the log of the
requests alone (`leases`): a token is good if a request was answered with it less than a day ago,
and no request to refresh it was answered 200 since. The keys of the tokens in Redis track this log
(`System.run_tracks`), so that both services accept exactly the good tokens (`token_lifecycle`).
-/

namespace RoboControl.Auth
open Base Crypto

/-! ## Requests that issue and revoke -/

/-- A request was answered with a new token. -/
def Handled.grants (h : Handled) (token : List UInt8) : Prop :=
  h.reply.code = 200 ∧
    match route h.text with
    | .token _ _ => h.reply.body = tokenBody token
    | .refresh _ _ _ => h.reply.body = tokenBody token
    | .register deviceId _ _ => h.reply.body = registeredBody deviceId token
    | _ => False

/-- A request to refresh a token was answered 200. -/
def Handled.revokes (h : Handled) (token : List UInt8) : Prop :=
  h.reply.code = 200 ∧ ∃ deviceId role, route h.text = .refresh token deviceId role

/-- Tokens as leases of 86400 seconds. -/
def leases : Leases Handled (List UInt8) where
  time := Handled.clock
  grants := Handled.grants
  revokes := Handled.revokes
  period := 1000 * tokenTtl

/-- The token that is issued for a device. -/
def newToken (ossl : Openssl) (draws : Draws) (deviceId role : List UInt8) : List UInt8 :=
  hmacSha256 ossl secretKey (tokenPayload draws deviceId role)

/-- The token that a request is answered with. -/
def Call.issued (ossl : Openssl) (draws : Draws) : Call → Option (List UInt8)
  | .token deviceId role => some (newToken ossl draws deviceId role)
  | .refresh _ deviceId role => some (newToken ossl draws deviceId role)
  | .register deviceId _ _ => some (newToken ossl draws deviceId (cstr "robot"))
  | _ => none

/-- The token that a request revokes. -/
def Call.revoked : Call → Option (List UInt8)
  | .refresh old _ _ => some old
  | _ => none

section Log
variable {ossl : Openssl} {clock : Nat} {draws : Draws} {active : UInt32} {redis : Redis}
  {h : Handled}
  {token token' deviceId : List UInt8}

/-- The token is read off the reply. -/
lemma tokenBody_inj : tokenBody token = tokenBody token' ↔ token = token' := by
  simp [tokenBody]

/-- The token is read off the reply. -/
lemma registeredBody_inj : registeredBody deviceId token = registeredBody deviceId token' ↔
    token = token' := by
  simp [registeredBody]

/-- The reply shows which token was issued. -/
lemma grants_iff (hreply : h.reply = (respond ossl clock draws active redis (route h.text)).1) :
    h.grants token ↔ (route h.text).issued ossl draws = some token := by
  rw [Handled.grants, hreply]
  cases hroute : route h.text with
  | token deviceId role =>
    exact (and_iff_right rfl).trans (tokenBody_inj.trans Option.some_inj.symm)
  | refresh _ deviceId role =>
    exact (and_iff_right rfl).trans (tokenBody_inj.trans Option.some_inj.symm)
  | register deviceId _ _ =>
    exact (and_iff_right rfl).trans (registeredBody_inj.trans Option.some_inj.symm)
  | verify | health | refused => exact iff_of_false And.right fun e => by cases e

/-- A request that revokes a token. -/
lemma revokes_iff (hreply : h.reply = (respond ossl clock draws active redis (route h.text)).1) :
    h.revokes token ↔ (route h.text).revoked = some token := by
  rw [Handled.revokes, hreply, respond_code]
  cases hroute : route h.text with
  | refresh old deviceId role =>
    refine (and_iff_right rfl).trans ⟨?_, ?_⟩
    · rintro ⟨_, _, e⟩
      cases e
      rfl
    · intro e
      cases e
      exact ⟨deviceId, role, rfl⟩
  | token | register | verify | health | refused =>
    refine iff_of_false ?_ fun e => by cases e
    rintro ⟨-, _, _, e⟩
    cases e

end Log

/-! ## Redis -/

section Redis
variable {ossl : Openssl} {clock now : Nat} {draws : Draws} {active : UInt32} {redis : Redis}
  {token token' deviceId role key : List UInt8}

/-- Tokens have keys of their own. -/
lemma tokenKey_inj : tokenKey token = tokenKey token' ↔ token = token' := List.append_right_inj _

/-- No token has this key. -/
def OtherKey (key : List UInt8) : Prop := ∀ token, tokenKey token ≠ key

/-- A key with another beginning. -/
lemma otherKey_of_not_starts (h : ¬ cstr "auth:token:" <+: key) : OtherKey key := by
  rintro token rfl
  exact h (List.prefix_append _ _)

lemma otherKey_deviceKey (deviceId : List UInt8) : OtherKey (deviceKey deviceId) := by
  refine otherKey_of_not_starts fun h => ?_
  have hshort : cstr "auth:token:" <+: cstr "auth:device:" :=
    List.prefix_of_prefix_length_le h (List.prefix_append _ _) (by decide +kernel)
  exact absurd hshort (by decide +kernel)

/-- A command at another key leaves the tokens alone. -/
lemma contains_alter_other (h : clock ≤ now) (hkey : OtherKey key)
    (f : Option (RedisValue × Option Nat) → Option (RedisValue × Option Nat)) :
    (redis.alter clock key f).contains now (tokenKey token) = redis.contains now (tokenKey token) :=
  ExpiringMap.contains_alter_of_ne _ h (hkey token) f

/-- A command that sets or deletes the key of a token leaves the others alone. -/
lemma contains_alter_token (h : clock ≤ now) (token' : List UInt8)
    (v : Option (RedisValue × Option Nat)) :
    (redis.alter clock (tokenKey token') fun _ => v).contains now (tokenKey token) = true ↔
      (token' = token ∧ v.any (fun e => ExpiringMap.alive now e.2) = true) ∨
      (token' ≠ token ∧ redis.contains now (tokenKey token) = true) := by
  rcases eq_or_ne token' token with rfl | hne
  · rw [ExpiringMap.contains_alter_self]
    simp
  · rw [ExpiringMap.contains_alter_of_ne _ h (tokenKey_inj.not.mpr hne.symm)]
    simp [hne]

/-- A new token is valid for its lifetime; the others are as they were. -/
lemma contains_redisIssueToken (h : clock ≤ now) :
    (redisIssueToken ossl clock draws redis deviceId role).2.contains now (tokenKey token) = true ↔
      (newToken ossl draws deviceId role = token ∧ now < clock + 1000 * tokenTtl) ∨
      (newToken ossl draws deviceId role ≠ token ∧ redis.contains now (tokenKey token) = true) := by
  rw [redisIssueToken, Redis.hset, contains_alter_other h (otherKey_deviceKey deviceId)]
  refine (contains_alter_token h (newToken ossl draws deviceId role) _).trans ?_
  rw [Option.any_some, ExpiringMap.alive, decide_eq_true_iff]

/-- Other tokens stay. -/
lemma contains_redisBlacklistToken (h : clock ≤ now) :
    (redisBlacklistToken clock redis token').contains now (tokenKey token) = true ↔
      token' ≠ token ∧ redis.contains now (tokenKey token) = true := by
  rw [redisBlacklistToken, Redis.sadd, contains_alter_other h
    (otherKey_of_not_starts (by decide +kernel)), Redis.del, contains_alter_token h]
  simp

/-- Tokens stay when a device is registered. -/
lemma contains_redisRegisterDevice (h : clock ≤ now) (name type : List UInt8) :
    (redisRegisterDevice clock draws redis deviceId name type).contains now (tokenKey token) =
      redis.contains now (tokenKey token) := by
  rw [redisRegisterDevice, Redis.hset, contains_alter_other h
    (otherKey_of_not_starts (by decide +kernel))]

/-- What a request does to the tokens in Redis. -/
lemma contains_respond (h : clock ≤ now) (call : Call) :
    (respond ossl clock draws active redis call).2.contains now (tokenKey token) = true ↔
      (call.issued ossl draws = some token ∧ now < clock + 1000 * tokenTtl) ∨
      (call.issued ossl draws ≠ some token ∧ call.revoked ≠ some token ∧
        redis.contains now (tokenKey token) = true) := by
  cases call with
  | token deviceId role =>
    refine (contains_redisIssueToken h).trans ?_
    simp [Call.issued, Call.revoked]
  | refresh old deviceId role =>
    refine (contains_redisIssueToken h).trans ?_
    rw [contains_redisBlacklistToken h]
    simp [Call.issued, Call.revoked]
  | register deviceId name type =>
    refine (contains_redisIssueToken h).trans ?_
    rw [contains_redisRegisterDevice h]
    simp [Call.issued, Call.revoked]
  | verify | health | refused => simp [respond, Call.issued, Call.revoked]

end Redis

section Loop
variable {ossl : Openssl} {s s' : Loop} {clock t : Nat} {draws : Draws} {fd : Int} {c : AuthConn}
  {accepted : UInt64} {req : List UInt8}

/-- A call of `handle_request` keeps the tokens in Redis in step with the log. -/
lemma dispatch_tracks (tracks : leases.Tracks tokenKey s.redis s.handled t) (ht : t ≤ clock)
    (hc : s.srv.connOf fd = some c) :
    leases.Tracks tokenKey (s.dispatch ossl clock draws fd accepted req).redis
      (s.dispatch ossl clock draws fd accepted req).handled clock := by
  rw [dispatch_handled]
  refine tracks.concat ht fun now (hnow : clock ≤ now) token => ?_
  show (handleRequest ossl clock draws s.srv s.redis fd req).2.2.contains now (tokenKey token) =
    true ↔
    (Handled.grants _ token ∧ now < clock + 1000 * tokenTtl) ∨
    (¬ Handled.grants _ token ∧ ¬ Handled.revokes _ token ∧ s.redis.contains now (tokenKey token) =
      true)
  obtain ⟨hreply, hredis⟩ | ⟨hreply, hredis⟩ :=
    handleRequest_cases ossl clock draws s.redis req hc
  · have hcode : (handleRequest ossl clock draws s.srv s.redis fd req).1.code ≠ 200 := by
      rw [hreply]
      decide
    rw [hredis]
    constructor
    · exact fun hk => .inr ⟨fun hg => hcode hg.1, fun hr => hcode hr.1, hk⟩
    · rintro (⟨hg, -⟩ | ⟨-, -, hk⟩)
      · exact (hcode hg.1).elim
      · exact hk
  · rw [hredis, contains_respond hnow, grants_iff hreply, revokes_iff hreply]

/-- So does every event. -/
lemma Loop.Moves.tracks {e : LoopEvent} (moves : s.Moves ossl clock e s')
    (tracks : leases.Tracks tokenKey s.redis s.handled t) (ht : t ≤ clock) :
    leases.Tracks tokenKey s'.redis s'.handled clock := by
  cases moves with
  | idle => exact tracks.frame ht fun _ _ _ => rfl
  | accept => exact tracks.frame ht fun _ _ _ => rfl
  | close => exact tracks.frame ht fun _ _ _ => rfl
  | extend => exact tracks.frame ht fun _ _ _ => rfl
  | handle fd bytes draws c reqBuf hc =>
    exact dispatch_tracks tracks ht (AuthServer.connOf_setConn hc _)

end Loop

/-! ## Both services -/

/-- Both services with the Redis they share, and the time of its last command. -/
structure System where
  loop : Loop
  sig : Signaling.Main
  clock : Nat

/-- An event of one of the services. -/
inductive Act where
  | auth (e : LoopEvent)
  | signal (e : Signaling.Event)

/-- An event of the signaling server, with what Redis says about tokens. -/
def checkedBy (redis : Redis) (now : Nat) : Signaling.Event → Signaling.Event
  | .received env fd bytes =>
    .received { env with valid := fun token => redis.contains now (tokenKey token) } fd bytes
  | e => e

/-- What an output of the signaling server does to Redis. -/
def Redis.exec (now : Nat) (redis : Redis) : Signaling.Output → Redis
  | .hset clientId roomId =>
    redis.hset now (cstr "sig:connections") [(decimal clientId.toNat, roomId)]
  | .hdel clientId => redis.hdel now (cstr "sig:connections") (decimal clientId.toNat)
  | _ => redis

/-- One of the services handles an event. -/
def System.step (host : Endian) (ossl : Openssl) (s : System) : Nat × Act → Option System
  | (clock, .auth e) => some { s with loop := s.loop.step ossl (clock, e), clock }
  | (clock, .signal e) => do
    let sig ← s.sig.step host (checkedBy s.loop.redis clock e)
    let outputs := sig.srv.out.drop s.sig.srv.out.length
    let redis := outputs.foldl (Redis.exec clock) s.loop.redis
    return { loop := { s.loop with redis }, sig, clock }

/-- Both services at first: Redis is empty, and the signaling server is connected to it. -/
def System.start (buf : Nat → UInt8) : System :=
  ⟨.start .empty, ⟨Signaling.serverInit true, buf⟩, 0⟩

/-- A run of the services. -/
def systemRun (host : Endian) (ossl : Openssl) (buf : Nat → UInt8) (events : List (Nat × Act)) :
    Option System :=
  events.foldlM (System.step host ossl) (.start buf)

/-- The tokens in Redis are in step with the log, and the signaling server asks Redis. -/
structure System.Ok (s : System) : Prop where
  tracks : leases.Tracks tokenKey s.loop.redis s.loop.handled s.clock
  redis : s.sig.srv.redis = true

section System
variable {host : Endian} {ossl : Openssl} {s s' : System} {clock now : Nat} {redis : Redis}
  {token : List UInt8}

/-- Tokens stay when the signaling server writes. -/
lemma contains_exec (h : clock ≤ now) (outputs : List Signaling.Output) :
    (outputs.foldl (Redis.exec clock) redis).contains now (tokenKey token) =
      redis.contains now (tokenKey token) := by
  have hkey : OtherKey (cstr "sig:connections") := otherKey_of_not_starts (by decide +kernel)
  induction outputs generalizing redis with
  | nil => rfl
  | cons o outputs ih =>
    refine ih.trans ?_
    cases o with
    | hset => rw [Redis.exec, Redis.hset, contains_alter_other h hkey]
    | hdel => rw [Redis.exec, Redis.hdel, contains_alter_other h hkey]
    | send | close => rfl

/-- One event. -/
lemma System.Ok.step {e : Nat × Act} (ok : s.Ok) (hle : s.clock ≤ e.1)
    (h : s.step host ossl e = some s') : s'.Ok := by
  obtain ⟨clock, act⟩ := e
  cases act with
  | auth e =>
    cases h
    exact ⟨(s.loop.step_moves ossl clock e).tracks ok.tracks hle, ok.redis⟩
  | signal e =>
    obtain ⟨sig, hsig, h⟩ := Option.bind_eq_some_iff.mp h
    cases h
    exact ⟨ok.tracks.frame hle fun now hnow token => contains_exec hnow _,
      (Signaling.Main.step_extends hsig).redis.trans ok.redis⟩

/-- A run. -/
lemma System.run_ok {buf : Nat → UInt8} {events : List (Nat × Act)}
    (along : Along (System.step host ossl) (fun s e => s.clock ≤ e.1) (.start buf) events)
    (hrun : systemRun host ossl buf events = some s) : s.Ok :=
  along.invariant System.Ok.step ⟨.empty, rfl⟩ hrun

/-- The reply to a valid token. -/
lemma httpOk_valid_iff {b : Bool} : httpOk (validBody b) = httpOk (validBody true) ↔ b = true := by
  cases b with
  | false => exact iff_of_false (by decide +kernel) Bool.false_ne_true
  | true => exact iff_of_true rfl rfl

/-- A request to verify a token that is not refused says what Redis says. -/
lemma Loop.Moves.verify {s s' : Loop} {e : LoopEvent} {h : Handled}
    (moves : s.Moves ossl clock e s') (hlog : s'.handled = s.handled ++ [h])
    (hroute : route h.text = .verify token) (hcode : h.reply.code ≠ 429) :
    h.reply = httpOk (validBody (s.redis.contains clock (tokenKey token))) := by
  have quiet (hsame : s'.handled = s.handled) : False :=
    List.cons_ne_nil h [] (List.self_eq_append_right.mp (hsame.symm.trans hlog))
  cases moves with
  | idle => exact (quiet rfl).elim
  | accept => exact (quiet rfl).elim
  | close => exact (quiet rfl).elim
  | extend => exact (quiet rfl).elim
  | handle fd bytes draws c reqBuf hc =>
    rw [dispatch_handled] at hlog
    obtain rfl := List.singleton_inj.mp (List.append_cancel_left hlog)
    obtain ⟨hreply, -⟩ | ⟨hreply, -⟩ := handleRequest_cases ossl clock draws s.redis
      (Signaling.cstr reqBuf) (AuthServer.connOf_setConn hc { c with reqBuf })
    · exact (hcode (hreply ▸ rfl)).elim
    · refine hreply.trans ?_
      rw [show route (Signaling.cstr reqBuf) = .verify token from hroute]
      rfl

end System

/-- In every run of both services at times that do not decrease, `/auth/verify` reports a token
of 64 bytes as valid, and the signaling server accepts a message with it, exactly if a request
was answered with the token less than 86400 seconds ago and no request to refresh it was
answered 200 since. -/
theorem token_lifecycle (host : Endian) (ossl : Openssl) (buf : Nat → UInt8)
    (events : List (Nat × Act)) (s : System)
    (along : Along (System.step host ossl) (fun s e => s.clock ≤ e.1) (.start buf) events)
    (hrun : systemRun host ossl buf events = some s) (now : Nat) (hnow : s.clock ≤ now)
    (token : List UInt8) (hlen : token.length = tokenLen) (hnul : 0 ∉ token) :
    (∀ e s' h, s.step host ossl (now, .auth e) = some s' → s'.loop.handled = s.loop.handled ++ [h] →
      route h.text = .verify token → h.reply.code ≠ 429 →
      (h.reply = httpOk (validBody true) ↔ leases.Held s.loop.handled now token)) ∧
    (∀ env fd c bytes, s.sig.srv.clientOf fd = some c → Signaling.AuthMessage host token bytes →
      ((∃ s', s.step host ossl (now, .signal (.received env fd bytes)) = some s' ∧
          Signaling.Accepts host s.sig s'.sig c) ↔
        leases.Held s.loop.handled now token)) := by
  have ok : s.Ok := System.run_ok along hrun
  have hheld := ok.tracks.contains_iff now hnow token
  refine ⟨?_, ?_⟩
  · intro e s' h hstep hlog hroute hcode
    cases hstep
    have hreply := (s.loop.step_moves ossl now e).verify hlog hroute hcode
    rw [← hheld, hreply, httpOk_valid_iff]
  · intro env fd c bytes hc msg
    have haccepts : (∃ sig, s.sig.step host (checkedBy s.loop.redis now (.received env fd bytes)) =
      some sig ∧
        Signaling.Accepts host s.sig sig c) ↔ s.loop.redis.contains now (tokenKey token) = true :=
      msg.accepts_iff ok.redis hc hlen hnul
    rw [← hheld, ← haccepts]
    constructor
    · rintro ⟨s', hstep, hs'⟩
      obtain ⟨sig, hsig, hstep⟩ := Option.bind_eq_some_iff.mp hstep
      cases hstep
      exact ⟨sig, hsig, hs'⟩
    · rintro ⟨sig, hsig, hs'⟩
      exact ⟨_, Option.bind_eq_some_iff.mpr ⟨sig, hsig, rfl⟩, hs'⟩

/-- The token that the device `r1` is given. -/
def sampleToken : List UInt8 := newToken vectors sampleDraws (cstr "r1") (cstr "robot")

/-- A request to verify it. -/
def verifyRequest : List UInt8 :=
  cstr "POST /auth/verify HTTP/1.1\r\nContent-Length: 76\r\n\r\n\x7b\"token\":\"" ++ sampleToken ++
    cstr "\"\x7d"

/-- A token is issued after one millisecond, and two clients connect, one to each service. -/
def sampleEvents : List (Nat × Act) :=
  [(0, .auth (.accept 5 [10, 0, 0, 1] 1000 true)),
    (1, .auth (.readable 5 (sampleHead ++ sampleBody) sampleDraws)),
    (2, .auth (.accept 6 [10, 0, 0, 2] 1000 true)), (3, .signal (.accept 0 7))]

/-- A token is handed out. -/
lemma sampleEvents_run : ∃ s, systemRun .little vectors (fun _ => 0) sampleEvents = some s ∧
    s.loop.handled.map (fun h => (h.clock, h.text, h.reply)) =
      [(1, sampleHead ++ sampleBody, httpOk (tokenBody sampleToken))] ∧
    s.clock = 3 ∧ s.loop.srv.connOf 6 = some ⟨[], .new 1000⟩ ∧ s.sig.srv.clientOf 7 = some 0 := by
  refine ⟨_, rfl, ?_, rfl, ?_, ?_⟩
  · decide +kernel
  · decide +kernel
  · rfl

/-- What a loop with the second connection does with the request to verify the token. -/
lemma verifyRequest_handled {s : Loop} (hconn : s.srv.connOf 6 = some ⟨[], .new 1000⟩)
    (clock : Nat) :
    ∃ h, (s.step vectors (clock, .readable 6 verifyRequest sampleDraws)).handled = s.handled ++
      [h] ∧
      route h.text = .verify sampleToken ∧ h.reply.code ≠ 429 := by
  have hroute : route (Signaling.cstr ([] ++ verifyRequest)) = .verify sampleToken := by
    decide +kernel
  rw [step_readable hconn (by decide +kernel) (by decide +kernel), Loop.receive,
    if_pos (by decide +kernel)]
  refine ⟨_, dispatch_handled .., hroute, ?_⟩
  show (handleRequest _ _ _ _ _ _ _).1.code ≠ 429
  rw [handleRequest_of_connOf (AuthServer.connOf_setConn hconn _), if_pos (by decide), respond_code,
    hroute]
  decide

/-- One millisecond before the token expires, both services accept it. -/
theorem token_lifecycle_sample :
    ∃ s, systemRun .little vectors (fun _ => 0) sampleEvents = some s ∧
      (∃ s' h, s.step .little vectors (86400000, .auth (.readable 6 verifyRequest sampleDraws)) =
        some s' ∧
        s'.loop.handled = s.loop.handled ++ [h] ∧ h.reply = httpOk (validBody true)) ∧
      ∃ s', s.step .little vectors (86400000, .signal
          (.received .plain 7 (Signaling.message .little .auth sampleToken))) = some s' ∧
        Signaling.Accepts .little s.sig s'.sig 0 := by
  obtain ⟨s, hrun, hlog, hclock, hconn, hclient⟩ := sampleEvents_run
  obtain ⟨hverify, hsignal⟩ := token_lifecycle .little vectors (fun _ => 0) sampleEvents s
    (by decide +kernel) hrun 86400000 (by omega) sampleToken (by decide +kernel) (by decide +kernel)
  have hheld : leases.Held s.loop.handled 86400000 sampleToken := by
    obtain ⟨h, hlog, hh⟩ := List.map_eq_singleton_iff.mp hlog
    simp only [Prod.mk.injEq] at hh
    obtain ⟨hclock, htext, hreply⟩ := hh
    have hroute : route (sampleHead ++ sampleBody) = .token (cstr "r1") (cstr "robot") := by
      decide +kernel
    refine ⟨[], h, [], hlog, ?_, ?_, fun _ hx => (List.not_mem_nil hx).elim⟩
    · show h.grants sampleToken
      rw [Handled.grants, htext, hroute, hreply]
      exact ⟨rfl, rfl⟩
    · show 86400000 < h.clock + 1000 * tokenTtl
      rw [hclock]
      decide
  have hmsg := Signaling.authMessage_message .little (show sampleToken.length < UInt16.size by
    decide +kernel)
  obtain ⟨h, hhandled, hroute, hcode⟩ := verifyRequest_handled hconn 86400000
  refine ⟨s, hrun, ⟨_, h, rfl, hhandled, ?_⟩, (hsignal .plain 7 0 _ hclient hmsg).mpr hheld⟩
  exact (hverify _ _ h rfl hhandled hroute hcode).mpr hheld

end RoboControl.Auth
