import RoboControl.Base.CString
import RoboControl.Base.Expiring
import RoboControl.Crypto.Session
import RoboControl.Signaling.Server

/-!
# Authentication service

Model of `src/auth/auth_service.c`: the token bucket `rateCheck` (C `rate_check`), the parsing of a
request with `getBody` and `jsonField` (C `get_body`, `json_field`), the tokens in Redis (C
`redis_issue_token`, `redis_verify_token`, `redis_blacklist_token`, `redis_register_device`), the
handler `handleRequest` (C `handle_request`) and the event loop of `main` with its connections
(`Loop.step`).

Texts are C strings, so they are the bytes before the terminating zero. Redis is a map of keys with
an expiry time in milliseconds, and its commands succeed. What the clocks and `RAND_bytes` give is
an argument (`Draws`). The loop keeps a log of the calls of `handle_request` (`Handled`), and it
remembers the address `accept4` returned with a descriptor, which the source does not keep.
-/

namespace RoboControl.Auth
open Base Crypto Function

/-! ## Constants -/

/-- Size of the table of connections (C `MAX_CONNECTIONS`). -/
def maxConnections : Int := 10000

/-- Size of the buffer of a request (C `MAX_REQ_SIZE`). -/
def maxReqSize : Nat := 8192

/-- Length of a token (C `TOKEN_LEN`). -/
def tokenLen : Nat := 64

/-- Key of the tokens' HMAC (C `SECRET_KEY`). -/
def secretKey : List UInt8 := cstr "robocontrol-secret-key-change-in-production"

/-- Lifetime of a token in seconds (C `TOKEN_TTL`). -/
def tokenTtl : Nat := 86400

/-- Seconds of the rate limiter's window (C `RATE_LIMIT_WINDOW`). -/
def rateLimitWindow : UInt32 := 60

/-- Requests in a window (C `RATE_LIMIT_MAX`). -/
def rateLimitMax : UInt32 := 100

/-! ## Rate limiter -/

/-- Token bucket (C `rate_limit_t`). -/
structure RateLimit where
  tokens : UInt32
  maxTokens : UInt32
  refillRate : UInt32
  lastRefill : UInt64
  deriving DecidableEq

/-- The bucket of a new connection. -/
def RateLimit.new (now : UInt64) : RateLimit where
  tokens := rateLimitMax
  maxTokens := rateLimitMax
  refillRate := rateLimitMax / rateLimitWindow
  lastRefill := now

/-- Add the tokens for the time that has passed. -/
def RateLimit.refill (rl : RateLimit) (now : UInt64) : RateLimit :=
  let elapsed := now - rl.lastRefill
  if elapsed > 0 then
    let tokens := rl.tokens + (elapsed * rl.refillRate.toUInt64).toUInt32
    { rl with tokens := if tokens > rl.maxTokens then rl.maxTokens else tokens, lastRefill := now }
  else rl

/-- Take a token, if there is one (C `rate_check`). -/
def rateCheck (rl : RateLimit) (now : UInt64) : Bool × RateLimit :=
  let rl := rl.refill now
  if rl.tokens > 0 then (true, { rl with tokens := rl.tokens - 1 }) else (false, rl)

/-! ## Replies -/

/-- What a request is answered (the arguments of `http_reply`). -/
structure Reply where
  code : Nat
  status : List UInt8
  body : List UInt8
  deriving DecidableEq

/-- C `http_ok`. -/
def httpOk (json : List UInt8) : Reply := ⟨200, cstr "OK", json⟩

/-- C `http_err`. -/
def httpErr (code : Nat) (msg : List UInt8) : Reply :=
  ⟨code, cstr "Error", cstr "\x7b\"error\":\"" ++ msg ++ cstr "\"\x7d\n"⟩

/-- A number in decimal digits (`%u` and its relatives). -/
def decimal (n : Nat) : List UInt8 := (Nat.toDigits 10 n).map fun c => UInt8.ofNat c.toNat

/-- The body that gives a token to a device. -/
def tokenBody (token : List UInt8) : List UInt8 :=
  cstr "\x7b\"token\":\"" ++ token ++ cstr "\",\"expires_in\":" ++ decimal tokenTtl ++ cstr "\x7d\n"

/-- The body that gives a token to a new device. -/
def registeredBody (deviceId token : List UInt8) : List UInt8 :=
  cstr "\x7b\"device_id\":\"" ++ deviceId ++ cstr "\",\"token\":\"" ++ token ++ cstr "\"\x7d\n"

/-- The body that says whether a token is valid. -/
def validBody (valid : Bool) : List UInt8 :=
  cstr "\x7b\"valid\":" ++ (if valid then cstr "true" else cstr "false") ++ cstr "\x7d\n"

/-- The body of a health check. -/
def healthBody (activeConns : UInt32) : List UInt8 :=
  cstr "\x7b\"status\":\"ok\",\"connections\":" ++ decimal activeConns.toNat ++ cstr "\x7d\n"

/-! ## Redis -/

/-- What a key of Redis holds. -/
inductive RedisValue where
  | string (bytes : List UInt8)
  | hash (fields : List (List UInt8 × List UInt8))
  | set (members : List (List UInt8))

/-- Redis: keys with their value and the time at which they expire. -/
abbrev Redis := ExpiringMap (List UInt8) RedisValue

namespace Redis

/-- The command `SETEX`; the expiry is given in seconds. -/
def setex (redis : Redis) (now : Nat) (key : List UInt8) (seconds : Nat) (value : List UInt8) :
    Redis :=
  redis.alter now key fun _ => some (.string value, some (now + 1000 * seconds))

/-- The command `DEL`. -/
def del (redis : Redis) (now : Nat) (key : List UInt8) : Redis := redis.alter now key fun _ => none

/-- The command `HSET`; a key that holds something else is left alone. -/
def hset (redis : Redis) (now : Nat) (key : List UInt8) (fields : List (List UInt8 × List UInt8)) :
    Redis :=
  redis.alter now key fun
    | none => some (.hash fields, none)
    | some (.hash old, expiry) =>
      some (.hash (fields ++ old.filter (·.1 ∉ fields.map (·.1))), expiry)
    | some other => some other

/-- The command `HDEL`; a hash without fields is removed. -/
def hdel (redis : Redis) (now : Nat) (key field : List UInt8) : Redis :=
  redis.alter now key fun
    | some (.hash old, expiry) =>
      let fields := old.filter (·.1 ≠ field)
      if fields = [] then none else some (.hash fields, expiry)
    | other => other

/-- The command `SADD`. -/
def sadd (redis : Redis) (now : Nat) (key member : List UInt8) : Redis :=
  redis.alter now key fun
    | none => some (.set [member], none)
    | some (.set old, expiry) => some (.set (old.insert member), expiry)
    | some other => some other

end Redis

/-- The key of a token. -/
def tokenKey (token : List UInt8) : List UInt8 := cstr "auth:token:" ++ token

/-- The key of a device. -/
def deviceKey (deviceId : List UInt8) : List UInt8 := cstr "auth:device:" ++ deviceId

/-- What a request gets from `now_sec`, in `rate_check` and for the token and the device, and from
`RAND_bytes`. -/
structure Draws where
  now : UInt64
  issued : UInt64
  registered : UInt64
  nonce : Bytes 16

/-- Bytes in hexadecimal digits (C `random_hex`, and the loop of `hmac_sha256`). -/
def hexDigits (bytes : List UInt8) : List UInt8 :=
  let hex := cstr "0123456789abcdef"
  bytes.flatMap fun (b : UInt8) => [hex.getD (b >>> 4).toNat 0, hex.getD (b &&& 0x0f).toNat 0]

/-- HMAC-SHA256 in hexadecimal digits (C `hmac_sha256`); nothing, if `HMAC` fails. -/
def hmacSha256 (ossl : Openssl) (key data : List UInt8) : List UInt8 :=
  match ossl.hmac key data with
  | none => []
  | some md => hexDigits md.toList

/-- The text that a token is the HMAC of. -/
def tokenPayload (draws : Draws) (deviceId role : List UInt8) : List UInt8 :=
  deviceId ++ cstr ":" ++ role ++ cstr ":" ++ decimal draws.issued.toNat ++ cstr ":" ++
    hexDigits draws.nonce.toList

/-- Issue a token (C `redis_issue_token`). -/
def redisIssueToken (ossl : Openssl) (now : Nat) (draws : Draws) (redis : Redis)
    (deviceId role : List UInt8) : List UInt8 × Redis :=
  let token := hmacSha256 ossl secretKey (tokenPayload draws deviceId role)
  let redis := redis.setex now (tokenKey token) tokenTtl deviceId
  (token, redis.hset now (deviceKey deviceId) [(cstr "token", token), (cstr "role", role)])

/-- Whether a token is valid (C `redis_verify_token`). -/
def redisVerifyToken (now : Nat) (redis : Redis) (token : List UInt8) : Bool :=
  redis.contains now (tokenKey token)

/-- Revoke a token (C `redis_blacklist_token`). -/
def redisBlacklistToken (now : Nat) (redis : Redis) (token : List UInt8) : Redis :=
  (redis.del now (tokenKey token)).sadd now (cstr "auth:blacklist") token

/-- Register a device (C `redis_register_device`). -/
def redisRegisterDevice (now : Nat) (draws : Draws) (redis : Redis)
    (deviceId name type : List UInt8) :
    Redis :=
  redis.hset now (cstr "auth:devices")
    [(deviceId ++ cstr ":name", name), (deviceId ++ cstr ":type", type),
      (deviceId ++ cstr ":registered", decimal draws.registered.toNat)]

/-! ## Requests -/

/-- The end of the headers. -/
def crlf2 : List UInt8 := [13, 10, 13, 10]

/-- The body of a request (C `get_body`). -/
def getBody (req : List UInt8) : Option (List UInt8) := (strstr req crlf2).map (·.drop crlf2.length)

/-- The value of a field of a flat JSON object, in a buffer of some size (C `json_field`). -/
def jsonField (json key : List UInt8) (outLen : Nat) : Option (List UInt8) := do
  -- `snprintf` cuts the text at the size of `search`.
  let search := (cstr "\"" ++ key ++ cstr "\"").take 127
  let p ← strstr json search
  let p ← strchr (p.drop search.length) 58
  match (p.drop 1).dropWhile fun b => b == 32 || b == 9 with
  | 34 :: p => if 34 ∈ p then some ((p.takeWhile (· ≠ 34)).take (outLen - 1)) else none
  -- A number or a bare value.
  | p => some ((p.takeWhile fun b => b ≠ 44 && b ≠ 125 && b ≠ 10).take (outLen - 1))

/-- The value of a field, in a buffer that is empty at first. -/
def field (json : List UInt8) (key : String) (outLen : Nat) : List UInt8 :=
  (jsonField json (cstr key) outLen).getD []

/-- A value that may be missing, with its default. -/
def orDefault (value default : List UInt8) : List UInt8 := if value = [] then default else value

/-- What a request asks for. -/
inductive Call where
  | token (deviceId role : List UInt8)
  | verify (token : List UInt8)
  | refresh (token deviceId role : List UInt8)
  | register (deviceId name type : List UInt8)
  | health
  | refused (code : Nat) (msg : List UInt8)
  deriving DecidableEq

/-- `POST /auth/token`. -/
def parseToken (body : List UInt8) : Call :=
  let deviceId := field body "device_id" 128
  let role := field body "role" 32
  if deviceId = [] then .refused 400 (cstr "device_id required")
  else .token deviceId (orDefault role (cstr "robot"))

/-- `POST /auth/verify`. -/
def parseVerify (body : List UInt8) : Call :=
  let token := field body "token" 256
  if token = [] then .refused 400 (cstr "token required") else .verify token

/-- `POST /auth/refresh`. -/
def parseRefresh (body : List UInt8) : Call :=
  let token := field body "token" 256
  let deviceId := field body "device_id" 128
  let role := field body "role" 32
  if token = [] ∨ deviceId = [] then .refused 400 (cstr "token+device_id required")
  else .refresh token deviceId (orDefault role (cstr "robot"))

/-- `POST /auth/register`. -/
def parseRegister (body : List UInt8) : Call :=
  let deviceId := field body "device_id" 128
  let name := field body "name" 128
  let type := field body "type" 64
  if deviceId = [] then .refused 400 (cstr "device_id required")
  else .register deviceId (orDefault name deviceId) (orDefault type (cstr "robot"))

/-- The routes of `handle_request`. -/
def route (req : List UInt8) : Call :=
  let (method, rest) := scanWord 7 req
  let (path, _) := scanWord 255 rest
  if method = cstr "POST" then
    match getBody req with
    | none => .refused 400 (cstr "empty body")
    | some body =>
      if path = cstr "/auth/token" then parseToken body
      else if path = cstr "/auth/verify" then parseVerify body
      else if path = cstr "/auth/refresh" then parseRefresh body
      else if path = cstr "/auth/register" then parseRegister body
      else .refused 404 (cstr "not found")
  else if method = cstr "GET" then
    if path = cstr "/health" then .health else .refused 404 (cstr "not found")
  else .refused 405 (cstr "method not allowed")

/-- Do what a request asks for. -/
def respond (ossl : Openssl) (now : Nat) (draws : Draws) (activeConns : UInt32) (redis : Redis) :
    Call → Reply × Redis
  | .token deviceId role =>
    let (token, redis) := redisIssueToken ossl now draws redis deviceId role
    (httpOk (tokenBody token), redis)
  | .verify token => (httpOk (validBody (redisVerifyToken now redis token)), redis)
  | .refresh token deviceId role =>
    let redis := redisBlacklistToken now redis token
    let (newToken, redis) := redisIssueToken ossl now draws redis deviceId role
    (httpOk (tokenBody newToken), redis)
  | .register deviceId name type =>
    let redis := redisRegisterDevice now draws redis deviceId name type
    let (token, redis) := redisIssueToken ossl now draws redis deviceId (cstr "robot")
    (httpOk (registeredBody deviceId token), redis)
  | .health => (httpOk (healthBody activeConns), redis)
  | .refused code msg => (httpErr code msg, redis)

/-! ## Connections -/

/-- Connection (C `auth_conn_t`); `reqBuf` has the `req_len` bytes that were received. -/
structure AuthConn where
  reqBuf : List UInt8
  rate : RateLimit
  deriving DecidableEq

/-- Server (C `auth_server_t`). -/
structure AuthServer where
  conns : Int → Option AuthConn
  activeConns : UInt32

namespace AuthServer

/-- The connection of a descriptor. -/
def connOf (srv : AuthServer) (fd : Int) : Option AuthConn :=
  if fd < maxConnections then srv.conns fd else none

/-- Change a connection. -/
def setConn (srv : AuthServer) (fd : Int) (c : AuthConn) : AuthServer :=
  { srv with conns := update srv.conns fd (some c) }

/-- Set up a connection that was accepted. -/
def accept (srv : AuthServer) (fd : Int) (now : UInt64) : AuthServer where
  conns := update srv.conns fd (some ⟨[], .new now⟩)
  activeConns := srv.activeConns + 1

/-- Tear a connection down. -/
def close (srv : AuthServer) (fd : Int) : AuthServer where
  conns := update srv.conns fd none
  activeConns := srv.activeConns - 1

end AuthServer

/-- Handle a request (C `handle_request`): the reply, the server and Redis. -/
def handleRequest (ossl : Openssl) (now : Nat) (draws : Draws) (srv : AuthServer) (redis : Redis)
    (fd : Int) (req : List UInt8) : Reply × AuthServer × Redis :=
  match srv.connOf fd with
  | none =>
    let (reply, redis) := respond ossl now draws srv.activeConns redis (route req)
    (reply, srv, redis)
  | some c =>
    let (ok, rate) := rateCheck c.rate draws.now
    let srv := srv.setConn fd { c with rate }
    if ok then
      let (reply, redis) := respond ossl now draws srv.activeConns redis (route req)
      (reply, srv, redis)
    else (httpErr 429 (cstr "rate limit exceeded"), srv, redis)

/-! ## Event loop -/

/-- An event of the loop: `accept4` returned a descriptor and the address of the peer, and `calloc`
succeeded or not; a descriptor is readable, with the bytes that there are, none at the end of the
stream; or `recv` failed with an error that is not temporary. -/
inductive LoopEvent where
  | accept (fd : Int) (peer : List UInt8) (now : UInt64) (alloc : Bool)
  | readable (fd : Int) (bytes : List UInt8) (draws : Draws)
  | failed (fd : Int)

/-- The descriptor of an event. -/
def LoopEvent.fd : LoopEvent → Int
  | .accept fd _ _ _ => fd
  | .readable fd _ _ => fd
  | .failed fd => fd

/-- A call of `handle_request`: the time of its commands in Redis, its descriptor and peer, when the
connection was accepted, when `rate_check` looked at the clock, the text and the reply. -/
structure Handled where
  clock : Nat
  fd : Int
  peer : List UInt8
  accepted : UInt64
  now : UInt64
  text : List UInt8
  reply : Reply

/-- The server with Redis, the addresses of the peers and the log of the calls. -/
structure Loop where
  srv : AuthServer
  redis : Redis
  peers : Int → List UInt8
  handled : List Handled

/-- The loop at first. -/
def Loop.start (redis : Redis) : Loop := ⟨⟨fun _ => none, 0⟩, redis, fun _ => [], []⟩

/-- Call `handle_request` and tear the connection down. -/
def Loop.dispatch (ossl : Openssl) (clock : Nat) (draws : Draws) (s : Loop) (fd : Int)
    (accepted : UInt64) (req : List UInt8) : Loop :=
  let (reply, srv, redis) := handleRequest ossl clock draws s.srv s.redis fd req
  { s with
    srv := srv.close fd
    redis
    handled := s.handled ++ [⟨clock, fd, s.peers fd, accepted, draws.now, req, reply⟩] }

/-- Append to the request of a connection, and handle it when the headers are complete. -/
def Loop.receive (ossl : Openssl) (clock : Nat) (draws : Draws) (s : Loop) (fd : Int) (c : AuthConn)
    (bytes : List UInt8) : Loop :=
  let reqBuf := c.reqBuf ++ bytes
  let s := { s with srv := s.srv.setConn fd { c with reqBuf } }
  let req := Signaling.cstr reqBuf
  if (strstr req crlf2).isSome then s.dispatch ossl clock draws fd c.rate.lastRefill req else s

/-- Handle an event (the body of the loop of `main`). -/
def Loop.step (ossl : Openssl) (s : Loop) : Nat × LoopEvent → Loop
  | (_, .accept fd peer now alloc) =>
    if fd < 0 ∨ fd ≥ maxConnections ∨ alloc = false then s
    else { s with srv := s.srv.accept fd now, peers := update s.peers fd peer }
  | (clock, .readable fd bytes draws) =>
    match s.srv.connOf fd with
    | none => s
    | some c =>
      let bytes := bytes.take (maxReqSize - c.reqBuf.length - 1)
      if bytes = [] then { s with srv := s.srv.close fd } else s.receive ossl clock draws fd c bytes
  | (_, .failed fd) =>
    match s.srv.connOf fd with
    | none => s
    | some _ => { s with srv := s.srv.close fd }

/-- A run of the loop. -/
def loopRun (ossl : Openssl) (s : Loop) (events : List (Nat × LoopEvent)) : Loop :=
  events.foldl (Loop.step ossl) s

end RoboControl.Auth
