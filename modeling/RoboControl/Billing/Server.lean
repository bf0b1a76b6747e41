import RoboControl.Auth.Server
import RoboControl.Base.Decimal

/-!
# Billing service

Model of `src/billing/billing_service.c`: the subscriptions and the usage in Redis (C
`redis_get_tier`, `redis_set_subscription`, `redis_get_usage`, `redis_add_usage`,
`redis_reset_daily`), the handler `handleRequest` (C `handle_request`) and a connection of the loop
of `main` (`serve`). The function `get_body` is that of the authentication service, and `json_field`
is a copy of its own.

Redis is a map of hashes with a log of what was published, and it is connected. A command that it
refuses changes nothing, and the source does not look at the answer. What the clock gives is an
argument (`Draws`).
-/

namespace RoboControl.Billing
open Base Crypto Auth

/-- Size of the buffer of a request (C `MAX_REQ_SIZE`). -/
def maxReqSize : Nat := 8192

/-! ## Tiers -/

/-- Subscription tier (C `tier_t`). -/
inductive Tier where
  | free
  | pro
  | enterprise
  deriving DecidableEq

namespace Tier

/-- The number of a tier. -/
def code : Tier → Nat
  | free => 0
  | pro => 1
  | enterprise => 2

/-- The tier with a number; other numbers are `TIER_FREE`. -/
def ofCode : Int → Tier
  | 1 => pro
  | 2 => enterprise
  | _ => free

/-- The name of a tier (`name` in C `TIERS`). -/
def name : Tier → List UInt8
  | free => cstr "free"
  | pro => cstr "pro"
  | enterprise => cstr "enterprise"

/-- The bytes of a day (`daily_bytes` in C `TIERS`); 0 is no limit. -/
def dailyBytes : Tier → UInt64
  | free => 100 * 1024 * 1024
  | pro => 10 * 1024 * 1024 * 1024
  | enterprise => 0

/-- The tier that a request names. -/
def ofName (name : List UInt8) : Tier :=
  if name = cstr "pro" then pro else if name = cstr "enterprise" then enterprise else free

end Tier

/-! ## Redis -/

/-- Redis: hashes, the set `billing:users`, and what was published on which channel. -/
structure Redis where
  hashes : List UInt8 → List UInt8 → Option (List UInt8)
  users : List (List UInt8)
  published : List (List UInt8 × List UInt8)

namespace Redis

/-- Redis without keys. -/
def empty : Redis := ⟨fun _ _ => none, [], []⟩

/-- The command `HGET`. -/
def hget (redis : Redis) (key field : List UInt8) : Option (List UInt8) := redis.hashes key field

/-- Set a field of a hash. -/
def setField (hash : List UInt8 → Option (List UInt8)) (f : List UInt8 × List UInt8) :
    List UInt8 → Option (List UInt8) :=
  Function.update hash f.1 (some f.2)

/-- The command `HSET`. -/
def hset (redis : Redis) (key : List UInt8) (fields : List (List UInt8 × List UInt8)) : Redis :=
  { redis with
    hashes := Function.update redis.hashes key (fields.foldl setField (redis.hashes key)) }

/-- The command `HINCRBY`: a field that is missing is 0, and the increment, the old and the new
value are signed numbers of 64 bits. -/
def hincrby (redis : Redis) (key field increment : List UInt8) : Redis :=
  match string2ll increment, string2ll ((redis.hget key field).getD (digits 0)) with
  | some n, some value =>
    if -2 ^ 63 ≤ value + n ∧ value + n < 2 ^ 63 then
      redis.hset key [(field, signedDigits (value + n))]
    else redis
  | _, _ => redis

/-- The command `SADD billing:users`. -/
def sadd (redis : Redis) (user : List UInt8) : Redis :=
  { redis with users := redis.users.insert user }

/-- The command `PUBLISH`. -/
def publish (redis : Redis) (channel message : List UInt8) : Redis :=
  { redis with published := redis.published ++ [(channel, message)] }

end Redis

/-- The key of a subscription. -/
def subKey (user : List UInt8) : List UInt8 := cstr "billing:sub:" ++ user

/-- The key of the usage of a user. -/
def usageKey (user : List UInt8) : List UInt8 := cstr "billing:usage:" ++ user

/-- What a request gets from `now_sec`, which it calls twice at most. -/
structure Draws where
  now : UInt64
  again : UInt64

/-- The start of the day (C `today_start`, which reads the clock twice). -/
def todayStart (draws : Draws) : UInt64 := draws.now - draws.again % 86400

/-- The tier of a user (C `redis_get_tier`). -/
def redisGetTier (redis : Redis) (user : List UInt8) : Tier :=
  match redis.hget (subKey user) (cstr "tier") with
  | none => .free
  | some text => .ofCode (atoi text)

/-- Store a subscription (C `redis_set_subscription`). -/
def redisSetSubscription (draws : Draws) (redis : Redis) (user : List UInt8) (tier : Tier)
    (expires : UInt64) :
    Redis :=
  let redis := redis.hset (subKey user)
    [(cstr "tier", digits tier.code), (cstr "subscribed_at", digits draws.again.toNat),
      (cstr "expires_at", digits expires.toNat), (cstr "active", cstr "1")]
  redis.sadd user

/-- Usage (C `usage_t`, the fields that are read from Redis). -/
structure Usage where
  bytesToday : UInt64
  bytesThisMonth : UInt64
  connectionSecondsToday : UInt64
  deriving DecidableEq

/-- The usage of a user (C `redis_get_usage`). -/
def redisGetUsage (redis : Redis) (user : List UInt8) : Usage :=
  let number (field : List UInt8) : UInt64 := (redis.hget (usageKey user) field).elim 0 strtoull
  ⟨number (cstr "bytes_today"), number (cstr "bytes_month"), number (cstr "conn_sec_today")⟩

/-- The commands of `redis_add_usage` before its check. -/
def countUsage (draws : Draws) (redis : Redis) (user : List UInt8) (bytes connSec : UInt64) :
    Redis :=
  let redis := redis.hincrby (usageKey user) (cstr "bytes_today") (digits bytes.toNat)
  let redis := redis.hincrby (usageKey user) (cstr "bytes_month") (digits bytes.toNat)
  let redis := redis.hincrby (usageKey user) (cstr "conn_sec_today") (digits connSec.toNat)
  redis.hset (usageKey user) [(cstr "last_day", digits (todayStart draws).toNat)]

/-- The channel and the text of an overage alert. -/
def overageAlert (user : List UInt8) (bytes : Nat) : List UInt8 × List UInt8 :=
  (cstr "billing:alerts",
    cstr "\x7b\"user\":\"" ++ user ++ cstr "\",\"type\":\"overage\",\"bytes\":" ++ digits bytes ++
      cstr "\x7d")

/-- Publish an alert for a user beyond the limit of the day (the check of `redis_add_usage`). -/
def checkOverage (redis : Redis) (user : List UInt8) : Redis :=
  let limit := (redisGetTier redis user).dailyBytes
  let u := redisGetUsage redis user
  if limit > 0 ∧ u.bytesToday > limit then
    let (channel, message) := overageAlert user u.bytesToday.toNat
    redis.publish channel message
  else redis

/-- Count a report of usage (C `redis_add_usage`). -/
def redisAddUsage (draws : Draws) (redis : Redis) (user : List UInt8) (bytes connSec : UInt64) :
    Redis :=
  checkOverage (countUsage draws redis user bytes connSec) user

/-- Reset the counters of the day (C `redis_reset_daily`). -/
def redisResetDaily (redis : Redis) (user : List UInt8) : Redis :=
  redis.hset (usageKey user) [(cstr "bytes_today", cstr "0"), (cstr "conn_sec_today", cstr "0")]

/-! ## Requests -/

/-- C `http_reply` with the status 200. -/
def httpOk (body : List UInt8) : Reply := ⟨200, cstr "OK", body⟩

/-- The text of an error. -/
def errorBody (msg : List UInt8) : List UInt8 := cstr "\x7b\"error\":\"" ++ msg ++ cstr "\"\x7d\n"

/-- The answer to a subscription. -/
def subscribeBody (user : List UInt8) (tier : Tier) (expires : UInt64) : List UInt8 :=
  cstr "\x7b\"user_id\":\"" ++ user ++ cstr "\",\"tier\":\"" ++ tier.name ++
    cstr "\",\"expires\":" ++ digits expires.toNat ++ cstr "\x7d\n"

/-- The answer to a report of usage. -/
def usageBody (user : List UInt8) (tier : Tier) (bytesToday bytesMonth : Nat) : List UInt8 :=
  cstr "\x7b\"user_id\":\"" ++ user ++ cstr "\",\"tier\":\"" ++ tier.name ++
    cstr "\",\"bytes_today\":" ++ digits bytesToday ++ cstr ",\"bytes_month\":" ++
    digits bytesMonth ++ cstr ",\"daily_limit\":" ++
    digits tier.dailyBytes.toNat ++ cstr "\x7d\n"

/-- An invoice. -/
def invoiceBody (invoiceId : List UInt8) : List UInt8 :=
  cstr "\x7b\"invoice_id\":\"" ++ invoiceId ++
    cstr "\",\"status\":\"generated\",\"amount_cents\":0,\"currency\":\"USD\"\x7d\n"

/-- The list of the tiers. -/
def tiersBody : List UInt8 :=
  cstr "\x7b\"tiers\":[\x7b\"name\":\"free\",\"max_robots\":1,\"daily_bytes\":" ++
    digits Tier.free.dailyBytes.toNat ++
    cstr ",\"price_cents\":0\x7d,\x7b\"name\":\"pro\",\"max_robots\":10,\"daily_bytes\":" ++
    digits Tier.pro.dailyBytes.toNat ++
    cstr ",\"price_cents\":2900\x7d,\x7b\"name\":\"enterprise\",\"max_robots\":0," ++
    cstr "\"daily_bytes\":0,\"price_cents\":9900\x7d]\x7d\n"

/-- The value of a field of a flat JSON object, in a buffer of some size (C `json_field`). -/
def jsonField (json key : List UInt8) (outLen : Nat) : Option (List UInt8) := do
  let search := (cstr "\"" ++ key ++ cstr "\"").take 127
  let p ← strstr json search
  let p ← strchr (p.drop search.length) 58
  match (p.drop 1).dropWhile fun b => b == 32 || b == 9 with
  | 34 :: p => if 34 ∈ p then some ((p.takeWhile (· ≠ 34)).take (outLen - 1)) else none
  | p => some ((p.takeWhile fun b => b ≠ 44 && b ≠ 125 && b ≠ 10).take (outLen - 1))

/-- The value of a field, in a buffer that is empty at first. -/
def field (json : List UInt8) (key : String) (outLen : Nat) : List UInt8 :=
  (jsonField json (cstr key) outLen).getD []

/-- What a request asks for. -/
inductive Call where
  | subscribe (user : List UInt8) (tier : Tier)
  | usage (user : List UInt8) (bytes connSec : UInt64)
  | reset (user : List UInt8)
  | invoice (invoiceId : List UInt8)
  | tiers
  | health
  | refused (code : Nat) (status msg : List UInt8)
  deriving DecidableEq

/-- A request for a user, who has to be named. -/
def forUser (body : List UInt8) (call : List UInt8 → Call) : Call :=
  let user := field body "user_id" 64
  if user = [] then .refused 400 (cstr "Bad Request") (cstr "user_id required") else call user

/-- `POST /billing/subscribe`. -/
def parseSubscribe (body : List UInt8) : Call :=
  forUser body fun user => .subscribe user (.ofName (field body "tier" 16))

/-- `POST /billing/usage`. -/
def parseUsage (body : List UInt8) : Call :=
  forUser body fun user =>
    .usage user (strtoull (field body "bytes" 32)) (strtoull (field body "connection_seconds" 32))

/-- `POST /billing/usage/reset`. -/
def parseReset (body : List UInt8) : Call := forUser body .reset

/-- The routes of `handle_request`. -/
def route (req : List UInt8) : Call :=
  let (method, rest) := scanWord 7 req
  let (path, _) := scanWord 255 rest
  let notFound := .refused 404 (cstr "Not Found") (cstr "not found")
  if method = cstr "POST" then
    match getBody req with
    | none => .refused 400 (cstr "Bad Request") (cstr "empty body")
    | some body =>
      if path = cstr "/billing/subscribe" then parseSubscribe body
      else if path = cstr "/billing/usage" then parseUsage body
      else if path = cstr "/billing/usage/reset" then parseReset body
      else notFound
  else if method = cstr "GET" then
    if (cstr "/billing/invoice/").isPrefixOf path then .invoice (path.drop 17)
    else if path = cstr "/billing/tiers" then .tiers
    else if path = cstr "/health" then .health
    else notFound
  else .refused 405 (cstr "Method Not Allowed") (cstr "method not allowed")

/-- When a subscription that is made now expires. -/
def expiresAt (draws : Draws) : UInt64 := draws.now + 30 * 86400

/-- Do what a request asks for. -/
def respond (draws : Draws) (redis : Redis) : Call → Reply × Redis
  | .subscribe user tier =>
    let expires := expiresAt draws
    (httpOk (subscribeBody user tier expires), redisSetSubscription draws redis user tier expires)
  | .usage user bytes connSec =>
    let redis := redisAddUsage draws redis user bytes connSec
    let u := redisGetUsage redis user
    let tier := redisGetTier redis user
    (httpOk (usageBody user tier u.bytesToday.toNat u.bytesThisMonth.toNat), redis)
  | .reset user => (httpOk (cstr "\x7b\"ok\":true\x7d\n"), redisResetDaily redis user)
  | .invoice invoiceId => (httpOk (invoiceBody invoiceId), redis)
  | .tiers => (httpOk tiersBody, redis)
  | .health => (httpOk (cstr "\x7b\"status\":\"ok\"\x7d\n"), redis)
  | .refused code status msg => (⟨code, status, errorBody msg⟩, redis)

/-- Handle a request (C `handle_request`). -/
def handleRequest (draws : Draws) (redis : Redis) (req : List UInt8) : Reply × Redis :=
  respond draws redis (route req)

/-- A connection: what the clock gives, and the bytes of its one `recv`. -/
structure Request where
  draws : Draws
  bytes : List UInt8

/-- The text of a request. -/
def Request.text (r : Request) : List UInt8 := Signaling.cstr (r.bytes.take (maxReqSize - 1))

/-- Serve a connection (the body of the loop of `main`); there is no reply if nothing
was received. -/
def serve (redis : Redis) (r : Request) : Option Reply × Redis :=
  if r.bytes = [] then (none, redis)
  else
    let (reply, redis) := handleRequest r.draws redis r.text
    (some reply, redis)

/-- A run of the service. -/
def run (redis : Redis) (requests : List Request) : Redis :=
  requests.foldl (fun redis r => (serve redis r).2) redis

/-- What a connection asks for. -/
def Request.call (r : Request) : Option Call := if r.bytes = [] then none else some (route r.text)

/-- A request with a call. -/
lemma serve_eq {redis : Redis} {r : Request} {call : Call} (h : r.call = some call) :
    serve redis r = (some (respond r.draws redis call).1, (respond r.draws redis call).2) := by
  rw [Request.call] at h
  split at h
  · cases h
  · next hbytes =>
    cases h
    rw [serve, if_neg hbytes, handleRequest]

/-- A request without a call. -/
lemma serve_eq_none {redis : Redis} {r : Request} (h : r.call = none) :
    serve redis r = (none, redis) := by
  rw [Request.call] at h
  split at h
  · next hbytes => rw [serve, if_pos hbytes]
  · cases h

/-- The last request. -/
lemma run_concat (redis : Redis) (requests : List Request) (r : Request) :
    run redis (requests ++ [r]) = (serve (run redis requests) r).2 := List.foldl_concat ..

end RoboControl.Billing
