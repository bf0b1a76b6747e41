import RoboControl.Base.Chain
import RoboControl.Connection.Basic

/-!
# Connection pool

Model of the connection pool of `src/core/rc_conn.c`: `Pool` (C `rc_conn_pool_t`), `connPoolInit`,
`connCreate`, `connLookup`, `connPurgeTimeouts` and `connPoolDestroy` (C `rc_conn_pool_init` and so
on). The pool is a hash table whose chains run through `user_data`. Connections live in a heap
`conns`; a freed or foreign address has no connection there.

Functions that follow chains return `none` where they would dereference something that is not a
connection, and where the chain does not end. The pool is modelled as one thread sees it: the locks
and the messages to syslog are left out.
-/

namespace RoboControl.Connection
open Base Proto Crypto Function

/-! ## Hash table -/

/-- Number of hash buckets (C `RC_CONN_POOL_BUCKETS`). -/
def connPoolBuckets : Nat := 16777259

/-- Maximum number of connections (C `RC_MAX_CONNECTIONS`). -/
def maxConnections : UInt64 := 10000000

/-- Hash of a connection id (C `conn_hash`). -/
def connHash (key : UInt32) : UInt32 :=
  let key := key ^^^ (key >>> 16)
  let key := key * 0x85EBCA6B
  let key := key ^^^ (key >>> 13)
  let key := key * 0xC2B2AE35
  key ^^^ (key >>> 16)

/-- The bucket of a connection id. -/
def bucketOf (connId : UInt32) : Nat := (connHash connId).toNat % connPoolBuckets

/-- The chain link that `user_data` holds; `none` where it points to something else. -/
def UserData.link : UserData → Option (Option Ptr)
  | .null => some none
  | .conn p => some (some p)
  | .clientCtx _ => none
  | .serverCtx _ => none

/-- A chain link as `user_data`. -/
def UserData.ofLink : Option Ptr → UserData
  | none => .null
  | some p => .conn p

@[simp] lemma UserData.link_ofLink (q : Option Ptr) : (UserData.ofLink q).link = some q := by
  cases q <;> rfl

/-- Connection pool (C `rc_conn_pool_t`), with the heap its connections live in, the address that
the next allocation returns, and the counter of `rc_conn_create` for ids. -/
structure Pool where
  buckets : Nat → Option Ptr
  count : UInt64
  maxConn : UInt64
  conns : Ptr → Option Conn
  fresh : Ptr
  nextId : UInt32

/-- An empty pool (C `rc_conn_pool_init`). -/
def connPoolInit (maxConn : UInt64) (nextId : UInt32) : Pool where
  buckets _ := none
  count := 0
  maxConn := if maxConn = 0 then maxConnections else maxConn
  conns _ := none
  fresh := 0
  nextId := nextId

/-- What a creation gets from allocation, from the mutex and from the clock. -/
structure CreateDraws where
  connAlloc : Bool
  mutexInit : Bool
  sendAlloc : Bool
  recvAlloc : Bool
  now : Timeval

/-- Create a connection and insert it at the head of its chain (C `rc_conn_create`). -/
def connCreate (draws : CreateDraws) (pool : Pool) (fd : Int) (connId : UInt32) :
    Option Ptr × Pool :=
  if pool.count ≥ pool.maxConn then (none, pool)
  else if draws.connAlloc = false then (none, pool)
  else
    let id := if connId = 0 then pool.nextId else connId
    let pool := if connId = 0 then { pool with nextId := pool.nextId + 1 } else pool
    if draws.mutexInit = false then (none, pool)
    else
      let (sendRet, sendBuf) := ringbufInit draws.sendAlloc .empty 65536
      let (recvRet, recvBuf) := ringbufInit draws.recvAlloc .empty 65536
      if sendRet ≠ 0 ∨ recvRet ≠ 0 then (none, pool)
      else
        let bucket := bucketOf id
        let conn : Conn := {
          connId := id, fd := fd, state := .closed, refcnt := 1, session := sessionInit .aes256Gcm,
          localSeq := 0, sendBuf := sendBuf, recvBuf := recvBuf, lastRecv := draws.now,
          userData := .ofLink (pool.buckets bucket) }
        (some pool.fresh, { pool with
          conns := update pool.conns pool.fresh (some conn)
          buckets := update pool.buckets bucket (some pool.fresh)
          count := pool.count + 1
          fresh := pool.fresh + 1 })

/-- Find an id in a chain (the loop of `rc_conn_lookup`). -/
def lookupChain (conns : Ptr → Option Conn) (connId : UInt32) : Nat → Option Ptr →
    Option (Option Ptr)
  | _, none => some none
  | 0, some _ => none
  | fuel + 1, some p =>
    match conns p with
    | none => none
    | some conn =>
      if conn.connId = connId then some (some p)
      else
        match conn.userData.link with
        | none => none
        | some q => lookupChain conns connId fuel q

/-- Replace a connection in the heap. -/
def Pool.setConn (pool : Pool) (p : Ptr) (conn : Conn) : Pool :=
  { pool with conns := update pool.conns p (some conn) }

/-- The connection that a lookup finds. -/
def Pool.find (pool : Pool) (connId : UInt32) : Option (Option Ptr) :=
  lookupChain pool.conns connId pool.fresh (pool.buckets (bucketOf connId))

/-- Look up a connection and take a reference (C `rc_conn_lookup`). -/
def connLookup (pool : Pool) (connId : UInt32) : Option (Option Ptr × Pool) := do
  match ← pool.find connId with
  | none => return (none, pool)
  | some p =>
    let conn ← pool.conns p
    return (some p, pool.setConn p { conn with refcnt := conn.refcnt + 1 })

/-! ## Purging -/

/-- Where a chain pointer is stored: in a bucket or in a connection (the `pp` of
`rc_conn_purge_timeouts`). -/
inductive Slot where
  | bucket (i : Nat)
  | link (p : Ptr)

/-- The pointer in a slot. -/
def Pool.read (pool : Pool) : Slot → Option (Option Ptr)
  | .bucket i => some (pool.buckets i)
  | .link p => (pool.conns p).bind (·.userData.link)

/-- Store a pointer in a slot. -/
def Pool.write (pool : Pool) (q : Option Ptr) : Slot → Pool
  | .bucket i => { pool with buckets := update pool.buckets i q }
  | .link p =>
    { pool with
      conns := update pool.conns p
        ((pool.conns p).map ({ · with userData := .ofLink q })) }

/-- Idle time of a connection: both differences are cast to 64 unsigned bits before the division. -/
def idleMs (now lastRecv : Timeval) : UInt64 :=
  UInt64.ofInt (now.sec - lastRecv.sec) * 1000 + UInt64.ofInt (now.usec - lastRecv.usec) / 1000

/-- A connection that a purge takes out. -/
def Conn.expired (now : Timeval) (timeoutMs : UInt32) (conn : Conn) : Bool :=
  idleMs now conn.lastRecv > timeoutMs.toUInt64 && conn.state ≠ .closed

/-- Purge the chain behind a slot (the inner loop of `rc_conn_purge_timeouts`). -/
def purgeChain (now : Timeval) (timeoutMs : UInt32) : Nat → Pool → Slot → Int → Option (Int × Pool)
  | fuel, pool, pp, purged =>
    match pool.read pp with
    | none => none
    | some none => some (purged, pool)
    | some (some p) =>
      match fuel with
      | 0 => none
      | fuel + 1 =>
        match pool.conns p with
        | none => none
        | some conn =>
          if conn.expired now timeoutMs then
            match conn.userData.link with
            | none => none
            | some q =>
              let pool := { pool.write q pp with count := pool.count - 1 }
              let pool := pool.setConn p (connRelease (connClose conn))
              purgeChain now timeoutMs fuel pool pp (purged + 1)
          else purgeChain now timeoutMs fuel pool (.link p) purged

/-- Purge the chains of some buckets. -/
def purgeBuckets (now : Timeval) (timeoutMs : UInt32) : List Nat → Pool → Int → Option (Int × Pool)
  | [], pool, purged => some (purged, pool)
  | i :: is, pool, purged => do
    let (purged, pool) ← purgeChain now timeoutMs pool.fresh pool (.bucket i) purged
    purgeBuckets now timeoutMs is pool purged

/-- Take idle connections out of the pool (C `rc_conn_purge_timeouts`). -/
def connPurgeTimeouts (now : Timeval) (pool : Pool) (timeoutMs : UInt32) : Option (Int × Pool) :=
  purgeBuckets now timeoutMs (List.range connPoolBuckets) pool 0

/-- Purge the chain behind a slot of the connections that a rule selects, whatever the rule is. -/
def sweepChain (sel : Ptr → Conn → Bool) : Nat → Pool → Slot → Int → Option (Int × Pool)
  | fuel, pool, pp, purged =>
    match pool.read pp with
    | none => none
    | some none => some (purged, pool)
    | some (some p) =>
      match fuel with
      | 0 => none
      | fuel + 1 =>
        match pool.conns p with
        | none => none
        | some conn =>
          if sel p conn then
            match conn.userData.link with
            | none => none
            | some q =>
              let pool := { pool.write q pp with count := pool.count - 1 }
              let pool := pool.setConn p (connRelease (connClose conn))
              sweepChain sel fuel pool pp (purged + 1)
          else sweepChain sel fuel pool (.link p) purged

/-- Purge the chains of some buckets of the connections that a rule selects. -/
def sweepBuckets (sel : Ptr → Conn → Bool) : List Nat → Pool → Int → Option (Int × Pool)
  | [], pool, purged => some (purged, pool)
  | i :: is, pool, purged => do
    let (purged, pool) ← sweepChain sel pool.fresh pool (.bucket i) purged
    sweepBuckets sel is pool purged

/-- Take the connections that a rule selects out of the pool. -/
def connSweep (sel : Ptr → Conn → Bool) (pool : Pool) : Option (Int × Pool) :=
  sweepBuckets sel (List.range connPoolBuckets) pool 0

/-! ## Destruction -/

/-- Free the connections of a chain: those visited, in order, and the heap that is left. -/
def destroyChain : Nat → (Ptr → Option Conn) → Option Ptr → Option (List Ptr × (Ptr → Option Conn))
  | _, conns, none => some ([], conns)
  | 0, _, some _ => none
  | fuel + 1, conns, some p => do
    let conn ← conns p
    let next ← conn.userData.link
    let (visited, conns) ← destroyChain fuel (update conns p none) next
    return (p :: visited, conns)

/-- Free the chains of some buckets. -/
def destroyBuckets (fuel : Nat) (buckets : Nat → Option Ptr) :
    List Nat → (Ptr → Option Conn) → Option (List Ptr)
  | [], _ => some []
  | i :: is, conns => do
    let (visited, conns) ← destroyChain fuel conns (buckets i)
    let rest ← destroyBuckets fuel buckets is conns
    return visited ++ rest

/-- Free every connection of the pool (C `rc_conn_pool_destroy`): the connections visited. -/
def connPoolDestroy (pool : Pool) : Option (List Ptr) :=
  destroyBuckets pool.fresh pool.buckets (List.range connPoolBuckets) pool.conns

end RoboControl.Connection
