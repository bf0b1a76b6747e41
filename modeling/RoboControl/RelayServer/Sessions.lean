import RoboControl.Proto.Header
import Mathlib.Logic.Function.Basic

/-!
# Relay server

Model of `src/relay/relay_server.c`: the addresses of peers with `addrHash` and `addrEqual` (C
`addr_hash`, `addr_equal`), the session pool `Server` (C `relay_server_t`) with its hash table and
its LRU list, the operations `sessionFind`, `sessionCreate`, `sessionDestroy` and `cleanupStale` (C
`session_find` and so on), the control plane `handleControl` (C `handle_control`) and the data plane
`relayPacket`, the body of the UDP loop of `main`.

A session is an index into the pool. Readings of the clock and what arrives on the sockets are
arguments. A function that follows links returns `none` where the list does not end.
-/

namespace RoboControl.RelayServer
open Base Proto

/-! ## Addresses -/

/-- Size of the session pool (C `MAX_SESSIONS`). -/
def maxSessions : Nat := 500000

/-- Idle time of a session in seconds (C `SESSION_TIMEOUT`). -/
def sessionTimeout : UInt64 := 300

/-- Buckets of the hash table (C `HASH_BUCKETS`). -/
def hashBuckets : UInt32 := (1 : UInt32) <<< 18

/-- Address family of IPv4 (C `AF_INET`). -/
def afInet : UInt16 := 2

/-- Address family of IPv6 (C `AF_INET6`). -/
def afInet6 : UInt16 := 10

/-- What the server reads of a `struct sockaddr_storage`. The port is at the same place for both
families, the addresses are at different ones; all numbers are as they lie in memory. -/
structure SockAddr where
  family : UInt16
  port : UInt16
  addr : UInt32
  addr6 : Fin 4 → UInt32

/-- A peer (C `peer_addr_t`). -/
structure PeerAddr where
  addr : SockAddr
  addrLen : UInt32

/-- Hash of an address (C `addr_hash`). -/
def addrHash (sa : SockAddr) : UInt32 :=
  let h : UInt32 :=
    if sa.family = afInet then sa.addr ^^^ sa.port.toUInt32
    else if sa.family = afInet6 then
      sa.addr6 0 ^^^ sa.addr6 1 ^^^ sa.addr6 2 ^^^ sa.addr6 3 ^^^ sa.port.toUInt32
    else 0
  let h := h ^^^ (h >>> 16)
  let h := h * 0x85ebca6b
  let h := h ^^^ (h >>> 13)
  let h := h * 0xc2b2ae35
  let h := h ^^^ (h >>> 16)
  h &&& (hashBuckets - 1)

/-- Whether two addresses are the same (C `addr_equal`). Every family but IPv4 is
compared as IPv6. -/
def addrEqual (a b : SockAddr) : Bool :=
  if a.family ≠ b.family then false
  else if a.family = afInet then a.addr = b.addr && a.port = b.port
  else decide (∀ i, a.addr6 i = b.addr6 i) && a.port = b.port

/-- The bucket of an address. -/
def bucket (sa : SockAddr) : Nat := (addrHash sa).toNat

/-! ## State -/

/-- An element of the session pool. -/
abbrev Ptr := Nat

/-- A session between two peers (C `relay_session_t`). -/
structure Session where
  sessionId : UInt32
  peerA : PeerAddr
  peerB : PeerAddr
  bytesAToB : UInt64
  bytesBToA : UInt64
  pktsAToB : UInt64
  pktsBToA : UInt64
  createdMs : UInt64
  lastActivityMs : UInt64
  active : Bool
  hashNext : Option Ptr
  lruPrev : Option Ptr
  lruNext : Option Ptr

/-- A peer of zero bytes. -/
def PeerAddr.zero : PeerAddr := ⟨⟨0, 0, 0, fun _ => 0⟩, 0⟩

/-- A session of zero bytes, as `calloc` and `memset` leave it. -/
def Session.zero : Session where
  sessionId := 0
  peerA := .zero
  peerB := .zero
  bytesAToB := 0
  bytesBToA := 0
  pktsAToB := 0
  pktsBToA := 0
  createdMs := 0
  lastActivityMs := 0
  active := false
  hashNext := none
  lruPrev := none
  lruNext := none

/-- Server context (C `relay_server_t`). -/
structure Server where
  sessions : Ptr → Session
  hashTable : Nat → Option Ptr
  lruHead : Option Ptr
  lruTail : Option Ptr
  sessionCount : UInt32
  peakSessions : UInt32
  nextSessionId : UInt32
  totalBytes : UInt64
  totalPkts : UInt64

/-- The server that `main` sets up. -/
def serverInit : Server where
  sessions _ := .zero
  hashTable _ := none
  lruHead := none
  lruTail := none
  sessionCount := 0
  peakSessions := 0
  nextSessionId := 1
  totalBytes := 0
  totalPkts := 0

/-- Change a session in place. -/
def Server.modify (srv : Server) (s : Ptr) (f : Session → Session) : Server :=
  { srv with sessions := Function.update srv.sessions s (f (srv.sessions s)) }

/-- Set the link of a session towards the head of the LRU list. -/
def Server.setLruPrev (srv : Server) (s : Ptr) (q : Option Ptr) : Server :=
  srv.modify s ({ · with lruPrev := q })

/-- Set the link of a session towards the tail of the LRU list. -/
def Server.setLruNext (srv : Server) (s : Ptr) (q : Option Ptr) : Server :=
  srv.modify s ({ · with lruNext := q })

/-- Set the link of a session in its hash chain. -/
def Server.setHashNext (srv : Server) (s : Ptr) (q : Option Ptr) : Server :=
  srv.modify s ({ · with hashNext := q })

/-! ## LRU list -/

/-- Lead the neighbours of a session past it (the first branch of `lru_touch`). -/
def lruBypass (srv : Server) (s : Ptr) : Server :=
  let srv :=
    match (srv.sessions s).lruPrev with
    | some p => srv.setLruNext p (srv.sessions s).lruNext
    | none => { srv with lruHead := (srv.sessions s).lruNext }
  match (srv.sessions s).lruNext with
  | some n => srv.setLruPrev n (srv.sessions s).lruPrev
  | none => { srv with lruTail := (srv.sessions s).lruPrev }

/-- Put a session that is in no list at the head of the list (the rest of `lru_touch`). -/
def lruPush (srv : Server) (s : Ptr) : Server :=
  let srv := (srv.setLruPrev s none).setLruNext s srv.lruHead
  let srv :=
    match srv.lruHead with
    | some h => srv.setLruPrev h (some s)
    | none => srv
  let srv := { srv with lruHead := some s }
  if srv.lruTail = none then { srv with lruTail := some s } else srv

/-- Move a session to the head of the list (C `lru_touch`). -/
def lruTouch (srv : Server) (s : Ptr) : Server :=
  if (srv.sessions s).lruPrev ≠ none ∨ (srv.sessions s).lruNext ≠ none ∨ srv.lruHead = some s then
    lruPush (lruBypass srv s) s
  else lruPush srv s

/-- Lead the list past a session that is destroyed, from the side of its head. -/
def lruSkipFromHead (srv : Server) (s : Ptr) : Server :=
  match (srv.sessions s).lruPrev with
  | some p => srv.setLruNext p (srv.sessions s).lruNext
  | none => if srv.lruHead = some s then { srv with lruHead := (srv.sessions s).lruNext } else srv

/-- Lead the list past a session that is destroyed, from the side of its tail. -/
def lruSkipFromTail (srv : Server) (s : Ptr) : Server :=
  match (srv.sessions s).lruNext with
  | some n => srv.setLruPrev n (srv.sessions s).lruPrev
  | none => if srv.lruTail = some s then { srv with lruTail := (srv.sessions s).lruPrev } else srv

/-- Take a session out of the list (the end of `session_destroy`). -/
def lruRemove (srv : Server) (s : Ptr) : Server :=
  let srv := lruSkipFromTail (lruSkipFromHead srv s) s
  (srv.setLruNext s none).setLruPrev s none

/-! ## Sessions -/

/-- One of the two peers of a session has this address. -/
def Session.hasPeer (sess : Session) (addr : SockAddr) : Bool :=
  addrEqual addr sess.peerA.addr || addrEqual addr sess.peerB.addr

/-- Find a session with a peer in a chain (the loop of `session_find`). -/
def findChain (srv : Server) (addr : SockAddr) : Nat → Option Ptr → Option (Option Ptr)
  | _, none => some none
  | 0, some _ => none
  | fuel + 1, some s =>
    if (srv.sessions s).active && (srv.sessions s).hasPeer addr then some (some s)
    else findChain srv addr fuel (srv.sessions s).hashNext

/-- Find a session with a peer (C `session_find`). -/
def sessionFind (srv : Server) (addr : SockAddr) : Option (Option Ptr) :=
  findChain srv addr maxSessions (srv.hashTable (bucket addr))

/-- Insert a session at the head of a chain, by its first peer (C `session_insert_hash`). -/
def sessionInsertHash (srv : Server) (s : Ptr) : Server :=
  let ha := bucket (srv.sessions s).peerA.addr
  let srv := srv.setHashNext s (srv.hashTable ha)
  { srv with hashTable := Function.update srv.hashTable ha (some s) }

/-- The first session with a property, among `n` from `i` on. -/
def firstSession (srv : Server) (prop : Session → Bool) : Nat → Ptr → Option Ptr
  | 0, _ => none
  | n + 1, i => if prop (srv.sessions i) then some i else firstSession srv prop n (i + 1)

/-- The session that is created for two peers. -/
def newSession (srv : Server) (a b : PeerAddr) (now now' : UInt64) : Session :=
  { Session.zero with
    sessionId := srv.nextSessionId
    peerA := a
    peerB := b
    createdMs := now
    lastActivityMs := now'
    active := true }

/-- Create a session (C `session_create`), with two readings of the clock. -/
def sessionCreate (srv : Server) (a b : PeerAddr) (now now' : UInt64) : Option Ptr × Server :=
  match firstSession srv (!·.active) maxSessions 0 with
  | none => (none, srv)
  | some s =>
    let srv := { srv.modify s fun _ => newSession srv a b now now' with
      nextSessionId := srv.nextSessionId + 1 }
    let srv := lruTouch (sessionInsertHash srv s) s
    let count := srv.sessionCount + 1
    (some s, { srv with
      sessionCount := count
      peakSessions := if count > srv.peakSessions then count else srv.peakSessions })

/-- Where a link of a hash chain is stored (the `pp` of `session_destroy`). -/
inductive Slot where
  | bucket (i : Nat)
  | link (s : Ptr)

/-- The link in a slot. -/
def Server.read (srv : Server) : Slot → Option Ptr
  | .bucket i => srv.hashTable i
  | .link s => (srv.sessions s).hashNext

/-- Store a link in a slot. -/
def Server.write (srv : Server) (q : Option Ptr) : Slot → Server
  | .bucket i => { srv with hashTable := Function.update srv.hashTable i q }
  | .link s => srv.setHashNext s q

/-- Take a session out of the chain behind a slot (the inner loop of `session_destroy`). -/
def unlinkChain (s : Ptr) : Nat → Server → Slot → Option Server
  | fuel, srv, pp =>
    match srv.read pp with
    | none => some srv
    | some p =>
      if p = s then
        some ((srv.write (srv.sessions s).hashNext pp).setHashNext s none)
      else
        match fuel with
        | 0 => none
        | fuel + 1 => unlinkChain s fuel srv (.link p)

/-- Take a session out of the chains of some buckets. -/
def unlinkBuckets (s : Ptr) : List Nat → Server → Option Server
  | [], srv => some srv
  | i :: is, srv => do
    let srv ← unlinkChain s maxSessions srv (.bucket i)
    unlinkBuckets s is srv

/-- Mark a session as not active. -/
def Server.deactivate (srv : Server) (s : Ptr) : Server := srv.modify s ({ · with active := false })

/-- Destroy a session (C `session_destroy`). -/
def sessionDestroy (srv : Server) (s : Ptr) : Option Server :=
  if (srv.sessions s).active = false then some srv
  else do
    let srv ← unlinkBuckets s (List.range hashBuckets.toNat) (srv.deactivate s)
    let srv := lruRemove srv s
    return { srv with sessionCount := srv.sessionCount - 1 }

/-- A session that a cleanup destroys. -/
def Session.stale (sess : Session) (deadline : UInt64) : Bool :=
  sess.active && sess.lastActivityMs < deadline

/-- Destroy a session if it is stale. -/
def cleanupStep (deadline : UInt64) (srv : Server) (s : Ptr) : Option Server :=
  if (srv.sessions s).stale deadline then sessionDestroy srv s else some srv

/-- Destroy the stale sessions from a session of the LRU list towards its head. -/
def cleanupFrom (deadline : UInt64) : Nat → Server → Option Ptr → Option Server
  | _, srv, none => some srv
  | 0, _, some _ => none
  | fuel + 1, srv, some s => do
    let srv' ← cleanupStep deadline srv s
    -- The link is read before the session is destroyed.
    cleanupFrom deadline fuel srv' (srv.sessions s).lruPrev

/-- Destroy the stale sessions (C `cleanup_stale`). -/
def cleanupStale (srv : Server) (now : UInt64) : Option Server :=
  cleanupFrom (now - sessionTimeout * 1000) maxSessions srv srv.lruTail

/-! ## Control plane and data plane -/

/-- The peer that a control message creates a session with. -/
def PeerAddr.control : PeerAddr := { PeerAddr.zero with addrLen := 16 }

/-- Handle a message of the control plane (C `handle_control`): the bytes sent back. -/
def handleControl (host : Endian) (srv : Server) (msg : List UInt8) (now now' : UInt64) :
    Option (List UInt8 × Server) :=
  match msg with
  | [] => some ([], srv)
  | cmd :: rest =>
    if cmd = 0x01 then
      match sessionCreate srv .control .control now now' with
      | (none, srv) => some ([], srv)
      | (some s, srv) =>
        some (store host 4 (htonl host (srv.sessions s).sessionId).toNat, srv)
    else if cmd = 0x02 then
      if rest.length < 4 then some ([], srv)
      else
        let sid := htonl host (UInt32.ofNat (readField host 0 4 rest))
        match firstSession srv (fun sess => sess.active && sess.sessionId = sid) maxSessions 0 with
        | none => some ([], srv)
        | some s => (sessionDestroy srv s).map ([], ·)
    else some ([], srv)

/-- Magic of the relay server (C `RC_MAGIC` of this file). -/
def relayMagic : UInt32 := 0x52434F4E

/-- Size of the header (C `sizeof(pkt_hdr_t)`), field by field. -/
def pktHdrSize : Nat := 4 + 2 + 2 + 4 + 4 + 8 + 2 + 2 + 4

/-- The checks on a packet: its length, and the magic of its header. -/
def admits (host : Endian) (buf : List UInt8) : Bool :=
  decide (pktHdrSize ≤ buf.length) &&
    htonl host (UInt32.ofNat (readField host 0 4 buf)) = relayMagic

/-- The peer that a packet goes to: the second one, unless it does not come from the first. -/
def Session.dst (sess : Session) (src : SockAddr) : PeerAddr :=
  if addrEqual src sess.peerA.addr then sess.peerB else sess.peerA

/-- Count a packet of `n` bytes in its direction, at a time. -/
def Session.count (sess : Session) (src : SockAddr) (n : Nat) (now : UInt64) : Session :=
  if addrEqual src sess.peerA.addr then
    { sess with
      bytesAToB := sess.bytesAToB + UInt64.ofNat n
      pktsAToB := sess.pktsAToB + 1
      lastActivityMs := now }
  else
    { sess with
      bytesBToA := sess.bytesBToA + UInt64.ofNat n
      pktsBToA := sess.pktsBToA + 1
      lastActivityMs := now }

/-- Count a packet for its session and for the server. -/
def Server.count (srv : Server) (s : Ptr) (src : SockAddr) (n : Nat) (now : UInt64) : Server :=
  { srv.modify s (·.count src n now) with
    totalBytes := srv.totalBytes + UInt64.ofNat n
    totalPkts := srv.totalPkts + 1 }

/-- What `sendto` is called with. -/
structure Datagram where
  dst : PeerAddr
  bytes : List UInt8

/-- Relay a packet that `recvfrom` returned: what is sent, if anything. -/
def relayPacket (host : Endian) (srv : Server) (src : SockAddr) (buf : List UInt8) (now : UInt64) :
    Option (Option Datagram × Server) :=
  if admits host buf = false then some (none, srv)
  else
    match sessionFind srv src with
    | none => none
    | some none => some (none, srv)
    | some (some s) =>
      some (some ⟨(srv.sessions s).dst src, buf⟩, lruTouch (srv.count s src buf.length now) s)

/-! ## Runs -/

/-- What the server does. -/
inductive ServerOp where
  | create (a b : PeerAddr) (now now' : UInt64)
  | destroy (s : Ptr)
  | cleanup (now : UInt64)
  | control (msg : List UInt8) (now now' : UInt64)
  | packet (src : SockAddr) (buf : List UInt8) (now : UInt64)

/-- The server after an operation. -/
def ServerOp.apply (host : Endian) (srv : Server) : ServerOp → Option Server
  | .create a b now now' => some (sessionCreate srv a b now now').2
  | .destroy s => sessionDestroy srv s
  | .cleanup now => cleanupStale srv now
  | .control msg now now' => (handleControl host srv msg now now').map Prod.snd
  | .packet src buf now => (relayPacket host srv src buf now).map Prod.snd

/-- The server after operations in order. -/
def serverRun (host : Endian) (ops : List ServerOp) : Option Server :=
  ops.foldlM (ServerOp.apply host) serverInit

end RoboControl.RelayServer
