import RoboControl.Base.Run
import RoboControl.Connection.RingBuf
import RoboControl.Proto.Header

/-!
# Signaling server

Model of `src/signaling/signaling_server.c`: the clients and rooms of the server `Server` (C
`sig_server_t`), the functions on rooms `roomFind`, `roomCreate`, `roomJoin` and `roomBroadcast` (C
`room_find` and so on), the client pool with `clientAlloc` and `clientFree` (C `client_alloc`,
`client_free`), the handler `handleMessage` (C `handle_message`) and the event loop of `main` with
its receive buffer (`Main.step`).

A client is an index into the pool, a room the number of its allocation. Room names and tokens are C
strings, so they are the bytes before the terminating zero. What the clock, Redis, `calloc` and the
sockets give is an argument (`Env`, `Event`), and what the server sends, tells Redis and closes is
appended to a log. A function that follows links returns `none` where the list does not end.
-/

namespace RoboControl.Signaling
open Base Proto Connection Function

/-! ## Constants -/

/-- Size of the client pool (C `MAX_CONNECTIONS`). -/
def maxConnections : Nat := 1000000

/-- Buckets of the room table (C `MAX_ROOMS`). -/
def maxRooms : UInt32 := 100000

/-- Size of the receive buffer (C `MAX_MSG_SIZE`). -/
def maxMsgSize : Nat := 65536

/-- Length of a token (C `AUTH_TOKEN_LEN`). -/
def authTokenLen : Nat := 64

/-- Length of a room name with its terminating zero (C `ROOM_ID_LEN`). -/
def roomIdLen : Nat := 32

/-- Magic of a message (C `SIG_MAGIC`). -/
def sigMagic : UInt32 := 0x52435347

/-- Message types (C `MSG_OFFER` and so on). -/
inductive MsgType where
  | offer
  | answer
  | iceCandidate
  | joinRoom
  | leaveRoom
  | roomList
  | auth
  | ping
  | pong
  | error
  deriving DecidableEq, Repr

/-- The code of a message type on the wire. -/
def MsgType.code : MsgType → UInt16
  | .offer => 1
  | .answer => 2
  | .iceCandidate => 3
  | .joinRoom => 4
  | .leaveRoom => 5
  | .roomList => 6
  | .auth => 7
  | .ping => 8
  | .pong => 9
  | .error => 255

/-- The message types. -/
def MsgType.all : List MsgType :=
  [.offer, .answer, .iceCandidate, .joinRoom, .leaveRoom, .roomList, .auth, .ping, .pong, .error]

/-- The message type with a code. -/
def MsgType.ofCode (code : UInt16) : Option MsgType := MsgType.all.find? (·.code = code)

/-! ## Header -/

/-- The header of a message (C `sig_hdr_t`). -/
@[ext]
structure SigHdr where
  magic : UInt32
  msgType : UInt16
  payloadLen : UInt16
  roomId : UInt32
  seq : UInt32
  deriving DecidableEq

/-- Size of the header (C `sizeof(sig_hdr_t)`). -/
def sigHdrSize : Nat := 16

/-- A header in memory. -/
def SigHdr.bytes (host : Endian) (hdr : SigHdr) : List UInt8 :=
  store host 4 hdr.magic.toNat ++ store host 2 hdr.msgType.toNat ++
    store host 2 hdr.payloadLen.toNat ++ store host 4 hdr.roomId.toNat ++
    store host 4 hdr.seq.toNat

/-- The header that lies in memory. -/
def SigHdr.ofMem (host : Endian) (bytes : List UInt8) : SigHdr where
  magic := UInt32.ofNat (readField host 0 4 bytes)
  msgType := UInt16.ofNat (readField host 4 2 bytes)
  payloadLen := UInt16.ofNat (readField host 6 2 bytes)
  roomId := UInt32.ofNat (readField host 8 4 bytes)
  seq := UInt32.ofNat (readField host 12 4 bytes)

/-- The conversion of `handle_message`, which leaves the magic as it is. -/
def SigHdr.convert (host : Endian) (hdr : SigHdr) : SigHdr :=
  { hdr with
    msgType := htons host hdr.msgType
    payloadLen := htons host hdr.payloadLen
    roomId := htonl host hdr.roomId
    seq := htonl host hdr.seq }

/-- The header of a reply of the server. -/
def replyHdr (host : Endian) (type : MsgType) : SigHdr where
  magic := htonl host sigMagic
  msgType := htons host type.code
  payloadLen := 0
  roomId := 0
  seq := 0

/-- A message as `handle_message` takes it: the magic in the byte order of the host, the rest of the
header in network order, and the payload. -/
def message (host : Endian) (type : MsgType) (payload : List UInt8) : List UInt8 :=
  SigHdr.bytes host
    { magic := sigMagic
      msgType := htons host type.code
      payloadLen := htons host (UInt16.ofNat payload.length)
      roomId := 0
      seq := 0 } ++ payload

/-! ## State -/

/-- The bytes before the terminating zero of a C string. -/
def cstr (bytes : List UInt8) : List UInt8 := bytes.takeWhile (· ≠ 0)

/-- An element of the client pool. -/
abbrev Ptr := Nat

/-- A room that was allocated. -/
abbrev RoomPtr := Nat

/-- A client (C `sig_client_t`). -/
structure Client where
  fd : Int
  clientId : UInt32
  roomId : List UInt8
  authToken : List UInt8
  authenticated : Bool
  lastActivity : UInt64
  roomNext : Option Ptr
  hashNext : Option Ptr

/-- A client of zero bytes, as `calloc` and `memset` leave it. -/
def Client.zero : Client where
  fd := 0
  clientId := 0
  roomId := []
  authToken := []
  authenticated := false
  lastActivity := 0
  roomNext := none
  hashNext := none

/-- A room (C `sig_room_t`). -/
structure Room where
  roomId : List UInt8
  clients : Option Ptr
  clientCount : UInt32
  createdAt : UInt64
  next : Option RoomPtr

/-- A room of zero bytes. -/
def Room.zero : Room where
  roomId := []
  clients := none
  clientCount := 0
  createdAt := 0
  next := none

/-- What the server does to its surroundings. -/
inductive Output where
  | send (fd : Int) (bytes : List UInt8)
  | hset (clientId : UInt32) (roomId : List UInt8)
  | hdel (clientId : UInt32)
  | close (fd : Int)
  deriving DecidableEq

/-- Server context (C `sig_server_t`); `roomHeap` and `roomCount` are the rooms that
were allocated. -/
structure Server where
  clientPool : Ptr → Client
  freeClients : Option Ptr
  fdMap : Int → Option Ptr
  activeClients : UInt32
  peakClients : UInt32
  rooms : Nat → Option RoomPtr
  roomHeap : RoomPtr → Room
  roomCount : Nat
  redis : Bool
  out : List Output

/-- The server that `main` sets up, with or without a connection to Redis. -/
def serverInit (redis : Bool) : Server where
  clientPool i :=
    { Client.zero with fd := -1, hashNext := if i + 1 < maxConnections then some (i + 1) else none }
  freeClients := some 0
  fdMap _ := none
  activeClients := 0
  peakClients := 0
  rooms _ := none
  roomHeap _ := .zero
  roomCount := 0
  redis := redis
  out := []

/-- Change a client in place. -/
def Server.modify (srv : Server) (c : Ptr) (f : Client → Client) : Server :=
  { srv with clientPool := update srv.clientPool c (f (srv.clientPool c)) }

/-- Change a room in place. -/
def Server.modifyRoom (srv : Server) (r : RoomPtr) (f : Room → Room) : Server :=
  { srv with roomHeap := update srv.roomHeap r (f (srv.roomHeap r)) }

/-- Log an output. -/
def Server.emit (srv : Server) (o : Output) : Server := { srv with out := srv.out ++ [o] }

/-- What a handler gets from the clock, Redis and `calloc`. -/
structure Env where
  now : UInt64
  created : UInt64
  valid : List UInt8 → Bool
  alloc : Bool

/-! ## Redis -/

/-- Whether a token is valid (C `redis_verify_token`); every token is, without Redis. -/
def redisVerifyToken (env : Env) (srv : Server) (token : List UInt8) : Bool :=
  if srv.redis = false then true else env.valid token

/-- Register a connection (C `redis_register_connection`). -/
def redisRegisterConnection (srv : Server) (clientId : UInt32) (roomId : List UInt8) : Server :=
  if srv.redis = false then srv else srv.emit (.hset clientId roomId)

/-- Unregister a connection (C `redis_unregister_connection`). -/
def redisUnregisterConnection (srv : Server) (clientId : UInt32) : Server :=
  if srv.redis = false then srv else srv.emit (.hdel clientId)

/-! ## Rooms -/

/-- Hash of a C string (C `hash_str`). -/
def hashStr (s : List UInt8) (buckets : UInt32) : UInt32 :=
  s.foldl (fun h b => h * 33 + b.toUInt32) 5381 &&& (buckets - 1)

/-- The bucket of a room name. -/
def roomBucket (roomId : List UInt8) : Nat := (hashStr roomId maxRooms).toNat

/-- Find a room by its name in a chain (the loop of `room_find`). -/
def roomFindFrom (srv : Server) (roomId : List UInt8) : Nat → Option RoomPtr →
    Option (Option RoomPtr)
  | _, none => some none
  | 0, some _ => none
  | fuel + 1, some r =>
    if (srv.roomHeap r).roomId = roomId then some (some r)
    else roomFindFrom srv roomId fuel (srv.roomHeap r).next

/-- Find a room by its name (C `room_find`). -/
def roomFind (srv : Server) (roomId : List UInt8) : Option (Option RoomPtr) :=
  roomFindFrom srv roomId srv.roomCount (srv.rooms (roomBucket roomId))

/-- Put a new room before the rooms of its bucket. -/
def insertRoom (srv : Server) (room : Room) : Server :=
  let h := roomBucket room.roomId
  { srv with
    roomHeap := update srv.roomHeap srv.roomCount { room with next := srv.rooms h }
    roomCount := srv.roomCount + 1
    rooms := update srv.rooms h (some srv.roomCount) }

/-- Create a room (C `room_create`). -/
def roomCreate (env : Env) (srv : Server) (roomId : List UInt8) : Option RoomPtr × Server :=
  if env.alloc = false then (none, srv)
  else (some srv.roomCount, insertRoom srv { Room.zero with roomId, createdAt := env.created })

/-- Where a link of a list of clients is stored (the `pp` of the loops). -/
inductive Slot where
  | room (r : RoomPtr)
  | link (c : Ptr)
  deriving DecidableEq

/-- The link in a slot. -/
def Server.read (srv : Server) : Slot → Option Ptr
  | .room r => (srv.roomHeap r).clients
  | .link c => (srv.clientPool c).roomNext

/-- Store a link in a slot. -/
def Server.write (srv : Server) (q : Option Ptr) : Slot → Server
  | .room r => srv.modifyRoom r ({ · with clients := q })
  | .link c => srv.modify c ({ · with roomNext := q })

/-- Lead the list of a room past a client, whose link is in a slot. -/
def removeAt (srv : Server) (c : Ptr) (r : RoomPtr) (pp : Slot) : Server :=
  (srv.write (srv.clientPool c).roomNext pp).modifyRoom r fun room =>
    { room with clientCount := room.clientCount - 1 }

/-- Take a client out of the list of a room, behind a slot (the loop that `room_join`, `client_free`
and `MSG_LEAVE_ROOM` have in common). -/
def removeFrom (c : Ptr) (r : RoomPtr) : Nat → Server → Slot → Option Server
  | fuel, srv, pp =>
    match srv.read pp with
    | none => some srv
    | some p =>
      if p = c then some (removeAt srv c r pp)
      else
        match fuel with
        | 0 => none
        | fuel + 1 => removeFrom c r fuel srv (.link p)

/-- Find the room of a client and take the client out of its list. -/
def leaveList (srv : Server) (c : Ptr) : Option Server := do
  match ← roomFind srv (srv.clientPool c).roomId with
  | none => some srv
  | some r => removeFrom c r maxConnections srv (.room r)

/-- Leave the list of the current room, if its name is not empty. -/
def leaveNamed (srv : Server) (c : Ptr) : Option Server :=
  if (srv.clientPool c).roomId ≠ [] then leaveList srv c else some srv

/-- Put a client before the list of a room. -/
def linkClient (srv : Server) (c : Ptr) (r : RoomPtr) (roomId : List UInt8) : Server :=
  let srv := srv.modify c ({ · with roomId, roomNext := (srv.roomHeap r).clients })
  srv.modifyRoom r fun room =>
    { room with clients := some c, clientCount := room.clientCount + 1 }

/-- Leave the current room and join another (C `room_join`). -/
def roomJoin (env : Env) (srv : Server) (c : Ptr) (roomId : List UInt8) : Option Server := do
  let srv ← leaveNamed srv c
  match ← roomFind srv roomId with
  | some r =>
    return redisRegisterConnection (linkClient srv c r roomId) (srv.clientPool c).clientId roomId
  | none =>
    match roomCreate env srv roomId with
    -- The client has left its list, and keeps the name of the room.
    | (none, srv) => return srv
    | (some r, srv) =>
      return redisRegisterConnection (linkClient srv c r roomId) (srv.clientPool c).clientId roomId

/-- The clients that a walk of a list comes to (the loop of `room_broadcast`). -/
def walk (srv : Server) : Nat → Option Ptr → Option (List Ptr)
  | _, none => some []
  | 0, some _ => none
  | fuel + 1, some c => (walk srv fuel (srv.clientPool c).roomNext).map (c :: ·)

/-- Send a message to the clients of a room but one (C `room_broadcast`). -/
def roomBroadcast (srv : Server) (roomId : List UInt8) (excludeFd : Int) (bytes : List UInt8) :
    Option Server := do
  match ← roomFind srv roomId with
  | none => some srv
  | some r =>
    let visited ← walk srv maxConnections (srv.roomHeap r).clients
    let peers := visited.filter fun c =>
      (srv.clientPool c).fd ≠ excludeFd && (srv.clientPool c).authenticated
    return { srv with out := srv.out ++ peers.map fun c => .send (srv.clientPool c).fd bytes }

/-! ## Clients -/

/-- Take a client from the free list (C `client_alloc`). -/
def clientAlloc (srv : Server) (now : UInt64) (fd : Int) : Option Ptr × Server :=
  match srv.freeClients with
  | none => (none, srv)
  | some c =>
    let srv := { srv with freeClients := (srv.clientPool c).hashNext }
    let srv := srv.modify c fun _ =>
      { Client.zero with fd, clientId := UInt32.ofInt fd, lastActivity := now }
    let active : UInt32 := srv.activeClients + 1
    (some c, { srv with
      fdMap := if fd < maxConnections then update srv.fdMap fd (some c) else srv.fdMap
      activeClients := active
      peakClients := if active > srv.peakClients then active else srv.peakClients })

/-- Forget the descriptor of a client and put it on the free list (the end of `client_free`). -/
def clientDrop (srv : Server) (c : Ptr) : Server :=
  let fd := (srv.clientPool c).fd
  let srv :=
    if fd ≥ 0 ∧ fd < maxConnections then { srv with fdMap := update srv.fdMap fd none }
    else srv
  let srv := if fd ≥ 0 then srv.emit (.close fd) else srv
  let srv := { srv with activeClients := srv.activeClients - 1 }
  let srv := srv.modify c ({ · with hashNext := srv.freeClients })
  { srv with freeClients := some c }

/-- Leave the room and give the client back (C `client_free`). -/
def clientFree (srv : Server) (c : Ptr) : Option Server := do
  if (srv.clientPool c).roomId ≠ [] then
    let srv ← leaveList srv c
    return clientDrop (redisUnregisterConnection srv (srv.clientPool c).clientId) c
  else return clientDrop srv c

/-! ## Messages -/

/-- The header at the front of the receive buffer, as `handle_message` converts it. -/
def receivedHdr (host : Endian) (data : Nat → UInt8) : SigHdr :=
  (SigHdr.ofMem host (copyOut data 0 sigHdrSize)).convert host

/-- The token of an authentication (`token` in `MSG_AUTH`). -/
def receivedToken (hdr : SigHdr) (data : Nat → UInt8) : List UInt8 :=
  let tlen := if hdr.payloadLen.toNat < authTokenLen then hdr.payloadLen.toNat else authTokenLen
  cstr (copyOut data sigHdrSize tlen)

/-- The name of the room to join (`room` in `MSG_JOIN_ROOM`). -/
def receivedRoom (hdr : SigHdr) (data : Nat → UInt8) : List UInt8 :=
  let rlen := if hdr.payloadLen.toNat < roomIdLen - 1 then hdr.payloadLen.toNat else roomIdLen - 1
  cstr (copyOut data sigHdrSize rlen)

/-- Check a token (`MSG_AUTH`). -/
def handleAuth (host : Endian) (env : Env) (srv : Server) (c : Ptr) (token : List UInt8) :
    Option Server :=
  let fd := (srv.clientPool c).fd
  if redisVerifyToken env srv token then
    let srv := srv.modify c ({ · with authenticated := true, authToken := token })
    some (srv.emit (.send fd ((replyHdr host .auth).bytes host)))
  else clientFree (srv.emit (.send fd ((replyHdr host .error).bytes host))) c

/-- Leave the room (`MSG_LEAVE_ROOM`). -/
def handleLeave (srv : Server) (c : Ptr) : Option Server := do
  let srv ← leaveList srv c
  let srv := redisUnregisterConnection srv (srv.clientPool c).clientId
  return srv.modify c ({ · with roomId := [] })

/-- The switch of `handle_message`. -/
def dispatch (host : Endian) (env : Env) (srv : Server) (c : Ptr) (hdr : SigHdr)
    (data : Nat → UInt8) (len : Nat) : Option Server :=
  let client := srv.clientPool c
  match MsgType.ofCode hdr.msgType with
  | some .auth => handleAuth host env srv c (receivedToken hdr data)
  | some .joinRoom =>
    if client.authenticated = false then some srv else roomJoin env srv c (receivedRoom hdr data)
  | some .leaveRoom => if client.authenticated = false then some srv else handleLeave srv c
  | some .offer | some .answer | some .iceCandidate =>
    if client.authenticated = false ∨ client.roomId = [] then some srv
    else roomBroadcast srv client.roomId client.fd (copyOut data 0 len)
  | some .ping => some (srv.emit (.send client.fd ((replyHdr host .pong).bytes host)))
  | some .roomList | some .pong | some .error | none => some srv

/-- Handle a message (C `handle_message`); `data` is the whole receive buffer. -/
def handleMessage (host : Endian) (env : Env) (srv : Server) (c : Ptr) (data : Nat → UInt8)
    (len : Nat) : Option Server :=
  if len < sigHdrSize then some srv
  else
    let hdr := receivedHdr host data
    if hdr.magic ≠ sigMagic then some srv
    else dispatch host env (srv.modify c ({ · with lastActivity := env.now })) c hdr data len

/-! ## Event loop -/

/-- An event of the loop: `accept4` returned a descriptor, `recv` some bytes, or `recv` returned 0
or an error that is not temporary. -/
inductive Event where
  | accept (now : UInt64) (fd : Int)
  | received (env : Env) (fd : Int) (bytes : List UInt8)
  | hangup (fd : Int)

/-- The variables of the loop: the server and the receive buffer, which all clients share. -/
structure Main where
  srv : Server
  buf : Nat → UInt8

/-- The client of a descriptor. -/
def Server.clientOf (srv : Server) (fd : Int) : Option Ptr :=
  if fd < maxConnections then srv.fdMap fd else none

/-- Accept a connection. -/
def acceptClient (srv : Server) (now : UInt64) (fd : Int) : Server :=
  if fd ≥ maxConnections then srv.emit (.close fd)
  else
    match clientAlloc srv now fd with
    | (none, srv) => srv.emit (.close fd)
    | (some _, srv) => srv

/-- Handle an event (the body of the loop of `main`). -/
def Main.step (host : Endian) (m : Main) : Event → Option Main
  | .accept now fd => some { m with srv := acceptClient m.srv now fd }
  | .received env fd bytes =>
    match m.srv.clientOf fd with
    | none => some m
    | some c =>
      let buf := copyIn m.buf 0 bytes
      (handleMessage host env m.srv c buf bytes.length).map (⟨·, buf⟩)
  | .hangup fd =>
    match m.srv.clientOf fd with
    | none => some m
    | some c => (clientFree m.srv c).map ({ m with srv := · })

/-- What an event does: a client is accepted, its message is handled or it is freed, or
nothing changes. -/
lemma Main.step_cases {host : Endian} {m m' : Main} {e : Event} (h : m.step host e = some m') :
    (∃ now fd, e = .accept now fd ∧ m' = { m with srv := acceptClient m.srv now fd }) ∨ m' = m ∨
    (∃ env fd bytes c srv', e = .received env fd bytes ∧ m.srv.clientOf fd = some c ∧
      handleMessage host env m.srv c (copyIn m.buf 0 bytes) bytes.length = some srv' ∧
      m' = ⟨srv', copyIn m.buf 0 bytes⟩) ∨
    ∃ fd c srv', e = .hangup fd ∧ m.srv.clientOf fd = some c ∧ clientFree m.srv c = some srv' ∧
      m' = { m with srv := srv' } := by
  cases e with
  | accept now fd =>
    cases h
    exact .inl ⟨now, fd, rfl, rfl⟩
  | received env fd bytes =>
    rw [Main.step] at h
    cases hc : m.srv.clientOf fd with
    | none =>
      rw [hc] at h
      cases h
      exact .inr (.inl rfl)
    | some c =>
      rw [hc] at h
      obtain ⟨srv', hmsg, rfl⟩ := Option.map_eq_some_iff.mp h
      exact .inr (.inr (.inl ⟨env, fd, bytes, c, srv', rfl, hc, hmsg, rfl⟩))
  | hangup fd =>
    rw [Main.step] at h
    cases hc : m.srv.clientOf fd with
    | none =>
      rw [hc] at h
      cases h
      exact .inr (.inl rfl)
    | some c =>
      rw [hc] at h
      obtain ⟨srv', hfree, rfl⟩ := Option.map_eq_some_iff.mp h
      exact .inr (.inr (.inr ⟨fd, c, srv', rfl, hc, hfree, rfl⟩))

/-- A run of the loop; what the buffer has in it at first is arbitrary. -/
def mainRun (host : Endian) (redis : Bool) (buf : Nat → UInt8) (events : List Event) :
    Option Main :=
  events.foldlM (Main.step host) ⟨serverInit redis, buf⟩

/-- An event as the kernel can deliver it: a descriptor that is accepted was not open, and `recv`
fills the buffer at most. -/
def Event.Possible (m : Main) : Event → Prop
  | .accept _ fd => 0 ≤ fd ∧ m.srv.fdMap fd = none
  | .received _ _ bytes => bytes ≠ [] ∧ bytes.length ≤ maxMsgSize
  | .hangup _ => True

instance (m : Main) (e : Event) : Decidable (e.Possible m) :=
  match e with
  | .accept _ fd => inferInstanceAs (Decidable (0 ≤ fd ∧ m.srv.fdMap fd = none))
  | .received _ _ bytes => inferInstanceAs (Decidable (bytes ≠ [] ∧ bytes.length ≤ maxMsgSize))
  | .hangup _ => inferInstanceAs (Decidable True)

end RoboControl.Signaling
