import RoboControl.Signaling.Segments

/-!
# Log of the signaling server

Whatever the signaling server does, it appends to its log, and its connection to Redis stays what it
is (`Main.step_extends`). Its answer to a message with a token shows whether Redis took the token to
be valid (`AuthMessage.accepts_iff`).
-/

namespace RoboControl.Signaling
open Base Proto Connection

/-- A server has logged more than another, and is connected to Redis like it. -/
structure Extends (srv srv' : Server) : Prop where
  redis : srv'.redis = srv.redis
  out : srv.out <+: srv'.out

namespace Extends
variable {srv srv₁ srv₂ : Server}

/-- Nothing happened. -/
lemma refl (srv : Server) : Extends srv srv := ⟨rfl, List.prefix_rfl⟩

/-- One after the other. -/
lemma trans (h : Extends srv srv₁) (h' : Extends srv₁ srv₂) : Extends srv srv₂ :=
  ⟨h'.redis.trans h.redis, h.out.trans h'.out⟩

/-- An output. -/
lemma emit (srv : Server) (o : Output) : Extends srv (srv.emit o) := ⟨rfl, List.prefix_append _ _⟩

lemma of_some (h : some srv = some srv₁) : Extends srv srv₁ := by
  cases h
  exact .refl srv

/-- No output. -/
lemma of_eq (hredis : srv₁.redis = srv.redis) (hout : srv₁.out = srv.out) : Extends srv srv₁ :=
  ⟨hredis, hout ▸ List.prefix_rfl⟩

end Extends

variable {srv srv' : Server} {c : Ptr} {r : RoomPtr} {env : Env} {host : Endian} {name : List UInt8}

/-- A registration in Redis. -/
lemma redisRegisterConnection_extends (srv : Server) (clientId : UInt32) (name : List UInt8) :
    Extends srv (redisRegisterConnection srv clientId name) := by
  rw [redisRegisterConnection]
  split
  · exact .refl srv
  · exact .emit srv _

/-- The end of a registration. -/
lemma redisUnregisterConnection_extends (srv : Server) (clientId : UInt32) :
    Extends srv (redisUnregisterConnection srv clientId) := by
  rw [redisUnregisterConnection]
  split
  · exact .refl srv
  · exact .emit srv _

/-- The loop that unlinks a client. -/
lemma removeFrom_extends {fuel : Nat} {pp : Slot} (h : removeFrom c r fuel srv pp = some srv') :
    Extends srv srv' := by
  obtain rfl | ⟨pp', -, -, rfl⟩ := removeFrom_cases h
  · exact .refl _
  · cases pp' with
    | room => exact .of_eq rfl rfl
    | link => exact .of_eq rfl rfl

/-- Leaving a list. -/
lemma leaveList_extends (h : leaveList srv c = some srv') : Extends srv srv' := by
  obtain ⟨found, -, h⟩ := Option.bind_eq_some_iff.mp h
  cases found with
  | none => exact .of_some h
  | some r => exact removeFrom_extends h

/-- Leaving a room with a name. -/
lemma leaveNamed_extends (h : leaveNamed srv c = some srv') : Extends srv srv' := by
  rw [leaveNamed] at h
  split at h
  · exact leaveList_extends h
  · exact .of_some h

/-- Joining a list. -/
lemma linkClient_extends (srv : Server) (c : Ptr) (r : RoomPtr) (name : List UInt8) :
    Extends srv (linkClient srv c r name) := .of_eq rfl rfl

/-- `room_join`. -/
lemma roomJoin_extends (h : roomJoin env srv c name = some srv') : Extends srv srv' := by
  obtain ⟨srv₁, hleave, h⟩ := Option.bind_eq_some_iff.mp h
  obtain ⟨found, -, h⟩ := Option.bind_eq_some_iff.mp h
  refine (leaveNamed_extends hleave).trans ?_
  cases found with
  | some r =>
    cases h
    exact (linkClient_extends srv₁ c r name).trans (redisRegisterConnection_extends _ _ _)
  | none =>
    rw [roomCreate] at h
    by_cases halloc : env.alloc = false
    · rw [if_pos halloc] at h
      cases h
      exact .refl _
    · rw [if_neg halloc] at h
      cases h
      refine .trans ?_ (redisRegisterConnection_extends _ _ _)
      exact .of_eq rfl rfl

/-- `room_broadcast`. -/
lemma roomBroadcast_extends {fd : Int} {bytes : List UInt8}
    (h : roomBroadcast srv name fd bytes = some srv') : Extends srv srv' := by
  obtain ⟨found, -, h⟩ := Option.bind_eq_some_iff.mp h
  cases found with
  | none => exact .of_some h
  | some r =>
    obtain ⟨visited, -, h⟩ := Option.bind_eq_some_iff.mp h
    cases h
    exact ⟨rfl, List.prefix_append _ _⟩

/-- A client is put back. -/
lemma clientDrop_extends (srv : Server) (c : Ptr) : Extends srv (clientDrop srv c) := by
  by_cases hmap : (srv.clientPool c).fd ≥ 0 ∧ (srv.clientPool c).fd < maxConnections
  · rw [clientDrop, if_pos hmap, if_pos hmap.1]
    exact ⟨rfl, List.prefix_append _ _⟩
  · by_cases hfd : (srv.clientPool c).fd ≥ 0
    · rw [clientDrop, if_neg hmap, if_pos hfd]
      exact ⟨rfl, List.prefix_append _ _⟩
    · rw [clientDrop, if_neg hmap, if_neg hfd]
      exact .of_eq rfl rfl

/-- `client_free`. -/
lemma clientFree_extends (h : clientFree srv c = some srv') : Extends srv srv' := by
  rw [clientFree] at h
  split at h
  · obtain ⟨srv₁, hleave, h⟩ := Option.bind_eq_some_iff.mp h
    cases h
    refine (leaveList_extends hleave).trans (.trans ?_ (clientDrop_extends _ c))
    exact redisUnregisterConnection_extends srv₁ _
  · cases h
    exact clientDrop_extends srv c

/-- `MSG_AUTH`. -/
lemma handleAuth_extends {token : List UInt8} (h : handleAuth host env srv c token = some srv') :
    Extends srv srv' := by
  rw [handleAuth] at h
  split at h
  · cases h
    exact ⟨rfl, List.prefix_append _ _⟩
  · exact (Extends.emit srv _).trans (clientFree_extends h)

/-- `MSG_LEAVE_ROOM`. -/
lemma handleLeave_extends (h : handleLeave srv c = some srv') : Extends srv srv' := by
  obtain ⟨srv₁, hleave, h⟩ := Option.bind_eq_some_iff.mp h
  cases h
  exact (leaveList_extends hleave).trans
    ((redisUnregisterConnection_extends srv₁ _).trans (.of_eq rfl rfl))

/-- A message with a header. -/
lemma dispatch_extends {hdr : SigHdr} {data : Nat → UInt8} {len : Nat}
    (h : dispatch host env srv c hdr data len = some srv') : Extends srv srv' := by
  rw [dispatch] at h
  cases htype : MsgType.ofCode hdr.msgType with
  | none =>
    rw [htype] at h
    exact .of_some h
  | some type =>
    rw [htype] at h
    cases type with
    | auth => exact handleAuth_extends h
    | ping =>
      cases h
      exact .emit srv _
    | joinRoom =>
      dsimp only at h
      split at h
      · exact .of_some h
      · exact roomJoin_extends h
    | leaveRoom =>
      dsimp only at h
      split at h
      · exact .of_some h
      · exact handleLeave_extends h
    | offer | answer | iceCandidate =>
      dsimp only at h
      split at h
      · exact .of_some h
      · exact roomBroadcast_extends h
    | roomList | pong | error => exact .of_some h

/-- `handle_message`. -/
lemma handleMessage_extends {data : Nat → UInt8} {len : Nat}
    (h : handleMessage host env srv c data len = some srv') : Extends srv srv' := by
  rw [handleMessage] at h
  split at h
  · exact .of_some h
  · dsimp only at h
    split at h
    · exact .of_some h
    · have hmsg := dispatch_extends h
      exact ⟨hmsg.redis, hmsg.out⟩

/-- A connection is accepted. -/
lemma acceptClient_extends (srv : Server) (now : UInt64) (fd : Int) :
    Extends srv (acceptClient srv now fd) := by
  rw [acceptClient, clientAlloc]
  split
  · exact .emit srv _
  · cases srv.freeClients with
    | none => exact .emit srv _
    | some c => exact .of_eq rfl rfl

/-- An event extends the log. -/
lemma Main.step_extends {m m' : Main} {e : Event} (h : m.step host e = some m') :
    Extends m.srv m'.srv := by
  obtain ⟨now, fd, -, rfl⟩ | rfl | ⟨env, fd, bytes, c, srv', -, -, hmsg, rfl⟩ | ⟨fd, c, srv', -, -,
    hfree, rfl⟩ :=
    Main.step_cases h
  · exact acceptClient_extends m.srv now fd
  · exact .refl _
  · exact handleMessage_extends hmsg
  · exact clientFree_extends hfree

/-! ## Authentication -/

/-- An event authenticates a client: the only output is the answer that says so. -/
def Accepts (host : Endian) (m m' : Main) (c : Ptr) : Prop :=
  m'.srv.out = m.srv.out ++ [.send (m.srv.clientPool c).fd ((replyHdr host .auth).bytes host)] ∧
    (m'.srv.clientPool c).authenticated = true

/-- A message of type `MSG_AUTH` whose payload is a token; the room and the sequence number
are arbitrary. -/
structure AuthMessage (host : Endian) (token bytes : List UInt8) : Prop where
  length : bytes.length = sigHdrSize + token.length
  payload : bytes.drop sigHdrSize = token
  magic : (hdrOf host bytes).magic = sigMagic
  type : (hdrOf host bytes).msgType = MsgType.auth.code
  payloadLen : (hdrOf host bytes).payloadLen.toNat = token.length

section Auth
variable {m : Main} {fd : Int} {token bytes : List UInt8}

/-- A message with a token. -/
lemma authMessage_message (host : Endian) (hlen : token.length < UInt16.size) :
    AuthMessage host token (message host .auth token) where
  length := by rw [message, List.length_append, SigHdr.length_bytes]
  payload := List.drop_left' (SigHdr.length_bytes _ _)
  magic := by rw [hdrOf_message]
  type := by rw [hdrOf_message]
  payloadLen := by rw [hdrOf_message, UInt16.toNat_ofNat_of_lt' hlen]

/-- A message with a token of full length is checked with this token. -/
lemma AuthMessage.step (msg : AuthMessage host token bytes) (hc : m.srv.clientOf fd = some c)
    (hlen : token.length = authTokenLen) (hnul : 0 ∉ token) :
    m.step host (.received env fd bytes) =
      (handleAuth host env (m.srv.modify c ({ · with lastActivity := env.now })) c token).map
        (⟨·, copyIn m.buf 0 bytes⟩) := by
  have hlength : bytes.length = sigHdrSize + authTokenLen := by rw [msg.length, hlen]
  have hdata := copyOut_copyIn m.buf bytes
  have htoken : receivedToken (hdrOf host bytes) (copyIn m.buf 0 bytes) = token := by
    rw [receivedToken_eq, msg.payloadLen, hlen, min_self, copyOut_received hdata (by omega),
      msg.payload, ← hlen, List.take_length, cstr_of_not_mem hnul]
  rw [step_received hc, handleMessage_eq (by omega) msg.magic hdata, dispatch, htoken, msg.type]
  rfl

/-- The server, connected to Redis, accepts a token that Redis takes to be valid, and no other. -/
lemma AuthMessage.accepts_iff (msg : AuthMessage host token bytes) (hredis : m.srv.redis = true)
    (hc : m.srv.clientOf fd = some c) (hlen : token.length = authTokenLen) (hnul : 0 ∉ token) :
    (∃ m', m.step host (.received env fd bytes) = some m' ∧ Accepts host m m' c) ↔
      env.valid token = true := by
  have hverify : redisVerifyToken env (m.srv.modify c ({ · with lastActivity := env.now })) token =
      env.valid token := if_neg (by rw [Server.modify, hredis]; decide)
  rw [msg.step hc hlen hnul, handleAuth, hverify, clientPool_modify_self]
  constructor
  · rintro ⟨m', h, hout, -⟩
    by_contra hvalid
    rw [if_neg hvalid] at h
    obtain ⟨srv', hfree, rfl⟩ := Option.map_eq_some_iff.mp h
    -- The error comes first in the log.
    have hprefix := (clientFree_extends hfree).out
    rw [show srv'.out = _ from hout] at hprefix
    have herror := hprefix.eq_of_length (by simp [Server.emit, Server.modify])
    have hsend := List.append_cancel_left herror
    simp only [List.cons.injEq, Output.send.injEq, and_true, true_and] at hsend
    cases host with
    | little => exact absurd hsend (by decide)
    | big => exact absurd hsend (by decide)
  · intro hvalid
    rw [if_pos hvalid]
    refine ⟨_, rfl, rfl, ?_⟩
    rw [Server.emit]
    simp

end Auth

end RoboControl.Signaling
