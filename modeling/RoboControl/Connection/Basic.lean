import RoboControl.Connection.RingBuf
import RoboControl.Crypto.Session

/-!
# Connections

Model of the connection object of `include/rc_conn.h` and of its life cycle in `src/core/rc_conn.c`:
`Conn` (C `rc_conn_t`), the state machine `connSetState` (C `rc_conn_set_state`), `connRelease`
(C `rc_conn_release`) and `connClose` (C `rc_conn_close`).

`user_data` is a `void *` that three parts of the program use for different things: the pool keeps
its chain link there, and each side of the handshake its context. `UserData` says which of these a
pointer is, and code that takes it for another has undefined behaviour. Congestion control, RTT,
statistics and the application's callbacks are read by none of the modelled functions and left out.
-/

namespace RoboControl.Connection
open Base Proto Crypto

/-- Connection states (C `rc_conn_state_t`). -/
inductive ConnState where
  | closed
  | connecting
  | handshaking
  | established
  | closing
  deriving DecidableEq, Repr

/-- A point in time (C `struct timeval`). -/
structure Timeval where
  sec : Int
  usec : Int
  deriving DecidableEq

/-- Address of a connection. -/
abbrev Ptr := Nat

/-- Context of a client between two handshake steps (C `hs_client_ctx_t`). -/
structure HsClientCtx where
  clientPrivkey : Bytes 32
  clientPubkey : Bytes 32
  clientRandom : Bytes 32
  helloHdr : PktHdr
  deriving DecidableEq

/-- Context of a server between two handshake steps (C `hs_server_ctx_t`). -/
structure HsServerCtx where
  serverPrivkey : Bytes 32
  serverPubkey : Bytes 32
  serverRandom : Bytes 32
  clientRandom : Bytes 32
  clientPubkey : Bytes 32
  sessionId : UInt32
  deriving DecidableEq

/-- What `user_data` points to. -/
inductive UserData where
  | null
  | conn (p : Ptr)
  | clientCtx (ctx : HsClientCtx)
  | serverCtx (ctx : HsServerCtx)
  deriving DecidableEq

/-- Per-connection state (C `rc_conn_t`). -/
structure Conn where
  connId : UInt32
  fd : Int
  state : ConnState
  refcnt : UInt32
  session : Session
  localSeq : UInt32
  sendBuf : RingBuf
  recvBuf : RingBuf
  lastRecv : Timeval
  userData : UserData

/-- The transitions of the state machine. -/
def ConnState.canBecome : ConnState → ConnState → Bool
  | .closed, new => new = .connecting
  | .connecting, new => new = .handshaking || new = .closed
  | .handshaking, new => new = .established || new = .closed
  | .established, new => new = .closing || new = .closed
  | .closing, new => new = .closed

/-- Change the state if the transition is valid (C `rc_conn_set_state`). The `on_state` callback is
taken to be null or to change nothing that is modelled. -/
def connSetState (conn : Conn) (new : ConnState) : Int × Conn :=
  if conn.state.canBecome new = false then (-1, conn) else (0, { conn with state := new })

/-- Give a reference back (C `rc_conn_release`); the last one closes the connection, which stays in
memory. -/
def connRelease (conn : Conn) : Conn :=
  let old := conn.refcnt
  let conn := { conn with refcnt := conn.refcnt - 1 }
  if old = 1 then
    { conn with
      fd := if conn.fd ≥ 0 then -1 else conn.fd
      sendBuf := ringbufDestroy conn.sendBuf
      recvBuf := ringbufDestroy conn.recvBuf
      state := .closed }
  else conn

/-- Close a connection (C `rc_conn_close`). -/
def connClose (conn : Conn) : Conn :=
  let conn := (connSetState conn .closing).2
  let conn := (connSetState conn .closed).2
  { conn with fd := if conn.fd ≥ 0 then -1 else conn.fd }

/-- Neither ring buffer was destroyed. -/
def Conn.Intact (conn : Conn) : Prop := conn.sendBuf.size ≠ 0 ∧ conn.recvBuf.size ≠ 0

/-! A state change touches nothing else. -/

@[simp] lemma connSetState_connId (conn : Conn) (new : ConnState) :
    (connSetState conn new).2.connId = conn.connId := by
  rw [connSetState]; split <;> rfl

@[simp] lemma connSetState_session (conn : Conn) (new : ConnState) :
    (connSetState conn new).2.session = conn.session := by
  rw [connSetState]; split <;> rfl

@[simp] lemma connSetState_userData (conn : Conn) (new : ConnState) :
    (connSetState conn new).2.userData = conn.userData := by
  rw [connSetState]; split <;> rfl

@[simp] lemma connSetState_refcnt (conn : Conn) (new : ConnState) :
    (connSetState conn new).2.refcnt = conn.refcnt := by
  rw [connSetState]; split <;> rfl

@[simp] lemma connSetState_localSeq (conn : Conn) (new : ConnState) :
    (connSetState conn new).2.localSeq = conn.localSeq := by
  rw [connSetState]; split <;> rfl

@[simp] lemma connSetState_bufs (conn : Conn) (new : ConnState) :
    (connSetState conn new).2.sendBuf = conn.sendBuf ∧
      (connSetState conn new).2.recvBuf = conn.recvBuf := by
  rw [connSetState]; split <;> exact ⟨rfl, rfl⟩

end RoboControl.Connection
