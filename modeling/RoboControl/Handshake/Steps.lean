import RoboControl.Connection.Basic
import RoboControl.Proto.Message

/-!
# Handshake steps

Model of `src/core/rc_handshake.c`: the four steps of the handshake, `sendClientHello`
(C `rc_handshake_send_client_hello`), `processClientHello` (C `rc_handshake_process_client_hello`),
`processServerHello` (C `rc_handshake_process_server_hello`) and `processFinish`
(C `rc_handshake_process_finish`).

A step returns its code, the connection it leaves on that path, and the message it queued, which is
the argument of the peer's next step. What allocation, key generation and the random generator give
is an argument (`ClientDraws` and so on). `processServerHello` and `processFinish` take `user_data`
for the context an earlier step put there; they are `none` where it is something else, which is
undefined behaviour.
-/

namespace RoboControl.Handshake
open Base Proto Crypto Connection

/-! ## Transcript -/

/-- HMAC of both hellos under the first 32 bytes of the master secret (C `build_transcript`). -/
def buildTranscript (ossl : Openssl) (alloc : Bool) (clientHello serverHello : List UInt8)
    (masterSecret : Bytes 64) : Option (Bytes 32) :=
  if alloc = false then none
  else ossl.hmac (masterSecret.slice 0 32 low_half_le).toList (clientHello ++ serverHello)

/-! ## Client side, first message -/

/-- What a client's first step gets from allocation, key generation and the random generator. -/
structure ClientDraws where
  ctxAlloc : Bool
  privkey : Option (Bytes 32)
  random : Option (Bytes 32)

/-- The ClientHello of a client. -/
def buildClientHello (connId : UInt32) (random pubkey : Bytes 32) : ClientHello where
  connId := connId
  clientRandom := random
  clientPubkey := pubkey
  cipherSuites := #v[csAes256Gcm, csChacha20Poly1305, 0, 0]
  extensionsLen := 0
  extensions := .zeros 128

/-- Build and queue a ClientHello (C `rc_handshake_send_client_hello`). -/
def sendClientHello (host : Endian) (ossl : Openssl) (draws : ClientDraws) (conn : Conn) :
    Int × Conn × Option ClientHello :=
  if draws.ctxAlloc = false then (-1, conn, none)
  else
    match draws.privkey, draws.random with
    | some privkey, some random =>
      let pubkey := ossl.x25519Public privkey
      let hello := buildClientHello conn.connId random pubkey
      let hdr := { hdrInit .hello conn.localSeq conn.connId with
        payloadLen := clientHelloSize.toUInt16, flags := flagReliable }
      let conn := { conn with localSeq := conn.localSeq + 1 }
      let (written, sendBuf) := ringbufWrite conn.sendBuf (packet host hdr (hello.bytes host))
      let conn := { conn with sendBuf }
      if written ≠ headerSize + clientHelloSize then (-1, conn, none)
      else
        let ctx := { clientPrivkey := privkey, clientPubkey := pubkey, clientRandom := random,
                     helloHdr := hdr }
        -- Whatever `user_data` was before is lost.
        let conn := { conn with userData := .clientCtx ctx }
        (0, (connSetState conn .handshaking).2, some hello)
    | _, _ => (-1, conn, none)

/-! ## Server side, second message -/

/-- What a server's first step gets; the salts are those `rc_aead_init` draws. -/
structure ServerDraws where
  ctxAlloc : Bool
  privkey : Option (Bytes 32)
  random : Option (Bytes 32)
  sessionId : Option (Bytes 4)
  encSalt : Option (Bytes 12)
  decSalt : Option (Bytes 12)

/-- The first suite of a list that is supported; AES-256-GCM if none is. -/
def selectCipher : List UInt16 → AeadAlgo
  | [] => .aes256Gcm
  | suite :: suites =>
    if suite = csChacha20Poly1305 then .chacha20Poly1305
    else if suite = csAes256Gcm then .aes256Gcm
    else selectCipher suites

/-- Process a ClientHello and queue a ServerHello (C `rc_handshake_process_client_hello`). -/
def processClientHello (host : Endian) (ossl : Openssl) (draws : ServerDraws) (conn : Conn)
    (clientHello : ClientHello) : Int × Conn × Option ServerHello :=
  if draws.ctxAlloc = false then (-1, conn, none)
  else
    match draws.privkey, draws.random with
    | some privkey, some random =>
      let pubkey := ossl.x25519Public privkey
      let algo := selectCipher clientHello.cipherSuites.toList
      -- From here on a failure leaves the session changed.
      let conn := { conn with session := { conn.session with algo } }
      match draws.sessionId with
      | none => (-1, conn, none)
      | some idBytes =>
        let sessionId := UInt32.ofNat (load host idBytes.toList)
        let shello : ServerHello := {
          connId := conn.connId, serverRandom := random, serverPubkey := pubkey,
          selectedCipher := algo.code, sessionId := sessionId, extensionsLen := 0,
          extensions := .zeros 128 }
        match ossl.x25519 privkey clientHello.clientPubkey with
        | none => (-1, conn, none)
        | some sharedSecret =>
          let (ret, session) := deriveSessionKeys ossl sharedSecret.toList clientHello.clientRandom
            random draws.encSalt draws.decSalt conn.session
          let conn := { conn with session }
          if ret ≠ 0 then (-1, conn, none)
          else
            let hdr := { hdrInit .helloAck conn.localSeq conn.connId with
              payloadLen := serverHelloSize.toUInt16, flags := flagReliable }
            let conn := { conn with localSeq := conn.localSeq + 1 }
            let (written, sendBuf) :=
              ringbufWrite conn.sendBuf (packet host hdr (shello.bytes host))
            let conn := { conn with sendBuf }
            if written ≠ headerSize + serverHelloSize then (-1, conn, none)
            else
              let ctx := { serverPrivkey := privkey, serverPubkey := pubkey, serverRandom := random,
                           clientRandom := clientHello.clientRandom,
                           clientPubkey := clientHello.clientPubkey, sessionId := sessionId }
              (0, { conn with userData := .serverCtx ctx }, some shello)
    | _, _ => (-1, conn, none)

/-! ## Client side, third message -/

/-- What a client's second step gets. -/
structure FinishDraws where
  encSalt : Option (Bytes 12)
  decSalt : Option (Bytes 12)
  transcriptAlloc : Bool

/-- The ClientHello packet as the client remembers it. -/
def clientHelloPacket (host : Endian) (conn : Conn) (ctx : HsClientCtx) : List UInt8 :=
  packet host ctx.helloHdr
    ((buildClientHello conn.connId ctx.clientRandom ctx.clientPubkey).bytes host)

/-- The ServerHello packet as the client rebuilds it. -/
def serverHelloPacket (host : Endian) (conn : Conn) (serverHello : ServerHello) : List UInt8 :=
  packet host { hdrInit .helloAck 0 conn.connId with payloadLen := serverHelloSize.toUInt16 }
    (serverHello.bytes host)

/-- Process a ServerHello and queue a Finish (C `rc_handshake_process_server_hello`). -/
def processServerHello (host : Endian) (ossl : Openssl) (draws : FinishDraws) (conn : Conn)
    (serverHello : ServerHello) : Option (Int × Conn × Option Finish) :=
  match conn.userData with
  | .null => some (-1, conn, none)
  | .clientCtx ctx =>
    match ossl.x25519 ctx.clientPrivkey serverHello.serverPubkey with
    | none => some (-1, conn, none)
    | some sharedSecret =>
      let (ret, session) := deriveSessionKeys ossl sharedSecret.toList ctx.clientRandom
        serverHello.serverRandom draws.encSalt draws.decSalt conn.session
      let conn := { conn with session }
      if ret ≠ 0 then some (-1, conn, none)
      else
        match buildTranscript ossl draws.transcriptAlloc (clientHelloPacket host conn ctx)
            (serverHelloPacket host conn serverHello) conn.session.masterSecret with
        | none => some (-1, conn, none)
        | some verifyData =>
          let finish := { connId := conn.connId, verifyData := verifyData }
          let hdr := { hdrInit .fin conn.localSeq conn.connId with
            payloadLen := finishSize.toUInt16, flags := flagReliable ||| flagFinAck }
          let conn := { conn with localSeq := conn.localSeq + 1 }
          let (written, sendBuf) := ringbufWrite conn.sendBuf (packet host hdr (finish.bytes host))
          let conn := { conn with sendBuf }
          if written ≠ headerSize + finishSize then some (-1, conn, none)
          else
            let conn := (connSetState conn .established).2
            some (0, { conn with userData := .null }, some finish)
  -- A pointer to something else is read as a client context.
  | .conn _ | .serverCtx _ => none

/-! ## Server side, verification -/

/-- The ClientHello packet as the server rebuilds it: no cipher suites, sequence
number 0, no flags. -/
def rebuiltClientHelloPacket (host : Endian) (conn : Conn) (ctx : HsServerCtx) : List UInt8 :=
  let ch : ClientHello := {
    connId := conn.connId, clientRandom := ctx.clientRandom, clientPubkey := ctx.clientPubkey,
    cipherSuites := #v[0, 0, 0, 0], extensionsLen := 0, extensions := .zeros 128 }
  packet host { hdrInit .hello 0 conn.connId with payloadLen := clientHelloSize.toUInt16 }
    (ch.bytes host)

/-- The ServerHello packet as the server rebuilds it. -/
def rebuiltServerHelloPacket (host : Endian) (conn : Conn) (ctx : HsServerCtx) : List UInt8 :=
  let sh : ServerHello := {
    connId := conn.connId, serverRandom := ctx.serverRandom, serverPubkey := ctx.serverPubkey,
    selectedCipher := conn.session.algo.code, sessionId := ctx.sessionId, extensionsLen := 0,
    extensions := .zeros 128 }
  packet host { hdrInit .helloAck 0 conn.connId with payloadLen := serverHelloSize.toUInt16 }
    (sh.bytes host)

/-- The accumulated difference of two strings of bytes (the comparison loop). -/
def byteDiff (xs ys : List UInt8) : UInt8 := (List.zipWith (· ^^^ ·) xs ys).foldl (· ||| ·) 0

/-- Verify the client's transcript (C `rc_handshake_process_finish`). -/
def processFinish (host : Endian) (ossl : Openssl) (transcriptAlloc : Bool) (conn : Conn)
    (finish : Finish) : Option (Int × Conn) :=
  match conn.userData with
  | .null => some (-1, conn)
  | .serverCtx ctx =>
    match buildTranscript ossl transcriptAlloc (rebuiltClientHelloPacket host conn ctx)
        (rebuiltServerHelloPacket host conn ctx) conn.session.masterSecret with
    | none => some (-1, conn)
    | some expected =>
      if byteDiff expected.toList finish.verifyData.toList ≠ 0 then some (-1, conn)
      else
        let conn := (connSetState conn .established).2
        some (0, { conn with userData := .null })
  | .conn _ | .clientCtx _ => none

end RoboControl.Handshake
