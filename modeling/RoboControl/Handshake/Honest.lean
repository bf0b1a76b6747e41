import RoboControl.Handshake.Steps
import RoboControl.Crypto.Rotation

/-!
# Honest handshakes

What the steps of `src/core/rc_handshake.c` do (`sendClientHello_cases` and so on), and what follows
for a handshake in which every message arrives as it was sent and every step before the last
succeeds (`HonestRun`). The client authenticates the header it sent, with its flags, sequence number
and cipher suites; the server rebuilds that header and the ClientHello without them.
`honest_finish_rejected`: the two transcripts always differ, so the server turns every honest client
away.
-/

namespace RoboControl.Handshake
open Base Proto Crypto Connection

/-! ## What the steps do -/

/-- A step that failed has kept the id and `user_data` of its connection. -/
structure Kept (conn conn' : Conn) : Prop where
  connId : conn'.connId = conn.connId
  userData : conn'.userData = conn.userData

/-- The context a client keeps for its ClientHello. -/
def helloCtx (ossl : Openssl) (conn : Conn) (privkey random : Bytes 32) : HsClientCtx where
  clientPrivkey := privkey
  clientPubkey := ossl.x25519Public privkey
  clientRandom := random
  helloHdr := { hdrInit .hello conn.localSeq conn.connId with
    payloadLen := clientHelloSize.toUInt16, flags := flagReliable }

/-- The client's first step comes to its packet. -/
structure ClientDraws.Ready (draws : ClientDraws) : Prop where
  ctxAlloc : draws.ctxAlloc = true
  privkey : draws.privkey ≠ none
  random : draws.random ≠ none

/-- There is room for the packet of a message in `send_buf`. -/
def Room (conn : Conn) (msgSize : Nat) : Prop :=
  headerSize + msgSize ≤ (ringbufFreeSpace conn.sendBuf).toNat

/-- A packet is written as a whole exactly if there is room for it. -/
lemma room_iff {conn : Conn} {host : Endian} {hdr : PktHdr} {payload : List UInt8} {msgSize : Nat}
    (h : payload.length = msgSize) :
    (ringbufWrite conn.sendBuf (packet host hdr payload)).1 = headerSize + msgSize ↔
      Room conn msgSize := by
  rw [ringbufWrite_fst, length_packet, h, Room]
  exact min_eq_left_iff

/-- The client's first step fails and keeps `user_data`, or leaves its context there; it succeeds
exactly if it comes to its packet and there is room for it. -/
lemma sendClientHello_cases (host : Endian) (ossl : Openssl) (draws : ClientDraws) (conn : Conn) :
    (∃ conn', sendClientHello host ossl draws conn = (-1, conn', none) ∧ Kept conn conn' ∧
      ¬ (draws.Ready ∧ Room conn clientHelloSize)) ∨
    ∃ conn' privkey random,
      sendClientHello host ossl draws conn =
        (0, conn', some (buildClientHello conn.connId random (ossl.x25519Public privkey))) ∧
      conn'.connId = conn.connId ∧ conn'.session = conn.session ∧
      conn'.userData = .clientCtx (helloCtx ossl conn privkey random) ∧
      draws.Ready ∧ Room conn clientHelloSize := by
  rw [sendClientHello]
  split
  · next halloc =>
    exact .inl ⟨conn, rfl, ⟨rfl, rfl⟩, fun h => absurd (h.1.ctxAlloc.symm.trans halloc) (by decide)⟩
  · next halloc =>
    split
    · next hpriv hrandom =>
      dsimp only
      split
      · next hw =>
        exact .inl ⟨_, rfl, ⟨rfl, rfl⟩, fun h =>
          hw ((room_iff (ClientHello.length_bytes _ _)).mpr h.2)⟩
      · next hw =>
        refine .inr ⟨_, _, _, rfl, connSetState_connId _ _, connSetState_session _ _,
          connSetState_userData _ _, ?_, (room_iff (ClientHello.length_bytes _ _)).mp
            (not_not.mp hw)⟩
        exact ⟨Bool.eq_true_of_not_eq_false halloc, by simp [hpriv], by simp [hrandom]⟩
    · next hnone =>
      refine .inl ⟨conn, rfl, ⟨rfl, rfl⟩, fun h => ?_⟩
      obtain ⟨privkey, hpriv⟩ := Option.ne_none_iff_exists'.mp h.1.privkey
      obtain ⟨random, hrandom⟩ := Option.ne_none_iff_exists'.mp h.1.random
      exact hnone privkey random hpriv hrandom

/-- The ServerHello of a server. -/
def serverHelloOf (host : Endian) (ossl : Openssl) (conn : Conn) (clientHello : ClientHello)
    (privkey random : Bytes 32) (idBytes : Bytes 4) : ServerHello where
  connId := conn.connId
  serverRandom := random
  serverPubkey := ossl.x25519Public privkey
  selectedCipher := (selectCipher clientHello.cipherSuites.toList).code
  sessionId := UInt32.ofNat (load host idBytes.toList)
  extensionsLen := 0
  extensions := .zeros 128

/-- The context a server keeps for its ServerHello. -/
def replyCtx (host : Endian) (ossl : Openssl) (clientHello : ClientHello)
    (privkey random : Bytes 32) (idBytes : Bytes 4) : HsServerCtx where
  serverPrivkey := privkey
  serverPubkey := ossl.x25519Public privkey
  serverRandom := random
  clientRandom := clientHello.clientRandom
  clientPubkey := clientHello.clientPubkey
  sessionId := UInt32.ofNat (load host idBytes.toList)

/-- Both calls of HKDF in a key derivation succeed, and give the master secret. -/
def Derives (ossl : Openssl) (secret : Bytes 32) (cr sr : Bytes 32) (okm : Bytes 64) : Prop :=
  hkdfSha256 ossl secret.toList (cr.toList ++ sr.toList) keyExpansionInfo 64 = some okm ∧
    hkdfSha256 ossl okm.toList (cr.toList ++ sr.toList) ivExpansionInfo 24 ≠ none

/-- The key derivation returns 0 exactly if both calls succeed. -/
lemma deriveSessionKeys_eq_zero_iff (ossl : Openssl) (secret cr sr : Bytes 32)
    (er dr : Option (Bytes 12)) (s : Session) :
    (deriveSessionKeys ossl secret.toList cr sr er dr s).1 = 0 ↔
      ∃ okm, Derives ossl secret cr sr okm := by
  rw [deriveSessionKeys]
  simp only [Derives]
  split
  · next hokm => simp [hokm]
  · next okm hokm =>
    split
    · next hiv => simp [hokm, hiv]
    · next iv hiv => simp [hokm, hiv]

/-- Then it has kept the master secret. -/
lemma deriveSessionKeys_masterSecret {ossl : Openssl} {secret cr sr : Bytes 32} {okm : Bytes 64}
    (h : Derives ossl secret cr sr okm) (er dr : Option (Bytes 12)) (s : Session) :
    (deriveSessionKeys ossl secret.toList cr sr er dr s).2.masterSecret = okm := by
  have hzero := (deriveSessionKeys_eq_zero_iff ossl secret cr sr er dr s).mpr ⟨okm, h⟩
  obtain ⟨okm', hokm, hmaster⟩ := deriveSessionKeys_master (Prod.ext hzero rfl)
  rw [hmaster]
  exact Option.some.inj (hokm.symm.trans h.1)

/-- The server's first step comes to its packet. -/
structure ServerDraws.Ready (ossl : Openssl) (draws : ServerDraws) (ch : ClientHello) : Prop where
  ctxAlloc : draws.ctxAlloc = true
  sessionId : draws.sessionId ≠ none
  keys : ∃ privkey random secret okm, draws.privkey = some privkey ∧ draws.random = some random ∧
    ossl.x25519 privkey ch.clientPubkey = some secret ∧
      Derives ossl secret ch.clientRandom random okm

/-- What a step that is ready has computed with its draws. -/
lemma ServerDraws.Ready.keys_of {ossl : Openssl} {draws : ServerDraws} {ch : ClientHello}
    {privkey random : Bytes 32} (ready : draws.Ready ossl ch) (hpriv : draws.privkey = some privkey)
    (hrandom : draws.random = some random) :
    ∃ secret okm, ossl.x25519 privkey ch.clientPubkey = some secret ∧
      Derives ossl secret ch.clientRandom random okm := by
  obtain ⟨privkey', random', secret, okm, hp, hr, hx, hd⟩ := ready.keys
  cases hpriv.symm.trans hp
  cases hrandom.symm.trans hr
  exact ⟨secret, okm, hx, hd⟩

/-- The server's first step fails and keeps `user_data`, or derives keys and leaves its context
there; it succeeds exactly if it comes to its packet and there is room for it. -/
lemma processClientHello_cases (host : Endian) (ossl : Openssl) (draws : ServerDraws) (conn : Conn)
    (ch : ClientHello) :
    (∃ conn', processClientHello host ossl draws conn ch = (-1, conn', none) ∧ Kept conn conn' ∧
      ¬ (draws.Ready ossl ch ∧ Room conn serverHelloSize)) ∨
    ∃ conn' privkey random idBytes secret,
      processClientHello host ossl draws conn ch =
        (0, conn', some (serverHelloOf host ossl conn ch privkey random idBytes)) ∧
      conn'.connId = conn.connId ∧
      conn'.userData = .serverCtx (replyCtx host ossl ch privkey random idBytes) ∧
      ossl.x25519 privkey ch.clientPubkey = some secret ∧
      deriveSessionKeys ossl secret.toList ch.clientRandom random draws.encSalt draws.decSalt
        { conn.session with algo := selectCipher ch.cipherSuites.toList } = (0, conn'.session) ∧
      draws.Ready ossl ch ∧ Room conn serverHelloSize := by
  rw [processClientHello]
  split
  · next halloc =>
    exact .inl ⟨conn, rfl, ⟨rfl, rfl⟩, fun h => absurd (h.1.ctxAlloc.symm.trans halloc) (by decide)⟩
  next halloc =>
  split
  · next privkey random hpriv hrandom =>
    dsimp only
    split
    · next hid => exact .inl ⟨_, rfl, ⟨rfl, rfl⟩, fun h => h.1.sessionId hid⟩
    next idBytes hid =>
    split
    · next hx =>
      refine .inl ⟨_, rfl, ⟨rfl, rfl⟩, fun h => ?_⟩
      obtain ⟨secret, -, hx', -⟩ := h.1.keys_of hpriv hrandom
      cases hx.symm.trans hx'
    next secret hx =>
    split
    · next hret =>
      refine .inl ⟨_, rfl, ⟨rfl, rfl⟩, fun h => ?_⟩
      obtain ⟨secret', okm, hx', hd⟩ := h.1.keys_of hpriv hrandom
      cases hx.symm.trans hx'
      exact hret ((deriveSessionKeys_eq_zero_iff ..).mpr ⟨okm, hd⟩)
    next hret =>
    split
    · next hw =>
      exact .inl ⟨_, rfl, ⟨rfl, rfl⟩, fun h =>
        hw ((room_iff (ServerHello.length_bytes _ _)).mpr h.2)⟩
    · next hw =>
      obtain ⟨okm, hd⟩ := (deriveSessionKeys_eq_zero_iff ..).mp (not_not.mp hret)
      refine .inr ⟨_, _, _, _, secret, rfl, rfl, rfl, hx, Prod.ext (not_not.mp hret) rfl, ?_,
        (room_iff (ServerHello.length_bytes _ _)).mp (not_not.mp hw)⟩
      exact ⟨Bool.eq_true_of_not_eq_false halloc, by simp [hid],
        privkey, random, secret, okm, hpriv, hrandom, hx, hd⟩
  · next hnone =>
    refine .inl ⟨conn, rfl, ⟨rfl, rfl⟩, fun h => ?_⟩
    obtain ⟨privkey, random, -, -, hpriv, hrandom, -⟩ := h.1.keys
    exact hnone privkey random hpriv hrandom

/-- The client's second step on a client context fails and keeps `user_data`, or derives keys, sends
the HMAC of its transcript and clears `user_data`. -/
lemma processServerHello_cases (host : Endian) (ossl : Openssl) (draws : FinishDraws) {conn : Conn}
    {ctx : HsClientCtx} (hctx : conn.userData = .clientCtx ctx) (sh : ServerHello) :
    (∃ conn', processServerHello host ossl draws conn sh = some (-1, conn', none) ∧
      Kept conn conn') ∨
    ∃ conn' secret verifyData,
      processServerHello host ossl draws conn sh =
        some (0, conn', some { connId := conn.connId, verifyData := verifyData }) ∧
      conn'.userData = .null ∧
      ossl.x25519 ctx.clientPrivkey sh.serverPubkey = some secret ∧
      deriveSessionKeys ossl secret.toList ctx.clientRandom sh.serverRandom draws.encSalt
        draws.decSalt conn.session = (0, conn'.session) ∧
      ossl.hmac (conn'.session.masterSecret.slice 0 32 (by decide)).toList
        (clientHelloPacket host conn ctx ++ serverHelloPacket host conn sh) = some verifyData := by
  rw [processServerHello]
  simp only [hctx]
  split
  · exact .inl ⟨conn, rfl, rfl, rfl⟩
  · rename_i secret hx
    split
    · exact .inl ⟨_, rfl, rfl, hctx.symm⟩
    · rename_i hret
      split
      · exact .inl ⟨_, rfl, rfl, hctx.symm⟩
      · rename_i verifyData ht
        rw [buildTranscript] at ht
        split at ht
        · cases ht
        · split
          · exact .inl ⟨_, rfl, rfl, hctx.symm⟩
          · refine .inr ⟨_, secret, verifyData, rfl, rfl, hx, ?_, ?_⟩
            · rw [connSetState_session]
              exact Prod.ext (not_not.mp hret) rfl
            · rw [connSetState_session]
              exact ht

/-! ## The comparison loop -/

/-- No byte differs. -/
lemma byteDiff_eq_zero_iff {xs ys : List UInt8} (h : xs.length = ys.length) : byteDiff xs ys = 0 ↔
    xs = ys :=
  foldl_or_zipWith_xor_eq_zero_iff h

/-! ## Honest runs -/

/-- A handshake up to the Finish message: every message is delivered unmodified and every step
succeeds. -/
structure HonestRun (host : Endian) (ossl : Openssl) (client server : Conn) where
  clientDraws : ClientDraws
  serverDraws : ServerDraws
  finishDraws : FinishDraws
  /-- The client after its first step. -/
  client1 : Conn
  clientHello : ClientHello
  /-- The server after its first step. -/
  server1 : Conn
  serverHello : ServerHello
  /-- The client after its second step. -/
  client2 : Conn
  finish : Finish
  sameId : client.connId = server.connId
  sent : sendClientHello host ossl clientDraws client = (0, client1, some clientHello)
  replied : processClientHello host ossl serverDraws server clientHello =
    (0, server1, some serverHello)
  finished : processServerHello host ossl finishDraws client1 serverHello =
    some (0, client2, some finish)

section HonestRun
variable {host : Endian} {ossl : Openssl} {client server : Conn}

/-- What an honest run has done on both sides, in terms of what they drew. -/
structure HonestRun.Facts (run : HonestRun host ossl client server)
    (cpriv crandom spriv srandom : Bytes 32) (idBytes : Bytes 4) (secret : Bytes 32) : Prop where
  hello : run.clientHello = buildClientHello client.connId crandom (ossl.x25519Public cpriv)
  clientId : run.client1.connId = client.connId
  clientCtx : run.client1.userData = .clientCtx (helloCtx ossl client cpriv crandom)
  serverCtx : run.server1.userData =
    .serverCtx (replyCtx host ossl run.clientHello spriv srandom idBytes)
  serverKeys : deriveSessionKeys ossl secret.toList crandom srandom run.serverDraws.encSalt
    run.serverDraws.decSalt { server.session with algo := .aes256Gcm } = (0, run.server1.session)
  clientKeys : deriveSessionKeys ossl secret.toList crandom srandom run.finishDraws.encSalt
    run.finishDraws.decSalt client.session = (0, run.client2.session)
  verify : ossl.hmac (run.client2.session.masterSecret.slice 0 32 (by decide)).toList
    (clientHelloPacket host run.client1 (helloCtx ossl client cpriv crandom) ++
      serverHelloPacket host run.client1 run.serverHello) = some run.finish.verifyData

/-- What an honest run has computed. -/
lemma HonestRun.facts (run : HonestRun host ossl client server) (hx : ossl.X25519Commutes) :
    ∃ cpriv crandom spriv srandom idBytes secret,
      run.Facts cpriv crandom spriv srandom idBytes secret := by
  obtain ⟨cd, sd, fd, client1, ch, server1, sh, client2, fin, -, sent, replied, finished⟩ := run
  obtain ⟨_, e, -⟩ | ⟨_, cpriv, crandom, e, hci, hcs, hcu, -⟩ :=
    sendClientHello_cases host ossl cd client
  · cases e.symm.trans sent
  cases e.symm.trans sent
  obtain ⟨_, e, -⟩ | ⟨_, spriv, srandom, idBytes, ssecret, e, -, hsu, hsx, hsk, -⟩ :=
    processClientHello_cases host ossl sd server _
  · cases e.symm.trans replied
  cases e.symm.trans replied
  obtain ⟨_, e, -⟩ | ⟨_, csecret, verifyData, e, -, hcx, hck, hv⟩ :=
    processServerHello_cases host ossl fd hcu _
  · cases e.symm.trans finished
  cases e.symm.trans finished
  -- Both sides computed the same secret.
  have hsec : some ssecret = some csecret := hsx.symm.trans ((hx spriv cpriv).trans hcx)
  cases hsec
  rw [hcs] at hck
  exact ⟨cpriv, crandom, spriv, srandom, idBytes, ssecret, rfl, hci, hcu, hsu, hsk, hck, hv⟩

/-- The transcript that a client authenticates. -/
def clientTranscript (host : Endian) (conn : Conn) (ctx : HsClientCtx) (sh : ServerHello) :
    List UInt8 :=
  clientHelloPacket host conn ctx ++ serverHelloPacket host conn sh

/-- The transcript that a server rebuilds. -/
def serverTranscript (host : Endian) (conn : Conn) (ctx : HsServerCtx) : List UInt8 :=
  rebuiltClientHelloPacket host conn ctx ++ rebuiltServerHelloPacket host conn ctx

/-- The server's transcript is never the client's: the flags of the ClientHello's header differ. -/
lemma clientTranscript_ne (host : Endian) (ossl : Openssl) (client conn conn' : Conn)
    (privkey random : Bytes 32) (sh : ServerHello) (ctx : HsServerCtx) :
    clientTranscript host conn (helloCtx ossl client privkey random) sh ≠
      serverTranscript host conn' ctx := by
  intro e
  have hflags : flagReliable = 0 := flags_eq_of_packet_append_eq e
  exact absurd hflags (by decide)

/-- A server rejects verify data that is not the HMAC of the transcript it rebuilds. -/
lemma processFinish_rejects {host : Endian} {ossl : Openssl} {conn : Conn} {ctx : HsServerCtx}
    {finish : Finish} (hctx : conn.userData = .serverCtx ctx) (alloc : Bool)
    (hv : ossl.hmac (conn.session.masterSecret.slice 0 32 (by decide)).toList
      (serverTranscript host conn ctx) ≠ some finish.verifyData) :
    processFinish host ossl alloc conn finish = some (-1, conn) := by
  rw [processFinish]
  simp only [hctx]
  split
  · rfl
  · rename_i expected ht
    rw [buildTranscript] at ht
    split at ht
    · cases ht
    · rw [if_pos]
      intro hd
      have he := (byteDiff_eq_zero_iff (by simp)).mp hd
      exact hv (ht.trans (congrArg some (Bytes.ext he)))

/-- Both sides of an honest run derive the same master secret. -/
lemma HonestRun.masterSecret_eq {run : HonestRun host ossl client server}
    {cpriv crandom spriv srandom idBytes secret}
    (facts : run.Facts cpriv crandom spriv srandom idBytes secret) :
    run.client2.session.masterSecret = run.server1.session.masterSecret := by
  obtain ⟨okm, hk, hm⟩ := deriveSessionKeys_master facts.clientKeys
  obtain ⟨okm', hk', hm'⟩ := deriveSessionKeys_master facts.serverKeys
  rw [hm, hm']
  exact Option.some.inj (hk.symm.trans hk')

/-- The transcripts of an honest run differ, and the server rejects the client's Finish message
wherever HMAC tells the two apart. -/
theorem honest_finish_rejected (host : Endian) (ossl : Openssl) (client server : Conn)
    (run : HonestRun host ossl client server) (hx : ossl.X25519Commutes) :
    ∃ cctx sctx, run.client1.userData = .clientCtx cctx ∧ run.server1.userData = .serverCtx sctx ∧
      clientTranscript host run.client1 cctx run.serverHello ≠
        serverTranscript host run.server1 sctx ∧
      ((ossl.hmac (run.server1.session.masterSecret.slice 0 32 (by decide)).toList
            (clientTranscript host run.client1 cctx run.serverHello) =
          ossl.hmac (run.server1.session.masterSecret.slice 0 32 (by decide)).toList
            (serverTranscript host run.server1 sctx) →
          clientTranscript host run.client1 cctx run.serverHello =
            serverTranscript host run.server1 sctx) →
        ∀ alloc, processFinish host ossl alloc run.server1 run.finish =
          some (-1, run.server1)) := by
  obtain ⟨cpriv, crandom, spriv, srandom, idBytes, secret, facts⟩ := run.facts hx
  have hne := clientTranscript_ne host ossl client run.client1 run.server1 cpriv crandom
    run.serverHello (replyCtx host ossl run.clientHello spriv srandom idBytes)
  refine ⟨_, _, facts.clientCtx, facts.serverCtx, hne, fun hinj alloc => ?_⟩
  refine processFinish_rejects facts.serverCtx alloc fun hv => hne (hinj ?_)
  have hv' := facts.verify
  rw [HonestRun.masterSecret_eq facts] at hv'
  exact hv'.trans hv.symm

end HonestRun

/-! ## A handshake with the vectors -/

/-- A connection as `rc_conn_create` makes it, with id 7. -/
def sampleConn : Conn where
  connId := 7
  fd := 3
  state := .closed
  refcnt := 1
  session := sessionInit .aes256Gcm
  localSeq := 0
  sendBuf := (ringbufInit true .empty 65536).2
  recvBuf := (ringbufInit true .empty 65536).2
  lastRecv := ⟨0, 0⟩
  userData := .null

/-- What the client of the vectors draws. -/
def sampleClientDraws : ClientDraws := ⟨true, some clientPriv, some clientRandom⟩

/-- What the server of the vectors draws. -/
def sampleServerDraws : ServerDraws :=
  ⟨true, some serverPriv, some serverRandom, some ⟨[1, 2, 3, 4], rfl⟩, some (.zeros 12),
    some (.zeros 12)⟩

/-- The ClientHello of the vectors. -/
def sampleClientHello : ClientHello := buildClientHello 7 clientRandom clientPub

/-- The ServerHello of the vectors. -/
def sampleServerHello : ServerHello :=
  serverHelloOf .little vectors sampleConn sampleClientHello serverPriv serverRandom
    ⟨[1, 2, 3, 4], rfl⟩

/-- The client of the vectors after its first step. -/
def sampleClient1 : Conn := (sendClientHello .little vectors sampleClientDraws sampleConn).2.1

/-- The server of the vectors after its first step. -/
def sampleServer1 : Conn :=
  (processClientHello .little vectors sampleServerDraws sampleConn sampleClientHello).2.1

/-- What the client of the vectors draws in its second step. -/
def sampleFinishDraws : FinishDraws := ⟨some (.zeros 12), some (.zeros 12), true⟩

/-- The client of the vectors after its second step. -/
def sampleClient2 : Conn :=
  ((processServerHello .little vectors sampleFinishDraws sampleClient1 sampleServerHello).map
    (·.2.1)).getD sampleConn

/-- The client's second step, from its code and its message. -/
lemma sampleRun_finished :
    processServerHello .little vectors sampleFinishDraws sampleClient1 sampleServerHello =
      some (0, sampleClient2, some ⟨7, sampleClientMac⟩) := by
  have h : (processServerHello .little vectors sampleFinishDraws sampleClient1
    sampleServerHello).map
      (fun r => (r.1, r.2.2)) = some (0, some ⟨7, sampleClientMac⟩) := by decide +kernel
  rw [sampleClient2]
  obtain ⟨⟨ret, conn, message⟩, hr, he⟩ := Option.map_eq_some_iff.mp h
  rw [hr]
  cases he
  rfl

/-- The handshake of the vectors. -/
def sampleRun : HonestRun .little vectors sampleConn sampleConn where
  clientDraws := sampleClientDraws
  serverDraws := sampleServerDraws
  finishDraws := sampleFinishDraws
  client1 := sampleClient1
  clientHello := sampleClientHello
  server1 := sampleServer1
  serverHello := sampleServerHello
  client2 := sampleClient2
  finish := ⟨7, sampleClientMac⟩
  sameId := rfl
  sent := Prod.ext (by decide +kernel) (Prod.ext (by rw [sampleClient1]) (by decide +kernel))
  replied := Prod.ext (by decide +kernel) (Prod.ext (by rw [sampleServer1]) (by decide +kernel))
  finished := sampleRun_finished

/-- The contexts of the sample. -/
lemma sampleRun_userData :
    sampleRun.client1.userData = .clientCtx (helloCtx vectors sampleConn clientPriv clientRandom) ∧
    sampleRun.server1.userData = .serverCtx
      (replyCtx .little vectors sampleClientHello serverPriv serverRandom ⟨[1, 2, 3, 4], rfl⟩) := by
  decide +kernel

/-- The server of the vectors rejects the Finish message of its honest client. -/
theorem honest_finish_rejected_sample :
    processFinish .little vectors true sampleRun.server1 sampleRun.finish =
      some (-1, sampleRun.server1) := by
  obtain ⟨cctx, sctx, hc, hs, -, hrej⟩ :=
    honest_finish_rejected .little vectors sampleConn sampleConn sampleRun vectors_x25519Commutes
  cases sampleRun_userData.1.symm.trans hc
  cases sampleRun_userData.2.symm.trans hs
  exact hrej (fun e => absurd e (by decide +kernel)) true

/-- Every step of the handshake of the vectors succeeds but the last. -/
theorem honest_handshake_fails :
    (sendClientHello .little vectors sampleClientDraws sampleConn).1 = 0 ∧
    (processClientHello .little vectors sampleServerDraws sampleConn sampleClientHello).1 = 0 ∧
    (processServerHello .little vectors sampleFinishDraws sampleClient1 sampleServerHello).map
      (fun r => (r.1, r.2.2)) = some (0, some ⟨7, sampleClientMac⟩) ∧
    (processFinish .little vectors true sampleServer1 ⟨7, sampleClientMac⟩).map Prod.fst =
      some (-1) := by
  decide +kernel

end RoboControl.Handshake
