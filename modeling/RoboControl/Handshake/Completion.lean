import RoboControl.Handshake.Frame

/-!
# Completed handshakes

What a handshake of `src/core/rc_handshake.c` that returns 0 has brought about: the state of the
connection and the algorithm of its session.

The last step of each side asks `rc_conn_set_state` for `RC_STATE_ESTABLISHED` and ignores the
answer, and the server's first step does not leave `RC_STATE_CLOSED`
(`handshake_success_established_iff`). The server selects AES-256-GCM if no suite of the ClientHello
is supported, and the client does not read the selected cipher (`negotiation_agrees_iff`).
-/

namespace RoboControl.Handshake
open Base Proto Crypto Connection

/-! ## State -/

/-- The state after a transition. -/
lemma connSetState_state (conn : Conn) (new : ConnState) :
    (connSetState conn new).2.state =
      if conn.state.canBecome new = true then new else conn.state := by
  rw [connSetState]
  cases conn.state.canBecome new <;> rfl

/-- A connection is established after the request exactly if it was ready for it, or
established before. -/
lemma connSetState_established_iff (conn : Conn) :
    (connSetState conn .established).2.state = .established ↔
      conn.state = .handshaking ∨ conn.state = .established := by
  rw [connSetState_state]
  cases conn.state <;> decide

/-- The server's first step does not change the state. -/
lemma processClientHello_state (host : Endian) (ossl : Openssl) (draws : ServerDraws) (conn : Conn)
    (ch : ClientHello) :
    (processClientHello host ossl draws conn ch).2.1.state = conn.state := by
  rw [processClientHello]
  split
  · rfl
  · split
    · dsimp only
      split
      · rfl
      · split
        · rfl
        · split
          · rfl
          · split <;> rfl
    · rfl

section Steps
variable {host : Endian} {ossl : Openssl} {conn conn' : Conn}

/-- The client's second step succeeds with the state that `rc_conn_set_state` leaves, and with a
session whose keys were derived for its algorithm. -/
lemma processServerHello_eq_zero {draws : FinishDraws} {sh : ServerHello} {finish : Option Finish}
    (h : processServerHello host ossl draws conn sh = some (0, conn', finish)) :
    conn'.state = (connSetState conn .established).2.state ∧
    ∃ secret cr, deriveSessionKeys ossl secret cr sh.serverRandom draws.encSalt draws.decSalt
      conn.session = (0, conn'.session) := by
  rw [processServerHello] at h
  cases hu : conn.userData with
  | null => simp [hu] at h
  | conn p => simp [hu] at h
  | serverCtx ctx => simp [hu] at h
  | clientCtx ctx =>
    simp only [hu] at h
    split at h
    · simp at h
    · next secret _ =>
      split at h
      · simp at h
      · next hret =>
        split at h
        · simp at h
        · split at h
          · simp at h
          · cases h
            refine ⟨?_, secret.toList, ctx.clientRandom, ?_⟩
            · simp only [connSetState_state]
            · simp only [connSetState_session]
              exact Prod.ext (not_not.mp hret) rfl

/-- The server's second step succeeds with the state that `rc_conn_set_state` leaves. -/
lemma processFinish_state {alloc : Bool} {finish : Finish}
    (h : processFinish host ossl alloc conn finish = some (0, conn')) :
    conn'.state = (connSetState conn .established).2.state := by
  rw [processFinish] at h
  cases hu : conn.userData with
  | null => simp [hu] at h
  | conn p => simp [hu] at h
  | clientCtx ctx => simp [hu] at h
  | serverCtx ctx =>
    simp only [hu] at h
    split at h
    · simp at h
    · split at h
      · simp at h
      · cases h
        rfl

lemma byteDiff_self (xs : List UInt8) : byteDiff xs xs = 0 := (byteDiff_eq_zero_iff rfl).mpr rfl

/-- A server accepts the HMAC of the transcript it rebuilds. -/
lemma processFinish_accepts {ctx : HsServerCtx} {finish : Finish}
    (hctx : conn.userData = .serverCtx ctx)
    (hv : ossl.hmac (conn.session.masterSecret.slice 0 32 low_half_le).toList
      (serverTranscript host conn ctx) = some finish.verifyData) :
    ∃ conn', processFinish host ossl true conn finish = some (0, conn') := by
  have ht : buildTranscript ossl true (rebuiltClientHelloPacket host conn ctx)
      (rebuiltServerHelloPacket host conn ctx) conn.session.masterSecret = some finish.verifyData :=
        hv
  rw [processFinish]
  simp only [hctx, ht, byteDiff_self, ne_eq, not_true_eq_false, if_false]
  exact ⟨_, rfl⟩

end Steps

/-- A new connection is closed. -/
lemma connCreate_state {draws : CreateDraws} {pool pool' : Pool} {fd : Int} {connId : UInt32}
    {p : Ptr} {conn : Conn} (h : connCreate draws pool fd connId = (some p, pool'))
    (hp : pool'.conns p = some conn) : conn.state = .closed := by
  rw [connCreate] at h
  split at h
  · cases h
  · split at h
    · cases h
    · dsimp only at h
      split at h
      · cases h
      · split at h
        · cases h
        · cases h
          simp only [Function.update_self, Option.some.injEq] at hp
          rw [← hp]

/-- A step that returns 0 leaves an established connection exactly if the connection was in the
handshake or established before. A server connection from `rc_conn_create` that has processed a
ClientHello accepts the Finish message with the right verify data and is still closed. -/
theorem handshake_success_established_iff (host : Endian) (ossl : Openssl) :
    (∀ draws conn sh conn' finish,
      processServerHello host ossl draws conn sh = some (0, conn', finish) →
      (conn'.state = .established ↔ conn.state = .handshaking ∨ conn.state = .established)) ∧
    (∀ alloc conn finish conn', processFinish host ossl alloc conn finish = some (0, conn') →
      (conn'.state = .established ↔ conn.state = .handshaking ∨ conn.state = .established)) ∧
    (∀ cdraws pool fd connId p pool' conn, connCreate cdraws pool fd connId = (some p, pool') →
      pool'.conns p = some conn →
      ∀ draws ch conn₁ sh, processClientHello host ossl draws conn ch = (0, conn₁, sh) →
      ∃ ctx, conn₁.userData = .serverCtx ctx ∧
      ∀ finish, ossl.hmac (conn₁.session.masterSecret.slice 0 32 low_half_le).toList
          (serverTranscript host conn₁ ctx) = some finish.verifyData →
        ∃ conn₂, processFinish host ossl true conn₁ finish = some (0, conn₂) ∧
          conn₂.state = .closed) := by
  refine ⟨?_, ?_, ?_⟩
  · intro draws conn sh conn' finish h
    rw [(processServerHello_eq_zero h).1]
    exact connSetState_established_iff conn
  · intro alloc conn finish conn' h
    rw [processFinish_state h]
    exact connSetState_established_iff conn
  · intro cdraws pool fd connId p pool' conn hc hp draws ch conn₁ sh hhello
    have hstate : conn₁.state = .closed := by
      have hs := processClientHello_state host ossl draws conn ch
      rw [hhello, connCreate_state hc hp] at hs
      exact hs
    obtain ⟨_, e, -⟩ | ⟨_, _, _, _, _, e, -, hctx, -⟩ :=
      processClientHello_cases host ossl draws conn ch
    · rw [hhello] at e
      cases e
    · cases hhello.symm.trans e
      refine ⟨_, hctx, fun finish hv => ?_⟩
      obtain ⟨conn₂, hfinish⟩ := processFinish_accepts hctx hv
      refine ⟨conn₂, hfinish, ?_⟩
      rw [processFinish_state hfinish, connSetState_state, hstate]
      rfl

/-- The connection of the sample. -/
lemma connCreate_sampleConn :
    ∃ pool', connCreate sampleCreateDraws (connPoolInit 1 1) 3 7 = (some 0, pool') ∧
      pool'.conns 0 = some sampleConn :=
  ⟨_, rfl, rfl⟩

/-- The answer of the sample. -/
lemma processClientHello_sampleConn :
    processClientHello .little vectors sampleServerDraws sampleConn sampleClientHello =
      (0, sampleServer1, some sampleServerHello) :=
  Prod.ext (by decide +kernel) (Prod.ext (by rw [sampleServer1]) (by decide +kernel))

/-- The sample server accepts the Finish message with the right verify data and is still closed. -/
theorem handshake_success_established_sample :
    ∃ conn₂, processFinish .little vectors true sampleServer1 ⟨7, sampleServerMac⟩ =
      some (0, conn₂) ∧
      conn₂.state = .closed := by
  obtain ⟨pool', hc, hp⟩ := connCreate_sampleConn
  obtain ⟨ctx, hctx, hfinish⟩ := (handshake_success_established_iff .little vectors).2.2 _ _ _ _ _ _
    _ hc hp _ _ _ _ processClientHello_sampleConn
  cases sampleRun_userData.2.symm.trans hctx
  exact hfinish ⟨7, sampleServerMac⟩ (by decide +kernel)

/-- A fresh server connection processes a ClientHello and a Finish message with the right verify
data; both steps return 0, and the state is `RC_STATE_CLOSED` to the end. -/
theorem server_never_established :
    ((connCreate sampleCreateDraws (connPoolInit 1 1) 3 7).2.conns 0).map (·.state) = some .closed ∧
    (processClientHello .little vectors sampleServerDraws sampleConn sampleClientHello).1 = 0 ∧
    sampleServer1.state = .closed ∧
    (processFinish .little vectors true sampleServer1 ⟨7, sampleServerMac⟩).map
      (fun r => (r.1, r.2.state)) = some (0, .closed) := by
  decide +kernel

/-! ## Cipher -/

/-- A suite that the server supports. -/
def Supported (suite : UInt16) : Prop := suite = csAes256Gcm ∨ suite = csChacha20Poly1305

instance : DecidablePred Supported := fun _ => inferInstanceAs (Decidable (_ ∨ _))

/-- The server selects the first suite that it supports. -/
lemma selectCipher_of_find {suites : List UInt16} {suite : UInt16}
    (h : suites.find? (fun s => decide (Supported s)) = some suite) :
    (selectCipher suites).code = suite := by
  induction suites with
  | nil => cases h
  | cons s suites ih =>
    rw [selectCipher]
    by_cases hchacha : s = csChacha20Poly1305
    · subst hchacha
      cases h
      rfl
    by_cases haes : s = csAes256Gcm
    · subst haes
      cases h
      rfl
    · have hs : ¬ Supported s := not_or.mpr ⟨haes, hchacha⟩
      rw [List.find?_cons_of_neg (by simpa using hs)] at h
      rw [if_neg hchacha, if_neg haes, ih h]

/-- The selection is the first supported suite of the list exactly if there is one. -/
lemma find_eq_selectCipher_iff (suites : List UInt16) :
    suites.find? (fun s => decide (Supported s)) = some (selectCipher suites).code ↔
      ∃ s ∈ suites, Supported s := by
  constructor
  · intro h
    have hs := List.find?_some h
    exact ⟨_, List.mem_of_find?_eq_some h, of_decide_eq_true hs⟩
  · rintro ⟨s, hs, hsup⟩
    cases hf : suites.find? (fun s => decide (Supported s)) with
    | none => exact absurd hsup (by simpa using List.find?_eq_none.mp hf s hs)
    | some suite => rw [selectCipher_of_find hf]

/-- Both contexts get the algorithm that the session has, also if it is not one of the two. -/
lemma deriveSessionKeys_algo {ossl : Openssl} {secret : List UInt8} {cr sr : Bytes 32}
    {er dr : Option (Bytes 12)} {s t : Session}
    (h : deriveSessionKeys ossl secret cr sr er dr s = (0, t)) :
    t.algo = s.algo ∧ t.encryptCtx.algo = s.algo ∧ t.decryptCtx.algo = s.algo := by
  have hinit (ctx : AeadCtx) (algo : AeadAlgo) (key : Bytes 32) (random : Option (Bytes 12)) :
      (aeadInit ctx algo key random).2.algo = algo := by
    cases algo with
    | unset => rfl
    | aes256Gcm => cases random <;> rfl
    | chacha20Poly1305 => cases random <;> rfl
  rw [deriveSessionKeys] at h
  split at h
  · cases h
  · dsimp only at h
    split at h
    · cases h
    · cases h
      exact ⟨rfl, hinit _ _ _ _, hinit _ _ _ _⟩

/-- The server selects the first supported suite of the ClientHello, and has a session of that
algorithm, exactly if the ClientHello lists a supported suite. The client's session and both its
contexts have the algorithm of the ServerHello exactly if its session had it before. -/
theorem negotiation_agrees_iff (host : Endian) (ossl : Openssl) :
    (∀ draws conn ch conn' sh, processClientHello host ossl draws conn ch = (0, conn', sh) →
      ∃ hello, sh = some hello ∧
      (ch.cipherSuites.toList.find? (fun s => decide (Supported s)) = some hello.selectedCipher ∧
        conn'.session.algo.code = hello.selectedCipher ↔
        ∃ s ∈ ch.cipherSuites.toList, Supported s)) ∧
    (∀ draws conn sh conn' finish,
      processServerHello host ossl draws conn sh = some (0, conn', finish) →
      (conn'.session.algo.code = sh.selectedCipher ∧
        conn'.session.encryptCtx.algo.code = sh.selectedCipher ∧
        conn'.session.decryptCtx.algo.code = sh.selectedCipher ↔
        conn.session.algo.code = sh.selectedCipher)) := by
  refine ⟨?_, ?_⟩
  · intro draws conn ch conn' sh h
    obtain ⟨_, e, -⟩ | ⟨_, privkey, random, idBytes, _, e, -, -, -, hkeys, -⟩ :=
      processClientHello_cases host ossl draws conn ch
    · rw [h] at e
      cases e
    · cases h.symm.trans e
      have hsession := (deriveSessionKeys_algo hkeys).1
      refine ⟨_, rfl, ?_⟩
      rw [hsession, ← find_eq_selectCipher_iff]
      exact and_iff_left rfl
  · intro draws conn sh conn' finish h
    obtain ⟨secret, cr, hkeys⟩ := (processServerHello_eq_zero h).2
    obtain ⟨halgo, henc, hdec⟩ := deriveSessionKeys_algo hkeys
    rw [halgo, henc, hdec, and_self, and_self]

/-- The two steps of the sample handshake agree on the cipher. -/
theorem negotiation_agrees_sample :
    (sampleClientHello.cipherSuites.toList.find? (fun s => decide (Supported s)) =
        some sampleServerHello.selectedCipher ∧
      sampleServer1.session.algo.code = sampleServerHello.selectedCipher) ∧
    sampleClient2.session.algo.code = sampleServerHello.selectedCipher ∧
    sampleClient2.session.encryptCtx.algo.code = sampleServerHello.selectedCipher ∧
    sampleClient2.session.decryptCtx.algo.code = sampleServerHello.selectedCipher := by
  obtain ⟨hserver, hclient⟩ := negotiation_agrees_iff .little vectors
  obtain ⟨_, e, hiff⟩ := hserver _ _ _ _ _ processClientHello_sampleConn
  cases e
  refine ⟨hiff.mpr ⟨csAes256Gcm, by decide +kernel, by decide⟩, ?_⟩
  exact (hclient _ _ _ _ _ sampleRun_finished).mpr (by decide +kernel)

/-- A ClientHello without a supported suite is answered with AES-256-GCM, which it does not list; a
client that gets a ServerHello with ChaCha20-Poly1305 completes the handshake with AES-256-GCM. -/
theorem negotiation_ignored :
    (processClientHello .little vectors sampleServerDraws sampleConn
        { sampleClientHello with cipherSuites := #v[0, 0, 0, 0] }).1 = 0 ∧
    (processClientHello .little vectors sampleServerDraws sampleConn
        { sampleClientHello with cipherSuites := #v[0, 0, 0, 0] }).2.2.map (·.selectedCipher) =
      some csAes256Gcm ∧
    (processServerHello .little vectors sampleFinishDraws sampleClient1
        { sampleServerHello with selectedCipher := csChacha20Poly1305 }).map
      (fun r => (r.1, r.2.1.session.algo, r.2.1.session.encryptCtx.algo)) =
      some (0, .aes256Gcm, .aes256Gcm) := by
  decide +kernel

end RoboControl.Handshake
