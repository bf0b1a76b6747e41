import RoboControl.Base.Run
import RoboControl.Crypto.Record
import RoboControl.Proto.Codec

/-!
# Records on a hostile network

A session that encrypts records and one that is given whatever arrives: the records, some of them
twice, in another order or not at all, and anything else. The counter under which a record was
encrypted is not sent; the receiver tries the number of records it has looked at. So a record is
only ever accepted in its place, and `record_no_replay` says that what is accepted is a part of what
was encrypted, in its order and nothing twice, if nobody can forge a record.
-/

namespace RoboControl.Crypto
open Base Proto
open scoped UInt64.CommRing

/-- A record that was encrypted, with the nonce and the result. -/
structure Encrypted where
  nonce : Bytes 12
  record : Record
  out : Option (List UInt8)

/-- The two sessions, the records that were encrypted, and those that were accepted. -/
structure Link where
  sender : Session
  receiver : Session
  log : List Encrypted
  accepted : List Record

/-- The sender encrypts a record, or something arrives at the receiver. -/
inductive LinkAct where
  | encrypt (r : Record)
  | arrive (x : Record)

/-- One step. -/
def Link.step (host : Endian) (ossl : Openssl) (s : Link) : LinkAct → Option Link
  | .encrypt r =>
    let result := recordEncrypt host ossl s.sender r.1 r.2
    some { s with sender := result.2, log := s.log ++ [⟨s.sender.encryptNonce, r, result.1⟩] }
  | .arrive x =>
    let result := recordDecrypt host ossl s.receiver x.1 x.2
    some { s with receiver := result.2, accepted := s.accepted ++ (result.1.map (x.1, ·)).toList }

/-- Records have a length that the cipher takes, and what the receiver accepts under a nonce was
encrypted under it. -/
def Link.Unforged (host : Endian) (ossl : Openssl) (s : Link) : LinkAct → Prop
  | .encrypt r => Fits r
  | .arrive x => (recordDecrypt host ossl s.receiver x.1 x.2).1.isSome = true →
    ∃ e ∈ s.log, e.nonce = s.receiver.decryptNonce ∧
      recordAad host e.record.1 = recordAad host x.1 ∧ e.out = some x.2

instance (host : Endian) (ossl : Openssl) (s : Link) : DecidablePred (s.Unforged host ossl)
  | .encrypt r => inferInstanceAs (Decidable (r.2.length < 2 ^ 31))
  | .arrive x =>
    inferInstanceAs (Decidable ((recordDecrypt host ossl s.receiver x.1 x.2).1.isSome = true →
      ∃ e ∈ s.log, e.nonce = s.receiver.decryptNonce ∧
        recordAad host e.record.1 = recordAad host x.1 ∧ e.out = some x.2))

/-- Before the first record. -/
def Link.start (a b : Session) : Link := ⟨a, b, [], []⟩

/-- The header can be read off the bytes that a record is bound to. -/
lemma recordAad_inj {host : Endian} {g h : PktHdr} (e : recordAad host g = recordAad host h) :
    g = h := by
  have hl : (List.replicate headerSize (0 : UInt8)).length = 32 := List.length_replicate
  rw [recordAad, recordAad, hdrPack_of_length hl, hdrPack_of_length hl] at e
  have hg := hdrUnpack_hdrBytes host host g []
  have hh := hdrUnpack_hdrBytes host host h []
  rw [onWire_onWire] at hg hh
  rw [← hg, e, hh]

/-- Counters below `2 ^ 64` are determined by their values. -/
lemma counter_inj {c : UInt64} {i j : ℕ} (hi : i < 2 ^ 64) (hj : j < 2 ^ 64)
    (e : c + UInt64.ofNat i = c + UInt64.ofNat j) : i = j := by
  have h := congrArg UInt64.toNat (add_left_cancel e)
  rwa [UInt64.toNat_ofNat_of_lt' hi, UInt64.toNat_ofNat_of_lt' hj] at h

/-- What the steps of two sessions that began as `a` and `b` keep: `n` is the number of steps, and
the receiver has looked at `d` records. -/
structure Link.Inv (host : Endian) (ossl : Openssl) (a b : Session) (n d : ℕ) (s : Link) :
    Prop where
  sender : s.sender = { a with encryptSeq := a.encryptSeq + UInt64.ofNat s.log.length }
  receiver : s.receiver = { b with decryptSeq := b.decryptSeq + UInt64.ofNat d }
  log : ∀ k e, s.log[k]? = some e → Fits e.record ∧
    e.nonce = deriveNonce a.encryptCtx.nonceSalt (a.encryptSeq + UInt64.ofNat k) ∧
    e.out = aeadEncrypt ossl a.encryptCtx e.nonce e.record.2 (recordAad host e.record.1)
  length : s.log.length ≤ n
  le : d ≤ n
  accepted : s.accepted.Sublist ((s.log.take d).map Encrypted.record)

section Steps
variable {host : Endian} {ossl : Openssl} {a b : Session} {n d : ℕ} {s : Link}

/-- At first nothing was sent. -/
lemma Link.inv_start (a b : Session) : (Link.start a b).Inv host ossl a b 0 0 := by
  refine ⟨?_, ?_, ?_, le_rfl, le_rfl, List.Sublist.slnil⟩
  · exact congrArg (fun c => { a with encryptSeq := c }) (UInt64.add_zero a.encryptSeq).symm
  · exact congrArg (fun c => { b with decryptSeq := c }) (UInt64.add_zero b.decryptSeq).symm
  · intro k e h
    cases h

/-- A record is encrypted. -/
lemma Link.Inv.encrypt (inv : s.Inv host ossl a b n d) (ha : a.handshakeDone = true) {r : Record}
    (hr : Fits r) :
    ∃ s', s.step host ossl (.encrypt r) = some s' ∧ s'.Inv host ossl a b (n + 1) d := by
  have hdone : s.sender.handshakeDone = true := by rw [inv.sender]; exact ha
  obtain ⟨-, hsender⟩ := recordEncrypt_eq host ossl hdone s.receiver.decryptCtx r
  have hout : (recordEncrypt host ossl s.sender r.1 r.2).1 =
      aeadEncrypt ossl a.encryptCtx s.sender.encryptNonce r.2 (recordAad host r.1) := by
    rw [recordEncrypt, if_neg (by simp [hdone]), inv.sender]
  have hnonce : s.sender.encryptNonce =
      deriveNonce a.encryptCtx.nonceSalt (a.encryptSeq + UInt64.ofNat s.log.length) := by
    rw [inv.sender, Session.encryptNonce]
  refine ⟨_, rfl, ?_, inv.receiver, fun k e hk => ?_, ?_, inv.le.trans (Nat.le_succ n), ?_⟩
  · refine hsender.trans ?_
    simp only [inv.sender, List.length_append, List.length_singleton,
      UInt64.ofNat_add, ← UInt64.add_assoc]
    rfl
  · obtain hlt | hge := lt_or_ge k s.log.length
    · rw [List.getElem?_append_left hlt] at hk
      exact inv.log k e hk
    · rw [List.getElem?_append_right hge, List.getElem?_singleton] at hk
      split at hk
      · next h0 =>
        obtain rfl : k = s.log.length := by omega
        cases hk
        exact ⟨hr, hnonce, hout⟩
      · cases hk
  · rw [List.length_append, List.length_singleton]
    exact Nat.succ_le_succ inv.length
  · refine inv.accepted.trans (List.Sublist.map _ ?_)
    rw [List.take_append]
    exact List.sublist_append_left _ _

/-- Something arrives. -/
lemma Link.Inv.arrive (inv : s.Inv host ossl a b n d) (feeds : Feeds a b) (law : ossl.AeadInverts)
    {cipher : EvpCipher} (hc : a.encryptCtx.algo.cipher = some cipher) (hn : n < 2 ^ 64)
    {x : Record} (hx : s.Unforged host ossl (.arrive x)) :
    ∃ s' d', s.step host ossl (.arrive x) = some s' ∧ s'.Inv host ossl a b (n + 1) d' := by
  have hdone : s.receiver.handshakeDone = true := by rw [inv.receiver]; exact feeds.decDone
  obtain ⟨hpayload, hreceiver⟩ := recordDecrypt_eq host ossl hdone a.encryptCtx x
  have hctx : s.receiver.decryptCtx = b.decryptCtx := by rw [inv.receiver]
  have hseq : s.receiver.decryptSeq = a.encryptSeq + UInt64.ofNat d := by
    rw [inv.receiver, feeds.seq]
  have hsalt : b.decryptCtx.nonceSalt.slice 0 4 (by decide) = a.encryptCtx.nonceSalt.slice 0 4
    (by decide) := by
    rw [feeds.salt]
  rw [hctx, hseq] at hpayload hreceiver
  by_cases adm : (recordChannel host ossl a.encryptCtx b.decryptCtx).admits x = true
  · -- The record is looked at, so the receiver goes on to the next place.
    rw [Channel.recv_of_admits adm] at hpayload hreceiver
    refine ⟨_, d + 1, rfl, inv.sender, ?_, inv.log, inv.length.trans (Nat.le_succ n),
      Nat.succ_le_succ inv.le, ?_⟩
    · refine hreceiver.trans ?_
      simp only [inv.receiver, feeds.seq, UInt64.ofNat_add, ← UInt64.add_assoc]
      rfl
    · dsimp only
      rw [hpayload]
      cases hrec : (recordChannel host ossl a.encryptCtx b.decryptCtx).recover
        (a.encryptSeq + UInt64.ofNat d) x with
      | none =>
        rw [Option.toList_none, List.append_nil]
        exact inv.accepted.trans ((List.take_sublist_take_left (Nat.le_succ d)).map _)
      | some r =>
        rw [hrec] at hpayload
        have hsome : (recordDecrypt host ossl s.receiver x.1 x.2).1.isSome = true := by
          rw [← Option.isSome_map, hpayload, Option.isSome_some]
        obtain ⟨e, he, hnonce, haad, hout⟩ := hx hsome
        obtain ⟨k, hk⟩ := List.mem_iff_getElem?.mp he
        obtain ⟨hfits, hnonce', hout'⟩ := inv.log k e hk
        -- The nonce tells the place in the log.
        have hcounter : a.encryptSeq + UInt64.ofNat k = a.encryptSeq + UInt64.ofNat d := by
          rw [Session.decryptNonce, hctx, hseq, hnonce'] at hnonce
          exact (deriveNonce_inj hnonce).2
        have hk' : k < s.log.length := (List.getElem?_eq_some_iff.mp hk).1
        obtain rfl := counter_inj ((hk'.trans_le inv.length).trans hn) (inv.le.trans_lt hn) hcounter
        obtain rfl : e.record = r := by
          have hrecovered : (recordChannel host ossl a.encryptCtx b.decryptCtx).Recovered
            (a.encryptSeq + UInt64.ofNat k)
              e.record := (recovered_iff_fits law hc feeds.algo feeds.key hsalt e.record _).mp hfits
          obtain ⟨x', hx', -, hu⟩ := hrecovered
          have hprotect : (recordChannel host ossl a.encryptCtx b.decryptCtx).protect
            (a.encryptSeq + UInt64.ofNat k)
              e.record = some (e.record.1, x.2) := by
            simp only [recordChannel]
            rw [← hnonce', ← hout', hout, Option.map_some]
          have hxx : x' = x := by
            rw [← Option.some.inj (hprotect.symm.trans hx'), recordAad_inj haad]
          rw [hxx, hrec] at hu
          exact (Option.some.inj hu).symm
        rw [List.take_add_one, hk, List.map_append]
        exact inv.accepted.append (List.Sublist.refl _)
  · refine ⟨_, d, rfl, inv.sender, ?_, inv.log, inv.length.trans (Nat.le_succ n),
      inv.le.trans (Nat.le_succ n), ?_⟩
    · rw [Channel.recv, if_neg adm] at hreceiver
      exact hreceiver.trans (by rw [inv.receiver, feeds.seq])
    · rw [Channel.recv, if_neg adm] at hpayload
      dsimp only
      rw [hpayload, Option.toList_none, List.append_nil]
      exact inv.accepted

end Steps

/-- Whatever arrives in whatever order, the records that are accepted are a part of those that were
encrypted, in the order of their encryption and none of them twice, if nothing is accepted under a
nonce that was not encrypted under it. -/
theorem record_no_replay {host : Endian} {ossl : Openssl} {a b : Session} {cipher : EvpCipher}
    (feeds : Feeds a b) (law : ossl.AeadInverts) (hc : a.encryptCtx.algo.cipher = some cipher)
    (acts : List LinkAct) (hlen : acts.length < 2 ^ 64)
    (h : Along (Link.step host ossl) (Link.Unforged host ossl) (.start a b) acts) :
    ∃ s, acts.foldlM (Link.step host ossl) (.start a b) = some s ∧
      s.accepted.Sublist (s.log.map Encrypted.record) := by
  suffices hrun : ∀ n d s, n + acts.length < 2 ^ 64 → s.Inv host ossl a b n d →
      Along (Link.step host ossl) (Link.Unforged host ossl) s acts →
      ∃ s', acts.foldlM (Link.step host ossl) s = some s' ∧
        s'.accepted.Sublist (s'.log.map Encrypted.record) from
    hrun 0 0 (.start a b) (by omega) (Link.inv_start a b) h
  clear h hlen
  induction acts with
  | nil =>
    intro n d s _ inv _
    exact ⟨s, rfl, inv.accepted.trans ((List.take_sublist d s.log).map _)⟩
  | cons act acts ih =>
    intro n d s hn inv h
    obtain ⟨hact, hrest⟩ := h
    rw [List.length_cons] at hn
    obtain ⟨s₁, d₁, e₁, inv₁⟩ : ∃ s₁ d₁, s.step host ossl act = some s₁ ∧
      s₁.Inv host ossl a b (n + 1) d₁ := by
      cases act with
      | encrypt r =>
        obtain ⟨s₁, e₁, inv₁⟩ := inv.encrypt feeds.encDone hact
        exact ⟨s₁, d, e₁, inv₁⟩
      | arrive x => exact inv.arrive feeds law hc (by omega) hact
    obtain ⟨s', hrun, hsub⟩ := ih (n + 1) d₁ s₁ (by omega) inv₁ (hrest s₁ e₁)
    exact ⟨s', by rw [foldlM_cons_of_some e₁, hrun], hsub⟩

/-- A record arrives three times. -/
theorem record_no_replay_sample :
    ∃ s, [LinkAct.encrypt (sampleHdr, samplePayload),
      .arrive (sampleHdr, sampleCiphertext ++ sampleTag.toList),
      .arrive (sampleHdr, sampleCiphertext ++ sampleTag.toList), .arrive sampleForged].foldlM
        (Link.step .little vectors) (.start sampleSession sampleReceiver) = some s ∧
      s.accepted.Sublist (s.log.map Encrypted.record) :=
  record_no_replay sampleReceiver_feeds vectors_aeadInverts
    (by decide +kernel : _ = some EvpCipher.aes256Gcm) _ (by decide) (by decide +kernel)

end RoboControl.Crypto
