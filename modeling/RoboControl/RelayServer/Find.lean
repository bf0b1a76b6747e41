import RoboControl.RelayServer.Table

/-!
# Finding sessions

A search looks in the bucket of the address it is given, and sessions are in the bucket of their
first peer. So the first peer of a session is always found, and the second only where the bucket of
its address happens to hold a session that it belongs to (`session_peers_found`).
-/

namespace RoboControl.RelayServer
open Base Proto

/-! ## Addresses -/

/-- What `addr_equal` compares of an address. -/
def SockAddr.key (sa : SockAddr) : UInt16 × UInt16 × (UInt32 ⊕ (Fin 4 → UInt32)) :=
  (sa.family, sa.port, if sa.family = afInet then .inl sa.addr else .inr sa.addr6)

/-- When addresses are equal. -/
lemma addrEqual_iff {a b : SockAddr} : addrEqual a b = true ↔ a.key = b.key := by
  rw [addrEqual, SockAddr.key, SockAddr.key]
  by_cases hf : a.family = b.family
  · by_cases h4 : b.family = afInet
    · simp [hf, h4, and_comm]
    · simp [hf, h4, and_comm, funext_iff]
  · simp [hf]

/-- Addresses that are the same have the same bucket. -/
lemma bucket_eq {a b : SockAddr} (h : addrEqual a b = true) : bucket a = bucket b := by
  rw [addrEqual_iff, SockAddr.key, SockAddr.key, Prod.mk.injEq, Prod.mk.injEq] at h
  obtain ⟨hf, hp, ha⟩ := h
  rw [bucket, bucket, addrHash, addrHash, hf, hp]
  by_cases h4 : b.family = afInet
  · rw [hf, if_pos h4, if_pos h4, Sum.inl.injEq] at ha
    simp only [if_pos h4, ha]
  · rw [hf, if_neg h4, if_neg h4, Sum.inr.injEq] at ha
    simp only [if_neg h4, ha]

/-- Equal addresses are the same peer. -/
lemma hasPeer_eq {a b : SockAddr} (h : addrEqual a b = true) (sess : Session) :
    sess.hasPeer a = sess.hasPeer b := by
  have e : ∀ c, addrEqual a c = addrEqual b c := fun c => by
    rw [Bool.eq_iff_iff, addrEqual_iff, addrEqual_iff, addrEqual_iff.mp h]
  rw [Session.hasPeer, Session.hasPeer, e, e]

/-! ## Searching -/

/-- A search finds an active session that has the address as a peer. -/
def Found (srv : Server) (addr : SockAddr) : Prop :=
  ∃ s, sessionFind srv addr = some (some s) ∧ (srv.sessions s).active = true ∧
    (srv.sessions s).hasPeer addr = true

/-- Every packet with a good header from an address goes to the other peer of a session. -/
def Forwards (host : Endian) (srv : Server) (src : SockAddr) : Prop :=
  ∀ buf now, admits host buf = true → ∃ s srv', (srv.sessions s).active = true ∧
    (srv.sessions s).hasPeer src = true ∧
    relayPacket host srv src buf now = some (some ⟨(srv.sessions s).dst src, buf⟩, srv')

/-- A peer is found, and what it sends is forwarded. -/
def Served (host : Endian) (srv : Server) (addr : SockAddr) : Prop :=
  ∀ src, addrEqual src addr = true → Found srv src ∧ Forwards host srv src

/-- The search along a chain. -/
lemma findChain_eq {srv : Server} {addr : SockAddr} {fuel : Nat} {h : Option Ptr} {l : List Ptr}
    (c : Chain srv.next h l) (hf : l.length ≤ fuel) :
    findChain srv addr fuel h =
      some (l.find? fun s => (srv.sessions s).active && (srv.sessions s).hasPeer addr) := by
  induction c generalizing fuel with
  | nil => cases fuel <;> rfl
  | @cons p q l hp _ ih =>
    cases hp
    cases fuel with
    | zero => cases hf
    | succ fuel =>
      rw [findChain, List.find?_cons]
      split
      · next hs => rw [hs]
      · next hs =>
        rw [Bool.eq_false_of_not_eq_true hs]
        exact ih (Nat.le_of_succ_le_succ hf)

/-- When a session is found. -/
lemma HashOk.found_iff {srv : Server} {chains : Nat → List Ptr} (inv : HashOk srv chains)
    (addr : SockAddr) :
    Found srv addr ↔ ∃ s, (srv.sessions s).active = true ∧ (srv.sessions s).hasPeer addr = true ∧
      bucket (srv.sessions s).peerA.addr = bucket addr := by
  have hfind : sessionFind srv addr = _ := findChain_eq (inv.chain _) (inv.length_le _)
  constructor
  · rintro ⟨s, hs, ha, hp⟩
    rw [hfind, Option.some.injEq] at hs
    exact ⟨s, ha, hp, ((inv.mem_iff _ s).mp (List.mem_of_find?_eq_some hs)).2⟩
  · rintro ⟨s, ha, hp, hb⟩
    have hmem : s ∈ chains (bucket addr) := (inv.mem_iff _ s).mpr ⟨ha, hb⟩
    cases hl : (chains (bucket addr)).find?
        fun s => (srv.sessions s).active && (srv.sessions s).hasPeer addr with
    | none =>
      have hnone := List.find?_eq_none.mp hl s hmem
      rw [ha, hp] at hnone
      exact absurd rfl hnone
    | some t =>
      have ht := List.find?_some hl
      rw [Bool.and_eq_true] at ht
      exact ⟨t, by rw [hfind, hl], ht.1, ht.2⟩

/-- What a search finds, the data plane uses. -/
lemma Found.forwards {srv : Server} {src : SockAddr} (found : Found srv src) (host : Endian) :
    Forwards host srv src := by
  obtain ⟨s, hs, ha, hp⟩ := found
  intro buf now hadmits
  refine ⟨s, lruTouch (srv.count s src buf.length now) s, ha, hp, ?_⟩
  rw [relayPacket, if_neg (by rw [hadmits]; exact Bool.noConfusion), hs]

/-- When a peer is served. -/
lemma HashOk.served_iff {srv : Server} {chains : Nat → List Ptr} (inv : HashOk srv chains)
    (host : Endian) (addr : SockAddr) :
    Served host srv addr ↔ ∃ s, (srv.sessions s).active = true ∧
      (srv.sessions s).hasPeer addr = true ∧ bucket (srv.sessions s).peerA.addr = bucket addr := by
  rw [← inv.found_iff]
  constructor
  · intro served
    exact (served addr (addrEqual_iff.mpr rfl)).1
  · intro found src hsrc
    have found' : Found srv src := by
      rw [inv.found_iff] at found ⊢
      obtain ⟨s, ha, hp, hb⟩ := found
      exact ⟨s, ha, (hasPeer_eq hsrc _).trans hp, hb.trans (bucket_eq hsrc).symm⟩
    exact ⟨found', found'.forwards host⟩

/-- The first peer of an active session is served. The second peer is served exactly if some active
session that it belongs to has a first peer in the bucket of its address. -/
theorem session_peers_found {host : Endian} {ops : List ServerOp} {srv : Server}
    (hrun : serverRun host ops = some srv) {s : Ptr} (hs : (srv.sessions s).active = true) :
    Served host srv (srv.sessions s).peerA.addr ∧
      (Served host srv (srv.sessions s).peerB.addr ↔ ∃ t, (srv.sessions t).active = true ∧
        (srv.sessions t).hasPeer (srv.sessions s).peerB.addr = true ∧
        bucket (srv.sessions t).peerA.addr = bucket (srv.sessions s).peerB.addr) := by
  obtain ⟨chains, inv⟩ := serverRun_hashOk hrun
  refine ⟨(inv.served_iff host _).mpr ⟨s, hs, ?_, rfl⟩, inv.served_iff host _⟩
  rw [Session.hasPeer, addrEqual_iff.mpr rfl, Bool.true_or]

/-- A robot at port 5000 of 10.0.0.1, as it lies in the memory of a little-endian host. -/
def sampleRobot : PeerAddr := ⟨⟨afInet, 0x8813, 0x0100000A, fun _ => 0⟩, 16⟩

/-- A client at port 6000 of 10.0.0.2. -/
def sampleClient : PeerAddr := ⟨⟨afInet, 0x7017, 0x0200000A, fun _ => 0⟩, 16⟩

/-- A server with one session. -/
def sampleServer : Server := (sessionCreate serverInit sampleRobot sampleClient 0 0).2

/-- The first peer of a session is found. -/
theorem session_peers_found_sample :
    serverRun .little [.create sampleRobot sampleClient 0 0] = some sampleServer ∧
      (sampleServer.sessions 0).active = true ∧
      Served .little sampleServer (sampleServer.sessions 0).peerA.addr ∧
      (Served .little sampleServer (sampleServer.sessions 0).peerB.addr ↔
        ∃ t, (sampleServer.sessions t).active = true ∧
          (sampleServer.sessions t).hasPeer (sampleServer.sessions 0).peerB.addr = true ∧
          bucket (sampleServer.sessions t).peerA.addr =
            bucket (sampleServer.sessions 0).peerB.addr) := by
  have hrun : serverRun .little [.create sampleRobot sampleClient 0 0] = some sampleServer := rfl
  have hs : (sampleServer.sessions 0).active = true := by decide +kernel
  exact ⟨hrun, hs, session_peers_found hrun hs⟩

/-- The robot of the session is found, the client is not, and a packet of the client with a good
header is not forwarded. -/
theorem second_peer_not_found :
    serverRun .little [.create sampleRobot sampleClient 0 0] = some sampleServer ∧
      (sampleServer.sessions 0).active = true ∧
      sessionFind sampleServer sampleRobot.addr = some (some 0) ∧
      sessionFind sampleServer sampleClient.addr = some none ∧
      admits .little (store .big 4 relayMagic.toNat ++ List.replicate 28 0) = true ∧
      (relayPacket .little sampleServer sampleClient.addr
        (store .big 4 relayMagic.toNat ++ List.replicate 28 0) 1).map (·.1.isSome) = some false :=
  ⟨rfl, by decide +kernel, by decide +kernel, by decide +kernel, by decide +kernel,
    by decide +kernel⟩

end RoboControl.RelayServer
