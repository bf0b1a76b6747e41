import RoboControl.Base.Chain
import RoboControl.Base.Run
import RoboControl.RelayServer.Sessions

/-!
# Hash table of the relay server

The hash table of the relay server holds exactly the active sessions, each in the bucket of its
first peer (`HashOk`). Every operation keeps this, whatever the state of the LRU list: the functions
on the LRU list change nothing else (`offLru_lruTouch`, `offLru_lruRemove`), and what
`session_destroy` does to the chains is found by walking them (`unlinkBuckets_spec`).
-/

namespace RoboControl.RelayServer
open Base Proto Function

/-- A change of one session leaves what it keeps of that session. -/
lemma modify_frame {β : Type} (g : Session → β) {f : Session → Session}
    (h : ∀ sess, g (f sess) = g sess) (srv : Server) (s p : Ptr) :
    g ((srv.modify s f).sessions p) = g (srv.sessions p) := by
  show g (update srv.sessions s (f (srv.sessions s)) p) = g (srv.sessions p)
  by_cases hp : p = s
  · subst hp
    rw [update_self, h]
  · rw [update_of_ne hp]

/-! ## LRU list -/

/-- A session without its place in the LRU list. -/
def Session.offLru (sess : Session) : Session := { sess with lruPrev := none, lruNext := none }

/-- The server without its LRU list. -/
def Server.offLru (srv : Server) : Server :=
  { srv with sessions := fun s => (srv.sessions s).offLru, lruHead := none, lruTail := none }

@[simp] lemma offLru_setLruPrev (srv : Server) (s : Ptr) (q : Option Ptr) :
    (srv.setLruPrev s q).offLru = srv.offLru := by
  refine congrArg (Server.mk · _ _ _ _ _ _ _ _) (funext fun p => ?_)
  refine modify_frame Session.offLru (fun sess => ?_) srv s p
  rfl

@[simp] lemma offLru_setLruNext (srv : Server) (s : Ptr) (q : Option Ptr) :
    (srv.setLruNext s q).offLru = srv.offLru := by
  refine congrArg (Server.mk · _ _ _ _ _ _ _ _) (funext fun p => ?_)
  refine modify_frame Session.offLru (fun sess => ?_) srv s p
  rfl

/-- The ends of the list. -/
lemma offLru_ends (srv : Server) (h t : Option Ptr) :
    { srv with lruHead := h, lruTail := t }.offLru = srv.offLru := rfl

lemma offLru_lruBypass (srv : Server) (s : Ptr) : (lruBypass srv s).offLru = srv.offLru := by
  rw [lruBypass]
  split <;> split <;> simp [offLru_ends]

lemma offLru_lruPush (srv : Server) (s : Ptr) : (lruPush srv s).offLru = srv.offLru := by
  rw [lruPush]
  dsimp only
  split <;> split <;> simp [offLru_ends]

/-- `lru_touch` only changes the list. -/
lemma offLru_lruTouch (srv : Server) (s : Ptr) : (lruTouch srv s).offLru = srv.offLru := by
  rw [lruTouch]
  split
  · rw [offLru_lruPush, offLru_lruBypass]
  · exact offLru_lruPush srv s

lemma offLru_lruSkipFromHead (srv : Server) (s : Ptr) :
    (lruSkipFromHead srv s).offLru = srv.offLru := by
  rw [lruSkipFromHead]
  split
  · simp
  · split <;> rfl

lemma offLru_lruSkipFromTail (srv : Server) (s : Ptr) :
    (lruSkipFromTail srv s).offLru = srv.offLru := by
  rw [lruSkipFromTail]
  split
  · simp
  · split <;> rfl

/-- `lru_remove` only changes the list. -/
lemma offLru_lruRemove (srv : Server) (s : Ptr) : (lruRemove srv s).offLru = srv.offLru := by
  rw [lruRemove, offLru_setLruPrev, offLru_setLruNext, offLru_lruSkipFromTail,
    offLru_lruSkipFromHead]

/-! ## Hash table -/

/-- A bucket of the table. -/
lemma bucket_lt (sa : SockAddr) : bucket sa < hashBuckets.toNat := by
  rw [bucket, addrHash, UInt32.toNat_and]
  exact lt_of_le_of_lt Nat.and_le_right (by decide)

/-- The link of a session in its chain. -/
def Server.next (srv : Server) (s : Ptr) : Option (Option Ptr) := some (srv.sessions s).hashNext

/-- The chains of the hash table have exactly the active sessions, each by its first peer. -/
structure HashOk (srv : Server) (chains : Nat → List Ptr) : Prop
    extends Chains srv.next srv.hashTable chains where
  mem_iff : ∀ b s, s ∈ chains b ↔
    (srv.sessions s).active = true ∧ bucket (srv.sessions s).peerA.addr = b
  bound : ∀ s, (srv.sessions s).active = true → s < maxSessions

section HashTable
variable {srv srv' : Server} {chains : Nat → List Ptr} {s : Ptr}

/-- The chains, the flags and the peers decide. -/
lemma HashOk.congr (inv : HashOk srv chains) (ht : srv'.hashTable = srv.hashTable)
    (hn : ∀ p, (srv'.sessions p).hashNext = (srv.sessions p).hashNext)
    (ha : ∀ p, (srv'.sessions p).active = (srv.sessions p).active)
    (hp : ∀ p, (srv'.sessions p).peerA = (srv.sessions p).peerA) : HashOk srv' chains := by
  refine ⟨?_, fun b p => ?_, fun p h => ?_⟩
  · rw [ht]
    exact inv.toChains.congr fun _ p _ => congrArg some (hn p)
  · rw [ha, hp]
    exact inv.mem_iff b p
  · rw [ha] at h
    exact inv.bound p h

/-- The LRU list has no say. -/
lemma HashOk.of_offLru (inv : HashOk srv chains) (h : srv'.offLru = srv.offLru) :
    HashOk srv' chains := by
  have hs : ∀ p, (srv'.sessions p).offLru = (srv.sessions p).offLru :=
    fun p => congrFun (congrArg Server.sessions h) p
  exact inv.congr (congrArg Server.hashTable h :) (fun p => (congrArg Session.hashNext (hs p) :))
    (fun p => (congrArg Session.active (hs p) :)) (fun p => (congrArg Session.peerA (hs p) :))

/-- No chain is longer than the pool. -/
lemma HashOk.length_le (inv : HashOk srv chains) (b : Nat) : (chains b).length ≤ maxSessions :=
  (inv.chain b).length_le fun p hp => inv.bound p ((inv.mem_iff b p).mp hp).1

/-- At first all chains are empty. -/
lemma serverInit_hashOk : HashOk serverInit fun _ => [] :=
  ⟨⟨fun _ => .nil, fun _ _ _ => List.disjoint_nil_left _⟩,
    fun _ _ => ⟨(nomatch ·), (nomatch ·.1)⟩, fun _ h => nomatch h⟩

/-! ## Creation -/

/-- The session that is found has the property. -/
lemma firstSession_eq_some {prop : Session → Bool} {n i s : Nat}
    (h : firstSession srv prop n i = some s) : prop (srv.sessions s) = true ∧ s < i + n := by
  induction n generalizing i with
  | zero => cases h
  | succ n ih =>
    rw [firstSession] at h
    split at h
    · next hp =>
      cases h
      exact ⟨hp, by omega⟩
    · obtain ⟨hp, hs⟩ := ih h
      exact ⟨hp, by omega⟩

/-- A new session leads to the old head of its chain. -/
lemma sessionInsertHash_sessions (srv : Server) (s : Ptr) (sess : Session) :
    (sessionInsertHash (srv.modify s fun _ => sess) s).sessions =
      update srv.sessions s
        { sess with hashNext := srv.hashTable (bucket sess.peerA.addr) } := by
  simp [sessionInsertHash, Server.setHashNext, Server.modify]

/-- A session that was not active is the head of the chain of its first peer. -/
lemma HashOk.insert (inv : HashOk srv chains) (hs : (srv.sessions s).active = false)
    (hlt : s < maxSessions) {sess : Session} (ha : sess.active = true) :
    HashOk (sessionInsertHash (srv.modify s fun _ => sess) s)
      (push chains (bucket sess.peerA.addr) s) := by
  have hnot : ∀ b, s ∉ chains b := fun b h => by
    rw [inv.mem_iff, hs] at h
    cases h.1
  have c := inv.toChains.push hnot (bucket sess.peerA.addr)
  have hsess := sessionInsertHash_sessions srv s sess
  have htable : (sessionInsertHash (srv.modify s fun _ => sess) s).hashTable =
      update srv.hashTable (bucket sess.peerA.addr) (some s) := by
    simp [sessionInsertHash, Server.setHashNext, Server.modify]
  have hnext : (sessionInsertHash (srv.modify s fun _ => sess) s).next =
      update srv.next s (some (srv.hashTable (bucket sess.peerA.addr))) := by
    funext p
    by_cases hp : p = s
    · subst hp
      simp [Server.next, hsess]
    · simp [Server.next, hsess, hp]
  refine ⟨?_, fun b p => ?_, fun p h => ?_⟩
  · rw [hnext, htable]
    exact c
  · rw [mem_push, hsess]
    by_cases hp : p = s
    · subst hp
      simp [hnot, ha, eq_comm]
    · simp [hp, inv.mem_iff]
  · rw [hsess] at h
    by_cases hp : p = s
    · subst hp
      exact hlt
    · rw [update_of_ne hp] at h
      exact inv.bound p h

/-- A session is created. -/
lemma HashOk.create (inv : HashOk srv chains) (a b : PeerAddr) (now now' : UInt64) :
    ∃ chains', HashOk (sessionCreate srv a b now now').2 chains' := by
  rw [sessionCreate]
  split
  · exact ⟨chains, inv⟩
  · next s hs =>
    obtain ⟨hinactive, hlt⟩ := firstSession_eq_some hs
    rw [Nat.zero_add] at hlt
    rw [Bool.not_eq_true'] at hinactive
    have hins : HashOk (sessionInsertHash (srv.modify s fun _ => newSession srv a b now now') s)
      _ :=
      inv.insert hinactive hlt rfl
    have hnew : HashOk (sessionInsertHash { srv.modify s fun _ => newSession srv a b now now' with
        nextSessionId := srv.nextSessionId + 1 } s) _ :=
      hins.congr rfl (fun _ => rfl) (fun _ => rfl) fun _ => rfl
    have htouch := hnew.of_offLru (offLru_lruTouch _ s)
    exact ⟨_, htouch.congr rfl (fun _ => rfl) (fun _ => rfl) fun _ => rfl⟩

/-! ## Destruction -/

/-- A session without its link in a hash chain. -/
def Session.offHash (sess : Session) : Session := { sess with hashNext := none }

/-- The server without its hash table. -/
def Server.offHash (srv : Server) : Server :=
  { srv with sessions := fun s => (srv.sessions s).offHash, hashTable := fun _ => none }

@[simp] lemma offHash_setHashNext (srv : Server) (s : Ptr) (q : Option Ptr) :
    (srv.setHashNext s q).offHash = srv.offHash := by
  refine congrArg (Server.mk · _ _ _ _ _ _ _ _) (funext fun p => ?_)
  refine modify_frame Session.offHash (fun sess => ?_) srv s p
  rfl

@[simp] lemma offHash_write (srv : Server) (q : Option Ptr) (pp : Slot) :
    (srv.write q pp).offHash = srv.offHash := by
  cases pp with
  | bucket i => rfl
  | link s => exact offHash_setHashNext srv s q

/-- The links after a change of one. -/
@[simp] lemma next_setHashNext (srv : Server) (s : Ptr) (q : Option Ptr) :
    (srv.setHashNext s q).next = update srv.next s (some q) := by
  funext p
  by_cases hp : p = s
  · subst hp
    simp [Server.next, Server.setHashNext, Server.modify]
  · simp [Server.next, Server.setHashNext, Server.modify, hp]

/-- Where the link to the rest of a chain is stored, behind its first sessions. -/
def slotBehind (i : Nat) (pre : List Ptr) : Slot := pre.getLast?.elim (.bucket i) .link

/-- What a slot behind some sessions has. -/
lemma read_slotBehind (c : Chains srv.next srv.hashTable chains) {i : Nat} {pre rest : List Ptr}
    (hl : chains i = pre ++ rest) : srv.read (slotBehind i pre) = rest.head? := by
  have ci := c.chain i
  rw [hl] at ci
  obtain rfl | ⟨pre, o, rfl⟩ := pre.eq_nil_or_concat
  · exact ci.head_eq
  · rw [List.concat_eq_append, List.append_assoc] at ci
    rw [List.concat_eq_append, slotBehind, List.getLast?_concat]
    exact Option.some.inj ci.next_eq

/-- A session is taken out of the chain it is in. -/
lemma unlink_slotBehind (c : Chains srv.next srv.hashTable chains) {i : Nat} {pre rest : List Ptr}
    (hl : chains i = pre ++ s :: rest) :
    Chains (srv.write (srv.sessions s).hashNext (slotBehind i pre)).next
      (srv.write (srv.sessions s).hashNext (slotBehind i pre)).hashTable (unlink chains i s) := by
  obtain rfl | ⟨pre, o, rfl⟩ := pre.eq_nil_or_concat
  · have hi : srv.hashTable i = some s := by
      rw [(c.chain i).head_eq, hl]
      rfl
    exact c.unlink_head hi rfl
  · rw [List.concat_eq_append, List.append_assoc] at hl
    rw [List.concat_eq_append, slotBehind, List.getLast?_concat]
    dsimp only [Option.elim_some, Server.write]
    rw [next_setHashNext]
    exact c.unlink hl

/-- A session is taken out of a chain. -/
lemma unlinkChain_spec (c : Chains srv.next srv.hashTable chains) {i : Nat} {pre rest : List Ptr}
    {fuel : Nat} (hl : chains i = pre ++ rest) (hpre : s ∉ pre) (hf : rest.length ≤ fuel) :
    ∃ srv', unlinkChain s fuel srv (slotBehind i pre) = some srv' ∧
      Chains srv'.next srv'.hashTable (unlink chains i s) ∧ srv'.offHash = srv.offHash := by
  have hread := read_slotBehind c hl
  induction rest generalizing pre fuel with
  | nil =>
    rw [List.append_nil] at hl
    refine ⟨srv, ?_, ?_, rfl⟩
    · rw [unlinkChain.eq_def]
      simp only [hread, List.head?_nil]
    · rw [unlink, List.erase_of_not_mem (hl ▸ hpre), update_eq_self]
      exact c
  | cons p rest ih =>
    rw [unlinkChain.eq_def]
    simp only [hread, List.head?_cons]
    split
    · next hp =>
      subst hp
      refine ⟨_, rfl, ?_, ?_⟩
      · rw [next_setHashNext]
        refine (unlink_slotBehind c hl).congr fun j q hq => update_of_ne ?_ _ _
        have hmem : p ∈ chains i := hl ▸ List.mem_append_right pre List.mem_cons_self
        exact ((c.mem_unlink_of_mem hmem).mp hq).2
      · rw [offHash_setHashNext, offHash_write]
    · next hp =>
      cases fuel with
      | zero => cases hf
      | succ fuel =>
        have hl' : chains i = (pre ++ [p]) ++ rest := by rw [hl, List.append_cons]
        have hslot : slotBehind i (pre ++ [p]) = .link p := by
          rw [slotBehind, List.getLast?_concat]
          rfl
        rw [← hslot]
        refine ih hl' ?_ (Nat.le_of_succ_le_succ hf) (read_slotBehind c hl')
        rw [List.mem_append, List.mem_singleton, not_or]
        exact ⟨hpre, fun e => hp e.symm⟩

/-- A session is taken out of some chains. -/
lemma unlinkBuckets_spec (c : Chains srv.next srv.hashTable chains)
    (hlen : ∀ b, (chains b).length ≤ maxSessions) (is : List Nat) :
    ∃ srv' chains', unlinkBuckets s is srv = some srv' ∧
      Chains srv'.next srv'.hashTable chains' ∧ srv'.offHash = srv.offHash ∧
      ∀ b p, p ∈ chains' b ↔ p ∈ chains b ∧ (p = s → b ∉ is) := by
  induction is generalizing srv chains with
  | nil => exact ⟨srv, chains, rfl, c, rfl, fun b p => by simp⟩
  | cons i is ih =>
    obtain ⟨srv₁, h₁, c₁, off₁⟩ :=
      unlinkChain_spec (s := s) c (List.nil_append (chains i)).symm List.not_mem_nil (hlen i)
    have hlen₁ : ∀ b, (unlink chains i s b).length ≤ maxSessions := fun b => by
      by_cases hb : b = i
      · subst hb
        rw [unlink, update_self]
        exact List.length_erase_le.trans (hlen b)
      · rw [unlink, update_of_ne hb]
        exact hlen b
    obtain ⟨srv', chains', h', c', off', mem'⟩ := ih c₁ hlen₁
    refine ⟨srv', chains', ?_, c', off'.trans off₁, fun b p => ?_⟩
    · rw [unlinkBuckets, show Slot.bucket i = slotBehind i [] from rfl, h₁]
      exact h'
    · rw [mem', c.mem_unlink, List.mem_cons, and_assoc]
      refine and_congr_right fun _ => ?_
      rw [← imp_and, not_or]

@[simp] lemma next_deactivate (srv : Server) (s : Ptr) : (srv.deactivate s).next = srv.next := by
  funext p
  refine congrArg some (modify_frame Session.hashNext (fun sess => ?_) srv s p)
  rfl

/-- The other sessions stay active. -/
@[simp] lemma active_deactivate (srv : Server) (s p : Ptr) :
    ((srv.deactivate s).sessions p).active = true ↔ (srv.sessions p).active = true ∧ p ≠ s := by
  by_cases hp : p = s
  · subst hp
    simp [Server.deactivate, Server.modify]
  · simp [Server.deactivate, Server.modify, hp]

@[simp] lemma peerA_deactivate (srv : Server) (s p : Ptr) :
    ((srv.deactivate s).sessions p).peerA = (srv.sessions p).peerA := by
  refine modify_frame Session.peerA (fun sess => ?_) srv s p
  rfl

/-- A session that is deactivated is taken out of the chains. -/
lemma HashOk.unlink (inv : HashOk srv chains) (s : Ptr) :
    ∃ srv₁ chains', unlinkBuckets s (List.range hashBuckets.toNat) (srv.deactivate s) = some srv₁ ∧
      srv₁.offHash = (srv.deactivate s).offHash ∧ HashOk srv₁ chains' := by
  have c : Chains (srv.deactivate s).next (srv.deactivate s).hashTable chains := by
    rw [next_deactivate]
    exact inv.toChains
  obtain ⟨srv₁, chains', h₁, c₁, off₁, mem₁⟩ :=
    unlinkBuckets_spec (s := s) c inv.length_le (List.range hashBuckets.toNat)
  have hsess : ∀ p, (srv₁.sessions p).offHash = ((srv.deactivate s).sessions p).offHash :=
    fun p => congrFun (congrArg Server.sessions off₁) p
  have hactive : ∀ p, (srv₁.sessions p).active = ((srv.deactivate s).sessions p).active :=
    fun p => (congrArg Session.active (hsess p) :)
  have hpeer : ∀ p, (srv₁.sessions p).peerA = ((srv.deactivate s).sessions p).peerA :=
    fun p => (congrArg Session.peerA (hsess p) :)
  refine ⟨srv₁, chains', h₁, off₁, c₁, fun b p => ?_, fun p hp => ?_⟩
  · rw [mem₁, inv.mem_iff, hactive, hpeer, active_deactivate, peerA_deactivate]
    constructor
    · rintro ⟨⟨ha, rfl⟩, hrange⟩
      exact ⟨⟨ha, fun e => hrange e (List.mem_range.mpr (bucket_lt _))⟩, rfl⟩
    · rintro ⟨⟨ha, hp⟩, hb⟩
      exact ⟨⟨ha, hb⟩, fun e => absurd e hp⟩
  · rw [hactive, active_deactivate] at hp
    exact inv.bound p hp.1

/-- A destroyed session has left the table. -/
lemma HashOk.destroy (inv : HashOk srv chains) (s : Ptr) :
    ∃ srv' chains', sessionDestroy srv s = some srv' ∧ HashOk srv' chains' := by
  rw [sessionDestroy]
  split
  · exact ⟨srv, chains, rfl, inv⟩
  · obtain ⟨srv₁, chains', h₁, -, inv₁⟩ := inv.unlink s
    rw [h₁]
    refine ⟨_, chains', rfl, ?_⟩
    exact (inv₁.of_offLru (offLru_lruRemove srv₁ s)).congr rfl (fun _ => rfl) (fun _ => rfl)
      fun _ => rfl

/-- What `session_destroy` does to the list and to the counter, behind what it does to the table. -/
lemma HashOk.sessionDestroy_eq (inv : HashOk srv chains) (hs : (srv.sessions s).active = true) :
    ∃ srv₁, srv₁.offHash = (srv.deactivate s).offHash ∧ sessionDestroy srv s =
      some { lruRemove srv₁ s with sessionCount := (lruRemove srv₁ s).sessionCount - 1 } := by
  obtain ⟨srv₁, _, h₁, off₁, -⟩ := inv.unlink s
  refine ⟨srv₁, off₁, ?_⟩
  rw [sessionDestroy, if_neg (by rw [hs]; decide), h₁]
  rfl

/-- Old sessions are destroyed. -/
lemma HashOk.cleanupFrom (inv : HashOk srv chains) {deadline : UInt64} {fuel : Nat} {s : Option Ptr}
    (h : cleanupFrom deadline fuel srv s = some srv') : ∃ chains', HashOk srv' chains' := by
  induction fuel generalizing srv chains s with
  | zero =>
    cases s with
    | none =>
      cases h
      exact ⟨chains, inv⟩
    | some s => cases h
  | succ fuel ih =>
    cases s with
    | none =>
      cases h
      exact ⟨chains, inv⟩
    | some s =>
      rw [RelayServer.cleanupFrom] at h
      obtain ⟨srv₁, h₁, h⟩ := Option.bind_eq_some_iff.mp h
      rw [cleanupStep] at h₁
      split at h₁
      · obtain ⟨srv₂, chains₂, h₂, inv₂⟩ := inv.destroy s
        cases h₂.symm.trans h₁
        exact ih inv₂ h
      · cases h₁
        exact ih inv h

/-- A control message. -/
lemma HashOk.control (inv : HashOk srv chains) {host : Endian} {msg reply : List UInt8}
    {now now' : UInt64} (h : handleControl host srv msg now now' = some (reply, srv')) :
    ∃ chains', HashOk srv' chains' := by
  cases msg with
  | nil =>
    cases h
    exact ⟨chains, inv⟩
  | cons cmd rest =>
    rw [handleControl] at h
    split at h
    · have created := inv.create .control .control now now'
      split at h
      · next srv₁ h₁ =>
        cases h
        rwa [h₁] at created
      · next s srv₁ h₁ =>
        cases h
        rwa [h₁] at created
    · split at h
      · split at h
        · cases h
          exact ⟨chains, inv⟩
        · dsimp only at h
          split at h
          · cases h
            exact ⟨chains, inv⟩
          · next s _ =>
            obtain ⟨srv₁, chains₁, h₁, inv₁⟩ := inv.destroy s
            rw [h₁] at h
            cases h
            exact ⟨chains₁, inv₁⟩
      · cases h
        exact ⟨chains, inv⟩

/-- Counting a packet leaves the links, the peers and `active` alone. -/
lemma HashOk.count (inv : HashOk srv chains) (s : Ptr) (src : SockAddr) (n : Nat) (now : UInt64) :
    HashOk (srv.count s src n now) chains := by
  have hcount : ∀ sess : Session, (sess.count src n now).hashNext = sess.hashNext ∧
      (sess.count src n now).active = sess.active ∧ (sess.count src n now).peerA = sess.peerA :=
    fun sess => by
      rw [Session.count]
      split <;> exact ⟨rfl, rfl, rfl⟩
  refine inv.congr rfl ?_ ?_ ?_
  · exact modify_frame Session.hashNext (fun sess => (hcount sess).1) srv s
  · exact modify_frame Session.active (fun sess => (hcount sess).2.1) srv s
  · exact modify_frame Session.peerA (fun sess => (hcount sess).2.2) srv s

/-- A packet of a peer. -/
lemma HashOk.packet (inv : HashOk srv chains) {host : Endian} {src : SockAddr} {buf : List UInt8}
    {now : UInt64} {sent : Option Datagram}
    (h : relayPacket host srv src buf now = some (sent, srv')) :
    HashOk srv' chains := by
  rw [relayPacket] at h
  split at h
  · cases h
    exact inv
  · split at h
    · cases h
    · cases h
      exact inv
    · next s _ =>
      cases h
      exact (inv.count s src buf.length now).of_offLru (offLru_lruTouch _ s)

/-- Every operation keeps the hash table. -/
lemma ServerOp.hashOk {host : Endian} {op : ServerOp} (inv : ∃ chains, HashOk srv chains)
    (h : op.apply host srv = some srv') : ∃ chains, HashOk srv' chains := by
  obtain ⟨chains, inv⟩ := inv
  cases op with
  | create a b now now' =>
    cases h
    exact inv.create a b now now'
  | destroy s =>
    obtain ⟨srv₁, chains₁, h₁, inv₁⟩ := inv.destroy s
    cases h₁.symm.trans h
    exact ⟨chains₁, inv₁⟩
  | cleanup now => exact inv.cleanupFrom h
  | control msg now now' =>
    obtain ⟨⟨reply, srv₁⟩, h₁, rfl⟩ := Option.map_eq_some_iff.mp h
    exact inv.control h₁
  | packet src buf now =>
    obtain ⟨⟨sent, srv₁⟩, h₁, rfl⟩ := Option.map_eq_some_iff.mp h
    exact ⟨chains, inv.packet h₁⟩

end HashTable

/-- A run keeps the chains. -/
lemma serverRun_hashOk {host : Endian} {ops : List ServerOp} {srv : Server}
    (h : serverRun host ops = some srv) : ∃ chains, HashOk srv chains :=
  run_invariant (P := fun srv => ∃ chains, HashOk srv chains) ServerOp.hashOk
    ⟨_, serverInit_hashOk⟩ h

end RoboControl.RelayServer
