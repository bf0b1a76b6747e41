import RoboControl.Connection.Pool

/-!
# Chains of the pool

The invariant of the connection pool while nothing else writes `user_data`: every bucket holds a
chain that ends, and no connection is in two of them (`Pool.Chains`). `rc_conn_create`,
`rc_conn_lookup` and `rc_conn_purge_timeouts` keep it (`Reachable.chains`), so they always return in
reachable pools, and `rc_conn_pool_destroy` visits every linked connection once
(`Pool.Chains.destroy`).
-/

namespace RoboControl.Connection
open Base Proto Crypto Function

/-! ## Links -/

/-- The link of a connection. -/
def Pool.next (pool : Pool) (p : Ptr) : Option (Option Ptr) := pool.read (.link p)

/-- A connection that the chain of some bucket reaches. -/
def Pool.Linked (pool : Pool) (p : Ptr) : Prop :=
  ∃ i < connPoolBuckets, ∃ l, Chain pool.next (pool.buckets i) l ∧ p ∈ l

/-- Every bucket holds a chain, and the chains are disjoint. -/
structure Pool.Chains (pool : Pool) (chains : Nat → List Ptr) : Prop where
  chain : ∀ i, Chain pool.next (pool.buckets i) (chains i)
  disjoint : ∀ i j, i ≠ j → List.Disjoint (chains i) (chains j)
  fresh : ∀ p, pool.fresh ≤ p → pool.conns p = none

/-- A link of a connection. -/
lemma Pool.next_eq_some {pool : Pool} {p : Ptr} {q : Option Ptr} (h : pool.next p = some q) :
    ∃ conn, pool.conns p = some conn ∧ conn.userData.link = some q := by
  rw [Pool.next, Pool.read] at h
  exact Option.bind_eq_some_iff.mp h

/-- The connection decides. -/
lemma Pool.next_of_conns_eq {pool pool' : Pool} {p : Ptr} (h : pool'.conns p = pool.conns p) :
    pool'.next p = pool.next p := by
  rw [Pool.next, Pool.read, h]
  rfl

/-- The connection that changes. -/
lemma Pool.conns_setConn_self (pool : Pool) (p : Ptr) (conn : Conn) :
    (pool.setConn p conn).conns p = some conn := update_self _ _ _

/-- Another connection. -/
lemma Pool.conns_setConn_of_ne (pool : Pool) {p q : Ptr} (h : q ≠ p) (conn : Conn) :
    (pool.setConn p conn).conns q = pool.conns q := update_of_ne h _ _

/-- A connection that is replaced by one with the same `user_data` keeps its link. -/
lemma Pool.next_setConn {pool : Pool} {p : Ptr} {conn conn' : Conn} (hp : pool.conns p = some conn)
    (hu : conn'.userData.link = conn.userData.link) : (pool.setConn p conn').next = pool.next := by
  funext r
  by_cases hr : r = p
  · subst hr
    simp [Pool.next, Pool.read, Pool.setConn, hp, hu]
  · exact Pool.next_of_conns_eq (update_of_ne hr _ _)

/-- A change that keeps the link. -/
lemma Pool.linked_setConn {pool : Pool} {p : Ptr} {conn conn' : Conn}
    (hp : pool.conns p = some conn) (hu : conn'.userData.link = conn.userData.link) (q : Ptr) :
    (pool.setConn p conn').Linked q ↔ pool.Linked q := by
  rw [Pool.Linked, Pool.next_setConn hp hu]
  rfl

namespace Pool.Chains
variable {pool : Pool} {chains : Nat → List Ptr}

/-- The chains of the buckets. -/
lemma toChains (inv : pool.Chains chains) : Base.Chains pool.next pool.buckets chains :=
  ⟨inv.chain, inv.disjoint⟩

/-- The connections of a chain are there. -/
lemma conns_of_mem (inv : pool.Chains chains) {i : Nat} {p : Ptr} (hp : p ∈ chains i) :
    ∃ conn q, pool.conns p = some conn ∧ conn.userData.link = some q := by
  obtain ⟨q, hq⟩ := (inv.chain i).next_isSome hp
  obtain ⟨conn, hc, hl⟩ := Pool.next_eq_some hq
  exact ⟨conn, q, hc, hl⟩

/-- The connections of a chain are older than the next one. -/
lemma lt_fresh (inv : pool.Chains chains) {i : Nat} {p : Ptr} (hp : p ∈ chains i) :
    p < pool.fresh := by
  by_contra hge
  obtain ⟨conn, _, hc, _⟩ := inv.conns_of_mem hp
  rw [inv.fresh p (not_lt.mp hge)] at hc
  cases hc

/-- The fuel of the loops suffices. -/
lemma length_le (inv : pool.Chains chains) (i : Nat) : (chains i).length ≤ pool.fresh :=
  (inv.chain i).length_le fun _ hp => inv.lt_fresh hp

/-- The connections of the chains are those that are linked. -/
lemma linked_iff (inv : pool.Chains chains) (p : Ptr) :
    pool.Linked p ↔ ∃ i < connPoolBuckets, p ∈ chains i := by
  constructor
  · rintro ⟨i, hi, l, hl, hp⟩
    rw [hl.unique (inv.chain i)] at hp
    exact ⟨i, hi, hp⟩
  · rintro ⟨i, hi, hp⟩
    exact ⟨i, hi, _, inv.chain i, hp⟩

/-- The invariant does not depend on anything but the links. -/
lemma setConn (inv : pool.Chains chains) {p : Ptr} {conn conn' : Conn}
    (hp : pool.conns p = some conn) (hu : conn'.userData.link = conn.userData.link) :
    (pool.setConn p conn').Chains chains := by
  refine ⟨fun i => ?_, inv.disjoint, fun r hr => ?_⟩
  · rw [Pool.next_setConn hp hu]
    exact inv.chain i
  · have hrp : r ≠ p := by
      rintro rfl
      rw [inv.fresh r hr] at hp
      cases hp
    exact (update_of_ne hrp _ _).trans (inv.fresh r hr)

end Pool.Chains

/-! ## Lookup -/

/-- A lookup in a chain finds its first connection with the id. -/
lemma lookupChain_eq {pool : Pool} {h : Option Ptr} {l : List Ptr} {fuel : Nat}
    (c : Chain pool.next h l) (hf : l.length ≤ fuel) (id : UInt32) :
    lookupChain pool.conns id fuel h =
      some (l.find? fun p => (pool.conns p).any (·.connId = id)) := by
  induction c generalizing fuel with
  | nil => cases fuel <;> rfl
  | @cons p q l hp c ih =>
    obtain ⟨conn, hconn, hlink⟩ := Pool.next_eq_some hp
    cases fuel with
    | zero => cases hf
    | succ fuel =>
      rw [lookupChain, List.find?_cons]
      simp only [hconn, hlink, Option.any_some]
      by_cases hid : conn.connId = id
      · simp only [hid, if_true, decide_true]
      · simp only [hid, if_false, decide_false]
        exact ih (Nat.le_of_succ_le_succ hf)

/-- The search for an id ends. -/
lemma Pool.Chains.find {pool : Pool} {chains : Nat → List Ptr} (inv : pool.Chains chains)
    (id : UInt32) :
    ∃ r, pool.find id = some r ∧ ∀ p, r = some p → ∃ conn, pool.conns p = some conn := by
  refine ⟨_, lookupChain_eq (inv.chain _) (inv.length_le _) id, fun p hp => ?_⟩
  have hany := List.find?_some hp
  obtain ⟨conn, hconn, -⟩ := (Option.any_eq_true _ _).mp hany
  exact ⟨conn, hconn⟩

/-- A lookup keeps the chains. -/
lemma Pool.Chains.connLookup {pool : Pool} {chains : Nat → List Ptr} (inv : pool.Chains chains)
    (id : UInt32) : ∃ r pool', connLookup pool id = some (r, pool') ∧ pool'.Chains chains := by
  obtain ⟨r, hr, hconn⟩ := inv.find id
  rw [Connection.connLookup, hr]
  cases r with
  | none => exact ⟨none, pool, rfl, inv⟩
  | some p =>
    obtain ⟨conn, hp⟩ := hconn p rfl
    refine ⟨some p, pool.setConn p { conn with refcnt := conn.refcnt + 1 }, ?_, inv.setConn hp rfl⟩
    simp [hp]

/-! ## Creation -/

/-- The pool with a new connection at the head of a chain. -/
def Pool.insert (pool : Pool) (bucket : Nat) (conn : Conn) (nextId : UInt32) : Pool :=
  { pool with
    conns := update pool.conns pool.fresh (some conn)
    buckets := update pool.buckets bucket (some pool.fresh)
    count := pool.count + 1
    fresh := pool.fresh + 1
    nextId }

/-- The connection that `rc_conn_create` makes. -/
structure Created (pool : Pool) (connId : UInt32) (conn : Conn) : Prop where
  id : conn.connId = if connId = 0 then pool.nextId else connId
  link : conn.userData = .ofLink (pool.buckets (bucketOf conn.connId))
  refcnt : conn.refcnt = 1
  intact : conn.Intact
  room : pool.count < pool.maxConn

/-- A buffer that was allocated is not empty. -/
lemma ringbufInit_size {alloc : Bool} {rb : RingBuf} (h : (ringbufInit alloc rb 65536).1 = 0) :
    (ringbufInit alloc rb 65536).2.size ≠ 0 := by
  cases alloc with
  | false => cases h
  | true =>
    rw [show (ringbufInit true rb 65536).2.size = nextPow2 65536 from rfl]
    decide

/-- `rc_conn_create` adds nothing, or a fresh connection at the head of its chain. -/
lemma connCreate_cases (draws : CreateDraws) (pool : Pool) (fd : Int) (connId : UInt32) :
    (∃ nextId, connCreate draws pool fd connId = (none, { pool with nextId })) ∨
    ∃ nextId conn, Created pool connId conn ∧
      connCreate draws pool fd connId =
        (some pool.fresh, pool.insert (bucketOf conn.connId) conn nextId) := by
  have hpool : ∃ nextId, (if connId = 0 then { pool with nextId := pool.nextId + 1 } else pool) =
      { pool with nextId } := by
    split
    · exact ⟨_, rfl⟩
    · exact ⟨pool.nextId, rfl⟩
  obtain ⟨nextId, hpool⟩ := hpool
  rw [connCreate]
  split
  · exact .inl ⟨pool.nextId, rfl⟩
  · next hroom =>
    split
    · exact .inl ⟨pool.nextId, rfl⟩
    · dsimp only
      rw [hpool]
      split
      · exact .inl ⟨nextId, rfl⟩
      · split
        · exact .inl ⟨nextId, rfl⟩
        · next hbufs =>
          rw [not_or, not_not, not_not] at hbufs
          refine .inr ⟨nextId, {
            connId := if connId = 0 then pool.nextId else connId, fd, state := .closed, refcnt := 1,
            session := sessionInit .aes256Gcm, localSeq := 0,
            sendBuf := (ringbufInit draws.sendAlloc .empty 65536).2,
            recvBuf := (ringbufInit draws.recvAlloc .empty 65536).2, lastRecv := draws.now,
            userData :=
              .ofLink (pool.buckets (bucketOf (if connId = 0 then pool.nextId else connId)))
          }, ?_, rfl⟩
          have hsend := ringbufInit_size hbufs.1
          have hrecv := ringbufInit_size hbufs.2
          exact ⟨rfl, rfl, rfl, ⟨hsend, hrecv⟩, UInt64.not_le.mp hroom⟩

/-- An inserted connection is the head of its chain, and the other chains stay as they are. -/
lemma Pool.Chains.insert {pool : Pool} {chains : Nat → List Ptr} (inv : pool.Chains chains)
    {bucket : Nat} {conn : Conn} (hu : conn.userData = .ofLink (pool.buckets bucket))
    (nextId : UInt32) :
    (pool.insert bucket conn nextId).Chains
      (update chains bucket (pool.fresh :: chains bucket)) := by
  have hnot : ∀ i, pool.fresh ∉ chains i := fun i h => (inv.lt_fresh h).ne rfl
  have hnext : (pool.insert bucket conn nextId).next =
      update pool.next pool.fresh (some (pool.buckets bucket)) := by
    funext r
    by_cases hr : r = pool.fresh
    · subst hr
      simp [Pool.next, Pool.read, Pool.insert, hu]
    · rw [update_of_ne hr]
      exact Pool.next_of_conns_eq (update_of_ne hr _ _)
  have c := inv.toChains.push hnot bucket
  rw [← hnext] at c
  refine ⟨c.chain, c.disjoint, fun r hr => ?_⟩
  have hlt : pool.fresh < r := hr
  exact (update_of_ne hlt.ne' _ _).trans (inv.fresh r hlt.le)

/-- A connection is created. -/
lemma Pool.Chains.connCreate {pool : Pool} {chains : Nat → List Ptr} (inv : pool.Chains chains)
    (draws : CreateDraws) (fd : Int) (connId : UInt32) :
    ∃ chains', (connCreate draws pool fd connId).2.Chains chains' := by
  obtain ⟨nextId, e⟩ | ⟨nextId, conn, new, e⟩ := connCreate_cases draws pool fd connId
  · rw [e]
    exact ⟨chains, inv.chain, inv.disjoint, inv.fresh⟩
  · rw [e]
    exact ⟨_, inv.insert new.link nextId⟩

/-! ## Purging -/

/-- What a purge of the chain behind `pp` leaves: some of its connections, in order, and nothing
else changed. -/
structure Purged (pool pool' : Pool) (pp : Slot) (rest kept : List Ptr) : Prop where
  sub : kept ⊆ rest
  chain : ∃ h, pool'.read pp = some h ∧ Chain pool'.next h kept
  conns : ∀ p ∉ rest, pp ≠ .link p → pool'.conns p = pool.conns p
  buckets : ∀ i, pp ≠ .bucket i → pool'.buckets i = pool.buckets i
  fresh : pool'.fresh = pool.fresh

/-- A slot whose storage is not touched. -/
lemma Pool.read_of_eq {pool pool' : Pool} {pp : Slot}
    (hb : ∀ i, pp = .bucket i → pool'.buckets i = pool.buckets i)
    (hc : ∀ p, pp = .link p → pool'.conns p = pool.conns p) : pool'.read pp = pool.read pp := by
  cases pp with
  | bucket i => rw [Pool.read, hb i rfl]; rfl
  | link p => rw [Pool.read, hc p rfl]; rfl

/-- A connection that a purge takes out of the chain behind `pp`. -/
def Pool.unlink (pool : Pool) (pp : Slot) (p : Ptr) (q : Option Ptr) (conn : Conn) : Pool :=
  { pool.write q pp with count := pool.count - 1 }.setConn p conn

/-- Unlinking leaves the others alone. -/
lemma Pool.unlink_frame {pool : Pool} {pp : Slot} {p : Ptr} {h : Option Ptr} (q : Option Ptr)
    (conn : Conn) (hpp : pp ≠ .link p) (hread : pool.read pp = some h) :
    (pool.unlink pp p q conn).read pp = some q ∧
      (∀ r, r ≠ p → pp ≠ .link r → (pool.unlink pp p q conn).conns r = pool.conns r) ∧
      (∀ i, pp ≠ .bucket i → (pool.unlink pp p q conn).buckets i = pool.buckets i) ∧
      (pool.unlink pp p q conn).fresh = pool.fresh := by
  cases pp with
  | bucket i =>
    refine ⟨?_, fun r hr _ => update_of_ne hr _ _, fun j hj => ?_, rfl⟩
    · simp [Pool.read, Pool.unlink, Pool.setConn, Pool.write]
    · exact update_of_ne (fun e => hj (by rw [e])) _ _
  | link o =>
    have hop : o ≠ p := fun e => hpp (by rw [e])
    obtain ⟨conn', hc, -⟩ := Option.bind_eq_some_iff.mp hread
    refine ⟨?_, fun r hr hl => ?_, fun _ _ => rfl, rfl⟩
    · simp [Pool.read, Pool.unlink, Pool.setConn, Pool.write, update_of_ne hop, hc]
    · have hro : r ≠ o := fun e => hl (by rw [e])
      exact (update_of_ne hr _ _).trans (update_of_ne hro _ _)

/-- A connection without its chain link. -/
def Conn.offLink (conn : Conn) : Conn := { conn with userData := .null }

/-- What a purge by a rule leaves of the chain behind `pp`: the connections that the rule does not
select, in order and as they were but for their links, and nothing else changed. -/
structure Swept (sel : Ptr → Conn → Bool) (pool pool' : Pool) (pp : Slot) (rest kept : List Ptr) :
    Prop where
  kept_eq : kept = rest.filter fun p => !(pool.conns p).any (sel p)
  chain : ∃ h, pool'.read pp = some h ∧ Chain pool'.next h kept
  conns : ∀ p ∉ rest, pp ≠ .link p → pool'.conns p = pool.conns p
  data : ∀ p, (p ∈ rest → p ∈ kept) →
    (pool'.conns p).map Conn.offLink = (pool.conns p).map Conn.offLink
  buckets : ∀ i, pp ≠ .bucket i → pool'.buckets i = pool.buckets i
  fresh : pool'.fresh = pool.fresh
  maxConn : pool'.maxConn = pool.maxConn
  count : pool'.count + UInt64.ofNat rest.length = pool.count + UInt64.ofNat kept.length

/-- A sweep is a purge. -/
lemma Swept.purged {sel : Ptr → Conn → Bool} {pool pool' : Pool} {pp : Slot} {rest kept : List Ptr}
    (post : Swept sel pool pool' pp rest kept) : Purged pool pool' pp rest kept := by
  refine ⟨fun p hp => ?_, post.chain, post.conns, post.buckets, post.fresh⟩
  rw [post.kept_eq] at hp
  exact List.mem_of_mem_filter hp

/-- Taking a connection out changes the data of no other one. -/
lemma Pool.unlink_data (pool : Pool) (pp : Slot) {p r : Ptr} (q : Option Ptr) (conn : Conn)
    (hr : r ≠ p) : ((pool.unlink pp p q conn).conns r).map Conn.offLink =
      (pool.conns r).map Conn.offLink := by
  have hset : (pool.unlink pp p q conn).conns r = (pool.write q pp).conns r :=
    update_of_ne hr _ _
  rw [hset]
  cases pp with
  | bucket i => rfl
  | link o =>
    by_cases hro : r = o
    · subst hro
      rw [Pool.write]
      dsimp only
      rw [update_self, Option.map_map]
      rfl
    · exact congrArg _ (update_of_ne hro _ _)

section Sweep
variable {sel : Ptr → Conn → Bool} {pool pool' : Pool} {pp : Slot} {p : Ptr} {q : Option Ptr}
  {conn : Conn} {rest kept : List Ptr}

/-- A connection that the rule selects is taken out; the same slot then holds the rest
of the chain. -/
lemma Swept.cons_purged {conn' : Conn} (hconn : pool.conns p = some conn) (hsel : sel p conn = true)
    (hprest : p ∉ rest) (hppp : pp ≠ .link p) (hpprest : ∀ r ∈ rest, pp ≠ .link r) {h : Option Ptr}
    (hread : pool.read pp = some h) (post : Swept sel (pool.unlink pp p q conn') pool' pp rest
      kept) :
    Swept sel pool pool' pp (p :: rest) kept := by
  obtain ⟨-, hconns, hbuckets, hfresh⟩ := Pool.unlink_frame q conn' hppp hread
  have hkept : kept = rest.filter fun r => !(pool.conns r).any (sel r) := by
    rw [post.kept_eq]
    refine List.filter_congr fun r hm => ?_
    rw [hconns r (ne_of_mem_of_not_mem hm hprest) (hpprest r hm)]
  refine ⟨?_, post.chain, fun r hr hl => ?_, fun r hr => ?_,
    fun i hi => (post.buckets i hi).trans (hbuckets i hi), post.fresh.trans hfresh,
    post.maxConn.trans ?_, ?_⟩
  · rw [List.filter_cons, hconn, Option.any_some, hsel]
    exact hkept
  · rw [List.mem_cons, not_or] at hr
    exact (post.conns r hr.2 hl).trans (hconns r hr.1 hl)
  · have hrp : r ≠ p := by
      rintro rfl
      have hmem := hr List.mem_cons_self
      rw [hkept] at hmem
      exact hprest (List.mem_of_mem_filter hmem)
    exact (post.data r fun hm => hr (List.mem_cons_of_mem p hm)).trans (pool.unlink_data pp q _ hrp)
  · cases pp <;> rfl
  · have hcount : (pool.unlink pp p q conn').count = pool.count - 1 := by cases pp <;> rfl
    have hrest := post.count
    rw [hcount] at hrest
    rw [List.length_cons, UInt64.ofNat_add]
    grind

/-- A connection that the rule does not select stays; its own link is the slot of the rest. -/
lemma Swept.cons_kept (hconn : pool.conns p = some conn) (hsel : ¬ sel p conn = true)
    (hprest : p ∉ rest) (hppp : pp ≠ .link p) (hpprest : ∀ r ∈ rest, pp ≠ .link r)
    (hread : pool.read pp = some (some p)) (post : Swept sel pool pool' (.link p) rest kept) :
    Swept sel pool pool' pp (p :: rest) (p :: kept) := by
  obtain ⟨h', hread', c'⟩ := post.chain
  refine ⟨?_, ⟨some p, ?_, .cons hread' c'⟩, fun r hr hl => ?_, fun r hr => ?_,
    fun i _ => post.buckets i Slot.noConfusion, post.fresh, post.maxConn, ?_⟩
  · rw [List.filter_cons, hconn, Option.any_some, Bool.eq_false_of_not_eq_true hsel, post.kept_eq]
    rfl
  · rw [← hread]
    refine Pool.read_of_eq (fun i _ => post.buckets i Slot.noConfusion) fun o ho => ?_
    refine post.conns o (fun hm => hpprest o hm ho) fun e => hppp ?_
    rw [ho, ← e]
  · rw [List.mem_cons, not_or] at hr
    exact post.conns r hr.2 fun e => hr.1 (by cases e; rfl)
  · refine post.data r fun hm => ?_
    exact (List.mem_cons.mp (hr (List.mem_cons_of_mem p hm))).resolve_left
      (ne_of_mem_of_not_mem hm hprest)
  · have hrest := post.count
    rw [List.length_cons, List.length_cons, UInt64.ofNat_add, UInt64.ofNat_add]
    grind

end Sweep

/-- The purge of a chain by a rule returns and leaves a chain. -/
lemma sweepChain_spec (sel : Ptr → Conn → Bool) {rest : List Ptr} {pool : Pool} (pp : Slot)
    {h : Option Ptr} {fuel : Nat} (purged : Int) (hread : pool.read pp = some h)
    (c : Chain pool.next h rest) (hpp : ∀ p ∈ rest, pp ≠ .link p) (hf : rest.length ≤ fuel) :
    ∃ n pool' kept, sweepChain sel fuel pool pp purged = some (n, pool') ∧
      Swept sel pool pool' pp rest kept := by
  induction rest generalizing pool pp h fuel purged with
  | nil =>
    cases c
    refine ⟨purged, pool, [], ?_, ⟨rfl, ⟨none, hread, .nil⟩, fun _ _ _ => rfl, fun _ _ => rfl,
      fun _ _ => rfl, rfl, rfl, rfl⟩⟩
    rw [sweepChain.eq_def]
    simp only [hread]
  | cons p rest ih =>
    cases c with
    | @cons _ q _ hp c =>
      have hprest : p ∉ rest := (List.nodup_cons.mp (Chain.cons hp c).nodup).1
      obtain ⟨hppp, hpprest⟩ := List.forall_mem_cons.mp hpp
      obtain ⟨conn, hconn, hlink⟩ := Pool.next_eq_some hp
      cases fuel with
      | zero => cases hf
      | succ fuel =>
        have hf' : rest.length ≤ fuel := Nat.le_of_succ_le_succ hf
        rw [sweepChain.eq_def]
        simp only [hread, hconn, hlink]
        split
        · next hsel =>
          obtain ⟨hr, hconns, -, -⟩ :=
            Pool.unlink_frame q (connRelease (connClose conn)) hppp hread
          have c' : Chain (pool.unlink pp p q (connRelease (connClose conn))).next q rest :=
            c.congr fun r hm => Pool.next_of_conns_eq
              (hconns r (ne_of_mem_of_not_mem hm hprest) (hpprest r hm))
          obtain ⟨n, pool', kept, e, post⟩ := ih pp (purged + 1) hr c' hpprest hf'
          exact ⟨n, pool', kept, e, post.cons_purged hconn hsel hprest hppp hpprest hread⟩
        · next hsel =>
          have hlinks : ∀ r ∈ rest, Slot.link p ≠ .link r := fun r hr e =>
            hprest (Slot.link.inj e ▸ hr)
          obtain ⟨n, pool', kept, e, post⟩ := ih (.link p) purged hp c hlinks hf'
          exact ⟨n, pool', p :: kept, e, post.cons_kept hconn hsel hprest hppp hpprest hread⟩

/-- The rule of `rc_conn_purge_timeouts` is one of them. -/
lemma purgeChain_eq_sweepChain (now : Timeval) (timeoutMs : UInt32) (fuel : Nat) (pool : Pool)
    (pp : Slot) (purged : Int) : purgeChain now timeoutMs fuel pool pp purged =
      sweepChain (fun _ => Conn.expired now timeoutMs) fuel pool pp purged := by
  induction fuel generalizing pool pp purged with
  | zero =>
    rw [purgeChain.eq_def, sweepChain.eq_def]
  | succ fuel ih =>
    rw [purgeChain.eq_def, sweepChain.eq_def]
    simp only [ih]

/-- A purge is a sweep of what has expired. -/
lemma connPurgeTimeouts_eq_connSweep (now : Timeval) (pool : Pool) (timeoutMs : UInt32) :
    connPurgeTimeouts now pool timeoutMs = connSweep (fun _ => Conn.expired now timeoutMs)
      pool := by
  suffices h : ∀ is pool purged, purgeBuckets now timeoutMs is pool purged =
      sweepBuckets (fun _ => Conn.expired now timeoutMs) is pool purged from h _ _ _
  intro is
  induction is with
  | nil => exact fun _ _ => rfl
  | cons i is ih =>
    intro pool purged
    simp only [purgeBuckets, sweepBuckets, purgeChain_eq_sweepChain, ih]

/-- The purge of a chain returns and leaves a chain. -/
lemma purgeChain_spec (now : Timeval) (timeoutMs : UInt32) {rest : List Ptr} {pool : Pool}
    (pp : Slot) {h : Option Ptr} {fuel : Nat} (purged : Int) (hread : pool.read pp = some h)
    (c : Chain pool.next h rest) (hpp : ∀ p ∈ rest, pp ≠ .link p) (hf : rest.length ≤ fuel) :
    ∃ n pool' kept, purgeChain now timeoutMs fuel pool pp purged = some (n, pool') ∧
      Purged pool pool' pp rest kept := by
  rw [purgeChain_eq_sweepChain]
  obtain ⟨n, pool', kept, e, post⟩ := sweepChain_spec _ pp purged hread c hpp hf
  exact ⟨n, pool', kept, e, post.purged⟩

/-- A bucket whose chain was purged leaves the other chains as they are. -/
lemma Purged.chains {pool pool' : Pool} {chains : Nat → List Ptr} {i : Nat} {kept : List Ptr}
    (post : Purged pool pool' (.bucket i) (chains i) kept) (inv : pool.Chains chains) :
    pool'.Chains (update chains i kept) := by
  obtain ⟨h, hread, c⟩ := post.chain
  have hconns : ∀ p ∉ chains i, pool'.conns p = pool.conns p :=
    fun p hp => post.conns p hp Slot.noConfusion
  have hdis : ∀ j, j ≠ i → List.Disjoint kept (chains j) := fun j hj p hp hm =>
    inv.disjoint j i hj hm (post.sub hp)
  refine ⟨fun j => ?_, disjoint_update inv.disjoint hdis, fun p hp => ?_⟩
  · by_cases hj : j = i
    · subst hj
      rw [update_self, Option.some.inj hread]
      exact c
    · rw [update_of_ne hj, post.buckets j fun e => hj (by cases e; rfl)]
      exact (inv.chain j).congr fun p hp =>
        Pool.next_of_conns_eq (hconns p fun hi => inv.disjoint j i hj hp hi)
  · rw [post.fresh] at hp
    exact (hconns p fun hm => (inv.lt_fresh hm).not_ge hp).trans (inv.fresh p hp)

/-- The purge of a chain ends. -/
lemma Pool.Chains.purgeChain {pool : Pool} {chains : Nat → List Ptr} (inv : pool.Chains chains)
    (now : Timeval) (timeoutMs : UInt32) (i : Nat) (purged : Int) :
    ∃ n pool' chains',
      Connection.purgeChain now timeoutMs pool.fresh pool (.bucket i) purged = some (n, pool') ∧
      pool'.Chains chains' := by
  obtain ⟨n, pool', kept, e, post⟩ := purgeChain_spec now timeoutMs (.bucket i) purged rfl
    (inv.chain i) (fun _ _ => Slot.noConfusion) (inv.length_le i)
  exact ⟨n, pool', _, e, post.chains inv⟩

/-- The purge of some chains ends. -/
lemma Pool.Chains.purgeBuckets {pool : Pool} {chains : Nat → List Ptr} (inv : pool.Chains chains)
    (now : Timeval) (timeoutMs : UInt32) (is : List Nat) (purged : Int) :
    ∃ n pool' chains',
      Connection.purgeBuckets now timeoutMs is pool purged = some (n, pool') ∧
      pool'.Chains chains' := by
  induction is generalizing pool chains purged with
  | nil => exact ⟨purged, pool, chains, rfl, inv⟩
  | cons i is ih =>
    obtain ⟨n, pool', chains', e, inv'⟩ := inv.purgeChain now timeoutMs i purged
    rw [Connection.purgeBuckets, e]
    exact ih inv' n

/-! ## Reachable pools -/

/-- The pools that creations, lookups and purges reach. -/
inductive Reachable : Pool → Prop where
  | init (maxConn : UInt64) (nextId : UInt32) : Reachable (connPoolInit maxConn nextId)
  | create {pool : Pool} (draws : CreateDraws) (fd : Int) (connId : UInt32) :
    Reachable pool →
    Reachable (connCreate draws pool fd connId).2
  | lookup {pool pool' : Pool} {connId : UInt32} {r : Option Ptr} :
    Reachable pool →
    connLookup pool connId = some (r, pool') →
    Reachable pool'
  | purge {pool pool' : Pool} {now : Timeval} {timeoutMs : UInt32} {n : Int} :
    Reachable pool →
    connPurgeTimeouts now pool timeoutMs = some (n, pool') →
    Reachable pool'

/-- Reachable pools have disjoint chains. -/
theorem Reachable.chains {pool : Pool} (reach : Reachable pool) : ∃ chains, pool.Chains chains := by
  induction reach with
  | init maxConn nextId =>
    exact ⟨fun _ => [], fun _ => .nil, fun _ _ _ => List.disjoint_nil_left _, fun _ _ => rfl⟩
  | create draws fd connId _ ih =>
    obtain ⟨chains, inv⟩ := ih
    exact inv.connCreate draws fd connId
  | @lookup pool pool' connId r _ h ih =>
    obtain ⟨chains, inv⟩ := ih
    obtain ⟨r', pool'', e, inv'⟩ := inv.connLookup connId
    cases e.symm.trans h
    exact ⟨chains, inv'⟩
  | @purge pool pool' now timeoutMs n _ h ih =>
    obtain ⟨chains, inv⟩ := ih
    obtain ⟨n', pool'', chains', e, inv'⟩ := inv.purgeBuckets now timeoutMs
      (List.range connPoolBuckets) 0
    cases e.symm.trans h
    exact ⟨chains', inv'⟩

/-! ## Destruction -/

/-- The destruction of a chain whose connections are still there visits them in order and frees no
other connection. -/
lemma destroyChain_of_chain {pool : Pool} {h : Option Ptr} {l : List Ptr} {fuel : Nat}
    {conns : Ptr → Option Conn} (c : Chain pool.next h l) (hf : l.length ≤ fuel)
    (hconns : ∀ p ∈ l, conns p = pool.conns p) :
    ∃ conns', destroyChain fuel conns h = some (l, conns') ∧ ∀ p ∉ l, conns' p = conns p := by
  induction c generalizing fuel conns with
  | nil => exact ⟨conns, by cases fuel <;> rfl, fun _ _ => rfl⟩
  | @cons p q l hp c ih =>
    obtain ⟨conn, hconn, hlink⟩ := Pool.next_eq_some hp
    have hpl : p ∉ l := (List.nodup_cons.mp (Chain.cons hp c).nodup).1
    obtain ⟨hcp, hcl⟩ := List.forall_mem_cons.mp hconns
    cases fuel with
    | zero => cases hf
    | succ fuel =>
      have hcl' : ∀ r ∈ l, update conns p none r = pool.conns r := by
        intro r hr
        rw [update_of_ne (fun e => hpl (by rwa [← e]))]
        exact hcl r hr
      obtain ⟨conns', e, frame⟩ := ih (Nat.le_of_succ_le_succ hf) hcl'
      refine ⟨conns', ?_, fun r hr => ?_⟩
      · simp [destroyChain, hcp, hconn, hlink, e]
      · rw [List.mem_cons, not_or] at hr
        rw [frame r hr.2, update_of_ne hr.1]

/-- A chain with a connection whose `user_data` is no link is not destroyed. -/
lemma destroyChain_of_broken {pool : Pool} {h : Option Ptr} {l : List Ptr} (fuel : Nat) {b : Ptr}
    (conns : Ptr → Option Conn) (c : Chain pool.next h l)
    (hconns : ∀ p ∈ l, p ≠ b → conns p = pool.conns p) (hb : b ∈ l)
    (hbroken : (conns b).bind (·.userData.link) = none) : destroyChain fuel conns h = none := by
  induction c generalizing fuel conns with
  | nil => cases hb
  | @cons p q l hp c ih =>
    cases fuel with
    | zero => rfl
    | succ fuel =>
      obtain ⟨conn, hconn, hlink⟩ := Pool.next_eq_some hp
      have hpl : p ∉ l := (List.nodup_cons.mp (Chain.cons hp c).nodup).1
      by_cases hpb : p = b
      · subst hpb
        rw [destroyChain]
        cases hc : conns p with
        | none => rfl
        | some conn' =>
          rw [hc] at hbroken
          have hn : conn'.userData.link = none := hbroken
          simp [hn]
      · have hb' : b ∈ l := (List.mem_cons.mp hb).resolve_left (Ne.symm hpb)
        have hne : ∀ r ∈ l, r ≠ p := by
          rintro r hr rfl
          exact hpl hr
        have e := ih fuel (update conns p none)
          (fun r hr hrb => by
            rw [update_of_ne (hne r hr)]
            exact hconns r (List.mem_cons_of_mem _ hr) hrb) hb'
          (by rw [update_of_ne (hne b hb')]; exact hbroken)
        have hcp : conns p = some conn := (hconns p List.mem_cons_self hpb).trans hconn
        simp [destroyChain, hcp, hlink, e]

section Destroy
variable {pool : Pool} {chains : Nat → List Ptr}

/-- The destruction of some buckets visits their chains. -/
lemma Pool.Chains.destroyBuckets (inv : pool.Chains chains) {is : List Nat} (hn : is.Nodup)
    (conns : Ptr → Option Conn) (hconns : ∀ i ∈ is, ∀ p ∈ chains i, conns p = pool.conns p) :
    Connection.destroyBuckets pool.fresh pool.buckets is conns = some (is.flatMap chains) := by
  induction is generalizing conns with
  | nil => rfl
  | cons i is ih =>
    obtain ⟨hi, hn'⟩ := List.nodup_cons.mp hn
    obtain ⟨hci, hcis⟩ := List.forall_mem_cons.mp hconns
    obtain ⟨conns', e, frame⟩ := destroyChain_of_chain (inv.chain i) (inv.length_le i) hci
    have e' := ih hn' conns' fun j hj p hp => by
      have hij : j ≠ i := fun e => hi (by rwa [← e])
      rw [frame p fun hm => inv.disjoint j i hij hp hm]
      exact hcis j hj p hp
    simp [Connection.destroyBuckets, e, e']

/-- `rc_conn_pool_destroy` visits every linked connection once. -/
lemma Pool.Chains.destroy (inv : pool.Chains chains) :
    ∃ visited, connPoolDestroy pool = some visited ∧ visited.Nodup ∧
      ∀ p, p ∈ visited ↔ pool.Linked p := by
  refine ⟨_, inv.destroyBuckets List.nodup_range _ fun _ _ _ _ => rfl, ?_, fun p => ?_⟩
  · rw [List.nodup_flatMap]
    refine ⟨fun i _ => (inv.chain i).nodup, ?_⟩
    exact List.nodup_range.imp fun {i j} hij => inv.disjoint i j hij
  · rw [inv.linked_iff, List.mem_flatMap]
    simp only [List.mem_range]

/-- A pool in which the `user_data` of one linked connection is no link is not destroyed. -/
lemma Pool.Chains.destroyBuckets_broken (inv : pool.Chains chains) {is : List Nat} {i : Nat}
    {b : Ptr} (conns : Ptr → Option Conn)
    (hconns : ∀ j ∈ is, ∀ p ∈ chains j, p ≠ b → conns p = pool.conns p) (hn : is.Nodup)
    (hi : i ∈ is) (hb : b ∈ chains i) (hbroken : (conns b).bind (·.userData.link) = none) :
    Connection.destroyBuckets pool.fresh pool.buckets is conns = none := by
  induction is generalizing conns with
  | nil => cases hi
  | cons j is ih =>
    obtain ⟨hj, hn'⟩ := List.nodup_cons.mp hn
    obtain ⟨hcj, hcis⟩ := List.forall_mem_cons.mp hconns
    by_cases hij : j = i
    · subst hij
      rw [Connection.destroyBuckets, destroyChain_of_broken _ conns (inv.chain j) hcj hb hbroken]
      rfl
    · -- The chains before it are destroyed as usual, which leaves its own alone.
      have hbj : b ∉ chains j := fun hm => inv.disjoint j i hij hm hb
      obtain ⟨conns', e, frame⟩ := destroyChain_of_chain (inv.chain j) (inv.length_le j)
        fun p hp => hcj p hp fun e => hbj (by rwa [← e])
      have e' := ih conns' (fun k hk p hp hpb => by
          have hkj : k ≠ j := fun e => hj (by rwa [← e])
          rw [frame p fun hm => inv.disjoint k j hkj hp hm]
          exact hcis k hk p hp hpb) hn' ((List.mem_cons.mp hi).resolve_left (Ne.symm hij))
        (by rw [frame b hbj]; exact hbroken)
      simp [Connection.destroyBuckets, e, e']

end Destroy

end RoboControl.Connection
