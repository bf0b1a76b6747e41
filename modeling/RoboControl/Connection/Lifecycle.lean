import RoboControl.Base.Run
import RoboControl.Connection.Chains
import Mathlib.Algebra.BigOperators.Group.Finset.Basic

/-!
# Life of a pool

Runs of the six operations on a pool and its connections (`PoolOp`, `poolRun`). A purge takes its
rule as an argument, so that a run may purge any connections; `rc_conn_purge_timeouts` is the purge
of the expired ones (`connPurgeTimeouts_eq_connSweep`).

As long as nothing else writes `user_data`, the chains, the buckets and the counter of the pool fit
together (`Pool.Table`), whatever the run. A lookup finds the last connection created with an id,
since each chain has the connections of its bucket in the reverse order of their creation
(`pool_structure`). Addresses are numbered in the order of creation.
-/

namespace RoboControl.Connection
open Base Proto Crypto Function

/-! ## Runs -/

/-- Change a connection in place; undefined where there is none. -/
def Pool.onConn (pool : Pool) (p : Ptr) (f : Conn → Conn) : Option Pool :=
  (pool.conns p).map fun conn => pool.setConn p (f conn)

/-- What a program does with a pool and its connections. -/
inductive PoolOp where
  | create (draws : CreateDraws) (fd : Int) (connId : UInt32)
  | lookup (connId : UInt32)
  | release (p : Ptr)
  | setState (p : Ptr) (new : ConnState)
  | close (p : Ptr)
  | purge (sel : Ptr → Conn → Bool)

/-- The pool after an operation. -/
def PoolOp.apply (pool : Pool) : PoolOp → Option Pool
  | .create draws fd connId => some (connCreate draws pool fd connId).2
  | .lookup connId => (connLookup pool connId).map Prod.snd
  | .release p => pool.onConn p connRelease
  | .setState p new => pool.onConn p fun conn => (connSetState conn new).2
  | .close p => pool.onConn p connClose
  | .purge sel => (connSweep sel pool).map Prod.snd

/-- The pool after operations in order. -/
def poolRun (maxConn : UInt64) (nextId : UInt32) (ops : List PoolOp) : Option Pool :=
  ops.foldlM PoolOp.apply (connPoolInit maxConn nextId)

/-! ## Tables -/

/-- Number of connections in all chains. -/
def total (chains : Nat → List Ptr) : Nat :=
  ∑ i ∈ Finset.range connPoolBuckets, (chains i).length

/-- The chains of a pool: each connection is in the bucket of its id, the newest first, and the
counter is their number. -/
structure Pool.Table (pool : Pool) (chains : Nat → List Ptr) : Prop extends pool.Chains chains where
  placed : ∀ i, ∀ p ∈ chains i, ∃ conn, pool.conns p = some conn ∧ bucketOf conn.connId = i
  newest : ∀ i, (chains i).Pairwise (· > ·)
  count : pool.count.toNat = total chains
  le : pool.count ≤ pool.maxConn

lemma bucketOf_lt (id : UInt32) : bucketOf id < connPoolBuckets := Nat.mod_lt _ (by decide)

/-- The length of one chain is replaced. -/
lemma total_update (chains : Nat → List Ptr) {i : Nat} (hi : i < connPoolBuckets) (l : List Ptr) :
    total (update chains i l) + (chains i).length = total chains + l.length := by
  have hmem : i ∈ Finset.range connPoolBuckets := Finset.mem_range.mpr hi
  have hrest : ∀ j ∈ (Finset.range connPoolBuckets).erase i,
      (update chains i l j).length = (chains j).length := fun j hj => by
    rw [update_of_ne (Finset.ne_of_mem_erase hj)]
  rw [total, total, ← Finset.add_sum_erase _ _ hmem, ← Finset.add_sum_erase _ _ hmem,
    Finset.sum_congr rfl hrest, update_self]
  omega

/-- A chain is part of all. -/
lemma length_le_total (chains : Nat → List Ptr) {i : Nat} (hi : i < connPoolBuckets) :
    (chains i).length ≤ total chains :=
  Finset.single_le_sum (f := fun i => (chains i).length) (fun _ _ => Nat.zero_le _)
    (Finset.mem_range.mpr hi)

namespace Pool.Table
variable {pool pool' : Pool} {chains : Nat → List Ptr} {p : Ptr} {conn conn' : Conn}

/-- A new pool. -/
lemma init (maxConn : UInt64) (nextId : UInt32) :
    (connPoolInit maxConn nextId).Table fun _ => [] where
  chain _ := .nil
  disjoint _ _ _ := List.disjoint_nil_left _
  fresh _ _ := rfl
  placed _ _ h := nomatch h
  newest _ := .nil
  count := Finset.sum_const_zero.symm
  le := UInt64.zero_le

/-- A connection is linked in the bucket of its id. -/
lemma linked_iff_mem (inv : pool.Table chains) (hp : pool.conns p = some conn) :
    pool.Linked p ↔ p ∈ chains (bucketOf conn.connId) := by
  rw [inv.linked_iff]
  refine ⟨?_, fun h => ⟨_, bucketOf_lt _, h⟩⟩
  rintro ⟨i, -, h⟩
  obtain ⟨conn', hp', rfl⟩ := inv.placed i p h
  cases hp.symm.trans hp'
  exact h

/-- A connection that keeps its id and its link can be changed. -/
lemma setConn (inv : pool.Table chains) (hp : pool.conns p = some conn)
    (hu : conn'.userData.link = conn.userData.link) (hid : conn'.connId = conn.connId) :
    (pool.setConn p conn').Table chains := by
  refine ⟨inv.toChains.setConn hp hu, fun i r hr => ?_, inv.newest, inv.count, inv.le⟩
  obtain ⟨conn₁, hr₁, hi⟩ := inv.placed i r hr
  by_cases hrp : r = p
  · subst hrp
    cases hp.symm.trans hr₁
    exact ⟨conn', update_self _ _ _, hid ▸ hi⟩
  · exact ⟨conn₁, (update_of_ne hrp _ _).trans hr₁, hi⟩

/-- A change that keeps the link and the id. -/
lemma onConn (inv : pool.Table chains) {f : Conn → Conn}
    (hu : ∀ conn, (f conn).userData.link = conn.userData.link)
    (hid : ∀ conn, (f conn).connId = conn.connId) (h : pool.onConn p f = some pool') :
    pool'.Table chains := by
  obtain ⟨conn, hp, rfl⟩ := Option.map_eq_some_iff.mp h
  exact inv.setConn hp (hu conn) (hid conn)

/-- A new connection is the head of the chain of its id. -/
lemma insert (inv : pool.Table chains) {connId : UInt32} (new : Created pool connId conn)
    (nextId : UInt32) : (pool.insert (bucketOf conn.connId) conn nextId).Table
      (update chains (bucketOf conn.connId)
        (pool.fresh :: chains (bucketOf conn.connId))) := by
  have hroom := UInt64.lt_iff_toNat_lt.mp new.room
  have hsucc : (pool.count + 1).toNat = pool.count.toNat + 1 := by
    rw [UInt64.toNat_add, UInt64.toNat_one]
    have := pool.maxConn.toNat_lt
    exact Nat.mod_eq_of_lt (by omega)
  refine ⟨inv.toChains.insert new.link nextId, fun i p hp => ?_, fun i => ?_, ?_, ?_⟩
  · have hold : ∀ p ∈ chains i, ∃ conn', (pool.insert (bucketOf conn.connId) conn nextId).conns p =
        some conn' ∧ bucketOf conn'.connId = i := fun p hp => by
      obtain ⟨conn', hp', hi⟩ := inv.placed i p hp
      exact ⟨conn', (update_of_ne (inv.lt_fresh hp).ne _ _).trans hp', hi⟩
    by_cases hi : i = bucketOf conn.connId
    · rw [hi, update_self, List.mem_cons] at hp
      obtain rfl | hp := hp
      · exact ⟨conn, update_self _ _ _, hi.symm⟩
      · exact hold p (hi ▸ hp)
    · rw [update_of_ne hi] at hp
      exact hold p hp
  · by_cases hi : i = bucketOf conn.connId
    · rw [hi, update_self]
      exact List.pairwise_cons.mpr ⟨fun p hp => inv.lt_fresh hp, inv.newest _⟩
    · rw [update_of_ne hi]
      exact inv.newest i
  · have h := total_update chains (bucketOf_lt conn.connId)
      (pool.fresh :: chains (bucketOf conn.connId))
    rw [List.length_cons] at h
    rw [show (pool.insert (bucketOf conn.connId) conn nextId).count = pool.count + 1 from rfl,
      hsucc, inv.count]
    omega
  · rw [UInt64.le_iff_toNat_le]
    exact hsucc.trans_le hroom

/-- A new connection is linked. -/
lemma linked_insert (inv : pool.Table chains) {connId : UInt32} (new : Created pool connId conn)
    (nextId : UInt32) (q : Ptr) :
    (pool.insert (bucketOf conn.connId) conn nextId).Linked q ↔ q = pool.fresh ∨ pool.Linked q := by
  rw [(inv.insert new nextId).linked_iff, inv.linked_iff]
  have hmem : ∀ i, q ∈ update chains (bucketOf conn.connId)
      (pool.fresh :: chains (bucketOf conn.connId)) i ↔
        (q = pool.fresh ∧ i = bucketOf conn.connId) ∨ q ∈ chains i := fun i => mem_push
  simp only [hmem]
  constructor
  · rintro ⟨i, hi, ⟨rfl, -⟩ | hq⟩
    · exact .inl rfl
    · exact .inr ⟨i, hi, hq⟩
  · rintro (rfl | ⟨i, hi, hq⟩)
    · exact ⟨_, bucketOf_lt conn.connId, .inl ⟨rfl, rfl⟩⟩
    · exact ⟨i, hi, .inr hq⟩

/-- A connection is created. -/
lemma create (inv : pool.Table chains) (draws : CreateDraws) (fd : Int) (connId : UInt32) :
    ∃ chains', (connCreate draws pool fd connId).2.Table chains' := by
  obtain ⟨nextId, e⟩ | ⟨nextId, conn, new, e⟩ := connCreate_cases draws pool fd connId
  · rw [e]
    exact ⟨chains, ⟨inv.chain, inv.disjoint, inv.fresh⟩, inv.placed, inv.newest, inv.count, inv.le⟩
  · rw [e]
    exact ⟨_, inv.insert new nextId⟩

end Pool.Table

/-! ## Lookup -/

/-- A linked connection has an id. -/
def Pool.HasId (pool : Pool) (p : Ptr) (id : UInt32) : Prop :=
  pool.Linked p ∧ (pool.conns p).map Conn.connId = some id

/-- A lookup finds the newest linked connection with the id, if there is one. -/
lemma Pool.Table.find {pool : Pool} {chains : Nat → List Ptr} (inv : pool.Table chains)
    (id : UInt32) :
    (pool.find id = some none ∧ ∀ p, ¬ pool.HasId p id) ∨
      ∃ p, pool.find id = some (some p) ∧ pool.HasId p id ∧ ∀ q, pool.HasId q id → q ≤ p := by
  have hfind := lookupChain_eq (inv.chain (bucketOf id)) (inv.length_le _) id
  have hmem : ∀ q, pool.HasId q id →
      q ∈ chains (bucketOf id) ∧ (pool.conns q).any (·.connId = id) = true := fun q hq => by
    obtain ⟨hlink, hid⟩ := hq
    obtain ⟨conn, hconn, rfl⟩ := Option.map_eq_some_iff.mp hid
    rw [hconn, Option.any_some]
    exact ⟨(inv.linked_iff_mem hconn).mp hlink, decide_eq_true rfl⟩
  cases h : (chains (bucketOf id)).find? fun p => (pool.conns p).any (·.connId = id) with
  | none =>
    refine .inl ⟨hfind.trans (congrArg some h), fun p hp => ?_⟩
    obtain ⟨hp, hid⟩ := hmem p hp
    exact List.find?_eq_none.mp h p hp hid
  | some p =>
    obtain ⟨hp, pre, post, hl, hpre⟩ := List.find?_eq_some_iff_append.mp h
    refine .inr ⟨p, hfind.trans (congrArg some h), ?_, fun q hq => ?_⟩
    · obtain ⟨conn, hconn, hid⟩ := (Option.any_eq_true _ _).mp hp
      have hid : conn.connId = id := of_decide_eq_true hid
      refine ⟨(inv.linked_iff_mem hconn).mpr ?_, ?_⟩
      · rw [hid, hl]
        exact List.mem_append_right pre List.mem_cons_self
      · rw [hconn, Option.map_some, hid]
    · obtain ⟨hq, hid⟩ := hmem q hq
      have hsorted := inv.newest (bucketOf id)
      rw [hl] at hq hsorted
      obtain hq | hq := List.mem_append.mp hq
      · have := hpre q hq
        rw [hid] at this
        cases this
      · obtain rfl | hq := List.mem_cons.mp hq
        · exact le_rfl
        · exact ((List.pairwise_cons.mp (List.pairwise_append.mp hsorted).2.1).1 q hq).le

namespace Pool.Table
variable {pool pool' : Pool} {chains : Nat → List Ptr}

/-- A lookup returns the newest linked connection with the id and takes a reference to it. -/
lemma lookup (inv : pool.Table chains) (id : UInt32) :
    (connLookup pool id = some (none, pool) ∧ ∀ p, ¬ pool.HasId p id) ∨
      ∃ p conn, pool.conns p = some conn ∧ connLookup pool id =
          some (some p, pool.setConn p { conn with refcnt := conn.refcnt + 1 }) ∧
        pool.HasId p id ∧ ∀ q, pool.HasId q id → q ≤ p := by
  obtain ⟨hfind, hnone⟩ | ⟨p, hfind, hid, hnewest⟩ := inv.find id
  · refine .inl ⟨?_, hnone⟩
    rw [connLookup, hfind]
    rfl
  · obtain ⟨conn, hconn, -⟩ := Option.map_eq_some_iff.mp hid.2
    refine .inr ⟨p, conn, hconn, ?_, hid, hnewest⟩
    simp [connLookup, hfind, hconn]

/-! ## Purging -/

/-- The id is not a link. -/
lemma connId_of_offLink {conn conn' : Option Conn}
    (h : conn'.map Conn.offLink = conn.map Conn.offLink) :
    conn'.map Conn.connId = conn.map Conn.connId := by
  have := congrArg (Option.map Conn.connId) h
  rwa [Option.map_map, Option.map_map] at this

/-- The counter of a purge does not wrap. -/
lemma count_of_swept {c c' : UInt64} {r k : Nat} (h : c' + UInt64.ofNat r = c + UInt64.ofNat k)
    (hk : k ≤ r) (hr : r ≤ c.toNat) : c'.toNat + r = c.toNat + k := by
  have hc := c.toNat_lt
  have hc' := c'.toNat_lt
  have hsum := congrArg UInt64.toNat h
  rw [UInt64.toNat_add, UInt64.toNat_add, UInt64.toNat_ofNat', UInt64.toNat_ofNat',
    Nat.mod_eq_of_lt (hr.trans_lt hc), Nat.mod_eq_of_lt ((hk.trans hr).trans_lt hc)] at hsum
  omega

/-- A purged bucket keeps the table. -/
lemma sweepChain (inv : pool.Table chains) (sel : Ptr → Conn → Bool) {i : Nat}
    (hi : i < connPoolBuckets) (purged : Int) :
    ∃ n pool' kept, sweepChain sel pool.fresh pool (.bucket i) purged = some (n, pool') ∧
      Swept sel pool pool' (.bucket i) (chains i) kept ∧
      pool'.Table (update chains i kept) := by
  obtain ⟨n, pool', kept, e, post⟩ := sweepChain_spec sel (.bucket i) purged rfl (inv.chain i)
    (fun _ _ => Slot.noConfusion) (inv.length_le i)
  have hsub : kept.Sublist (chains i) := by
    rw [post.kept_eq]
    exact List.filter_sublist
  have hcount := count_of_swept post.count hsub.length_le (inv.count ▸ length_le_total chains hi)
  refine ⟨n, pool', kept, e, post, post.purged.chains inv.toChains, fun j p hp => ?_, fun j => ?_,
    ?_, ?_⟩
  · have hdata : (pool'.conns p).map Conn.offLink = (pool.conns p).map Conn.offLink ∧
        p ∈ chains j := by
      by_cases hj : j = i
      · subst hj
        rw [update_self] at hp
        exact ⟨post.data p fun _ => hp, hsub.subset hp⟩
      · rw [update_of_ne hj] at hp
        exact ⟨post.data p fun hm => absurd hm (inv.disjoint j i hj hp), hp⟩
    obtain ⟨conn, hconn, hb⟩ := inv.placed j p hdata.2
    have hid := connId_of_offLink hdata.1
    rw [hconn, Option.map_some] at hid
    obtain ⟨conn', hconn', hid⟩ := Option.map_eq_some_iff.mp hid
    exact ⟨conn', hconn', hid ▸ hb⟩
  · by_cases hj : j = i
    · subst hj
      rw [update_self]
      exact (inv.newest j).sublist hsub
    · rw [update_of_ne hj]
      exact inv.newest j
  · have htotal := total_update chains hi kept
    rw [inv.count] at hcount
    omega
  · have hle := hsub.length_le
    rw [post.maxConn, UInt64.le_iff_toNat_le]
    exact le_trans (by omega) (UInt64.le_iff_toNat_le.mp inv.le)

/-- A purge returns. The connections that it leaves in the pool were there before and have changed
nothing but their links. -/
lemma sweepBuckets (inv : pool.Table chains) (sel : Ptr → Conn → Bool) {is : List Nat}
    (his : ∀ i ∈ is, i < connPoolBuckets) (purged : Int) :
    ∃ n pool' chains', sweepBuckets sel is pool purged = some (n, pool') ∧ pool'.Table chains' ∧
      pool'.fresh = pool.fresh ∧ ∀ i, ∀ p ∈ chains' i, p ∈ chains i ∧
        (pool'.conns p).map Conn.offLink = (pool.conns p).map Conn.offLink := by
  induction is generalizing pool chains purged with
  | nil => exact ⟨purged, pool, chains, rfl, inv, rfl, fun _ _ hp => ⟨hp, rfl⟩⟩
  | cons i is ih =>
    obtain ⟨hi, his⟩ := List.forall_mem_cons.mp his
    obtain ⟨n, pool₁, kept, e, post, inv₁⟩ := inv.sweepChain sel hi purged
    obtain ⟨n', pool', chains', e', inv', hfresh, hkept⟩ := ih inv₁ his n
    refine ⟨n', pool', chains', ?_, inv', hfresh.trans post.fresh, fun j p hp => ?_⟩
    · rw [Connection.sweepBuckets, e]
      exact e'
    · obtain ⟨hp, hdata⟩ := hkept j p hp
      by_cases hj : j = i
      · subst hj
        rw [update_self] at hp
        exact ⟨post.purged.sub hp, hdata.trans (post.data p fun _ => hp)⟩
      · rw [update_of_ne hj] at hp
        exact ⟨hp, hdata.trans (post.data p fun hm => absurd hm (inv.disjoint j i hj hp))⟩

/-- A sweep keeps the table. -/
lemma sweep (inv : pool.Table chains) (sel : Ptr → Conn → Bool) :
    ∃ n pool' chains', connSweep sel pool = some (n, pool') ∧ pool'.Table chains' ∧
      pool'.fresh = pool.fresh ∧ ∀ i, ∀ p ∈ chains' i, p ∈ chains i ∧
        (pool'.conns p).map Conn.offLink = (pool.conns p).map Conn.offLink :=
  inv.sweepBuckets sel (fun _ hi => List.mem_range.mp hi) 0

end Pool.Table

/-! ## Structure -/

lemma connRelease_connId (conn : Conn) : (connRelease conn).connId = conn.connId := by
  rw [connRelease]; dsimp only; split <;> rfl

lemma connRelease_userData (conn : Conn) : (connRelease conn).userData = conn.userData := by
  rw [connRelease]; dsimp only; split <;> rfl

lemma connClose_connId (conn : Conn) : (connClose conn).connId = conn.connId := by
  simp [connClose]

lemma connClose_userData (conn : Conn) : (connClose conn).userData = conn.userData := by
  simp [connClose]

/-- Every operation keeps the table. -/
lemma PoolOp.table {pool pool' : Pool} {op : PoolOp} (inv : ∃ chains, pool.Table chains)
    (h : op.apply pool = some pool') : ∃ chains, pool'.Table chains := by
  obtain ⟨chains, inv⟩ := inv
  cases op with
  | create draws fd connId =>
    cases h
    exact inv.create draws fd connId
  | lookup id =>
    obtain ⟨e, -⟩ | ⟨p, conn, hp, e, -⟩ := inv.lookup id
    · rw [apply, e] at h
      cases h
      exact ⟨chains, inv⟩
    · rw [apply, e] at h
      cases h
      exact ⟨chains, inv.setConn hp rfl rfl⟩
  | release p =>
    exact ⟨chains, inv.onConn (fun conn => congrArg _ (connRelease_userData conn))
      connRelease_connId h⟩
  | setState p new =>
    exact ⟨chains, inv.onConn (fun conn => congrArg _ (connSetState_userData conn new))
      (fun conn => connSetState_connId conn new) h⟩
  | close p =>
    exact ⟨chains, inv.onConn (fun conn => congrArg _ (connClose_userData conn))
      connClose_connId h⟩
  | purge sel =>
    obtain ⟨n, pool₁, chains', e, inv', -⟩ := inv.sweep sel
    rw [apply, e] at h
    cases h
    exact ⟨chains', inv'⟩

/-- A run keeps the table. -/
lemma poolRun_table {maxConn : UInt64} {nextId : UInt32} {ops : List PoolOp} {pool : Pool}
    (h : poolRun maxConn nextId ops = some pool) : ∃ chains, pool.Table chains :=
  run_invariant (P := fun pool => ∃ chains, pool.Table chains) PoolOp.table
    ⟨_, Pool.Table.init maxConn nextId⟩ h

/-- The chains end, have no connection twice and none in common, and hold each connection in the
bucket of its id; the counter is the number of their connections and not above the limit. Lookups
and purges return, and a lookup finds the newest linked connection with an id. -/
structure Pool.Structured (pool : Pool) : Prop where
  chains : ∃ chains : Nat → List Ptr,
    (∀ i, Chain pool.next (pool.buckets i) (chains i) ∧ (chains i).Nodup) ∧
    (∀ i j, i ≠ j → List.Disjoint (chains i) (chains j)) ∧
    (∀ i, ∀ p ∈ chains i, ∃ conn, pool.conns p = some conn ∧
      i = (connHash conn.connId).toNat % connPoolBuckets) ∧
    pool.count.toNat = ∑ i ∈ Finset.range connPoolBuckets, (chains i).length
  le : pool.count ≤ pool.maxConn
  lookup : ∀ id, ∃ r pool', connLookup pool id = some (r, pool') ∧
    (r = none ↔ ∀ p, ¬ pool.HasId p id) ∧
    ∀ p ∈ r, pool.HasId p id ∧ ∀ q, pool.HasId q id → q ≤ p
  purge : ∀ sel, (connSweep sel pool).isSome

/-- What the table says of the pool. -/
lemma Pool.Table.structured {pool : Pool} {chains : Nat → List Ptr} (inv : pool.Table chains) :
    pool.Structured where
  chains := by
    refine ⟨chains, fun i => ⟨inv.chain i, (inv.chain i).nodup⟩, inv.disjoint, fun i p hp => ?_,
      inv.count⟩
    obtain ⟨conn, hconn, hi⟩ := inv.placed i p hp
    exact ⟨conn, hconn, hi.symm⟩
  le := inv.le
  lookup id := by
    obtain ⟨e, hnone⟩ | ⟨p, conn, -, e, hid, hnewest⟩ := inv.lookup id
    · exact ⟨none, pool, e, ⟨fun _ => hnone, fun _ => rfl⟩, fun p hp => by cases hp⟩
    · refine ⟨some p, _, e, ⟨fun h => (by cases h), fun h => absurd hid (h p)⟩, fun q hq => ?_⟩
      cases hq
      exact ⟨hid, hnewest⟩
  purge sel := by
    obtain ⟨n, pool', _, e, -⟩ := inv.sweep sel
    rw [e]
    rfl

/-- The structure of the pool after every run. -/
theorem pool_structure (maxConn : UInt64) (nextId : UInt32) (ops : List PoolOp) (pool : Pool)
    (h : poolRun maxConn nextId ops = some pool) : pool.Structured := by
  obtain ⟨chains, inv⟩ := poolRun_table h
  exact inv.structured

/-- A creation for which everything is available. -/
def CreateDraws.plenty : CreateDraws := ⟨true, true, true, true, ⟨0, 0⟩⟩

/-- Two connections with one id, of which the second is looked up, closed and released. -/
theorem pool_structure_sample :
    ∃ pool, poolRun 4 1 [.create .plenty 3 7, .create .plenty 4 7, .lookup 7,
      .setState 1 .connecting, .close 1, .release 1] = some pool ∧ pool.Structured := by
  have hrun : (poolRun 4 1 [.create .plenty 3 7, .create .plenty 4 7, .lookup 7,
      .setState 1 .connecting, .close 1, .release 1]).isSome = true := by decide +kernel
  obtain ⟨pool, h⟩ := Option.isSome_iff_exists.mp hrun
  exact ⟨pool, h, pool_structure 4 1 _ pool h⟩

end RoboControl.Connection
