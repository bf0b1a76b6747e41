import RoboControl.Connection.Lifecycle

/-!
# Connection ids

`rc_conn_create` does not look for the id of a new connection in the pool. So ids are unique exactly
as long as every connection is created with an id that is not `0` and that no linked connection has,
be it proposed by the caller or taken from the counter (`conn_ids_unique_iff`).
-/

namespace RoboControl.Connection
open Base Proto Crypto

/-- No two linked connections have the same id, and none has the id `0`. -/
structure Pool.UniqueIds (pool : Pool) : Prop where
  inj : ∀ p q id, pool.HasId p id → pool.HasId q id → p = q
  ne_zero : ∀ p, ¬ pool.HasId p 0

/-- The id that `rc_conn_create` gives to a connection. -/
def Pool.assignedId (pool : Pool) (connId : UInt32) : UInt32 :=
  if connId = 0 then pool.nextId else connId

/-- An operation creates no connection, or one with an id that is not in use and not `0`. -/
def PoolOp.FreshId (pool : Pool) : PoolOp → Prop
  | .create draws fd connId => (connCreate draws pool fd connId).1 ≠ none →
    pool.assignedId connId ≠ 0 ∧ ∀ p, ¬ pool.HasId p (pool.assignedId connId)
  | _ => True

section Ids
variable {pool pool' : Pool} {chains : Nat → List Ptr} {p : Ptr} {conn conn' : Conn} {id : UInt32}

/-- Where a connection with an id is. -/
lemma Pool.Table.hasId_iff (inv : pool.Table chains) :
    pool.HasId p id ↔ p ∈ chains (bucketOf id) ∧ (pool.conns p).map Conn.connId = some id := by
  refine and_congr_left fun h => ?_
  obtain ⟨conn, hconn, rfl⟩ := Option.map_eq_some_iff.mp h
  exact inv.linked_iff_mem hconn

/-- A new connection adds its own id. -/
lemma Pool.Table.hasId_insert (inv : pool.Table chains) {connId : UInt32}
    (new : Created pool connId conn) (nextId : UInt32) :
    (pool.insert (bucketOf conn.connId) conn nextId).HasId p id ↔
      (p = pool.fresh ∧ id = conn.connId) ∨ pool.HasId p id := by
  rw [Pool.HasId, inv.linked_insert new, Pool.HasId]
  by_cases hp : p = pool.fresh
  · subst hp
    have hconn : (pool.insert (bucketOf conn.connId) conn nextId).conns pool.fresh = some conn :=
      Function.update_self _ _ _
    simp [hconn, inv.fresh pool.fresh le_rfl, eq_comm]
  · have hconn : (pool.insert (bucketOf conn.connId) conn nextId).conns p = pool.conns p :=
      Function.update_of_ne hp _ _
    simp [hconn, hp]

/-- A change that keeps the id. -/
lemma Pool.hasId_setConn (hp : pool.conns p = some conn)
    (hu : conn'.userData.link = conn.userData.link) (hid : conn'.connId = conn.connId) (q : Ptr) :
    (pool.setConn p conn').HasId q id ↔ pool.HasId q id := by
  refine and_congr (Pool.linked_setConn hp hu q) ?_
  by_cases hq : q = p
  · subst hq
    rw [Pool.conns_setConn_self, hp, Option.map_some, Option.map_some, hid]
  · rw [Pool.conns_setConn_of_ne pool hq]

/-- A change that keeps the id. -/
lemma Pool.hasId_onConn {f : Conn → Conn} (hu : ∀ conn, (f conn).userData = conn.userData)
    (hid : ∀ conn, (f conn).connId = conn.connId) (h : pool.onConn p f = some pool') (q : Ptr) :
    pool'.HasId q id ↔ pool.HasId q id := by
  obtain ⟨conn, hp, rfl⟩ := Option.map_eq_some_iff.mp h
  exact Pool.hasId_setConn hp (congrArg _ (hu conn)) (hid conn) q

/-- An operation gives an id to no connection but a new one. -/
lemma PoolOp.hasId_cases (inv : pool.Table chains) {op : PoolOp} (h : op.apply pool = some pool') :
    (∀ p id, pool'.HasId p id → pool.HasId p id) ∧ op.FreshId pool ∨
      ∃ draws fd connId, op = .create draws fd connId ∧ (connCreate draws pool fd connId).1 ≠ none ∧
        ∀ p id, pool'.HasId p id ↔
          (p = pool.fresh ∧ id = pool.assignedId connId) ∨ pool.HasId p id := by
  cases op with
  | create draws fd connId =>
    obtain ⟨nextId, e⟩ | ⟨nextId, conn, new, e⟩ := connCreate_cases draws pool fd connId
    · rw [apply, e] at h
      cases h
      refine .inl ⟨fun p id hp => hp, fun hne => ?_⟩
      rw [e] at hne
      exact absurd rfl hne
    · rw [apply, e] at h
      cases h
      refine .inr ⟨draws, fd, connId, rfl, by rw [e]; exact Option.some_ne_none _, fun p id => ?_⟩
      rw [inv.hasId_insert new, new.id]
      rfl
  | lookup id =>
    refine .inl ⟨fun p id' hp => ?_, trivial⟩
    obtain ⟨e, -⟩ | ⟨q, conn, hq, e, -⟩ := inv.lookup id
    · rw [apply, e] at h
      cases h
      exact hp
    · rw [apply, e] at h
      cases h
      exact (Pool.hasId_setConn hq (by rfl) (by rfl) p).mp hp
  | release q =>
    refine .inl ⟨fun p id hp => ?_, trivial⟩
    exact (Pool.hasId_onConn connRelease_userData connRelease_connId h p).mp hp
  | setState q new =>
    refine .inl ⟨fun p id hp => ?_, trivial⟩
    exact (Pool.hasId_onConn (fun conn => connSetState_userData conn new)
      (fun conn => connSetState_connId conn new) h p).mp hp
  | close q =>
    refine .inl ⟨fun p id hp => ?_, trivial⟩
    exact (Pool.hasId_onConn connClose_userData connClose_connId h p).mp hp
  | purge sel =>
    refine .inl ⟨fun p id hp => ?_, trivial⟩
    obtain ⟨n, pool₁, chains', e, inv', -, hkept⟩ := inv.sweep sel
    rw [apply, e] at h
    cases h
    obtain ⟨hmem, hid⟩ := inv'.hasId_iff.mp hp
    obtain ⟨hmem, hdata⟩ := hkept _ p hmem
    exact inv.hasId_iff.mpr ⟨hmem, (Pool.Table.connId_of_offLink hdata).symm.trans hid⟩

/-- Ids stay unique in a step exactly if it uses a fresh one. -/
lemma Pool.UniqueIds.step_iff (inv : pool.Table chains) (uniq : pool.UniqueIds) {op : PoolOp}
    (h : op.apply pool = some pool') : pool'.UniqueIds ↔ op.FreshId pool := by
  obtain ⟨hsub, hfresh⟩ | ⟨draws, fd, connId, rfl, hnew, hids⟩ := op.hasId_cases inv h
  · refine ⟨fun _ => hfresh, fun _ => ⟨fun p q id hp hq => ?_, fun p hp => ?_⟩⟩
    · exact uniq.inj p q id (hsub p id hp) (hsub q id hq)
    · exact uniq.ne_zero p (hsub p 0 hp)
  · have hself : pool'.HasId pool.fresh (pool.assignedId connId) := (hids _ _).mpr (.inl ⟨rfl, rfl⟩)
    constructor
    · intro uniq' _
      refine ⟨fun h0 => uniq'.ne_zero pool.fresh (h0 ▸ hself), fun p hp => ?_⟩
      have := uniq'.inj _ _ _ hself ((hids p _).mpr (.inr hp))
      subst this
      exact (inv.lt_fresh (inv.hasId_iff.mp hp).1).ne rfl
    · intro hfresh
      obtain ⟨hne, hnot⟩ := hfresh hnew
      refine ⟨fun p q id hp hq => ?_, fun p hp => ?_⟩
      · obtain ⟨rfl, rfl⟩ | hp := (hids p id).mp hp <;> obtain ⟨rfl, hq'⟩ | hq := (hids q _).mp hq
        · rfl
        · exact absurd hq (hnot q)
        · exact absurd (hq' ▸ hp) (hnot p)
        · exact uniq.inj p q id hp hq
      · obtain ⟨-, h0⟩ | hp := (hids p 0).mp hp
        · exact hne h0.symm
        · exact uniq.ne_zero p hp

end Ids

/-- In a run whose creations use fresh ids, ids are unique and a lookup returns the connection that
has the id; the next operation keeps this exactly if it uses a fresh id itself. -/
theorem conn_ids_unique_iff (maxConn : UInt64) (nextId : UInt32) (ops : List PoolOp) (pool : Pool)
    (hfresh : Along PoolOp.apply PoolOp.FreshId (connPoolInit maxConn nextId) ops)
    (h : poolRun maxConn nextId ops = some pool) :
    pool.UniqueIds ∧
    (∀ p id, pool.HasId p id → ∃ pool', connLookup pool id = some (some p, pool')) ∧
    ∀ op pool', PoolOp.apply pool op = some pool' → (pool'.UniqueIds ↔ op.FreshId pool) := by
  obtain ⟨⟨chains, inv⟩, uniq⟩ : (∃ chains, pool.Table chains) ∧ pool.UniqueIds := by
    refine hfresh.invariant (P := fun pool => (∃ chains, pool.Table chains) ∧ pool.UniqueIds)
      (fun hpool hC hstep => ?_) ⟨⟨_, .init maxConn nextId⟩, ?_⟩ h
    · obtain ⟨⟨chains, inv⟩, uniq⟩ := hpool
      exact ⟨PoolOp.table ⟨chains, inv⟩ hstep, (uniq.step_iff inv hstep).mpr hC⟩
    · have hnone : ∀ p id, ¬ (connPoolInit maxConn nextId).HasId p id := fun p id hp => by
        cases hp.2
      exact ⟨fun p q id hp => absurd hp (hnone p id), fun p => hnone p 0⟩
  refine ⟨uniq, fun p id hp => ?_, fun op pool' hop => uniq.step_iff inv hop⟩
  obtain ⟨-, hnone⟩ | ⟨q, conn, -, e, hq, -⟩ := inv.lookup id
  · exact absurd hp (hnone p)
  · rw [uniq.inj p q id hp hq]
    exact ⟨_, e⟩

/-- A connection with the first id of the counter is looked up. -/
theorem conn_ids_unique_sample :
    ∃ pool, poolRun 4 1 [.create .plenty 3 0, .lookup 1] = some pool ∧ pool.UniqueIds := by
  have hrun : (poolRun 4 1 [.create .plenty 3 0, .lookup 1]).isSome = true := by decide +kernel
  obtain ⟨pool, h⟩ := Option.isSome_iff_exists.mp hrun
  have hfresh : Along PoolOp.apply PoolOp.FreshId (connPoolInit 4 1)
      [.create .plenty 3 0, .lookup 1] := by
    refine ⟨fun _ => ⟨by decide, fun p hp => ?_⟩, fun _ _ => ⟨trivial, fun _ _ => trivial⟩⟩
    cases hp.2
  exact ⟨pool, h, (conn_ids_unique_iff 4 1 _ pool hfresh h).1⟩

/-- A connection with the proposed id `1`, and one that gets its id from the counter. -/
def twinPool : Pool :=
  (connCreate .plenty (connCreate .plenty (connPoolInit 4 1) 3 1).2 4 0).2

/-- Both connections have the id `1`, and only the second is found. -/
theorem conn_ids_collide :
    poolRun 4 1 [.create .plenty 3 1, .create .plenty 4 0] = some twinPool ∧
    twinPool.HasId 0 1 ∧ twinPool.HasId 1 1 ∧
    (connLookup twinPool 1).map Prod.fst = some (some 1) := by
  have head : twinPool.buckets (bucketOf 1) = some 1 := by decide +kernel
  have chain : Chain twinPool.next (twinPool.buckets (bucketOf 1)) [1, 0] := by
    rw [head]
    exact .cons (q := some 0) (by decide +kernel) (.cons (by decide +kernel) .nil)
  refine ⟨rfl, ⟨⟨_, bucketOf_lt 1, _, chain, by decide⟩, by decide +kernel⟩,
    ⟨⟨_, bucketOf_lt 1, _, chain, by decide⟩, by decide +kernel⟩, by decide +kernel⟩

end RoboControl.Connection
