import RoboControl.Connection.Lifecycle

/-!
# References to connections

Runs that count the references which the program holds: those it got from `rc_conn_create` and from
`rc_conn_lookup` and has not given back (`RefPool`). `rc_conn_release` tears a connection down with
its last reference but takes it out of no chain; only a purge does. So every linked connection has a
reference and its ring buffers exactly as long as no last reference is given back while the
connection is linked (`references_sound_iff`). References are counted in the 32 bits that `refcnt`
has.
-/

namespace RoboControl.Connection
open Base Proto Crypto Function

/-! ## Runs -/

/-- A pool, and the number of references to each connection that the program holds. -/
structure RefPool where
  pool : Pool
  refs : Ptr → Nat

/-- The references after one more was returned, if any. -/
def gain (refs : Ptr → Nat) : Option Ptr → Ptr → Nat
  | none => refs
  | some p => update refs p (refs p + 1)

/-- The pool and the references after an operation. -/
def RefPool.apply (s : RefPool) : PoolOp → Option RefPool
  | .create draws fd connId =>
    let r := connCreate draws s.pool fd connId
    some ⟨r.2, gain s.refs r.1⟩
  | .lookup connId => (connLookup s.pool connId).map fun r => ⟨r.2, gain s.refs r.1⟩
  | .release p =>
    (PoolOp.apply s.pool (.release p)).map (⟨·, update s.refs p (s.refs p - 1)⟩)
  | .setState p new => (PoolOp.apply s.pool (.setState p new)).map (⟨·, s.refs⟩)
  | .close p => (PoolOp.apply s.pool (.close p)).map (⟨·, s.refs⟩)
  | .purge sel => (PoolOp.apply s.pool (.purge sel)).map (⟨·, s.refs⟩)

/-- The pool and the references after operations in order. -/
def refRun (maxConn : UInt64) (nextId : UInt32) (ops : List PoolOp) : Option RefPool :=
  ops.foldlM RefPool.apply ⟨connPoolInit maxConn nextId, fun _ => 0⟩

/-- Only references that are held are given back. -/
def RefPool.Held (s : RefPool) : PoolOp → Prop
  | .release p => 0 < s.refs p
  | _ => True

/-- Only references that are held are given back, and the last one of a connection, as `refcnt`
counts them, only when the connection is not linked any more. -/
def RefPool.Safe (s : RefPool) : PoolOp → Prop
  | .release p => 0 < s.refs p ∧ (s.pool.Linked p → UInt32.ofNat (s.refs p) ≠ 1)
  | _ => True

/-- A connection without references is not linked, and the counter is the number of linked
connections. Linked connections, and so those that a lookup returns, have their ring buffers, and a
full pool has as many connections with references as it may have. -/
structure RefPool.Sound (s : RefPool) : Prop where
  released : ∀ p, s.refs p = 0 → ¬ s.pool.Linked p
  counted : ∃ l : List Ptr, l.Nodup ∧ (∀ p, p ∈ l ↔ s.pool.Linked p) ∧ s.pool.count.toNat = l.length
  intact : ∀ p, s.pool.Linked p → ∃ conn, s.pool.conns p = some conn ∧ conn.Intact
  lookup : ∀ id p pool', connLookup s.pool id = some (some p, pool') →
    ∃ conn, s.pool.conns p = some conn ∧ conn.Intact
  full : s.pool.count ≥ s.pool.maxConn →
    ∃ l : List Ptr, l.Nodup ∧ l.length = s.pool.maxConn.toNat ∧ ∀ p ∈ l, 0 < s.refs p

/-! ## Counting -/

section References
variable {s s' : RefPool} {pool : Pool} {chains : Nat → List Ptr} {p : Ptr} {conn conn' : Conn}

/-- Every linked connection has a reference and its ring buffers, and `refcnt` counts
its references. -/
structure RefPool.Counted (s : RefPool) : Prop where
  table : ∃ chains, s.pool.Table chains
  unborn : ∀ p, s.pool.fresh ≤ p → s.refs p = 0
  pos : ∀ p, s.pool.Linked p → 0 < s.refs p
  conn : ∀ p conn, s.pool.Linked p → s.pool.conns p = some conn →
    conn.refcnt = UInt32.ofNat (s.refs p) ∧ conn.Intact

/-- All linked connections in one list. -/
lemma Pool.Table.linked_list (inv : pool.Table chains) :
    ∃ l : List Ptr, l.Nodup ∧ (∀ p, p ∈ l ↔ pool.Linked p) ∧ pool.count.toNat = l.length := by
  refine ⟨(List.range connPoolBuckets).flatMap chains, ?_, fun p => ?_, ?_⟩
  · refine List.nodup_flatMap.mpr ⟨fun i _ => (inv.chain i).nodup, ?_⟩
    exact List.nodup_range.imp fun {i j} hij => inv.disjoint i j hij
  · rw [inv.linked_iff, List.mem_flatMap]
    simp only [List.mem_range]
  · rw [inv.count, total, List.length_flatMap]
    rfl

/-- Counted references are sound. -/
lemma RefPool.Counted.sound (h : s.Counted) : s.Sound := by
  obtain ⟨chains, inv⟩ := h.table
  obtain ⟨l, hnd, hmem, hlen⟩ := inv.linked_list
  have hintact : ∀ p, s.pool.Linked p → ∃ conn, s.pool.conns p = some conn ∧ conn.Intact :=
    fun p hp => by
      obtain ⟨i, _, hi⟩ := (inv.linked_iff p).mp hp
      obtain ⟨conn, hconn, -⟩ := inv.placed i p hi
      exact ⟨conn, hconn, (h.conn p conn hp hconn).2⟩
  refine ⟨fun p h0 hp => ?_, ⟨l, hnd, hmem, hlen⟩, hintact, fun id p pool' e => ?_, fun hfull => ?_⟩
  · exact (h.pos p hp).ne' h0
  · obtain ⟨e', -⟩ | ⟨q, conn, -, e', hq, -⟩ := inv.lookup id
    · cases e'.symm.trans e
    · cases e'.symm.trans e
      exact hintact _ hq.1
  · refine ⟨l, hnd, ?_, fun p hp => h.pos p ((hmem p).mp hp)⟩
    rw [← hlen, UInt64.le_antisymm inv.le hfull]

/-- A changed connection that keeps its links, with the references that it has then. -/
lemma RefPool.Counted.setConn (h : s.Counted) (hp : s.pool.conns p = some conn)
    (hu : conn'.userData = conn.userData) (hid : conn'.connId = conn.connId) (n : Nat)
    (hlinked : s.pool.Linked p → 0 < n ∧ conn'.refcnt = UInt32.ofNat n ∧ conn'.Intact) :
    RefPool.Counted ⟨s.pool.setConn p conn', update s.refs p n⟩ := by
  obtain ⟨chains, inv⟩ := h.table
  have hlink := Pool.linked_setConn hp (congrArg UserData.link hu)
  have hlt : p < s.pool.fresh := by
    by_contra hge
    rw [inv.fresh p (not_lt.mp hge)] at hp
    cases hp
  refine ⟨⟨chains, inv.setConn hp (congrArg _ hu) hid⟩, fun q hq => ?_, fun q hq => ?_,
    fun q c hq hc => ?_⟩
  · have hqp : q ≠ p := fun e => (hlt.trans_le hq).ne e.symm
    exact (update_of_ne hqp _ _).trans (h.unborn q hq)
  · rw [hlink] at hq
    by_cases hqp : q = p
    · subst hqp
      simpa using (hlinked hq).1
    · simpa [hqp] using h.pos q hq
  · rw [hlink] at hq
    by_cases hqp : q = p
    · subst hqp
      cases (s.pool.conns_setConn_self q conn').symm.trans hc
      simpa using (hlinked hq).2
    · have hc := (s.pool.conns_setConn_of_ne hqp conn').symm.trans hc
      simpa [hqp] using h.conn q c hq hc

/-- A changed connection that keeps its links, its references and its ring buffers. -/
lemma RefPool.Counted.onConn (h : s.Counted) {f : Conn → Conn}
    (hu : ∀ conn, (f conn).userData = conn.userData) (hid : ∀ conn, (f conn).connId = conn.connId)
    (hrefs : ∀ conn, (f conn).refcnt = conn.refcnt)
    (hbufs : ∀ conn, (f conn).sendBuf = conn.sendBuf ∧ (f conn).recvBuf = conn.recvBuf)
    {pool' : Pool} (e : s.pool.onConn p f = some pool') : RefPool.Counted ⟨pool', s.refs⟩ := by
  obtain ⟨conn, hp, rfl⟩ := Option.map_eq_some_iff.mp e
  have := h.setConn hp (hu conn) (hid conn) (s.refs p) fun hl => by
    obtain ⟨hr, hi⟩ := h.conn p conn hl hp
    refine ⟨h.pos p hl, (hrefs conn).trans hr, ?_⟩
    rwa [Conn.Intact, (hbufs conn).1, (hbufs conn).2]
  rwa [update_eq_self] at this

/-- A connection is created. -/
lemma RefPool.Counted.create (h : s.Counted) (draws : CreateDraws) (fd : Int) (connId : UInt32) :
    RefPool.Counted ⟨(connCreate draws s.pool fd connId).2,
      gain s.refs (connCreate draws s.pool fd connId).1⟩ := by
  obtain ⟨chains, inv⟩ := h.table
  have htable := inv.create draws fd connId
  obtain ⟨nextId, e⟩ | ⟨nextId, conn, new, e⟩ := connCreate_cases draws s.pool fd connId
  · rw [e] at htable ⊢
    exact ⟨htable, h.unborn, h.pos, h.conn⟩
  · rw [e] at htable ⊢
    have hfresh : (s.pool.insert (bucketOf conn.connId) conn nextId).conns s.pool.fresh =
      some conn :=
      update_self _ _ _
    have hold : ∀ q, q ≠ s.pool.fresh →
        (s.pool.insert (bucketOf conn.connId) conn nextId).conns q = s.pool.conns q :=
      fun q hq => update_of_ne hq _ _
    have hone : s.refs s.pool.fresh + 1 = 1 := by rw [h.unborn _ le_rfl]
    refine ⟨htable, fun q hq => ?_, fun q hq => ?_, fun q c hq hc => ?_⟩
    · have hlt : s.pool.fresh < q := hq
      simpa [gain, hlt.ne'] using h.unborn q hlt.le
    · by_cases hqf : q = s.pool.fresh
      · simp [gain, hqf]
      · simpa [gain, hqf] using h.pos q (((inv.linked_insert new nextId q).mp hq).resolve_left hqf)
    · by_cases hqf : q = s.pool.fresh
      · subst hqf
        cases hfresh.symm.trans hc
        simp only [gain, update_self, hone]
        exact ⟨new.refcnt, new.intact⟩
      · have hq' := ((inv.linked_insert new nextId q).mp hq).resolve_left hqf
        simpa [gain, hqf] using h.conn q c hq' ((hold q hqf).symm.trans hc)

/-- The purge of connections changes no reference of those that stay. -/
lemma RefPool.Counted.purge (h : s.Counted) {sel : Ptr → Conn → Bool} {n : Int} {pool' : Pool}
    (e : connSweep sel s.pool = some (n, pool')) : RefPool.Counted ⟨pool', s.refs⟩ := by
  obtain ⟨chains, inv⟩ := h.table
  obtain ⟨n', pool₁, chains', e', inv', hfresh, hkept⟩ := inv.sweep sel
  cases e'.symm.trans e
  have hlinked : ∀ q, pool'.Linked q → s.pool.Linked q ∧
      (pool'.conns q).map Conn.offLink = (s.pool.conns q).map Conn.offLink := fun q hq => by
    obtain ⟨i, hi, hq⟩ := (inv'.linked_iff q).mp hq
    obtain ⟨hq, hdata⟩ := hkept i q hq
    exact ⟨(inv.linked_iff q).mpr ⟨i, hi, hq⟩, hdata⟩
  refine ⟨⟨chains', inv'⟩, fun q hq => ?_, fun q hq => h.pos q (hlinked q hq).1,
    fun q c hq hc => ?_⟩
  · rw [hfresh] at hq
    exact h.unborn q hq
  · obtain ⟨hq, hdata⟩ := hlinked q hq
    rw [hc, Option.map_some, eq_comm] at hdata
    obtain ⟨c₀, hc₀, hoff⟩ := Option.map_eq_some_iff.mp hdata
    obtain ⟨hr, hi⟩ := h.conn q c₀ hq hc₀
    refine ⟨(congrArg Conn.refcnt hoff).symm.trans hr, ?_⟩
    have hsend : c₀.sendBuf = c.sendBuf := (congrArg Conn.sendBuf hoff :)
    have hrecv : c₀.recvBuf = c.recvBuf := (congrArg Conn.recvBuf hoff :)
    rwa [Conn.Intact, hsend, hrecv] at hi

/-- A released reference is given back in both counts. -/
lemma RefPool.Counted.release (h : s.Counted) (hp : s.pool.conns p = some conn)
    (hsafe : s.Safe (.release p)) : RefPool.Counted
      ⟨s.pool.setConn p (connRelease conn), update s.refs p (s.refs p - 1)⟩ := by
  obtain ⟨hheld, hlast⟩ := hsafe
  refine h.setConn hp (connRelease_userData conn) (connRelease_connId conn) _ fun hl => ?_
  obtain ⟨hr, hi⟩ := h.conn p conn hl hp
  obtain ⟨n, hn⟩ := Nat.exists_eq_add_one_of_ne_zero hheld.ne'
  have hne := hlast hl
  have hkeep : connRelease conn = { conn with refcnt := conn.refcnt - 1 } := by
    rw [connRelease, hr]
    exact if_neg hne
  rw [hn] at hne hr ⊢
  rw [Nat.add_sub_cancel, hkeep, hr, UInt32.ofNat_add]
  refine ⟨Nat.pos_of_ne_zero ?_, ?_, hi⟩
  · rintro rfl
    exact hne rfl
  · exact UInt32.add_sub_cancel _ _

lemma connClose_keeps (conn : Conn) : (connClose conn).refcnt = conn.refcnt ∧
    (connClose conn).sendBuf = conn.sendBuf ∧ (connClose conn).recvBuf = conn.recvBuf := by
  simp [connClose]

/-- Every operation that is safe keeps the counts. -/
lemma RefPool.Counted.step (h : s.Counted) {op : PoolOp} (hsafe : s.Safe op)
    (e : s.apply op = some s') : s'.Counted := by
  obtain ⟨chains, inv⟩ := h.table
  cases op with
  | create draws fd connId =>
    cases e
    exact h.create draws fd connId
  | lookup id =>
    rw [apply] at e
    obtain ⟨e', -⟩ | ⟨p, conn, hp, e', -⟩ := inv.lookup id
    · rw [e'] at e
      cases e
      exact h
    · rw [e'] at e
      cases e
      refine h.setConn hp (by rfl) (by rfl) _ fun hl => ?_
      obtain ⟨hr, hi⟩ := h.conn p conn hl hp
      refine ⟨Nat.succ_pos _, ?_, hi⟩
      rw [UInt32.ofNat_add, ← hr]
      rfl
  | release p =>
    obtain ⟨pool', e', rfl⟩ := Option.map_eq_some_iff.mp e
    obtain ⟨conn, hp, rfl⟩ := Option.map_eq_some_iff.mp e'
    exact h.release hp hsafe
  | setState p new =>
    obtain ⟨pool', e', rfl⟩ := Option.map_eq_some_iff.mp e
    exact h.onConn (connSetState_userData · new) (connSetState_connId · new)
      (connSetState_refcnt · new) (connSetState_bufs · new) e'
  | close p =>
    obtain ⟨pool', e', rfl⟩ := Option.map_eq_some_iff.mp e
    exact h.onConn connClose_userData connClose_connId (fun conn => (connClose_keeps conn).1)
      (fun conn => (connClose_keeps conn).2) e'
  | purge sel =>
    rw [apply, PoolOp.apply, Option.map_map, Option.map_eq_some_iff] at e
    obtain ⟨⟨n, pool'⟩, e', rfl⟩ := e
    exact h.purge e'

/-- The last reference takes the ring buffers with it. -/
lemma not_intact_connRelease (h : conn.refcnt = 1) : ¬ (connRelease conn).Intact := fun hi => by
  rw [connRelease, if_pos h] at hi
  exact hi.1 rfl

/-- A new pool. -/
lemma RefPool.Counted.init (maxConn : UInt64) (nextId : UInt32) :
    RefPool.Counted ⟨connPoolInit maxConn nextId, fun _ => 0⟩ := by
  have inv := Pool.Table.init maxConn nextId
  have hnone : ∀ p, ¬ (connPoolInit maxConn nextId).Linked p := fun p hp => by
    obtain ⟨i, -, hi⟩ := (inv.linked_iff p).mp hp
    cases hi
  exact ⟨⟨_, inv⟩, fun _ _ => rfl, fun p hp => absurd hp (hnone p),
    fun p _ hp => absurd hp (hnone p)⟩

/-- A step by which only held references are given back keeps the pool sound exactly
if it is safe. -/
lemma RefPool.Counted.sound_iff (h : s.Counted) {op : PoolOp} (hheld : s.Held op)
    (e : s.apply op = some s') : s'.Sound ↔ s.Safe op := by
  refine ⟨fun sound => ?_, fun hsafe => (h.step hsafe e).sound⟩
  cases op with
  | release p =>
    obtain ⟨pool', e', rfl⟩ := Option.map_eq_some_iff.mp e
    obtain ⟨conn, hp, rfl⟩ := Option.map_eq_some_iff.mp e'
    refine ⟨hheld, fun hl hlast => ?_⟩
    have hl' := (Pool.linked_setConn hp (congrArg UserData.link (connRelease_userData conn)) p).mpr
      hl
    obtain ⟨conn', hconn', hi⟩ := sound.intact p hl'
    cases (s.pool.conns_setConn_self p (connRelease conn)).symm.trans hconn'
    exact not_intact_connRelease ((h.conn p conn hl hp).1.trans hlast) hi
  | _ => trivial

end References

/-- In a run that gives back the last reference of a connection only when the connection is not
linked any more, references, counter and ring buffers fit together; the next operation keeps this
exactly if it gives back no last reference of a linked connection either. -/
theorem references_sound_iff (maxConn : UInt64) (nextId : UInt32) (ops : List PoolOp) (s : RefPool)
    (hsafe : Along RefPool.apply RefPool.Safe ⟨connPoolInit maxConn nextId, fun _ => 0⟩ ops)
    (h : refRun maxConn nextId ops = some s) :
    s.Sound ∧ ∀ op s', s.Held op → s.apply op = some s' → (s'.Sound ↔ s.Safe op) := by
  have counted : s.Counted := hsafe.invariant (fun hs hC e => hs.step hC e)
    (RefPool.Counted.init maxConn nextId) h
  exact ⟨counted.sound, fun op s' hheld e => counted.sound_iff hheld e⟩

/-- A connection is looked up and one of its two references is given back. -/
theorem references_sound_sample :
    ∃ s, refRun 1 1 [.create .plenty 3 7, .lookup 7, .release 0] = some s ∧ s.Sound := by
  have hrun : (refRun 1 1 [.create .plenty 3 7, .lookup 7, .release 0]).isSome = true := by
    decide +kernel
  obtain ⟨s, h⟩ := Option.isSome_iff_exists.mp hrun
  have hsafe : Along RefPool.apply RefPool.Safe ⟨connPoolInit 1 1, fun _ => 0⟩
      [.create .plenty 3 7, .lookup 7, .release 0] := by
    refine ⟨trivial, fun s₁ h₁ => ⟨trivial, fun s₂ h₂ => ⟨?_, fun _ _ => trivial⟩⟩⟩
    have hrefs : s₂.refs 0 = 2 := by
      cases h₁
      have htwo := congrArg (Option.map fun s => s.refs 0) h₂
      exact (Option.some.inj (htwo.symm.trans (by decide +kernel)))
    rw [RefPool.Safe, hrefs]
    exact ⟨by decide, fun _ => by decide⟩
  exact ⟨s, h, (references_sound_iff 1 1 _ s hsafe h).1⟩

/-- A connection whose only reference was given back is still linked and counted. A lookup returns
it without its ring buffers, and the pool is full although no connection has a reference. -/
theorem released_connection_stays :
    ∃ s, refRun 1 1 [.create .plenty 3 7, .release 0] = some s ∧ (∀ p, s.refs p = 0) ∧
      s.pool.Linked 0 ∧ s.pool.count = 1 ∧
      (connLookup s.pool 7).map Prod.fst = some (some 0) ∧
      (s.pool.conns 0).map (·.sendBuf.size) = some 0 ∧
      s.pool.count ≥ s.pool.maxConn ∧ (connCreate .plenty s.pool 4 8).1 = none := by
  refine ⟨_, rfl, fun p => ?_, ?_, by decide +kernel, by decide +kernel, by decide +kernel,
    by decide +kernel, by decide +kernel⟩
  · by_cases hp : p = 0
    · subst hp
      decide +kernel
    · exact (update_of_ne hp _ _).trans (update_of_ne hp _ _)
  · refine ⟨bucketOf 7, bucketOf_lt 7, [0], ?_, List.mem_singleton_self 0⟩
    refine Eq.subst (motive := (Chain _ · [0])) (?_ : some 0 = _) (.cons (q := none) ?_ .nil)
    · decide +kernel
    · decide +kernel

end RoboControl.Connection
