import RoboControl.Connection.Chains

/-!
# Purging idle connections

What `rc_conn_purge_timeouts` of `src/core/rc_conn.c` takes out of the pool, and which locks it
holds.

The idle time is the difference of two times in seconds and microseconds. The difference of the
microseconds is cast to 64 unsigned bits before it is divided by 1000, so a negative one counts as
584 thousand years. A connection that received something in the last `timeout_ms` milliseconds, but
in the later part of a second, is purged (`purge_exact_iff`).

Each bucket has one of `RC_CONN_POOL_LOCKS` mutexes. The loop over the buckets locks the mutex with
the index of the bucket and unlocks the one of `bucket_lock_idx`. These agree for the first buckets
only (`purge_lock_discipline`). `purgeChainTraced` is `purgeChain` with the locks it takes.
-/

namespace RoboControl.Connection
open Base

/-! ## Idle time -/

namespace Timeval

/-- A time as `gettimeofday` gives it. -/
def Normal (t : Timeval) : Prop := 0 ≤ t.usec ∧ t.usec < 1000000

instance (t : Timeval) : Decidable t.Normal := inferInstanceAs (Decidable (_ ∧ _))

/-- The time in microseconds. -/
def micros (t : Timeval) : Int := t.sec * 1000000 + t.usec

/-- The whole milliseconds from an earlier time on. -/
def msSince (now last : Timeval) : Nat := ((now.micros - last.micros) / 1000).toNat

end Timeval

section Idle
variable {now last : Timeval}

lemma toNat_ofInt (x : Int) : (UInt64.ofInt x).toNat = (x % 2 ^ 64).toNat := by
  rw [UInt64.ofInt, UInt64.toNat_ofNat']
  exact Nat.mod_eq_of_lt (by omega)

/-- What the code computes, in unbounded numbers. -/
lemma idleMs_toNat (now last : Timeval) :
    (idleMs now last).toNat = (((now.sec - last.sec) % 2 ^ 64).toNat * 1000 % 2 ^ 64 +
      ((now.usec - last.usec) % 2 ^ 64).toNat / 1000) % 2 ^ 64 := by
  rw [idleMs, UInt64.toNat_add, UInt64.toNat_mul, UInt64.toNat_div, toNat_ofInt, toNat_ofInt]
  rfl

/-- Without a borrow the idle time is right. -/
lemma idleMs_of_le (hnow : now.Normal) (hlast : last.Normal) (hle : last.micros ≤ now.micros)
    (husec : last.usec ≤ now.usec) (hsec : now.sec - last.sec < 2 ^ 54) :
    (idleMs now last).toNat = now.msSince last := by
  obtain ⟨hnow0, hnow1⟩ := hnow
  obtain ⟨hlast0, hlast1⟩ := hlast
  rw [idleMs_toNat, Timeval.msSince]
  simp only [Timeval.micros] at hle ⊢
  omega

/-- With a borrow the idle time is more than any timeout. -/
lemma idleMs_of_lt (hnow : now.Normal) (hlast : last.Normal) (hle : last.micros ≤ now.micros)
    (husec : now.usec < last.usec) (hsec : now.sec - last.sec < 2 ^ 54) :
    2 ^ 32 ≤ (idleMs now last).toNat := by
  obtain ⟨hnow0, hnow1⟩ := hnow
  obtain ⟨hlast0, hlast1⟩ := hlast
  rw [idleMs_toNat]
  simp only [Timeval.micros] at hle
  omega

/-- Few seconds. -/
lemma sec_lt_of_msSince {n : Nat} (hnow : now.Normal) (hlast : last.Normal) (hn : n < 2 ^ 32)
    (h : now.msSince last ≤ n) : now.sec - last.sec < 2 ^ 54 := by
  obtain ⟨hnow0, hnow1⟩ := hnow
  obtain ⟨hlast0, hlast1⟩ := hlast
  rw [Timeval.msSince] at h
  simp only [Timeval.micros] at h
  omega

/-- The comparison of the idle time with a timeout is right: there is no borrow from the seconds
while the time is not over, and the product with 1000 does not wrap to a small number. -/
def Judged (now last : Timeval) (timeoutMs : UInt32) : Prop :=
  (now.msSince last ≤ timeoutMs.toNat → last.usec ≤ now.usec) ∧
    ((idleMs now last).toNat ≤ timeoutMs.toNat → now.sec - last.sec < 2 ^ 54)

instance (now last : Timeval) (timeoutMs : UInt32) : Decidable (Judged now last timeoutMs) :=
  inferInstanceAs (Decidable ((_ → _) ∧ (_ → _)))

/-- When the idle time is judged right. -/
lemma judged_iff (hnow : now.Normal) (hlast : last.Normal) (hle : last.micros ≤ now.micros)
    (timeoutMs : UInt32) :
    ((idleMs now last > timeoutMs.toUInt64 ↔ timeoutMs.toNat < now.msSince last) ↔
      Judged now last timeoutMs) := by
  have htimeout : timeoutMs.toNat < 2 ^ 32 := timeoutMs.toNat_lt
  rw [gt_iff_lt, UInt64.lt_iff_toNat_lt, UInt32.toNat_toUInt64, Judged]
  by_cases hover : timeoutMs.toNat < now.msSince last
  · -- The connection is idle: only a product that wraps hides it.
    rw [iff_true_right hover]
    have hidle : now.sec - last.sec < 2 ^ 54 → timeoutMs.toNat < (idleMs now last).toNat :=
      fun hsec => by
      rcases le_or_gt last.usec now.usec with husec | husec
      · rwa [idleMs_of_le hnow hlast hle husec hsec]
      · exact htimeout.trans_le (idleMs_of_lt hnow hlast hle husec hsec)
    refine ⟨fun h => ⟨fun hno => absurd hover (not_lt.mpr hno),
      fun hno => absurd h (not_lt.mpr hno)⟩, ?_⟩
    rintro ⟨-, hwrap⟩
    by_contra hno
    exact hno (hidle (hwrap (not_lt.mp hno)))
  · -- It is not: a borrow makes it seem so.
    have hsec := sec_lt_of_msSince hnow hlast htimeout (not_lt.mp hover)
    rw [iff_false_right hover]
    refine ⟨fun h => ⟨fun _ => ?_, fun _ => hsec⟩, ?_⟩
    · by_contra husec
      exact h (htimeout.trans_le (idleMs_of_lt hnow hlast hle (not_le.mp husec) hsec))
    · rintro ⟨husec, -⟩
      rwa [idleMs_of_le hnow hlast hle (husec (not_lt.mp hover)) hsec]

end Idle

/-! ## What is purged -/

section Purged
variable {pool : Pool} {chains : Nat → List Ptr} {p : Ptr} {conn : Conn}

/-- A purge by a rule filters the chains of its buckets. -/
lemma Pool.Chains.sweepBuckets (inv : pool.Chains chains) (sel : Ptr → Conn → Bool) {is : List Nat}
    (hn : is.Nodup) (purged : Int) :
    ∃ n pool', Connection.sweepBuckets sel is pool purged = some (n, pool') ∧
      pool'.Chains fun i =>
        if i ∈ is then (chains i).filter fun p => !(pool.conns p).any (sel p) else chains i := by
  induction is generalizing pool chains purged with
  | nil => exact ⟨purged, pool, rfl, by simpa using inv⟩
  | cons i is ih =>
    obtain ⟨hi, hn'⟩ := List.nodup_cons.mp hn
    obtain ⟨n₁, pool₁, kept, e, post⟩ := sweepChain_spec sel (.bucket i) purged rfl (inv.chain i)
      (fun _ _ => Slot.noConfusion) (inv.length_le i)
    obtain ⟨n, pool', e', inv'⟩ := ih (post.purged.chains inv) hn' n₁
    refine ⟨n, pool', by rw [Connection.sweepBuckets, e]; exact e', ?_⟩
    convert inv' using 2 with j
    by_cases hj : j = i
    · subst hj
      rw [if_pos List.mem_cons_self, if_neg hi, Function.update_self, post.kept_eq]
    · rw [Function.update_of_ne hj]
      simp only [List.mem_cons, hj, false_or]
      split
      · refine List.filter_congr fun p hp => ?_
        rw [post.conns p (fun hm => inv.disjoint j i hj hp hm) Slot.noConfusion]
      · rfl

/-- A linked connection stays in the pool exactly if it has not expired. -/
lemma Pool.Chains.purge_linked (inv : pool.Chains chains) (now : Timeval) (timeoutMs : UInt32) :
    ∃ n pool', connPurgeTimeouts now pool timeoutMs = some (n, pool') ∧
      ∀ p conn, pool.Linked p → pool.conns p = some conn →
        (pool'.Linked p ↔ conn.expired now timeoutMs = false) := by
  obtain ⟨n, pool', e, inv'⟩ :=
    inv.sweepBuckets (fun _ => Conn.expired now timeoutMs) List.nodup_range 0
  refine ⟨n, pool', (connPurgeTimeouts_eq_connSweep now pool timeoutMs).trans e,
    fun p conn hp hconn => ?_⟩
  obtain ⟨i, hi, hp⟩ := (inv.linked_iff p).mp hp
  rw [inv'.linked_iff]
  constructor
  · rintro ⟨j, hj, hm⟩
    rw [if_pos (List.mem_range.mpr hj), List.mem_filter, hconn] at hm
    simpa using hm.2
  · intro hno
    refine ⟨i, hi, ?_⟩
    rw [if_pos (List.mem_range.mpr hi), List.mem_filter, hconn]
    exact ⟨hp, by simpa using hno⟩

/-- A connection that has not expired. -/
lemma expired_eq_false_iff (now : Timeval) (timeoutMs : UInt32) (conn : Conn) :
    conn.expired now timeoutMs = false ↔
      ¬ (conn.state ≠ .closed ∧ idleMs now conn.lastRecv > timeoutMs.toUInt64) := by
  rw [Conn.expired, Bool.and_eq_false_iff, decide_eq_false_iff_not, decide_eq_false_iff_not,
    not_and_or, or_comm]

/-- For every pool, every timeout and all times, `rc_conn_purge_timeouts` returns and is right about
a linked connection, that is, removes it exactly if it is not closed and was idle for more than the
timeout, if and only if the connection is closed or its times are judged right. -/
theorem purge_exact_iff (inv : pool.Chains chains) (now : Timeval) (timeoutMs : UInt32)
    (hp : pool.Linked p) (hconn : pool.conns p = some conn) (hnow : now.Normal)
    (hlast : conn.lastRecv.Normal) (hle : conn.lastRecv.micros ≤ now.micros) :
    ∃ n pool', connPurgeTimeouts now pool timeoutMs = some (n, pool') ∧
      ((¬ pool'.Linked p ↔ conn.state ≠ .closed ∧ timeoutMs.toNat < now.msSince conn.lastRecv) ↔
        conn.state = .closed ∨ Judged now conn.lastRecv timeoutMs) := by
  obtain ⟨n, pool', e, hlinked⟩ := inv.purge_linked now timeoutMs
  refine ⟨n, pool', e, ?_⟩
  rw [hlinked p conn hp hconn, expired_eq_false_iff, not_not, ← judged_iff hnow hlast hle]
  by_cases hclosed : conn.state = .closed
  · simp [hclosed]
  · simp [hclosed]

end Purged

/-- A pool with one established connection, in bucket 5. -/
def onePool (lastRecv : Timeval) : Pool where
  buckets i := if i = 5 then some 0 else none
  count := 1
  maxConn := 10
  conns p := if p = 0 then some {
    connId := 7, fd := 3, state := .established, refcnt := 1,
    session := Crypto.sessionInit .aes256Gcm,
    localSeq := 0, sendBuf := .empty, recvBuf := .empty, lastRecv, userData := .null } else none
  fresh := 1
  nextId := 8

/-- A pool with one connection. -/
lemma onePool_chains (lastRecv : Timeval) :
    (onePool lastRecv).Chains fun i => if i = 5 then [0] else [] := by
  refine ⟨fun i => ?_, fun i j hij => ?_, fun p hp => if_neg (Nat.pos_iff_ne_zero.mp hp)⟩
  · by_cases hi : i = 5
    · simp only [onePool, hi, if_true]
      exact .cons rfl .nil
    · simp only [onePool, hi, if_false]
      exact .nil
  · by_cases hi : i = 5
    · have hj : j ≠ 5 := fun hj => hij (hi.trans hj.symm)
      simp [hi, hj]
    · simp [hi]

lemma onePool_linked (lastRecv : Timeval) : (onePool lastRecv).Linked 0 :=
  ((onePool_chains lastRecv).linked_iff 0).mpr ⟨5, by decide, by simp⟩

/-- A connection that was last heard of 40.1 seconds ago, at a timeout of 30 seconds. -/
theorem purge_exact_sample :
    ∃ n pool', connPurgeTimeouts ⟨140, 900000⟩ (onePool ⟨100, 800000⟩) 30000 = some (n, pool') ∧
      ¬ pool'.Linked 0 := by
  obtain ⟨n, pool', e, h⟩ := purge_exact_iff (onePool_chains ⟨100, 800000⟩) ⟨140, 900000⟩ 30000
    (onePool_linked _) rfl (by decide) (by decide) (by decide)
  exact ⟨n, pool', e, (h.mpr (by decide +kernel)).mpr (by decide +kernel)⟩

/-- A connection that was last heard of 200 milliseconds ago, but in another second, is purged at a
timeout of 30 seconds. -/
theorem live_connection_purged :
    Timeval.msSince ⟨101, 100000⟩ ⟨100, 900000⟩ = 200 ∧
      ∃ n pool', connPurgeTimeouts ⟨101, 100000⟩ (onePool ⟨100, 900000⟩) 30000 = some (n, pool') ∧
        ¬ pool'.Linked 0 := by
  refine ⟨by decide, ?_⟩
  obtain ⟨n, pool', e, h⟩ := (onePool_chains ⟨100, 900000⟩).purge_linked ⟨101, 100000⟩ 30000
  refine ⟨n, pool', e, fun hno => ?_⟩
  exact absurd ((h 0 _ (onePool_linked _) rfl).mp hno) (by decide +kernel)

/-! ## Locks -/

/-- Number of mutexes (C `RC_CONN_POOL_LOCKS`). -/
def connPoolLocks : Nat := 8192

/-- The mutex of a bucket (C `bucket_lock_idx`). -/
def bucketLockIdx (bucketIdx : Nat) : Nat := bucketIdx &&& (connPoolLocks - 1)

/-- What a purge does with the mutexes and the chains: lock and unlock a mutex of the pool, and read
or write a link of the chain of a bucket. -/
inductive PurgeEvent where
  | lock (i : Nat)
  | unlock (i : Nat)
  | chain (bucket : Nat)
  deriving DecidableEq

/-- `purgeChain` with the events of bucket `i`: `*pp` is read, and written where a connection is
taken out, which is then closed without the lock. -/
def purgeChainTraced (now : Timeval) (timeoutMs : UInt32) (i : Nat) :
    Nat → Pool → Slot → Int → List PurgeEvent × Option (Int × Pool)
  | fuel, pool, pp, purged =>
    match pool.read pp with
    | none => ([.chain i], none)
    | some none => ([.chain i], some (purged, pool))
    | some (some p) =>
      match fuel with
      | 0 => ([.chain i], none)
      | fuel + 1 =>
        match pool.conns p with
        | none => ([.chain i], none)
        | some conn =>
          if conn.expired now timeoutMs then
            match conn.userData.link with
            | none => ([.chain i], none)
            | some q =>
              let pool := { pool.write q pp with count := pool.count - 1 }
              let pool := pool.setConn p (connRelease (connClose conn))
              let (events, result) := purgeChainTraced now timeoutMs i fuel pool pp (purged + 1)
              ([.chain i, .chain i, .unlock (bucketLockIdx i), .lock (bucketLockIdx i)] ++ events,
                result)
          else
            let (events, result) := purgeChainTraced now timeoutMs i fuel pool (.link p) purged
            (.chain i :: events, result)

/-- One bucket of `rc_conn_purge_timeouts`. The mutex that is locked has the index of the bucket. -/
def purgeBucketTraced (now : Timeval) (timeoutMs : UInt32) (i : Nat) (pool : Pool) (purged : Int) :
    List PurgeEvent × Option (Int × Pool) :=
  let (events, result) := purgeChainTraced now timeoutMs i pool.fresh pool (.bucket i) purged
  (.lock i :: events ++ (if result.isSome then [.unlock (bucketLockIdx i)] else []), result)

/-- Some buckets of `rc_conn_purge_timeouts`. -/
def purgeBucketsTraced (now : Timeval) (timeoutMs : UInt32) :
    List Nat → Pool → Int → List PurgeEvent × Option (Int × Pool)
  | [], pool, purged => ([], some (purged, pool))
  | i :: is, pool, purged =>
    match purgeBucketTraced now timeoutMs i pool purged with
    | (events, none) => (events, none)
    | (events, some (purged, pool)) =>
      let (events', result) := purgeBucketsTraced now timeoutMs is pool purged
      (events ++ events', result)

/-- The events of `rc_conn_purge_timeouts`, and its result. -/
def connPurgeTraced (now : Timeval) (pool : Pool) (timeoutMs : UInt32) :
    List PurgeEvent × Option (Int × Pool) :=
  purgeBucketsTraced now timeoutMs (List.range connPoolBuckets) pool 0

/-- The events follow the discipline of the locks, from a state in which some mutexes are held:
every mutex exists, a mutex that is unlocked is held, and so is the mutex of a bucket whose
chain is used. -/
def Disciplined : List Nat → List PurgeEvent → Prop
  | _, [] => True
  | held, .lock i :: es => i < connPoolLocks ∧ Disciplined (i :: held) es
  | held, .unlock i :: es => i < connPoolLocks ∧ i ∈ held ∧ Disciplined (held.erase i) es
  | held, .chain i :: es => bucketLockIdx i ∈ held ∧ Disciplined held es

/-- The mutexes that are held after some events. -/
def heldAfter : List Nat → List PurgeEvent → List Nat
  | held, [] => held
  | held, .lock i :: es => heldAfter (i :: held) es
  | held, .unlock i :: es => heldAfter (held.erase i) es
  | held, .chain _ :: es => heldAfter held es

section Locks
variable {now : Timeval} {timeoutMs : UInt32} {i : Nat} {pool : Pool} {chains : Nat → List Ptr}

lemma bucketLockIdx_lt (i : Nat) : bucketLockIdx i < connPoolLocks :=
  Nat.and_lt_two_pow (n := 13) i (by decide)

/-- Each of the first buckets has its own lock. -/
lemma bucketLockIdx_of_lt (h : i < connPoolLocks) : bucketLockIdx i = i := by
  rw [bucketLockIdx, show connPoolLocks - 1 = 2 ^ 13 - 1 from rfl, Nat.and_two_pow_sub_one_eq_mod]
  exact Nat.mod_eq_of_lt h

/-- One after the other. -/
lemma disciplined_append {held : List Nat} {es es' : List PurgeEvent} :
    Disciplined held (es ++ es') ↔ Disciplined held es ∧ Disciplined (heldAfter held es) es' := by
  induction es generalizing held with
  | nil => simp [Disciplined, heldAfter]
  | cons e es ih => cases e <;> simp only [List.cons_append, Disciplined, heldAfter, ih, and_assoc]

/-- A mutex that does not exist must not be locked. -/
lemma not_disciplined_of_lock {held : List Nat} {es : List PurgeEvent} (hi : .lock i ∈ es)
    (hlocks : connPoolLocks ≤ i) : ¬ Disciplined held es := by
  intro h
  induction es generalizing held with
  | nil => cases hi
  | cons e es ih =>
    rcases List.mem_cons.mp hi with rfl | hes
    · exact absurd h.1 (not_lt.mpr hlocks)
    · cases e with
      | lock j => exact ih hes h.2
      | unlock j => exact ih hes h.2.2
      | chain j => exact ih hes h.2

/-- The walk of a chain keeps the lock of its bucket, which it gives up only to close
a connection. -/
lemma purgeChainTraced_disciplined (now : Timeval) (timeoutMs : UInt32) (i fuel : Nat) (pool : Pool)
    (pp : Slot) (purged : Int) :
    Disciplined [bucketLockIdx i] (purgeChainTraced now timeoutMs i fuel pool pp purged).1 ∧
      heldAfter [bucketLockIdx i] (purgeChainTraced now timeoutMs i fuel pool pp purged).1 =
        [bucketLockIdx i] := by
  have hchain : Disciplined [bucketLockIdx i] [.chain i] := ⟨List.mem_cons_self, trivial⟩
  induction fuel generalizing pool pp purged with
  | zero =>
    rw [purgeChainTraced.eq_def]
    dsimp only
    split
    · exact ⟨hchain, rfl⟩
    · exact ⟨hchain, rfl⟩
    · exact ⟨hchain, rfl⟩
  | succ fuel ih =>
    rw [purgeChainTraced.eq_def]
    dsimp only
    split
    · exact ⟨hchain, rfl⟩
    · exact ⟨hchain, rfl⟩
    · split
      · exact ⟨hchain, rfl⟩
      · split
        · split
          · exact ⟨hchain, rfl⟩
          · have hlt := bucketLockIdx_lt i
            simpa [Disciplined, heldAfter, hlt] using ih _ _ _
        · simpa [Disciplined, heldAfter] using ih _ _ _

/-- The trace of a chain is one of the model. -/
lemma purgeChainTraced_snd (now : Timeval) (timeoutMs : UInt32) (i fuel : Nat) (pool : Pool)
    (pp : Slot) (purged : Int) :
    (purgeChainTraced now timeoutMs i fuel pool pp purged).2 =
      purgeChain now timeoutMs fuel pool pp purged := by
  induction fuel generalizing pool pp purged with
  | zero =>
    rw [purgeChainTraced.eq_def, purgeChain.eq_def]
    dsimp only
    rcases pool.read pp with _ | _ | p <;> rfl
  | succ fuel ih =>
    rw [purgeChainTraced.eq_def, purgeChain.eq_def]
    dsimp only
    rcases pool.read pp with _ | _ | p
    · rfl
    · rfl
    · dsimp only
      rcases pool.conns p with _ | conn
      · rfl
      · dsimp only
        split
        · rcases conn.userData.link with _ | q
          · rfl
          · exact ih _ _ _
        · exact ih _ _ _

/-- The trace of a bucket is one of the model. -/
lemma purgeBucketTraced_snd (now : Timeval) (timeoutMs : UInt32) (i : Nat) (pool : Pool)
    (purged : Int) :
    (purgeBucketTraced now timeoutMs i pool purged).2 =
      purgeChain now timeoutMs pool.fresh pool (.bucket i) purged :=
  purgeChainTraced_snd now timeoutMs i pool.fresh pool (.bucket i) purged

/-- The trace is one of `rc_conn_purge_timeouts`. -/
lemma connPurgeTraced_snd (now : Timeval) (pool : Pool) (timeoutMs : UInt32) :
    (connPurgeTraced now pool timeoutMs).2 = connPurgeTimeouts now pool timeoutMs := by
  suffices h : ∀ is pool purged, (purgeBucketsTraced now timeoutMs is pool purged).2 =
      purgeBuckets now timeoutMs is pool purged from h _ _ _
  intro is
  induction is with
  | nil => exact fun _ _ => rfl
  | cons i is ih =>
    intro pool purged
    have hsnd := purgeBucketTraced_snd now timeoutMs i pool purged
    rw [purgeBucketsTraced, purgeBuckets, ← hsnd]
    rcases purgeBucketTraced now timeoutMs i pool purged with ⟨events, _ | result⟩
    · rfl
    · exact ih result.2 result.1

/-- A bucket is purged under the discipline exactly if it has the index of its mutex. -/
lemma purgeBucketTraced_disciplined_iff (now : Timeval) (timeoutMs : UInt32) (i : Nat) (pool : Pool)
    (purged : Int) :
    Disciplined [] (purgeBucketTraced now timeoutMs i pool purged).1 ↔ i < connPoolLocks := by
  refine ⟨fun h => h.1, fun hi => ?_⟩
  obtain ⟨hchain, hheld⟩ := purgeChainTraced_disciplined now timeoutMs i pool.fresh pool (.bucket i)
    purged
  rw [bucketLockIdx_of_lt hi] at hchain hheld
  refine ⟨hi, disciplined_append.mpr ⟨hchain, ?_⟩⟩
  rw [hheld]
  split
  · rw [bucketLockIdx_of_lt hi]
    exact ⟨hi, List.mem_cons_self, trivial⟩
  · trivial

/-- A purge comes to every bucket. -/
lemma Pool.Chains.lock_mem_purgeBucketsTraced (inv : pool.Chains chains) (now : Timeval)
    (timeoutMs : UInt32) {is : List Nat} (hi : i ∈ is) (purged : Int) :
    .lock i ∈ (purgeBucketsTraced now timeoutMs is pool purged).1 := by
  induction is generalizing pool chains purged with
  | nil => cases hi
  | cons j is ih =>
    obtain ⟨n, pool', chains', e, inv'⟩ := inv.purgeChain now timeoutMs j purged
    have hsnd := purgeBucketTraced_snd now timeoutMs j pool purged
    rw [e] at hsnd
    have hlock : .lock j ∈ (purgeBucketTraced now timeoutMs j pool purged).1 := List.mem_cons_self
    rw [purgeBucketsTraced]
    generalize purgeBucketTraced now timeoutMs j pool purged = traced at hsnd hlock
    obtain ⟨events, result⟩ := traced
    obtain rfl : result = some (n, pool') := hsnd
    rcases List.mem_cons.mp hi with rfl | hi
    · exact List.mem_append_left _ hlock
    · exact List.mem_append_right _ (ih inv' hi n)

/-- In no pool does `rc_conn_purge_timeouts`, with the events of its trace, follow the discipline of
the locks: it does for the buckets below `RC_CONN_POOL_LOCKS` and for no other bucket. -/
theorem purge_lock_discipline (inv : pool.Chains chains) (now : Timeval) (timeoutMs : UInt32) :
    (connPurgeTraced now pool timeoutMs).2 = connPurgeTimeouts now pool timeoutMs ∧
    ¬ Disciplined [] (connPurgeTraced now pool timeoutMs).1 ∧
      ∀ i < connPoolBuckets, ∀ purged,
        (Disciplined [] (purgeBucketTraced now timeoutMs i pool purged).1 ↔ i < connPoolLocks) := by
  refine ⟨connPurgeTraced_snd now pool timeoutMs,
    not_disciplined_of_lock ?_ (le_refl connPoolLocks), fun i _ purged => ?_⟩
  · exact inv.lock_mem_purgeBucketsTraced now timeoutMs (List.mem_range.mpr (by decide)) 0
  · exact purgeBucketTraced_disciplined_iff now timeoutMs i pool purged

end Locks

/-- The purge of a pool with one connection. -/
theorem purge_lock_discipline_sample :
    ¬ Disciplined [] (connPurgeTraced ⟨101, 100000⟩ (onePool ⟨100, 900000⟩) 30000).1 :=
  (purge_lock_discipline (onePool_chains ⟨100, 900000⟩) ⟨101, 100000⟩ 30000).2.1

/-- A purge locks mutex 8192 of 8192, and the events for the bucket with this index are
not disciplined. -/
theorem purge_locks_beyond :
    .lock 8192 ∈ (connPurgeTraced ⟨101, 100000⟩ (onePool ⟨100, 900000⟩) 30000).1 ∧
      connPoolLocks = 8192 ∧
      (purgeBucketTraced ⟨101, 100000⟩ 30000 8192 (onePool ⟨100, 900000⟩) 0).1 =
        [.lock 8192, .chain 8192, .unlock 0] ∧
      bucketLockIdx 8192 = 0 := by
  refine ⟨?_, rfl, by decide +kernel, by decide +kernel⟩
  exact (onePool_chains ⟨100, 900000⟩).lock_mem_purgeBucketsTraced _ _
    (List.mem_range.mpr (by decide)) 0

end RoboControl.Connection
