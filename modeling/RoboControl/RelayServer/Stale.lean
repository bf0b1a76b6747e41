import RoboControl.RelayServer.Registry

/-!
# Stale sessions of the relay server

Which sessions `cleanup_stale` of `src/relay/relay_server.c` destroys. It walks the LRU list from
its tail and destroys those whose last activity is before a deadline (`cleanupFrom_keeps`); the list
that is left has the others, in their order. The deadline is a difference of unsigned numbers, which
wraps around while the clock is below the timeout: then every session counts as stale
(`cleanup_exact`).
-/

namespace RoboControl.RelayServer
open Base Proto

/-- The timeout in milliseconds. -/
def timeoutMs : UInt64 := sessionTimeout * 1000

/-- A session was idle for longer than the timeout, at a time. -/
def Server.Idle (srv : Server) (now : UInt64) (s : Ptr) : Prop :=
  (timeoutMs.toNat : Int) < now.toNat - (srv.last s).toNat

section Listed
variable {srv srv' : Server} {l : List Ptr} {s : Ptr}

/-- A cleanup leaves the sessions that are not stale. -/
lemma Listed.cleanup (listed : Listed srv l) (now : UInt64) :
    ∃ srv', cleanupStale srv now = some srv' ∧
      Listed srv' (l.filter fun s => now - timeoutMs ≤ srv.last s) := by
  refine cleanupStale_keeps id (fun listed s => ?_) listed now
  obtain ⟨srv', h', listed', hlast, -⟩ := listed.destroy s
  exact ⟨srv', h', listed', hlast⟩

/-- The deadline wraps around below the timeout. -/
lemma deadline_toNat (now : UInt64) :
    (now - timeoutMs).toNat = if timeoutMs ≤ now then now.toNat - timeoutMs.toNat
      else now.toNat + 2 ^ 64 - timeoutMs.toNat := by
  have hnow := now.toNat_lt
  have htimeout := timeoutMs.toNat_lt
  rw [UInt64.toNat_sub]
  split
  · next h =>
    rw [UInt64.le_iff_toNat_le] at h
    omega
  · next h =>
    rw [UInt64.le_iff_toNat_le] at h
    omega

end Listed

/-- A cleanup comes to an end and leaves the LRU list and the hash table with exactly the active
sessions. It destroys exactly the sessions that were idle for longer than the timeout, if and only
if the clock is not below the timeout or no active session has its last activity before the deadline
that wraps around. -/
theorem cleanup_exact (srv : Server) (l : List Ptr) (listed : Listed srv l) (now : UInt64) :
    ∃ srv' l', cleanupStale srv now = some srv' ∧ l'.Sublist l ∧ Listed srv' l' ∧
      ((∀ s, (srv'.sessions s).active = true ↔ (srv.sessions s).active = true ∧ ¬ srv.Idle now s) ↔
        timeoutMs ≤ now ∨ ∀ s, (srv.sessions s).active = true →
          now.toNat + 2 ^ 64 - timeoutMs.toNat ≤ (srv.last s).toNat) := by
  obtain ⟨srv', h', listed'⟩ := listed.cleanup now
  refine ⟨srv', _, h', List.filter_sublist, listed', ?_⟩
  have hleft : ∀ s, (srv'.sessions s).active = true ↔
      (srv.sessions s).active = true ∧ (now - timeoutMs).toNat ≤ (srv.last s).toNat := fun s => by
    rw [← listed'.mem_iff, List.mem_filter, listed.mem_iff, decide_eq_true_iff,
      UInt64.le_iff_toNat_le]
  simp only [hleft, deadline_toNat, Server.Idle]
  by_cases hnow : timeoutMs ≤ now
  · simp only [hnow, if_true, true_or, iff_true]
    rw [UInt64.le_iff_toNat_le] at hnow
    intro s
    refine and_congr_right fun _ => ?_
    omega
  · -- Over the integers nothing is idle for longer than the clock is old.
    simp only [hnow, if_false, false_or]
    rw [UInt64.le_iff_toNat_le] at hnow
    refine forall_congr' fun s => ?_
    constructor
    · intro h hactive
      exact (h.mpr ⟨hactive, by omega⟩).2
    · intro h
      exact ⟨fun hs => ⟨hs.1, by omega⟩, fun hs => ⟨hs.1, h hs.1⟩⟩

/-- One session, created half a second after the start of the clock. -/
lemma exists_listed_create : ∃ srv l, serverRun .little [.create .zero .control 500 500] =
    some srv ∧
    Listed srv l ∧ (srv.sessions 0).active = true ∧ srv.last 0 = 500 := by
  have hclock : (0 :: [ServerOp.create .zero .control 500 500].flatMap ServerOp.readings).Pairwise
      (· ≤ ·) := by
    decide
  obtain ⟨srv, t, l, hrun, reg⟩ := serverInit_registry.run .little hclock
  refine ⟨srv, l, hrun, reg.listed, ?_⟩
  cases hrun
  exact ⟨rfl, rfl⟩

/-- A second after the timeout that session is destroyed. -/
theorem cleanup_exact_sample : ∃ srv l, serverRun .little [.create .zero .control 500 500] =
    some srv ∧
    Listed srv l ∧ (srv.sessions 0).active = true ∧
      ∃ srv', cleanupStale srv 301500 = some srv' ∧ (srv'.sessions 0).active = false := by
  obtain ⟨srv, l, hrun, listed, hactive, hlast⟩ := exists_listed_create
  obtain ⟨srv', l', h', -, -, hexact⟩ := cleanup_exact srv l listed 301500
  refine ⟨srv, l, hrun, listed, hactive, srv', h', ?_⟩
  have hidle : srv.Idle 301500 0 := by
    rw [Server.Idle, hlast]
    decide
  rw [← Bool.not_eq_true, hexact.mpr (.inl (by decide))]
  exact fun h => h.2 hidle

/-- Half a second after its creation, and one second after the start of the clock, a session
counts as stale. -/
theorem fresh_session_destroyed : ∃ srv srv',
    serverRun .little [.create .zero .control 500 500] = some srv ∧ (srv.sessions 0).active = true ∧
      srv.last 0 = 500 ∧ cleanupStale srv 1000 = some srv' ∧ (srv'.sessions 0).active = false := by
  obtain ⟨srv, l, hrun, listed, hactive, hlast⟩ := exists_listed_create
  obtain ⟨srv', h', listed'⟩ := listed.cleanup 1000
  refine ⟨srv, srv', hrun, hactive, hlast, h', ?_⟩
  rw [← Bool.not_eq_true, ← listed'.mem_iff, List.mem_filter, hlast]
  exact fun h => absurd h.2 (by decide)

end RoboControl.RelayServer
