import RoboControl.Connection.Chains
import RoboControl.Handshake.Keys

/-!
# Handshakes and the pool

The steps of `src/core/rc_handshake.c` keep their contexts in `user_data`, where the pool of
`src/core/rc_conn.c` keeps the link of its chains. `handshake_undisturbed_iff` says for every
reachable pool, every pooled connection and every step exactly when the pool survives: the first
step of each side must not come to its packet or have no room for it, and the second must find no
link.
-/

namespace RoboControl.Handshake
open Base Proto Crypto Connection

/-- A handshake step with its arguments. -/
inductive Step where
  | sendClientHello (draws : ClientDraws)
  | processClientHello (draws : ServerDraws) (clientHello : ClientHello)
  | processServerHello (draws : FinishDraws) (serverHello : ServerHello)
  | processFinish (transcriptAlloc : Bool) (finish : Finish)

/-- Run a step on a connection. -/
def Step.run (host : Endian) (ossl : Openssl) (conn : Conn) : Step → Option (Int × Conn)
  | .sendClientHello draws =>
    let (ret, conn, _) := Handshake.sendClientHello host ossl draws conn
    some (ret, conn)
  | .processClientHello draws clientHello =>
    let (ret, conn, _) := Handshake.processClientHello host ossl draws conn clientHello
    some (ret, conn)
  | .processServerHello draws serverHello =>
    (Handshake.processServerHello host ossl draws conn serverHello).map fun (ret, conn, _) =>
      (ret, conn)
  | .processFinish transcriptAlloc finish =>
    Handshake.processFinish host ossl transcriptAlloc conn finish

/-- A step that does not write `user_data`: a first step that does not come to its packet or has no
room for it, or a second step on a connection that is the last of its chain. -/
def Step.Harmless (ossl : Openssl) (conn : Conn) : Step → Prop
  | .sendClientHello draws => ¬ (draws.Ready ∧ Room conn clientHelloSize)
  | .processClientHello draws clientHello =>
    ¬ (draws.Ready ossl clientHello ∧ Room conn serverHelloSize)
  | .processServerHello _ _ => conn.userData = .null
  | .processFinish _ _ => conn.userData = .null

/-- The lookups of other ids find what they found before, and the destruction of the pool visits
what was linked before, once each. -/
structure Undisturbed (pool pool' : Pool) (connId : UInt32) : Prop where
  lookup : ∀ id, id ≠ connId →
    (connLookup pool' id).map Prod.fst = (connLookup pool id).map Prod.fst
  destroy : ∃ visited, connPoolDestroy pool' = some visited ∧ visited.Nodup ∧
    ∀ p, p ∈ visited ↔ pool.Linked p

/-! ## Steps on linked connections -/

/-- What a link is stored as. -/
lemma UserData.eq_of_link {u : UserData} {q : Option Ptr} (h : u.link = some q) :
    u = .null ∨ ∃ p, u = .conn p := by
  cases u with
  | null => exact .inl rfl
  | conn p => exact .inr ⟨p, rfl⟩
  | clientCtx ctx => cases h
  | serverCtx ctx => cases h

/-- On a connection that holds a link, a step leaves id and `user_data` alone, replaces `user_data`
by a context, or has undefined behaviour. -/
lemma Step.run_cases (host : Endian) (ossl : Openssl) {conn : Conn} {q : Option Ptr}
    (hl : conn.userData.link = some q) (step : Step) :
    (step.Harmless ossl conn ∧ ∃ conn', step.run host ossl conn = some (-1, conn') ∧
      Kept conn conn') ∨
    (¬ step.Harmless ossl conn ∧ ∀ ret conn', step.run host ossl conn = some (ret, conn') →
      conn'.userData.link = none) := by
  cases step with
  | sendClientHello draws =>
    obtain ⟨conn', e, kept, hnot⟩ | ⟨conn', privkey, random, e, -, -, hu, ready⟩ :=
      sendClientHello_cases host ossl draws conn
    · refine .inl ⟨hnot, conn', ?_, kept⟩
      rw [Step.run, e]
    · refine .inr ⟨not_not.mpr ready, ?_⟩
      rw [Step.run, e]
      rintro _ _ ⟨⟩
      rw [hu]
      rfl
  | processClientHello draws clientHello =>
    obtain ⟨conn', e, kept, hnot⟩ |
        ⟨conn', privkey, random, idBytes, secret, e, -, hu, -, -, ready⟩ :=
      processClientHello_cases host ossl draws conn clientHello
    · refine .inl ⟨hnot, conn', ?_, kept⟩
      rw [Step.run, e]
    · refine .inr ⟨not_not.mpr ready, ?_⟩
      rw [Step.run, e]
      rintro _ _ ⟨⟩
      rw [hu]
      rfl
  | processServerHello draws serverHello =>
    rw [Step.Harmless, Step.run, Handshake.processServerHello]
    obtain hu | ⟨p, hu⟩ := UserData.eq_of_link hl
    · rw [hu]
      exact .inl ⟨rfl, conn, rfl, rfl, rfl⟩
    · rw [hu]
      exact .inr ⟨UserData.noConfusion, fun _ _ h => by cases h⟩
  | processFinish transcriptAlloc finish =>
    rw [Step.Harmless, Step.run, Handshake.processFinish]
    obtain hu | ⟨p, hu⟩ := UserData.eq_of_link hl
    · rw [hu]
      exact .inl ⟨rfl, conn, rfl, rfl, rfl⟩
    · rw [hu]
      exact .inr ⟨UserData.noConfusion, fun _ _ h => by cases h⟩

/-! ## Pools with one connection replaced -/

/-- A lookup sees nothing of the connections but their ids and links. -/
lemma lookupChain_congr {conns conns' : Ptr → Option Conn}
    (h : ∀ p, (conns' p).map (fun c => (c.connId, c.userData)) =
      (conns p).map fun c => (c.connId, c.userData)) (id : UInt32) (fuel : Nat) (q : Option Ptr) :
    lookupChain conns' id fuel q = lookupChain conns id fuel q := by
  induction fuel generalizing q with
  | zero => cases q <;> rfl
  | succ fuel ih =>
    cases q with
    | none => rfl
    | some p =>
      have hp := h p
      rw [lookupChain, lookupChain]
      cases hc : conns p with
      | none =>
        rw [hc] at hp
        rw [Option.map_eq_none_iff.mp hp]
      | some c =>
        rw [hc] at hp
        obtain ⟨c', hc', e⟩ := Option.map_eq_some_iff.mp hp
        obtain ⟨e1, e2⟩ := Prod.mk.inj e
        rw [hc']
        simp only [e1, e2, ih]

/-- What a lookup returns is what it finds, in pools with chains. -/
lemma connLookup_fst {pool : Pool} {chains : Nat → List Ptr} (inv : pool.Chains chains)
    (id : UInt32) : (connLookup pool id).map Prod.fst = pool.find id := by
  obtain ⟨r, hr, hconn⟩ := inv.find id
  rw [connLookup, hr]
  cases r with
  | none => rfl
  | some p =>
    obtain ⟨conn, hp⟩ := hconn p rfl
    simp [hp]

section Frame
variable {pool : Pool} {chains : Nat → List Ptr} {p : Ptr} {conn conn' : Conn}

/-- A connection that keeps its id and `user_data` does not disturb the pool. -/
lemma undisturbed_of_kept (inv : pool.Chains chains) (hp : pool.conns p = some conn)
    (kept : Kept conn conn') : Undisturbed pool (pool.setConn p conn') conn.connId := by
  have hu : conn'.userData.link = conn.userData.link := by rw [kept.userData]
  have inv' := inv.setConn hp hu
  have hview : ∀ r, ((pool.setConn p conn').conns r).map (fun c => (c.connId, c.userData)) =
      (pool.conns r).map fun c => (c.connId, c.userData) := by
    intro r
    by_cases hr : r = p
    · subst hr
      simp [Pool.setConn, hp, kept.connId, kept.userData]
    · simp only [Pool.setConn, Function.update_of_ne hr]
  refine ⟨fun id _ => ?_, ?_⟩
  · rw [connLookup_fst inv', connLookup_fst inv]
    exact lookupChain_congr hview id _ _
  · obtain ⟨visited, e, hn, hm⟩ := inv'.destroy
    refine ⟨visited, e, hn, fun r => (hm r).trans ?_⟩
    rw [inv'.linked_iff, inv.linked_iff]

/-- A pool in which a linked connection holds a context cannot be destroyed. -/
lemma not_undisturbed_of_broken (inv : pool.Chains chains) (hlink : pool.Linked p)
    (hu : conn'.userData.link = none) (connId : UInt32) :
    ¬ Undisturbed pool (pool.setConn p conn') connId := by
  rintro ⟨-, visited, e, -⟩
  obtain ⟨i, hi, hpi⟩ := (inv.linked_iff p).mp hlink
  have broken : connPoolDestroy (pool.setConn p conn') = none :=
    inv.destroyBuckets_broken (pool.setConn p conn').conns
      (fun _ _ r _ hr => Function.update_of_ne hr _ _) List.nodup_range (List.mem_range.mpr hi) hpi
      (by simp [Pool.setConn, hu])
  cases broken.symm.trans e

end Frame

/-- A handshake step on a pooled connection returns and leaves the pool undisturbed exactly when it
does not write `user_data`. -/
theorem handshake_undisturbed_iff (host : Endian) (ossl : Openssl) (pool : Pool) (p : Ptr)
    (conn : Conn) (step : Step) (reach : Reachable pool) (hlink : pool.Linked p)
    (hp : pool.conns p = some conn) :
    (∃ ret conn', step.run host ossl conn = some (ret, conn') ∧
      Undisturbed pool (pool.setConn p conn') conn.connId) ↔ step.Harmless ossl conn := by
  obtain ⟨chains, inv⟩ := reach.chains
  obtain ⟨i, -, hpi⟩ := (inv.linked_iff p).mp hlink
  obtain ⟨conn₀, q, hp₀, hl⟩ := inv.conns_of_mem hpi
  cases hp.symm.trans hp₀
  obtain ⟨harmless, conn', e, kept⟩ | ⟨harmful, hbroken⟩ := step.run_cases host ossl hl
  · exact ⟨fun _ => harmless, fun _ => ⟨-1, conn', e, undisturbed_of_kept inv hp kept⟩⟩
  · refine ⟨?_, fun h => absurd h harmful⟩
    rintro ⟨ret, conn', e, h⟩
    exact absurd h (not_undisturbed_of_broken inv hlink (hbroken ret conn' e) _)

/-- A creation for which everything is available. -/
def sampleCreateDraws : CreateDraws := ⟨true, true, true, true, ⟨0, 0⟩⟩

/-- Two connections whose ids have the same bucket. -/
def samplePool : Pool :=
  (connCreate sampleCreateDraws
    (connCreate sampleCreateDraws (connPoolInit 0 1) 3 5588).2 4 5910).2

/-- The pool of the sample. -/
lemma samplePool_reachable : Reachable samplePool :=
  .create _ _ _ (.create _ _ _ (.init 0 1))

/-- The second connection is before the first in their chain. -/
lemma samplePool_linked : samplePool.Linked 0 ∧ samplePool.Linked 1 := by
  have head : samplePool.buckets (bucketOf 5910) = some 1 := by decide +kernel
  have chain : Chain samplePool.next (samplePool.buckets (bucketOf 5910)) [1, 0] := by
    rw [head]
    exact .cons (q := some 0) (by decide +kernel) (.cons (by decide +kernel) .nil)
  exact ⟨⟨_, by decide +kernel, _, chain, by decide⟩, ⟨_, by decide +kernel, _, chain, by decide⟩⟩

/-- A Finish message for the last connection of the chain leaves the pool undisturbed. -/
theorem handshake_undisturbed_sample :
    ∃ conn, samplePool.conns 0 = some conn ∧ ∃ ret conn',
      (Step.processFinish true ⟨5588, sampleClientMac⟩).run .little vectors conn =
        some (ret, conn') ∧
      Undisturbed samplePool (samplePool.setConn 0 conn') conn.connId := by
  have h : (samplePool.conns 0).map (·.userData) = some .null := by decide +kernel
  obtain ⟨conn, hp, hu⟩ := Option.map_eq_some_iff.mp h
  exact ⟨conn, hp, (handshake_undisturbed_iff .little vectors samplePool 0 conn _
    samplePool_reachable samplePool_linked.1 hp).mpr hu⟩

/-- A ClientHello on the first connection of the chain succeeds, and the lookup of the second id,
which found its connection before, then takes the handshake context for a connection. -/
theorem handshake_breaks_chain :
    (5588 : UInt32) ≠ 5910 ∧ bucketOf 5588 = bucketOf 5910 ∧
    (connLookup samplePool 5588).map Prod.fst = some (some 0) ∧
    ((samplePool.conns 1).bind fun conn =>
      ((Step.sendClientHello sampleClientDraws).run .little vectors conn).map fun r =>
        (conn.connId, r.1, (connLookup (samplePool.setConn 1 r.2) 5588).map Prod.fst)) =
      some (5910, 0, none) := by
  decide +kernel

end RoboControl.Handshake
