import RoboControl.Base.Run
import RoboControl.Retransmit.Window

/-!
# Acknowledgement across the wrap-around

Packets with consecutive 32-bit sequence numbers in the queue of `src/core/rc_retransmit.c`.
`rc_retx_process_ack` and `rc_retx_process_sack` compare sequence numbers as unsigned integers.
Where the numbers of a queue wrap around, the packets behind the wrap-around count as older than
those before it: `ack_wrap_exact` says for which packets the two operations still do what they are
for.
-/

namespace RoboControl.Retransmit
open Base

/-! ## Queues of consecutive packets -/

/-- What `rc_retx_enqueue` is given but for the sequence number, and the time of the call. -/
structure Outgoing where
  now : UInt64
  pktLen : UInt16
  pktData : Bytes pktLen.toNat
  rtoMs : UInt32

/-- Enqueue packets with consecutive sequence numbers. -/
def consecutive : UInt32 → List Outgoing → List RetxOp
  | _, [] => []
  | seq, p :: ps => .enqueue true p.now seq p.pktLen p.pktData p.rtoMs :: consecutive (seq + 1) ps

/-- The counters of a queue agree. -/
structure Ready (s : RetxState) : Prop where
  tail : s.tail = s.head + s.count
  le : s.count.toNat ≤ retxQueueMax

/-- One operation. -/
lemma Ready.apply {s s' : RetxState} {op : RetxOp} (ready : Ready s) (h : op.apply s = some s') :
    Ready s' := by
  cases op with
  | enqueue alloc now seq pktLen pktData rtoMs =>
    rw [RetxOp.apply] at h
    dsimp only at h
    split at h
    · next hret =>
      cases h
      obtain ⟨-, htail, hle⟩ := retxEnqueue_live ready.tail (Prod.ext hret rfl)
      exact ⟨htail, hle⟩
    · cases h
  | ack ackSeq =>
    cases h
    obtain ⟨htail, hle⟩ := retxProcessAck_tail ready.tail ready.le ackSeq
    exact ⟨htail, hle⟩
  | sack blocks =>
    cases h
    exact ⟨ready.tail, ready.le⟩
  | detectLoss now maxRetrans =>
    cases h
    obtain ⟨retrans, fast, dup, hs⟩ := fastRetransmit_eq s maxRetrans
    rw [retxDetectLoss, hs]
    exact ⟨ready.tail, ready.le⟩

/-- The counters of a queue agree after every run. -/
lemma retxRun_ready {ops : List RetxOp} {s : RetxState} (hrun : retxRun ops = some s) : Ready s :=
  run_invariant Ready.apply ⟨rfl, Nat.zero_le _⟩ hrun

/-- The live entries of a queue hold the packets `w`, without marks of either kind. -/
structure Fresh (s : RetxState) (w : List Packet) : Prop extends Keeps s w where
  sacked : ∀ e ∈ s.live, e.sacked = false

/-- An empty queue is as good as new. -/
lemma Ready.fresh_of_empty {s : RetxState} (ready : Ready s) (hempty : s.count = 0) :
    Fresh s [] := by
  have hlive : s.live = [] := by
    rw [RetxState.live, hempty]
    rfl
  refine ⟨⟨?_, ?_, ready.tail, ready.le⟩, ?_⟩
  · rw [hlive]
    exact .nil
  · rw [hlive]
    exact List.forall_mem_nil _
  · rw [hlive]
    exact List.forall_mem_nil _

/-- As many entries as packets. -/
lemma Keeps.count_eq {s : RetxState} {w : List Packet} (keeps : Keeps s w) :
    s.count.toNat = w.length := by
  rw [← keeps.holds.length_eq, RetxState.live, Circular.length_window]

/-- A packet is queued. -/
lemma Fresh.enqueue {s : RetxState} {w : List Packet} (fresh : Fresh s w)
    (hroom : w.length < retxQueueMax) (p : Outgoing) (seq : UInt32) :
    ∃ s', RetxOp.apply s (.enqueue true p.now seq p.pktLen p.pktData p.rtoMs) = some s' ∧
      Fresh s' (w ++ [⟨seq, p.pktData.toList⟩]) := by
  have hcount : ¬ s.count.toNat ≥ retxQueueMax := by
    rw [fresh.count_eq]
    exact not_le.mpr hroom
  obtain ⟨s', h⟩ : ∃ s', retxEnqueue true p.now s seq p.pktLen p.pktData p.rtoMs = (0, s') := by
    rw [retxEnqueue, if_neg hcount]
    exact ⟨_, rfl⟩
  refine ⟨s', ?_, fresh.toKeeps.enqueue h, fun e he => ?_⟩
  · rw [RetxOp.apply, h]
    rfl
  · rw [(retxEnqueue_live fresh.tail h).1] at he
    obtain he | he := List.mem_append.mp he
    · exact fresh.sacked e he
    · rw [List.mem_singleton.mp he]

/-- Every packet is queued. -/
@[simp] lemma length_enqueued_consecutive (seq : UInt32) (ps : List Outgoing) :
    (enqueued (consecutive seq ps)).length = ps.length := by
  induction ps generalizing seq with
  | nil => rfl
  | cons p ps ih => exact congrArg (· + 1) (ih (seq + 1))

/-- Packets with consecutive numbers fill a queue that has room for them. -/
lemma Fresh.enqueue_all {s : RetxState} {w : List Packet} (fresh : Fresh s w) (seq : UInt32)
    (ps : List Outgoing) (hroom : w.length + ps.length ≤ retxQueueMax) :
    ∃ s', (consecutive seq ps).foldlM RetxOp.apply s = some s' ∧
      Fresh s' (w ++ enqueued (consecutive seq ps)) := by
  induction ps generalizing s w seq with
  | nil =>
    refine ⟨s, rfl, ?_⟩
    rw [consecutive, enqueued, List.append_nil]
    exact fresh
  | cons p ps ih =>
    rw [List.length_cons] at hroom
    obtain ⟨s₁, h₁, fresh₁⟩ := fresh.enqueue (by omega) p seq
    obtain ⟨s', h', fresh'⟩ := ih fresh₁ (seq + 1) (by
      rw [List.length_append, List.length_singleton]
      omega)
    refine ⟨s', ?_, ?_⟩
    · rw [consecutive, List.foldlM_cons, h₁]
      exact h'
    · rw [List.append_assoc] at fresh'
      exact fresh'

/-- The sequence number of each packet. -/
lemma seq_enqueued_consecutive {seq : UInt32} {ps : List Outgoing} {i : Nat} {p : Packet}
    (h : (enqueued (consecutive seq ps))[i]? = some p) :
    p.seq.toNat = (seq.toNat + i) % 2 ^ 32 := by
  induction ps generalizing seq i with
  | nil => cases h
  | cons q ps ih =>
    cases i with
    | zero =>
      cases h
      exact (Nat.mod_eq_of_lt seq.toNat_lt).symm
    | succ i =>
      have e1 : (1 : UInt32).toNat = 1 := rfl
      have hp : p.seq.toNat = ((seq + 1).toNat + i) % 2 ^ 32 := ih h
      rw [UInt32.toNat_add, e1] at hp
      omega

/-- The sequence number of each live entry. -/
lemma Fresh.seq {s : RetxState} {start : UInt32} {ps : List Outgoing}
    (fresh : Fresh s (enqueued (consecutive start ps))) {i : Nat} {e : RetxEntry}
    (h : s.live[i]? = some e) : e.seq.toNat = (start.toNat + i) % 2 ^ 32 := by
  obtain ⟨hi, rfl⟩ := List.getElem?_eq_some_iff.mp h
  have hi' : i < (enqueued (consecutive start ps)).length := fresh.holds.length_eq ▸ hi
  have hp := (List.forall₂_iff_get.mp fresh.holds).2 i hi hi'
  rw [← seq_enqueued_consecutive (List.getElem?_eq_getElem hi')]
  exact congrArg _ hp.seq

/-! ## Cumulative acknowledgement -/

/-- A cumulative ACK removes exactly the first `m` of the packets `w` of a queue. -/
def AckRemoves (s : RetxState) (w : List Packet) (ackSeq : UInt32) (m : Nat) : Prop :=
  List.Forall₂ RetxEntry.Holds (retxProcessAck s ackSeq).2.live (w.drop m)

/-- How many are dropped. -/
lemma dropWhile_eq_drop {α : Type} {p : α → Bool} {l : List α} {d : Nat}
    (hdrop : ∀ i < d, ∀ a, l[i]? = some a → p a = true)
    (hstop : ∀ a, l[d]? = some a → p a = false) : l.dropWhile p = l.drop d := by
  induction d generalizing l with
  | zero =>
    cases l with
    | nil => rfl
    | cons a l => rw [List.dropWhile_cons_of_neg (by simp [hstop a rfl]), List.drop_zero]
  | succ d ih =>
    cases l with
    | nil => rfl
    | cons a l =>
      rw [List.dropWhile_cons_of_pos (hdrop 0 (Nat.succ_pos d) a rfl), List.drop_succ_cons]
      exact ih (fun i hi => hdrop (i + 1) (Nat.succ_lt_succ hi)) hstop

/-- Marking keeps the packets. -/
lemma holds_map_mark {l : List RetxEntry} {w : List Packet} (ackSeq : UInt32)
    (holds : List.Forall₂ RetxEntry.Holds l w) :
    List.Forall₂ RetxEntry.Holds (l.map (RetxEntry.mark ackSeq)) w := by
  refine List.forall₂_map_left_iff.mpr (holds.imp fun e p h => ?_)
  rw [RetxEntry.mark]
  split
  · exact ⟨h.seq, h.bytes, h.length⟩
  · exact h

section Fresh
variable {s : RetxState} {start : UInt32} {ps : List Outgoing}
variable (fresh : Fresh s (enqueued (consecutive start ps)))
include fresh

lemma Fresh.length : s.live.length = ps.length := by
  rw [fresh.holds.length_eq, length_enqueued_consecutive]

/-- The packets that an acknowledgement marks. -/
lemma Fresh.acked_mark {ackSeq : UInt32} {i : Nat} {e : RetxEntry}
    (h : (s.live.map (RetxEntry.mark ackSeq))[i]? = some e) :
    e.acked = true ↔ (start.toNat + i) % 2 ^ 32 ≤ ackSeq.toNat := by
  rw [List.getElem?_map] at h
  obtain ⟨e₀, h₀, rfl⟩ := Option.map_eq_some_iff.mp h
  have hacked := fresh.unmarked e₀ (List.mem_of_getElem? h₀)
  rw [← fresh.seq h₀, ← UInt32.le_iff_toNat_le, RetxEntry.mark]
  split
  · simp [*]
  · simp [*]

/-- An ACK that covers the first `d` packets of a queue and not the next removes these. -/
lemma Fresh.ackRemoves_iff {ackSeq : UInt32} {d m : Nat} (hd : d ≤ ps.length) (hm : m ≤ ps.length)
    (hcover : ∀ i < d, (start.toNat + i) % 2 ^ 32 ≤ ackSeq.toNat)
    (hstop : d < ps.length → ackSeq.toNat < (start.toNat + d) % 2 ^ 32) :
    AckRemoves s (enqueued (consecutive start ps)) ackSeq m ↔ d = m := by
  have hlive : (retxProcessAck s ackSeq).2.live = (s.live.map (RetxEntry.mark ackSeq)).drop d := by
    rw [(retxProcessAck_live fresh.le fresh.unmarked ackSeq).1]
    refine dropWhile_eq_drop (fun i hi e he => ?_) (fun e he => ?_)
    · exact (fresh.acked_mark he).mpr (hcover i hi)
    · have hlt : d < ps.length := by
        have hd' := (List.getElem?_eq_some_iff.mp he).1
        rwa [List.length_map, fresh.length] at hd'
      rw [← Bool.not_eq_true, fresh.acked_mark he]
      exact not_le.mpr (hstop hlt)
  rw [AckRemoves, hlive]
  constructor
  · intro h
    have hlen := h.length_eq
    rw [List.length_drop, List.length_drop, List.length_map, fresh.length,
      length_enqueued_consecutive] at hlen
    omega
  · rintro rfl
    exact List.forall₂_drop d (holds_map_mark ackSeq fresh.holds)

/-- An ACK of the `k`-th packet removes what it should unless a wrap-around lies between the first
packet and that one, or right behind it. -/
lemma Fresh.ack_iff (hn : ps.length ≤ retxQueueMax) {k : Nat} (hk : k < ps.length) :
    AckRemoves s (enqueued (consecutive start ps)) (start + UInt32.ofNat k) (k + 1) ↔
      start.toNat + ps.length ≤ 2 ^ 32 ∨ start.toNat + k + 1 < 2 ^ 32 := by
  have hs := start.toNat_lt
  rw [retxQueueMax] at hn
  have ha : (start + UInt32.ofNat k).toNat = (start.toNat + k) % 2 ^ 32 := by
    rw [UInt32.toNat_add, UInt32.toNat_ofNat']
    omega
  by_cases hwrap : start.toNat + ps.length ≤ 2 ^ 32 ∨ start.toNat + k + 1 < 2 ^ 32
  · rw [fresh.ackRemoves_iff (d := k + 1) (by omega) (by omega) (fun i hi => by omega) (by omega)]
    exact iff_of_true rfl hwrap
  · by_cases hlast : start.toNat + k + 1 = 2 ^ 32
    · -- Every packet behind the wrap-around counts as covered, too.
      rw [fresh.ackRemoves_iff (d := ps.length) le_rfl (by omega) (fun i hi => by omega) (by omega)]
      exact iff_of_false (by omega) hwrap
    · -- The first packet does not count as covered, and stays.
      rw [fresh.ackRemoves_iff (d := 0) (Nat.zero_le _) (by omega) (fun i hi => by omega)
        (by omega)]
      exact iff_of_false (by omega) hwrap

/-! ## Selective acknowledgement -/

end Fresh

/-- A SACK block marks exactly the packets `i .. j - 1` of the packets `w` of a queue. -/
def SackMarks (s : RetxState) (w : List Packet) (block : SackBlock) (i j : Nat) : Prop :=
  List.Forall₂ RetxEntry.Holds (retxProcessSack s [block]).2.live w ∧
    ∀ m e, (retxProcessSack s [block]).2.live[m]? = some e → (e.sacked = true ↔ i ≤ m ∧ m < j)

/-- A SACK block on entries without marks. -/
lemma mapAccum_sackBody (block : SackBlock) {l : List RetxEntry} (hacked : ∀ e ∈ l, e.acked = false)
    (hsacked : ∀ e ∈ l, e.sacked = false) (n : Int) :
    (mapAccum (sackBody [block]) n l).2 =
      l.map fun e => { e with sacked := e.seq ≥ block.leftEdge && e.seq < block.rightEdge } := by
  induction l generalizing n with
  | nil => rfl
  | cons e l ih =>
    obtain ⟨ha, hacked'⟩ := List.forall_mem_cons.mp hacked
    obtain ⟨hs, hsacked'⟩ := List.forall_mem_cons.mp hsacked
    have hbody : (sackBody [block] n e).2 =
        { e with sacked := e.seq ≥ block.leftEdge && e.seq < block.rightEdge } := by
      cases hin : (e.seq ≥ block.leftEdge && e.seq < block.rightEdge : Bool) with
      | true => simp [sackBody, ha, hs, hin]
      | false =>
        have he : e = { e with sacked := false } := by rw [← hs]
        simpa [sackBody, ha, hs, hin] using he
    rw [mapAccum, List.map_cons, ← hbody]
    exact congrArg _ (ih hacked' hsacked' _)

section Fresh
variable {s : RetxState} {start : UInt32} {ps : List Outgoing}
variable (fresh : Fresh s (enqueued (consecutive start ps)))
include fresh

/-- The packets that a SACK block marks. -/
lemma Fresh.sackMarks_iff (block : SackBlock) (i j : Nat) :
    SackMarks s (enqueued (consecutive start ps)) block i j ↔
      ∀ m < ps.length, (block.leftEdge.toNat ≤ (start.toNat + m) % 2 ^ 32 ∧
        (start.toNat + m) % 2 ^ 32 < block.rightEdge.toNat ↔ i ≤ m ∧ m < j) := by
  have hlive : (retxProcessSack s [block]).2.live = s.live.map fun e =>
      { e with sacked := e.seq ≥ block.leftEdge && e.seq < block.rightEdge } := by
    rw [← mapAccum_sackBody block fresh.unmarked fresh.sacked 0]
    exact (retxRing.window_sweep (sackBody [block]) fresh.le s.head 0 s.entries).2
  have hmark : ∀ m e, s.live[m]? = some e →
      ((e.seq ≥ block.leftEdge && e.seq < block.rightEdge : Bool) = true ↔
        block.leftEdge.toNat ≤ (start.toNat + m) % 2 ^ 32 ∧
          (start.toNat + m) % 2 ^ 32 < block.rightEdge.toNat) := by
    intro m e h
    rw [← fresh.seq h, ← UInt32.le_iff_toNat_le, ← UInt32.lt_iff_toNat_lt]
    simp
  constructor
  · rintro ⟨-, h⟩ m hm
    have hget := List.getElem?_eq_getElem (fresh.length ▸ hm : m < s.live.length)
    rw [← hmark m _ hget, ← h m _ (by rw [hlive, List.getElem?_map, hget]; rfl)]
  · intro h
    refine ⟨(fresh.toKeeps.sack [block]).holds, fun m e he => ?_⟩
    rw [hlive, List.getElem?_map] at he
    obtain ⟨e₀, h₀, rfl⟩ := Option.map_eq_some_iff.mp he
    have hm : m < ps.length := fresh.length ▸ (List.getElem?_eq_some_iff.mp h₀).1
    exact (hmark m e₀ h₀).trans (h m hm)

/-- A block of packets is marked unless a wrap-around lies in it. -/
lemma Fresh.sack_iff (hn : ps.length ≤ retxQueueMax) {i j : Nat} (hij : i ≤ j)
    (hj : j ≤ ps.length) :
    SackMarks s (enqueued (consecutive start ps))
        ⟨start + UInt32.ofNat i, start + UInt32.ofNat j⟩ i j ↔
      start.toNat + j < 2 ^ 32 ∨ 2 ^ 32 ≤ start.toNat + i := by
  have hs := start.toNat_lt
  rw [retxQueueMax] at hn
  have hseq : ∀ k ≤ ps.length, (start + UInt32.ofNat k).toNat = (start.toNat + k) % 2 ^ 32 := by
    intro k hk
    rw [UInt32.toNat_add, UInt32.toNat_ofNat']
    omega
  rw [fresh.sackMarks_iff, hseq i (by omega), hseq j hj]
  constructor
  · intro h
    by_contra hwrap
    have hi := h i (by omega)
    omega
  · intro hwrap m hm
    omega

end Fresh

/-! ## The queue -/

/-- For packets with consecutive sequence numbers in a queue that was empty: an ACK of the `k`-th
removes exactly the first `k + 1` if and only if no number of the queue wraps around or the
wrap-around lies behind the next packet; and the SACK block from the `i`-th to the `j`-th marks
exactly the packets between if and only if both edges lie on the same side of the wrap-around. -/
theorem ack_wrap_exact (pre : List RetxOp) (s₀ : RetxState) (hpre : retxRun pre = some s₀)
    (hempty : s₀.count = 0) (start : UInt32) (ps : List Outgoing) (hn : ps.length ≤ retxQueueMax) :
    ∃ s, retxRun (pre ++ consecutive start ps) = some s ∧
      (∀ k < ps.length,
        (AckRemoves s (enqueued (consecutive start ps)) (start + UInt32.ofNat k) (k + 1) ↔
          start.toNat + ps.length ≤ 2 ^ 32 ∨ start.toNat + k + 1 < 2 ^ 32)) ∧
      ∀ i j, i ≤ j → j ≤ ps.length →
        (SackMarks s (enqueued (consecutive start ps))
            ⟨start + UInt32.ofNat i, start + UInt32.ofNat j⟩ i j ↔
          start.toNat + j < 2 ^ 32 ∨ 2 ^ 32 ≤ start.toNat + i) := by
  have fresh₀ := (retxRun_ready hpre).fresh_of_empty hempty
  obtain ⟨s, hrun, fresh⟩ := fresh₀.enqueue_all start ps (by rwa [List.length_nil, Nat.zero_add])
  rw [List.nil_append] at fresh
  refine ⟨s, ?_, fun k hk => fresh.ack_iff hn hk, fun i j hij hj => fresh.sack_iff hn hij hj⟩
  rw [retxRun, List.foldlM_append]
  refine Eq.trans ?_ hrun
  exact congrArg (· >>= _) hpre

/-- Two packets of one byte, sent right after each other. -/
def twoPackets : List Outgoing := [⟨1000, 1, .zeros _, 200⟩, ⟨1001, 1, .zeros _, 200⟩]

/-- Away from the wrap-around, the first of two packets is acknowledged alone. -/
theorem ack_wrap_exact_sample :
    ∃ s, retxRun ([] ++ consecutive 5 twoPackets) = some s ∧
      AckRemoves s (enqueued (consecutive 5 twoPackets)) 5 1 ∧
      SackMarks s (enqueued (consecutive 5 twoPackets)) ⟨5, 6⟩ 0 1 := by
  obtain ⟨s, hrun, hack, hsack⟩ := ack_wrap_exact [] retxCreate rfl rfl 5 twoPackets (by decide)
  refine ⟨s, hrun, ?_, ?_⟩
  · exact (hack 0 (by decide)).mpr (by decide)
  · exact (hsack 0 1 (by decide) (by decide)).mpr (by decide)

/-- The packets `0xFFFFFFFF` and `0`: an ACK of the first removes both, an ACK of the second removes
none, and the SACK block of the first marks none. -/
theorem ack_wrap_removes_both :
    ((retxRun (consecutive 0xFFFFFFFF twoPackets)).map fun s =>
      (s.live.map (·.seq), (retxProcessAck s 0xFFFFFFFF).2.live.map (·.seq),
        (retxProcessAck s 0).2.live.map (·.seq),
        (retxProcessSack s [⟨0xFFFFFFFF, 0⟩]).2.live.map (·.sacked))) =
      some ([0xFFFFFFFF, 0], [], [0xFFFFFFFF, 0], [false, false]) := by
  decide +kernel

end RoboControl.Retransmit
