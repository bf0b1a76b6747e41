import RoboControl.Retransmit.Queue

/-!
# Live window of the retransmission queue

The queue of `src/core/rc_retransmit.c` over whole runs of its operations. The specification is the
list of the enqueued packets that no later cumulative ACK covers (`unacked`). `Keeps` connects the
circular buffer to it: the live entries hold exactly these packets. Every operation keeps it
(`Keeps.enqueue` and so on), so it holds after every run whose sequence numbers increase
(`retx_window_exact`).
-/

namespace RoboControl.Retransmit
open Base

/-! ## Runs -/

/-- An operation on the queue. -/
inductive RetxOp where
  | enqueue (alloc : Bool) (now : UInt64) (seq : UInt32) (pktLen : UInt16)
      (pktData : Bytes pktLen.toNat) (rtoMs : UInt32)
  | ack (ackSeq : UInt32)
  | sack (blocks : List SackBlock)
  | detectLoss (now : UInt64) (maxRetrans : Int)

/-- The state after an operation; `none` for an enqueue that fails. -/
def RetxOp.apply (s : RetxState) : RetxOp → Option RetxState
  | .enqueue alloc now seq pktLen pktData rtoMs =>
    let (ret, s) := retxEnqueue alloc now s seq pktLen pktData rtoMs
    if ret = 0 then some s else none
  | .ack ackSeq => some (retxProcessAck s ackSeq).2
  | .sack blocks => some (retxProcessSack s blocks).2
  | .detectLoss now maxRetrans => some (retxDetectLoss s now maxRetrans).2

/-- A run from an empty queue whose enqueues all succeed. -/
def retxRun (ops : List RetxOp) : Option RetxState := ops.foldlM RetxOp.apply retxCreate

/-- A packet as its sender gave it. -/
structure Packet where
  seq : UInt32
  bytes : List UInt8
  deriving DecidableEq

/-- An operation that acknowledges a sequence number. -/
def RetxOp.acks (seq : UInt32) : RetxOp → Bool
  | .ack ackSeq => seq ≤ ackSeq
  | _ => false

/-- The packets enqueued in a run, in order. -/
def enqueued : List RetxOp → List Packet
  | [] => []
  | .enqueue _ _ seq _ pktData _ :: ops => ⟨seq, pktData.toList⟩ :: enqueued ops
  | _ :: ops => enqueued ops

/-- The packets enqueued in a run that no later ACK covers, in order. -/
def unacked : List RetxOp → List Packet
  | [] => []
  | .enqueue _ _ seq _ pktData _ :: ops =>
    if ops.any (·.acks seq) then unacked ops else ⟨seq, pktData.toList⟩ :: unacked ops
  | _ :: ops => unacked ops

/-- An entry that holds a packet, unchanged. -/
structure RetxEntry.Holds (e : RetxEntry) (p : Packet) : Prop where
  seq : e.seq = p.seq
  bytes : e.pktData = some p.bytes
  length : e.pktLen.toNat = p.bytes.length

/-! ## The specification -/

/-- Packets that are left were queued. -/
lemma unacked_sublist (ops : List RetxOp) : (unacked ops).Sublist (enqueued ops) := by
  induction ops with
  | nil => exact .slnil
  | cons op ops ih =>
    cases op with
    | enqueue alloc now seq pktLen pktData rtoMs =>
      rw [unacked, enqueued]
      split
      · exact ih.cons _
      · exact ih.cons_cons _
    | ack ackSeq => exact ih
    | sack blocks => exact ih
    | detectLoss now maxRetrans => exact ih

/-- What a longer run leaves unacknowledged: what its first part leaves and its second part does not
acknowledge, and then what the second part leaves. -/
lemma unacked_append (ops ops' : List RetxOp) :
    unacked (ops ++ ops') =
      (unacked ops).filter (fun p => !ops'.any (·.acks p.seq)) ++ unacked ops' := by
  induction ops with
  | nil => rfl
  | cons op ops ih =>
    cases op with
    | enqueue alloc now seq pktLen pktData rtoMs =>
      rw [List.cons_append, unacked, unacked, ih, List.any_append]
      cases ops.any (·.acks seq) with
      | true => rfl
      | false => cases h : ops'.any (·.acks seq) <;> simp [h]
    | ack ackSeq => exact ih
    | sack blocks => exact ih
    | detectLoss now maxRetrans => exact ih

/-- One after the other. -/
lemma enqueued_append (ops ops' : List RetxOp) :
    enqueued (ops ++ ops') = enqueued ops ++ enqueued ops' := by
  induction ops with
  | nil => rfl
  | cons op ops ih =>
    cases op with
    | enqueue alloc now seq pktLen pktData rtoMs => exact congrArg _ ih
    | ack ackSeq => exact ih
    | sack blocks => exact ih
    | detectLoss now maxRetrans => exact ih

/-! ## The invariant -/

/-- The live entries of a queue hold the packets `w`, none of them marked, and the
counters agree. -/
structure Keeps (s : RetxState) (w : List Packet) : Prop where
  holds : List.Forall₂ RetxEntry.Holds s.live w
  unmarked : ∀ e ∈ s.live, e.acked = false
  tail : s.tail = s.head + s.count
  le : s.count.toNat ≤ retxQueueMax

/-- An entry with another's packet and ACK mark. -/
structure RetxEntry.Same (e e' : RetxEntry) : Prop where
  seq : e'.seq = e.seq
  acked : e'.acked = e.acked
  bytes : e'.pktData = e.pktData
  length : e'.pktLen = e.pktLen

lemma RetxEntry.Same.refl (e : RetxEntry) : e.Same e := ⟨rfl, rfl, rfl, rfl⟩

variable {l : List RetxEntry} {w : List Packet}

/-- Entries that are the same hold the same packets. -/
lemma forall₂_holds_of_same {l' : List RetxEntry}
    (same : List.Forall₂ RetxEntry.Same l l') (holds : List.Forall₂ RetxEntry.Holds l w) :
    List.Forall₂ RetxEntry.Holds l' w := by
  induction same generalizing w with
  | nil => exact holds
  | cons h _ ih =>
    cases holds with
    | cons hp ht =>
      refine .cons ⟨h.seq.trans hp.seq, h.bytes.trans hp.bytes, ?_⟩ (ih ht)
      rw [h.length]
      exact hp.length

/-- Entries that are the same are not marked. -/
lemma unmarked_of_same {l' : List RetxEntry} (same : List.Forall₂ RetxEntry.Same l l')
    (unmarked : ∀ e ∈ l, e.acked = false) : ∀ e ∈ l', e.acked = false := by
  induction same with
  | nil => exact unmarked
  | cons h _ ih =>
    rw [List.forall_mem_cons] at unmarked ⊢
    exact ⟨h.acked.trans unmarked.1, ih unmarked.2⟩

/-- A loop body that keeps packets and ACK marks. -/
lemma mapAccum_same {σ : Type} {body : σ → RetxEntry → σ × RetxEntry}
    (hbody : ∀ x (e : RetxEntry), e.Same (body x e).2) (x : σ) (l : List RetxEntry) :
    List.Forall₂ RetxEntry.Same l (mapAccum body x l).2 := by
  induction l generalizing x with
  | nil => exact .nil
  | cons e l ih => exact .cons (hbody x e) (ih _)

variable {s s' : RetxState}

/-- A loop over the live entries with such a body. -/
lemma Keeps.sweep {σ : Type} (body : σ → RetxEntry → σ × RetxEntry) (keeps : Keeps s w)
    (hbody : ∀ x (e : RetxEntry), e.Same (body x e).2) (x : σ)
    (hentries : s'.entries = (retxRing.sweep body s.count.toNat s.head x s.entries).2)
    (htail : s'.tail = s.tail) (hhead : s'.head = s.head) (hcount : s'.count = s.count) :
    Keeps s' w := by
  have hlive : s'.live = (mapAccum body x s.live).2 := by
    rw [RetxState.live, hhead, hcount, hentries]
    exact (retxRing.window_sweep body keeps.le s.head x s.entries).2
  have same : List.Forall₂ RetxEntry.Same s.live s'.live := by
    rw [hlive]
    exact mapAccum_same hbody x s.live
  refine ⟨forall₂_holds_of_same same keeps.holds, unmarked_of_same same keeps.unmarked, ?_, ?_⟩
  · rw [htail, hhead, hcount, keeps.tail]
  · rw [hcount]
    exact keeps.le

/-! ## Operations -/

/-- A new queue. -/
lemma keeps_create : Keeps retxCreate [] :=
  ⟨.nil, List.forall_mem_nil _, rfl, Nat.zero_le _⟩

/-- A successful enqueue appends an entry without marks to the live ones. -/
lemma retxEnqueue_live (htail : s.tail = s.head + s.count) {alloc : Bool}
    {now : UInt64} {seq : UInt32} {pktLen : UInt16} {pktData : Bytes pktLen.toNat} {rtoMs : UInt32}
    (h : retxEnqueue alloc now s seq pktLen pktData rtoMs = (0, s')) :
    s'.live = s.live ++ [⟨seq, now.toUInt32, rtoMs, false, false, some pktData.toList, pktLen⟩] ∧
      s'.tail = s'.head + s'.count ∧ s'.count.toNat ≤ retxQueueMax := by
  rw [retxEnqueue] at h
  split at h
  · cases h
  · rename_i hroom
    dsimp only at h
    split at h
    · cases h
    · cases h
      have hcount : (s.count + 1).toNat = s.count.toNat + 1 := by
        have e1 : (1 : UInt32).toNat = 1 := rfl
        rw [retxQueueMax] at hroom
        rw [UInt32.toNat_add, e1]
        omega
      have hroom' : s.count.toNat < retxRing.size := not_le.mp hroom
      have hlive := retxRing.window_push hroom' s.entries s.head
        ⟨seq, now.toUInt32, rtoMs, false, false, some pktData.toList, pktLen⟩
      rw [show retxRing.succ = (· + 1) from rfl, iterate_add_one, ← htail, ← hcount] at hlive
      refine ⟨hlive, ?_, ?_⟩
      · show s.tail + 1 = s.head + (s.count + 1)
        rw [htail, UInt32.add_assoc]
      · show (s.count + 1).toNat ≤ retxQueueMax
        rw [hcount]
        exact hroom'

/-- A successful enqueue appends its packet. -/
lemma Keeps.enqueue (keeps : Keeps s w) {alloc : Bool}
    {now : UInt64} {seq : UInt32} {pktLen : UInt16} {pktData : Bytes pktLen.toNat} {rtoMs : UInt32}
    (h : retxEnqueue alloc now s seq pktLen pktData rtoMs = (0, s')) :
    Keeps s' (w ++ [⟨seq, pktData.toList⟩]) := by
  obtain ⟨hlive, htail, hle⟩ := retxEnqueue_live keeps.tail h
  refine ⟨?_, ?_, htail, hle⟩
  · rw [hlive]
    refine List.rel_append keeps.holds (.cons ⟨rfl, rfl, ?_⟩ .nil)
    exact pktData.length_toList.symm
  · rw [hlive]
    intro e he
    obtain he | he := List.mem_append.mp he
    · exact keeps.unmarked e he
    · rw [List.mem_singleton.mp he]

/-- SACK blocks. -/
lemma Keeps.sack (keeps : Keeps s w) (blocks : List SackBlock) :
    Keeps (retxProcessSack s blocks).2 w := by
  refine keeps.sweep (sackBody (blocks.take maxSackBlocks)) (fun x e => ?_) 0 rfl rfl rfl rfl
  rw [sackBody]
  split
  · exact .refl e
  · split
    · exact ⟨rfl, rfl, rfl, rfl⟩
    · exact .refl e

/-- The fast retransmit changes nothing but its counters. -/
lemma fastRetransmit_eq (s : RetxState) (maxRetrans : Int) :
    ∃ retrans fast dup, fastRetransmit s maxRetrans =
      (retrans, { s with fastRetransmits := fast, dupAckCount := dup }) := by
  rw [fastRetransmit]
  split
  · split
    · exact ⟨_, _, _, rfl⟩
    · exact ⟨_, _, _, rfl⟩
  · exact ⟨_, _, _, rfl⟩

/-- A look for losses. -/
lemma Keeps.detectLoss (keeps : Keeps s w) (now : UInt64)
    (maxRetrans : Int) : Keeps (retxDetectLoss s now maxRetrans).2 w := by
  obtain ⟨retrans, fast, dup, hs⟩ := fastRetransmit_eq s maxRetrans
  rw [retxDetectLoss, hs]
  refine keeps.sweep (timeoutBody now maxRetrans) (fun x e => ?_) _ rfl rfl rfl rfl
  rw [timeoutBody]
  split
  · exact ⟨rfl, rfl, rfl, rfl⟩
  · exact .refl e

/-! ## Acknowledgement -/

/-- The mark of a cumulative ACK on an entry. -/
def RetxEntry.mark (ackSeq : UInt32) (e : RetxEntry) : RetxEntry :=
  if e.seq ≤ ackSeq then { e with acked := true } else e

/-- The marking loop on entries without marks: it marks those covered and returns their number. -/
lemma mapAccum_ackBody (ackSeq : UInt32) (hl : ∀ e ∈ l, e.acked = false)
    (n : Int) :
    mapAccum (ackBody ackSeq) n l =
      (n + l.countP (·.seq ≤ ackSeq), l.map (RetxEntry.mark ackSeq)) := by
  induction l generalizing n with
  | nil => simp [mapAccum]
  | cons e l ih =>
    obtain ⟨he, hl'⟩ := List.forall_mem_cons.mp hl
    rw [mapAccum, ackBody, List.countP_cons, List.map_cons, RetxEntry.mark]
    by_cases hle : e.seq ≤ ackSeq
    · simp only [he, hle, and_self, if_true, ih hl', decide_true]
      refine Prod.ext ?_ rfl
      show n + 1 + _ = n + ((_ + 1 : ℕ) : Int)
      omega
    · simp [hle, ih hl']

/-- Draining removes the marked entries at the head, and nothing else. -/
lemma drain_spec {n : Nat} (hn : s.count.toNat = n) (hle : n ≤ retxQueueMax) :
    (drain n s).live = s.live.dropWhile (·.acked) ∧ (drain n s).tail = s.tail ∧
      (drain n s).head + (drain n s).count = s.head + s.count ∧
      (drain n s).count.toNat ≤ s.count.toNat := by
  induction n generalizing s with
  | zero =>
    have hlive : s.live = [] := by
      rw [RetxState.live, hn]
      rfl
    refine ⟨?_, rfl, rfl, le_refl _⟩
    rw [drain, hlive]
    rfl
  | succ n ih =>
    have hlive : s.live = s.entries (retxRing.slot s.head) ::
        retxRing.window s.entries (retxRing.succ s.head) n := by
      rw [RetxState.live, hn]
      rfl
    rw [drain]
    split
    · rename_i hacked
      have hcount : (s.count - 1).toNat = n := by
        have hpos : (1 : UInt32) ≤ s.count := by
          rw [UInt32.le_iff_toNat_le, hn]
          exact Nat.succ_pos n
        rw [UInt32.toNat_sub_of_le _ _ hpos, hn]
        rfl
      obtain ⟨hl, ht, hh, hc⟩ := ih (s := { s with
        entries := Function.update s.entries (retxRing.slot s.head)
          { s.entries (retxRing.slot s.head) with pktData := none }
        head := s.head + 1
        count := s.count - 1 }) hcount (by omega)
      refine ⟨?_, ht, ?_, ?_⟩
      · rw [hl, hlive, List.dropWhile_cons_of_pos hacked, RetxState.live, hcount]
        exact congrArg _ (retxRing.window_update_head hle s.entries s.head _)
      · rw [hh]
        show s.head + 1 + (s.count - 1) = s.head + s.count
        rw [UInt32.add_assoc, UInt32.add_comm 1, UInt32.sub_add_cancel]
      · refine hc.trans ?_
        rw [hcount, hn]
        exact Nat.le_succ n
    · rename_i hacked
      refine ⟨?_, rfl, rfl, le_refl _⟩
      rw [hlive, List.dropWhile_cons_of_neg hacked]

/-- An entry holds a packet. -/
lemma exists_holds_of_mem
    (holds : List.Forall₂ RetxEntry.Holds l w) {e : RetxEntry} (he : e ∈ l) :
    ∃ p ∈ w, e.Holds p := by
  induction holds with
  | nil => cases he
  | @cons e' p l w h _ ih =>
    obtain rfl | he := List.mem_cons.mp he
    · exact ⟨p, List.mem_cons_self, h⟩
    · obtain ⟨q, hq, hh⟩ := ih he
      exact ⟨q, List.mem_cons_of_mem _ hq, hh⟩

/-- On entries in increasing order, removing the marked ones at the head removes those covered. -/
lemma holds_dropWhile_mark (ackSeq : UInt32)
    (holds : List.Forall₂ RetxEntry.Holds l w) (unmarked : ∀ e ∈ l, e.acked = false)
    (sorted : w.Pairwise (·.seq < ·.seq)) :
    List.Forall₂ RetxEntry.Holds ((l.map (RetxEntry.mark ackSeq)).dropWhile (·.acked))
        (w.filter (ackSeq < ·.seq)) ∧
      ∀ e ∈ (l.map (RetxEntry.mark ackSeq)).dropWhile (·.acked), e.acked = false := by
  induction holds with
  | nil => exact ⟨.nil, List.forall_mem_nil _⟩
  | @cons e p l w he holds ih =>
    obtain ⟨hu, unmarked'⟩ := List.forall_mem_cons.mp unmarked
    obtain ⟨hp, sorted'⟩ := List.pairwise_cons.mp sorted
    by_cases hle : e.seq ≤ ackSeq
    · have hnot : ¬ ackSeq < p.seq := by
        rw [← he.seq]
        exact UInt32.not_lt.mpr hle
      rw [List.map_cons, RetxEntry.mark, if_pos hle, List.dropWhile_cons_of_pos rfl,
        List.filter_cons_of_neg (by simpa using hnot)]
      exact ih unmarked' sorted'
    · -- This entry stays, and with it all those behind it.
      have hgt : ackSeq < p.seq := by
        rw [← he.seq]
        exact UInt32.not_le.mp hle
      have hkeep : ∀ q ∈ p :: w, decide (ackSeq < q.seq) = true := by
        rw [List.forall_mem_cons]
        exact ⟨decide_eq_true hgt, fun q hq => decide_eq_true (UInt32.lt_trans hgt (hp q hq))⟩
      have hmark : (e :: l).map (RetxEntry.mark ackSeq) = e :: l := by
        have hl : ∀ e' ∈ l, RetxEntry.mark ackSeq e' = e' := by
          intro e' he'
          obtain ⟨q, hq, hh⟩ := exists_holds_of_mem holds he'
          rw [RetxEntry.mark, if_neg]
          rw [hh.seq]
          exact UInt32.not_le.mpr (UInt32.lt_trans hgt (hp q hq))
        rw [List.map_cons, RetxEntry.mark, if_neg hle, List.map_congr_left hl, List.map_id']
      rw [hmark, List.dropWhile_cons_of_neg (by simp [hu]), List.filter_eq_self.mpr hkeep]
      exact ⟨.cons he holds, unmarked⟩

/-- The result of an ACK but for the duplicate ACK counters. -/
lemma retxProcessAck_eq (s : RetxState) (ackSeq : UInt32) :
    ∃ dupSeq dupCount, retxProcessAck s ackSeq =
      ((retxRing.sweep (ackBody ackSeq) s.count.toNat s.head 0 s.entries).1,
        { drain s.count.toNat { s with
            entries := (retxRing.sweep (ackBody ackSeq) s.count.toNat s.head 0 s.entries).2 } with
          dupAckSeq := dupSeq, dupAckCount := dupCount }) := by
  rw [retxProcessAck]
  dsimp only
  split
  · split
    · exact ⟨_, _, rfl⟩
    · exact ⟨_, _, rfl⟩
  · exact ⟨_, _, rfl⟩

/-- An ACK keeps the counters in agreement. -/
lemma retxProcessAck_tail (htail : s.tail = s.head + s.count)
    (hle : s.count.toNat ≤ retxQueueMax) (ackSeq : UInt32) :
    (retxProcessAck s ackSeq).2.tail =
        (retxProcessAck s ackSeq).2.head + (retxProcessAck s ackSeq).2.count ∧
      (retxProcessAck s ackSeq).2.count.toNat ≤ retxQueueMax := by
  obtain ⟨dupSeq, dupCount, e⟩ := retxProcessAck_eq s ackSeq
  obtain ⟨-, ht, hhead, hcount⟩ := drain_spec (s := { s with
    entries := (retxRing.sweep (ackBody ackSeq) s.count.toNat s.head 0 s.entries).2 }) rfl hle
  rw [e]
  exact ⟨ht.trans (htail.trans hhead.symm), hcount.trans hle⟩

/-- An ACK to a queue without marks marks the entries it covers, returns their number, and removes
those at the head. -/
lemma retxProcessAck_live (hle : s.count.toNat ≤ retxQueueMax)
    (unmarked : ∀ e ∈ s.live, e.acked = false) (ackSeq : UInt32) :
    (retxProcessAck s ackSeq).2.live =
        (s.live.map (RetxEntry.mark ackSeq)).dropWhile (·.acked) ∧
      (retxProcessAck s ackSeq).1 = s.live.countP (·.seq ≤ ackSeq) := by
  obtain ⟨dupSeq, dupCount, e⟩ := retxProcessAck_eq s ackSeq
  obtain ⟨hacked, hlive⟩ := retxRing.window_sweep (ackBody ackSeq) hle s.head 0 s.entries
  have hmap := mapAccum_ackBody ackSeq unmarked 0
  rw [RetxState.live] at hmap
  rw [hmap] at hacked hlive
  obtain ⟨hdrain, -, -, -⟩ := drain_spec (s := { s with
    entries := (retxRing.sweep (ackBody ackSeq) s.count.toNat s.head 0 s.entries).2 }) rfl hle
  rw [e]
  refine ⟨Eq.trans hdrain ?_, hacked.trans (zero_add _)⟩
  exact congrArg _ hlive

/-- A cumulative ACK removes the packets it covers and returns their number. -/
lemma Keeps.ack (keeps : Keeps s w)
    (sorted : w.Pairwise (·.seq < ·.seq)) (ackSeq : UInt32) :
    Keeps (retxProcessAck s ackSeq).2 (w.filter (ackSeq < ·.seq)) ∧
      (retxProcessAck s ackSeq).1 = s.live.countP (·.seq ≤ ackSeq) := by
  obtain ⟨hlive, hret⟩ := retxProcessAck_live keeps.le keeps.unmarked ackSeq
  obtain ⟨htail, hle⟩ := retxProcessAck_tail keeps.tail keeps.le ackSeq
  obtain ⟨holds, unmarked⟩ := holds_dropWhile_mark ackSeq keeps.holds keeps.unmarked sorted
  refine ⟨⟨?_, ?_, htail, hle⟩, hret⟩
  · rw [hlive]
    exact holds
  · rw [hlive]
    exact unmarked

/-! ## Whole runs -/

/-- Each operation keeps the packets that no ACK covers. -/
lemma Keeps.apply {ops : List RetxOp} (keeps : Keeps s (unacked ops))
    (sorted : (unacked ops).Pairwise (·.seq < ·.seq)) {op : RetxOp}
    (happly : op.apply s = some s') :
    Keeps s' (unacked (ops ++ [op])) := by
  cases op with
  | enqueue alloc now seq pktLen pktData rtoMs =>
    have hw : unacked (ops ++ [.enqueue alloc now seq pktLen pktData rtoMs]) =
        unacked ops ++ [⟨seq, pktData.toList⟩] := by
      rw [unacked_append]
      simp [RetxOp.acks, unacked]
    rw [RetxOp.apply] at happly
    dsimp only at happly
    split at happly
    · rename_i hret
      cases happly
      rw [hw]
      exact keeps.enqueue (Prod.ext hret rfl)
    · cases happly
  | ack ackSeq =>
    have hw : unacked (ops ++ [.ack ackSeq]) = (unacked ops).filter (ackSeq < ·.seq) := by
      rw [unacked_append]
      simp [RetxOp.acks, unacked, ← decide_not, UInt32.not_le]
    cases happly
    rw [hw]
    exact (keeps.ack sorted ackSeq).1
  | sack blocks =>
    have hw : unacked (ops ++ [.sack blocks]) = unacked ops := by
      rw [unacked_append]
      simp [RetxOp.acks, unacked]
    cases happly
    rw [hw]
    exact keeps.sack blocks
  | detectLoss now maxRetrans =>
    have hw : unacked (ops ++ [.detectLoss now maxRetrans]) = unacked ops := by
      rw [unacked_append]
      simp [RetxOp.acks, unacked]
    cases happly
    rw [hw]
    exact keeps.detectLoss now maxRetrans

/-- After every run with increasing sequence numbers, the live entries hold the packets that no ACK
covers. -/
lemma retxRun_keeps {ops : List RetxOp} (hrun : retxRun ops = some s)
    (hinc : (enqueued ops).Pairwise (·.seq < ·.seq)) : Keeps s (unacked ops) := by
  induction ops using List.reverseRecOn generalizing s with
  | nil =>
    cases hrun
    exact keeps_create
  | append_singleton ops op ih =>
    rw [retxRun, List.foldlM_append] at hrun
    obtain ⟨s₁, hrun₁, hstep⟩ := Option.bind_eq_some_iff.mp hrun
    rw [enqueued_append] at hinc
    have keeps := ih hrun₁ (hinc.sublist (List.sublist_append_left _ _))
    have sorted : (unacked ops).Pairwise (·.seq < ·.seq) :=
      hinc.sublist ((unacked_sublist ops).trans (List.sublist_append_left _ _))
    rw [List.foldlM_cons] at hstep
    obtain ⟨s₂, happly, hs⟩ := Option.bind_eq_some_iff.mp hstep
    cases hs
    exact keeps.apply sorted happly

/-- As many entries as packets are acknowledged. -/
lemma countP_of_holds
    (holds : List.Forall₂ RetxEntry.Holds l w) (ackSeq : UInt32) :
    l.countP (·.seq ≤ ackSeq) = w.countP (·.seq ≤ ackSeq) := by
  induction holds with
  | nil => rfl
  | cons h _ ih => rw [List.countP_cons, List.countP_cons, ih, h.seq]

/-- What an acknowledgement removes. -/
lemma Keeps.ack_removed (keeps : Keeps s w)
    (sorted : w.Pairwise (·.seq < ·.seq)) (ackSeq : UInt32) :
    (retxProcessAck s ackSeq).1 + (retxProcessAck s ackSeq).2.live.length = s.live.length := by
  obtain ⟨keeps', hret⟩ := keeps.ack sorted ackSeq
  have hsplit : w.countP (·.seq ≤ ackSeq) + (w.filter (ackSeq < ·.seq)).length = w.length := by
    rw [← List.countP_eq_length_filter, w.length_eq_countP_add_countP (·.seq ≤ ackSeq)]
    simp [UInt32.not_le]
  rw [hret, countP_of_holds keeps.holds, keeps'.holds.length_eq, keeps.holds.length_eq, ← hsplit]
  exact (Nat.cast_add _ _).symm

/-- After every run of the queue whose enqueues succeed with increasing sequence numbers, the live
window holds exactly the packets that no later ACK covers, in order and unchanged; the counters
agree; and every ACK of the run returned the number of packets it removed. -/
theorem retx_window_exact (ops : List RetxOp) (s : RetxState) (hrun : retxRun ops = some s)
    (hinc : (enqueued ops).Pairwise (·.seq < ·.seq)) :
    List.Forall₂ RetxEntry.Holds s.live (unacked ops) ∧ s.count = s.tail - s.head ∧
      s.count.toNat ≤ retxQueueMax ∧
      ∀ pre ackSeq post, ops = pre ++ .ack ackSeq :: post → ∃ s₁, retxRun pre = some s₁ ∧
        (retxProcessAck s₁ ackSeq).1 + (retxProcessAck s₁ ackSeq).2.live.length =
          s₁.live.length := by
  have keeps := retxRun_keeps hrun hinc
  refine ⟨keeps.holds, ?_, keeps.le, ?_⟩
  · rw [keeps.tail, UInt32.add_comm, UInt32.add_sub_cancel]
  · rintro pre ackSeq post rfl
    rw [retxRun, List.foldlM_append] at hrun
    obtain ⟨s₁, hrun₁, -⟩ := Option.bind_eq_some_iff.mp hrun
    rw [enqueued_append] at hinc
    have hinc₁ := hinc.sublist (List.sublist_append_left _ _)
    refine ⟨s₁, hrun₁, (retxRun_keeps hrun₁ hinc₁).ack_removed ?_ ackSeq⟩
    exact hinc₁.sublist (unacked_sublist pre)

/-- Three packets, a SACK of the last, an ACK of the first, and a check for losses. -/
def sampleOps : List RetxOp :=
  [.enqueue true 1000 1 2 ⟨[104, 105], rfl⟩ 200, .enqueue true 1001 2 1 ⟨[7], rfl⟩ 200,
    .enqueue true 1002 3 1 ⟨[8], rfl⟩ 200, .sack [⟨3, 4⟩], .ack 1, .detectLoss 1300 8]

/-- What the sample run leaves in the window. -/
theorem retx_window_sample :
    ∃ s, retxRun sampleOps = some s ∧
      List.Forall₂ RetxEntry.Holds s.live [⟨2, [7]⟩, ⟨3, [8]⟩] := by
  have hsome : (retxRun sampleOps).isSome = true := by decide +kernel
  obtain ⟨s, hs⟩ := Option.isSome_iff_exists.mp hsome
  exact ⟨s, hs, (retx_window_exact sampleOps s hs (by decide +kernel)).1⟩

end RoboControl.Retransmit
