import RoboControl.Base.Run
import RoboControl.Proto.Header
import RoboControl.Retransmit.Loss
import Mathlib.Data.List.TakeWhile

/-!
# The sender of reliable packets

Model of `rc_retransmit_record_sent` of `src/core/rc_retransmit.c`, and the retransmission queue
with the packets that a sender records. A packet whose header does not ask for reliable delivery is
not queued; one that is shorter than a header is. `reliable_resent` says that a queued packet is
reported for retransmission in every 60 seconds until it is acknowledged or SACKed, whatever else is
sent, acknowledged and reported in between.
-/

namespace RoboControl.Retransmit
open Base Proto

/-- A packet whose header does not ask for reliable delivery. -/
def Unreliable (host : Endian) (pkt : List UInt8) : Prop :=
  headerSize ≤ pkt.length ∧ (hdrUnpack host pkt).2.flags &&& flagReliable = 0

instance (host : Endian) (pkt : List UInt8) : Decidable (Unreliable host pkt) :=
  inferInstanceAs (Decidable (_ ∧ _))

/-- Record a packet as sent (C `rc_retransmit_record_sent`); `rtoMs` is the timeout of
the connection. -/
def retransmitRecordSent (host : Endian) (alloc : Bool) (now : UInt64) (s : RetxState)
    (seq : UInt32) (pktLen : UInt16) (pktData : Bytes pktLen.toNat) (rtoMs : UInt32) :
    Int × RetxState :=
  if Unreliable host pktData.toList then (0, s)
  else retxEnqueue alloc now s seq pktLen pktData rtoMs

/-! ## Runs -/

/-- An operation of a sender. -/
inductive SenderOp where
  | record (alloc : Bool) (now : UInt64) (seq : UInt32) (pktLen : UInt16)
      (pktData : Bytes pktLen.toNat) (rtoMs : UInt32)
  | ack (ackSeq : UInt32)
  | sack (blocks : List SackBlock)
  | detectLoss (now : UInt64) (maxRetrans : Int)

/-- A queue, and the packets that were reported for retransmission, with the times. -/
structure Sender where
  retx : RetxState
  resent : List (UInt64 × UInt32)

/-- The sender after an operation; `none` for a packet that could not be recorded. -/
def Sender.step (host : Endian) (s : Sender) : SenderOp → Option Sender
  | .record alloc now seq pktLen pktData rtoMs =>
    let result := retransmitRecordSent host alloc now s.retx seq pktLen pktData rtoMs
    if result.1 = 0 then some { s with retx := result.2 } else none
  | .ack ackSeq => some { s with retx := (retxProcessAck s.retx ackSeq).2 }
  | .sack blocks => some { s with retx := (retxProcessSack s.retx blocks).2 }
  | .detectLoss now maxRetrans =>
    let result := retxDetectLoss s.retx now maxRetrans
    some ⟨result.2, s.resent ++ result.1.map (now, ·)⟩

/-- An operation on the queue, if it is one. -/
def SenderOp.toRetx (host : Endian) : SenderOp → Option RetxOp
  | .record alloc now seq pktLen pktData rtoMs =>
    if Unreliable host pktData.toList then none
    else some (.enqueue alloc now seq pktLen pktData rtoMs)
  | .ack ackSeq => some (.ack ackSeq)
  | .sack blocks => some (.sack blocks)
  | .detectLoss now maxRetrans => some (.detectLoss now maxRetrans)

/-- The packets that a run queues, in order. -/
def queued (host : Endian) (ops : List SenderOp) : List Packet :=
  enqueued (ops.filterMap (SenderOp.toRetx host))

/-- An operation that acknowledges or SACKs a sequence number. -/
def SenderOp.settles (seq : UInt32) : SenderOp → Bool
  | .ack ackSeq => seq ≤ ackSeq
  | .sack blocks => (blocks.take maxSackBlocks).any fun b => seq ≥ b.leftEdge && seq < b.rightEdge
  | _ => false

section Steps
variable {host : Endian} {s s' : Sender} {op : SenderOp} {ops : List SenderOp}

/-- The queue of a sender is changed as the operation on it says. -/
lemma Sender.step_retx (h : s.step host op = some s') :
    (op.toRetx host).elim (some s.retx) (fun o => o.apply s.retx) = some s'.retx := by
  cases op with
  | record alloc now seq pktLen pktData rtoMs =>
    rw [Sender.step, retransmitRecordSent] at h
    rw [SenderOp.toRetx]
    split_ifs at h ⊢ with hun hret hret
    · cases h
      rfl
    · cases h
      exact if_pos hret
  | ack ackSeq =>
    cases h
    rfl
  | sack blocks =>
    cases h
    rfl
  | detectLoss now maxRetrans =>
    cases h
    rfl

/-- Only a look for losses reports packets. -/
lemma Sender.step_resent (h : s.step host op = some s') :
    s'.resent = s.resent ∨ ∃ now maxRetrans, op = .detectLoss now maxRetrans ∧
      s'.resent = s.resent ++ (retxDetectLoss s.retx now maxRetrans).1.map (now, ·) := by
  cases op with
  | record alloc now seq pktLen pktData rtoMs =>
    rw [Sender.step] at h
    split at h
    · cases h
      exact .inl rfl
    · cases h
  | ack ackSeq =>
    cases h
    exact .inl rfl
  | sack blocks =>
    cases h
    exact .inl rfl
  | detectLoss now maxRetrans =>
    cases h
    exact .inr ⟨now, maxRetrans, rfl, rfl⟩

/-- The queue of a run. -/
lemma Sender.run_retx (h : ops.foldlM (Sender.step host) s = some s') :
    (ops.filterMap (SenderOp.toRetx host)).foldlM RetxOp.apply s.retx = some s'.retx := by
  induction ops generalizing s with
  | nil =>
    cases h
    rfl
  | cons op ops ih =>
    obtain ⟨s₁, hstep, hrest⟩ := foldlM_cons_eq_some h
    have hretx := Sender.step_retx hstep
    rw [List.filterMap_cons]
    cases hop : op.toRetx host with
    | none =>
      rw [hop, Option.elim_none, Option.some.injEq] at hretx
      rw [hretx]
      exact ih hrest
    | some o =>
      rw [hop] at hretx
      dsimp only
      rw [foldlM_cons_of_some hretx]
      exact ih hrest

end Steps

/-! ## One packet -/

/-- The entry of a packet that was sent at `sent` and is neither acknowledged nor SACKed: its timer
was started then, or at a time at which the packet was reported. -/
def Awaits (seq : UInt32) (sent : UInt64) (s : Sender) : Prop :=
  ∃ e ∈ s.retx.live, e.seq = seq ∧ e.pending = true ∧ e.rtoMs ≤ maxRtoMs ∧
    ∃ t, e.sentTsMs = t.toUInt32 ∧ (t = sent ∨ (t, seq) ∈ s.resent)

section Awaits
variable {host : Endian} {seq : UInt32} {sent : UInt64} {s s' : Sender} {op : SenderOp}
  {w : List Packet}

/-- The entry is there after an operation on the queue that keeps it. -/
lemma Awaits.of_mem (h : Awaits seq sent s)
    (hmem : ∀ e ∈ s.retx.live, e.seq = seq → e.pending = true → e ∈ s'.retx.live)
    (hresent : s'.resent = s.resent) : Awaits seq sent s' := by
  obtain ⟨e, he, hseq, hpending, hrto, t, ht, hlog⟩ := h
  exact ⟨e, hmem e he hseq hpending, hseq, hpending, hrto, t, ht, hresent ▸ hlog⟩

lemma mem_dropWhile_of_neg {p : RetxEntry → Bool} {e : RetxEntry} {l : List RetxEntry} (he : e ∈ l)
    (hp : p e = false) :
    e ∈ l.dropWhile p := by
  rw [← List.takeWhile_append_dropWhile (p := p) (l := l), List.mem_append] at he
  refine he.resolve_left fun h => ?_
  exact Bool.false_ne_true (hp.symm.trans (List.mem_takeWhile_imp h))

/-- An acknowledgement of others. -/
lemma Awaits.ack (keeps : Keeps s.retx w) (h : Awaits seq sent s) {ackSeq : UInt32}
    (hnot : ¬ seq ≤ ackSeq) :
    Awaits seq sent { s with retx := (retxProcessAck s.retx ackSeq).2 } := by
  refine h.of_mem (fun e he hseq hpending => ?_) rfl
  have hacked := (RetxEntry.pending_iff.mp hpending).1
  have hmark : RetxEntry.mark ackSeq e = e := by
    rw [RetxEntry.mark, if_neg (hseq ▸ hnot)]
  show e ∈ (retxProcessAck s.retx ackSeq).2.live
  rw [(retxProcessAck_live keeps.le keeps.unmarked ackSeq).1]
  exact mem_dropWhile_of_neg (List.mem_map.mpr ⟨e, he, hmark⟩) hacked

/-- The entries after SACK blocks. -/
lemma live_retxProcessSack (hle : s.retx.count.toNat ≤ retxQueueMax) (blocks : List SackBlock) :
    (retxProcessSack s.retx blocks).2.live = (mapAccum (sackBody (blocks.take maxSackBlocks)) 0
      s.retx.live).2 :=
  (retxRing.window_sweep (sackBody (blocks.take maxSackBlocks)) hle s.retx.head 0 s.retx.entries).2

/-- A SACK of others. -/
lemma Awaits.sack (keeps : Keeps s.retx w) (h : Awaits seq sent s) {blocks : List SackBlock}
    (hnot : SenderOp.settles seq (.sack blocks) = false) :
    Awaits seq sent { s with retx := (retxProcessSack s.retx blocks).2 } := by
  refine h.of_mem (fun e he hseq hpending => ?_) rfl
  show e ∈ (retxProcessSack s.retx blocks).2.live
  rw [live_retxProcessSack keeps.le]
  refine mem_mapAccum_of_fixed (fun x => ?_) he 0
  rw [SenderOp.settles, ← hseq] at hnot
  rw [sackBody]
  split_ifs with hmarked hcovered
  · rfl
  · exact absurd hcovered (by rw [hnot]; exact Bool.false_ne_true)
  · rfl

/-- A look for losses. -/
lemma Awaits.detectLoss (keeps : Keeps s.retx w) (h : Awaits seq sent s) (now : UInt64)
    (maxRetrans : Int) :
    Awaits seq sent ⟨(retxDetectLoss s.retx now maxRetrans).2,
      s.resent ++ (retxDetectLoss s.retx now maxRetrans).1.map (now, ·)⟩ := by
  obtain ⟨e, he, hseq, hpending, hrto, t, ht, hlog⟩ := h
  obtain ⟨hreport, hlive⟩ := retxDetectLoss_eq keeps.le now maxRetrans
  have hpass : e ∈ (mapAccum (timeouts now maxRetrans) (s.retx.suspects now maxRetrans)
    s.retx.live).2 ∨
      e.restart now ∈ (mapAccum (timeouts now maxRetrans) (s.retx.suspects now maxRetrans)
        s.retx.live).2 ∧
        e.seq ∈ (mapAccum (timeouts now maxRetrans) (s.retx.suspects now maxRetrans)
          s.retx.live).1 :=
    reportNew_left_or_replaced he
  rw [← hreport, ← hlive] at hpass
  obtain hleft | ⟨hnew, hkey⟩ := hpass
  · refine ⟨e, ?_, hseq, hpending, hrto, t, ht, hlog.imp_right (List.mem_append_left _)⟩
    exact hleft
  · -- The timer was started again when the packet was reported.
    refine ⟨e.restart now, hnew, hseq, hpending, (backedOff_restart now e hrto).1, now, rfl,
      .inr ?_⟩
    exact List.mem_append_right _ (List.mem_map.mpr ⟨e.seq, hkey, congrArg (now, ·) hseq⟩)

/-- A packet is awaited until it is acknowledged or SACKed. -/
lemma Awaits.step (keeps : Keeps s.retx w) (h : Awaits seq sent s) (hnot : op.settles seq = false)
    (hstep : s.step host op = some s') : Awaits seq sent s' := by
  cases op with
  | record alloc now seq' pktLen pktData rtoMs =>
    rw [Sender.step, retransmitRecordSent] at hstep
    split_ifs at hstep with hun hret hret
    · cases hstep
      exact h
    · cases hstep
      refine h.of_mem (fun e he _ _ => ?_) rfl
      obtain ⟨hlive, -⟩ := retxEnqueue_live keeps.tail (Prod.ext hret rfl)
      exact hlive ▸ List.mem_append_left _ he
  | ack ackSeq =>
    cases hstep
    exact h.ack keeps (of_decide_eq_false hnot)
  | sack blocks =>
    cases hstep
    exact h.sack keeps hnot
  | detectLoss now maxRetrans =>
    cases hstep
    exact h.detectLoss keeps now maxRetrans

end Awaits

/-! ## Runs after the packet was sent -/

section Run
variable {host : Endian} {before after ops : List SenderOp} {alloc : Bool} {sent : UInt64}
  {seq : UInt32} {pktLen : UInt16}
  {pktData : Bytes pktLen.toNat} {rtoMs : UInt32} {s₀ s : Sender}

/-- A sender with nothing reported yet. -/
def Sender.fresh (retx : RetxState) : Sender := ⟨retx, []⟩

/-- What was reported in a run was reported by a call at that time. -/
lemma exists_detectLoss (hrun : ops.foldlM (Sender.step host) s₀ = some s) {t : UInt64}
    (h : (t, seq) ∈ s.resent) :
    (t, seq) ∈ s₀.resent ∨ ∃ maxRetrans, .detectLoss t maxRetrans ∈ ops := by
  induction ops generalizing s₀ with
  | nil =>
    cases hrun
    exact .inl h
  | cons op ops ih =>
    obtain ⟨s₁, hstep, hrest⟩ := foldlM_cons_eq_some hrun
    obtain hlog | ⟨maxRetrans, hmem⟩ := ih hrest
    · obtain hsame | ⟨now, maxRetrans, rfl, hnew⟩ := Sender.step_resent hstep
      · exact .inl (hsame ▸ hlog)
      · rw [hnew] at hlog
        obtain hlog | hlog := List.mem_append.mp hlog
        · exact .inl hlog
        · obtain ⟨q, -, he⟩ := List.mem_map.mp hlog
          cases he
          exact .inr ⟨maxRetrans, List.mem_cons_self⟩
    · exact .inr ⟨maxRetrans, List.mem_cons_of_mem _ hmem⟩

/-- The queue holds the packets that no ACK covers. -/
lemma keeps_run (hbefore : before.foldlM (Sender.step host) (.fresh retxCreate) = some s₀)
    (hrun : after.foldlM (Sender.step host) (.fresh s₀.retx) = some s)
    (hinc : (queued host (before ++ after)).Pairwise (·.seq < ·.seq)) : ∃ w, Keeps s.retx w := by
  rw [queued, List.filterMap_append] at hinc
  refine ⟨_, retxRun_keeps ?_ hinc⟩
  rw [retxRun, List.foldlM_append, show retxCreate = (Sender.fresh retxCreate).retx from rfl,
    Sender.run_retx hbefore]
  exact Sender.run_retx (s := .fresh s₀.retx) hrun

/-- One after the other. -/
lemma queued_append (host : Endian) (ops ops' : List SenderOp) :
    queued host (ops ++ ops') = queued host ops ++ queued host ops' := by
  rw [queued, List.filterMap_append, enqueued_append]
  rfl

/-- The queue before more operations. -/
lemma keeps_before {ops : List SenderOp}
    (hbefore : before.foldlM (Sender.step host) (.fresh retxCreate) = some s₀)
    (hrun : after.foldlM (Sender.step host) (.fresh s₀.retx) = some s)
    (hinc : (queued host (before ++ (after ++ ops))).Pairwise (·.seq < ·.seq)) :
    (queued host (before ++ after)).Pairwise (·.seq < ·.seq) ∧ ∃ w, Keeps s.retx w := by
  rw [← List.append_assoc, queued_append] at hinc
  have hinc₁ := hinc.sublist (List.sublist_append_left _ _)
  exact ⟨hinc₁, keeps_run hbefore hrun hinc₁⟩

/-- A reliable packet is awaited once it is sent. -/
lemma awaits_record {w : List Packet} (keeps : Keeps s₀.retx w)
    (hstep : (Sender.fresh s₀.retx).step host (.record alloc sent seq pktLen pktData rtoMs) =
      some s)
    (hreliable : ¬ Unreliable host pktData.toList) (hrto : rtoMs ≤ maxRtoMs) :
    Awaits seq sent s := by
  rw [Sender.step, retransmitRecordSent, if_neg hreliable] at hstep
  split at hstep
  · next hret =>
    cases hstep
    obtain ⟨hlive, -⟩ := retxEnqueue_live keeps.tail (Prod.ext hret rfl)
    refine ⟨⟨seq, sent.toUInt32, rtoMs, false, false, some pktData.toList, pktLen⟩, ?_, rfl, rfl,
      hrto, sent, rfl, .inl rfl⟩
    exact hlive ▸ List.mem_append_right _ List.mem_cons_self
  · cases hstep

/-- A reliable packet is awaited after every run that does not settle it. -/
lemma awaits_run (hbefore : before.foldlM (Sender.step host) (.fresh retxCreate) = some s₀)
    (hrun : (.record alloc sent seq pktLen pktData rtoMs :: after).foldlM (Sender.step host)
      (.fresh s₀.retx) = some s)
    (hinc : (queued host (before ++ .record alloc sent seq pktLen pktData rtoMs :: after)).Pairwise
      (·.seq < ·.seq))
    (hreliable : ¬ Unreliable host pktData.toList) (hrto : rtoMs ≤ maxRtoMs)
    (hsettled : ∀ op ∈ after, op.settles seq = false) : Awaits seq sent s := by
  obtain ⟨s₁, hrecord, hafter⟩ := foldlM_cons_eq_some hrun
  refine (along_true s₁ after).history (P := fun after s =>
    (queued host (before ++ .record alloc sent seq pktLen pktData rtoMs :: after)).Pairwise
      (·.seq < ·.seq) →
    (∀ op ∈ after, op.settles seq = false) → Awaits seq sent s) ?_ ?_ hafter hinc hsettled
  · intro after s op s' hrun ih _ hstep hinc hsettled
    obtain ⟨hinc, w, keeps⟩ := keeps_before hbefore ((foldlM_cons_of_some hrecord after).trans hrun)
      hinc
    have hawaits := ih hinc fun o ho => hsettled o (List.mem_append_left _ ho)
    exact hawaits.step keeps (hsettled op (List.mem_append_right _ List.mem_cons_self)) hstep
  · intro hinc _
    obtain ⟨-, w, keeps⟩ := keeps_before hbefore List.foldlM_nil hinc
    exact awaits_record keeps hrecord hreliable hrto

end Run

/-- In a run with increasing sequence numbers, a reliable packet that was sent with a timeout of at
most 60 seconds and is neither acknowledged nor SACKed afterwards is reported for retransmission in
every interval of 60 seconds at whose end the sender looks for losses with room for all packets in
the report. The age of a packet is computed modulo `2 ^ 32` milliseconds, so the interval ends
before it is that old. -/
theorem reliable_resent (host : Endian) (before after : List SenderOp) (alloc : Bool)
    (sent now : UInt64) (seq : UInt32) (pktLen : UInt16) (pktData : Bytes pktLen.toNat)
    (rtoMs : UInt32) (maxRetrans : Int) (s₀ s : Sender)
    (hbefore : before.foldlM (Sender.step host) (.fresh retxCreate) = some s₀)
    (hrun : (.record alloc sent seq pktLen pktData rtoMs :: after).foldlM (Sender.step host)
    (.fresh s₀.retx) = some s)
    (hinc : (queued host (before ++ .record alloc sent seq pktLen pktData rtoMs :: after)).Pairwise
      (·.seq < ·.seq))
    (hreliable : ¬ Unreliable host pktData.toList) (hrto : rtoMs ≤ maxRtoMs)
    (hsettled : ∀ op ∈ after, op.settles seq = false)
    (hclock : ∀ t m, .detectLoss t m ∈ after → sent ≤ t ∧ t ≤ now)
    (hnow : now.toNat < sent.toNat + 2 ^ 32) (hmax : (s.retx.count.toNat : Int) + 1 ≤ maxRetrans)
    (start : Nat) (hsent : sent.toNat ≤ start) (hwindow : start + 60000 ≤ now.toNat) :
    ∃ s', s.step host (.detectLoss now maxRetrans) = some s' ∧
      ∃ t, (t, seq) ∈ s'.resent ∧ start ≤ t.toNat ∧ t ≤ now := by
  obtain ⟨e, he, hseq, hpending, hle, t, ht, hlog⟩ :=
    awaits_run hbefore hrun hinc hreliable hrto hsettled
  obtain ⟨w, keeps⟩ := keeps_run hbefore hrun hinc
  refine ⟨_, rfl, ?_⟩
  -- The timer was last started after `sent`, and before now.
  have htime : sent ≤ t ∧ t ≤ now := by
    obtain rfl | hmem := hlog
    · exact ⟨UInt64.le_refl _, UInt64.le_iff_toNat_le.mpr (by omega)⟩
    · obtain ⟨⟨⟩⟩ | ⟨m, hop⟩ := exists_detectLoss hrun hmem
      obtain ⟨⟨⟩⟩ | hop := List.mem_cons.mp hop
      exact hclock t m hop
  rw [UInt64.le_iff_toNat_le, UInt64.le_iff_toNat_le] at htime
  by_cases hearly : start ≤ t.toNat ∧ (t, seq) ∈ s.resent
  · exact ⟨t, List.mem_append_left _ hearly.2, hearly.1, UInt64.le_iff_toNat_le.mpr htime.2⟩
  · -- It was started before the interval, so it has run out.
    have hbound : t.toNat ≤ start := by
      obtain rfl | hmem := hlog
      · exact hsent
      · exact (not_le.mp fun h => hearly ⟨h, hmem⟩).le
    have hage : (e.ageMs now).toNat = now.toNat - t.toNat := by
      refine toNat_ageMs htime.2 (by omega) ?_
      rw [ht, UInt64.toNat_toUInt32]
    have hrtoMs : e.rtoMs.toNat ≤ 60000 := UInt32.le_iff_toNat_le.mp hle
    have hdue : e.timedOut now = true := RetxEntry.timedOut_iff.mpr ⟨hpending, by omega⟩
    refine ⟨now, List.mem_append_right _ (List.mem_map.mpr ⟨e.seq, ?_, congrArg (now, ·) hseq⟩), by
      omega, UInt64.le_refl _⟩
    rw [(retxDetectLoss_eq keeps.le now maxRetrans).1]
    exact (suspects_room hmax now).mem_reportNew he hdue

/-- A packet that is reported after half a second is reported again in the minute
after it was sent. -/
theorem reliable_resent_sample :
    ∃ s s', [SenderOp.record true 1000 7 1 (.zeros _) 200, .detectLoss 1500 2].foldlM
      (Sender.step .little)
        (.fresh retxCreate) = some s ∧ s.step .little (.detectLoss 61600 2) = some s' ∧
      ∃ t, (t, 7) ∈ s'.resent ∧ 1600 ≤ t.toNat ∧ t ≤ 61600 := by
  have hmap : ([SenderOp.record true 1000 7 1 (.zeros _) 200, .detectLoss 1500 2].foldlM
    (Sender.step .little)
      (.fresh retxCreate)).map (fun s => s.retx.count) = some 1 := by
    decide +kernel
  obtain ⟨s, hrun, hcount⟩ := Option.map_eq_some_iff.mp hmap
  obtain ⟨s', hstep, hresent⟩ := reliable_resent .little [] [.detectLoss 1500 2] true 1000 61600 7 1
    (.zeros _) 200 2 (.fresh retxCreate) s rfl hrun (List.pairwise_singleton _ _) (by decide)
      (by decide)
    (by simp [SenderOp.settles]) (by simp) (by decide) (by rw [hcount]; decide) 1600 (by decide)
      (by decide)
  exact ⟨s, s', hrun, hstep, hresent⟩

/-! ## SACKed packets -/

/-- The entries of a packet are SACKed. -/
def Sacked (seq : UInt32) (s : RetxState) : Prop := ∀ e ∈ s.live, e.seq = seq → e.sacked = true

section Sacked
variable {host : Endian} {seq : UInt32} {s s' : Sender} {op : SenderOp} {w : List Packet}

/-- An entry after SACK blocks. -/
lemma mem_live_retxProcessSack (hle : s.retx.count.toNat ≤ retxQueueMax) {blocks : List SackBlock}
    {e : RetxEntry} (he : e ∈ (retxProcessSack s.retx blocks).2.live) :
    ∃ x, ∃ e₀ ∈ s.retx.live, e = (sackBody (blocks.take maxSackBlocks) x e₀).2 := by
  rw [live_retxProcessSack hle] at he
  exact exists_of_mem_mapAccum he

/-- SACK blocks that cover a packet mark its entries. -/
lemma sacked_of_settles (keeps : Keeps s.retx w) {blocks : List SackBlock}
    (hcovers : SenderOp.settles seq (.sack blocks) = true) :
    Sacked seq (retxProcessSack s.retx blocks).2 := by
  intro e he hseq
  obtain ⟨x, e₀, he₀, rfl⟩ := mem_live_retxProcessSack keeps.le he
  have hacked := keeps.unmarked e₀ he₀
  rw [SenderOp.settles] at hcovers
  rw [sackBody] at hseq ⊢
  split_ifs at hseq ⊢ with hmarked hcovered
  · rw [hacked, Bool.false_or] at hmarked
    exact hmarked
  · rfl
  · rw [hseq] at hcovered
    exact absurd hcovers hcovered

/-- The marks are never taken back. -/
lemma Sacked.step (keeps : Keeps s.retx w) (h : Sacked seq s.retx)
    (hnew : ∀ p ∈ queued host [op], p.seq ≠ seq) (hstep : s.step host op = some s') :
    Sacked seq s'.retx := by
  cases op with
  | record alloc now seq' pktLen pktData rtoMs =>
    rw [Sender.step, retransmitRecordSent] at hstep
    split_ifs at hstep with hun hret hret
    · cases hstep
      exact h
    · cases hstep
      obtain ⟨hlive, -⟩ := retxEnqueue_live keeps.tail (Prod.ext hret rfl)
      intro e he hseq
      rw [hlive] at he
      obtain he | he := List.mem_append.mp he
      · exact h e he hseq
      · rw [List.mem_singleton.mp he] at hseq
        have hqueued : queued host [.record alloc now seq' pktLen pktData rtoMs] =
          [⟨seq', pktData.toList⟩] := by
          rw [queued, List.filterMap_cons, SenderOp.toRetx, if_neg hun]
          rfl
        rw [hqueued] at hnew
        exact absurd hseq (hnew _ List.mem_cons_self)
  | ack ackSeq =>
    cases hstep
    intro e he hseq
    rw [(retxProcessAck_live keeps.le keeps.unmarked ackSeq).1] at he
    obtain ⟨e₀, he₀, rfl⟩ := List.mem_map.mp ((List.dropWhile_sublist _).subset he)
    rw [RetxEntry.mark] at hseq ⊢
    split_ifs at hseq ⊢
    · exact h e₀ he₀ hseq
    · exact h e₀ he₀ hseq
  | sack blocks =>
    cases hstep
    intro e he hseq
    obtain ⟨x, e₀, he₀, rfl⟩ := mem_live_retxProcessSack keeps.le he
    rw [sackBody] at hseq ⊢
    split_ifs at hseq ⊢
    · exact h e₀ he₀ hseq
    · rfl
    · exact h e₀ he₀ hseq
  | detectLoss now maxRetrans =>
    cases hstep
    intro e he hseq
    rw [(retxDetectLoss_eq keeps.le now maxRetrans).2] at he
    obtain he | ⟨e₀, he₀, rfl⟩ := mem_mapAccum_reportNew he
    · exact h e he hseq
    · exact h e₀ he₀ hseq

/-- What is reported is neither acknowledged nor SACKed. -/
lemma pending_of_reported (hle : s.retx.count.toNat ≤ retxQueueMax) {now : UInt64}
    {maxRetrans : Int} (hmem : seq ∈ (retxDetectLoss s.retx now maxRetrans).1) : ∃ e ∈ s.retx.live,
      e.pending = true ∧ e.seq = seq := by
  obtain ⟨new, hnew, -, hdue⟩ := mapAccum_reportNew (·.seq) maxRetrans (·.timedOut now)
    (·.restart now) (s.retx.suspects now maxRetrans) s.retx.live
  rw [(retxDetectLoss_eq hle now maxRetrans).1, timeouts, hnew] at hmem
  obtain hmem | hmem := List.mem_append.mp hmem
  · rw [RetxState.suspects, fastRetransmit_fst] at hmem
    obtain hfast | hhole := List.mem_append.mp hmem
    · split at hfast
      · obtain ⟨e, he, rfl⟩ := List.mem_map.mp hfast
        obtain ⟨hlive, hpending⟩ := mem_live_of_fastEntry (Option.mem_toList.mp he)
        exact ⟨e, hlive, hpending, rfl⟩
      · cases hfast
    · obtain ⟨e, he, rfl⟩ := List.mem_map.mp (List.mem_of_mem_take hhole)
      obtain ⟨hlive, hhole⟩ := List.mem_filter.mp he
      exact ⟨e, hlive, RetxEntry.pending_of_isHole hhole, rfl⟩
  · obtain ⟨-, e, hlive, htimeout, rfl⟩ := hdue seq hmem
    exact ⟨e, hlive, (RetxEntry.timedOut_iff.mp htimeout).1, rfl⟩

/-- A SACKed packet is not reported. -/
lemma Sacked.not_reported (h : Sacked seq s.retx) (keeps : Keeps s.retx w)
    (hstep : s.step host op = some s') {t : UInt64} (hnot : (t, seq) ∉ s.resent) :
    (t, seq) ∉ s'.resent := by
  obtain hsame | ⟨now, maxRetrans, -, hnew⟩ := Sender.step_resent hstep
  · rwa [hsame]
  · rw [hnew]
    intro hmem
    obtain hmem | hmem := List.mem_append.mp hmem
    · exact hnot hmem
    · obtain ⟨q, hq, he⟩ := List.mem_map.mp hmem
      obtain ⟨-, rfl⟩ := Prod.mk.inj he
      obtain ⟨e, hlive, hpending, hseq⟩ := pending_of_reported keeps.le hq
      have hsacked := h e hlive hseq
      rw [(RetxEntry.pending_iff.mp hpending).2] at hsacked
      cases hsacked

/-- A packet that SACK blocks have covered stays marked, and is not reported. -/
lemma sacked_run {before after : List SenderOp} {blocks : List SackBlock} {s₀ : Sender}
    (hbefore : before.foldlM (Sender.step host) (.fresh retxCreate) = some s₀)
    (hrun : (.sack blocks :: after).foldlM (Sender.step host) (.fresh s₀.retx) = some s)
    (hinc : (queued host (before ++ .sack blocks :: after)).Pairwise (·.seq < ·.seq))
    (hsent : ∃ p ∈ queued host before, p.seq = seq)
    (hcovers : SenderOp.settles seq (.sack blocks) = true) :
    Sacked seq s.retx ∧ ∀ t, (t, seq) ∉ s.resent := by
  obtain ⟨s₁, hsack, hafter⟩ := foldlM_cons_eq_some hrun
  refine (along_true s₁ after).history (P := fun after s =>
    (queued host (before ++ .sack blocks :: after)).Pairwise (·.seq < ·.seq) →
    Sacked seq s.retx ∧ ∀ t, (t, seq) ∉ s.resent) ?_ ?_ hafter hinc
  · intro after s op s' hrun ih _ hstep hinc
    obtain ⟨hinc₁, w, keeps⟩ := keeps_before hbefore ((foldlM_cons_of_some hsack after).trans hrun)
      hinc
    obtain ⟨hsacked, hnot⟩ := ih hinc₁
    have hnew : ∀ p ∈ queued host [op], p.seq ≠ seq := by
      intro p hp
      obtain ⟨p₀, hp₀, rfl⟩ := hsent
      have hlater : p ∈ queued host ((.sack blocks :: after) ++ [op]) := by
        rw [queued_append]
        exact List.mem_append_right _ hp
      rw [← List.cons_append, queued_append] at hinc
      exact (UInt32.ne_of_lt ((List.pairwise_append.mp hinc).2.2 p₀ hp₀ p hlater)).symm
    exact ⟨hsacked.step keeps hnew hstep, fun t => hsacked.not_reported keeps hstep (hnot t)⟩
  · intro hinc
    obtain ⟨-, w, keeps⟩ := keeps_before hbefore List.foldlM_nil hinc
    cases hsack
    exact ⟨sacked_of_settles keeps hcovers, fun t => List.not_mem_nil⟩

end Sacked

/-- In a run with increasing sequence numbers, a packet that was SACKed once is never reported for
retransmission again, whatever later acknowledgements and SACK blocks say of it. -/
theorem sacked_never_resent (host : Endian) (before after : List SenderOp) (blocks : List SackBlock)
    (seq : UInt32) (s₀ s : Sender) (hbefore : before.foldlM (Sender.step host) (.fresh retxCreate) =
      some s₀)
    (hrun : (.sack blocks :: after).foldlM (Sender.step host) (.fresh s₀.retx) = some s)
    (hinc : (queued host (before ++ .sack blocks :: after)).Pairwise (·.seq < ·.seq))
    (hsent : ∃ p ∈ queued host before, p.seq = seq)
    (hcovers : SenderOp.settles seq (.sack blocks) = true) (t : UInt64) :
    (t, seq) ∉ s.resent :=
  (sacked_run hbefore hrun hinc hsent hcovers).2 t

/-- A packet that is SACKed, after which the receiver takes the SACK back, is not reported
after a minute. -/
theorem sacked_never_resent_sample :
    ∃ s₀ s, [SenderOp.record true 1000 7 1 (.zeros _) 200].foldlM (Sender.step .little)
      (.fresh retxCreate) = some s₀ ∧
      [SenderOp.sack [⟨7, 8⟩], .sack [], .detectLoss 61600 2].foldlM (Sender.step .little)
      (.fresh s₀.retx) = some s ∧
      (61600, 7) ∉ s.resent := by
  have hmap : (([SenderOp.record true 1000 7 1 (.zeros _) 200].foldlM (Sender.step .little)
      (.fresh retxCreate)).map fun s => s.retx.count) = some 1 := by
    decide +kernel
  obtain ⟨s₀, hbefore, -⟩ := Option.map_eq_some_iff.mp hmap
  exact ⟨s₀, _, hbefore, rfl, sacked_never_resent .little [.record true 1000 7 1 (.zeros _) 200]
    [.sack [], .detectLoss 61600 2] [⟨7, 8⟩] 7 s₀ _ hbefore rfl (List.pairwise_singleton _ _)
    ⟨_, List.mem_cons_self, rfl⟩ (by decide) 61600⟩

end RoboControl.Retransmit
