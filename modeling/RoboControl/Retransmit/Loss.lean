import RoboControl.Base.Report
import RoboControl.Retransmit.Window

/-!
# Loss detection of the retransmission queue

What `rc_retx_detect_loss` of `src/core/rc_retransmit.c` reports, as a list. The fast retransmit
reports one entry (`RetxState.fastEntry`), the pass over the SACK holes every entry with SACKed data
beyond it that is half its timeout old (`RetxState.holes`), and the pass over the timeouts every
entry that has timed out and was not reported yet. Only the last pass looks at what is in the
report, and only that pass restarts the timer of an entry. So a packet may be reported twice
(`reports_distinct_iff`) and again by the next call (`second_report_empty_iff`); but every timeout
is found (`timeouts_reported`).
-/

namespace RoboControl.Retransmit
open Base

/-! ## The passes -/

/-- An entry that is neither acknowledged nor SACKed. -/
def RetxEntry.pending (e : RetxEntry) : Bool := !e.acked && !e.sacked

/-- An entry with SACKed data beyond it that is half its timeout old. -/
def RetxEntry.isHole (now : UInt64) (blocks : List SackBlock) (e : RetxEntry) : Bool :=
  e.pending && (blocks.any fun b => b.leftEdge > e.seq) && e.ageMs now ≥ e.rtoMs / 2

/-- An entry that has timed out. -/
def RetxEntry.timedOut (now : UInt64) (e : RetxEntry) : Bool := e.pending && e.ageMs now ≥ e.rtoMs

/-- An entry whose timer is restarted with a longer timeout. -/
def RetxEntry.restart (now : UInt64) (e : RetxEntry) : RetxEntry :=
  { e with
    rtoMs := if e.rtoMs < maxRtoMs / 2 then e.rtoMs * 2 else maxRtoMs
    sentTsMs := now.toUInt32 }

/-- The entry that a fast retransmit reports. -/
def RetxState.fastEntry (s : RetxState) : Option RetxEntry :=
  if s.dupAckCount ≥ dupAckThresh then s.live.find? fun e => e.pending && e.seq > s.dupAckSeq
  else none

/-- The entries that the SACK blocks show to be lost. -/
def RetxState.holes (s : RetxState) (now : UInt64) : List RetxEntry :=
  s.live.filter (·.isHole now s.sackBlocks)

/-- The report before the pass over the timeouts. -/
def RetxState.suspects (s : RetxState) (now : UInt64) (maxRetrans : Int) : List UInt32 :=
  let fast := (fastRetransmit s maxRetrans).1
  fast ++ ((s.holes now).map (·.seq)).take (maxRetrans.toNat - fast.length)

/-- The pass over the timeouts. -/
def timeouts (now : UInt64) (maxRetrans : Int) :
    List UInt32 → RetxEntry → List UInt32 × RetxEntry :=
  reportNew (·.seq) maxRetrans (·.timedOut now) (·.restart now)

variable {e : RetxEntry}

lemma RetxEntry.pending_iff : e.pending = true ↔ e.acked = false ∧
    e.sacked = false := by
  simp [RetxEntry.pending]

variable {now : UInt64}

/-- A hole is pending. -/
lemma RetxEntry.pending_of_isHole {blocks : List SackBlock}
    (h : e.isHole now blocks = true) : e.pending = true := by
  rw [RetxEntry.isHole, Bool.and_eq_true, Bool.and_eq_true] at h
  exact h.1.1

/-- When a packet has timed out. -/
lemma RetxEntry.timedOut_iff :
    e.timedOut now = true ↔ e.pending = true ∧ e.rtoMs.toNat ≤ (e.ageMs now).toNat := by
  rw [RetxEntry.timedOut, Bool.and_eq_true, decide_eq_true_iff, ge_iff_le, UInt32.le_iff_toNat_le]

/-- The loop over the holes is a report. -/
lemma holeBody_eq (now : UInt64) (maxRetrans : Int) (blocks : List SackBlock) :
    holeBody now maxRetrans blocks = reportAll (·.seq) maxRetrans (·.isHole now blocks) := by
  funext retrans e
  rw [holeBody, reportAll]
  refine if_congr (and_congr_right fun _ => ?_) rfl rfl
  simp [RetxEntry.isHole, RetxEntry.pending, and_assoc]

/-- The pass over the timeouts, which also counts. -/
lemma timeoutBody_eq (now : UInt64) (maxRetrans : Int) (acc : List UInt32 × UInt32)
    (e : RetxEntry) :
    (timeoutBody now maxRetrans acc e).1.1 = (timeouts now maxRetrans acc.1 e).1 ∧
      (timeoutBody now maxRetrans acc e).2 = (timeouts now maxRetrans acc.1 e).2 := by
  have hiff : ((acc.1.length : Int) < maxRetrans ∧ e.acked = false ∧ e.sacked = false ∧
      e.ageMs now ≥ e.rtoMs ∧ e.seq ∉ acc.1) ↔
      (acc.1.length : Int) < maxRetrans ∧ e.timedOut now = true ∧ e.seq ∉ acc.1 := by
    simp [RetxEntry.timedOut, RetxEntry.pending, and_assoc]
  rw [timeoutBody, timeouts, reportNew]
  by_cases h : (acc.1.length : Int) < maxRetrans ∧ e.timedOut now = true ∧ e.seq ∉ acc.1
  · rw [if_pos (hiff.mpr h), if_pos h]
    exact ⟨rfl, rfl⟩
  · rw [if_neg fun h' => h (hiff.mp h'), if_neg h]
    exact ⟨rfl, rfl⟩

/-- The loop over the timeouts is a report and a counter. -/
lemma mapAccum_timeoutBody (now : UInt64) (maxRetrans : Int) (acc : List UInt32 × UInt32)
    (l : List RetxEntry) :
    (mapAccum (timeoutBody now maxRetrans) acc l).1.1 =
      (mapAccum (timeouts now maxRetrans) acc.1 l).1 ∧
      (mapAccum (timeoutBody now maxRetrans) acc l).2 =
        (mapAccum (timeouts now maxRetrans) acc.1 l).2 := by
  induction l generalizing acc with
  | nil => exact ⟨rfl, rfl⟩
  | cons e l ih =>
    obtain ⟨hreport, hentry⟩ := timeoutBody_eq now maxRetrans acc e
    obtain ⟨hfst, hsnd⟩ := ih (timeoutBody now maxRetrans acc e).1
    rw [mapAccum_cons, mapAccum_cons, ← hreport, ← hentry, ← hsnd]
    exact ⟨hfst, rfl⟩

section Detect
variable {s : RetxState} (hle : s.count.toNat ≤ retxQueueMax) (now : UInt64) (maxRetrans : Int)

/-- The search for a fast retransmission. -/
lemma fastScan_eq (s : RetxState) (n : Nat) (idx : UInt32) :
    fastScan s n idx = ((retxRing.window s.entries idx n).find? fun e =>
      e.pending && e.seq > s.dupAckSeq).map (·.seq) := by
  induction n generalizing idx with
  | zero => rfl
  | succ n ih =>
    rw [fastScan, ih, Circular.window, List.find?_cons]
    set e := s.entries (retxRing.slot idx)
    show (if (e.pending && e.seq > s.dupAckSeq) = true then some e.seq else _) = _
    cases (e.pending && e.seq > s.dupAckSeq : Bool) <;> rfl

/-- What a fast retransmission reports. -/
lemma fastRetransmit_fst (s : RetxState) (maxRetrans : Int) :
    (fastRetransmit s maxRetrans).1 =
      if 0 < maxRetrans then s.fastEntry.toList.map (·.seq) else [] := by
  rw [fastRetransmit, RetxState.fastEntry]
  split
  · split
    · next seq h =>
      split at h
      · next hpos =>
        rw [if_pos hpos]
        rw [fastScan_eq] at h
        obtain ⟨e, he, rfl⟩ := Option.map_eq_some_iff.mp h
        rw [RetxState.live, he]
        rfl
      · cases h
    · next h =>
      split at h
      · next hpos =>
        rw [if_pos hpos]
        rw [fastScan_eq, Option.map_eq_none_iff] at h
        rw [RetxState.live, h]
        rfl
      · next hpos => rw [if_neg hpos]
  · split <;> rfl

include hle

/-- The report is made by the pass over the timeouts, and so are the live entries after a call. -/
lemma retxDetectLoss_eq :
    (retxDetectLoss s now maxRetrans).1 =
        (mapAccum (timeouts now maxRetrans) (s.suspects now maxRetrans) s.live).1 ∧
      (retxDetectLoss s now maxRetrans).2.live =
        (mapAccum (timeouts now maxRetrans) (s.suspects now maxRetrans) s.live).2 := by
  obtain ⟨retrans, fast, dup, hs⟩ := fastRetransmit_eq s maxRetrans
  have hsuspects : (if s.sackBlocks.length > 0 then
      (retxRing.sweep (holeBody now maxRetrans s.sackBlocks) s.count.toNat s.head retrans
        s.entries).1
      else retrans) = s.suspects now maxRetrans := by
    rw [RetxState.suspects, hs]
    split
    · rw [(retxRing.window_sweep _ hle s.head retrans s.entries).1, holeBody_eq, mapAccum_reportAll]
      rfl
    · next hnil =>
      have hholes : s.holes now = [] := by
        refine List.filter_eq_nil_iff.mpr fun e _ h => ?_
        rw [List.eq_nil_of_length_eq_zero (Nat.eq_zero_of_not_pos hnil)] at h
        simp [RetxEntry.isHole] at h
      rw [hholes, List.map_nil, List.take_nil, List.append_nil]
  rw [retxDetectLoss, hs]
  dsimp only
  rw [hsuspects]
  obtain ⟨hreport, hlive⟩ := retxRing.window_sweep (timeoutBody now maxRetrans) hle s.head
    (s.suspects now maxRetrans, s.timeoutRetransmits) s.entries
  obtain ⟨hfst, hsnd⟩ := mapAccum_timeoutBody now maxRetrans
    (s.suspects now maxRetrans, s.timeoutRetransmits) s.live
  exact ⟨(congrArg Prod.fst hreport).trans hfst, hlive.trans hsnd⟩

end Detect

/-! ## Distinct reports -/

variable {s : RetxState}

/-- Live entries with distinct sequence numbers are not more than there are slots. -/
lemma count_le_of_nodup (hseq : (s.live.map (·.seq)).Nodup) :
    s.count.toNat ≤ retxQueueMax := by
  by_contra hcount
  rw [RetxState.live, Circular.window_eq_map_range, List.map_map] at hseq
  -- The entry `retxQueueMax` places behind the first one is in the slot of the first one.
  have hslot : retxRing.slot (retxRing.succ^[retxQueueMax] s.head) = retxRing.slot s.head := by
    show ((· + 1)^[retxQueueMax] s.head).toNat % retxQueueMax = s.head.toNat % retxQueueMax
    rw [toNat_iterate_add_one, retxQueueMax]
    omega
  have hsame := List.inj_on_of_nodup_map hseq (List.mem_range.mpr (not_le.mp hcount))
    (List.mem_range.mpr (Nat.zero_lt_of_lt (not_le.mp hcount)))
    (congrArg (fun k => (s.entries k).seq) hslot)
  exact absurd hsame (by decide)

/-- A fast retransmission is of a pending packet. -/
lemma mem_live_of_fastEntry (h : s.fastEntry = some e) :
    e ∈ s.live ∧ e.pending = true := by
  rw [RetxState.fastEntry] at h
  split at h
  · have hfast := List.find?_some h
    exact ⟨List.mem_of_find?_eq_some h, (Bool.and_eq_true_iff.mp hfast).1⟩
  · cases h

/-- The first two passes report a packet twice if it is the packet of the fast
retransmit and a hole. -/
lemma nodup_suspects_iff (hseq : (s.live.map (·.seq)).Nodup) (now : UInt64)
    (maxRetrans : Int) :
    (s.suspects now maxRetrans).Nodup ↔
      ∀ e, s.fastEntry = some e → e ∉ (s.holes now).take (maxRetrans.toNat - 1) := by
  have hnd : ∀ n, (((s.holes now).map (·.seq)).take n).Nodup := fun n =>
    hseq.sublist ((List.take_sublist n _).trans (List.filter_sublist.map _))
  rw [RetxState.suspects, fastRetransmit_fst]
  by_cases hpos : 0 < maxRetrans
  · rw [if_pos hpos]
    cases hfast : s.fastEntry with
    | none => exact iff_of_true (hnd _) fun e he => by cases he
    | some e =>
      have hlive := (mem_live_of_fastEntry hfast).1
      show (e.seq :: ((s.holes now).map (·.seq)).take (maxRetrans.toNat - 1)).Nodup ↔ _
      rw [List.nodup_cons, and_iff_left (hnd _), ← List.map_take]
      constructor
      · rintro h _ ⟨⟩ he
        exact h (List.mem_map_of_mem he)
      · intro h hmem
        obtain ⟨e', he', heq⟩ := List.mem_map.mp hmem
        have hlive' : e' ∈ s.live := List.mem_of_mem_filter (List.mem_of_mem_take he')
        exact h e rfl (List.inj_on_of_nodup_map hseq hlive' hlive heq ▸ he')
  · have hzero : maxRetrans.toNat = 0 := by omega
    rw [if_neg hpos, hzero]
    exact iff_of_true (hnd _) fun e _ => List.not_mem_nil

/-- For live entries with distinct sequence numbers, the numbers reported are distinct if and only
if the packet of the fast retransmit is not among the SACK holes that there is room for. -/
theorem reports_distinct_iff (s : RetxState) (hseq : (s.live.map (·.seq)).Nodup) (now : UInt64)
    (maxRetrans : Int) :
    (retxDetectLoss s now maxRetrans).1.Nodup ↔
      ∀ e, s.fastEntry = some e → e ∉ (s.holes now).take (maxRetrans.toNat - 1) := by
  obtain ⟨new, hnew, hnd, hmem⟩ := mapAccum_reportNew (·.seq) maxRetrans (·.timedOut now)
    (·.restart now) (s.suspects now maxRetrans) s.live
  rw [(retxDetectLoss_eq (count_le_of_nodup hseq) now maxRetrans).1, timeouts, hnew,
    ← nodup_suspects_iff hseq, List.nodup_append]
  constructor
  · exact And.left
  · intro h
    refine ⟨h, hnd, fun x hx y hy hxy => ?_⟩
    exact (hmem y hy).1 (hxy ▸ hx)

/-- Three packets of one byte, sent at once, the last of which is SACKed. -/
def sackedThird : List RetxOp :=
  [.enqueue true 1000 1 1 (.zeros _) 200, .enqueue true 1000 2 1 (.zeros _) 200,
    .enqueue true 1000 3 1 (.zeros _) 200, .sack [⟨3, 4⟩]]

/-- Without a fast retransmit, the two packets before the last are reported once. -/
theorem reports_distinct_iff_sample :
    ∃ s, retxRun sackedThird = some s ∧ (s.live.map (·.seq)).Nodup ∧
      (retxDetectLoss s 1150 8).1.Nodup := by
  have hmap : (retxRun sackedThird).map (fun s => (s.live.map (·.seq), s.fastEntry.isSome)) =
      some ([1, 2, 3], false) := by
    decide +kernel
  obtain ⟨s, hrun, hs⟩ := Option.map_eq_some_iff.mp hmap
  obtain ⟨hlive, hfast⟩ := Prod.mk.inj hs
  have hseq : (s.live.map (·.seq)).Nodup := by
    rw [hlive]
    decide
  refine ⟨s, hrun, hseq, (reports_distinct_iff s hseq 1150 8).mpr fun e he => ?_⟩
  rw [he] at hfast
  cases hfast

/-- With three duplicate ACKs, the first packet is reported by the fast retransmit and as a hole. -/
theorem packet_reported_twice :
    (retxRun (sackedThird ++ [.ack 0, .ack 0, .ack 0])).map (fun s =>
      (s.live.map (·.seq), (retxDetectLoss s 1150 8).1)) = some ([1, 2, 3], [1, 1, 2]) := by
  decide +kernel

/-! ## Repeated reports -/

/-- A timer that has just started. -/
lemma ageMs_restart (now : UInt64) (e : RetxEntry) : (e.restart now).ageMs now = 0 := by
  apply UInt32.toNat_inj.mp
  have hnow := now.toNat_lt
  rw [RetxEntry.ageMs, RetxEntry.restart]
  rw [UInt64.toNat_toUInt32, UInt64.toNat_sub, UInt32.toNat_toUInt64, UInt64.toNat_toUInt32]
  show _ = 0
  omega

/-- The timeout is doubled up to its bound. -/
lemma toNat_rtoMs_restart (now : UInt64) (e : RetxEntry) :
    (e.restart now).rtoMs.toNat = if e.rtoMs.toNat < 30000 then 2 * e.rtoMs.toNat else 60000 := by
  have hlt : e.rtoMs < maxRtoMs / 2 ↔ e.rtoMs.toNat < 30000 := UInt32.lt_iff_toNat_lt
  rw [RetxEntry.restart, apply_ite UInt32.toNat, UInt32.toNat_mul, if_congr hlt rfl rfl]
  show (if e.rtoMs.toNat < 30000 then e.rtoMs.toNat * 2 % 2 ^ 32 else 60000) = _
  split
  · omega
  · rfl

/-- An entry whose timer was just restarted is not reported. -/
lemma restart_silent (h : 2 ≤ e.rtoMs) (now : UInt64) (blocks : List SackBlock) :
    (e.restart now).timedOut now = false ∧ (e.restart now).isHole now blocks = false := by
  rw [UInt32.le_iff_toNat_le, show (2 : UInt32).toNat = 2 from rfl] at h
  have hrto : 2 ≤ (e.restart now).rtoMs.toNat := by
    rw [toNat_rtoMs_restart]
    split <;> omega
  have htimeout : ¬ (0 : UInt32) ≥ (e.restart now).rtoMs := by
    rw [ge_iff_le, UInt32.le_iff_toNat_le, UInt32.toNat_zero]
    omega
  have hhalf : ¬ (0 : UInt32) ≥ (e.restart now).rtoMs / 2 := by
    rw [ge_iff_le, UInt32.le_iff_toNat_le, UInt32.toNat_zero, UInt32.toNat_div,
      show (2 : UInt32).toNat = 2 from rfl]
    omega
  rw [RetxEntry.timedOut, RetxEntry.isHole, ageMs_restart, decide_eq_false htimeout,
    decide_eq_false hhalf, Bool.and_false, Bool.and_false]
  exact ⟨rfl, rfl⟩

section Room
variable {s : RetxState} {maxRetrans : Int} (hmax : (s.count.toNat : Int) + 1 ≤ maxRetrans)

lemma length_live (s : RetxState) : s.live.length = s.count.toNat := by
  rw [RetxState.live, Circular.length_window]

/-- At most one packet. -/
lemma RetxState.length_fastEntry_le (s : RetxState) : s.fastEntry.toList.length ≤ 1 := by
  cases s.fastEntry <;> simp

include hmax

/-- With room for all entries and one more, the first two passes report all that they find. -/
lemma suspects_eq (now : UInt64) :
    s.suspects now maxRetrans = (s.fastEntry.toList ++ s.holes now).map (·.seq) := by
  have hholes : (s.holes now).length ≤ s.count.toNat := by
    rw [← length_live]
    exact List.length_filter_le _ _
  have hfast := s.length_fastEntry_le
  rw [RetxState.suspects, fastRetransmit_fst, if_pos (by omega), List.map_append,
    List.take_of_length_le]
  rw [List.length_map, List.length_map]
  omega

/-- There is room for what is suspected. -/
lemma suspects_room (now : UInt64) :
    Room (·.seq) maxRetrans (s.suspects now maxRetrans) s.live := by
  have hfast := s.length_fastEntry_le
  have hsplit := List.length_eq_countP_add_countP (l := s.live) (·.isHole now s.sackBlocks)
  have hle : (s.live.countP fun e => e.seq ∉ s.suspects now maxRetrans) ≤
      s.live.countP fun e => ¬ e.isHole now s.sackBlocks = true := by
    refine List.countP_mono_left fun e he hnot => ?_
    rw [decide_eq_true_iff] at hnot ⊢
    refine fun hhole => hnot ?_
    rw [suspects_eq hmax]
    exact List.mem_map_of_mem (List.mem_append_right _ (List.mem_filter.mpr ⟨he, hhole⟩))
  have hlen : (s.suspects now maxRetrans).length =
      s.fastEntry.toList.length + s.live.countP (·.isHole now s.sackBlocks) := by
    rw [suspects_eq hmax, List.length_map, List.length_append, List.countP_eq_length_filter]
    rfl
  rw [length_live] at hsplit
  rw [Room, hlen]
  omega

end Room

/-- What a call leaves as it is; and the duplicate ACKs are used up. -/
lemma retxDetectLoss_frame (s : RetxState) (now : UInt64) (maxRetrans : Int) :
    (retxDetectLoss s now maxRetrans).2.count = s.count ∧
      (retxDetectLoss s now maxRetrans).2.sackBlocks = s.sackBlocks ∧
      (retxDetectLoss s now maxRetrans).2.fastEntry = none := by
  have hdup : ¬ (fastRetransmit s maxRetrans).2.dupAckCount ≥ dupAckThresh := by
    rw [fastRetransmit]
    split
    · split <;> exact (by decide : ¬ (0 : UInt32) ≥ dupAckThresh)
    · assumption
  obtain ⟨retrans, fast, dup, hs⟩ := fastRetransmit_eq s maxRetrans
  rw [hs] at hdup
  rw [retxDetectLoss, hs]
  exact ⟨rfl, rfl, if_neg hdup⟩

/-- A call without a fast retransmit reports nothing if and only if there is nothing to report. -/
lemma report_eq_nil_iff (hle : s.count.toNat ≤ retxQueueMax) (now : UInt64)
    {maxRetrans : Int} (hmax : (s.count.toNat : Int) + 1 ≤ maxRetrans)
    (hfast : s.fastEntry = none) :
    (retxDetectLoss s now maxRetrans).1 = [] ↔
      (∀ e ∈ s.live, e.isHole now s.sackBlocks = false) ∧ ∀ e ∈ s.live, e.timedOut now = false := by
  have hholes : s.holes now = [] ↔ ∀ e ∈ s.live, e.isHole now s.sackBlocks = false := by
    simp only [RetxState.holes, List.filter_eq_nil_iff, Bool.not_eq_true]
  rw [(retxDetectLoss_eq hle now maxRetrans).1, suspects_eq hmax, hfast, ← hholes, timeouts]
  cases hcases : s.holes now with
  | nil =>
    rw [and_iff_right rfl]
    exact reportNew_eq_nil_iff (by omega)
  | cons e l =>
    obtain ⟨new, hnew, -⟩ := mapAccum_reportNew (·.seq) maxRetrans (·.timedOut now) (·.restart now)
      (((none : Option RetxEntry).toList ++ e :: l).map (·.seq)) s.live
    rw [hnew]
    exact iff_of_false (List.cons_ne_nil _ _) fun h => List.cons_ne_nil _ _ h.1

section Again
variable {s : RetxState} {now : UInt64} {maxRetrans : Int}
variable (hmax : (s.count.toNat : Int) + 1 ≤ maxRetrans)
include hmax

/-- A hole is in the report before the timeouts, so its timer runs on. -/
lemma mem_live_of_isHole {e : RetxEntry} (he : e ∈ s.live)
    (hhole : e.isHole now s.sackBlocks = true) :
    e ∈ (mapAccum (timeouts now maxRetrans) (s.suspects now maxRetrans) s.live).2 := by
  apply mem_reportNew_of_key_mem he
  rw [suspects_eq hmax]
  exact List.mem_map_of_mem (List.mem_append_right _ (List.mem_filter.mpr ⟨he, hhole⟩))

/-- Without holes, what is reported before the timeouts is the packet of the fast retransmit. -/
lemma restarted_iff (hrto : ∀ e ∈ s.live, 2 ≤ e.rtoMs)
    (hhole : ∀ e ∈ s.live, e.isHole now s.sackBlocks = false) :
    (∀ e ∈ (mapAccum (timeouts now maxRetrans) (s.suspects now maxRetrans) s.live).2,
      e.timedOut now = false) ↔
      ((s.fastEntry.toList ++ s.live.filter (·.timedOut now)).map (·.seq)).Nodup := by
  have hholes : s.holes now = [] := List.filter_eq_nil_iff.mpr fun e he => by simp [hhole e he]
  have hsuspects := suspects_eq hmax now
  rw [hholes, List.append_nil] at hsuspects
  have hnd : (s.suspects now maxRetrans).Nodup := by
    rw [hsuspects]
    cases s.fastEntry <;> simp
  have hupd : ∀ e ∈ s.live, (e.restart now).timedOut now = false := fun e he =>
    (restart_silent (hrto e he) now []).1
  rw [timeouts, (suspects_room hmax now).replaced_iff hnd hupd, hsuspects, List.map_append]

end Again

/-- For a queue whose live timeouts are at least 2 ms, and with room for all entries and one more in
the report: a second call at the same time reports nothing if and only if no entry is a SACK hole
and the packets of the fast retransmit and of the timeouts are different. -/
theorem second_report_empty_iff (s : RetxState) (hle : s.count.toNat ≤ retxQueueMax)
    (hrto : ∀ e ∈ s.live, 2 ≤ e.rtoMs) (now : UInt64) (maxRetrans : Int)
    (hmax : (s.count.toNat : Int) + 1 ≤ maxRetrans) :
    (retxDetectLoss (retxDetectLoss s now maxRetrans).2 now maxRetrans).1 = [] ↔
      (∀ e ∈ s.live, e.isHole now s.sackBlocks = false) ∧
        ((s.fastEntry.toList ++ s.live.filter (·.timedOut now)).map (·.seq)).Nodup := by
  obtain ⟨hcount, hsack, hfast⟩ := retxDetectLoss_frame s now maxRetrans
  rw [report_eq_nil_iff (hcount ▸ hle) now (hcount ▸ hmax) hfast, hsack,
    (retxDetectLoss_eq hle now maxRetrans).2]
  constructor
  · rintro ⟨hhole, htimeout⟩
    have hhole' : ∀ e ∈ s.live, e.isHole now s.sackBlocks = false := by
      intro e he
      by_contra htrue
      rw [Bool.not_eq_false] at htrue
      rw [hhole e (mem_live_of_isHole hmax he htrue)] at htrue
      cases htrue
    exact ⟨hhole', (restarted_iff hmax hrto hhole').mp htimeout⟩
  · rintro ⟨hhole, hnd⟩
    refine ⟨fun e he => ?_, (restarted_iff hmax hrto hhole).mpr hnd⟩
    obtain he | ⟨e₀, he₀, rfl⟩ := mem_mapAccum_reportNew he
    · exact hhole e he
    · exact (restart_silent (hrto e₀ he₀) now _).2

/-- Two packets that time out are reported once. -/
theorem second_report_empty_iff_sample :
    ∃ s, retxRun [.enqueue true 1000 1 1 (.zeros _) 200, .enqueue true 1000 2 1 (.zeros _) 200] =
      some s ∧
      (retxDetectLoss s 1200 3).1 = [1, 2] ∧
      (retxDetectLoss (retxDetectLoss s 1200 3).2 1200 3).1 = [] := by
  have hmap : (retxRun [.enqueue true 1000 1 1 (.zeros _) 200,
      .enqueue true 1000 2 1 (.zeros _) 200]).map (fun s => (s.count, s.live.map (·.rtoMs),
        s.live.map (·.isHole 1200 s.sackBlocks),
        (s.fastEntry.toList ++ s.live.filter (·.timedOut 1200)).map (·.seq),
        (retxDetectLoss s 1200 3).1)) =
      some (2, [200, 200], [false, false], [1, 2], [1, 2]) := by
    decide +kernel
  obtain ⟨s, hrun, hs⟩ := Option.map_eq_some_iff.mp hmap
  obtain ⟨hcount, hs⟩ := Prod.mk.inj hs
  obtain ⟨hrto, hs⟩ := Prod.mk.inj hs
  obtain ⟨hhole, hs⟩ := Prod.mk.inj hs
  obtain ⟨hseq, hfirst⟩ := Prod.mk.inj hs
  have hrto' : ∀ e ∈ s.live, 2 ≤ e.rtoMs := by
    rw [← List.forall_mem_map (P := (2 ≤ ·)), hrto]
    simp
  have hhole' : ∀ e ∈ s.live, e.isHole 1200 s.sackBlocks = false := by
    rw [← List.forall_mem_map (P := (· = false)), hhole]
    decide
  refine ⟨s, hrun, hfirst, ?_⟩
  refine (second_report_empty_iff s (by rw [hcount]; decide) hrto' 1200 3
    (by rw [hcount]; decide)).mpr ⟨hhole', ?_⟩
  rw [hseq]
  decide

/-- The holes are reported again by the next call. -/
theorem hole_reported_again :
    (retxRun sackedThird).map (fun s => ((retxDetectLoss s 1150 8).1,
      (retxDetectLoss (retxDetectLoss s 1150 8).2 1150 8).1, s.live.map (·.rtoMs), s.count)) =
      some ([1, 2], [1, 2], [200, 200, 200], 3) := by
  decide +kernel

/-! ## Timeouts -/

/-- The age of an entry that was sent less than `2 ^ 32` ms ago does not see the
clock wrap around. -/
lemma toNat_ageMs {sent : Nat} (hsent : sent ≤ now.toNat)
    (hage : now.toNat - sent < 2 ^ 32) (hstored : e.sentTsMs.toNat = sent % 2 ^ 32) :
    (e.ageMs now).toNat = now.toNat - sent := by
  have hnow := now.toNat_lt
  rw [RetxEntry.ageMs, UInt64.toNat_toUInt32, UInt64.toNat_sub, UInt32.toNat_toUInt64, hstored]
  omega

/-- A longer timeout within the bound. -/
def RetxEntry.BackedOff (e e' : RetxEntry) : Prop :=
  e.rtoMs ≤ maxRtoMs → e'.rtoMs ≤ maxRtoMs ∧ e.rtoMs ≤ e'.rtoMs

/-- A new start backs off. -/
lemma backedOff_restart (now : UInt64) (e : RetxEntry) : e.BackedOff (e.restart now) := by
  intro h
  rw [UInt32.le_iff_toNat_le, show maxRtoMs.toNat = 60000 from rfl] at h
  rw [UInt32.le_iff_toNat_le, UInt32.le_iff_toNat_le, toNat_rtoMs_restart,
    show maxRtoMs.toNat = 60000 from rfl]
  split <;> omega

/-- Every entry is kept or backed off. -/
lemma retxDetectLoss_backedOff (s : RetxState) (now : UInt64) (maxRetrans : Int) (k : Nat) :
    (s.entries k).BackedOff ((retxDetectLoss s now maxRetrans).2.entries k) := by
  obtain ⟨retrans, fast, dup, hs⟩ := fastRetransmit_eq s maxRetrans
  rw [retxDetectLoss, hs]
  refine retxRing.sweep_rel (fun e h => ⟨h, UInt32.le_refl _⟩) (fun e₁ e₂ e₃ h₁₂ h₂₃ h => ?_)
    (fun acc e => ?_) _ _ _ _ k
  · obtain ⟨hle₂, h₁₂⟩ := h₁₂ h
    obtain ⟨hle₃, h₂₃⟩ := h₂₃ hle₂
    exact ⟨hle₃, UInt32.le_trans h₁₂ h₂₃⟩
  · rw [timeoutBody]
    split
    · exact backedOff_restart now e
    · exact fun h => ⟨h, UInt32.le_refl _⟩

/-- What is reported are sequence numbers of live entries that are neither
acknowledged nor SACKed. -/
lemma exists_pending_of_reported (hle : s.count.toNat ≤ retxQueueMax)
    {maxRetrans : Int} (hmax : (s.count.toNat : Int) + 1 ≤ maxRetrans) {seq : UInt32}
    (hmem : seq ∈ (retxDetectLoss s now maxRetrans).1) :
    ∃ e ∈ s.live, e.pending = true ∧ e.seq = seq := by
  obtain ⟨new, hnew, -, hdue⟩ := mapAccum_reportNew (·.seq) maxRetrans (·.timedOut now)
    (·.restart now) (s.suspects now maxRetrans) s.live
  rw [(retxDetectLoss_eq hle now maxRetrans).1, timeouts, hnew, suspects_eq hmax] at hmem
  obtain hmem | hmem := List.mem_append.mp hmem
  · obtain ⟨e, he, rfl⟩ := List.mem_map.mp hmem
    obtain he | he := List.mem_append.mp he
    · obtain ⟨hlive, hpending⟩ := mem_live_of_fastEntry (Option.mem_toList.mp he)
      exact ⟨e, hlive, hpending, rfl⟩
    · obtain ⟨hlive, hhole⟩ := List.mem_filter.mp he
      exact ⟨e, hlive, RetxEntry.pending_of_isHole hhole, rfl⟩
  · obtain ⟨-, e, hlive, htimeout, rfl⟩ := hdue seq hmem
    exact ⟨e, hlive, (RetxEntry.timedOut_iff.mp htimeout).1, rfl⟩

/-- With distinct sequence numbers and room for all entries and one more in the report: every live
entry that is neither acknowledged nor SACKed and was last sent at least its timeout ago is
reported, at any time of the clock; only entries that are neither acknowledged nor SACKed are
reported, and no more than there is room for; and timeouts within the bound stay within the bound
and are not made shorter. -/
theorem timeouts_reported (s : RetxState) (hseq : (s.live.map (·.seq)).Nodup) (now : UInt64)
    (maxRetrans : Int) (hmax : (s.count.toNat : Int) + 1 ≤ maxRetrans) :
    (∀ e ∈ s.live, e.acked = false → e.sacked = false →
      ∀ sent ≤ now.toNat, now.toNat - sent < 2 ^ 32 → e.sentTsMs.toNat = sent % 2 ^ 32 →
        e.rtoMs.toNat ≤ now.toNat - sent → e.seq ∈ (retxDetectLoss s now maxRetrans).1) ∧
      (∀ seq ∈ (retxDetectLoss s now maxRetrans).1,
        ∃ e ∈ s.live, e.acked = false ∧ e.sacked = false ∧ e.seq = seq) ∧
      ((retxDetectLoss s now maxRetrans).1.length : Int) ≤ maxRetrans ∧
      ∀ k, (s.entries k).rtoMs ≤ maxRtoMs →
        ((retxDetectLoss s now maxRetrans).2.entries k).rtoMs ≤ maxRtoMs ∧
          (s.entries k).rtoMs ≤ ((retxDetectLoss s now maxRetrans).2.entries k).rtoMs := by
  have hle := count_le_of_nodup hseq
  have hreport := (retxDetectLoss_eq hle now maxRetrans).1
  have room := suspects_room hmax now
  refine ⟨fun e he hacked hsacked sent hsent hage hstored hrto => ?_, fun seq hmem => ?_, ?_,
    retxDetectLoss_backedOff s now maxRetrans⟩
  · have hpending : e.pending = true := RetxEntry.pending_iff.mpr ⟨hacked, hsacked⟩
    rw [← toNat_ageMs hsent hage hstored] at hrto
    rw [hreport]
    exact room.mem_reportNew he (RetxEntry.timedOut_iff.mpr ⟨hpending, hrto⟩)
  · obtain ⟨e, hlive, hpending, hseq⟩ := exists_pending_of_reported hle hmax hmem
    obtain ⟨hacked, hsacked⟩ := RetxEntry.pending_iff.mp hpending
    exact ⟨e, hlive, hacked, hsacked, hseq⟩
  · have hsuspects : ((s.suspects now maxRetrans).length : Int) ≤ maxRetrans := by
      rw [Room] at room
      omega
    rw [hreport]
    exact length_reportNew_le hsuspects

/-- A packet that was sent 100 ms before the clock wraps around has timed out 100 ms after that. -/
theorem timeouts_reported_sample :
    ∃ s, retxRun [.enqueue true 0xFFFFFF9C 7 1 (.zeros _) 200] = some s ∧
      7 ∈ (retxDetectLoss s 0x100000064 2).1 := by
  have hmap : (retxRun [.enqueue true 0xFFFFFF9C 7 1 (.zeros _) 200]).map
    (fun s => (s.count, s.live)) =
      some (1, [⟨7, 0xFFFFFF9C, 200, false, false, some [0], 1⟩]) := by
    decide +kernel
  obtain ⟨s, hrun, hs⟩ := Option.map_eq_some_iff.mp hmap
  obtain ⟨hcount, hlive⟩ := Prod.mk.inj hs
  have hseq : (s.live.map (·.seq)).Nodup := by
    rw [hlive]
    decide
  refine ⟨s, hrun, ?_⟩
  refine (timeouts_reported s hseq 0x100000064 2 (by rw [hcount]; decide)).1
    ⟨7, 0xFFFFFF9C, 200, false, false, some [0], 1⟩ ?_ rfl rfl 0xFFFFFF9C ?_ ?_ ?_ ?_
  · rw [hlive]
    exact List.mem_cons_self
  all_goals decide

end RoboControl.Retransmit
