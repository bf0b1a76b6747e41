import RoboControl.Base.Bytes
import RoboControl.Base.Circular

/-!
# Retransmission queue

Model of `src/core/rc_retransmit.c`: the circular buffer `RetxState` (C `rc_retx_state_t`) and its
operations `retxEnqueue` (C `rc_retx_enqueue`), `retxProcessAck` (C `rc_retx_process_ack`),
`retxProcessSack` (C `rc_retx_process_sack`) and `retxDetectLoss` (C `rc_retx_detect_loss`), and the
timeout `calcRto` (C `rc_calc_rto`).

The loops of the file run over the live entries with a 32-bit index that is reduced modulo 4096 at
each access: they are `Circular.sweep` with the loop's body. A body that the loop condition no
longer reaches is one that changes nothing. Allocation and the clock are arguments.
-/

namespace RoboControl.Retransmit
open Base

/-- Queue depth (C `RC_RETX_QUEUE_MAX`). -/
def retxQueueMax : Nat := 4096

/-- Duplicate ACKs that trigger a fast retransmit (C `RC_DUP_ACK_THRESH`). -/
def dupAckThresh : UInt32 := 3

/-- Maximum SACK blocks per packet (C `RC_MAX_SACK_BLOCKS`). -/
def maxSackBlocks : Nat := 4

/-- Minimum retransmission timeout (C `RC_MIN_RTO_MS`). -/
def minRtoMs : UInt32 := 200

/-- Maximum retransmission timeout (C `RC_MAX_RTO_MS`). -/
def maxRtoMs : UInt32 := 60000

/-- The timeout for a smoothed round-trip time and its variance (C `rc_calc_rto`). -/
def calcRto (srttMs rttvarMs : UInt32) : UInt32 :=
  let rto := srttMs + if rttvarMs > 50 then 4 * rttvarMs else 200
  let rto := if rto < minRtoMs then minRtoMs else rto
  if rto > maxRtoMs then maxRtoMs else rto

/-- A half-open range of sequence numbers (C `rc_sack_block_t`). -/
structure SackBlock where
  leftEdge : UInt32
  rightEdge : UInt32
  deriving DecidableEq

/-- An entry of the queue (C `rc_retx_entry_t`); `pktData` is `none` for a null pointer. -/
structure RetxEntry where
  seq : UInt32
  sentTsMs : UInt32
  rtoMs : UInt32
  acked : Bool
  sacked : Bool
  pktData : Option (List UInt8)
  pktLen : UInt16
  deriving DecidableEq

/-- Retransmission state (C `rc_retx_state_t`); the SACK blocks are the `sack_count` valid ones. -/
structure RetxState where
  entries : Nat → RetxEntry
  head : UInt32
  tail : UInt32
  count : UInt32
  dupAckCount : UInt32
  dupAckSeq : UInt32
  sackBlocks : List SackBlock
  fastRetransmits : UInt32
  timeoutRetransmits : UInt32

/-- An empty queue (C `rc_retx_create`). -/
def retxCreate : RetxState where
  entries _ := ⟨0, 0, 0, false, false, none, 0⟩
  head := 0
  tail := 0
  count := 0
  dupAckCount := 0
  dupAckSeq := 0
  sackBlocks := []
  fastRetransmits := 0
  timeoutRetransmits := 0

/-- The slots of the queue: 32-bit indices modulo 4096, which divides `2 ^ 32`. -/
def retxRing : Circular UInt32 Nat where
  succ idx := idx + 1
  slot idx := idx.toNat % retxQueueMax
  size := retxQueueMax
  distinct h i j hi hj e := by
    rw [toNat_iterate_add_one, toNat_iterate_add_one, retxQueueMax] at e
    rw [retxQueueMax] at hi hj
    omega

/-- The live entries: `count` of them from `head` on. -/
def RetxState.live (s : RetxState) : List RetxEntry :=
  retxRing.window s.entries s.head s.count.toNat

/-- Enqueue a packet (C `rc_retx_enqueue`). -/
def retxEnqueue (alloc : Bool) (now : UInt64) (s : RetxState) (seq : UInt32) (pktLen : UInt16)
    (pktData : Bytes pktLen.toNat) (rtoMs : UInt32) : Int × RetxState :=
  if s.count.toNat ≥ retxQueueMax then (-1, s)
  else
    let slot := retxRing.slot s.tail
    let e := { s.entries slot with
      seq := seq, sentTsMs := now.toUInt32, rtoMs := rtoMs, acked := false, sacked := false,
      pktLen := pktLen, pktData := none }
    -- The entry behind the window is already overwritten, but not counted.
    if alloc = false then (-1, { s with entries := Function.update s.entries slot e })
    else
      let e := { e with pktData := some pktData.toList }
      (0, { s with
        entries := Function.update s.entries slot e, tail := s.tail + 1, count := s.count + 1 })

/-! ## Acknowledgements -/

/-- Mark an entry that a cumulative ACK covers, and count it. -/
def ackBody (ackSeq : UInt32) (acked : Int) (e : RetxEntry) : Int × RetxEntry :=
  if e.acked = false ∧ e.seq ≤ ackSeq then (acked + 1, { e with acked := true }) else (acked, e)

/-- Remove acknowledged entries from the head, at most as many as there are. -/
def drain : Nat → RetxState → RetxState
  | 0, s => s
  | n + 1, s =>
    let slot := retxRing.slot s.head
    let e := s.entries slot
    if e.acked then
      drain n { s with
        entries := Function.update s.entries slot { e with pktData := none }
        head := s.head + 1
        count := s.count - 1 }
    else s

/-- Process a cumulative ACK (C `rc_retx_process_ack`). -/
def retxProcessAck (s : RetxState) (ackSeq : UInt32) : Int × RetxState :=
  let (acked, entries) := retxRing.sweep (ackBody ackSeq) s.count.toNat s.head 0 s.entries
  let s := drain s.count.toNat { s with entries }
  if acked = 0 ∧ s.count > 0 then
    if ackSeq = s.dupAckSeq then (acked, { s with dupAckCount := s.dupAckCount + 1 })
    else (acked, { s with dupAckSeq := ackSeq, dupAckCount := 1 })
  else (acked, { s with dupAckCount := 0 })

/-- Mark an entry that a SACK block covers, and count it. -/
def sackBody (blocks : List SackBlock) (sacked : Int) (e : RetxEntry) : Int × RetxEntry :=
  -- Marks are never taken back.
  if e.acked || e.sacked then (sacked, e)
  else if blocks.any fun b => e.seq ≥ b.leftEdge && e.seq < b.rightEdge then
    (sacked + 1, { e with sacked := true })
  else (sacked, e)

/-- Process SACK blocks (C `rc_retx_process_sack`). -/
def retxProcessSack (s : RetxState) (blocks : List SackBlock) : Int × RetxState :=
  let blocks := blocks.take maxSackBlocks
  let s := { s with sackBlocks := blocks }
  let (sacked, entries) := retxRing.sweep (sackBody blocks) s.count.toNat s.head 0 s.entries
  (sacked, { s with entries })

/-! ## Loss detection -/

/-- The first of `n` entries that a fast retransmit takes. -/
def fastScan (s : RetxState) : Nat → UInt32 → Option UInt32
  | 0, _ => none
  | n + 1, idx =>
    let e := s.entries (retxRing.slot idx)
    if !e.acked && !e.sacked && e.seq > s.dupAckSeq then some e.seq else fastScan s n (idx + 1)

/-- Milliseconds since an entry was sent, in 32 bits. -/
def RetxEntry.ageMs (e : RetxEntry) (now : UInt64) : UInt32 := (now - e.sentTsMs.toUInt64).toUInt32

/-- Report an entry with SACKed data beyond it that is half its timeout old. -/
def holeBody (now : UInt64) (maxRetrans : Int) (blocks : List SackBlock) (retrans : List UInt32)
    (e : RetxEntry) : List UInt32 × RetxEntry :=
  if (retrans.length : Int) < maxRetrans ∧ e.acked = false ∧ e.sacked = false ∧
      (blocks.any fun b => b.leftEdge > e.seq) ∧ e.ageMs now ≥ e.rtoMs / 2 then
    (retrans ++ [e.seq], e)
  else (retrans, e)

/-- Report an entry that has timed out and was not reported yet, and restart its timer. -/
def timeoutBody (now : UInt64) (maxRetrans : Int) (acc : List UInt32 × UInt32) (e : RetxEntry) :
    (List UInt32 × UInt32) × RetxEntry :=
  if (acc.1.length : Int) < maxRetrans ∧ e.acked = false ∧ e.sacked = false ∧
      e.ageMs now ≥ e.rtoMs ∧ e.seq ∉ acc.1 then
    ((acc.1 ++ [e.seq], acc.2 + 1),
      { e with
        rtoMs := if e.rtoMs < maxRtoMs / 2 then e.rtoMs * 2 else maxRtoMs
        sentTsMs := now.toUInt32 })
  else (acc, e)

/-- The fast retransmit of loss detection: one packet after enough duplicate ACKs. -/
def fastRetransmit (s : RetxState) (maxRetrans : Int) : List UInt32 × RetxState :=
  if s.dupAckCount ≥ dupAckThresh then
    match if 0 < maxRetrans then fastScan s s.count.toNat s.head else none with
    | some seq => ([seq], { s with fastRetransmits := s.fastRetransmits + 1, dupAckCount := 0 })
    | none => ([], { s with dupAckCount := 0 })
  else ([], s)

/-- The packets to retransmit (C `rc_retx_detect_loss`). -/
def retxDetectLoss (s : RetxState) (now : UInt64) (maxRetrans : Int) : List UInt32 × RetxState :=
  let (retrans, s) := fastRetransmit s maxRetrans
  let retrans :=
    if s.sackBlocks.length > 0 then
      (retxRing.sweep (holeBody now maxRetrans s.sackBlocks) s.count.toNat s.head retrans
        s.entries).1
    else retrans
  let ((retrans, timeouts), entries) := retxRing.sweep (timeoutBody now maxRetrans) s.count.toNat
    s.head (retrans, s.timeoutRetransmits) s.entries
  (retrans, { s with entries, timeoutRetransmits := timeouts })

end RoboControl.Retransmit
