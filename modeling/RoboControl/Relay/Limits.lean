import RoboControl.Base.Run
import RoboControl.Base.Window
import RoboControl.Proto.Validate
import RoboControl.Relay.Forward

/-!
# Limits of forwarding

Two limits of `src/core/rc_relay.c` that a packet is checked against late or not at all.

`rc_relay_forward` copies a packet into a local buffer for one header and one payload. The length is
compared with the header's only, and `rc_pkt_validate`, which would refuse a longer packet, is not
called: the copy stays in the buffer exactly if the packet fits, or if its header, its route, its
session or the bandwidth limit stops it (`relay_copy_bounded_iff`).

`bw_check` counts bytes in a window of one second that starts again with the first packet after it.
The bytes of the window before are forgotten then, so two full windows may follow each other at
once. What it admits are the packets that such fixed windows have room for
(`Metered.admitted_foldl`), and they keep the limit in every second exactly if each two windows in a
row do (`bw_limit_iff`).
-/

namespace RoboControl.Relay
open Base Proto

/-! ## The local buffer -/

/-- What stops a packet before the copy: its header, or that it has no route, that its session is
not in use, or that the window of its session has no room for it. -/
def Stopped (host : Endian) (srv : RelayServer) (pkt : List UInt8) (now : UInt64) : Prop :=
  (hdrUnpack host pkt).2.magic ≠ rcMagic ∨ (hdrUnpack host pkt).2.version ≠ protoVersion ∨
    ∀ route, routeLookup srv (hdrUnpack host pkt).2.connId = some route →
      (srv.sessions route.session).active = false ∨
        (srv.sessions route.session).bwLimitBps <
          (srv.sessions route.session).counted now + pkt.length.toUInt32.toUInt64

section Copy
variable {host : Endian} {srv : RelayServer} {pkt : List UInt8} {now : UInt64} (now' : UInt64)
  (sent : Bool)

/-- A packet that is stopped is not copied. -/
lemma relayForwardTraced_of_stopped (h : Stopped host srv pkt now) :
    (relayForwardTraced host srv pkt now now' sent).1 = [] := by
  rw [relayForwardTraced]
  split
  · rfl
  dsimp only
  split
  · rfl
  · next hret =>
    obtain ⟨hmagic, hversion⟩ := (hdrUnpack_eq_zero_iff host pkt).mp (not_not.mp hret)
    replace h := (h.resolve_left (not_not.mpr hmagic)).resolve_left (not_not.mpr hversion)
    split
    · rfl
    · next route hroute =>
      split
      · rfl
      · next hactive =>
        have hfull := UInt64.not_le.mpr ((h route hroute).resolve_left hactive)
        rw [← bwCheck_fst_iff, Bool.not_eq_true] at hfull
        rw [if_pos hfull]

/-- Any other packet that has a header is copied, however long it is. -/
lemma relayForwardTraced_of_not_stopped (hlen : headerSize ≤ pkt.length)
    (h : ¬ Stopped host srv pkt now) :
    (relayForwardTraced host srv pkt now now' sent).1 = List.range pkt.length := by
  simp only [Stopped, not_or, not_not, not_forall] at h
  obtain ⟨hmagic, hversion, route, hroute, hactive, hroom⟩ := h
  have hret : (hdrUnpack host pkt).1 = 0 := (hdrUnpack_eq_zero_iff host pkt).mpr ⟨hmagic, hversion⟩
  rw [UInt64.not_lt, ← bwCheck_fst_iff] at hroom
  rw [relayForwardTraced, if_neg (not_lt.mpr hlen)]
  simp only [hret, ne_eq, not_true_eq_false, if_false, hroute, if_neg hactive, hroom,
    Bool.true_eq_false]
  cases sent with
  | false => rfl
  | true => rfl

/-- The indices that the copy writes are within a buffer that holds a header. -/
lemma forall_writes_lt_iff {n : Nat} (hn : headerSize ≤ n) :
    (∀ i ∈ (relayForwardTraced host srv pkt now now' sent).1, i < n) ↔
      pkt.length ≤ n ∨ Stopped host srv pkt now := by
  by_cases hstop : Stopped host srv pkt now
  · rw [relayForwardTraced_of_stopped now' sent hstop]
    exact iff_of_true (fun i hi => (List.not_mem_nil hi).elim) (.inr hstop)
  by_cases hlen : headerSize ≤ pkt.length
  · rw [relayForwardTraced_of_not_stopped now' sent hlen hstop, forall_mem_range_lt_iff,
      or_iff_left hstop]
  · rw [relayForwardTraced, if_pos (not_le.mp hlen)]
    exact iff_of_true (fun i hi => (List.not_mem_nil hi).elim) (.inl ((le_of_not_ge hlen).trans hn))

end Copy

/-- A packet that `rc_pkt_validate` accepts fits into the buffer. -/
lemma length_le_of_pktValidate {host : Endian} {pkt : List UInt8} (h : pktValidate host pkt = 0) :
    pkt.length ≤ headerSize + maxPayload := by
  rw [pktValidate] at h
  split at h
  · cases h
  split at h
  · cases h
  split at h
  · cases h
  split at h
  · cases h
  omega

/-- For every packet and every table of routes, the copy of `rc_relay_forward` writes only indices
of the local buffer exactly if the packet is not longer than the buffer, or is stopped by its
header, its route, its session or the bandwidth limit; there is no check of the length. A packet
that `rc_pkt_validate` accepts fits. -/
theorem relay_copy_bounded_iff (host : Endian) (srv : RelayServer) (pkt : List UInt8)
    (now now' : UInt64) (sent : Bool) :
    ((∀ i ∈ (relayForwardTraced host srv pkt now now' sent).1, i < headerSize + maxPayload) ↔
      pkt.length ≤ headerSize + maxPayload ∨ Stopped host srv pkt now) ∧
    (pktValidate host pkt = 0 →
      ∀ i ∈ (relayForwardTraced host srv pkt now now' sent).1, i < headerSize + maxPayload) := by
  have hn : headerSize ≤ headerSize + maxPayload := Nat.le_add_right _ _
  refine ⟨forall_writes_lt_iff now' sent hn, fun hvalid => ?_⟩
  exact (forall_writes_lt_iff now' sent hn).mpr (.inl (length_le_of_pktValidate hvalid))

/-- A header of connection 7 and a payload of 1401 bytes, one more than there is room for. -/
def longPkt : List UInt8 :=
  hdrPack .little (List.replicate 32 0) (hdrInit .data 5 7) ++ List.replicate 1401 0

/-- The long packet is copied, and the last of its bytes lies behind the buffer. -/
theorem long_packet_overruns :
    longPkt.length = 1433 ∧ headerSize + maxPayload = 1432 ∧
      1432 ∈ (relayForwardTraced .little sampleServer longPkt 1500 1500 true).1 ∧
      (relayForward .little sampleServer longPkt 1500 1500 true).isNone := by
  decide +kernel

/-! ## The bandwidth limit -/

/-- A packet that reaches `bw_check`: the time and the length. -/
structure Arrival where
  now : UInt64
  len : UInt32
  deriving DecidableEq

/-- A session and the packets that `bw_check` has admitted. -/
structure Metered where
  sess : RelaySession
  admitted : List Arrival

namespace Metered

/-- Check a packet. -/
def step (m : Metered) (p : Arrival) : Metered where
  sess := (bwCheck p.now m.sess p.len).2
  admitted := if (bwCheck p.now m.sess p.len).1 then m.admitted ++ [p] else m.admitted

/-- The bytes admitted in the 1000 ms from a time on. -/
def inSecond (m : Metered) (t : Nat) : Nat :=
  windowSum (fun p : Arrival => p.now.toNat) (fun p => p.len.toNat) m.admitted t 1000

end Metered

/-- The packets of a session in order. -/
def meter (sess : RelaySession) (ps : List Arrival) : Metered := ps.foldl Metered.step ⟨sess, []⟩

/-- The packets of a window that are admitted: in order, each one that there is still room for. -/
def packed (limit : UInt64) : UInt64 → List Arrival → List Arrival
  | _, [] => []
  | used, p :: ps =>
    if used + p.len.toUInt64 ≤ limit then p :: packed limit (used + p.len.toUInt64) ps
    else packed limit used ps

/-- The packets admitted in each window, of which the first one has been used before. -/
def packing (limit used : UInt64) : List (ℕ × List Arrival) → List (ℕ × List Arrival)
  | [] => []
  | b :: bs => (b.1, packed limit used b.2) :: bs.map fun c => (c.1, packed limit 0 c.2)

/-- The windows of a session: a new one starts with the first packet 1000 ms after the start of the
one before, and each has the packets that it has room for. -/
def windows (sess : RelaySession) (ps : List Arrival) : List (ℕ × List Arrival) :=
  packing sess.bwLimitBps sess.bwBytesThisSec
    (blocks (fun p : Arrival => p.now.toNat) 1000 sess.bwWindowStartMs.toNat ps)

/-- Only packets of the window are admitted. -/
lemma mem_of_mem_packed {limit used : UInt64} {ps : List Arrival} {p : Arrival}
    (h : p ∈ packed limit used ps) : p ∈ ps := by
  induction ps generalizing used with
  | nil => exact h
  | cons q ps ih =>
    rw [packed] at h
    split at h
    · rcases List.mem_cons.mp h with rfl | h
      · exact List.mem_cons_self
      · exact List.mem_cons_of_mem q (ih h)
    · exact List.mem_cons_of_mem q (ih h)

/-- The bytes of a window are within the limit, if the counter does not wrap around. -/
lemma sum_packed_le {limit used : UInt64} (ps : List Arrival) (hused : used ≤ limit)
    (hlimit : limit.toNat + 2 ^ 32 ≤ 2 ^ 64) :
    used.toNat + ((packed limit used ps).map fun p => p.len.toNat).sum ≤ limit.toNat := by
  induction ps generalizing used with
  | nil => exact UInt64.le_iff_toNat_le.mp hused
  | cons p ps ih =>
    rw [packed]
    split
    · next hroom =>
      have hlen : p.len.toUInt64.toNat = p.len.toNat := UInt32.toNat_toUInt64 _
      have hp := p.len.toNat_lt
      have hu := UInt64.le_iff_toNat_le.mp hused
      have hadd : (used + p.len.toUInt64).toNat = used.toNat + p.len.toNat := by
        rw [UInt64.toNat_add, hlen]
        omega
      have := ih hroom
      rw [hadd] at this
      rw [List.map_cons, List.sum_cons]
      omega
    · exact ih hused

/-- A window of a packing has packets of the block that it is for. -/
lemma exists_of_mem_packing {limit used : UInt64} {bs : List (ℕ × List Arrival)}
    {b : ℕ × List Arrival} (h : b ∈ packing limit used bs) :
    ∃ c ∈ bs, b = (c.1, packed limit used c.2) ∨ b = (c.1, packed limit 0 c.2) := by
  cases bs with
  | nil => exact absurd h List.not_mem_nil
  | cons c bs =>
    rcases List.mem_cons.mp h with rfl | h
    · exact ⟨c, List.mem_cons_self, .inl rfl⟩
    · obtain ⟨d, hd, rfl⟩ := List.mem_map.mp h
      exact ⟨d, List.mem_cons_of_mem c hd, .inr rfl⟩

/-- Whether the window of a session has passed. -/
lemma window_passed_iff {now start : UInt64} (h : start ≤ now) :
    now - start ≥ relayBwIntervalSec * 1000 ↔ start.toNat + 1000 ≤ now.toNat := by
  have hle := UInt64.le_iff_toNat_le.mp h
  rw [ge_iff_le, UInt64.le_iff_toNat_le, UInt64.toNat_sub_of_le _ _ h]
  show 1000 ≤ _ ↔ _
  omega

/-- What `bw_check` does to a session: it starts a window if the last one has passed, and counts the
packet if it is admitted. -/
lemma bwCheck_snd (now : UInt64) (sess : RelaySession) (pktLen : UInt32) :
    (bwCheck now sess pktLen).2.bwLimitBps = sess.bwLimitBps ∧
    (bwCheck now sess pktLen).2.bwWindowStartMs =
      (if now - sess.bwWindowStartMs ≥ relayBwIntervalSec * 1000 then now
        else sess.bwWindowStartMs) ∧
    (bwCheck now sess pktLen).2.bwBytesThisSec =
      if sess.counted now + pktLen.toUInt64 ≤ sess.bwLimitBps
        then sess.counted now + pktLen.toUInt64
      else sess.counted now := by
  rw [bwCheck, RelaySession.counted]
  split
  · split
    · next h => exact ⟨rfl, rfl, (if_neg (UInt64.not_le.mpr h)).symm⟩
    · next h => exact ⟨rfl, rfl, (if_pos (UInt64.not_lt.mp h)).symm⟩
  · split
    · next h => exact ⟨rfl, rfl, (if_neg (UInt64.not_le.mpr h)).symm⟩
    · next h => exact ⟨rfl, rfl, (if_pos (UInt64.not_lt.mp h)).symm⟩

section Meter
variable {sess : RelaySession} {ps : List Arrival}

/-- What the first packet adds to the windows, and where the others go. -/
lemma flatten_windows_cons {p : Arrival} (hstart : ∀ q ∈ p :: ps, sess.bwWindowStartMs ≤ q.now)
    (hsorted : (p :: ps).Pairwise (·.now ≤ ·.now)) :
    ((windows sess (p :: ps)).map Prod.snd).flatten =
      (if (bwCheck p.now sess p.len).1 then [p] else []) ++
        ((windows (bwCheck p.now sess p.len).2 ps).map Prod.snd).flatten := by
  obtain ⟨hp, hps⟩ := List.forall_mem_cons.mp hstart
  obtain ⟨hfirst, htail⟩ := List.pairwise_cons.mp hsorted
  obtain ⟨hlimit, hwindow, hbytes⟩ := bwCheck_snd p.now sess p.len
  have hsorted' := htail.imp UInt64.le_iff_toNat_le.mp
  simp only [windows, hlimit, hwindow, hbytes, bwCheck_fst_iff, blocks, window_passed_iff hp,
    RelaySession.counted]
  split
  · -- A new window, with the packet as its first.
    obtain ⟨l, bs, heq, -, -⟩ := exists_blocks (fun p : Arrival => p.now.toNat)
      (Nat.succ_pos 999) (fun q hq => UInt64.le_iff_toNat_le.mp (hfirst q hq)) hsorted'
    rw [heq]
    simp only [addTo, packing, packed, List.map_cons, List.flatten_cons, List.nil_append]
    split
    · rfl
    · rfl
  · obtain ⟨l, bs, heq, -, -⟩ := exists_blocks (fun p : Arrival => p.now.toNat)
      (Nat.succ_pos 999) (fun q hq => UInt64.le_iff_toNat_le.mp (hps q hq)) hsorted'
    rw [heq]
    simp only [addTo, packing, packed, List.map_cons, List.flatten_cons]
    split
    · rfl
    · rfl

/-- What `bw_check` admits are the packets that the windows have room for. -/
lemma Metered.admitted_foldl (m : Metered) (hstart : ∀ p ∈ ps, m.sess.bwWindowStartMs ≤ p.now)
    (hsorted : ps.Pairwise (·.now ≤ ·.now)) :
    (ps.foldl step m).admitted = m.admitted ++ ((windows m.sess ps).map Prod.snd).flatten := by
  induction ps generalizing m with
  | nil => simp [windows, blocks, packing, packed]
  | cons p ps ih =>
    obtain ⟨hfirst, htail⟩ := List.pairwise_cons.mp hsorted
    -- The window starts at the packet or where it did: the later packets are behind it.
    have hstart' : ∀ q ∈ ps, (m.step p).sess.bwWindowStartMs ≤ q.now := by
      intro q hq
      rw [step, (bwCheck_snd p.now m.sess p.len).2.1]
      split
      · exact hfirst q hq
      · exact hstart q (List.mem_cons_of_mem p hq)
    rw [List.foldl_cons, ih (m.step p) hstart' htail, flatten_windows_cons hstart hsorted, step]
    dsimp only
    split
    · rw [List.append_assoc]
    · rfl

/-- The windows of a session do not overlap, and their packets lie in them. -/
lemma windows_spaced (hstart : ∀ p ∈ ps, sess.bwWindowStartMs ≤ p.now)
    (hsorted : ps.Pairwise (·.now ≤ ·.now)) :
    (∀ b ∈ windows sess ps, ∀ p ∈ b.2, b.1 ≤ p.now.toNat ∧ p.now.toNat < b.1 + 1000) ∧
      (windows sess ps).Pairwise fun b c => b.1 + 1000 ≤ c.1 := by
  obtain ⟨l, bs, heq, hin, hstarts⟩ := exists_blocks (fun p : Arrival => p.now.toNat)
    (Nat.succ_pos 999) (fun q hq => UInt64.le_iff_toNat_le.mp (hstart q hq))
    (hsorted.imp UInt64.le_iff_toNat_le.mp)
  rw [windows, heq]
  constructor
  · intro b hb p hp
    obtain ⟨c, hc, rfl | rfl⟩ := exists_of_mem_packing hb
    · exact hin c hc p (mem_of_mem_packed hp)
    · exact hin c hc p (mem_of_mem_packed hp)
  · obtain ⟨hfirst, hbs⟩ := List.pairwise_cons.mp hstarts
    refine List.pairwise_cons.mpr ⟨List.forall_mem_map.mpr hfirst, ?_⟩
    exact List.pairwise_map.mpr hbs

end Meter

/-- For every session and all packets that arrive in order from the start of its window on, the
packets that `bw_check` admits keep the limit in every interval of 1000 ms exactly if
neighbouring windows do: with each packet of a window, what the window has up to it and what the
one before has in the last 1000 ms is within the limit. A window alone always is, unless its
counter wraps around. -/
theorem bw_limit_iff (sess : RelaySession) (ps : List Arrival)
    (hstart : ∀ p ∈ ps, sess.bwWindowStartMs ≤ p.now) (hsorted : ps.Pairwise (·.now ≤ ·.now)) :
    ((∀ t, (meter sess ps).inSecond t ≤ sess.bwLimitBps.toNat) ↔
      ([] :: (windows sess ps).map Prod.snd).IsChain
        (Apart (fun p => p.now.toNat) (fun p => p.len.toNat) 1000 sess.bwLimitBps.toNat)) ∧
    (sess.bwBytesThisSec ≤ sess.bwLimitBps → sess.bwLimitBps.toNat + 2 ^ 32 ≤ 2 ^ 64 →
      ∀ b ∈ windows sess ps, (b.2.map fun p => p.len.toNat).sum ≤ sess.bwLimitBps.toNat) := by
  constructor
  · obtain ⟨hin, hstarts⟩ := windows_spaced hstart hsorted
    have hadmitted : (meter sess ps).admitted = ((windows sess ps).map Prod.snd).flatten :=
      Metered.admitted_foldl ⟨sess, []⟩ hstart hsorted
    simp only [Metered.inSecond, hadmitted]
    rw [forall_windowSum_iff]
    exact forall_trailing_iff [] [] hin hstarts
      (fun b _ a ha => (List.not_mem_nil ha).elim) (fun b _ a ha => (List.not_mem_nil ha).elim)
  · intro hused hlimit b hb
    obtain ⟨c, -, rfl | rfl⟩ := exists_of_mem_packing hb
    · exact (Nat.le_add_left _ _).trans (sum_packed_le c.2 hused hlimit)
    · exact (Nat.le_add_left _ _).trans (sum_packed_le c.2 UInt64.zero_le hlimit)

/-- Packets of 400 bytes at a limit of 1000 bytes, of which the third one is refused. -/
theorem bw_limit_sample :
    (meter { sampleSession with bwLimitBps := 1000 }
      [⟨1100, 400⟩, ⟨1500, 400⟩, ⟨1900, 400⟩, ⟨2600, 200⟩]).admitted.length = 3 ∧
    ∀ t, (meter { sampleSession with bwLimitBps := 1000 }
      [⟨1100, 400⟩, ⟨1500, 400⟩, ⟨1900, 400⟩, ⟨2600, 200⟩]).inSecond t ≤ 1000 :=
  ⟨by decide +kernel, (bw_limit_iff { sampleSession with bwLimitBps := 1000 }
    [⟨1100, 400⟩, ⟨1500, 400⟩, ⟨1900, 400⟩, ⟨2600, 200⟩] (by decide) (by decide)).1.mpr
    (by decide +kernel)⟩

/-- The limit of a second is admitted at the end of a window, and again at the start of the next
one, one millisecond later. -/
theorem two_windows_at_once :
    (meter { sampleSession with bwLimitBps := 1000 } [⟨1999, 1000⟩, ⟨2000, 1000⟩]).inSecond 1999 =
      2000 := by
  decide +kernel

end RoboControl.Relay
