import RoboControl.Base.Circular
import RoboControl.Base.Fifo
import RoboControl.Connection.RingBuf
import Mathlib.Data.Nat.Log

/-!
# The ring buffer as a queue

The ring buffer of `src/core/rc_conn.c` refines a queue of at most `next_pow2(size)` bytes:
`Refines` relates the two, `rc_ringbuf_write` is `Fifo.put` and `rc_ringbuf_read` is `Fifo.get`. The
counters `head` and `tail` are never reduced; the refinement holds through their wrap-around because
the size is a power of two. `rc_ringbuf_init` makes the buffer that was asked for exactly if that
power fits into 32 bits (`ringbuf_sized_iff`).
-/

namespace RoboControl.Connection
open Base

/-! ## The capacity -/

/-- Each bit of `y` is the disjunction of `w` bits of `x` from the same place on. -/
def Spread (x w y : ℕ) : Prop := ∀ i, y.testBit i = true ↔ ∃ d < w, x.testBit (i + d) = true

/-- One bit. -/
lemma Spread.one (x : ℕ) : Spread x 1 x := by
  intro i
  simp

/-- Twice as many bits. -/
lemma Spread.double {x w : ℕ} {y s : UInt32} (h : Spread x w y.toNat) (hs : s.toNat % 32 = w) :
    Spread x (w + w) (y ||| y >>> s).toNat := by
  intro i
  rw [UInt32.toNat_or, UInt32.toNat_shiftRight, hs, Nat.testBit_or, Nat.testBit_shiftRight,
    Bool.or_eq_true, h i, h (w + i)]
  constructor
  · rintro (⟨d, hd, hx⟩ | ⟨d, hd, hx⟩)
    · exact ⟨d, by omega, hx⟩
    · exact ⟨w + d, by omega, by rwa [show i + (w + d) = w + i + d by omega]⟩
  · rintro ⟨d, hd, hx⟩
    by_cases hlt : d < w
    · exact .inl ⟨d, hlt, hx⟩
    · exact .inr ⟨d - w, by omega, by rwa [show w + i + (d - w) = i + d by omega]⟩

/-- Spread over all its bits, a number becomes a row of ones. -/
lemma Spread.eq {x y : ℕ} (h : Spread x 32 y) (hx : x ≠ 0) (hlt : x < 2 ^ 32) :
    y = 2 ^ (x.log2 + 1) - 1 := by
  have hlog : x.log2 < 32 := (Nat.log2_lt hx).mpr hlt
  refine Nat.eq_of_testBit_eq fun i => Bool.eq_iff_iff.mpr ?_
  rw [h i, Nat.testBit_two_pow_sub_one, decide_eq_true_iff, Nat.lt_succ_iff]
  constructor
  · rintro ⟨d, -, hbit⟩
    have hle := (Nat.le_log2 hx).mpr (Nat.ge_two_pow_of_testBit hbit)
    omega
  · intro hi
    refine ⟨x.log2 - i, by omega, ?_⟩
    rw [Nat.add_sub_cancel' hi]
    exact Nat.testBit_log2 hx

/-- The exponent of the next power of two. -/
lemma clog_eq_log2 {v : ℕ} (hv : 2 ≤ v) : Nat.clog 2 v = (v - 1).log2 + 1 := by
  have hne : v - 1 ≠ 0 := by omega
  apply le_antisymm
  · rw [Nat.clog_le_iff_le_pow one_lt_two]
    have hlt : v - 1 < 2 ^ ((v - 1).log2 + 1) := Nat.lt_log2_self
    omega
  · rw [Nat.succ_le_iff, ← not_le, Nat.clog_le_iff_le_pow one_lt_two]
    have hle := Nat.log2_self_le hne
    omega

lemma toNat_sub_one {v : UInt32} (hpos : 1 ≤ v.toNat) : (v - 1).toNat = v.toNat - 1 := by
  have h1 : (1 : UInt32) ≤ v := UInt32.le_iff_toNat_le.mpr hpos
  rw [UInt32.toNat_sub_of_le _ _ h1]
  rfl

/-- The shifts of `next_pow2` spread the bits. -/
lemma nextPow2_spread (v : UInt32) :
    ∃ y : UInt32, Spread (v - 1).toNat 32 y.toNat ∧ nextPow2 v = y + 1 :=
  ⟨_, ((((((Spread.one (v - 1).toNat).double (s := 1) rfl).double (s := 2) rfl).double
    (s := 4) rfl).double (s := 8) rfl).double (s := 16) rfl), rfl⟩

/-- `next_pow2` gives the smallest power of two that is not smaller. -/
lemma nextPow2_toNat {v : UInt32} (hpos : 1 ≤ v.toNat) (hle : v.toNat ≤ 2 ^ 31) :
    (nextPow2 v).toNat = 2 ^ Nat.clog 2 v.toNat := by
  have e1 : (1 : UInt32).toNat = 1 := rfl
  have hsub := toNat_sub_one hpos
  obtain ⟨y, hy, hnext⟩ := nextPow2_spread v
  rw [hnext, UInt32.toNat_add, e1]
  by_cases hone : v.toNat = 1
  · have hzero : y.toNat = 0 := by
      refine Nat.eq_of_testBit_eq fun i => Bool.eq_iff_iff.mpr ?_
      rw [hy i, hsub, hone]
      simp
    rw [hzero, hone, Nat.clog_one_right]
    rfl
  · have hne : (v - 1).toNat ≠ 0 := by omega
    have hlt : (v - 1).toNat < 2 ^ 32 := UInt32.toNat_lt _
    have hlog : (v.toNat - 1).log2 < 31 := by
      rw [Nat.log2_lt (by omega)]
      omega
    have hpow : 2 ^ ((v.toNat - 1).log2 + 1) ≤ 2 ^ 31 := Nat.pow_le_pow_right two_pos hlog
    have hone_le : 1 ≤ 2 ^ ((v.toNat - 1).log2 + 1) := Nat.one_le_two_pow
    rw [hy.eq hne hlt, hsub, clog_eq_log2 (by omega)]
    omega

/-- The mask. -/
lemma nextPow2_sub_one_toNat {v : UInt32} (hpos : 1 ≤ v.toNat) (hle : v.toNat ≤ 2 ^ 31) :
    (nextPow2 v - 1).toNat = 2 ^ Nat.clog 2 v.toNat - 1 := by
  have hcap := nextPow2_toNat hpos hle
  have hone : 1 ≤ (nextPow2 v).toNat := by
    rw [hcap]
    exact Nat.one_le_two_pow
  rw [toNat_sub_one hone, hcap]

/-- Above `2 ^ 31` the next power of two does not fit into 32 bits. -/
lemma nextPow2_of_gt {v : UInt32} (h : 2 ^ 31 < v.toNat) : nextPow2 v = 0 := by
  have hsub : (v - 1).toNat = v.toNat - 1 := toNat_sub_one (by omega)
  have hlt := v.toNat_lt
  obtain ⟨y, hy, hnext⟩ := nextPow2_spread v
  have hne : (v - 1).toNat ≠ 0 := by omega
  have hlog : (v - 1).toNat.log2 = 31 := (Nat.log2_eq_iff hne).mpr (by omega)
  have hy' : y.toNat = 2 ^ 32 - 1 := by
    rw [hy.eq hne (by omega), hlog]
  rw [hnext]
  apply UInt32.toNat_inj.mp
  rw [UInt32.toNat_add, hy']
  rfl

lemma clog_le_31 {v : ℕ} (hle : v ≤ 2 ^ 31) : Nat.clog 2 v ≤ 31 :=
  (Nat.clog_le_iff_le_pow one_lt_two).mpr hle

/-! ## Copies that wrap -/

section Copies
variable {buf : ℕ → UInt8} {pos n : ℕ} {bs : List UInt8}

/-- The bytes that are copied. -/
lemma copyIn_inside {j : ℕ} {b : UInt8} (h : bs[j]? = some b) :
    copyIn buf pos bs (pos + j) = b := by
  rw [copyIn, if_pos (Nat.le_add_right pos j), Nat.add_sub_cancel_left, h]
  rfl

/-- The bytes around them. -/
lemma copyIn_outside {i : ℕ} (h : i < pos ∨ pos + bs.length ≤ i) : copyIn buf pos bs i = buf i := by
  rw [copyIn]
  split
  · rw [List.getElem?_eq_none (by omega)]
    rfl
  · rfl

lemma copyIn_nil (buf : ℕ → UInt8) (pos : ℕ) : copyIn buf pos [] = buf := by
  funext i
  exact copyIn_outside (by rw [List.length_nil]; omega)

/-- A place before the end. -/
lemma add_mod_of_lt {j : ℕ} (h : pos + j < n) : (pos + j) % n = pos + j := Nat.mod_eq_of_lt h

/-- A place behind the end. -/
lemma add_mod_of_le {j : ℕ} (hpos : pos < n) (hj : j < n) (h : n ≤ pos + j) :
    (pos + j) % n = j - (n - pos) := by
  rw [Nat.mod_eq_sub_mod h, Nat.mod_eq_of_lt (by omega)]
  omega

/-- The storage after a write of `bs` at `pos` that starts again at the end of `n` bytes. -/
def wrapIn (buf : ℕ → UInt8) (pos n : ℕ) (bs : List UInt8) : ℕ → UInt8 :=
  if bs.length ≤ n - pos then copyIn buf pos bs
  else copyIn (copyIn buf pos (bs.take (n - pos))) 0 (bs.drop (n - pos))

/-- The bytes that are stored. -/
lemma wrapIn_stored (hpos : pos < n) (hlen : bs.length ≤ n) {j : ℕ} {b : UInt8}
    (h : bs[j]? = some b) : wrapIn buf pos n bs ((pos + j) % n) = b := by
  have hj : j < bs.length := (List.getElem?_eq_some_iff.mp h).1
  rw [wrapIn]
  split
  · rw [add_mod_of_lt (by omega)]
    exact copyIn_inside h
  · by_cases hjc : j < n - pos
    · -- Before the end: the second copy does not reach that far.
      rw [add_mod_of_lt (by omega), copyIn_outside (by rw [List.length_drop]; omega)]
      exact copyIn_inside (by rwa [List.getElem?_take_of_lt hjc])
    · rw [add_mod_of_le hpos (by omega) (by omega), ← Nat.zero_add (j - (n - pos))]
      refine copyIn_inside ?_
      rwa [List.getElem?_drop, Nat.add_sub_cancel' (not_lt.mp hjc)]

/-- The bytes that stay. -/
lemma wrapIn_frame (hpos : pos < n) {j : ℕ} (hj : bs.length ≤ j) (hjn : j < n) :
    wrapIn buf pos n bs ((pos + j) % n) = buf ((pos + j) % n) := by
  have hcases : ((pos + j) % n = pos + j ∧ pos + j < n) ∨
      ((pos + j) % n = j - (n - pos) ∧ n - pos ≤ j) := by
    by_cases hlt : pos + j < n
    · exact .inl ⟨add_mod_of_lt hlt, hlt⟩
    · exact .inr ⟨add_mod_of_le hpos hjn (by omega), by omega⟩
  rw [wrapIn]
  split
  · rw [copyIn_outside (by omega)]
  · rw [copyIn_outside (by rw [List.length_drop]; omega),
      copyIn_outside (by rw [List.length_take]; omega)]

/-- A read of `len` bytes at `pos` that starts again at the end of `n` bytes. -/
lemma copyOut_wrap (hpos : pos < n) {len : ℕ} (hlen : len ≤ n) :
    (if len ≤ n - pos then copyOut buf pos len
      else copyOut buf pos (n - pos) ++ copyOut buf 0 (len - (n - pos))) =
      (List.range len).map fun i => buf ((pos + i) % n) := by
  split
  · refine List.map_congr_left fun i hi => ?_
    rw [List.mem_range] at hi
    rw [add_mod_of_lt (by omega)]
  · conv_rhs => rw [← Nat.add_sub_cancel' (show n - pos ≤ len by omega), List.range_add,
      List.map_append, List.map_map]
    congr 1
    · refine List.map_congr_left fun i hi => ?_
      rw [List.mem_range] at hi
      rw [add_mod_of_lt (by omega)]
    · refine List.map_congr_left fun i hi => ?_
      rw [List.mem_range] at hi
      dsimp only [Function.comp]
      rw [add_mod_of_le hpos (by omega) (by omega)]
      congr 1
      omega

end Copies

/-! ## The refinement -/

lemma le_32 {k : ℕ} (hk : k ≤ 31) : k ≤ 32 := by omega

/-- A ring buffer of `2 ^ k` bytes holds the bytes of a queue. -/
structure Refines {k : ℕ} (hk : k ≤ 31) (rb : RingBuf) (q : Fifo UInt8 (2 ^ k)) : Prop where
  size : rb.size.toNat = 2 ^ k
  mask : rb.mask.toNat = 2 ^ k - 1
  head : rb.head = rb.tail + UInt32.ofNat q.items.length
  window : (counter k (le_32 hk)).window rb.buf rb.tail q.items.length = q.items

section Refines
variable {k : ℕ} {hk : k ≤ 31} {rb : RingBuf} {q : Fifo UInt8 (2 ^ k)} (ref : Refines hk rb q)

/-- The slot of an index, from the slot of an earlier one. -/
lemma counter_slot (hk : k ≤ 32) (h : UInt32) (j : ℕ) :
    (counter k hk).slot ((counter k hk).succ^[j] h) = (h.toNat % 2 ^ k + j) % 2 ^ k := by
  rw [Nat.mod_add_mod]
  exact toNat_iterate_mod hk h j

/-- The lengths that occur fit into 32 bits. -/
lemma toNat_ofNat_of_le (hk : k ≤ 31) (q : Fifo UInt8 (2 ^ k)) {n : ℕ} (hn : n ≤ q.items.length) :
    (UInt32.ofNat n).toNat = n := by
  have hpow : 2 ^ k ≤ 2 ^ 31 := Nat.pow_le_pow_right two_pos hk
  have hle := q.le
  rw [UInt32.toNat_ofNat']
  omega

include ref

/-- What is there. -/
lemma Refines.available : (rb.head - rb.tail).toNat = q.items.length := by
  rw [ref.head, UInt32.add_comm, UInt32.add_sub_cancel, toNat_ofNat_of_le hk q le_rfl]

/-- The room that is left. -/
lemma Refines.freeSpace : (rb.size - (rb.head - rb.tail)).toNat = 2 ^ k - q.items.length := by
  have hle : rb.head - rb.tail ≤ rb.size := by
    rw [UInt32.le_iff_toNat_le, ref.available, ref.size]
    exact q.le
  rw [UInt32.toNat_sub_of_le _ _ hle, ref.size, ref.available]

/-- The place of an index. -/
lemma Refines.pos (idx : UInt32) : (idx &&& rb.mask).toNat = idx.toNat % 2 ^ k := by
  rw [UInt32.toNat_and, ref.mask, Nat.and_two_pow_sub_one_eq_mod]

/-- The bytes up to the end of the buffer. -/
lemma Refines.firstChunk (idx : UInt32) :
    (rb.size - (idx &&& rb.mask)).toNat = 2 ^ k - idx.toNat % 2 ^ k := by
  have hlt : idx.toNat % 2 ^ k < 2 ^ k := Nat.mod_lt _ (by positivity)
  have hle : idx &&& rb.mask ≤ rb.size := by
    rw [UInt32.le_iff_toNat_le, ref.pos, ref.size]
    omega
  rw [UInt32.toNat_sub_of_le _ _ hle, ref.size, ref.pos]

/-- Places behind the contents. -/
lemma Refines.head_toNat_mod (j : ℕ) :
    (rb.head.toNat % 2 ^ k + j) % 2 ^ k = (rb.tail.toNat + (q.items.length + j)) % 2 ^ k := by
  rw [ref.head, UInt32.toNat_add, toNat_ofNat_of_le hk q le_rfl,
    Nat.mod_mod_of_dvd _ (pow_dvd_pow 2 (le_32 hk)), Nat.mod_add_mod, Nat.add_assoc]

/-- A write, with its copies put together. -/
lemma Refines.write_eq (data : List UInt8) :
    ringbufWrite rb data = (min data.length (2 ^ k - q.items.length),
      { rb with
        buf := wrapIn rb.buf (rb.head.toNat % 2 ^ k) (2 ^ k) (data.take (2 ^ k - q.items.length))
        head := rb.head + UInt32.ofNat (min data.length (2 ^ k - q.items.length)) }) := by
  rw [ringbufWrite, ref.freeSpace, ref.firstChunk, ref.pos]
  have hlen : (if data.length > 2 ^ k - q.items.length then 2 ^ k - q.items.length
    else data.length) =
      min data.length (2 ^ k - q.items.length) := by
    split <;> omega
  have htake : data.take (min data.length (2 ^ k - q.items.length)) =
      data.take (2 ^ k - q.items.length) := by
    rw [Nat.min_comm, ← List.take_eq_take_min]
  rw [hlen, htake, wrapIn, List.length_take, Nat.min_comm]
  split
  · rfl
  · have hle : 2 ^ k - rb.head.toNat % 2 ^ k ≤ 2 ^ k - q.items.length := by omega
    rw [List.take_take, Nat.min_eq_left hle]

/-- `rc_ringbuf_write` is `put`. -/
lemma Refines.write (data : List UInt8) :
    (ringbufWrite rb data).1 = (q.put data).1 ∧
      Refines hk (ringbufWrite rb data).2 (q.put data).2 := by
  have hpos : rb.head.toNat % 2 ^ k < 2 ^ k := Nat.mod_lt _ (by positivity)
  have hq := q.le
  have hlen : (data.take (2 ^ k - q.items.length)).length ≤ 2 ^ k - q.items.length := by
    rw [List.length_take]
    omega
  rw [ref.write_eq]
  refine ⟨rfl, ref.size, ref.mask, ?_, ?_⟩
  · show rb.head + _ = rb.tail + _
    rw [ref.head, Fifo.put, List.length_append, UInt32.ofNat_add, UInt32.add_assoc,
      List.length_take, Nat.min_comm]
  · rw [Fifo.put, List.length_append]
    refine Eq.trans ?_ (congrArg (· ++ _) ref.window)
    refine (counter k (le_32 hk)).window_write (fun i hi => ?_) fun j b hb => ?_
    · -- The bytes of the queue are the last ones before the free space comes round again.
      have hslot : (counter k (le_32 hk)).slot ((counter k (le_32 hk)).succ^[i] rb.tail) =
          (rb.head.toNat % 2 ^ k + (2 ^ k - q.items.length + i)) % 2 ^ k := by
        rw [counter_slot, ref.head_toNat_mod, Nat.mod_add_mod,
          show rb.tail.toNat + (q.items.length + (2 ^ k - q.items.length + i)) =
            rb.tail.toNat + i + 2 ^ k by omega, Nat.add_mod_right]
      rw [hslot]
      exact wrapIn_frame hpos (by omega) (by omega)
    · have hslot : (counter k (le_32 hk)).slot
          ((counter k (le_32 hk)).succ^[q.items.length + j] rb.tail) =
          (rb.head.toNat % 2 ^ k + j) % 2 ^ k := by
        rw [counter_slot, ref.head_toNat_mod, Nat.mod_add_mod]
      rw [hslot]
      exact wrapIn_stored hpos (by omega) hb

/-- A read takes the first bytes of the window. -/
lemma Refines.read_eq (len : ℕ) :
    ringbufRead rb len = (min len q.items.length,
      (counter k (le_32 hk)).window rb.buf rb.tail (min len q.items.length),
      { rb with tail := rb.tail + UInt32.ofNat (min len q.items.length) }) := by
  have hpos : rb.tail.toNat % 2 ^ k < 2 ^ k := Nat.mod_lt _ (by positivity)
  have hq := q.le
  have hlen : (if len > q.items.length then q.items.length else len) = min len q.items.length := by
    split <;> omega
  rw [ringbufRead, ref.available, ref.firstChunk, ref.pos, hlen, copyOut_wrap hpos (by omega),
    Circular.window_eq_map_range]
  simp only [counter_slot]

/-- `rc_ringbuf_read` is `get`. -/
lemma Refines.read (len : ℕ) :
    (ringbufRead rb len).1 = (q.get len).1 ∧ (ringbufRead rb len).2.1 = (q.get len).2.1 ∧
      Refines hk (ringbufRead rb len).2.2 (q.get len).2.2 := by
  have hm : min len q.items.length ≤ q.items.length := Nat.min_le_right _ _
  have hsucc : (counter k (le_32 hk)).succ^[min len q.items.length] rb.tail =
      rb.tail + UInt32.ofNat (min len q.items.length) := by
    have h := iterate_add_one rb.tail (UInt32.ofNat (min len q.items.length))
    rwa [toNat_ofNat_of_le hk q hm] at h
  -- The window falls into the part that is read and the part that stays.
  have hsplit := (counter k (le_32 hk)).window_append rb.buf rb.tail (min len q.items.length)
    (q.items.length - min len q.items.length)
  rw [Nat.add_sub_cancel' hm, ref.window, hsucc] at hsplit
  have htake : (counter k (le_32 hk)).window rb.buf rb.tail (min len q.items.length) =
      q.items.take len := by
    rw [List.take_eq_take_min]
    exact (List.take_left' (Circular.length_window _ _ _ _)).symm.trans (congrArg _ hsplit.symm)
  have hdrop : (counter k (le_32 hk)).window rb.buf
    (rb.tail + UInt32.ofNat (min len q.items.length))
      (q.items.length - min len q.items.length) = q.items.drop len := by
    rw [List.drop_eq_drop_min]
    exact (List.drop_left' (Circular.length_window _ _ _ _)).symm.trans (congrArg _ hsplit.symm)
  have hlen : (q.items.drop len).length = q.items.length - min len q.items.length := by
    rw [← hdrop, Circular.length_window]
  rw [ref.read_eq]
  refine ⟨rfl, htake, ref.size, ref.mask, ?_, ?_⟩
  · show rb.head = rb.tail + _ + UInt32.ofNat (q.items.drop len).length
    rw [hlen, UInt32.add_assoc, ← UInt32.ofNat_add, Nat.add_sub_cancel' hm, ref.head]
  · show Circular.window _ _ _ (q.items.drop len).length = q.items.drop len
    rw [hlen]
    exact hdrop

end Refines

/-! ## Runs -/

/-- A call on a ring buffer. -/
inductive RingOp where
  | write (data : List UInt8)
  | read (len : ℕ)

/-- What a call returns, and the bytes it copies to `dst`. -/
inductive RingResult where
  | wrote (n : ℕ)
  | read (n : ℕ) (bytes : List UInt8)
  deriving DecidableEq

/-- A call on the ring buffer of the program. -/
def RingOp.apply (rb : RingBuf) : RingOp → RingResult × RingBuf
  | .write data =>
    let (n, rb) := ringbufWrite rb data
    (.wrote n, rb)
  | .read len =>
    let (n, bytes, rb) := ringbufRead rb len
    (.read n bytes, rb)

/-- The same call on a queue. -/
def RingOp.spec {cap : ℕ} (q : Fifo UInt8 cap) : RingOp → RingResult × Fifo UInt8 cap
  | .write data =>
    let (n, q) := q.put data
    (.wrote n, q)
  | .read len =>
    let (n, bytes, q) := q.get len
    (.read n bytes, q)

/-- Make calls in order and collect what they return. -/
def results {σ : Type} (step : σ → RingOp → RingResult × σ) : σ → List RingOp → List RingResult × σ
  | s, [] => ([], s)
  | s, op :: ops =>
    let (r, s) := step s op
    let (rs, s) := results step s ops
    (r :: rs, s)

/-- An operation does what the queue does. -/
lemma Refines.apply {k : ℕ} {hk : k ≤ 31} {rb : RingBuf} {q : Fifo UInt8 (2 ^ k)}
    (ref : Refines hk rb q) (op : RingOp) :
    (op.apply rb).1 = (op.spec q).1 ∧ Refines hk (op.apply rb).2 (op.spec q).2 := by
  cases op with
  | write data =>
    obtain ⟨hret, ref'⟩ := ref.write data
    exact ⟨congrArg RingResult.wrote hret, ref'⟩
  | read len =>
    obtain ⟨hret, hbytes, ref'⟩ := ref.read len
    exact ⟨congrArg₂ RingResult.read hret hbytes, ref'⟩

/-- The calls on a ring buffer return what they return on the queue. -/
lemma Refines.results {k : ℕ} {hk : k ≤ 31} {rb : RingBuf} {q : Fifo UInt8 (2 ^ k)}
    (ref : Refines hk rb q) (ops : List RingOp) :
    (results RingOp.apply rb ops).1 = (results RingOp.spec q ops).1 ∧
      Refines hk (results RingOp.apply rb ops).2 (results RingOp.spec q ops).2 := by
  induction ops generalizing rb q with
  | nil => exact ⟨rfl, ref⟩
  | cons op ops ih =>
    obtain ⟨hret, ref'⟩ := ref.apply op
    obtain ⟨hrets, ref''⟩ := ih ref'
    exact ⟨congrArg₂ List.cons hret hrets, ref''⟩

/-- A new buffer. -/
lemma ringbufInit_of_pos {size : UInt32} (hpos : 1 ≤ size.toNat) (rb₀ : RingBuf) :
    ringbufInit true rb₀ size = (0, ⟨fun _ => 0, nextPow2 size, nextPow2 size - 1, 0, 0⟩) := by
  have hne : size ≠ 0 := by
    rintro rfl
    cases hpos
  rw [ringbufInit, if_neg hne]
  rfl

/-- A new ring buffer of a size from 1 to `2 ^ 31` is a queue whose capacity is the smallest
power of two that is not smaller: after any calls, all results are those of the queue, and
`rc_ringbuf_available` and `rc_ringbuf_free_space` are the number of bytes in it and the room
that is left. -/
theorem ringbuf_refines_fifo (size : UInt32) (hpos : 1 ≤ size.toNat) (hle : size.toNat ≤ 2 ^ 31)
    (rb₀ : RingBuf) (ops : List RingOp) :
    (nextPow2 size).toNat = 2 ^ Nat.clog 2 size.toNat ∧
      ∃ rb, ringbufInit true rb₀ size = (0, rb) ∧
        let q : Fifo UInt8 (nextPow2 size).toNat := .empty
        (results RingOp.apply rb ops).1 = (results RingOp.spec q ops).1 ∧
        (ringbufAvailable (results RingOp.apply rb ops).2).toNat =
          (results RingOp.spec q ops).2.items.length ∧
        (ringbufFreeSpace (results RingOp.apply rb ops).2).toNat =
          (nextPow2 size).toNat - (results RingOp.spec q ops).2.items.length := by
  have hcap := nextPow2_toNat hpos hle
  have hk := clog_le_31 hle
  have hmask := nextPow2_sub_one_toNat hpos hle
  refine ⟨hcap, _, ringbufInit_of_pos hpos rb₀, ?_⟩
  generalize nextPow2 size = cap at hcap hmask ⊢
  rw [hcap]
  have ref : Refines hk ⟨fun _ => 0, cap, cap - 1, 0, 0⟩ (.empty : Fifo UInt8 _) :=
    ⟨hcap, hmask, rfl, rfl⟩
  obtain ⟨hres, ref'⟩ := ref.results ops
  exact ⟨hres, ref'.available, ref'.freeSpace⟩

/-- A buffer of size 3 takes four of five bytes, and gives them back across its end. -/
theorem ringbuf_refines_fifo_sample :
    ∃ rb, ringbufInit true .empty 3 = (0, rb) ∧
      (results RingOp.apply rb [.write [1, 2, 3, 4, 5], .read 3, .write [6, 7], .read 9]).1 =
        [.wrote 4, .read 3 [1, 2, 3], .wrote 2, .read 3 [4, 6, 7]] := by
  obtain ⟨-, rb, hinit, hres, -⟩ := ringbuf_refines_fifo 3 (by decide) (by decide) .empty
    [.write [1, 2, 3, 4, 5], .read 3, .write [6, 7], .read 9]
  exact ⟨rb, hinit, hres.trans rfl⟩

/-! ## The size asked for -/

/-- A buffer has the size that a request for `n` bytes stands for, and takes as many bytes. -/
structure SizedFor (n : ℕ) (rb : RingBuf) : Prop where
  size : IsLeast {m | (∃ k, m = 2 ^ k) ∧ n ≤ m} rb.size.toNat
  mask : rb.mask.toNat + 1 = rb.size.toNat
  accepts : ∀ data, n ≤ data.length → n ≤ (ringbufWrite rb data).1

/-- The least power of two that is large enough. -/
lemma isLeast_pow_clog (n : ℕ) : IsLeast {m | (∃ k, m = 2 ^ k) ∧ n ≤ m} (2 ^ Nat.clog 2 n) := by
  refine ⟨⟨⟨_, rfl⟩, Nat.le_pow_clog one_lt_two n⟩, ?_⟩
  rintro m ⟨⟨k, rfl⟩, hle⟩
  exact Nat.pow_le_pow_right two_pos (Nat.clog_le_of_le_pow hle)

/-- What `rc_ringbuf_init` makes for a request of at least one byte. -/
lemma ringbufInit_ok {alloc : Bool} {rb₀ rb : RingBuf} {size : UInt32} (hpos : 1 ≤ size.toNat)
    (h : ringbufInit alloc rb₀ size = (0, rb)) :
    rb = ⟨fun _ => 0, nextPow2 size, nextPow2 size - 1, 0, 0⟩ := by
  cases alloc with
  | false => cases h
  | true =>
    rw [ringbufInit_of_pos hpos] at h
    exact (Prod.mk.inj h).2.symm

/-- A new buffer takes as many bytes as it has. -/
lemma ringbufWrite_new (buf : ℕ → UInt8) (size mask : UInt32) (data : List UInt8) :
    (ringbufWrite ⟨buf, size, mask, 0, 0⟩ data).1 = min data.length size.toNat := by
  have hfree : size - ((0 : UInt32) - 0) = size := by simp
  rw [ringbufWrite]
  dsimp only
  rw [hfree]
  split <;> omega

/-- The buffers that `rc_ringbuf_init` makes for a request of at least one byte have the smallest
power of two that is not smaller as their size, the mask that belongs to it, and room for the bytes
asked for, exactly if the request is for at most `2 ^ 31` bytes. -/
theorem ringbuf_sized_iff (size : UInt32) (hpos : 1 ≤ size.toNat) :
    (∀ alloc rb₀ rb, ringbufInit alloc rb₀ size = (0, rb) → SizedFor size.toNat rb) ↔
      size.toNat ≤ 2 ^ 31 := by
  constructor
  · intro h
    by_contra hgt
    have hzero := nextPow2_of_gt (not_le.mp hgt)
    have sized := h true .empty _ (ringbufInit_of_pos hpos .empty)
    have hle : size.toNat ≤ (nextPow2 size).toNat := sized.size.1.2
    rw [hzero] at hle
    exact absurd (hpos.trans hle) (by decide)
  · rintro hle alloc rb₀ rb hinit
    obtain rfl := ringbufInit_ok hpos hinit
    have hcap := nextPow2_toNat hpos hle
    refine ⟨?_, ?_, fun data hdata => ?_⟩
    · show IsLeast _ (nextPow2 size).toNat
      rw [hcap]
      exact isLeast_pow_clog size.toNat
    · show (nextPow2 size - 1).toNat + 1 = (nextPow2 size).toNat
      rw [nextPow2_sub_one_toNat hpos hle, hcap, Nat.sub_add_cancel Nat.one_le_two_pow]
    · rw [ringbufWrite_new, hcap]
      exact le_min hdata (Nat.le_pow_clog one_lt_two size.toNat)

/-- A request for five bytes. -/
theorem ringbuf_sized_iff_sample :
    SizedFor 5 (ringbufInit true .empty 5).2 ∧ (ringbufInit true .empty 5).2.size = 8 := by
  refine ⟨?_, by decide⟩
  have h : (5 : UInt32).toNat ≤ 2 ^ 31 := by decide
  exact (ringbuf_sized_iff 5 (by decide)).mpr h true .empty _ rfl

/-- A request for `2 ^ 31 + 1` bytes succeeds with a buffer of size 0, which takes nothing. -/
theorem ringbuf_size_wraps :
    (ringbufInit true .empty 0x80000001).1 = 0 ∧ (ringbufInit true .empty 0x80000001).2.size = 0 ∧
      (ringbufInit true .empty 0x80000001).2.mask = 0xFFFFFFFF ∧
      (ringbufWrite (ringbufInit true .empty 0x80000001).2 [1, 2, 3]).1 = 0 := by
  refine ⟨by rfl, by rfl, by rfl, by rfl⟩

end RoboControl.Connection
