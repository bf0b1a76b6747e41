import RoboControl.Base.Run
import RoboControl.Base.Spsc
import RoboControl.Connection.Fifo

/-!
# The ring buffer between two threads

The calls of one producer to `rc_ringbuf_write` and of one consumer to `rc_ringbuf_read` of
`src/core/rc_conn.c`, cut into their steps: a call reads the other side's index, copies bytes, and
stores its own index. `Shared` is the buffer with the local variables of the calls that are going
on, and with the bytes that all calls before have accepted and returned. `memcpy` may copy in any
order, so a step copies any byte of the call.

The calls refine a ring with unbounded counters (`Tracks.step`). In every interleaving what the
reads have returned is the beginning of what the writes have accepted, and no byte that is not
consumed is overwritten (`ringbuf_spsc_safe`).
-/

namespace RoboControl.Connection
open Base Function

/-! ## Steps -/

/-- Local variables of `rc_ringbuf_write` after it has read `tail`: the bytes it copies, and those
it has copied. -/
structure WriteCall where
  data : List UInt8
  pos : UInt32
  firstChunk : UInt32
  copied : Nat → Bool

/-- Local variables of `rc_ringbuf_read` after it has read `head`, with the bytes it has
copied to `dst`. -/
structure ReadCall where
  len : Nat
  pos : UInt32
  firstChunk : UInt32
  dst : Nat → Option UInt8

/-- A ring buffer that two threads use. -/
structure Shared where
  rb : RingBuf
  writing : Option WriteCall
  reading : Option ReadCall
  accepted : List UInt8
  returned : List UInt8

/-- The place of byte `j` of `len` bytes in the storage: one `memcpy` from `pos` on, or two. -/
def chunkAddr (len : Nat) (pos firstChunk : UInt32) (j : Nat) : Nat :=
  if len ≤ firstChunk.toNat then pos.toNat + j
  else if j < firstChunk.toNat then pos.toNat + j
  else j - firstChunk.toNat

/-- The place that byte `j` of a write is copied to. -/
def WriteCall.addr (w : WriteCall) (j : Nat) : Nat := chunkAddr w.data.length w.pos w.firstChunk j

/-- The place that byte `j` of a read is copied from. -/
def ReadCall.addr (r : ReadCall) (j : Nat) : Nat := chunkAddr r.len r.pos r.firstChunk j

/-- A step of the producer or of the consumer. -/
inductive SharedAct where
  | beginWrite (data : List UInt8)
  | copyIn (j : Nat)
  | publish
  | beginRead (len : Nat)
  | copyOut (j : Nat)
  | consume

/-- Make a step; `none` if the thread is at another place of its code. -/
def Shared.step (s : Shared) : SharedAct → Option Shared
  | .beginWrite data =>
    match s.writing with
    | some _ => none
    | none =>
      let freeSpace := s.rb.size - (s.rb.head - s.rb.tail)
      let len := if data.length > freeSpace.toNat then freeSpace.toNat else data.length
      let pos := s.rb.head &&& s.rb.mask
      some { s with
        writing := some {
          data := data.take len, pos := pos, firstChunk := s.rb.size - pos,
          copied := fun _ => false } }
  | .copyIn j =>
    match s.writing with
    | none => none
    | some w =>
      match w.data[j]? with
      | none => none
      | some b => some { s with
          rb := { s.rb with buf := update s.rb.buf (w.addr j) b }
          writing := some { w with copied := update w.copied j true } }
  | .publish =>
    match s.writing with
    | none => none
    | some w =>
      if (List.range w.data.length).all w.copied = false then none
      else some { s with
        rb := { s.rb with head := s.rb.head + UInt32.ofNat w.data.length }
        writing := none
        accepted := s.accepted ++ w.data }
  | .beginRead len =>
    match s.reading with
    | some _ => none
    | none =>
      let avail := s.rb.head - s.rb.tail
      let len := if len > avail.toNat then avail.toNat else len
      let pos := s.rb.tail &&& s.rb.mask
      some { s with
        reading := some {
          len := len, pos := pos, firstChunk := s.rb.size - pos, dst := fun _ => none } }
  | .copyOut j =>
    match s.reading with
    | none => none
    | some r =>
      if j < r.len then some { s with
        reading := some { r with dst := update r.dst j (some (s.rb.buf (r.addr j))) } }
      else none
  | .consume =>
    match s.reading with
    | none => none
    | some r =>
      if (List.range r.len).all (fun j => (r.dst j).isSome) = false then none
      else some { s with
        rb := { s.rb with tail := s.rb.tail + UInt32.ofNat r.len }
        reading := none
        returned := s.returned ++ (List.range r.len).map fun j => (r.dst j).getD 0 }

/-- A buffer that no call has used yet. -/
def Shared.start (rb : RingBuf) : Shared := ⟨rb, none, none, [], []⟩

/-- Make steps in order. -/
def sharedRun (s : Shared) (acts : List SharedAct) : Option Shared := acts.foldlM Shared.step s

/-- The steps of a write that no step of the consumer interrupts. -/
def writeActs (data : List UInt8) (len : Nat) : List SharedAct :=
  .beginWrite data :: (List.range len).map .copyIn ++ [.publish]

/-- The steps of a read that no step of the producer interrupts. -/
def readActs (len avail : Nat) : List SharedAct :=
  .beginRead len :: (List.range avail).map .copyOut ++ [.consume]

/-! ## Counters and places -/

section Counters
variable {n h t : ℕ}

/-- The distance of two counters is that of the unbounded counters they stand for. -/
lemma toNat_sub_ofNat (hle : t ≤ h) (hlt : h < t + 2 ^ 32) :
    (UInt32.ofNat h - UInt32.ofNat t).toNat = h - t := by
  have e1 := Nat.div_add_mod h (2 ^ 32)
  have e2 := Nat.div_add_mod t (2 ^ 32)
  rw [UInt32.toNat_sub, UInt32.toNat_ofNat', UInt32.toNat_ofNat']
  omega

/-- The storage of a buffer: `n` bytes, a power of two that `mask` fits, or none at all. -/
structure Sized (n : ℕ) (rb : RingBuf) : Prop where
  size : rb.size.toNat = n
  le : n ≤ 2 ^ 31
  mask : 0 < n → ∃ k ≤ 31, n = 2 ^ k ∧ rb.mask.toNat = 2 ^ k - 1

/-- The place of an index. -/
lemma Sized.pos {rb : RingBuf} (sized : Sized n rb) (hn : 0 < n) :
    (UInt32.ofNat h &&& rb.mask).toNat = h % n := by
  obtain ⟨k, hk, rfl, hmask⟩ := sized.mask hn
  rw [UInt32.toNat_and, hmask, Nat.and_two_pow_sub_one_eq_mod, UInt32.toNat_ofNat',
    Nat.mod_mod_of_dvd _ (pow_dvd_pow 2 (le_32 hk))]

/-- The bytes up to the end of the buffer. -/
lemma Sized.firstChunk {rb : RingBuf} (sized : Sized n rb) (hn : 0 < n) :
    (rb.size - (UInt32.ofNat h &&& rb.mask)).toNat = n - h % n := by
  have hlt : h % n < n := Nat.mod_lt _ hn
  have hle : UInt32.ofNat h &&& rb.mask ≤ rb.size := by
    rw [UInt32.le_iff_toNat_le, sized.pos hn, sized.size]
    omega
  rw [UInt32.toNat_sub_of_le _ _ hle, sized.size, sized.pos hn]

/-- Byte `j` from index `h` on has the slot of index `h + j`. -/
lemma Sized.chunkAddr {rb : RingBuf} (sized : Sized n rb) {len j : ℕ} (hj : j < len)
    (hlen : len ≤ n) :
    chunkAddr len (UInt32.ofNat h &&& rb.mask) (rb.size - (UInt32.ofNat h &&& rb.mask)) j =
      (h + j) % n := by
  have hn : 0 < n := by omega
  have hlt : h % n < n := Nat.mod_lt _ hn
  rw [Connection.chunkAddr, sized.pos hn, sized.firstChunk hn, ← Nat.mod_add_mod]
  split
  · rw [add_mod_of_lt (by omega)]
  · split
    · rw [add_mod_of_lt (by omega)]
    · rw [add_mod_of_le hlt (by omega) (by omega)]

/-- The room that is left. -/
lemma Sized.freeSpace {rb : RingBuf} (sized : Sized n rb) (hle : t ≤ h) (hroom : h ≤ t + n) :
    (rb.size - (UInt32.ofNat h - UInt32.ofNat t)).toNat = n - (h - t) := by
  have hn := sized.le
  have hdist := toNat_sub_ofNat hle (by omega : h < t + 2 ^ 32)
  have hsub : UInt32.ofNat h - UInt32.ofNat t ≤ rb.size := by
    rw [UInt32.le_iff_toNat_le, hdist, sized.size]
    omega
  rw [UInt32.toNat_sub_of_le _ _ hsub, hdist, sized.size]

end Counters

/-! ## The ring that the calls refine -/

/-- The ring with unbounded counters that a buffer stands for. -/
def Shared.ring (s : Shared) (head tail : ℕ) : Spsc UInt8 where
  buf := s.rb.buf
  head := head
  tail := tail
  writing := s.writing.map fun w => ⟨w.data, w.copied⟩
  reading := s.reading.map fun r => ⟨r.len, r.dst⟩
  accepted := s.accepted
  returned := s.returned

/-- A write in both models. -/
lemma Shared.ring_writing {s : Shared} {w : WriteCall} (hw : s.writing = some w) (head tail : ℕ) :
    (s.ring head tail).writing = some ⟨w.data, w.copied⟩ := by
  rw [Shared.ring, hw]
  rfl

/-- A read in both models. -/
lemma Shared.ring_reading {s : Shared} {r : ReadCall} (hr : s.reading = some r) (head tail : ℕ) :
    (s.ring head tail).reading = some ⟨r.len, r.dst⟩ := by
  rw [Shared.ring, hr]
  rfl

/-- The counters of a buffer are the low bits of unbounded counters, and the calls that are going on
have computed their places from them. -/
structure Tracks (n : ℕ) (s : Shared) (h t : ℕ) : Prop where
  sized : Sized n s.rb
  head : s.rb.head = UInt32.ofNat h
  tail : s.rb.tail = UInt32.ofNat t
  writePos : ∀ w, s.writing = some w → w.pos = UInt32.ofNat h &&& s.rb.mask ∧
    w.firstChunk = s.rb.size - (UInt32.ofNat h &&& s.rb.mask)
  readPos : ∀ r, s.reading = some r → r.pos = UInt32.ofNat t &&& s.rb.mask ∧
    r.firstChunk = s.rb.size - (UInt32.ofNat t &&& s.rb.mask)

section Tracks
variable {n head tail : ℕ} {s s' : Shared}

/-- Byte `j` of a write goes to the slot of its index. -/
lemma Tracks.writeAddr (tracks : Tracks n s head tail) (inv : (s.ring head tail).Inv n)
    {w : WriteCall} (hw : s.writing = some w) {j : ℕ} (hj : j < w.data.length) :
    w.addr j = (head + j) % n := by
  obtain ⟨hpos, hchunk⟩ := tracks.writePos w hw
  have hfits := (inv.writing _ (Shared.ring_writing hw head tail)).fits
  have hle := inv.le
  have hlen : w.data.length ≤ n := by
    have h1 : head + w.data.length ≤ tail + n := hfits
    have h2 : tail ≤ head := hle
    omega
  rw [WriteCall.addr, hchunk, hpos]
  exact tracks.sized.chunkAddr hj hlen

/-- Byte `j` of a read comes from the slot of its index. -/
lemma Tracks.readAddr (tracks : Tracks n s head tail) (inv : (s.ring head tail).Inv n)
    {r : ReadCall} (hr : s.reading = some r) {j : ℕ} (hj : j < r.len) :
    r.addr j = (tail + j) % n := by
  obtain ⟨hpos, hchunk⟩ := tracks.readPos r hr
  have hfits := (inv.reading _ (Shared.ring_reading hr head tail)).fits
  have hroom := inv.room
  have hlen : r.len ≤ n := by
    have h1 : tail + r.len ≤ head := hfits
    have h2 : head ≤ tail + n := hroom
    omega
  rw [ReadCall.addr, hchunk, hpos]
  exact tracks.sized.chunkAddr hj hlen

/-- A write begins. -/
lemma Tracks.beginWrite (tracks : Tracks n s head tail) (inv : (s.ring head tail).Inv n)
    {data : List UInt8} (h : s.step (.beginWrite data) = some s') :
    Tracks n s' head tail ∧ Spsc.Step n (s.ring head tail) (s'.ring head tail) := by
  have hle : tail ≤ head := inv.le
  have hroom : head ≤ tail + n := inv.room
  rw [Shared.step] at h
  cases hw : s.writing with
  | some w => simp [hw] at h
  | none =>
    simp only [hw] at h
    cases h
    refine ⟨⟨tracks.sized, tracks.head, tracks.tail, ?_, tracks.readPos⟩, ?_⟩
    · rintro _ ⟨⟩
      rw [tracks.head]
      exact ⟨rfl, rfl⟩
    · refine .beginWrite _ (by rw [Shared.ring, hw]; rfl) ?_
      rw [tracks.head, tracks.tail, tracks.sized.freeSpace hle hroom, List.length_take]
      show head + _ ≤ tail + n
      split <;> omega

/-- A byte is copied in. -/
lemma Tracks.copyIn (tracks : Tracks n s head tail) (inv : (s.ring head tail).Inv n) {j : ℕ}
    (h : s.step (.copyIn j) = some s') :
    Tracks n s' head tail ∧ Spsc.Step n (s.ring head tail) (s'.ring head tail) := by
  rw [Shared.step] at h
  cases hw : s.writing with
  | none => simp [hw] at h
  | some w =>
    simp only [hw] at h
    cases hb : w.data[j]? with
    | none => simp [hb] at h
    | some b =>
      simp only [hb] at h
      cases h
      have haddr := tracks.writeAddr inv hw (List.getElem?_eq_some_iff.mp hb).1
      refine ⟨⟨⟨tracks.sized.size, tracks.sized.le, tracks.sized.mask⟩, tracks.head, tracks.tail,
        ?_, tracks.readPos⟩, ?_⟩
      · rintro _ ⟨⟩
        exact tracks.writePos w hw
      · have hstep : Spsc.Step n (s.ring head tail) { s.ring head tail with
            buf := update s.rb.buf ((head + j) % n) b
            writing := some ⟨w.data, update w.copied j true⟩ } :=
          .copyIn (Shared.ring_writing hw head tail) hb
        rw [← haddr] at hstep
        exact hstep

/-- A write ends. -/
lemma Tracks.publish (tracks : Tracks n s head tail) (h : s.step .publish = some s') :
    ∃ head', Tracks n s' head' tail ∧ Spsc.Step n (s.ring head tail) (s'.ring head' tail) := by
  rw [Shared.step] at h
  cases hw : s.writing with
  | none => simp [hw] at h
  | some w =>
    simp only [hw] at h
    split at h
    · cases h
    · next hall =>
      cases h
      rw [Bool.not_eq_false, List.all_eq_true] at hall
      refine ⟨head + w.data.length, ⟨⟨tracks.sized.size, tracks.sized.le, tracks.sized.mask⟩, ?_,
        tracks.tail, ?_, tracks.readPos⟩, ?_⟩
      · show s.rb.head + _ = _
        rw [tracks.head, UInt32.ofNat_add]
      · intro w' h
        cases h
      · exact .publish (Shared.ring_writing hw head tail) fun j hj => hall j (List.mem_range.mpr hj)

/-- A read begins. -/
lemma Tracks.beginRead (tracks : Tracks n s head tail) (inv : (s.ring head tail).Inv n) {len : ℕ}
    (h : s.step (.beginRead len) = some s') :
    Tracks n s' head tail ∧ Spsc.Step n (s.ring head tail) (s'.ring head tail) := by
  have hle : tail ≤ head := inv.le
  have hroom : head ≤ tail + n := inv.room
  have hn := tracks.sized.le
  rw [Shared.step] at h
  cases hr : s.reading with
  | some r => simp [hr] at h
  | none =>
    simp only [hr] at h
    cases h
    refine ⟨⟨tracks.sized, tracks.head, tracks.tail, tracks.writePos, ?_⟩, ?_⟩
    · rintro _ ⟨⟩
      rw [tracks.tail]
      exact ⟨rfl, rfl⟩
    · have hlen : (if len > (s.rb.head - s.rb.tail).toNat then (s.rb.head - s.rb.tail).toNat
        else len) ≤
          head - tail := by
        rw [tracks.head, tracks.tail, toNat_sub_ofNat hle (by omega)]
        split <;> omega
      refine .beginRead _ (by rw [Shared.ring, hr]; rfl) ?_
      exact Nat.add_le_of_le_sub' hle hlen

/-- A byte is copied out. -/
lemma Tracks.copyOut (tracks : Tracks n s head tail) (inv : (s.ring head tail).Inv n) {j : ℕ}
    (h : s.step (.copyOut j) = some s') :
    Tracks n s' head tail ∧ Spsc.Step n (s.ring head tail) (s'.ring head tail) := by
  rw [Shared.step] at h
  cases hr : s.reading with
  | none => simp [hr] at h
  | some r =>
    simp only [hr] at h
    split at h
    · next hj =>
      cases h
      have haddr := tracks.readAddr inv hr hj
      refine ⟨⟨tracks.sized, tracks.head, tracks.tail, tracks.writePos, ?_⟩, ?_⟩
      · rintro _ ⟨⟩
        exact tracks.readPos r hr
      · have hstep : Spsc.Step n (s.ring head tail) { s.ring head tail with
            reading :=
              some ⟨r.len, update r.dst j (some (s.rb.buf ((tail + j) % n)))⟩ } :=
          .copyOut (Shared.ring_reading hr head tail) hj
        rw [← haddr] at hstep
        exact hstep
    · cases h

/-- A read ends. -/
lemma Tracks.consume (tracks : Tracks n s head tail) (h : s.step .consume = some s') :
    ∃ tail', Tracks n s' head tail' ∧ Spsc.Step n (s.ring head tail) (s'.ring head tail') := by
  rw [Shared.step] at h
  cases hr : s.reading with
  | none => simp [hr] at h
  | some r =>
    simp only [hr] at h
    split at h
    · cases h
    · next hall =>
      cases h
      rw [Bool.not_eq_false, List.all_eq_true] at hall
      refine ⟨tail + r.len, ⟨⟨tracks.sized.size, tracks.sized.le, tracks.sized.mask⟩, tracks.head,
        ?_, tracks.writePos, ?_⟩, ?_⟩
      · show s.rb.tail + _ = _
        rw [tracks.tail, UInt32.ofNat_add]
      · intro r' h
        cases h
      · refine .consume (Shared.ring_reading hr head tail) ?_
        rw [List.map_map]
        refine List.map_congr_left fun j hj => ?_
        obtain ⟨b, hb⟩ := Option.isSome_iff_exists.mp (hall j hj)
        show some ((r.dst j).getD 0) = r.dst j
        rw [hb]
        rfl

/-- Every step of the threads is a step of the ring. -/
lemma Tracks.step (tracks : Tracks n s head tail) (inv : (s.ring head tail).Inv n) {act : SharedAct}
    (h : s.step act = some s') :
    ∃ head' tail', Tracks n s' head' tail' ∧
      Spsc.Step n (s.ring head tail) (s'.ring head' tail') := by
  cases act with
  | beginWrite data => exact ⟨head, tail, tracks.beginWrite inv h⟩
  | copyIn j => exact ⟨head, tail, tracks.copyIn inv h⟩
  | publish =>
    obtain ⟨head', h'⟩ := tracks.publish h
    exact ⟨head', tail, h'⟩
  | beginRead len => exact ⟨head, tail, tracks.beginRead inv h⟩
  | copyOut j => exact ⟨head, tail, tracks.copyOut inv h⟩
  | consume =>
    obtain ⟨tail', h'⟩ := tracks.consume h
    exact ⟨head, tail', h'⟩

end Tracks

/-! ## Calls that are not interrupted -/

/-- The storage after the first `m` bytes of a write were copied. -/
def storedAt (buf : ℕ → UInt8) (pos firstChunk : ℕ) (bs : List UInt8) (m : ℕ) : ℕ → UInt8 :=
  if m ≤ firstChunk then copyIn buf pos (bs.take m)
  else copyIn (copyIn buf pos (bs.take firstChunk)) 0 ((bs.take m).drop firstChunk)

/-- The last byte. -/
lemma copyIn_append_singleton (buf : ℕ → UInt8) (pos : ℕ) (bs : List UInt8) (b : UInt8) :
    copyIn buf pos (bs ++ [b]) = update (copyIn buf pos bs) (pos + bs.length) b := by
  funext i
  by_cases hi : i = pos + bs.length
  · subst hi
    rw [update_self]
    exact copyIn_inside (by rw [List.getElem?_append_right le_rfl, Nat.sub_self]; rfl)
  · rw [update_of_ne hi, copyIn, copyIn]
    split
    · next hpos =>
      by_cases hlt : i - pos < bs.length
      · rw [List.getElem?_append_left hlt]
      · rw [List.getElem?_eq_none (by rw [List.length_append, List.length_singleton]; omega),
          List.getElem?_eq_none (not_lt.mp hlt)]
    · rfl

/-- One more byte is copied to its place. -/
lemma storedAt_succ (buf : ℕ → UInt8) (pos firstChunk : UInt32) {bs : List UInt8} {m : ℕ}
    {b : UInt8} (hb : bs[m]? = some b) :
    storedAt buf pos.toNat firstChunk.toNat bs (m + 1) =
      update (storedAt buf pos.toNat firstChunk.toNat bs m)
        (chunkAddr bs.length pos firstChunk m) b := by
  have hm : m < bs.length := (List.getElem?_eq_some_iff.mp hb).1
  have htake : bs.take (m + 1) = bs.take m ++ [b] := by
    rw [List.take_add_one, hb]
    rfl
  have hlen : (bs.take m).length = m := by
    rw [List.length_take]
    omega
  rw [storedAt, storedAt, chunkAddr]
  by_cases hle : m + 1 ≤ firstChunk.toNat
  · have haddr : (if bs.length ≤ firstChunk.toNat then pos.toNat + m else
        if m < firstChunk.toNat then pos.toNat + m else m - firstChunk.toNat) = pos.toNat + m := by
      rw [if_pos (by omega : m < firstChunk.toNat), ite_self]
    rw [if_pos hle, if_pos (by omega), haddr, htake, copyIn_append_singleton, hlen]
  · rw [if_neg hle, if_neg (by omega : ¬ bs.length ≤ firstChunk.toNat),
      if_neg (by omega : ¬ m < firstChunk.toNat), htake, List.drop_append_of_le_length (by omega),
      copyIn_append_singleton, List.length_drop, hlen, Nat.zero_add]
    by_cases heq : m ≤ firstChunk.toNat
    · -- The second `memcpy` begins with this byte.
      have hm' : m = firstChunk.toNat := by omega
      have hdrop : (bs.take m).drop firstChunk.toNat = [] := by
        rw [List.drop_eq_nil_iff]
        omega
      rw [if_pos heq, hdrop, ← hm', copyIn_nil]
    · rw [if_neg heq]

lemma decide_lt_succ (m : ℕ) :
    (fun j => decide (j < m + 1)) = update (fun j => decide (j < m)) m true := by
  funext j
  by_cases hj : j = m
  · subst hj
    rw [update_self]
    exact decide_eq_true (Nat.lt_succ_self j)
  · rw [update_of_ne hj]
    exact decide_eq_decide.mpr (by omega)

/-- The copies of a write, in order. -/
lemma sharedRun_copyIn (s : Shared) {bs : List UInt8} (pos firstChunk : UInt32) {m : ℕ}
    (hm : m ≤ bs.length) :
    sharedRun { s with writing := some ⟨bs, pos, firstChunk, fun _ => false⟩ }
      ((List.range m).map .copyIn) =
    some { s with
      rb := { s.rb with buf := storedAt s.rb.buf pos.toNat firstChunk.toNat bs m }
      writing := some ⟨bs, pos, firstChunk, fun j => decide (j < m)⟩ } := by
  induction m with
  | zero =>
    rw [storedAt, if_pos (Nat.zero_le _), List.take_zero, copyIn_nil]
    rfl
  | succ m ih =>
    have hb := List.getElem?_eq_getElem (show m < bs.length by omega)
    have hrun := ih (by omega)
    rw [sharedRun] at hrun
    rw [sharedRun, List.range_succ, List.map_append, List.foldlM_append, hrun,
      storedAt_succ _ _ _ hb, decide_lt_succ]
    show Shared.step _ _ >>= _ = _
    rw [Shared.step]
    simp only [hb]
    rfl

/-- The storage after `rc_ringbuf_write`. -/
lemma ringbufWrite_buf (rb : RingBuf) (data : List UInt8) :
    (ringbufWrite rb data).2.buf = storedAt rb.buf (rb.head &&& rb.mask).toNat
      (rb.size - (rb.head &&& rb.mask)).toNat (data.take (ringbufWrite rb data).1)
      (ringbufWrite rb data).1 := by
  rw [ringbufWrite, storedAt]
  dsimp only
  generalize (if data.length > (rb.size - (rb.head - rb.tail)).toNat then
    (rb.size - (rb.head - rb.tail)).toNat else data.length) = len
  split
  · rw [List.take_take, Nat.min_self]
  · next hlen => rw [List.take_take, List.take_take, Nat.min_self, Nat.min_eq_left (by omega)]

/-- The steps of a write that is not interrupted are `rc_ringbuf_write`. -/
lemma sharedRun_write {s : Shared} (hw : s.writing = none) (data : List UInt8) :
    sharedRun s (writeActs data (ringbufWrite s.rb data).1) =
      some { s with
        rb := (ringbufWrite s.rb data).2
        accepted := s.accepted ++ data.take (ringbufWrite s.rb data).1 } := by
  have hle : (ringbufWrite s.rb data).1 ≤ data.length :=
    (ringbufWrite_fst s.rb data).trans_le (Nat.min_le_left _ _)
  have hlen : (data.take (ringbufWrite s.rb data).1).length = (ringbufWrite s.rb data).1 := by
    rw [List.length_take]
    omega
  have hbegin : s.step (.beginWrite data) = some { s with
      writing := some ⟨data.take (ringbufWrite s.rb data).1, s.rb.head &&& s.rb.mask,
        s.rb.size - (s.rb.head &&& s.rb.mask), fun _ => false⟩ } := by
    rw [Shared.step]
    simp only [hw]
    rfl
  have hcopies := sharedRun_copyIn s (s.rb.head &&& s.rb.mask)
    (s.rb.size - (s.rb.head &&& s.rb.mask)) hlen.ge
  have hall : (List.range (ringbufWrite s.rb data).1).all
      (fun j => decide (j < (ringbufWrite s.rb data).1)) = true := by
    rw [List.all_eq_true]
    exact fun j hj => decide_eq_true (List.mem_range.mp hj)
  rw [sharedRun] at hcopies
  rw [sharedRun, writeActs, List.cons_append, foldlM_cons_of_some hbegin, List.foldlM_append,
    hcopies, ← ringbufWrite_buf]
  show Shared.step _ .publish >>= _ = _
  rw [Shared.step]
  simp only [hlen, hall, Bool.true_eq_false, if_false, hw]
  rfl

/-- The copies of a read, in order. -/
lemma sharedRun_copyOut (s : Shared) (pos firstChunk : UInt32) {len m : ℕ} (hm : m ≤ len) :
    sharedRun { s with reading := some ⟨len, pos, firstChunk, fun _ => none⟩ }
      ((List.range m).map .copyOut) =
    some { s with
      reading := some ⟨len, pos, firstChunk, fun j =>
        if j < m then some (s.rb.buf (chunkAddr len pos firstChunk j)) else none⟩ } := by
  induction m with
  | zero => rfl
  | succ m ih =>
    have hrun := ih (by omega)
    rw [sharedRun] at hrun
    rw [sharedRun, List.range_succ, List.map_append, List.foldlM_append, hrun]
    show Shared.step _ _ >>= _ = _
    rw [Shared.step]
    simp only [if_pos (show m < len by omega)]
    show some _ = some _
    congr 4
    funext j
    by_cases hj : j = m
    · subst hj
      rw [update_self, if_pos (Nat.lt_succ_self j)]
      rfl
    · rw [update_of_ne hj]
      exact if_congr (by omega) rfl rfl

/-- The bytes that `rc_ringbuf_read` copies. -/
lemma ringbufRead_bytes (rb : RingBuf) (len : ℕ) :
    (ringbufRead rb len).2.1 = (List.range (ringbufRead rb len).1).map fun j =>
      rb.buf (chunkAddr (ringbufRead rb len).1 (rb.tail &&& rb.mask)
        (rb.size - (rb.tail &&& rb.mask))
        j) := by
  rw [ringbufRead]
  dsimp only
  generalize (if len > (rb.head - rb.tail).toNat then (rb.head - rb.tail).toNat else len) = len
  split
  · next hle =>
    refine List.map_congr_left fun j _ => ?_
    rw [chunkAddr, if_pos hle]
  · next hle =>
    have hlen := Nat.add_sub_cancel' (not_le.mp hle).le
    conv_rhs => rw [← hlen, List.range_add, List.map_append, List.map_map]
    congr 1
    · refine List.map_congr_left fun j hj => ?_
      rw [hlen, chunkAddr, if_neg hle, if_pos (List.mem_range.mp hj)]
    · refine List.map_congr_left fun j _ => ?_
      dsimp only [Function.comp]
      rw [hlen, chunkAddr, if_neg hle, if_neg (by omega), Nat.add_sub_cancel_left, Nat.zero_add]

/-- The steps of a read that is not interrupted are `rc_ringbuf_read`. -/
lemma sharedRun_read {s : Shared} (hr : s.reading = none) (len : ℕ) :
    sharedRun s (readActs len (ringbufRead s.rb len).1) =
      some { s with
        rb := (ringbufRead s.rb len).2.2
        returned := s.returned ++ (ringbufRead s.rb len).2.1 } := by
  have hbegin : s.step (.beginRead len) = some { s with
      reading := some ⟨(ringbufRead s.rb len).1, s.rb.tail &&& s.rb.mask,
        s.rb.size - (s.rb.tail &&& s.rb.mask), fun _ => none⟩ } := by
    rw [Shared.step]
    simp only [hr]
    rfl
  have hcopies := sharedRun_copyOut s (s.rb.tail &&& s.rb.mask)
    (s.rb.size - (s.rb.tail &&& s.rb.mask)) (le_refl (ringbufRead s.rb len).1)
  rw [sharedRun] at hcopies
  rw [sharedRun, readActs, List.cons_append, foldlM_cons_of_some hbegin, List.foldlM_append,
    hcopies]
  have hall : (List.range (ringbufRead s.rb len).1).all (fun j =>
      (if j < (ringbufRead s.rb len).1 then some (s.rb.buf (chunkAddr (ringbufRead s.rb len).1
        (s.rb.tail &&& s.rb.mask) (s.rb.size - (s.rb.tail &&& s.rb.mask)) j)) else none).isSome) =
      true := by
    rw [List.all_eq_true]
    intro j hj
    rw [if_pos (List.mem_range.mp hj)]
    rfl
  have hbytes : (List.range (ringbufRead s.rb len).1).map (fun j =>
      (if j < (ringbufRead s.rb len).1 then some (s.rb.buf (chunkAddr (ringbufRead s.rb len).1
        (s.rb.tail &&& s.rb.mask) (s.rb.size - (s.rb.tail &&& s.rb.mask)) j)) else none).getD 0) =
      (ringbufRead s.rb len).2.1 := by
    rw [ringbufRead_bytes]
    refine List.map_congr_left fun j hj => ?_
    rw [if_pos (List.mem_range.mp hj)]
    rfl
  show Shared.step _ .consume >>= _ = _
  rw [Shared.step]
  simp only [hall, hbytes, Bool.true_eq_false, if_false, hr]
  rfl

/-! ## Every interleaving -/

/-- A buffer from `rc_ringbuf_init`, whatever size was asked for. -/
lemma sized_ringbufInit {size : UInt32} {rb₀ rb : RingBuf}
    (h : ringbufInit true rb₀ size = (0, rb)) :
    ∃ n, Tracks n (.start rb) 0 0 := by
  obtain ⟨v, hpos, hv⟩ : ∃ v : UInt32, 1 ≤ v.toNat ∧
      rb = ⟨fun _ => 0, nextPow2 v, nextPow2 v - 1, 0, 0⟩ := by
    cases h
    by_cases hzero : size = 0
    · exact ⟨4096, by decide, by rw [if_pos hzero]⟩
    · refine ⟨size, Nat.one_le_iff_ne_zero.mpr fun h => hzero (UInt32.toNat_inj.mp h), ?_⟩
      rw [if_neg hzero]
  subst hv
  refine ⟨(nextPow2 v).toNat, ⟨rfl, ?_, fun hn => ?_⟩, rfl, rfl, ?_, ?_⟩
  · by_cases hle : v.toNat ≤ 2 ^ 31
    · rw [nextPow2_toNat hpos hle]
      exact Nat.pow_le_pow_right two_pos (clog_le_31 hle)
    · rw [nextPow2_of_gt (not_le.mp hle)]
      decide
  · have hle : v.toNat ≤ 2 ^ 31 := by
      by_contra hgt
      rw [nextPow2_of_gt (not_le.mp hgt)] at hn
      cases hn
    exact ⟨_, clog_le_31 hle, nextPow2_toNat hpos hle, nextPow2_sub_one_toNat hpos hle⟩
  · intro w h
    cases h
  · intro r h
    cases h

/-- In every state that steps lead to, the buffer tracks a ring whose invariant holds. -/
lemma sharedRun_tracks {size : UInt32} {rb₀ rb : RingBuf} {acts : List SharedAct} {s : Shared}
    (hinit : ringbufInit true rb₀ size = (0, rb)) (hrun : sharedRun (.start rb) acts = some s) :
    ∃ n head tail, Tracks n s head tail ∧ (s.ring head tail).Inv n := by
  obtain ⟨n, tracks⟩ := sized_ringbufInit hinit
  refine ⟨n, ?_⟩
  refine run_invariant (P := fun s : Shared => ∃ head tail, Tracks n s head tail ∧
    (s.ring head tail).Inv n) ?_ ⟨0, 0, tracks, .empty rb.buf⟩ hrun
  rintro s act s' ⟨head, tail, tracks, inv⟩ h
  obtain ⟨head', tail', tracks', hstep⟩ := tracks.step inv h
  exact ⟨head', tail', tracks', inv.step hstep⟩

/-- In every interleaving of the steps of writes and reads on a buffer from `rc_ringbuf_init`, the
bytes that the reads have returned are the first of those that the writes have accepted, and no step
of a write copies a byte to a place that holds one which is not consumed. A call that is not
interrupted is the one of the sequential model. -/
theorem ringbuf_spsc_safe (size : UInt32) (rb₀ rb : RingBuf) (acts : List SharedAct) (s : Shared)
    (hinit : ringbufInit true rb₀ size = (0, rb)) (hrun : sharedRun (.start rb) acts = some s) :
    s.returned <+: s.accepted ∧
    (∀ j s', s.step (.copyIn j) = some s' → ∃ w, s.writing = some w ∧
      ∀ i < (s.rb.head - s.rb.tail).toNat,
        ((s.rb.tail + UInt32.ofNat i) &&& s.rb.mask).toNat ≠ w.addr j) ∧
    (s.writing = none → ∀ data, sharedRun s (writeActs data (ringbufWrite s.rb data).1) =
      some { s with
        rb := (ringbufWrite s.rb data).2
        accepted := s.accepted ++ data.take (ringbufWrite s.rb data).1 }) ∧
    (s.reading = none → ∀ len, sharedRun s (readActs len (ringbufRead s.rb len).1) =
      some { s with
        rb := (ringbufRead s.rb len).2.2
        returned := s.returned ++ (ringbufRead s.rb len).2.1 }) := by
  obtain ⟨n, head, tail, tracks, inv⟩ := sharedRun_tracks hinit hrun
  refine ⟨inv.returned_prefix, fun j s' h => ?_, sharedRun_write, sharedRun_read⟩
  rw [Shared.step] at h
  cases hw : s.writing with
  | none => simp [hw] at h
  | some w =>
    refine ⟨w, rfl, fun i hi => ?_⟩
    simp only [hw] at h
    cases hb : w.data[j]? with
    | none => simp [hb] at h
    | some b =>
      have hj := (List.getElem?_eq_some_iff.mp hb).1
      have hle : tail ≤ head := inv.le
      have hroom : head ≤ tail + n := inv.room
      have hn := tracks.sized.le
      rw [tracks.head, tracks.tail, toNat_sub_ofNat hle (by omega)] at hi
      rw [tracks.tail, ← UInt32.ofNat_add, tracks.sized.pos (by omega), tracks.writeAddr inv hw hj]
      exact (inv.slot_ne (Shared.ring_writing hw head tail) hj (Nat.le_add_right tail i)
        (show tail + i < head by omega)).symm

/-- A write of three bytes during a read that finds nothing, and a write of two bytes, for one of
which there is room, during a read of the three. -/
def sampleActs : List SharedAct :=
  [.beginWrite [1, 2, 3], .copyIn 2, .copyIn 0, .beginRead 5, .copyIn 1, .consume, .publish,
    .beginRead 5, .copyOut 1, .beginWrite [4, 5], .copyIn 0, .copyOut 0, .copyOut 2, .publish,
    .consume]

/-- The buffer of size 4 has accepted four bytes and returned three. -/
theorem ringbuf_spsc_safe_sample :
    ∃ rb s, ringbufInit true .empty 3 = (0, rb) ∧ sharedRun (.start rb) sampleActs = some s ∧
      s.accepted = [1, 2, 3, 4] ∧ s.returned = [1, 2, 3] ∧ s.returned <+: s.accepted := by
  obtain ⟨rb, hinit⟩ : ∃ rb, ringbufInit true .empty 3 = (0, rb) := ⟨_, rfl⟩
  obtain ⟨s, hrun, hs⟩ : ∃ s, sharedRun (.start (ringbufInit true .empty 3).2) sampleActs = some s ∧
      s.accepted = [1, 2, 3, 4] ∧ s.returned = [1, 2, 3] := ⟨_, rfl, rfl, rfl⟩
  rw [hinit] at hrun
  exact ⟨rb, s, hinit, hrun, hs.1, hs.2, (ringbuf_spsc_safe 3 .empty rb sampleActs s hinit hrun).1⟩

end RoboControl.Connection
