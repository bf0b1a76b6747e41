import RoboControl.Base.Bytes

/-!
# Ring buffer

Model of the ring buffer of `src/core/rc_conn.c`: `RingBuf` (C `rc_ringbuf_t`), `ringbufInit` (C
`rc_ringbuf_init`), `ringbufDestroy` (C `rc_ringbuf_destroy`), the producer's side `ringbufWrite` (C
`rc_ringbuf_write`) and the consumer's side `ringbufRead` (C `rc_ringbuf_read`). The backing storage
is a function of the index; the indices and the counters have the 32 bits they have in C.
-/

namespace RoboControl.Connection
open Base

/-- Ring buffer (C `rc_ringbuf_t`). -/
structure RingBuf where
  buf : Nat → UInt8
  size : UInt32
  mask : UInt32
  head : UInt32
  tail : UInt32

/-- Round up to a power of two (C `next_pow2`). -/
def nextPow2 (v : UInt32) : UInt32 :=
  let v := v - 1
  let v := v ||| (v >>> 1)
  let v := v ||| (v >>> 2)
  let v := v ||| (v >>> 4)
  let v := v ||| (v >>> 8)
  let v := v ||| (v >>> 16)
  v + 1

/-- A buffer without storage, as `calloc` and `rc_ringbuf_destroy` leave it. -/
def RingBuf.empty : RingBuf where
  buf _ := 0
  size := 0
  mask := 0
  head := 0
  tail := 0

/-- Allocate a buffer (C `rc_ringbuf_init`); `alloc` says whether `calloc` succeeds. -/
def ringbufInit (alloc : Bool) (rb : RingBuf) (size : UInt32) : Int × RingBuf :=
  let size := if size = 0 then 4096 else size
  let size := nextPow2 size
  if alloc = false then (-1, rb)
  else (0, { buf := fun _ => 0, size := size, mask := size - 1, head := 0, tail := 0 })

/-- Release the storage (C `rc_ringbuf_destroy`). -/
def ringbufDestroy (_ : RingBuf) : RingBuf := .empty

/-- Copy bytes to an offset of the storage (C `memcpy`). -/
def copyIn (buf : Nat → UInt8) (pos : Nat) (bs : List UInt8) : Nat → UInt8 := fun i =>
  if pos ≤ i then bs[i - pos]?.getD (buf i) else buf i

/-- Append as many bytes as fit (C `rc_ringbuf_write`). -/
def ringbufWrite (rb : RingBuf) (data : List UInt8) : Nat × RingBuf :=
  let freeSpace := rb.size - (rb.head - rb.tail)
  let len := if data.length > freeSpace.toNat then freeSpace.toNat else data.length
  let pos := rb.head &&& rb.mask
  let firstChunk := rb.size - pos
  let buf :=
    if len ≤ firstChunk.toNat then copyIn rb.buf pos.toNat (data.take len)
    else
      copyIn (copyIn rb.buf pos.toNat (data.take firstChunk.toNat)) 0
        ((data.take len).drop firstChunk.toNat)
  (len, { rb with buf, head := rb.head + UInt32.ofNat len })

/-- The bytes at an offset of the storage, as `memcpy` takes them. -/
def copyOut (buf : Nat → UInt8) (pos n : Nat) : List UInt8 := (List.range n).map fun i =>
    buf (pos + i)

/-- Take as many bytes as there are (C `rc_ringbuf_read`): their number, and the bytes that are
copied to `dst`. -/
def ringbufRead (rb : RingBuf) (len : Nat) : Nat × List UInt8 × RingBuf :=
  let avail := rb.head - rb.tail
  let len := if len > avail.toNat then avail.toNat else len
  let pos := rb.tail &&& rb.mask
  let firstChunk := rb.size - pos
  let dst :=
    if len ≤ firstChunk.toNat then copyOut rb.buf pos.toNat len
    else
      copyOut rb.buf pos.toNat firstChunk.toNat ++ copyOut rb.buf 0 (len - firstChunk.toNat)
  (len, dst, { rb with tail := rb.tail + UInt32.ofNat len })

/-- Number of bytes to read (C `rc_ringbuf_available`). -/
def ringbufAvailable (rb : RingBuf) : UInt32 := rb.head - rb.tail

/-- Free space (C `rc_ringbuf_free_space`). -/
def ringbufFreeSpace (rb : RingBuf) : UInt32 := rb.size - (rb.head - rb.tail)

/-- A write takes what there is room for. -/
lemma ringbufWrite_fst (rb : RingBuf) (data : List UInt8) :
    (ringbufWrite rb data).1 = min data.length (ringbufFreeSpace rb).toNat := by
  rw [ringbufWrite, ringbufFreeSpace]
  dsimp only
  split <;> omega

end RoboControl.Connection
