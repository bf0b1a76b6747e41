import Mathlib.Data.List.Basic
import Mathlib.Tactic

/-!
# Byte strings, byte order and byte buffers

The part of C's memory that the wire formats depend on, with nothing of a particular program in it:
byte strings of known length (`Bytes n`, a C array `uint8_t[n]`), the bytes an unsigned integer of
`w` bytes occupies in memory on a host of either byte order (`store`/`load`), the conversion to
network order (`hton`), and reads and writes at an offset of a buffer (`readAt`/`writeAt`).

* `store_hton`: storing a converted integer gives its big-endian bytes, whatever the host is.
* `load_store`: loading gives back what was stored.
* `readAt_writeAt_same`/`readAt_writeAt_of_disjoint`: a write is seen in its own range and in no
  other.
-/

namespace Base

/-- A byte string of length `n`. -/
@[ext]
structure Bytes (n : Nat) where
  toList : List UInt8
  length_toList : toList.length = n
  deriving DecidableEq

namespace Bytes

/-- `n` zero bytes. -/
def zeros (n : Nat) : Bytes n := ⟨List.replicate n 0, by simp⟩

/-- A list of bytes, if it has the length asked for. -/
def ofList (n : Nat) (l : List UInt8) : Option (Bytes n) :=
  if h : l.length = n then some ⟨l, h⟩ else none

/-- Concatenation. -/
def append {m n : Nat} (a : Bytes m) (b : Bytes n) : Bytes (m + n) :=
  ⟨a.toList ++ b.toList, by simp [a.length_toList, b.length_toList]⟩

/-- The `len` bytes from offset `off` on. -/
def slice {n : Nat} (b : Bytes n) (off len : Nat) (h : off + len ≤ n) : Bytes len :=
  ⟨(b.toList.drop off).take len, by simp [b.length_toList]; omega⟩

attribute [simp] length_toList

variable {n : Nat}

@[simp] lemma toList_append {m : Nat} (a : Bytes m) (b : Bytes n) :
    (a.append b).toList = a.toList ++ b.toList := rfl

@[simp] lemma toList_slice (b : Bytes n) (off len : Nat) (h : off + len ≤ n) :
    (b.slice off len h).toList = (b.toList.drop off).take len := rfl

@[simp] lemma toList_zeros (n : Nat) : (zeros n).toList = List.replicate n 0 := rfl

/-- Concatenation determines both parts. -/
lemma append_inj {m : Nat} {a a' : Bytes m} {b b' : Bytes n}
    (e : a.append b = a'.append b') : a = a' ∧ b = b' := by
  have e' : a.toList ++ b.toList = a'.toList ++ b'.toList := congrArg Bytes.toList e
  obtain ⟨ea, eb⟩ := List.append_inj e' (by simp)
  exact ⟨Bytes.ext ea, Bytes.ext eb⟩

end Bytes

/-- The first half of 64 bytes. -/
lemma low_half_le : 0 + 32 ≤ 64 := by decide

/-- The second half of 64 bytes. -/
lemma high_half_le : 32 + 32 ≤ 64 := by decide

/-! ## Byte order -/

/-- The byte order of a host. -/
inductive Endian where
  | little
  | big
  deriving DecidableEq, Repr

/-- The `w` low-order bytes of `n`, least significant first. -/
def leBytes : Nat → Nat → List UInt8
  | 0, _ => []
  | w + 1, n => UInt8.ofNat n :: leBytes w (n / 256)

/-- The number written by bytes, least significant first. -/
def ofLeBytes : List UInt8 → Nat
  | [] => 0
  | b :: bs => b.toNat + 256 * ofLeBytes bs

/-- The bytes of an unsigned `w`-byte integer in the memory of a host. -/
def store : Endian → Nat → Nat → List UInt8
  | .little, w, n => leBytes w n
  | .big, w, n => (leBytes w n).reverse

/-- The unsigned integer that bytes in the memory of a host stand for. -/
def load : Endian → List UInt8 → Nat
  | .little, bs => ofLeBytes bs
  | .big, bs => ofLeBytes bs.reverse

/-- Reversal of the bytes of a `w`-byte integer. -/
def byteSwap (w n : Nat) : Nat := ofLeBytes (leBytes w n).reverse

/-- Host order to network order of a `w`-byte integer (and back). -/
def hton : Endian → Nat → Nat → Nat
  | .little, w, n => byteSwap w n
  | .big, _, n => n

@[simp] lemma length_leBytes (w n : Nat) : (leBytes w n).length = w := by
  induction w generalizing n with
  | zero => rfl
  | succ w ih => simp [leBytes, ih]

@[simp] lemma length_store (e : Endian) (w n : Nat) : (store e w n).length = w := by
  cases e <;> simp [store]

/-- Reading back little-endian bytes gives the number modulo `256 ^ w`. -/
lemma ofLeBytes_leBytes (w n : Nat) : ofLeBytes (leBytes w n) = n % 256 ^ w := by
  induction w generalizing n with
  | zero => simp [leBytes, ofLeBytes, Nat.mod_one]
  | succ w ih =>
    have hb : (UInt8.ofNat n).toNat = n % 256 := UInt8.toNat_ofNat'
    rw [leBytes, ofLeBytes, ih, hb, Nat.pow_succ', Nat.mod_mul]

/-- The bytes of the number that bytes write are these bytes. -/
lemma leBytes_ofLeBytes (bs : List UInt8) : leBytes bs.length (ofLeBytes bs) = bs := by
  induction bs with
  | nil => rfl
  | cons b bs ih =>
    have hb := b.toNat_lt
    have hd : (b.toNat + 256 * ofLeBytes bs) / 256 = ofLeBytes bs := by omega
    simp only [List.length_cons, leBytes, ofLeBytes, hd, ih]
    congr 1
    apply UInt8.toNat_inj.mp
    rw [UInt8.toNat_ofNat']
    omega

/-- A number of so many bytes. -/
lemma ofLeBytes_lt (bs : List UInt8) : ofLeBytes bs < 256 ^ bs.length := by
  rw [← leBytes_ofLeBytes bs, ofLeBytes_leBytes, length_leBytes]
  exact Nat.mod_lt _ (Nat.pow_pos (by decide))

/-- Little-endian bytes determine the number modulo `256 ^ w`. -/
lemma leBytes_mod (w n : Nat) : leBytes w (n % 256 ^ w) = leBytes w n := by
  have h := leBytes_ofLeBytes (leBytes w n)
  rw [ofLeBytes_leBytes, length_leBytes] at h
  exact h

/-- The lower and the upper bytes. -/
lemma leBytes_add (v w n : Nat) :
    leBytes (v + w) n = leBytes v n ++ leBytes w (n / 256 ^ v) := by
  induction v generalizing n with
  | zero => simp [leBytes]
  | succ v ih =>
    have e : n / 256 / 256 ^ v = n / 256 ^ (v + 1) := by
      rw [Nat.div_div_eq_div_mul, ← Nat.pow_succ']
    rw [Nat.succ_add, leBytes, leBytes, ih, e, List.cons_append]

/-- What was stored is loaded. -/
lemma load_store (e : Endian) (w n : Nat) : load e (store e w n) = n % 256 ^ w := by
  cases e with
  | little => exact ofLeBytes_leBytes w n
  | big => simp only [load, store, List.reverse_reverse, ofLeBytes_leBytes]

/-- A number of so many bytes. -/
lemma load_lt (e : Endian) (bs : List UInt8) : load e bs < 256 ^ bs.length := by
  cases e with
  | little => exact ofLeBytes_lt bs
  | big =>
    have h := ofLeBytes_lt bs.reverse
    rwa [List.length_reverse] at h

/-- What was loaded is stored as the same bytes. -/
lemma store_load (e : Endian) (bs : List UInt8) : store e bs.length (load e bs) = bs := by
  cases e with
  | little => exact leBytes_ofLeBytes bs
  | big =>
    have h := leBytes_ofLeBytes bs.reverse
    rw [List.length_reverse] at h
    rw [store, load, h, List.reverse_reverse]

variable {w n : Nat}

/-- Different numbers are stored differently. -/
lemma store_inj {e : Endian} {m : Nat} (hm : m < 256 ^ w) (hn : n < 256 ^ w)
    (h : store e w m = store e w n) : m = n := by
  have h' := congrArg (load e) h
  rw [load_store, load_store, Nat.mod_eq_of_lt hm, Nat.mod_eq_of_lt hn] at h'
  exact h'

/-- On a little-endian host the bytes of a swapped integer are the reversed bytes. -/
lemma leBytes_byteSwap (w n : Nat) : leBytes w (byteSwap w n) = (leBytes w n).reverse := by
  have h := leBytes_ofLeBytes (leBytes w n).reverse
  rw [List.length_reverse, length_leBytes] at h
  exact h

/-- Two swaps are none. -/
lemma byteSwap_byteSwap (w n : Nat) : byteSwap w (byteSwap w n) = n % 256 ^ w := by
  rw [byteSwap, leBytes_byteSwap, List.reverse_reverse, ofLeBytes_leBytes]

/-- Both conversions are inverse to each other. -/
lemma hton_hton (e : Endian) (h : n < 256 ^ w) : hton e w (hton e w n) = n := by
  cases e with
  | little => exact (byteSwap_byteSwap w n).trans (Nat.mod_eq_of_lt h)
  | big => rfl

/-- Storing an integer converted to network order gives its big-endian bytes. -/
lemma store_hton (e : Endian) (w n : Nat) : store e w (hton e w n) = store .big w n := by
  cases e with
  | little => exact leBytes_byteSwap w n
  | big => rfl

/-- The width is kept. -/
lemma hton_lt {e : Endian} (h : n < 256 ^ w) : hton e w n < 256 ^ w := by
  cases e with
  | little =>
    have h' := ofLeBytes_lt (leBytes w n).reverse
    rw [List.length_reverse, length_leBytes] at h'
    exact h'
  | big => exact h

/-! ## Buffers -/

section Buffer
variable {α : Type*}

/-- The `w` elements of a buffer from offset `off` on. -/
def readAt (off w : Nat) (buf : List α) : List α := (buf.drop off).take w

/-- A buffer with `bs` copied to offset `off`. -/
def writeAt (off : Nat) (bs buf : List α) : List α :=
  buf.take off ++ bs ++ buf.drop (off + bs.length)

variable {off : Nat} {bs buf : List α}

lemma length_writeAt (h : off + bs.length ≤ buf.length) :
    (writeAt off bs buf).length = buf.length := by
  simp only [writeAt, List.length_append, List.length_take, List.length_drop]
  omega

/-- The bytes after a write. -/
lemma getElem?_writeAt (h : off + bs.length ≤ buf.length) (i : Nat) :
    (writeAt off bs buf)[i]? =
      if i < off then buf[i]? else if i < off + bs.length then bs[i - off]? else buf[i]? := by
  have hl : (buf.take off).length = off := by simp only [List.length_take]; omega
  rw [writeAt, List.append_assoc, List.getElem?_append, hl]
  split
  · rename_i hi
    exact List.getElem?_take_of_lt hi
  · rename_i hi
    rw [List.getElem?_append]
    split
    · rw [if_pos (by omega)]
    · rw [if_neg (by omega), List.getElem?_drop]
      congr 1
      omega

variable {w : Nat}

lemma length_readAt (h : off + w ≤ buf.length) :
    (readAt off w buf).length = w := by
  rw [readAt, List.length_take, List.length_drop]
  omega

/-- The bytes that are read. -/
lemma getElem?_readAt (off w i : Nat) (buf : List α) :
    (readAt off w buf)[i]? = if i < w then buf[off + i]? else none := by
  rw [readAt, List.getElem?_take]
  split
  · rw [List.getElem?_drop]
  · rfl

variable {pre rest : List α}

/-- What stands behind `off` bytes is read at offset `off`. -/
lemma readAt_append (h : pre.length = off)
    (hw : bs.length = w) :
    readAt off w (pre ++ bs ++ rest) = bs := by
  subst h hw
  simp [readAt]

/-! Parts of a buffer are read at the places they have in it. -/

/-- Reading the front. -/
lemma readAt_append_left (hw : bs.length = w) :
    readAt 0 w (bs ++ rest) = bs := by
  subst hw
  simp [readAt]

/-- Reading on. -/
lemma readAt_append_readAt (off v w : Nat) (buf : List α) :
    readAt off v buf ++ readAt (off + v) w buf = readAt off (v + w) buf := by
  rw [readAt, readAt, readAt, List.take_add, List.drop_drop]

/-- Reading behind the front. -/
lemma readAt_append_right (h : pre.length ≤ off) :
    readAt off w (pre ++ rest) = readAt (off - pre.length) w rest := by
  rw [readAt, readAt, List.drop_append, List.drop_of_length_le h, List.nil_append]

/-- Reading in the front. -/
lemma readAt_take {n : Nat} (h : off + w ≤ n) (buf : List α) :
    readAt off w (buf.take n) = readAt off w buf := by
  rw [readAt, readAt, List.drop_take, List.take_take, Nat.min_eq_left (by omega)]

/-- Reading in the rest. -/
lemma readAt_drop (off w n : Nat) (buf : List α) :
    readAt off w (buf.drop n) = readAt (n + off) w buf := by
  rw [readAt, readAt, List.drop_drop]

/-- What was written is read. -/
lemma readAt_writeAt_same (hw : bs.length = w)
    (h : off + w ≤ buf.length) : readAt off w (writeAt off bs buf) = bs := by
  subst hw
  apply List.ext_getElem?
  intro i
  rw [getElem?_readAt, getElem?_writeAt h]
  split
  · rw [if_neg (by omega), if_pos (by omega)]
    congr 1
    omega
  · rename_i hi
    exact (List.getElem?_eq_none (by omega)).symm

/-- Other places are not touched. -/
lemma readAt_writeAt_of_disjoint {o : Nat}
    (h : off + bs.length ≤ buf.length) (hd : o + w ≤ off ∨ off + bs.length ≤ o) :
    readAt o w (writeAt off bs buf) = readAt o w buf := by
  apply List.ext_getElem?
  intro i
  rw [getElem?_readAt, getElem?_readAt]
  split
  · rw [getElem?_writeAt h]
    split
    · rfl
    · rw [if_neg (by omega)]
  · rfl

/-- What is behind a write stays. -/
lemma drop_writeAt {k : Nat} (h : off + bs.length ≤ buf.length)
    (hk : off + bs.length ≤ k) : (writeAt off bs buf).drop k = buf.drop k := by
  apply List.ext_getElem?
  intro i
  rw [List.getElem?_drop, List.getElem?_drop, getElem?_writeAt h,
    if_neg (by omega), if_neg (by omega)]

/-- Writing right behind what is already there extends it. -/
lemma writeAt_append (h : pre.length = off) :
    writeAt off bs (pre ++ buf) = (pre ++ bs) ++ buf.drop bs.length := by
  subst h
  simp [writeAt, List.drop_append, List.append_assoc]

/-- A write at the front. -/
lemma writeAt_zero (bs buf : List α) : writeAt 0 bs buf = bs ++ buf.drop bs.length := by
  simp [writeAt]

end Buffer

/-! ## Comparison without branches -/

/-- The bytes are all zero. -/
lemma foldl_or_eq_zero_iff (l : List UInt8) (d : UInt8) : l.foldl (· ||| ·) d = 0 ↔ d = 0 ∧ ∀ b ∈ l,
    b = 0 := by
  induction l generalizing d with
  | nil => simp
  | cons b l ih =>
    rw [List.foldl_cons, ih, UInt8.or_eq_zero_iff, List.forall_mem_cons, and_assoc]

/-- No byte differs. -/
lemma zipWith_xor_eq_zero_iff {xs ys : List UInt8} (h : xs.length = ys.length) :
    (∀ b ∈ List.zipWith (· ^^^ ·) xs ys, b = 0) ↔ xs = ys := by
  induction xs generalizing ys with
  | nil => simp [List.length_eq_zero_iff.mp h.symm]
  | cons x xs ih =>
    cases ys with
    | nil => cases h
    | cons y ys =>
      rw [List.zipWith_cons_cons, List.forall_mem_cons, ih (Nat.succ.inj h), UInt8.xor_eq_zero_iff,
        List.cons.injEq]

/-- The differences of the bytes of two strings of the same length, taken together, are zero exactly
if the strings are the same. -/
lemma foldl_or_zipWith_xor_eq_zero_iff {xs ys : List UInt8} (h : xs.length = ys.length) :
    (List.zipWith (· ^^^ ·) xs ys).foldl (· ||| ·) 0 = 0 ↔ xs = ys := by
  rw [foldl_or_eq_zero_iff, zipWith_xor_eq_zero_iff h]
  exact and_iff_right rfl

end Base
