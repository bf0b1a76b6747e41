import RoboControl.Base.Bytes

/-!
# Printing into a buffer

`snprintf` writes what fits of a text into a buffer, with a zero behind it, and returns the length
of the whole text. Programs print several texts behind each other by adding what it returns to a
cursor, as long as the cursor is inside of the buffer (`printAll`). The cursor is then at the end of
the texts that were printed, which may be behind the buffer, and the buffer shows as much of these
texts as fits (`printAll_eq`).

An `int` has 32 bits and a `size_t` 64.
-/

namespace Base

/-- What C does not define. -/
inductive Undefined where
  | signedOverflow
  | outOfBounds
  deriving DecidableEq, Repr

/-- The result of arithmetic on `int`. -/
def toInt (n : Int) : Except Undefined Int :=
  if -2 ^ 31 ≤ n ∧ n < 2 ^ 31 then .ok n else .error .signedOverflow

/-- The `size_t` of a number, which also is what arithmetic on `size_t` gives. -/
def toSize (n : Int) : Nat := (n % 2 ^ 64).toNat

/-- Copy bytes to a place of a buffer (`memcpy`). -/
def copyTo (n : Int) (bs buf : List UInt8) : Except Undefined (List UInt8) :=
  if 0 ≤ n ∧ n + bs.length ≤ buf.length then .ok (writeAt n.toNat bs buf) else .error .outOfBounds

/-- What `snprintf` writes into `size` bytes. -/
def printed (size : Nat) (text : List UInt8) : List UInt8 :=
  if size = 0 then [] else text.take (size - 1) ++ [0]

/-- What `snprintf` returns. -/
def printedLength (text : List UInt8) : Int := if text.length < 2 ^ 31 then text.length else -1

/-- Print a text at a cursor: `n += snprintf(buf + n, size - n, ...)`. -/
def printAt (n : Int) (text buf : List UInt8) : Except Undefined (Int × List UInt8) := do
  let buf' ← copyTo n (printed (toSize (buf.length - n)) text) buf
  let n' ← toInt (n + printedLength text)
  return (n', buf')

/-- Print texts one after the other, as long as the cursor is inside of the buffer. -/
def printAll : List (List UInt8) → Int → List UInt8 → Except Undefined (Int × List UInt8)
  | [], n, buf => .ok (n, buf)
  | text :: texts, n, buf =>
    if toSize n < buf.length then do
      let (n, buf) ← printAt n text buf
      printAll texts n buf
    else .ok (n, buf)

lemma ok_bind {ε α β : Type} (a : α) (f : α → Except ε β) : (Except.ok a >>= f) = f a := rfl

/-! ## Sizes -/

/-- A number that fits. -/
lemma toInt_of_mem {n : Int} (hlow : -2 ^ 31 ≤ n) (hhigh : n < 2 ^ 31) : toInt n = .ok n :=
  if_pos ⟨hlow, hhigh⟩

/-- The numbers that fit. -/
lemma toInt_ok {n m : Int} (h : toInt n = .ok m) : m = n ∧ -2 ^ 31 ≤ n ∧ n < 2 ^ 31 := by
  rw [toInt] at h
  split at h
  · next hmem => exact ⟨(Except.ok.inj h).symm, hmem⟩
  · cases h

lemma toSize_natCast {n : Nat} (h : n < 2 ^ 64) : toSize n = n := by
  rw [toSize]
  omega

/-- A cursor that is inside of a buffer is not negative. -/
lemma eq_toSize_of_lt {n : Int} {size : Nat} (hlow : -2 ^ 31 ≤ n) (hhigh : n < 2 ^ 31)
    (hsize : size ≤ 2 ^ 31) (h : toSize n < size) : n = toSize n := by
  rw [toSize] at h ⊢
  omega

/-- A copy inside of the buffer. -/
lemma copyTo_natCast {n : Nat} {bs buf : List UInt8} (h : n + bs.length ≤ buf.length) :
    copyTo n bs buf = .ok (writeAt n bs buf) := by
  rw [copyTo, if_pos ⟨Int.natCast_nonneg n, by exact_mod_cast h⟩, Int.toNat_natCast]

/-- A copy that leaves the buffer. -/
lemma copyTo_of_gt {n : Nat} {bs buf : List UInt8} (h : buf.length < n + bs.length) :
    copyTo n bs buf = .error .outOfBounds := by
  rw [copyTo, if_neg]
  omega

/-- Bytes copied behind what a buffer begins with. -/
lemma copyTo_behind (bs : List UInt8) {pre buf : List UInt8} (hpre : pre <+: buf)
    (h : pre.length + bs.length ≤ buf.length) :
    ∃ out, copyTo pre.length bs buf = .ok out ∧ out.length = buf.length ∧ pre ++ bs <+: out := by
  refine ⟨_, copyTo_natCast h, length_writeAt h, ?_⟩
  obtain ⟨rest, rfl⟩ := hpre
  rw [writeAt_append rfl]
  exact List.prefix_append _ _

/-! ## One text -/

section Printing
variable {buf out pre text : List UInt8} {texts : List (List UInt8)}

/-- No more than the size. -/
lemma length_printed (size : Nat) (text : List UInt8) : (printed size text).length ≤ size := by
  rw [printed]
  split
  · exact Nat.zero_le _
  · rw [List.length_append, List.length_take, List.length_singleton]
    omega

/-- A buffer shows as much of a text as fits, with a zero behind it. -/
def Shows (buf text : List UInt8) : Prop := text.take (buf.length - 1) ++ [0] <+: buf

/-- The text is cut and terminated. -/
lemma printed_eq {size : Nat} (h : 0 < size) (text : List UInt8) :
    printed size text = text.take (size - 1) ++ [0] :=
  if_neg h.ne'

/-- A buffer after printing at a place inside of it. -/
def printedAt (n : Nat) (text buf : List UInt8) : List UInt8 :=
  writeAt n (printed (buf.length - n) text) buf

/-- Nothing is written behind the buffer. -/
lemma printedAt_bound {n : Nat} (hlt : n < buf.length) (text : List UInt8) :
    n + (printed (buf.length - n) text).length ≤ buf.length := by
  have h := length_printed (buf.length - n) text
  omega

lemma length_printedAt {n : Nat} (hlt : n < buf.length) (text : List UInt8) :
    (printedAt n text buf).length = buf.length := length_writeAt (printedAt_bound hlt text)

/-- `snprintf` at a place in the buffer. -/
lemma printAt_eq {n : Nat} (hlt : n < buf.length) (hsize : buf.length < 2 ^ 64)
    (text : List UInt8) :
    printAt n text buf = (toInt (n + printedLength text)).map fun n' =>
      (n', printedAt n text buf) := by
  have hroom : toSize (buf.length - n) = buf.length - n := by
    rw [toSize]
    omega
  rw [printAt, hroom, copyTo_natCast (printedAt_bound hlt text)]
  cases toInt (n + printedLength text) with
  | error e => rfl
  | ok n => rfl

/-- Printing behind a text that the buffer begins with. -/
lemma shows_printedAt (hpre : pre <+: buf) (hlt : pre.length < buf.length) (text : List UInt8) :
    Shows (printedAt pre.length text buf) (pre ++ text) := by
  rw [Shows, length_printedAt hlt]
  obtain ⟨rest, rfl⟩ := hpre
  rw [List.length_append] at hlt ⊢
  have hsub : pre.length + rest.length - 1 - pre.length = rest.length - 1 := by omega
  rw [printedAt, List.length_append, Nat.add_sub_cancel_left, printed_eq (by omega),
    writeAt_append rfl, List.take_append, List.take_of_length_le (by omega), hsub,
      List.append_assoc, List.append_assoc]
  exact List.prefix_append_right_inj _ |>.mpr (List.prefix_append _ _)

/-- A text at the front. -/
lemma shows_printedAt_zero (hpos : 0 < buf.length) (text : List UInt8) :
    Shows (printedAt 0 text buf) text :=
  shows_printedAt List.nil_prefix hpos text

/-- Printing at the beginning. -/
lemma printAt_zero (hpos : 0 < buf.length) (hsize : buf.length < 2 ^ 64)
    (hint : text.length < 2 ^ 31) :
    printAt 0 text buf = .ok ((text.length : Nat), printedAt 0 text buf) := by
  have hprint := printAt_eq hpos hsize text
  have htext : printedLength text = text.length := if_pos hint
  rw [htext, Nat.cast_zero, Int.zero_add, toInt_of_mem (by omega) (by omega)] at hprint
  exact hprint

/-- Once there is a zero in the last byte, it stays there. -/
lemma getLast?_printedAt {n : Nat} (hlast : buf.getLast? = some 0) (hlt : n < buf.length)
    (text : List UInt8) :
    (printedAt n text buf).getLast? = some 0 := by
  have hbound := printedAt_bound hlt text
  rw [printedAt, writeAt, List.getLast?_append, List.getLast?_drop, hlast]
  split
  · rw [Option.none_or, printed_eq (by omega), List.getLast?_append, List.getLast?_concat]
    rfl
  · rfl

/-- A text that is not cut. -/
lemma Shows.begins (h : Shows buf text) (hlt : text.length < buf.length) : text <+: buf := by
  rw [Shows, List.take_of_length_le (by omega)] at h
  exact (List.prefix_append text [0]).trans h

/-- A text that does not fit fills the buffer up to a zero in the last byte. -/
lemma Shows.getLast? (h : Shows buf text) (hpos : 0 < buf.length) (hle : buf.length ≤ text.length) :
    buf.getLast? = some 0 := by
  have hlen : (text.take (buf.length - 1) ++ [0]).length = buf.length := by
    rw [List.length_append, List.length_take, List.length_singleton]
    omega
  rw [← h.eq_of_length hlen, List.getLast?_concat]

/-! ## Several texts -/

/-- The first text. -/
lemma printAll_cons {n : Nat} (hlt : n < buf.length) (hsize : buf.length < 2 ^ 64)
    (text : List UInt8) (texts : List (List UInt8)) :
    printAll (text :: texts) n buf =
      toInt (n + printedLength text) >>= fun m => printAll texts m (printedAt n text buf) := by
  rw [printAll, toSize_natCast (by omega), if_pos hlt, printAt_eq hlt hsize]
  cases toInt (n + printedLength text) with
  | error e => rfl
  | ok m => rfl

/-- What is known of the cursor when printing went on behind a text. -/
lemma printAll_cons_ok {n : Nat} {n' : Int} (hlt : n < buf.length) (hsize : buf.length < 2 ^ 64)
    (h : printAll (text :: texts) n buf = .ok (n', out)) :
    -2 ^ 31 ≤ n + printedLength text ∧ n + printedLength text < 2 ^ 31 ∧
      printAll texts (n + printedLength text) (printedAt n text buf) = .ok (n', out) := by
  rw [printAll_cons hlt hsize] at h
  cases hsum : toInt (n + printedLength text) with
  | error e =>
    rw [hsum] at h
    cases h
  | ok m =>
    obtain ⟨rfl, hlow, hhigh⟩ := toInt_ok hsum
    rw [hsum, ok_bind] at h
    exact ⟨hlow, hhigh, h⟩

/-- The texts that were printed are those up to the first at whose end the cursor is
behind the buffer. -/
lemma printAll_eq (hbuf : Shows buf pre) (hsize : buf.length < 2 ^ 64)
    (hint : (pre ++ texts.flatten).length < 2 ^ 31) :
    ∃ k out, printAll texts pre.length buf = .ok (((pre ++ (texts.take k).flatten).length : Nat),
      out) ∧
      out.length = buf.length ∧ Shows out (pre ++ (texts.take k).flatten) ∧
      (k = texts.length ∨ buf.length ≤ (pre ++ (texts.take k).flatten).length) ∧
      ∀ j < k, (pre ++ (texts.take j).flatten).length < buf.length := by
  induction texts generalizing pre buf with
  | nil => exact ⟨0, buf, by simp [printAll], rfl, by simpa using hbuf, .inl rfl, by simp⟩
  | cons text texts ih =>
    have hflat : pre ++ (text :: texts).flatten = (pre ++ text) ++ texts.flatten := by simp
    rw [hflat] at hint
    have hpre : (pre ++ text).length < 2 ^ 31 := by
      rw [List.length_append] at hint
      omega
    rw [List.length_append] at hpre
    by_cases hlt : pre.length < buf.length
    · have hlen := length_printedAt hlt text
      have hshows := shows_printedAt (hbuf.begins hlt) hlt text
      have hprint := printAll_cons hlt hsize text texts
      have htext : printedLength text = text.length := if_pos (by omega)
      rw [htext, toInt_of_mem (by omega) (by omega), ok_bind] at hprint
      obtain ⟨k, out', hrun, hlen', hshows', hend, hbefore⟩ := ih hshows (by omega) hint
      have htake : ∀ j, pre ++ ((text :: texts).take (j + 1)).flatten = (pre ++ text) ++
        (texts.take j).flatten := by
        intro j
        simp
      refine ⟨k + 1, out', ?_, by omega, ?_, ?_, ?_⟩
      · rw [hprint, htake, ← hrun, List.length_append, Nat.cast_add]
      · rwa [htake]
      · rw [htake, ← hlen]
        exact hend.imp (congrArg (· + 1)) id
      · intro j hj
        cases j with
        | zero => simpa using hlt
        | succ j =>
          rw [htake, ← hlen]
          exact hbefore j (by omega)
    · refine ⟨0, buf, ?_, rfl, by simpa using hbuf, .inr ?_, by simp⟩
      · rw [printAll, toSize_natCast (by omega), if_neg hlt]
        simp
      · simpa using hlt

/-- All texts are printed if all but the last fit. -/
lemma printAll_all (hbuf : Shows buf pre) (hsize : buf.length < 2 ^ 64)
    (hint : (pre ++ texts.flatten).length < 2 ^ 31)
    (hfit : (pre ++ texts.dropLast.flatten).length < buf.length) :
    ∃ out, printAll texts pre.length buf = .ok (((pre ++ texts.flatten).length : Nat), out) ∧
      out.length = buf.length ∧ Shows out (pre ++ texts.flatten) := by
  obtain ⟨k, out, hrun, hlen, hshows, hend, -⟩ := printAll_eq hbuf hsize hint
  have hall : texts.length ≤ k := by
    rcases hend with hk | hge
    · exact hk.ge
    · by_contra hlt
      have htake : texts.take k = texts.dropLast.take k := by
        rw [List.dropLast_eq_take, List.take_take, Nat.min_eq_left (by omega)]
      have hpart := (List.take_sublist k texts.dropLast).flatten.length_le
      rw [← htake] at hpart
      rw [List.length_append] at hfit hge
      omega
  rw [List.take_of_length_le hall] at hrun hshows
  exact ⟨out, hrun, hlen, hshows⟩

/-- The last byte stays zero. -/
lemma getLast?_printAll_of_getLast? {n n' : Int} (hlow : -2 ^ 31 ≤ n) (hhigh : n < 2 ^ 31)
    (hsize : buf.length ≤ 2 ^ 31) (hlast : buf.getLast? = some 0)
    (h : printAll texts n buf = .ok (n', out)) :
    out.length = buf.length ∧ out.getLast? = some 0 := by
  induction texts generalizing n buf with
  | nil =>
    cases h
    exact ⟨rfl, hlast⟩
  | cons text texts ih =>
    by_cases hlt : toSize n < buf.length
    · rw [eq_toSize_of_lt hlow hhigh hsize hlt] at h
      obtain ⟨hlow', hhigh', h⟩ := printAll_cons_ok hlt (by omega) h
      have hlen := length_printedAt hlt text
      obtain ⟨hout, hzero⟩ := ih hlow' hhigh' (by omega) (getLast?_printedAt hlast hlt text) h
      exact ⟨hout.trans hlen, hzero⟩
    · rw [printAll, if_neg hlt] at h
      cases h
      exact ⟨rfl, hlast⟩

/-- Texts that do not fit, whatever their lengths are, leave a zero in the last byte. -/
lemma getLast?_printAll {n : Int} (hsize : buf.length ≤ 2 ^ 31) (hbuf : Shows buf pre)
    (hpos : 0 < buf.length) (hge : buf.length ≤ (pre ++ texts.flatten).length)
    (hpre : pre.length < 2 ^ 31) (h : printAll texts pre.length buf = .ok (n, out)) :
    out.length = buf.length ∧ out.getLast? = some 0 := by
  induction texts generalizing pre buf with
  | nil =>
    cases h
    exact ⟨rfl, hbuf.getLast? hpos (by simpa using hge)⟩
  | cons text texts ih =>
    by_cases hlt : pre.length < buf.length
    · have hlen := length_printedAt hlt text
      have hshows := shows_printedAt (hbuf.begins hlt) hlt text
      obtain ⟨hlow, hhigh, h⟩ := printAll_cons_ok hlt (by omega) h
      by_cases hfit : (pre ++ text).length < buf.length
      · -- the cursor is at the end of this text, too
        have hcursor : pre.length + printedLength text = ((pre ++ text).length : Nat) := by
          rw [List.length_append] at hfit ⊢
          rw [printedLength, if_pos (by omega), Nat.cast_add]
        rw [hcursor] at h
        have hout := ih (by omega) hshows (by omega) ?_ (by omega) h
        · exact ⟨hout.1.trans hlen, hout.2⟩
        · rw [hlen]
          simpa using hge
      · have hlast := hshows.getLast? (by omega) (by omega)
        obtain ⟨hout, hzero⟩ := getLast?_printAll_of_getLast? hlow hhigh (by omega) hlast h
        exact ⟨hout.trans hlen, hzero⟩
    · exact getLast?_printAll_of_getLast? (by omega) (by omega) hsize
        (hbuf.getLast? hpos (by omega)) h

end Printing

end Base
