import RoboControl.Base.Bytes

/-!
# Cyclic redundancy checks

A reflected shift register over bit vectors of any width, with nothing of a particular program in
it. `feed` takes one bit of the message in, the least significant bit of the register first; `shift`
is the turn for a bit 0.

* `run_xor`: the register is linear in the message and in its start value.
* `run_bits`: the bits of a number are taken in at once, by turning the register xor the number.
* `run_bits_table`: so a table of the turned low digits replaces the turns.
* `run_burst_ne_zero`, `run_flipBits_ne`: a burst not longer than the register changes what it ends
  with.
-/

namespace Base.Crc

/-! ## Bits -/

/-- The `k` low bits of a number, least significant first. -/
def bits : ℕ → ℕ → List Bool
  | 0, _ => []
  | k + 1, x => x.testBit 0 :: bits k (x / 2)

/-- The number with given bits, least significant first. -/
def ofBits : List Bool → ℕ
  | [] => 0
  | b :: bs => b.toNat + 2 * ofBits bs

/-- The bits of a byte string, those of each byte from the least significant one. -/
def bitsOf (data : List UInt8) : List Bool := data.flatMap fun b => bits 8 b.toNat

@[simp] lemma length_bits (k x : ℕ) : (bits k x).length = k := by
  induction k generalizing x with
  | zero => rfl
  | succ k ih => simp [bits, ih]

/-- The bits of a number that was read from bits. -/
lemma bits_ofBits (bs : List Bool) : bits bs.length (ofBits bs) = bs := by
  induction bs with
  | nil => rfl
  | cons b bs ih =>
    have hhalf : (b.toNat + 2 * ofBits bs) / 2 = ofBits bs := by
      have := b.toNat_le
      omega
    have hlow : (b.toNat + 2 * ofBits bs).testBit 0 = b := by
      cases b <;> simp [Nat.testBit_zero, Nat.add_mod]
    rw [List.length_cons, ofBits, bits, hhalf, hlow, ih]

/-- A number of so many bits. -/
lemma ofBits_lt (bs : List Bool) : ofBits bs < 2 ^ bs.length := by
  induction bs with
  | nil => simp [ofBits]
  | cons b bs ih =>
    have := b.toNat_le
    rw [ofBits, List.length_cons, Nat.pow_succ]
    omega

/-- The number that its bits stand for. -/
lemma ofBits_bits {k x : ℕ} (hx : x < 2 ^ k) : ofBits (bits k x) = x := by
  induction k generalizing x with
  | zero =>
    rw [Nat.pow_zero, Nat.lt_one_iff] at hx
    exact hx.symm
  | succ k ih =>
    have hlow : (x.testBit 0).toNat = x % 2 := by
      rw [Nat.testBit_zero]
      rcases Nat.mod_two_eq_zero_or_one x with h | h <;> simp [h]
    rw [bits, ofBits, ih (by omega), hlow]
    omega

/-- Zeros change nothing. -/
lemma zipWith_xor_replicate (bs : List Bool) :
    List.zipWith xor bs (List.replicate bs.length false) = bs := by
  induction bs with
  | nil => rfl
  | cons b bs ih =>
    rw [List.length_cons, List.replicate_succ, List.zipWith_cons_cons, ih, Bool.xor_false]

/-- A one among the bits. -/
lemma ofBits_ne_zero {bs : List Bool} (h : true ∈ bs) : ofBits bs ≠ 0 := by
  induction bs with
  | nil => cases h
  | cons b bs ih =>
    rw [ofBits]
    rcases List.mem_cons.mp h with rfl | h
    · simp
    · have := ih h
      omega

@[simp] lemma bitsOf_nil : bitsOf [] = [] := rfl

/-- The bits of the first byte. -/
@[simp] lemma bitsOf_cons (b : UInt8) (data : List UInt8) :
    bitsOf (b :: data) = bits 8 b.toNat ++ bitsOf data := List.flatMap_cons

/-- Bits of bytes one after the other. -/
@[simp] lemma bitsOf_append (a b : List UInt8) : bitsOf (a ++ b) = bitsOf a ++ bitsOf b :=
  List.flatMap_append

/-- Eight bits a byte. -/
@[simp] lemma length_bitsOf (data : List UInt8) : (bitsOf data).length = 8 * data.length := by
  induction data with
  | nil => rfl
  | cons b data ih =>
    rw [bitsOf_cons, List.length_append, length_bits, ih, List.length_cons]
    omega

/-- The lower and the upper bits. -/
lemma bits_add (j k x : ℕ) : bits (j + k) x = bits j x ++ bits k (x / 2 ^ j) := by
  induction j generalizing x with
  | zero => simp [bits]
  | succ j ih =>
    have hdiv : x / 2 / 2 ^ j = x / 2 ^ (j + 1) := by rw [Nat.div_div_eq_div_mul, ← Nat.pow_succ']
    rw [Nat.succ_add, bits, bits, ih, hdiv, List.cons_append]

/-- The lower bits. -/
lemma bits_mod (k x : ℕ) : bits k (x % 2 ^ k) = bits k x := by
  induction k generalizing x with
  | zero => rfl
  | succ k ih =>
    have hhalf : x % 2 ^ (k + 1) / 2 = x / 2 % 2 ^ k := by
      rw [Nat.pow_succ', Nat.mod_mul_right_div_self]
    have hlow : (x % 2 ^ (k + 1)).testBit 0 = x.testBit 0 := by
      rw [Nat.testBit_mod_two_pow]
      simp
    rw [bits, bits, hhalf, hlow, ih]

/-- The bits of a stored number are its bits. -/
lemma bitsOf_leBytes (w x : ℕ) : bitsOf (leBytes w x) = bits (8 * w) x := by
  induction w generalizing x with
  | zero => rfl
  | succ w ih =>
    have hbyte : bits 8 (UInt8.ofNat x).toNat = bits 8 x := by
      rw [UInt8.toNat_ofNat']
      exact bits_mod 8 x
    rw [leBytes, bitsOf_cons, hbyte, ih, Nat.mul_succ, Nat.add_comm, bits_add]
    rfl

/-! ## The register -/

variable {n : ℕ} (p : BitVec n)

/-- Take one bit in: the lowest bit leaves, and the polynomial is added if it differs from
the message's. -/
def feed (r : BitVec n) (b : Bool) : BitVec n :=
  if r.getLsbD 0 ^^ b then (r >>> 1) ^^^ p else r >>> 1

/-- The turn for a bit 0. -/
def shift (r : BitVec n) : BitVec n := feed p r false

/-- Take bits in one after the other. -/
def run (r : BitVec n) (bs : List Bool) : BitVec n := bs.foldl (feed p) r

@[simp] lemma run_nil (r : BitVec n) : run p r [] = r := rfl

/-- The first bit is fed first. -/
@[simp] lemma run_cons (r : BitVec n) (b : Bool) (bs : List Bool) :
    run p r (b :: bs) = run p (feed p r b) bs :=
  rfl

/-- One after the other. -/
lemma run_append (r : BitVec n) (bs cs : List Bool) : run p r (bs ++ cs) = run p (run p r bs) cs :=
  List.foldl_append

/-- Feeding a bit is linear. -/
lemma feed_xor (r s : BitVec n) (b c : Bool) : feed p (r ^^^ s) (b ^^ c) = feed p r b ^^^ feed p s
    c := by
  have hcancel : ∀ x y : BitVec n, x ^^^ p ^^^ (y ^^^ p) = x ^^^ y := by
    intro x y
    rw [BitVec.xor_comm y, ← BitVec.xor_assoc, BitVec.xor_assoc x, BitVec.xor_self, BitVec.xor_zero]
  have hright : ∀ x y : BitVec n, x ^^^ (y ^^^ p) = x ^^^ y ^^^ p :=
    fun x y => (BitVec.xor_assoc x y p).symm
  have hleft : ∀ x y : BitVec n, x ^^^ p ^^^ y = x ^^^ y ^^^ p := by
    intro x y
    rw [BitVec.xor_assoc, BitVec.xor_comm p, hright]
  simp only [feed, BitVec.getLsbD_xor, BitVec.ushiftRight_xor_distrib]
  cases r.getLsbD 0 <;> cases s.getLsbD 0 <;> cases b <;> cases c <;> simp [hcancel, hright, hleft]

/-- A shift is linear. -/
lemma shift_xor (r s : BitVec n) : shift p (r ^^^ s) = shift p r ^^^ shift p s :=
  feed_xor p r s false false

/-- The register is linear in its value and the message together. -/
lemma run_xor {bs cs : List Bool} (h : bs.length = cs.length) (r s : BitVec n) :
    run p (r ^^^ s) (List.zipWith xor bs cs) = run p r bs ^^^ run p s cs := by
  induction bs generalizing cs r s with
  | nil =>
    cases cs with
    | nil => rfl
    | cons c cs => cases h
  | cons b bs ih =>
    cases cs with
    | nil => cases h
    | cons c cs =>
      rw [List.zipWith_cons_cons, run_cons, run_cons, run_cons, feed_xor]
      exact ih (Nat.succ.inj h) _ _

/-- Several shifts are linear. -/
lemma iterate_shift_xor (k : ℕ) (r s : BitVec n) :
    (shift p)^[k] (r ^^^ s) = (shift p)^[k] r ^^^ (shift p)^[k] s := by
  induction k generalizing r s with
  | zero => rfl
  | succ k ih => rw [Function.iterate_succ_apply, shift_xor, ih]; rfl

/-- Zeros only shift the register. -/
lemma run_replicate_false (k : ℕ) (r : BitVec n) : run p r (List.replicate k false) = (shift p)^[k]
    r := by
  induction k generalizing r with
  | zero => rfl
  | succ k ih => exact ih _

/-- Zero stays zero. -/
@[simp] lemma shift_zero : shift p 0#n = 0#n := by simp [shift, feed]

lemma iterate_shift_zero (k : ℕ) : (shift p)^[k] 0#n = 0#n :=
  Function.iterate_fixed (shift_zero p) k

/-- The bits of a number are taken in by turning the register xor the number. -/
lemma run_bits {k x : ℕ} (hx : x < 2 ^ k) (hk : k ≤ n) (r : BitVec n) :
    run p r (bits k x) = (shift p)^[k] (r ^^^ BitVec.ofNat n x) := by
  induction k generalizing r x with
  | zero =>
    obtain rfl : x = 0 := by omega
    exact (BitVec.xor_zero).symm
  | succ k ih =>
    have hxn : x < 2 ^ n := hx.trans_le (Nat.pow_le_pow_right (by decide) hk)
    have hhalf : x / 2 < 2 ^ k := by omega
    have hlow : (BitVec.ofNat n x).getLsbD 0 = x.testBit 0 := by
      rw [BitVec.getLsbD_ofNat, decide_eq_true (by omega), Bool.true_and]
    have hhigh : BitVec.ofNat n x >>> 1 = BitVec.ofNat n (x / 2) := by
      apply BitVec.eq_of_toNat_eq
      rw [BitVec.toNat_ushiftRight, BitVec.toNat_ofNat, BitVec.toNat_ofNat, Nat.mod_eq_of_lt hxn,
        Nat.mod_eq_of_lt (by omega), Nat.shiftRight_eq_div_pow, Nat.pow_one]
    have hturn : feed p r (x.testBit 0) ^^^ BitVec.ofNat n (x / 2) = shift p
      (r ^^^ BitVec.ofNat n x) := by
      simp only [shift, feed, BitVec.getLsbD_xor, BitVec.ushiftRight_xor_distrib, hlow, hhigh,
        Bool.xor_false]
      split
      · rw [BitVec.xor_assoc, BitVec.xor_comm p, ← BitVec.xor_assoc]
      · rfl
    rw [bits, run_cons, ih hhalf (by omega), hturn, Function.iterate_succ_apply]

/-- A register whose low bits are 0 only moves. -/
lemma iterate_shift_of_low {k : ℕ} {r : BitVec n} (h : ∀ i < k, r.getLsbD i = false) :
    (shift p)^[k] r = r >>> k := by
  induction k generalizing r with
  | zero => simp
  | succ k ih =>
    have hmove : shift p r = r >>> 1 := by simp [shift, feed, h 0 (by omega)]
    have hlow : ∀ i < k, (r >>> 1).getLsbD i = false := by
      intro i hi
      rw [BitVec.getLsbD_ushiftRight]
      exact h (1 + i) (by omega)
    rw [Function.iterate_succ_apply, hmove, ih hlow, ← BitVec.shiftRight_add, Nat.add_comm]

/-- `k` turns are those of the `k` low bits, with the rest moved down. -/
lemma iterate_shift_table {k : ℕ} (r : BitVec n) :
    (shift p)^[k] r = (shift p)^[k] (r &&& BitVec.ofNat n (2 ^ k - 1)) ^^^ (r >>> k) := by
  have hsplit : r = (r &&& BitVec.ofNat n (2 ^ k - 1)) ^^^
    (r &&& ~~~ BitVec.ofNat n (2 ^ k - 1)) := by
    ext i hi
    simp only [BitVec.getElem_xor, BitVec.getElem_and, BitVec.getElem_not]
    cases r[i] <;> cases (BitVec.ofNat n (2 ^ k - 1))[i] <;> rfl
  have hmask : ∀ i, (BitVec.ofNat n (2 ^ k - 1)).getLsbD i = (decide (i < n) &&
    decide (i < k)) := by
    intro i
    rw [BitVec.getLsbD_ofNat, Nat.testBit_two_pow_sub_one]
  have hlow : ∀ i < k, (r &&& ~~~ BitVec.ofNat n (2 ^ k - 1)).getLsbD i = false := by
    intro i hi
    rw [BitVec.getLsbD_and, BitVec.getLsbD_not, hmask]
    by_cases hn : i < n <;> simp [hi, hn]
  have hmove : (r &&& ~~~ BitVec.ofNat n (2 ^ k - 1)) >>> k = r >>> k := by
    apply BitVec.eq_of_getLsbD_eq
    intro i _
    rw [BitVec.getLsbD_ushiftRight, BitVec.getLsbD_ushiftRight, BitVec.getLsbD_and,
      BitVec.getLsbD_not, hmask]
    by_cases hn : k + i < n
    · simp [hn]
    · simp [BitVec.getLsbD_of_ge r (k + i) (by omega)]
  conv_lhs => rw [hsplit]
  rw [iterate_shift_xor, iterate_shift_of_low p hlow, hmove]

/-- A digit of the message is taken in with a table of the turned digits. -/
lemma run_bits_table {k x : ℕ} (hx : x < 2 ^ k) (hk : k ≤ n) (r : BitVec n) :
    run p r (bits k x) =
      (shift p)^[k] ((r ^^^ BitVec.ofNat n x) &&& BitVec.ofNat n (2 ^ k - 1)) ^^^ (r >>> k) := by
  have hgone : BitVec.ofNat n x >>> k = 0#n := by
    apply BitVec.eq_of_toNat_eq
    rw [BitVec.toNat_ushiftRight, BitVec.toNat_ofNat, Nat.shiftRight_eq_div_pow, BitVec.toNat_ofNat,
      Nat.zero_mod]
    exact Nat.div_eq_of_lt ((Nat.mod_le _ _).trans_lt hx)
  rw [run_bits p hx hk, iterate_shift_table, BitVec.ushiftRight_xor_distrib, hgone, BitVec.xor_zero]

/-! ## Bursts -/

section Burst
variable {p}
variable (hp : p.getLsbD (n - 1) = true)

include hp in
/-- If the polynomial has its highest coefficient, a turn loses nothing. -/
lemma shift_ne_zero {r : BitVec n} (h : r ≠ 0#n) : shift p r ≠ 0#n := by
  intro hz
  have hn : 0 < n := by
    by_contra h0
    rw [BitVec.getLsbD_of_ge _ _ (by omega)] at hp
    cases hp
  cases hb : r.getLsbD 0 with
  | true =>
    have htop := congrArg (fun v => BitVec.getLsbD v (n - 1)) hz
    simp only [shift, feed, hb, Bool.xor_false, if_true, BitVec.getLsbD_xor,
      BitVec.getLsbD_ushiftRight, hp, BitVec.getLsbD_zero] at htop
    rw [BitVec.getLsbD_of_ge _ _ (by omega)] at htop
    cases htop
  | false =>
    apply h
    apply BitVec.eq_of_getLsbD_eq
    intro i _
    cases i with
    | zero => rw [hb, BitVec.getLsbD_zero]
    | succ i =>
      have hbit := congrArg (fun v => BitVec.getLsbD v i) hz
      simp only [shift, feed, hb, Bool.xor_false, Bool.false_eq_true, if_false,
        BitVec.getLsbD_ushiftRight, BitVec.getLsbD_zero] at hbit
      rw [BitVec.getLsbD_zero, Nat.add_comm, hbit]

include hp in
/-- A register that is not zero stays so. -/
lemma iterate_shift_ne_zero (k : ℕ) {r : BitVec n} (h : r ≠ 0#n) : (shift p)^[k] r ≠ 0#n := by
  induction k generalizing r with
  | zero => exact h
  | succ k ih => exact ih (shift_ne_zero hp h)

include hp in
/-- A burst that fits in the register leaves it with a value other than 0. -/
lemma run_burst_ne_zero {w : List Bool} (hlen : w.length = n) (hw : true ∈ w) (i j : ℕ) :
    run p 0#n (List.replicate i false ++ (w ++ List.replicate j false)) ≠ 0#n := by
  have hword : BitVec.ofNat n (ofBits w) ≠ 0#n := by
    intro h
    have hnat := congrArg BitVec.toNat h
    rw [BitVec.toNat_ofNat, BitVec.toNat_ofNat, Nat.zero_mod,
      Nat.mod_eq_of_lt (hlen ▸ ofBits_lt w)] at hnat
    exact ofBits_ne_zero hw hnat
  have hrun : run p 0#n w = (shift p)^[n] (BitVec.ofNat n (ofBits w)) := by
    have hbits : bits n (ofBits w) = w := by
      rw [← hlen]
      exact bits_ofBits w
    have hfeed := run_bits p (hlen ▸ ofBits_lt w) le_rfl 0#n
    rwa [hbits, BitVec.zero_xor] at hfeed
  rw [run_append, run_append, run_replicate_false p i, iterate_shift_zero, run_replicate_false,
    hrun]
  exact iterate_shift_ne_zero hp j (iterate_shift_ne_zero hp n hword)

end Burst

/-! ## Flipped bits -/

/-- The bits `off`, …, `off + len - 1` of a set of positions. -/
def window (flips : Finset ℕ) (off len : ℕ) : List Bool := (List.range' off len).map fun i =>
    decide (i ∈ flips)

/-- Byte number `i` of a string with the bits of the string that are in the set flipped. -/
def flipByte (flips : Finset ℕ) (i : ℕ) (b : UInt8) : UInt8 :=
  UInt8.ofNat (ofBits (List.zipWith xor (bits 8 b.toNat) (window flips (8 * i) 8)))

/-- The bytes from number `i` on with bits flipped. -/
def flipBits (flips : Finset ℕ) : ℕ → List UInt8 → List UInt8
  | _, [] => []
  | i, b :: data => flipByte flips i b :: flipBits flips (i + 1) data

section Flip
variable {flips : Finset ℕ}

@[simp] lemma length_window (off len : ℕ) : (window flips off len).length = len := by simp [window]

/-- The windows of two parts. -/
lemma window_add (off j k : ℕ) : window flips off (j + k) = window flips off j ++ window flips
    (off + j) k := by
  rw [window, window, window, ← List.map_append, List.range'_append_1]

/-- No bit is flipped in the window. -/
lemma window_eq_replicate {off len : ℕ} (h : ∀ i ∈ flips, ¬ (off ≤ i ∧ i < off + len)) :
    window flips off len = List.replicate len false := by
  rw [List.eq_replicate_iff]
  refine ⟨length_window off len, ?_⟩
  intro b hb
  obtain ⟨i, hi, rfl⟩ := List.mem_map.mp hb
  exact decide_eq_false fun hmem => h i hmem (List.mem_range'_1.mp hi)

/-- The bits of a byte after the flips. -/
lemma bits_flipByte (i : ℕ) (b : UInt8) :
    bits 8 (flipByte flips i b).toNat = List.zipWith xor (bits 8 b.toNat)
      (window flips (8 * i) 8) := by
  have hlen : (List.zipWith xor (bits 8 b.toNat) (window flips (8 * i) 8)).length = 8 := by simp
  have hlt := ofBits_lt (List.zipWith xor (bits 8 b.toNat) (window flips (8 * i) 8))
  have hbits := bits_ofBits (List.zipWith xor (bits 8 b.toNat) (window flips (8 * i) 8))
  rw [hlen] at hlt hbits
  rw [flipByte, UInt8.toNat_ofNat', Nat.mod_eq_of_lt hlt, hbits]

/-- Flipping is an exclusive or with the set. -/
lemma bitsOf_flipBits (i : ℕ) (data : List UInt8) :
    bitsOf (flipBits flips i data) = List.zipWith xor (bitsOf data)
      (window flips (8 * i) (8 * data.length)) := by
  induction data generalizing i with
  | nil => rfl
  | cons b data ih =>
    have hlen : 8 * (data.length + 1) = 8 + 8 * data.length := by omega
    rw [flipBits, bitsOf_cons, bitsOf_cons, bits_flipByte, ih, List.length_cons, hlen, window_add,
      List.zipWith_append (by simp), Nat.mul_succ]

/-- No bit of the byte is flipped. -/
lemma flipByte_of_disjoint {i : ℕ} (h : ∀ j ∈ flips, ¬ (8 * i ≤ j ∧ j < 8 * i + 8)) (b : UInt8) :
    flipByte flips i b = b := by
  have hsame : List.zipWith xor (bits 8 b.toNat) (List.replicate 8 false) = bits 8 b.toNat :=
    zipWith_xor_replicate (bits 8 b.toNat)
  rw [flipByte, window_eq_replicate h, hsame, ofBits_bits b.toNat_lt, UInt8.ofNat_toNat]

/-- The bytes after the flips. -/
lemma getElem?_flipBits (i j : ℕ) (data : List UInt8) :
    (flipBits flips i data)[j]? = data[j]?.map (flipByte flips (i + j)) := by
  induction data generalizing i j with
  | nil => rfl
  | cons b data ih =>
    cases j with
    | zero => rfl
    | succ j =>
      rw [flipBits, List.getElem?_cons_succ, List.getElem?_cons_succ, ih, Nat.add_right_comm,
        Nat.add_assoc]

@[simp] lemma length_flipBits (i : ℕ) (data : List UInt8) :
    (flipBits flips i data).length = data.length := by
  induction data generalizing i with
  | nil => rfl
  | cons b data ih => rw [flipBits, List.length_cons, List.length_cons, ih]

end Flip

/-- Flips within as many consecutive bits as the register has change what the register ends with. -/
lemma run_flipBits_ne {p : BitVec n} (hp : p.getLsbD (n - 1) = true) {flips : Finset ℕ}
    (hne : flips.Nonempty) {k : ℕ} {data : List UInt8} (hk : k + n ≤ 8 * data.length)
    (hburst : ∀ i ∈ flips, k ≤ i ∧ i < k + n) (r : BitVec n) :
    run p r (bitsOf (flipBits flips 0 data)) ≠ run p r (bitsOf data) := by
  obtain ⟨j, hj⟩ := Nat.exists_eq_add_of_le hk
  have hsplit : window flips (8 * 0) (8 * data.length) =
      List.replicate k false ++ (window flips k n ++ List.replicate j false) := by
    have hbefore : window flips 0 k = List.replicate k false :=
      window_eq_replicate fun i hi => by
        have := hburst i hi
        omega
    have hafter : window flips (k + n) j = List.replicate j false :=
      window_eq_replicate fun i hi => by
        have := hburst i hi
        omega
    rw [hj, Nat.mul_zero, Nat.add_assoc, window_add, window_add, Nat.zero_add, hbefore, hafter]
  have htrue : true ∈ window flips k n := by
    obtain ⟨i, hi⟩ := hne
    exact List.mem_map.mpr ⟨i, List.mem_range'_1.mpr (hburst i hi), decide_eq_true hi⟩
  have hlen : (bitsOf data).length = (window flips (8 * 0) (8 * data.length)).length := by simp
  have hlin := run_xor p hlen r 0#n
  rw [BitVec.xor_zero, ← bitsOf_flipBits, hsplit] at hlin
  intro heq
  refine run_burst_ne_zero hp (length_window k n) htrue k j ?_
  rw [heq] at hlin
  have hcancel := congrArg (run p r (bitsOf data) ^^^ ·) hlin
  simp only [BitVec.xor_self, ← BitVec.xor_assoc, BitVec.zero_xor] at hcancel
  exact hcancel.symm

end Base.Crc
