import Mathlib.Data.UInt
import Mathlib.Tactic

/-!
# Words and their bytes

Words of 16 and 32 bits that a program puts together from bytes with shifts, the most significant
byte first (`be16`, `be32`), and the bytes it takes out of a word with shifts (`bytes16`,
`bytes32`). The one undoes the other (`be32_bytes32`, `bytes32_be32`), because the word is the
number that the bytes write (`toNat_be32`).
-/

namespace Base
variable (a b c d : UInt8)

/-- A word of 16 bits, the most significant byte first. -/
def be16 : UInt16 := (a.toUInt16 <<< 8) ||| b.toUInt16

/-- A word of 32 bits, the most significant byte first. -/
def be32 : UInt32 :=
  (a.toUInt32 <<< 24) ||| (b.toUInt32 <<< 16) ||| (c.toUInt32 <<< 8) ||| d.toUInt32

/-- The bytes of a word of 16 bits. -/
def bytes16 (w : UInt16) : List UInt8 := [(w >>> 8).toUInt8, w.toUInt8]

/-- The bytes of a word of 32 bits. -/
def bytes32 (w : UInt32) : List UInt8 :=
  [(w >>> 24).toUInt8, (w >>> 16).toUInt8, (w >>> 8).toUInt8, w.toUInt8]

/-- What holds of the 256 bytes holds of every byte. -/
lemma forall_byte {p : UInt8 → Prop} (h : ∀ i < 256, p (UInt8.ofNat i)) (b : UInt8) : p b := by
  have hb := h b.toNat b.toNat_lt
  rwa [UInt8.ofNat_toNat] at hb

/-- Digits that do not overlap are added. -/
lemma mul_or_of_lt {y k : ℕ} (x : ℕ) (hy : y < 2 ^ k) : x * 2 ^ k ||| y = x * 2 ^ k + y := by
  rw [← Nat.shiftLeft_eq, Nat.shiftLeft_add_eq_or_of_lt hy]

/-- Two bytes as a number. -/
lemma toNat_be16 : (be16 a b).toNat = a.toNat * 2 ^ 8 + b.toNat := by
  have ha := a.toNat_lt
  have hshift : (a.toUInt16 <<< 8).toNat = a.toNat * 2 ^ 8 := by
    rw [UInt16.toNat_shiftLeft, UInt8.toNat_toUInt16, Nat.shiftLeft_eq]
    show a.toNat * 2 ^ 8 % 2 ^ 16 = a.toNat * 2 ^ 8
    omega
  rw [be16, UInt16.toNat_or, hshift, UInt8.toNat_toUInt16, mul_or_of_lt _ b.toNat_lt]

/-- Four bytes as a number. -/
lemma toNat_be32 :
    (be32 a b c d).toNat = a.toNat * 2 ^ 24 + b.toNat * 2 ^ 16 + c.toNat * 2 ^ 8 + d.toNat := by
  have ha := a.toNat_lt
  have hb := b.toNat_lt
  have hc := c.toNat_lt
  have hshift : ∀ (x : UInt8) (k : UInt32), k.toNat ≤ 24 →
      (x.toUInt32 <<< k).toNat = x.toNat * 2 ^ k.toNat := by
    intro x k hk
    have hx := x.toNat_lt
    rw [UInt32.toNat_shiftLeft, UInt8.toNat_toUInt32, Nat.mod_eq_of_lt (show k.toNat < 32 by omega),
      Nat.shiftLeft_eq]
    refine Nat.mod_eq_of_lt ?_
    calc x.toNat * 2 ^ k.toNat ≤ x.toNat * 2 ^ 24 :=
          Nat.mul_le_mul_left _ (Nat.pow_le_pow_right (by decide) hk)
      _ < 2 ^ 32 := by omega
  have hab : a.toNat * 2 ^ 24 ||| b.toNat * 2 ^ 16 = (a.toNat * 2 ^ 8 + b.toNat) * 2 ^ 16 := by
    rw [mul_or_of_lt _ (by omega)]
    ring
  have habc : (a.toNat * 2 ^ 8 + b.toNat) * 2 ^ 16 ||| c.toNat * 2 ^ 8 =
      (a.toNat * 2 ^ 16 + b.toNat * 2 ^ 8 + c.toNat) * 2 ^ 8 := by
    rw [mul_or_of_lt _ (by omega)]
    ring
  rw [be32, UInt32.toNat_or, UInt32.toNat_or, UInt32.toNat_or, hshift a 24 (by decide),
    hshift b 16 (by decide), hshift c 8 (by decide), UInt8.toNat_toUInt32]
  show a.toNat * 2 ^ 24 ||| b.toNat * 2 ^ 16 ||| c.toNat * 2 ^ 8 ||| d.toNat = _
  rw [hab, habc, mul_or_of_lt _ d.toNat_lt]
  ring

/-- A byte of a word is a digit of its number. -/
lemma toNat_toUInt8_shiftRight (w : UInt32) {k : UInt32} (hk : k.toNat < 32) :
    (w >>> k).toUInt8.toNat = w.toNat / 2 ^ k.toNat % 256 := by
  rw [UInt32.toNat_toUInt8, UInt32.toNat_shiftRight, Nat.mod_eq_of_lt hk, Nat.shiftRight_eq_div_pow]

/-- The bytes of a word. -/
lemma bytes32_be32 : bytes32 (be32 a b c d) = [a, b, c, d] := by
  have ha := a.toNat_lt
  have hb := b.toNat_lt
  have hc := c.toNat_lt
  have hd := d.toNat_lt
  have hw := toNat_be32 a b c d
  have h24 := toNat_toUInt8_shiftRight (be32 a b c d) (k := 24) (by decide)
  have h16 := toNat_toUInt8_shiftRight (be32 a b c d) (k := 16) (by decide)
  have h8 := toNat_toUInt8_shiftRight (be32 a b c d) (k := 8) (by decide)
  have h0 := UInt32.toNat_toUInt8 (be32 a b c d)
  simp only [UInt32.reduceToNat] at h24 h16 h8
  rw [bytes32, List.cons_eq_cons, List.cons_eq_cons, List.cons_eq_cons, List.cons_eq_cons,
    ← UInt8.toNat_inj, ← UInt8.toNat_inj, ← UInt8.toNat_inj, ← UInt8.toNat_inj]
  refine ⟨?_, ?_, ?_, ?_, rfl⟩ <;> omega

/-- The word of its bytes. -/
lemma be32_bytes32 (w : UInt32) :
    be32 (w >>> 24).toUInt8 (w >>> 16).toUInt8 (w >>> 8).toUInt8 w.toUInt8 = w := by
  have hw := w.toNat_lt
  have h24 := toNat_toUInt8_shiftRight w (k := 24) (by decide)
  have h16 := toNat_toUInt8_shiftRight w (k := 16) (by decide)
  have h8 := toNat_toUInt8_shiftRight w (k := 8) (by decide)
  have h0 := UInt32.toNat_toUInt8 w
  simp only [UInt32.reduceToNat] at h24 h16 h8
  rw [← UInt32.toNat_inj, toNat_be32, h24, h16, h8, h0]
  omega

lemma toNat_toUInt8_high (w : UInt16) : (w >>> 8).toUInt8.toNat = w.toNat / 2 ^ 8 % 256 := by
  rw [UInt16.toNat_toUInt8, UInt16.toNat_shiftRight, Nat.shiftRight_eq_div_pow]
  rfl

/-- The word of its bytes. -/
lemma be16_bytes16 (w : UInt16) : be16 (w >>> 8).toUInt8 w.toUInt8 = w := by
  have hw := w.toNat_lt
  rw [← UInt16.toNat_inj, toNat_be16, toNat_toUInt8_high, UInt16.toNat_toUInt8]
  omega

/-- The bytes of a word. -/
lemma bytes16_be16 : bytes16 (be16 a b) = [a, b] := by
  have ha := a.toNat_lt
  have hb := b.toNat_lt
  have hw := toNat_be16 a b
  have h8 := toNat_toUInt8_high (be16 a b)
  have h0 := UInt16.toNat_toUInt8 (be16 a b)
  rw [bytes16, List.cons_eq_cons, List.cons_eq_cons, ← UInt8.toNat_inj, ← UInt8.toNat_inj]
  refine ⟨?_, ?_, rfl⟩ <;> omega

@[simp] lemma length_bytes16 (w : UInt16) : (bytes16 w).length = 2 := rfl

@[simp] lemma length_bytes32 (w : UInt32) : (bytes32 w).length = 4 := rfl

end Base
