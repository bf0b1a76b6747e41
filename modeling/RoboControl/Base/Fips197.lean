import RoboControl.Base.Words

/-!
# AES-256

The advanced encryption standard FIPS-197 with keys of 256 bits, as the standard writes it: the
substitution table is the inverse in the field of 256 elements and an affine map, and a block of 16
bytes is a state of four columns, with byte `r + 4 * c` in row `r` of column `c`. The cipher takes
its round keys as an argument, `aes256` expands the key.
-/

namespace Base.Aes

/-! ## The field of 256 elements

An element is the number whose bits are the coefficients of the polynomial. -/

/-- Multiplication by `x` modulo `x⁸ + x⁴ + x³ + x + 1` (4.2.1). -/
def xtime (a : ℕ) : ℕ := 2 * a ^^^ (a / 128 * 0x11B)

/-- The product of `a` with the polynomial of the `i` highest coefficients of `b`. -/
def mulHigh (a b : ℕ) : ℕ → ℕ
  | 0 => 0
  | i + 1 => xtime (mulHigh a b i) ^^^ (b / 2 ^ (7 - i) % 2 * a)

/-- Multiplication (4.2). -/
def mul (a b : ℕ) : ℕ := mulHigh a b 8

/-- The inverses of the elements, with 0 for 0. -/
def inverses : List ℕ := [
  0x00, 0x01, 0x8d, 0xf6, 0xcb, 0x52, 0x7b, 0xd1, 0xe8, 0x4f, 0x29, 0xc0, 0xb0, 0xe1, 0xe5, 0xc7,
  0x74, 0xb4, 0xaa, 0x4b, 0x99, 0x2b, 0x60, 0x5f, 0x58, 0x3f, 0xfd, 0xcc, 0xff, 0x40, 0xee, 0xb2,
  0x3a, 0x6e, 0x5a, 0xf1, 0x55, 0x4d, 0xa8, 0xc9, 0xc1, 0x0a, 0x98, 0x15, 0x30, 0x44, 0xa2, 0xc2,
  0x2c, 0x45, 0x92, 0x6c, 0xf3, 0x39, 0x66, 0x42, 0xf2, 0x35, 0x20, 0x6f, 0x77, 0xbb, 0x59, 0x19,
  0x1d, 0xfe, 0x37, 0x67, 0x2d, 0x31, 0xf5, 0x69, 0xa7, 0x64, 0xab, 0x13, 0x54, 0x25, 0xe9, 0x09,
  0xed, 0x5c, 0x05, 0xca, 0x4c, 0x24, 0x87, 0xbf, 0x18, 0x3e, 0x22, 0xf0, 0x51, 0xec, 0x61, 0x17,
  0x16, 0x5e, 0xaf, 0xd3, 0x49, 0xa6, 0x36, 0x43, 0xf4, 0x47, 0x91, 0xdf, 0x33, 0x93, 0x21, 0x3b,
  0x79, 0xb7, 0x97, 0x85, 0x10, 0xb5, 0xba, 0x3c, 0xb6, 0x70, 0xd0, 0x06, 0xa1, 0xfa, 0x81, 0x82,
  0x83, 0x7e, 0x7f, 0x80, 0x96, 0x73, 0xbe, 0x56, 0x9b, 0x9e, 0x95, 0xd9, 0xf7, 0x02, 0xb9, 0xa4,
  0xde, 0x6a, 0x32, 0x6d, 0xd8, 0x8a, 0x84, 0x72, 0x2a, 0x14, 0x9f, 0x88, 0xf9, 0xdc, 0x89, 0x9a,
  0xfb, 0x7c, 0x2e, 0xc3, 0x8f, 0xb8, 0x65, 0x48, 0x26, 0xc8, 0x12, 0x4a, 0xce, 0xe7, 0xd2, 0x62,
  0x0c, 0xe0, 0x1f, 0xef, 0x11, 0x75, 0x78, 0x71, 0xa5, 0x8e, 0x76, 0x3d, 0xbd, 0xbc, 0x86, 0x57,
  0x0b, 0x28, 0x2f, 0xa3, 0xda, 0xd4, 0xe4, 0x0f, 0xa9, 0x27, 0x53, 0x04, 0x1b, 0xfc, 0xac, 0xe6,
  0x7a, 0x07, 0xae, 0x63, 0xc5, 0xdb, 0xe2, 0xea, 0x94, 0x8b, 0xc4, 0xd5, 0x9d, 0xf8, 0x90, 0x6b,
  0xb1, 0x0d, 0xd6, 0xeb, 0xc6, 0x0e, 0xcf, 0xad, 0x08, 0x4e, 0xd7, 0xe3, 0x5d, 0x50, 0x1e, 0xb3,
  0x5b, 0x23, 0x38, 0x34, 0x68, 0x46, 0x03, 0x8c, 0xdd, 0x9c, 0x7d, 0xa0, 0xcd, 0x1a, 0x41, 0x1c]

/-- The inverse of an element, and 0 for 0. -/
def inv (a : ℕ) : ℕ := inverses.getD a 0

/-- The inverses are inverses. -/
lemma mul_inv {a : ℕ} (ha : a < 256) (h0 : a ≠ 0) : mul a (inv a) = 1 := by
  have htable : List.zipWith mul (List.range 256) inverses = 0 :: List.replicate 255 1 := by
    decide +kernel
  have hlen : inverses.length = 256 := by decide +kernel
  have hget := congrArg (·[a]?) htable
  obtain ⟨b, rfl⟩ := Nat.exists_eq_succ_of_ne_zero h0
  simp only [List.getElem?_zipWith, List.getElem?_range ha, List.getElem?_cons_succ,
    List.getElem?_replicate_of_lt (show b < 255 by omega),
      List.getElem?_eq_getElem (show b + 1 < inverses.length by omega),
    Option.some.injEq] at hget
  rw [inv, List.getD_eq_getElem?_getD, List.getElem?_eq_getElem (show b + 1 < inverses.length by
    omega)]
  exact hget

/-- The bits of a byte moved up by `k` places in a cycle. -/
def rotl (b k : ℕ) : ℕ := b * 2 ^ k % 256 + b / 2 ^ (8 - k)

/-- The affine map over the bits (5.1): bit `i` of the result is the sum of the bits `i`, `i + 4`,
…, `i + 7` in the cycle and of bit `i` of `{63}`. -/
def affine (b : ℕ) : ℕ := b ^^^ rotl b 1 ^^^ rotl b 2 ^^^ rotl b 3 ^^^ rotl b 4 ^^^ 0x63

/-- The substitution of a byte (5.1.1): the affine image of the inverse. -/
def sbox (b : UInt8) : UInt8 := UInt8.ofNat (affine (inv b.toNat))

/-- Multiplication of a byte. -/
def mulByte (a : UInt8) (k : ℕ) : UInt8 := UInt8.ofNat (mul a.toNat k)

/-! ## The key schedule -/

/-- A word of four bytes. -/
@[ext]
structure Word where
  b₀ : UInt8
  b₁ : UInt8
  b₂ : UInt8
  b₃ : UInt8
  deriving DecidableEq

namespace Word

/-- Byte `r` of a word. -/
def byte (w : Word) : ℕ → UInt8
  | 0 => w.b₀
  | 1 => w.b₁
  | 2 => w.b₂
  | _ => w.b₃

/-- The sum of two words. -/
def add (v w : Word) : Word := ⟨v.b₀ ^^^ w.b₀, v.b₁ ^^^ w.b₁, v.b₂ ^^^ w.b₂, v.b₃ ^^^ w.b₃⟩

/-- The bytes in a cycle (ROTWORD). -/
def rot (w : Word) : Word := ⟨w.b₁, w.b₂, w.b₃, w.b₀⟩

/-- The substitution of every byte (SUBWORD). -/
def sub (w : Word) : Word := ⟨sbox w.b₀, sbox w.b₁, sbox w.b₂, sbox w.b₃⟩

/-- The constant of a round (5.2). -/
def rcon (j : ℕ) : Word := ⟨UInt8.ofNat (xtime^[j - 1] 1), 0, 0, 0⟩

/-- The word of 0. -/
def zero : Word := ⟨0, 0, 0, 0⟩

end Word

/-- Word `i` of the key. -/
def keyWord (key : List UInt8) (i : ℕ) : Word :=
  ⟨key.getD (4 * i) 0, key.getD (4 * i + 1) 0, key.getD (4 * i + 2) 0, key.getD (4 * i + 3) 0⟩

/-- A turn of the key expansion: word `i` is appended (5.2, with `Nk = 8`). -/
def expandStep (w : List Word) (i : ℕ) : List Word :=
  let temp := w.getD (i - 1) .zero
  let temp :=
    if i % 8 = 0 then temp.rot.sub.add (.rcon (i / 8))
    else if i % 8 = 4 then temp.sub
    else temp
  w ++ [(w.getD (i - 8) .zero).add temp]

/-- The key expansion (5.2, with `Nk = 8` and `Nr = 14`). -/
def expandKey (key : List UInt8) : List Word :=
  (List.range' 8 52).foldl expandStep ((List.range 8).map (keyWord key))

/-! ## The cipher -/

/-- The substitution of the state (5.1.1). -/
def subBytes (s : List UInt8) : List UInt8 := s.map sbox

/-- Row `r` is moved by `r` columns (5.1.2). -/
def shiftRows (s : List UInt8) : List UInt8 :=
  (List.range 16).map fun i => s.getD (i % 4 + 4 * ((i / 4 + i % 4) % 4)) 0

/-- The columns are multiplied by a polynomial (5.1.3). -/
def mixColumns (s : List UInt8) : List UInt8 :=
  (List.range 16).map fun i =>
    let col := fun r => s.getD (r % 4 + 4 * (i / 4)) 0
    mulByte (col i) 2 ^^^ mulByte (col (i + 1)) 3 ^^^ col (i + 2) ^^^ col (i + 3)

/-- A round key is added, word `c` to column `c` (5.1.4). -/
def addRoundKey (k : ℕ → Word) (s : List UInt8) : List UInt8 :=
  (List.range 16).map fun i => s.getD i 0 ^^^ (k (i / 4)).byte (i % 4)

/-- A round but the last. -/
def round (k : ℕ → Word) (s : List UInt8) : List UInt8 :=
  addRoundKey k (mixColumns (shiftRows (subBytes s)))

/-- The last round. -/
def lastRound (k : ℕ → Word) (s : List UInt8) : List UInt8 := addRoundKey k (shiftRows (subBytes s))

/-- The cipher (5.1) with round keys `k 0`, …, `k 14`. -/
def cipher (k : ℕ → ℕ → Word) (block : List UInt8) : List UInt8 :=
  lastRound (k 14) ((List.range' 1 13).foldl (fun s r => round (k r) s) (addRoundKey (k 0) block))

/-- Word `c` of the key of a round. -/
def roundKey (w : List Word) (r c : ℕ) : Word := w.getD (4 * r + c) .zero

/-- AES-256 of a block. -/
def aes256 (key block : List UInt8) : List UInt8 := cipher (roundKey (expandKey key)) block

@[simp] lemma length_shiftRows (s : List UInt8) : (shiftRows s).length = 16 := by simp [shiftRows]

@[simp] lemma length_mixColumns (s : List UInt8) : (mixColumns s).length = 16 := by
  simp [mixColumns]

@[simp] lemma length_addRoundKey (k : ℕ → Word) (s : List UInt8) :
    (addRoundKey k s).length = 16 := by
  simp [addRoundKey]

end Base.Aes
