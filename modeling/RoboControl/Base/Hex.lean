import Mathlib.Data.List.TakeWhile
import Mathlib.Tactic
import RoboControl.Base.CString
import RoboControl.Base.Words

/-!
# Hexadecimal numbers

The two digits of a byte (`hexByte`, `%02x` of `printf`) and the number at the front of a text
(`scanHex`, `%x` of `scanf`). A byte is read back from its digits, whatever follows them
(`scanHex_hexByte`).
-/

namespace Base

/-- The digit of a number below 16. -/
def hexDigit (n : Nat) : UInt8 := UInt8.ofNat (if n < 10 then 48 + n else 87 + n)

/-- The digits of a byte (`%02x`). -/
def hexByte (b : UInt8) : List UInt8 := [hexDigit (b.toNat / 16), hexDigit (b.toNat % 16)]

/-- A digit in either case (`isxdigit`). -/
def isHexDigit (b : UInt8) : Bool := (48 ≤ b && b ≤ 57) || (97 ≤ b && b ≤ 102) || (65 ≤ b && b ≤ 70)

/-- The number a digit stands for. -/
def hexDigitValue (b : UInt8) : Nat :=
  if b ≤ 57 then b.toNat - 48 else if b ≤ 70 then b.toNat - 55 else b.toNat - 87

/-- The number that digits stand for. -/
def hexValue (s : List UInt8) : Nat := s.foldl (fun v b => 16 * v + hexDigitValue b) 0

/-- The number that the digits at the front of a text stand for, if there are any. -/
def hexFront (s : List UInt8) : Option Nat :=
  let s := s.takeWhile isHexDigit
  if s = [] then none else some (hexValue s)

/-- Read an `unsigned int` of at most `width` bytes behind white space (`%x` of `scanf`): there may
be a sign, which negates, and `0x`, which has to be followed by digits. -/
def scanHex (width : Nat) (s : List UInt8) : Option UInt32 :=
  let s := (s.dropWhile isSpace).take width
  let (negative, s) : Bool × List UInt8 :=
    match s with
    | 45 :: s => (true, s)
    | 43 :: s => (false, s)
    | s => (false, s)
  let n :=
    match s with
    | 48 :: 120 :: s => hexFront s
    | 48 :: 88 :: s => hexFront s
    | s => hexFront s
  n.map fun n => if negative then 0 - UInt32.ofNat n else UInt32.ofNat n

/-! ## Reading digits -/

lemma isSpace_hexByte (b : UInt8) : isSpace (hexDigit (b.toNat / 16)) = false := by
  revert b
  refine forall_byte ?_
  decide +kernel

/-- Bytes are printed in digits. -/
lemma isHexDigit_hexByte (b : UInt8) : (hexByte b).all isHexDigit = true := by
  revert b
  refine forall_byte ?_
  decide +kernel

/-- A byte is read back from its digits. -/
lemma scanHex_hexByte (b : UInt8) (s : List UInt8) :
    scanHex 2 (hexByte b ++ s) = some b.toUInt32 := by
  have hall : ∀ b : UInt8, scanHex 2 (hexByte b) = some b.toUInt32 := by
    refine forall_byte ?_
    decide +kernel
  have hfront : ∀ t, ((hexByte b ++ t).dropWhile isSpace).take 2 = hexByte b := by
    intro t
    rw [hexByte, List.cons_append, List.dropWhile_cons_of_neg
      (by rw [isSpace_hexByte b]; exact Bool.false_ne_true)]
    rfl
  have hrest : scanHex 2 (hexByte b ++ s) = scanHex 2 (hexByte b ++ []) := by
    rw [scanHex, scanHex, hfront s, hfront []]
  rw [hrest, List.append_nil, hall b]

/-! ## The digits of several bytes -/

lemma length_flatMap_hexByte (l : List UInt8) : (l.flatMap hexByte).length = l.length * 2 := by
  induction l with
  | nil => rfl
  | cons b l ih =>
    rw [List.flatMap_cons, List.length_append, ih, List.length_cons, Nat.add_mul, Nat.add_comm]
    rfl

/-- Two digits a byte. -/
lemma drop_flatMap_hexByte (l : List UInt8) (n : Nat) :
    (l.flatMap hexByte).drop (n * 2) = (l.drop n).flatMap hexByte := by
  induction n generalizing l with
  | zero => rw [Nat.zero_mul, List.drop_zero, List.drop_zero]
  | succ n ih =>
    cases l with
    | nil => rw [List.flatMap_nil, List.drop_nil, List.drop_nil, List.flatMap_nil]
    | cons b l =>
      rw [List.drop_succ_cons, ← ih, List.flatMap_cons, hexByte, Nat.add_mul]
      rfl

/-- Only digits are printed. -/
lemma not_mem_flatMap_hexByte {c : UInt8} (hc : isHexDigit c = false) (l : List UInt8) :
    c ∉ l.flatMap hexByte := by
  intro h
  obtain ⟨b, -, hb⟩ := List.mem_flatMap.mp h
  exact Bool.false_ne_true (hc.symm.trans (List.all_eq_true.mp (isHexDigit_hexByte b) c hb))

end Base
