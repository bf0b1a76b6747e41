import Mathlib.Data.List.TakeWhile
import Mathlib.Tactic
import RoboControl.Base.CString

/-!
# Decimal numbers

Numbers as texts: their decimal digits (`digits`), the functions `strtoull` and `atoi` that read
what is at the front of a text, and `string2ll`, which reads a text that is a signed number and
nothing else. Each of them reads back the digits of a number in its range (`strtoull_digits`,
`atoi_digits`, `string2ll_digits`).
-/

namespace Base

/-- The decimal digits of a number (`%lu` and its relatives). -/
def digits (n : Nat) : List UInt8 := (Nat.toDigits 10 n).map fun c => UInt8.ofNat c.toNat

/-- A decimal digit (`isdigit`). -/
def isDigit (b : UInt8) : Bool := 48 ≤ b && b ≤ 57

/-- The number that digits stand for. -/
def digitsValue (s : List UInt8) : Nat := s.foldl (fun v b => 10 * v + (b.toNat - 48)) 0

/-- The sign and the digits at the front of a text, behind white space. -/
def scanNumber (s : List UInt8) : Bool × Nat :=
  match s.dropWhile isSpace with
  | 45 :: s => (true, digitsValue (s.takeWhile isDigit))
  | 43 :: s => (false, digitsValue (s.takeWhile isDigit))
  | s => (false, digitsValue (s.takeWhile isDigit))

/-- Read an unsigned number (`strtoull` in base 10): a sign negates, and what is too large is the
largest number. -/
def strtoull (s : List UInt8) : UInt64 :=
  let (negative, n) := scanNumber s
  if n ≥ 2 ^ 64 then UInt64.ofNat (2 ^ 64 - 1)
  else if negative then 0 - UInt64.ofNat n
  else UInt64.ofNat n

/-- Read an `int` (`atoi`, which truncates what `strtol` reads). -/
def atoi (s : List UInt8) : Int :=
  let (negative, n) := scanNumber s
  let long : Int := if negative then max (-2 ^ 63) (-n) else min (2 ^ 63 - 1) n
  long.bmod (2 ^ 32)

/-- Read a `long` of 64 bits (`atol`); what is too large or too small is the nearest
number there is. -/
def atol (s : List UInt8) : Int :=
  let (negative, n) := scanNumber s
  if negative then max (-2 ^ 63) (-n) else min (2 ^ 63 - 1) n

/-- The number that a text is the digits of. -/
def scanDigits (s : List UInt8) : Option Nat :=
  if s ≠ [] ∧ s.all isDigit ∧ s.head? ≠ some 48 then some (digitsValue s) else none

/-- Read a signed number of 64 bits, whose digits have to be all there is. -/
def string2ll : List UInt8 → Option Int
  | [48] => some 0
  | 45 :: s => (scanDigits s).bind fun (n : Nat) => if n ≤ 2 ^ 63 then some (-(n : Int)) else none
  | s => (scanDigits s).bind fun (n : Nat) => if n < 2 ^ 63 then some (n : Int) else none

/-- The text of a signed number (`%lld`). -/
def signedDigits (n : Int) : List UInt8 := if n < 0 then 45 :: digits n.natAbs else digits n.natAbs

/-! ## Reading digits -/

/-- The last digit and those before it. -/
lemma digits_eq_if (n : Nat) :
    digits n =
      if n < 10 then [UInt8.ofNat (48 + n)]
      else digits (n / 10) ++ [UInt8.ofNat (48 + n % 10)] := by
  have hchar : ∀ m < 10, UInt8.ofNat (Nat.digitChar m).toNat = UInt8.ofNat (48 + m) :=
    fun m hm => by
    rw [Nat.toNat_digitChar_of_lt_ten hm]
  rw [digits, Nat.toDigits_eq_if (by decide)]
  split
  · next h => rw [List.map_singleton, hchar n h]
  · rw [List.map_append, List.map_singleton, hchar _ (Nat.mod_lt n (by decide))]
    rfl

/-- Induction on the digits. -/
lemma digits_induction {P : Nat → Prop} (small : ∀ n < 10, P n)
    (large : ∀ n, 10 ≤ n → P (n / 10) → P n) (n : Nat) : P n := by
  induction n using Nat.strong_induction_on with
  | _ n ih =>
    by_cases h : n < 10
    · exact small n h
    · exact large n (Nat.not_lt.mp h) (ih (n / 10) (by omega))

lemma toNat_digit {m : Nat} (h : m < 10) : (UInt8.ofNat (48 + m)).toNat = 48 + m := by
  rw [UInt8.toNat_ofNat']
  omega

/-- Digits are digits. -/
lemma isDigit_digit {m : Nat} (h : m < 10) : isDigit (UInt8.ofNat (48 + m)) = true := by
  have hm := toNat_digit h
  rw [isDigit, Bool.and_eq_true, decide_eq_true_eq, decide_eq_true_eq, UInt8.le_iff_toNat_le,
    UInt8.le_iff_toNat_le, hm]
  exact ⟨Nat.le_add_right 48 m, show 48 + m ≤ 57 by omega⟩

/-- Digits are digits. -/
lemma all_digits (n : Nat) : ∀ b ∈ digits n, isDigit b = true := by
  induction n using digits_induction with
  | small n h =>
    rw [digits_eq_if, if_pos h]
    intro b hb
    rw [List.mem_singleton.mp hb]
    exact isDigit_digit h
  | large n h ih =>
    rw [digits_eq_if, if_neg (Nat.not_lt.mpr h)]
    intro b hb
    rcases List.mem_append.mp hb with hb | hb
    · exact ih b hb
    · rw [List.mem_singleton.mp hb]
      exact isDigit_digit (Nat.mod_lt n (by decide))

/-- The digits of a number stand for it. -/
lemma digitsValue_digits (n : Nat) : digitsValue (digits n) = n := by
  induction n using digits_induction with
  | small n h =>
    rw [digits_eq_if, if_pos h, digitsValue, List.foldl_cons, List.foldl_nil, toNat_digit h]
    omega
  | large n h ih =>
    rw [digitsValue] at ih
    rw [digits_eq_if, if_neg (Nat.not_lt.mpr h), digitsValue, List.foldl_append, ih,
      List.foldl_cons, List.foldl_nil, toNat_digit (Nat.mod_lt n (by decide))]
    omega

/-- The first digit of a number is a digit, and 0 only for the number 0. -/
lemma digits_cons (n : Nat) : ∃ b s, digits n = b :: s ∧ (b = 48 → n = 0) := by
  induction n using digits_induction with
  | small n h =>
    refine ⟨_, [], by rw [digits_eq_if, if_pos h], fun e => ?_⟩
    have he := congrArg UInt8.toNat e
    rw [toNat_digit h] at he
    exact Nat.add_left_cancel (he.trans (show 48 = 48 + 0 from rfl))
  | large n h ih =>
    obtain ⟨b, s, hs, hb⟩ := ih
    refine ⟨b, s ++ [UInt8.ofNat (48 + n % 10)], by
      rw [digits_eq_if, if_neg (Nat.not_lt.mpr h), hs]; rfl, fun e => ?_⟩
    have hzero := hb e
    omega

/-- A digit is neither white space nor a sign. -/
lemma isDigit_ne {b : UInt8} (h : isDigit b = true) : isSpace b = false ∧ b ≠ 45 ∧ b ≠ 43 := by
  rw [isDigit, Bool.and_eq_true, decide_eq_true_eq, decide_eq_true_eq, UInt8.le_iff_toNat_le,
    UInt8.le_iff_toNat_le] at h
  have hlow : 48 ≤ b.toNat := h.1
  have hne : ∀ c : UInt8, c.toNat < 48 → b ≠ c := by
    rintro c hc rfl
    omega
  refine ⟨?_, hne 45 (by decide), hne 43 (by decide)⟩
  rw [isSpace, Bool.or_eq_false_iff, beq_eq_false_iff_ne, Bool.and_eq_false_iff]
  refine ⟨hne 32 (by decide), .inr (decide_eq_false fun hle => ?_)⟩
  have hhigh : b.toNat ≤ 13 := UInt8.le_iff_toNat_le.mp hle
  omega

/-- A number is read. -/
lemma scanNumber_digits (n : Nat) : scanNumber (digits n) = (false, n) := by
  have hvalue : digitsValue ((digits n).takeWhile isDigit) = n := by
    rw [List.takeWhile_eq_self_iff.mpr (all_digits n), digitsValue_digits]
  obtain ⟨b, s, hs, -⟩ := digits_cons n
  obtain ⟨hspace, hminus, hplus⟩ := isDigit_ne (all_digits n b (hs ▸ List.mem_cons_self))
  rw [hs] at hvalue
  rw [scanNumber, hs, List.dropWhile_cons_of_neg (by rw [hspace]; exact Bool.false_ne_true)]
  split
  · next h => exact absurd (List.cons.inj h).1 hminus
  · next h => exact absurd (List.cons.inj h).1 hplus
  · rw [hvalue]

/-- A negative number is read. -/
lemma scanNumber_neg_digits (n : Nat) : scanNumber (45 :: digits n) = (true, n) := by
  have hspace : ¬ isSpace 45 = true := by decide
  rw [scanNumber, List.dropWhile_cons_of_neg hspace]
  show (true, digitsValue ((digits n).takeWhile isDigit)) = (true, n)
  rw [List.takeWhile_eq_self_iff.mpr (all_digits n), digitsValue_digits]

/-- `strtoull` reads what was printed. -/
lemma strtoull_digits {n : Nat} (h : n < 2 ^ 64) : (strtoull (digits n)).toNat = n := by
  rw [strtoull, scanNumber_digits]
  dsimp only
  rw [if_neg (Nat.not_le.mpr h), if_neg Bool.false_ne_true, UInt64.toNat_ofNat']
  exact Nat.mod_eq_of_lt h

/-- `atoi` reads what was printed. -/
lemma atoi_digits {n : Nat} (h : n < 2 ^ 31) : atoi (digits n) = n := by
  rw [atoi, scanNumber_digits]
  dsimp only
  rw [if_neg Bool.false_ne_true, min_eq_right (by omega), Int.bmod_eq_of_le (by omega) (by omega)]

/-- `atol` reads what was printed. -/
lemma atol_signedDigits {n : Int} (hlow : -2 ^ 63 ≤ n) (hhigh : n < 2 ^ 63) :
    atol (signedDigits n) = n := by
  rcases lt_or_ge n 0 with hneg | hnonneg
  · rw [signedDigits, if_pos hneg, atol, scanNumber_neg_digits]
    dsimp only
    rw [if_pos rfl]
    omega
  · rw [signedDigits, if_neg (Int.not_lt.mpr hnonneg), atol, scanNumber_digits]
    dsimp only
    rw [if_neg Bool.false_ne_true]
    omega

/-- The text of a number has nothing but digits and a sign. -/
lemma not_mem_signedDigits {c : UInt8} (hsign : c ≠ 45) (hdigit : isDigit c = false) (n : Int) :
    c ∉ signedDigits n := by
  have hdigits : c ∉ digits n.natAbs := by
    intro h
    exact Bool.false_ne_true (hdigit.symm.trans (all_digits _ c h))
  rw [signedDigits]
  split
  · exact List.not_mem_cons_of_ne_of_not_mem hsign hdigits
  · exact hdigits

/-- The digits of a positive number. -/
lemma scanDigits_digits {n : Nat} (h : n ≠ 0) : scanDigits (digits n) = some n := by
  obtain ⟨b, s, hs, hb⟩ := digits_cons n
  have hall : (digits n).all isDigit = true := List.all_eq_true.mpr (all_digits n)
  have hhead : (digits n).head? ≠ some 48 := by
    rw [hs]
    exact fun e => h (hb (Option.some.inj e))
  rw [scanDigits, if_pos ⟨by rw [hs]; exact List.cons_ne_nil b s, hall, hhead⟩, digitsValue_digits]

/-- Redis reads numbers below `2 ^ 63`. -/
lemma string2ll_digits (n : Nat) :
    string2ll (digits n) = if n < 2 ^ 63 then some (n : Int) else none := by
  by_cases hzero : n = 0
  · subst hzero
    rfl
  · obtain ⟨b, s, hs, hb⟩ := digits_cons n
    obtain ⟨-, hminus, -⟩ := isDigit_ne (all_digits n b (hs ▸ List.mem_cons_self))
    have hscan := scanDigits_digits hzero
    rw [hs] at hscan ⊢
    rw [string2ll.eq_3 _ (fun e => hzero (hb (List.cons.inj e).1))
      (fun t e => hminus (List.cons.inj e).1), hscan, Option.bind_some]

lemma signedDigits_natCast (n : Nat) : signedDigits (n : Int) = digits n := by
  rw [signedDigits, if_neg (by omega), Int.natAbs_natCast]

/-- The digits in front of something else. -/
lemma digits_append_inj {n m : Nat} {b c : UInt8} {s t : List UInt8} (hb : isDigit b = false)
    (hc : isDigit c = false) (h : digits n ++ b :: s = digits m ++ c :: t) : n = m := by
  have htake : ∀ (k : Nat) {d : UInt8} (u : List UInt8), isDigit d = false →
      (digits k ++ d :: u).takeWhile isDigit = digits k := by
    intro k d u hd
    rw [List.takeWhile_append_of_pos (all_digits k),
      List.takeWhile_cons_of_neg (by rw [hd]; exact Bool.false_ne_true), List.append_nil]
  have hdigits : digits n = digits m := by
    rw [← htake n s hb, h, htake m t hc]
  rw [← digitsValue_digits n, hdigits, digitsValue_digits]

end Base
