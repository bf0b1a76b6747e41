import Mathlib.Data.List.Basic
import Mathlib.Data.List.Infix

/-!
# Strings of C

Functions of `string.h` and `stdio.h` on strings, which are the bytes before the terminating zero. A
pointer into a string is what is left of the string from there on.
-/

namespace Base

/-- The first occurrence of a text (`strstr`). -/
def strstr (s needle : List UInt8) : Option (List UInt8) := s.tails.find? fun t =>
    needle.isPrefixOf t

/-- The first occurrence of a byte (`strchr`). -/
def strchr (s : List UInt8) (c : UInt8) : Option (List UInt8) :=
  if c ∈ s then some (s.dropWhile (· ≠ c)) else none

/-- The last occurrence of a byte (`strrchr`). -/
def strrchr : List UInt8 → UInt8 → Option (List UInt8)
  | [], _ => none
  | b :: s, c => (strrchr s c).or (if b = c then some (b :: s) else none)

/-- The string in a buffer. -/
def stringIn (buf : List UInt8) : List UInt8 := buf.takeWhile (· ≠ 0)

/-- The `n` bytes that `strncpy` writes: of a string that is shorter all of it, with
zeros behind it. -/
def strncpy (n : Nat) (s : List UInt8) : List UInt8 := s.take n ++ List.replicate (n - s.length) 0

/-- White space (`isspace`). -/
def isSpace (b : UInt8) : Bool := b == 32 || (9 ≤ b && b ≤ 13)

/-- The next word of at most `width` bytes, and what follows it (`%s` with a width in `sscanf`). -/
def scanWord (width : Nat) (s : List UInt8) : List UInt8 × List UInt8 :=
  let s := s.dropWhile isSpace
  let word := (s.takeWhile fun b => !isSpace b).take width
  (word, s.drop word.length)

/-- A text occurs in a string. -/
lemma strstr_isSome_iff {s needle : List UInt8} : (strstr s needle).isSome = true ↔
    needle <:+: s := by
  simp only [strstr, List.find?_isSome, List.mem_tails, List.isPrefixOf_iff_prefix,
    List.infix_iff_prefix_suffix]
  exact exists_congr fun _ => and_comm

/-- A text does not start where its first byte does not occur. -/
lemma infix_of_append_left {b : UInt8} {l s t : List UInt8} (hs : b ∉ s) (h : b :: l <:+: s ++ t) :
    b :: l <:+: t := by
  induction s with
  | nil => exact h
  | cons a s ih =>
    rcases List.infix_cons_iff.mp h with h | h
    · exact (hs ((List.cons_prefix_cons.mp h).1 ▸ List.mem_cons_self)).elim
    · exact ih (fun hb => hs (List.mem_cons_of_mem a hb)) h

/-! ## Searching behind a byte -/

/-- What follows each occurrence of a byte. -/
def behind (c : UInt8) : List UInt8 → List (List UInt8)
  | [] => []
  | b :: s => if b = c then s :: behind c s else behind c s

variable {c : UInt8} {l s : List UInt8}

@[simp] lemma behind_cons_self : behind c (c :: s) = s :: behind c s := if_pos rfl

lemma behind_cons_of_ne {b : UInt8} (h : b ≠ c) : behind c (b :: s) = behind c s := if_neg h

/-- Text without the byte. -/
@[simp] lemma behind_append (h : c ∉ l) : behind c (l ++ s) = behind c s := by
  induction l with
  | nil => rfl
  | cons b l ih =>
    rw [List.mem_cons, not_or] at h
    rw [List.cons_append, behind_cons_of_ne (Ne.symm h.1), ih h.2]

/-- A text that starts with a byte is found behind the first such byte that the rest
of it follows. -/
lemma strstr_cons (c : UInt8) (s needle : List UInt8) :
    strstr s (c :: needle) = ((behind c s).find? fun r => needle.isPrefixOf r).map (c :: ·) := by
  induction s with
  | nil => rfl
  | cons b s ih =>
    rw [strstr] at ih ⊢
    rw [List.tails_cons, List.find?_cons, List.isPrefixOf_cons_cons]
    by_cases hb : b = c
    · subst hb
      rw [behind_cons_self, List.find?_cons, beq_self_eq_true, Bool.true_and]
      cases needle.isPrefixOf s with
      | true => rfl
      | false => exact ih
    · rw [behind_cons_of_ne hb, beq_eq_false_iff_ne.mpr (Ne.symm hb), Bool.false_and]
      exact ih

@[simp] lemma strchr_cons_self : strchr (c :: s) c = some (c :: s) := by simp [strchr]

/-- Text without the byte. -/
@[simp] lemma strchr_append (h : c ∉ l) : strchr (l ++ s) c = strchr s c := by
  have hl : ∀ b ∈ l, decide (b ≠ c) = true := fun b hb => decide_eq_true fun e => h (e ▸ hb)
  rw [strchr, strchr, List.dropWhile_append_of_pos hl]
  simp [h]

/-- The byte is not there. -/
lemma strrchr_of_not_mem (h : c ∉ s) : strrchr s c = none := by
  induction s with
  | nil => rfl
  | cons b s ih =>
    rw [List.mem_cons, not_or] at h
    rw [strrchr, ih h.2, if_neg (Ne.symm h.1)]
    rfl

/-- What is behind an occurrence of a byte decides whether it is the last. -/
lemma strrchr_append_cons (h : c ∉ s) : strrchr (l ++ c :: s) c = some (c :: s) := by
  induction l with
  | nil =>
    rw [List.nil_append, strrchr, strrchr_of_not_mem h, if_pos rfl]
    rfl
  | cons b l ih =>
    rw [List.cons_append, strrchr, ih]
    rfl

/-- The text before the first occurrence of a byte. -/
lemma takeWhile_append_cons (h : c ∉ l) : (l ++ c :: s).takeWhile (fun b => decide (b ≠ c)) =
    l := by
  have hl : ∀ b ∈ l, decide (b ≠ c) = true := fun b hb => decide_eq_true fun e => h (e ▸ hb)
  rw [List.takeWhile_append_of_pos hl]
  simp

/-- A text ends at the first occurrence of a byte. -/
lemma append_cons_inj {k t : List UInt8} (hl : c ∉ l) (hk : c ∉ k) (h : l ++ c :: s = k ++ c :: t) :
    l = k ∧ s = t := by
  have hlk : l = k := by rw [← takeWhile_append_cons hl (s := s), h, takeWhile_append_cons hk]
  subst hlk
  exact ⟨rfl, (List.cons.inj (List.append_cancel_left h)).2⟩

/-- The first byte of a text that is another one. -/
lemma exists_append_cons_of_ne (h : ¬ ∀ b ∈ s, b = c) : ∃ k b t, s = k ++ b :: t ∧
    (∀ b ∈ k, b = c) ∧ b ≠ c := by
  induction s with
  | nil => exact absurd (List.forall_mem_nil _) h
  | cons a s ih =>
    by_cases ha : a = c
    · obtain ⟨k, b, t, hs, hk, hb⟩ := ih fun hs => h (List.forall_mem_cons.mpr ⟨ha, hs⟩)
      exact ⟨a :: k, b, t, by rw [hs, List.cons_append], List.forall_mem_cons.mpr ⟨ha, hk⟩, hb⟩
    · exact ⟨[], a, s, rfl, List.forall_mem_nil _, ha⟩

/-- A text written with its terminating zero. -/
lemma stringIn_append (h : 0 ∉ l) : stringIn (l ++ 0 :: s) = l := takeWhile_append_cons h

lemma length_strncpy (n : Nat) (s : List UInt8) : (strncpy n s).length = n := by
  rw [strncpy, List.length_append, List.length_take, List.length_replicate, Nat.min_def]
  split <;> omega

/-- A string copied with `strncpy` before a zero is cut off. -/
lemma stringIn_strncpy (n : Nat) (h : 0 ∉ s) : stringIn (strncpy n s ++ [0]) = s.take n := by
  have htake : 0 ∉ s.take n := fun hmem => h (List.mem_of_mem_take hmem)
  rw [strncpy, List.append_assoc, ← List.replicate_succ', List.replicate_succ,
    stringIn_append htake]

/-- Two texts that end at the same byte. -/
lemma append_singleton_prefix_iff {k : List UInt8} (hl : c ∉ l) (hk : c ∉ k) :
    l ++ [c] <+: k ++ c :: s ↔ l = k := by
  constructor
  · rintro ⟨t, e⟩
    rw [List.append_assoc, List.singleton_append] at e
    exact (append_cons_inj hl hk e).1
  · rintro rfl
    exact ⟨s, by simp⟩

end Base
