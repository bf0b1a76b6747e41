import RoboControl.Auth.Server

/-!
# The bound of the token bucket

How many calls of `rate_check` of `src/auth/auth_service.c` return true. A call adds at most the
refill rate times the seconds since the last one to the tokens, since what wraps around only makes
the sum smaller, and takes a token when it returns true. So the calls that return true and the
tokens that are left are together not more than the tokens at first and what was added
(`RateLimit.allowed_le`).
-/

namespace RoboControl.Auth

/-- Calls of `rate_check` at some readings of the clock: what each returns, and the
bucket it leaves. -/
def RateLimit.calls (rl : RateLimit) : List UInt64 → List (Bool × RateLimit)
  | [] => []
  | now :: readings => rateCheck rl now :: (rateCheck rl now).2.calls readings

/-- The number of calls that return true. -/
def allowed (calls : List (Bool × RateLimit)) : Nat := calls.countP Prod.fst

section Call
variable (rl : RateLimit) (now : UInt64)

/-- Refilling keeps the limits. -/
lemma RateLimit.refill_limits :
    (rl.refill now).maxTokens = rl.maxTokens ∧ (rl.refill now).refillRate = rl.refillRate := by
  rw [RateLimit.refill]
  split <;> exact ⟨rfl, rfl⟩

lemma RateLimit.lastRefill_refill : (rl.refill now).lastRefill = now := by
  rw [RateLimit.refill]
  split
  · rfl
  · next helapsed =>
    have hzero : now - rl.lastRefill = 0 := by simpa using helapsed
    rw [← UInt64.sub_add_cancel now rl.lastRefill, hzero, UInt64.zero_add]

/-- There are never too many tokens. -/
lemma RateLimit.refill_le_max {rl : RateLimit} (h : rl.tokens ≤ rl.maxTokens) :
    (rl.refill now).tokens ≤ rl.maxTokens := by
  rw [RateLimit.refill]
  split
  · dsimp only
    split
    · exact UInt32.le_refl _
    · next hle => exact UInt32.not_lt.mp hle
  · exact h

/-- A refill adds at most the rate for every second; what wraps around makes it less. -/
lemma RateLimit.refill_le {rl : RateLimit} (h : rl.lastRefill ≤ now) :
    (rl.refill now).tokens.toNat ≤
      rl.tokens.toNat + rl.refillRate.toNat * (now.toNat - rl.lastRefill.toNat) := by
  have helapsed : (now - rl.lastRefill).toNat = now.toNat - rl.lastRefill.toNat :=
    UInt64.toNat_sub_of_le _ _ h
  have hadded : ((now - rl.lastRefill) * rl.refillRate.toUInt64).toUInt32.toNat ≤
      rl.refillRate.toNat * (now.toNat - rl.lastRefill.toNat) := by
    rw [UInt64.toNat_toUInt32, UInt64.toNat_mul, UInt32.toNat_toUInt64, helapsed, Nat.mul_comm]
    exact (Nat.mod_le _ _).trans (Nat.mod_le _ _)
  have hsum := UInt32.toNat_add rl.tokens ((now - rl.lastRefill) * rl.refillRate.toUInt64).toUInt32
  have hle := Nat.mod_le (rl.tokens.toNat +
    ((now - rl.lastRefill) * rl.refillRate.toUInt64).toUInt32.toNat) (2 ^ 32)
  rw [RateLimit.refill]
  split
  · dsimp only
    split
    · next hmax =>
      rw [gt_iff_lt, UInt32.lt_iff_toNat_lt] at hmax
      omega
    · omega
  · omega

/-- A call that returns true takes a token. -/
lemma rateCheck_spec :
    (rateCheck rl now).2.maxTokens = rl.maxTokens ∧
      (rateCheck rl now).2.refillRate = rl.refillRate ∧
      (rateCheck rl now).2.lastRefill = now ∧
      (rateCheck rl now).1.toNat + (rateCheck rl now).2.tokens.toNat =
        (rl.refill now).tokens.toNat := by
  obtain ⟨hmax, hrate⟩ := rl.refill_limits now
  have hlast := rl.lastRefill_refill now
  rw [rateCheck]
  split
  · next hpos =>
    refine ⟨hmax, hrate, hlast, ?_⟩
    have hone : (1 : UInt32) ≤ (rl.refill now).tokens := by
      rw [gt_iff_lt, UInt32.lt_iff_toNat_lt] at hpos
      exact UInt32.le_iff_toNat_le.mpr hpos
    rw [UInt32.toNat_sub_of_le _ _ hone]
    exact Nat.add_sub_of_le (UInt32.le_iff_toNat_le.mp hone)
  · next hzero =>
    refine ⟨hmax, hrate, hlast, ?_⟩
    exact Nat.zero_add _

end Call

/-! ## Sequences of calls -/

section Calls
variable {rl : RateLimit} {readings : List UInt64}

/-- The first calls. -/
lemma RateLimit.calls_take (rl : RateLimit) (readings : List UInt64) (n : Nat) :
    (rl.calls readings).take n = rl.calls (readings.take n) := by
  induction readings generalizing rl n with
  | nil => simp [RateLimit.calls]
  | cons now readings ih =>
    cases n with
    | zero => rfl
    | succ n => rw [RateLimit.calls, List.take_succ_cons, List.take_succ_cons, RateLimit.calls, ih]

/-- The tokens stay at most the maximum. -/
lemma RateLimit.tokens_le (h : rl.tokens ≤ rl.maxTokens) :
    ∀ call ∈ rl.calls readings, call.2.tokens ≤ rl.maxTokens ∧ call.2.maxTokens = rl.maxTokens ∧
      call.2.refillRate = rl.refillRate := by
  induction readings generalizing rl with
  | nil =>
    intro call hcall
    cases hcall
  | cons now readings ih =>
    obtain ⟨hmax, hrate, -, htokens⟩ := rateCheck_spec rl now
    have hle : (rateCheck rl now).2.tokens ≤ rl.maxTokens := by
      have hrefill := UInt32.le_iff_toNat_le.mp (RateLimit.refill_le_max now h)
      rw [UInt32.le_iff_toNat_le]
      omega
    intro call hcall
    rw [RateLimit.calls] at hcall
    obtain rfl | hcall := List.mem_cons.mp hcall
    · exact ⟨hle, hmax, hrate⟩
    · rw [← hmax, ← hrate]
      exact ih (hmax ▸ hle) call hcall

/-- The bucket that a number of calls leave, and the calls behind them. -/
lemma RateLimit.calls_drop (h : rl.tokens ≤ rl.maxTokens) {n : Nat} (hn : n < readings.length) :
    ∃ rl' : RateLimit, (rl.calls readings).drop n = rl'.calls (readings.drop n) ∧
      rl'.tokens ≤ rl'.maxTokens ∧ rl'.maxTokens = rl.maxTokens ∧
        rl'.refillRate = rl.refillRate := by
  induction readings generalizing rl n with
  | nil => cases hn
  | cons now readings ih =>
    cases n with
    | zero => exact ⟨rl, rfl, h, rfl, rfl⟩
    | succ n =>
      have hcall : rateCheck rl now ∈ rl.calls (now :: readings) := List.mem_cons_self
      obtain ⟨hle, hmax, hrate⟩ := RateLimit.tokens_le h _ hcall
      obtain ⟨rl', hcalls, hle', hmax', hrate'⟩ := ih (hmax ▸ hle) (Nat.lt_of_succ_lt_succ hn)
      exact ⟨rl', hcalls, hle', hmax'.trans hmax, hrate'.trans hrate⟩

/-- The first call. -/
lemma allowed_cons (rl : RateLimit) (now : UInt64) (readings : List UInt64) :
    allowed (rl.calls (now :: readings)) =
      (rateCheck rl now).1.toNat + allowed ((rateCheck rl now).2.calls readings) := by
  rw [allowed, allowed, RateLimit.calls, List.countP_cons, Nat.add_comm]
  cases (rateCheck rl now).1 <;> rfl

/-- The last reading of the clock is not before the first. -/
lemma first_le_last {first last : UInt64} (hlast : (first :: readings).getLast? = some last)
    (hclock : (first :: readings).Pairwise (· ≤ ·)) : first ≤ last := by
  obtain rfl | hmem := List.mem_cons.mp (List.mem_of_getLast? hlast)
  · exact UInt64.le_refl _
  · exact (List.pairwise_cons.mp hclock).1 last hmem

/-- The calls that return true are not more than the tokens at first and those that were added. -/
lemma RateLimit.allowed_le (rl : RateLimit) {first last : UInt64} (hfirst : rl.lastRefill = first)
    (hlast : (first :: readings).getLast? = some last)
    (hclock : (first :: readings).Pairwise (· ≤ ·)) :
    allowed (rl.calls readings) ≤
      rl.tokens.toNat + rl.refillRate.toNat * (last.toNat - first.toNat) := by
  induction readings generalizing rl first with
  | nil => exact Nat.zero_le _
  | cons now readings ih =>
    obtain ⟨-, hrate, hnow, htokens⟩ := rateCheck_spec rl now
    obtain ⟨hle, hclock⟩ := List.pairwise_cons.mp hclock
    rw [List.getLast?_cons_cons] at hlast
    have hstart := hle now List.mem_cons_self
    have hend := UInt64.le_iff_toNat_le.mp (first_le_last hlast hclock)
    have hrest := ih (rateCheck rl now).2 hnow hlast hclock
    have hrefill := RateLimit.refill_le now (hfirst ▸ hstart)
    -- The time since the first reading is the time up to this call and the time behind it.
    have hsplit : rl.refillRate.toNat * (last.toNat - first.toNat) =
        rl.refillRate.toNat * (now.toNat - first.toNat) +
          rl.refillRate.toNat * (last.toNat - now.toNat) := by
      rw [UInt64.le_iff_toNat_le] at hstart
      rw [← Nat.mul_add, Nat.add_comm, Nat.sub_add_sub_cancel hend hstart]
    rw [hfirst] at hrefill
    rw [hrate] at hrest
    rw [allowed_cons, hsplit]
    omega

/-- From a call on, at most the maximum of tokens and those that were added are taken. -/
lemma RateLimit.allowed_le_max {first last : UInt64} (h : rl.tokens ≤ rl.maxTokens)
    (hlast : (first :: readings).getLast? = some last)
    (hclock : (first :: readings).Pairwise (· ≤ ·)) :
    allowed (rl.calls (first :: readings)) ≤
      rl.maxTokens.toNat + rl.refillRate.toNat * (last.toNat - first.toNat) := by
  obtain ⟨-, hrate, hnow, htokens⟩ := rateCheck_spec rl first
  have hrest := (rateCheck rl first).2.allowed_le hnow hlast hclock
  have hrefill := UInt32.le_iff_toNat_le.mp (RateLimit.refill_le_max first h)
  rw [hrate] at hrest
  rw [allowed_cons]
  omega

end Calls

/-- For a bucket with at most its maximum of tokens, and readings of the clock that do not go back:
the tokens stay at most the maximum, and from one call to another at most the maximum and the refill
rate times the time between them are allowed. -/
theorem token_bucket_bound (rl : RateLimit) (readings : List UInt64)
    (htokens : rl.tokens ≤ rl.maxTokens) (hclock : readings.Pairwise (· ≤ ·)) :
    (∀ call ∈ rl.calls readings, call.2.tokens ≤ rl.maxTokens) ∧
      ∀ i j, i ≤ j → ∀ first last, readings[i]? = some first → readings[j]? = some last →
        allowed (((rl.calls readings).drop i).take (j + 1 - i)) ≤
          rl.maxTokens.toNat + rl.refillRate.toNat * (last.toNat - first.toNat) := by
  refine ⟨fun call hcall => (RateLimit.tokens_le htokens call hcall).1, ?_⟩
  intro i j hij first last hfirst hlast
  obtain ⟨hi, -⟩ := List.getElem?_eq_some_iff.mp hfirst
  obtain ⟨rl', hcalls, hle, hmax, hrate⟩ := RateLimit.calls_drop htokens hi
  rw [hcalls, RateLimit.calls_take, ← hmax, ← hrate]
  -- The readings of the calls from the first to the second.
  have hwindow : ((readings.drop i).take (j + 1 - i)).Pairwise (· ≤ ·) :=
    hclock.sublist ((List.take_sublist _ _).trans (List.drop_sublist _ _))
  have hhead : ((readings.drop i).take (j + 1 - i)).head? = some first := by
    rw [List.head?_take, if_neg (by omega), List.head?_drop, hfirst]
  have hend : ((readings.drop i).take (j + 1 - i)).getLast? = some last := by
    have hj : i + (j + 1 - i - 1) = j := by omega
    rw [List.getLast?_take, if_neg (by omega), List.getElem?_drop, hj, hlast]
    rfl
  obtain ⟨rest, hrest⟩ := List.head?_eq_some_iff.mp hhead
  rw [hrest] at hwindow hend ⊢
  exact RateLimit.allowed_le_max hle hend hwindow

/-- A full bucket of two tokens and one token a second: three of the four calls in two seconds. -/
theorem token_bucket_bound_sample :
    allowed (((⟨2, 2, 1, 0⟩ : RateLimit).calls [0, 0, 0, 2]).drop 0 |>.take 4) = 3 ∧
      allowed (((⟨2, 2, 1, 0⟩ : RateLimit).calls [0, 0, 0, 2]).drop 0 |>.take 4) ≤ 2 + 1 *
        (2 - 0) :=
  ⟨by decide,
    (token_bucket_bound ⟨2, 2, 1, 0⟩ [0, 0, 0, 2] (by decide) (by decide)).2 0 3 (by decide) 0 2 rfl
      rfl⟩

end RoboControl.Auth
