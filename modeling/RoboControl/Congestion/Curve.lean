import RoboControl.Congestion.Rtt

/-!
# The cubic function

The window that congestion avoidance aims at, and what it adds to the window to get there. `curve`
is the cubic function over the integers; `cubicEval` (C `cubic_eval`) computes it in 64 bits, for as
long as these hold the cube (`cubicEval_eq`), and cuts it to 32 bits. It has the shape of the cubic
function up to the tick where it leaves 32 bits (`cubic_curve_shape`). `avoidance_growth_iff` says
which ACKs add at least one byte and at most one segment to the window.
-/

namespace RoboControl.Congestion
open Base

/-! ## The function -/

/-- The cubic function over the integers; the quotient is rounded towards zero. -/
def curve (wMax k t : ℕ) : ℤ := wMax + (4 * ((t : ℤ) - k) ^ 3).tdiv (2 ^ 20)

/-- The cubic function does not leave 64 bits. -/
def Cubic.EvalDefined (cubic : Cubic) : Prop :=
  -2 ^ 63 ≤ 4 * ((cubic.tSec.toNat : ℤ) - cubic.k.toNat) ^ 3 ∧
    4 * ((cubic.tSec.toNat : ℤ) - cubic.k.toNat) ^ 3 < 2 ^ 63

/-- The value of the cubic function, at least the minimum window, in 32 bits. -/
def Cubic.wCubic (cubic : Cubic) : UInt32 :=
  UInt32.ofInt (max 1460 (curve cubic.wMax.toNat cubic.k.toNat cubic.tSec.toNat))

/-- Cubes keep the order. -/
lemma cube_le_cube {a b : ℤ} (h : a ≤ b) : a ^ 3 ≤ b ^ 3 :=
  (Odd.strictMono_pow (by decide : Odd 3)).monotone h

/-- The curve rises. -/
lemma curve_mono (wMax k : ℕ) {t t' : ℕ} (h : t ≤ t') : curve wMax k t ≤ curve wMax k t' := by
  have hcube : ((t : ℤ) - k) ^ 3 ≤ ((t' : ℤ) - k) ^ 3 := cube_le_cube (by omega)
  have hdiv := Int.tdiv_le_tdiv (show (0 : ℤ) < 2 ^ 20 by decide)
    (Int.mul_le_mul_of_nonneg_left hcube (show (0 : ℤ) ≤ 4 by decide))
  rw [curve, curve]
  omega

/-- At `k` the curve is `wMax`. -/
lemma curve_self (wMax k : ℕ) : curve wMax k k = wMax := by
  rw [curve, sub_self]
  norm_num

/-- A distance from `k` whose cube is in a range is in a range. -/
lemma lt_of_cube_lt {d b : ℤ} (h : d ^ 3 < b ^ 3) : d < b := by
  by_contra hle
  exact absurd (cube_le_cube (not_lt.mp hle)) (not_le.mpr h)

lemma int64_ok {x : ℤ} (h : -2 ^ 63 ≤ x ∧ x < 2 ^ 63) : int64 x = .ok x := if_pos h

/-- What the function returns, if it does not leave 64 bits. -/
lemma cubicEval_eq {cubic : Cubic} (defined : cubic.EvalDefined) :
    cubicEval cubic = .ok cubic.wCubic := by
  obtain ⟨hlow, hhigh⟩ := defined
  rw [cubicEval, Cubic.wCubic, curve]
  have hw := cubic.wMax.toNat_lt
  set d : ℤ := (cubic.tSec.toNat : ℤ) - cubic.k.toNat
  have hlt : d < 2 ^ 21 := lt_of_cube_lt (by omega)
  have hgt : -2 ^ 21 < d := lt_of_cube_lt
    (by rw [show ((-2 ^ 21) ^ 3 : ℤ) = -2 ^ 63 from rfl]; omega)
  have hsq : 0 ≤ d * d ∧ d * d < 2 ^ 63 := ⟨mul_self_nonneg d, by nlinarith⟩
  have hcube : d * d * d = d ^ 3 := by ring
  have hdiv : -2 ^ 43 ≤ (4 * d ^ 3).tdiv (2 ^ 20) ∧ (4 * d ^ 3).tdiv (2 ^ 20) ≤ 2 ^ 43 :=
    ⟨Int.tdiv_le_tdiv (by decide) hlow, Int.tdiv_le_tdiv (by decide) hhigh.le⟩
  have hscale : ((cubicCScale.toNat : ℤ) * cubicBetaScale.toNat) = 2 ^ 20 := rfl
  have hmin : (cubicMinCwnd.toNat : ℤ) = 1460 := rfl
  rw [int64_ok (by omega)]
  show (int64 (d * d) >>= _) = _
  rw [int64_ok (by omega)]
  show (int64 (d * d * d) >>= _) = _
  rw [hcube, int64_ok (by omega)]
  show (int64 (d ^ 3 * 4) >>= _) = _
  rw [mul_comm, int64_ok (by omega)]
  show (int64 (cubic.wMax.toNat + (4 * d ^ 3).tdiv _) >>= _) = _
  rw [hscale, int64_ok (by omega), hmin]
  refine congrArg (fun w => Except.ok (UInt32.ofInt w)) ?_
  rw [max_def]
  split <;> split <;> omega

/-- The function returns only if it does not leave 64 bits. -/
lemma evalDefined_of_ok {cubic : Cubic} {w : UInt32} (h : cubicEval cubic = .ok w) :
    cubic.EvalDefined := by
  have hrange : ∀ {x y : ℤ}, int64 x = .ok y → (-2 ^ 63 ≤ x ∧ x < 2 ^ 63) ∧ y = x := by
    intro x y hxy
    rw [int64] at hxy
    split at hxy
    · next hx =>
      cases hxy
      exact ⟨hx, rfl⟩
    · cases hxy
  obtain ⟨d, hd, h⟩ := bind_eq_ok h
  obtain ⟨d₂, hd₂, h⟩ := bind_eq_ok h
  obtain ⟨d₃, hd₃, h⟩ := bind_eq_ok h
  obtain ⟨scaled, hscaled, -⟩ := bind_eq_ok h
  obtain ⟨-, rfl⟩ := hrange hd
  obtain ⟨-, rfl⟩ := hrange hd₂
  obtain ⟨-, rfl⟩ := hrange hd₃
  have hfour : ∀ d : ℤ, d * d * d * (cubicC.toNat : ℤ) = 4 * d ^ 3 := fun d => by
    rw [show (cubicC.toNat : ℤ) = 4 from rfl]
    ring
  rw [hfour] at hscaled
  exact (hrange hscaled).1

/-! ## Its shape -/

/-- The function at a tick is returned, and is the cubic function over the integers. -/
def ExactAt (cubic : Cubic) (t w : UInt32) : Prop :=
  cubicEval { cubic with tSec := t } = .ok w ∧
    (w.toNat : ℤ) = max 1460 (curve cubic.wMax.toNat cubic.k.toNat t.toNat)

/-- An exact value has 32 bits. -/
lemma lt_of_exactAt {cubic : Cubic} {t w : UInt32} (h : ExactAt cubic t w) :
    curve cubic.wMax.toNat cubic.k.toNat t.toNat < 2 ^ 32 := by
  have hw := w.toNat_lt
  have heq := h.2
  omega

/-- A value of 32 bits is exact. -/
lemma exactAt_of_lt {cubic : Cubic} (hk : cubic.k.toNat ≤ 2 ^ 19) {t : UInt32}
    (h : curve cubic.wMax.toNat cubic.k.toNat t.toNat < 2 ^ 32) : ∃ w, ExactAt cubic t w := by
  have hlow : (-2 ^ 19) ^ 3 ≤ ((t.toNat : ℤ) - cubic.k.toNat) ^ 3 := cube_le_cube (by omega)
  rw [show ((-2 ^ 19) ^ 3 : ℤ) = -2 ^ 57 from rfl] at hlow
  -- From `2 ^ 17` ticks after `k` on, the quotient alone is greater than 32 bits.
  have hlt : (t.toNat : ℤ) - cubic.k.toNat < 2 ^ 17 := by
    by_contra hle
    have hcube : (2 ^ 17) ^ 3 ≤ ((t.toNat : ℤ) - cubic.k.toNat) ^ 3 := cube_le_cube (not_lt.mp hle)
    have hdiv : (4 * (2 ^ 17) ^ 3 : ℤ).tdiv (2 ^ 20) ≤
        (4 * ((t.toNat : ℤ) - cubic.k.toNat) ^ 3).tdiv (2 ^ 20) :=
      Int.tdiv_le_tdiv (by decide) (by omega)
    rw [show (4 * (2 ^ 17) ^ 3 : ℤ).tdiv (2 ^ 20) = 2 ^ 33 from rfl] at hdiv
    rw [curve] at h
    omega
  have hhigh : ((t.toNat : ℤ) - cubic.k.toNat) ^ 3 ≤ (2 ^ 17) ^ 3 := cube_le_cube hlt.le
  have defined : { cubic with tSec := t }.EvalDefined := by
    constructor
    · show -2 ^ 63 ≤ 4 * ((t.toNat : ℤ) - cubic.k.toNat) ^ 3
      omega
    · show 4 * ((t.toNat : ℤ) - cubic.k.toNat) ^ 3 < 2 ^ 63
      omega
  refine ⟨_, cubicEval_eq defined, ?_⟩
  show ((UInt32.ofInt (max 1460 (curve cubic.wMax.toNat cubic.k.toNat t.toNat))).toNat : ℤ) = _
  rw [toNat_ofInt (by omega) (by omega)]
  omega

/-- For a window of at least the minimum and the `k` that is computed from it: at `k` the
function is the window. Up to a tick it is returned without an overflow of 64 bits, not cut, and
not decreasing, if and only if the cubic function at that tick fits into 32 bits; and at the
last tick it does not. -/
theorem cubic_curve_shape (cubic : Cubic) (hw : cubicMinCwnd ≤ cubic.wMax)
    (hk : icbrt (kCubed cubic.wMax) = .ok cubic.k) :
    cubicEval { cubic with tSec := cubic.k } = .ok cubic.wMax ∧
      (∀ t : UInt32, (∀ t₁ t₂, t₁ ≤ t₂ → t₂ ≤ t →
          ∃ w₁ w₂, ExactAt cubic t₁ w₁ ∧ ExactAt cubic t₂ w₂ ∧ w₁ ≤ w₂) ↔
        curve cubic.wMax.toNat cubic.k.toNat t.toNat < 2 ^ 32) ∧
      2 ^ 32 ≤ curve cubic.wMax.toNat cubic.k.toNat (0xFFFFFFFF : UInt32).toNat := by
  have hk' : cubic.k.toNat ≤ 2 ^ 19 := by
    obtain ⟨k, hroot, hle⟩ := icbrt_kCubed_ok cubic.wMax
    cases hk.symm.trans hroot
    exact hle
  have hwMax := cubic.wMax.toNat_lt
  refine ⟨?_, fun t => ⟨fun h => ?_, fun h t₁ t₂ h₁₂ h₂ => ?_⟩, ?_⟩
  · obtain ⟨w, heval, hvalue⟩ := exactAt_of_lt hk' (t := cubic.k) (by rw [curve_self]; omega)
    rw [UInt32.le_iff_toNat_le, show cubicMinCwnd.toNat = 1460 from rfl] at hw
    rw [curve_self] at hvalue
    have hwMax : w = cubic.wMax := UInt32.toNat_inj.mp (by omega)
    rw [heval, hwMax]
  · obtain ⟨-, w, -, hexact, -⟩ := h t t (UInt32.le_refl t) (UInt32.le_refl t)
    exact lt_of_exactAt hexact
  · have hle₁₂ := curve_mono cubic.wMax.toNat cubic.k.toNat (UInt32.le_iff_toNat_le.mp h₁₂)
    have hle₂ := curve_mono cubic.wMax.toNat cubic.k.toNat (UInt32.le_iff_toNat_le.mp h₂)
    obtain ⟨w₁, hexact₁⟩ := exactAt_of_lt hk' ((hle₁₂.trans hle₂).trans_lt h)
    obtain ⟨w₂, hexact₂⟩ := exactAt_of_lt hk' (hle₂.trans_lt h)
    refine ⟨w₁, w₂, hexact₁, hexact₂, UInt32.le_iff_toNat_le.mpr ?_⟩
    have heq₁ := hexact₁.2
    have heq₂ := hexact₂.2
    omega
  · by_contra hlt
    obtain ⟨w, heval, -⟩ := exactAt_of_lt hk' (not_le.mp hlt)
    obtain ⟨-, hhigh⟩ := evalDefined_of_ok heval
    have hcube : (2 ^ 31) ^ 3 ≤ (((0xFFFFFFFF : UInt32).toNat : ℤ) - cubic.k.toNat) ^ 3 :=
      cube_le_cube (by rw [show (0xFFFFFFFF : UInt32).toNat = 2 ^ 32 - 1 from rfl]; omega)
    have hhigh' : 4 * (((0xFFFFFFFF : UInt32).toNat : ℤ) - cubic.k.toNat) ^ 3 < 2 ^ 63 := hhigh
    omega

/-- A state whose last maximum was ten segments, with the `k` for it. -/
def tenSegments : Cubic :=
  { cubicInit 1460 with state := .congestionAvoidance, wMax := 14600, k := 1046 }

/-- The function of that state up to tick 2000. -/
theorem cubic_curve_shape_sample :
    cubicMinCwnd ≤ tenSegments.wMax ∧ icbrt (kCubed tenSegments.wMax) = .ok tenSegments.k ∧
      cubicEval { tenSegments with tSec := 1046 } = .ok 14600 ∧
      ∃ w₁ w₂, ExactAt tenSegments 0 w₁ ∧ ExactAt tenSegments 2000 w₂ ∧ w₁ ≤ w₂ := by
  have hw : cubicMinCwnd ≤ tenSegments.wMax := by decide
  have hk : icbrt (kCubed tenSegments.wMax) = .ok tenSegments.k := by rfl
  obtain ⟨hself, hshape, -⟩ := cubic_curve_shape tenSegments hw hk
  exact ⟨hw, hk, hself, (hshape 2000).mpr (by decide) 0 2000 (by decide) (by decide)⟩

/-- At tick 110000 the function of that state is cut to 32 bits, and smaller than at tick 100000; at
the last tick it overflows 64 bits. -/
theorem curve_cut_to_32_bits :
    icbrt (kCubed tenSegments.wMax) = .ok tenSegments.k ∧
      (cubicEval { tenSegments with tSec := 100000 }).toOption = some 3696254416 ∧
      (cubicEval { tenSegments with tSec := 110000 }).toOption = some 638939034 ∧
      cubicEval { tenSegments with tSec := 0xFFFFFFFF } = .error .signedOverflow := by
  refine ⟨rfl, ?_, ?_, rfl⟩
  · decide
  · decide

/-! ## Growth of the window -/

/-- The state at the next tick. -/
def Cubic.tick (cubic : Cubic) : Cubic := { cubic with tSec := cubic.tSec + 1 }

/-- What congestion avoidance adds to the window for an ACK, at the advanced time: half as much
above the target as below it, and at least one byte. -/
def Cubic.growth (cubic : Cubic) (bytesAcked : UInt32) : ℕ :=
  max 1 (cubic.mss.toNat * bytesAcked.toNat / cubic.cwnd.toNat /
    if cubic.cwnd < avoidanceTarget cubic cubic.wCubic then 1 else 2)

/-- The smoothing of a sample does not overflow 32 bits. -/
def SmoothDefined (srtt rttMs : UInt32) : Prop :=
  rttMs = 0 ∨ srtt = 0 ∨ |srtt.toInt32.toInt - rttMs.toInt32.toInt| < 2 ^ 31

section Growth
variable {cubic : Cubic} {bytesAcked rttMs : UInt32}

/-- The difference and its absolute value are in 32 bits. -/
lemma abs32_ok_iff (d : ℤ) : (∃ a, (int32 d >>= abs32) = .ok a) ↔ |d| < 2 ^ 31 := by
  rw [int32]
  split
  · next hd =>
    show (∃ a, abs32 d = .ok a) ↔ _
    rw [abs32]
    split
    · next hneg =>
      rw [int32, abs_of_neg hneg]
      split
      · next h => exact iff_of_true ⟨_, rfl⟩ h.2
      · next h =>
        refine iff_of_false ?_ (by omega)
        rintro ⟨a, ha⟩
        cases ha
    · next hpos =>
      rw [abs_of_nonneg (not_lt.mp hpos)]
      exact iff_of_true ⟨d, rfl⟩ hd.2
  · next hd =>
    refine iff_of_false ?_ fun h => hd ?_
    · rintro ⟨a, ha⟩
      cases ha
    · rw [abs_lt] at h
      omega

/-- When smoothing is defined. -/
lemma smoothRtt_ok_iff (cubic : Cubic) (rttMs : UInt32) :
    (∃ cubic', smoothRtt cubic rttMs = .ok cubic') ↔
      cubic.srtt = 0 ∨ |cubic.srtt.toInt32.toInt - rttMs.toInt32.toInt| < 2 ^ 31 := by
  rw [smoothRtt]
  by_cases hfirst : cubic.srtt = 0
  · rw [if_pos hfirst]
    exact iff_of_true ⟨_, rfl⟩ (.inl hfirst)
  · rw [if_neg hfirst, or_iff_right hfirst, ← abs32_ok_iff, exists_bind_eq_ok, exists_bind_eq_ok]
    refine exists_congr fun d => and_congr_right fun _ => ?_
    rw [exists_bind_eq_ok]
    exact exists_congr fun a => and_iff_left ⟨_, rfl⟩

/-- When a sample is defined. -/
lemma cubicUpdateRtt_ok_iff (cubic : Cubic) (rttMs : UInt32) :
    (∃ cubic', cubicUpdateRtt cubic rttMs = .ok cubic') ↔ SmoothDefined cubic.srtt rttMs := by
  rw [cubicUpdateRtt, SmoothDefined]
  by_cases hzero : rttMs = 0
  · rw [if_pos hzero]
    exact iff_of_true ⟨_, rfl⟩ (.inl hzero)
  · rw [if_neg hzero, or_iff_right hzero, exists_bind_eq_ok]
    refine Iff.trans (exists_congr fun cubic₁ => and_iff_left ⟨_, rfl⟩) ?_
    exact smoothRtt_ok_iff _ rttMs

/-- The increment of the code is the growth, if the product is in 32 bits. -/
lemma avoidanceIncrement_eq (defined : cubic.EvalDefined) (hcwnd : cubic.cwnd ≠ 0)
    (hprod : cubic.mss.toNat * bytesAcked.toNat < 2 ^ 32) :
    ∃ n, avoidanceIncrement cubic bytesAcked = .ok n ∧ n.toNat = cubic.growth bytesAcked := by
  have hquot : (cubic.mss * bytesAcked / cubic.cwnd).toNat =
      cubic.mss.toNat * bytesAcked.toNat / cubic.cwnd.toNat := by
    rw [UInt32.toNat_div, UInt32.toNat_mul, Nat.mod_eq_of_lt hprod]
  have hdiv : div32 (cubic.mss * bytesAcked) cubic.cwnd =
    .ok (cubic.mss * bytesAcked / cubic.cwnd) :=
    if_neg hcwnd
  -- An increment of zero becomes one.
  have hone : ∀ x : UInt32, (if x = 0 then (1 : UInt32) else x).toNat = max 1 x.toNat := fun x => by
    split
    · next h =>
      rw [h]
      rfl
    · next h =>
      have hpos : 0 < x.toNat := UInt32.pos_iff_ne_zero.mpr h
      omega
  rw [avoidanceIncrement, bind_of_ok (cubicEval_eq defined), Cubic.growth]
  by_cases htarget : cubic.cwnd < avoidanceTarget cubic cubic.wCubic
  · rw [if_pos htarget, if_pos htarget, bind_of_ok hdiv, Nat.div_one, ← hquot]
    exact ⟨_, rfl, hone _⟩
  · rw [if_neg htarget, if_neg htarget, bind_of_ok hdiv, ← hquot]
    exact ⟨_, rfl, hone _⟩

/-- An ACK in congestion avoidance returns if the smoothing and the increment do. -/
lemma cubicOnAck_ok (hstate : cubic.state = .congestionAvoidance) (hbytes : bytesAcked ≠ 0)
    (hrtt : SmoothDefined cubic.srtt rttMs) {n : UInt32}
    (hn : avoidanceIncrement cubic.tick bytesAcked = .ok n) :
    ∃ cubic', cubicOnAck cubic bytesAcked rttMs = .ok cubic' := by
  obtain ⟨cubic₁, h₁⟩ := (cubicUpdateRtt_ok_iff { cubic with
    totalAcked := cubic.totalAcked + bytesAcked.toUInt64, ackCount :=
      cubic.ackCount + 1 } rttMs).mpr hrtt
  have hack : ∃ cubic₂, ackByState cubic₁ bytesAcked = .ok cubic₂ := by
    obtain ⟨minRtt, srtt, rttVar, rto, rfl⟩ := cubicUpdateRtt_eq h₁
    rw [ackByState]
    simp only [hstate]
    exact exists_bind_eq_ok.mpr ⟨n, hn, _, rfl⟩
  obtain ⟨cubic₂, h₂⟩ := hack
  rw [cubicOnAck, if_neg hbytes]
  exact exists_bind_eq_ok.mpr ⟨cubic₁, h₁, exists_bind_eq_ok.mpr ⟨cubic₂, h₂, _, rfl⟩⟩

/-- An ACK in congestion avoidance that returns has smoothed its sample and computed
its increment. -/
lemma cubicOnAck_defined (hstate : cubic.state = .congestionAvoidance) (hbytes : bytesAcked ≠ 0)
    {cubic' : Cubic} (h : cubicOnAck cubic bytesAcked rttMs = .ok cubic') :
    SmoothDefined cubic.srtt rttMs ∧ cubic.tick.EvalDefined ∧
      ∃ n, avoidanceIncrement cubic.tick bytesAcked = .ok n ∧ cubic'.cwnd = cubic.cwnd + n := by
  obtain ⟨⟨n, hn, hcwnd⟩, -⟩ := cubicOnAck_eq h
  rw [windowGrowth, if_neg hbytes, hstate] at hn
  have hinc : avoidanceIncrement cubic.tick bytesAcked = .ok n := hn
  refine ⟨?_, ?_, n, hinc, hcwnd⟩
  · rw [cubicOnAck, if_neg hbytes] at h
    obtain ⟨cubic₁, h₁, -⟩ := bind_eq_ok h
    have hsmooth := (cubicUpdateRtt_ok_iff _ rttMs).mp ⟨cubic₁, h₁⟩
    exact hsmooth
  · obtain ⟨w, hw, -⟩ := bind_eq_ok hinc
    exact evalDefined_of_ok hw

/-- The growth is at most a segment if the product is small enough for the window. -/
lemma growth_le_iff (hcwnd : 0 < cubic.cwnd.toNat) (bytesAcked : UInt32) :
    cubic.growth bytesAcked ≤ cubic.mss.toNat ↔ 0 < cubic.mss.toNat ∧
      cubic.mss.toNat * bytesAcked.toNat < (cubic.mss.toNat + 1) * (cubic.cwnd.toNat *
        if cubic.cwnd < avoidanceTarget cubic cubic.wCubic then 1 else 2) := by
  have hpos : 0 < cubic.cwnd.toNat *
      if cubic.cwnd < avoidanceTarget cubic cubic.wCubic then 1 else 2 :=
    Nat.mul_pos hcwnd (by split <;> decide)
  rw [Cubic.growth, Nat.div_div_eq_div_mul, max_le_iff, ← Nat.div_lt_iff_lt_mul hpos,
    Nat.lt_succ_iff]
  exact Iff.rfl

/-- A window in 32 bits that is not full has room for the growth: a small window is far from full,
and a large one grows by one byte. -/
lemma room_iff (cubic : Cubic) (hmin : cubicMinCwnd ≤ cubic.cwnd)
    (hprod : cubic.mss.toNat * bytesAcked.toNat < 2 ^ 32) :
    cubic.cwnd.toNat + cubic.growth bytesAcked < 2 ^ 32 ↔ cubic.cwnd.toNat + 1 < 2 ^ 32 := by
  have hcwnd : 1460 ≤ cubic.cwnd.toNat := UInt32.le_iff_toNat_le.mp hmin
  have hle : cubic.growth bytesAcked ≤
      max 1 (cubic.mss.toNat * bytesAcked.toNat / cubic.cwnd.toNat) :=
    max_le_max_left 1 (Nat.div_le_self _ _)
  have hone : 1 ≤ cubic.growth bytesAcked := le_max_left _ _
  refine ⟨fun h => by omega, fun h => ?_⟩
  by_cases hlarge : 2 ^ 31 < cubic.cwnd.toNat
  · have hquot : cubic.mss.toNat * bytesAcked.toNat / cubic.cwnd.toNat < 2 :=
      (Nat.div_lt_iff_lt_mul (by omega)).mpr (by omega)
    omega
  · have hquot : cubic.mss.toNat * bytesAcked.toNat / cubic.cwnd.toNat < 2 ^ 22 :=
      (Nat.div_lt_iff_lt_mul (by omega)).mpr (by omega)
    omega

end Growth

/-- In congestion avoidance with at least the minimum window, an ACK returns, adds at least one byte
and at most one segment to the window, and computes the product of its increment without a wrap, if
and only if: the smoothing of the sample and the cubic function do not overflow, segments are not
empty, the window is not the last number of 32 bits, and the product of the segment and the
acknowledged bytes is in 32 bits and less than a segment and a byte times the window, or times twice
the window above the target. -/
theorem avoidance_growth_iff (cubic : Cubic) (hstate : cubic.state = .congestionAvoidance)
    (hmin : cubicMinCwnd ≤ cubic.cwnd) (bytesAcked rttMs : UInt32) (hbytes : 0 < bytesAcked) :
    (∃ cubic', cubicOnAck cubic bytesAcked rttMs = .ok cubic' ∧
        (cubic.mss * bytesAcked).toNat = cubic.mss.toNat * bytesAcked.toNat ∧
        cubic.cwnd.toNat + 1 ≤ cubic'.cwnd.toNat ∧
        cubic'.cwnd.toNat ≤ cubic.cwnd.toNat + cubic.mss.toNat) ↔
      SmoothDefined cubic.srtt rttMs ∧ cubic.tick.EvalDefined ∧ 0 < cubic.mss.toNat ∧
        cubic.cwnd.toNat + 1 < 2 ^ 32 ∧ cubic.mss.toNat * bytesAcked.toNat < 2 ^ 32 ∧
        cubic.mss.toNat * bytesAcked.toNat < (cubic.mss.toNat + 1) * (cubic.cwnd.toNat *
          if cubic.cwnd < avoidanceTarget cubic.tick cubic.tick.wCubic then 1 else 2) := by
  have hbytes' : bytesAcked ≠ 0 := UInt32.pos_iff_ne_zero.mp hbytes
  have hlt := cubic.cwnd.toNat_lt
  have hpos : 0 < cubic.tick.cwnd.toNat :=
    Nat.lt_of_lt_of_le (by decide) (UInt32.le_iff_toNat_le.mp hmin)
  have hcwnd : cubic.tick.cwnd ≠ 0 := UInt32.pos_iff_ne_zero.mp hpos
  have hseg_iff := growth_le_iff hpos bytesAcked
  constructor
  · rintro ⟨cubic', h, hmul, hgrows, hseg⟩
    have hprod : cubic.mss.toNat * bytesAcked.toNat < 2 ^ 32 :=
      hmul ▸ (cubic.mss * bytesAcked).toNat_lt
    have hroom_iff := room_iff cubic.tick hmin hprod
    obtain ⟨hsmooth, heval, n, hn, hcwnd'⟩ := cubicOnAck_defined hstate hbytes' h
    obtain ⟨n', hn', hgrowth⟩ := avoidanceIncrement_eq heval hcwnd hprod
    cases hn.symm.trans hn'
    have hn_lt := n.toNat_lt
    -- A sum that wrapped would be below the old window, so the growth is the exact one.
    rw [hcwnd', UInt32.toNat_add] at hgrows hseg
    obtain ⟨hmss, hsmall⟩ := hseg_iff.mp (show _ ≤ cubic.mss.toNat by omega)
    exact ⟨hsmooth, heval, hmss, hroom_iff.mp (show cubic.cwnd.toNat + _ < _ by omega), hprod,
      hsmall⟩
  · rintro ⟨hsmooth, heval, hmss, hroom, hprod, hsmall⟩
    have hseg : _ ≤ cubic.mss.toNat := hseg_iff.mpr ⟨hmss, hsmall⟩
    have hroom' : cubic.cwnd.toNat + _ < _ := (room_iff cubic.tick hmin hprod).mpr hroom
    obtain ⟨n, hn, hgrowth⟩ := avoidanceIncrement_eq heval hcwnd hprod
    obtain ⟨cubic', h⟩ := cubicOnAck_ok hstate hbytes' hsmooth hn
    obtain ⟨-, -, n', hn', hcwnd'⟩ := cubicOnAck_defined hstate hbytes' h
    cases hn.symm.trans hn'
    have hone : 1 ≤ cubic.tick.growth bytesAcked := le_max_left _ _
    have hmul : (cubic.mss * bytesAcked).toNat = cubic.mss.toNat * bytesAcked.toNat := by
      rw [UInt32.toNat_mul, Nat.mod_eq_of_lt hprod]
    refine ⟨cubic', h, hmul, ?_⟩
    rw [hcwnd', UInt32.toNat_add]
    omega

/-- An ACK of one segment grows a window of ten segments by a tenth of one. -/
theorem avoidance_growth_iff_sample :
    ∃ cubic', cubicOnAck tenSegments 1460 50 = .ok cubic' ∧
      tenSegments.cwnd.toNat + 1 ≤ cubic'.cwnd.toNat ∧
      cubic'.cwnd.toNat ≤ tenSegments.cwnd.toNat + tenSegments.mss.toNat := by
  obtain ⟨cubic', h, -, hgrows⟩ := (avoidance_growth_iff tenSegments rfl (by decide) 1460 50
    (by decide)).mpr ⟨.inr (.inl rfl), by constructor <;> decide, by decide, by decide, by
      decide, by decide⟩
  exact ⟨cubic', h, hgrows⟩

/-- Below the target, an ACK of thirty segments grows a window of ten segments by three segments;
for an ACK of 3000000 bytes the product wraps around in 32 bits. -/
theorem growth_of_three_segments :
    tenSegments.cwnd = 14600 ∧ tenSegments.mss = 1460 ∧
      (cubicOnAck { tenSegments with wMax := 30000, k := 1330 } 43800 50).toOption.map (·.cwnd) =
        some (14600 + 3 * 1460) ∧
      (cubicOnAck { tenSegments with wMax := 30000, k := 1330 } 3000000 50).toOption.map (·.cwnd) =
        some (14600 + 5824) := by
  decide +kernel

end RoboControl.Congestion
