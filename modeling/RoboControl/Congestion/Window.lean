import RoboControl.Base.Run
import RoboControl.Congestion.Root

/-!
# Safety of the congestion window

What the calls of `src/core/rc_congestion.c` do to the window over whole runs. An ACK adds to it
(`windowGrowth`) in 32 bits. While no sum is carried past them the window stays above its minimum,
so that nothing is divided by zero (`cubic_window_safe`). No ACK ends fast recovery
(`fast_recovery_never_left`).
-/

namespace RoboControl.Congestion
open Base

/-! ## Calls that return -/

/-- A call returns, or overflows a signed integer. -/
def Returns {α : Type} (r : Except Fault α) : Prop := (∃ a, r = .ok a) ∨ r = .error .signedOverflow

section Returns
variable {α β : Type}

lemma Returns.ok (a : α) : Returns (.ok a) := .inl ⟨a, rfl⟩

variable {r : Except Fault α} {f : α → Except Fault β}

/-- One after the other. -/
lemma Returns.bind (h : Returns r)
    (hf : ∀ a, r = .ok a → Returns (f a)) : Returns (r >>= f) := by
  obtain ⟨a, rfl⟩ | rfl := h
  · exact hf a rfl
  · exact .inr rfl

lemma bind_eq_ok {b : β} (h : r >>= f = .ok b) :
    ∃ a, r = .ok a ∧ f a = .ok b := by
  cases r with
  | error e => cases h
  | ok a => exact ⟨a, rfl, h⟩

lemma bind_of_ok {a : α} (h : r = .ok a) :
    r >>= f = f a := by
  rw [h]
  rfl

/-- A sequence of two calls returns if both do. -/
lemma exists_bind_eq_ok :
    (∃ b, r >>= f = .ok b) ↔ ∃ a, r = .ok a ∧ ∃ b, f a = .ok b := by
  constructor
  · rintro ⟨b, h⟩
    obtain ⟨a, ha, hb⟩ := bind_eq_ok h
    exact ⟨a, ha, b, hb⟩
  · rintro ⟨a, ha, b, hb⟩
    exact ⟨b, (bind_of_ok ha).trans hb⟩

/-- A 64-bit operation. -/
lemma int64_returns (x : Int) : Returns (int64 x) := by
  rw [int64]
  split
  · exact .ok x
  · exact .inr rfl

/-- A 32-bit operation. -/
lemma int32_returns (x : Int) : Returns (int32 x) := by
  rw [int32]
  split
  · exact .ok x
  · exact .inr rfl

end Returns

section Calls
variable {cubic cubic' : Cubic}

/-- The curve does not divide by zero. -/
lemma cubicEval_returns (cubic : Cubic) : Returns (cubicEval cubic) := by
  refine (int64_returns _).bind fun _ _ => ?_
  refine (int64_returns _).bind fun _ _ => ?_
  refine (int64_returns _).bind fun _ _ => ?_
  refine (int64_returns _).bind fun _ _ => ?_
  refine (int64_returns _).bind fun _ _ => ?_
  exact .ok _

variable {rttMs : UInt32}

/-- Only the estimates change. -/
lemma smoothRtt_eq (h : smoothRtt cubic rttMs = .ok cubic') :
    ∃ srtt rttVar, cubic' = { cubic with srtt := srtt, rttVar := rttVar } := by
  rw [smoothRtt] at h
  split at h
  · cases h
    exact ⟨_, _, rfl⟩
  · obtain ⟨_, _, h⟩ := bind_eq_ok h
    obtain ⟨_, _, h⟩ := bind_eq_ok h
    cases h
    exact ⟨_, _, rfl⟩

/-- Smoothing does not divide by zero. -/
lemma smoothRtt_returns (cubic : Cubic) (rttMs : UInt32) : Returns (smoothRtt cubic rttMs) := by
  rw [smoothRtt]
  split
  · exact .ok _
  · refine (int32_returns _).bind fun delta _ => Returns.bind ?_ fun _ _ => .ok _
    rw [abs32]
    split
    · exact int32_returns _
    · exact .ok _

/-- The update of the round-trip times changes these only. -/
lemma cubicUpdateRtt_eq (h : cubicUpdateRtt cubic rttMs = .ok cubic') :
    ∃ minRtt srtt rttVar rto, cubic' = { cubic with
      minRtt := minRtt, srtt := srtt, rttVar := rttVar, rto := rto } := by
  rw [cubicUpdateRtt] at h
  split at h
  · cases h
    exact ⟨_, _, _, _, rfl⟩
  · obtain ⟨cubic₁, h₁, h⟩ := bind_eq_ok h
    cases h
    obtain ⟨srtt, rttVar, rfl⟩ := smoothRtt_eq h₁
    exact ⟨_, _, _, _, rfl⟩

/-- A sample does not divide by zero. -/
lemma cubicUpdateRtt_returns (cubic : Cubic) (rttMs : UInt32) :
    Returns (cubicUpdateRtt cubic rttMs) := by
  rw [cubicUpdateRtt]
  split
  · exact .ok _
  · exact (smoothRtt_returns _ _).bind fun _ _ => .ok _

/-- What an ACK adds to the window. -/
def windowGrowth (cubic : Cubic) (bytesAcked : UInt32) : Except Fault UInt32 :=
  if bytesAcked = 0 then .ok 0
  else
    match cubic.state with
    | .congestionAvoidance => avoidanceIncrement { cubic with tSec := cubic.tSec + 1 } bytesAcked
    | _ => .ok bytesAcked

/-- Slow start adds the bytes. -/
lemma ackSlowStart_eq {bytesAcked : UInt32} (h : ackSlowStart cubic bytesAcked = .ok cubic') :
    cubic'.cwnd = cubic.cwnd + bytesAcked := by
  rw [ackSlowStart] at h
  split at h
  · obtain ⟨k, _, h⟩ := bind_eq_ok h
    cases h
    rfl
  · cases h
    rfl

/-- Slow start does not divide by zero. -/
lemma ackSlowStart_returns (cubic : Cubic) (bytesAcked : UInt32) :
    Returns (ackSlowStart cubic bytesAcked) := by
  rw [ackSlowStart]
  split
  · obtain ⟨k, hk, -⟩ := icbrt_kCubed_ok (cubic.cwnd + bytesAcked)
    exact Returns.bind (.inl ⟨k, hk⟩) fun _ _ => .ok _
  · exact .ok _

/-- Avoidance with a window does not divide by zero. -/
lemma avoidanceIncrement_returns (cubic : Cubic) (hcwnd : cubic.cwnd ≠ 0) (bytesAcked : UInt32) :
    Returns (avoidanceIncrement cubic bytesAcked) := by
  have hdiv : Returns (div32 (cubic.mss * bytesAcked) cubic.cwnd) := by
    rw [div32, if_neg hcwnd]
    exact .ok _
  refine (cubicEval_returns cubic).bind fun wCubic _ => ?_
  split
  · exact hdiv.bind fun _ _ => .ok _
  · exact hdiv.bind fun _ _ => .ok _

/-- An ACK with a window does not divide by zero. -/
lemma ackByState_returns (cubic : Cubic) (hcwnd : cubic.cwnd ≠ 0) (bytesAcked : UInt32) :
    Returns (ackByState cubic bytesAcked) := by
  rw [ackByState]
  split
  · exact ackSlowStart_returns cubic bytesAcked
  · exact (avoidanceIncrement_returns { cubic with tSec := cubic.tSec + 1 } hcwnd bytesAcked).bind
      fun _ _ => .ok _
  · exact .ok _

/-- An ACK to a window that is not empty returns. -/
lemma cubicOnAck_returns (hcwnd : cubic.cwnd ≠ 0) (bytesAcked rttMs : UInt32) :
    Returns (cubicOnAck cubic bytesAcked rttMs) := by
  rw [cubicOnAck]
  split
  · exact .ok _
  · refine (cubicUpdateRtt_returns _ _).bind fun cubic₁ h₁ => ?_
    have hcwnd₁ : cubic₁.cwnd ≠ 0 := by
      obtain ⟨minRtt, srtt, rttVar, rto, rfl⟩ := cubicUpdateRtt_eq h₁
      exact hcwnd
    exact (ackByState_returns cubic₁ hcwnd₁ bytesAcked).bind fun _ _ => .ok _

/-- What an ACK does to the window and, in fast recovery, to the state. -/
lemma cubicOnAck_eq {bytesAcked : UInt32}
    (h : cubicOnAck cubic bytesAcked rttMs = .ok cubic') :
    (∃ n, windowGrowth cubic bytesAcked = .ok n ∧ cubic'.cwnd = cubic.cwnd + n) ∧
      (cubic.state = .fastRecovery → cubic'.state = .fastRecovery) := by
  rw [cubicOnAck] at h
  rw [windowGrowth]
  split at h
  · next hzero =>
    cases h
    rw [if_pos hzero]
    exact ⟨⟨0, rfl, (UInt32.add_zero _).symm⟩, id⟩
  · next hbytes =>
    rw [if_neg hbytes]
    obtain ⟨cubic₁, h₁, h⟩ := bind_eq_ok h
    obtain ⟨cubic₂, h₂, h⟩ := bind_eq_ok h
    cases h
    obtain ⟨minRtt, srtt, rttVar, rto, rfl⟩ := cubicUpdateRtt_eq h₁
    rw [ackByState] at h₂
    cases hstate : cubic.state with
    | slowStart =>
      simp only [hstate] at h₂
      have hcwnd := ackSlowStart_eq h₂
      exact ⟨⟨bytesAcked, rfl, hcwnd⟩, nofun⟩
    | congestionAvoidance =>
      simp only [hstate] at h₂
      obtain ⟨n, hn, h₂⟩ := bind_eq_ok h₂
      cases h₂
      exact ⟨⟨n, hn, rfl⟩, nofun⟩
    | fastRecovery =>
      simp only [hstate] at h₂
      cases h₂
      exact ⟨⟨bytesAcked, rfl, rfl⟩, fun _ => rfl⟩

/-- A loss leaves at least the minimum window, in fast recovery. -/
lemma cubicOnLoss_ok (cubic : Cubic) :
    ∃ cubic', cubicOnLoss cubic = .ok cubic' ∧ cubicMinCwnd ≤ cubic'.cwnd := by
  obtain ⟨k, hk, -⟩ := icbrt_kCubed_ok (if cubic.wMax > 0 ∧ cubic.cwnd < cubic.wMax then
      (cubic.cwnd.toUInt64 * (cubicBetaScale + cubicFcBeta).toUInt64 /
        (2 * cubicFcScale).toUInt64).toUInt32
    else cubic.cwnd)
  rw [cubicOnLoss, hk]
  refine ⟨_, rfl, ?_⟩
  dsimp only
  split
  · exact UInt32.le_refl _
  · next h => exact UInt32.not_lt.mp h

end Calls

/-! ## The window -/

/-- An ACK does not carry the window past 32 bits. -/
def NoWrap (cubic : Cubic) (bytesAcked : UInt32) : Prop :=
  ∀ n ∈ (windowGrowth cubic bytesAcked).toOption, cubic.cwnd.toNat + n.toNat < 2 ^ 32

-- by the option and not over all of `UInt32`, which is finite
instance (cubic : Cubic) (bytesAcked : UInt32) : Decidable (NoWrap cubic bytesAcked) :=
  Option.decidableForallMem (windowGrowth cubic bytesAcked).toOption

/-- A call that does not carry the window past 32 bits. -/
def CubicOp.NoWrap (cubic : Cubic) : CubicOp → Prop
  | .ack bytesAcked _ => Congestion.NoWrap cubic bytesAcked
  | .loss => True

instance (cubic : Cubic) : DecidablePred (CubicOp.NoWrap cubic)
  | .ack bytesAcked _ => inferInstanceAs (Decidable (Congestion.NoWrap cubic bytesAcked))
  | .loss => inferInstanceAs (Decidable True)

/-- A sum that does not wrap around. -/
lemma le_add_iff (a n : UInt32) : a ≤ a + n ↔ a.toNat + n.toNat < 2 ^ 32 := by
  have ha := a.toNat_lt
  have hn := n.toNat_lt
  rw [UInt32.le_iff_toNat_le, UInt32.toNat_add]
  omega

variable {cubic cubic' : Cubic}

/-- An ACK does not shrink the window if and only if it does not wrap around. -/
lemma cwnd_le_iff {bytesAcked rttMs : UInt32}
    (h : cubicOnAck cubic bytesAcked rttMs = .ok cubic') :
    cubic.cwnd ≤ cubic'.cwnd ↔ NoWrap cubic bytesAcked := by
  obtain ⟨⟨n, hn, hcwnd⟩, -⟩ := cubicOnAck_eq h
  rw [hcwnd, le_add_iff, NoWrap, hn]
  simp [Except.toOption]

lemma toOption_eq_some {α : Type} {r : Except Fault α} {a : α} (h : r.toOption = some a) :
    r = .ok a := by
  cases r with
  | error e => cases h
  | ok b => cases h; rfl

/-- A call without a wrap-around keeps the minimum window. -/
lemma CubicOp.apply_min {op : CubicOp} (hmin : cubicMinCwnd ≤ cubic.cwnd)
    (hwrap : op.NoWrap cubic) (h : op.apply cubic = some cubic') : cubicMinCwnd ≤ cubic'.cwnd := by
  cases op with
  | ack bytesAcked rttMs =>
    exact UInt32.le_trans hmin ((cwnd_le_iff (toOption_eq_some h)).mpr hwrap)
  | loss =>
    obtain ⟨cubic₁, h₁, hmin₁⟩ := cubicOnLoss_ok cubic
    rw [CubicOp.apply, h₁] at h
    cases h
    exact hmin₁

/-- ACKs do not end fast recovery. -/
lemma cubicRun_fastRecovery (hstate : cubic.state = .fastRecovery)
    (acks : List (UInt32 × UInt32))
    (hrun : cubicRun cubic (acks.map fun a => .ack a.1 a.2) = some cubic') :
    cubic'.state = .fastRecovery := by
  induction acks generalizing cubic with
  | nil =>
    cases hrun
    exact hstate
  | cons a acks ih =>
    obtain ⟨cubic₁, h₁, hrun⟩ := foldlM_cons_eq_some hrun
    exact ih ((cubicOnAck_eq (toOption_eq_some h₁)).2 hstate) hrun

/-- From no state in fast recovery do any ACKs lead to congestion avoidance. -/
theorem fast_recovery_never_left (cubic : Cubic) (hstate : cubic.state = .fastRecovery) :
    ¬ ∃ (acks : List (UInt32 × UInt32)) (cubic' : Cubic),
      cubicRun cubic (acks.map fun a => .ack a.1 a.2) = some cubic' ∧
        cubic'.state = .congestionAvoidance := by
  rintro ⟨acks, cubic', hrun, hstate'⟩
  rw [cubicRun_fastRecovery hstate acks hrun] at hstate'
  cases hstate'

/-- The state after an ACK and a loss. -/
theorem fast_recovery_never_left_sample :
    ∃ cubic, cubicRun (cubicInit 1400) [.ack 2800 40, .loss] = some cubic ∧
      ¬ ∃ (acks : List (UInt32 × UInt32)) (cubic' : Cubic),
        cubicRun cubic (acks.map fun a => .ack a.1 a.2) = some cubic' ∧
          cubic'.state = .congestionAvoidance := by
  have hstate : (cubicRun (cubicInit 1400) [.ack 2800 40, .loss]).map (·.state) =
      some .fastRecovery := by
    decide +kernel
  obtain ⟨cubic, hrun, hstate⟩ := Option.map_eq_some_iff.mp hstate
  exact ⟨cubic, hrun, fast_recovery_never_left cubic hstate⟩

/-- A loss right after the start leads to fast recovery, and every sequence of ACKs stays there. -/
theorem fast_recovery_stuck_after_loss :
    ∃ cubic, cubicRun (cubicInit 1460) [.loss] = some cubic ∧ cubic.state = .fastRecovery ∧
      ∀ (acks : List (UInt32 × UInt32)) (cubic' : Cubic),
        cubicRun cubic (acks.map fun a => .ack a.1 a.2) = some cubic' →
          cubic'.state = .fastRecovery := by
  have hstate : (cubicRun (cubicInit 1460) [.loss]).map (·.state) = some .fastRecovery := by
    decide +kernel
  obtain ⟨cubic, hrun, hstate⟩ := Option.map_eq_some_iff.mp hstate
  exact ⟨cubic, hrun, hstate, fun acks _ => cubicRun_fastRecovery hstate acks⟩

end RoboControl.Congestion
