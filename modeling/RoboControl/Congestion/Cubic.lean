import Mathlib.Tactic

/-!
# CUBIC congestion control

Model of `src/core/rc_congestion.c`: the state `Cubic` (C `rc_cubic_t`), `cubicInit` (C
`rc_cubic_init`), `cubicOnAck` (C `rc_cubic_on_ack`), `cubicOnLoss` (C `rc_cubic_on_loss`) and
`cubicUpdateRtt` (C `rc_cubic_update_rtt`), with the cube root `icbrt` and the function `cubicEval`
they use.

Unsigned integers have the width they have in C and wrap around. What C does not define is a
`Fault`: a division by zero and an overflow of a signed integer, and so is a loop that does not end.
-/

namespace RoboControl.Congestion

/-- What a call does not return from. -/
inductive Fault where
  | divByZero
  | signedOverflow
  | noReturn
  deriving DecidableEq

/-! ## Constants -/

/-- Initial window (C `RC_CUBIC_INIT_CWND`). -/
def cubicInitCwnd : UInt32 := 10 * 1460

/-- Minimum window (C `RC_CUBIC_MIN_CWND`). -/
def cubicMinCwnd : UInt32 := 1 * 1460

/-- Default segment size (C `RC_CUBIC_MSS`). -/
def cubicMss : UInt32 := 1460

/-- Scale of the decrease factor (C `RC_CUBIC_BETA_SCALE`). -/
def cubicBetaScale : UInt32 := 1024

/-- Decrease factor (C `RC_CUBIC_BETA`). -/
def cubicBeta : UInt32 := 717

/-- Scale of the growth constant (C `RC_CUBIC_C_SCALE`). -/
def cubicCScale : UInt32 := 1024

/-- Growth constant (C `RC_CUBIC_C`). -/
def cubicC : UInt32 := 4

/-- Scale of the fast convergence factor (C `RC_CUBIC_FC_SCALE`). -/
def cubicFcScale : UInt32 := 1024

/-- Fast convergence factor (C `RC_CUBIC_FC_BETA`). -/
def cubicFcBeta : UInt32 := 819

/-! ## State -/

/-- State of the machine (C `rc_cc_state_t`). -/
inductive CcState where
  | slowStart
  | congestionAvoidance
  | fastRecovery
  deriving DecidableEq

/-- State of a connection (C `rc_cubic_t`). -/
structure Cubic where
  state : CcState
  cwnd : UInt32
  ssthresh : UInt32
  cwndPrior : UInt32
  wMax : UInt32
  k : UInt32
  tSec : UInt32
  srtt : UInt32
  rttVar : UInt32
  minRtt : UInt32
  rto : UInt32
  pacingRate : UInt32
  totalAcked : UInt64
  recoveryEpisodes : UInt32
  ackCount : UInt32
  mss : UInt32
  inSlowStart : Bool
  deriving DecidableEq

/-- A new state (C `rc_cubic_init`). -/
def cubicInit (mss : UInt32) : Cubic where
  state := .slowStart
  cwnd := cubicInitCwnd
  ssthresh := 0xFFFFFFFF
  cwndPrior := 0
  wMax := 0
  k := 0
  tSec := 0
  srtt := 0
  rttVar := 0
  minRtt := 0xFFFFFFFF
  rto := 1000
  pacingRate := 0
  totalAcked := 0
  recoveryEpisodes := 0
  ackCount := 0
  mss := if mss > 0 then mss else cubicMss
  inSlowStart := true

/-! ## Arithmetic -/

/-- A result of arithmetic on `int64_t`. -/
def int64 (x : Int) : Except Fault Int :=
  if -2 ^ 63 ≤ x ∧ x < 2 ^ 63 then .ok x else .error .signedOverflow

/-- A result of arithmetic on `int32_t`. -/
def int32 (x : Int) : Except Fault Int :=
  if -2 ^ 31 ≤ x ∧ x < 2 ^ 31 then .ok x else .error .signedOverflow

/-- Division of `uint32_t`. -/
def div32 (a b : UInt32) : Except Fault UInt32 := if b = 0 then .error .divByZero else .ok (a / b)

/-- The first power of two whose cube is greater than `x`, as the first loop of `icbrt` finds it.
After 32 rounds the guess is zero and stays so. -/
def icbrtGuess (x : UInt64) : Nat → UInt32 → Option UInt32
  | 0, _ => none
  | fuel + 1, guess =>
    if guess.toUInt64 * guess.toUInt64 * guess.toUInt64 ≤ x then icbrtGuess x fuel (guess <<< 1)
    else some guess

/-- The second loop of `icbrt`: a number of steps of Newton's method. -/
def icbrtRefine (x : UInt64) : Nat → UInt32 → Except Fault UInt32
  | 0, guess => .ok guess
  | n + 1, guess =>
    let g := guess.toUInt64
    if g * g * g = x then .ok guess
    else if g * g = 0 then .error .divByZero
    else icbrtRefine x n ((2 * g + x / (g * g)) / 3).toUInt32

/-- Cube root (C `icbrt`). -/
def icbrt (x : UInt64) : Except Fault UInt32 :=
  if x = 0 then .ok 0
  else
    match icbrtGuess x 33 1 with
    | none => .error .noReturn
    | some guess => icbrtRefine x 20 (guess >>> 1)

/-- The argument of the cube root that gives `k`, in 64 bits. -/
def kCubed (wMax : UInt32) : UInt64 :=
  let wScaled := wMax.toUInt64 * cubicBetaScale.toUInt64
  let numerator := wScaled * (cubicBetaScale - cubicBeta).toUInt64
  numerator / cubicC.toUInt64

/-- The window at a time after the last loss (C `cubic_eval`). -/
def cubicEval (cubic : Cubic) : Except Fault UInt32 := do
  let diff ← int64 (cubic.tSec.toNat - cubic.k.toNat : Int)
  let diff2 ← int64 (diff * diff)
  let diff3 ← int64 (diff2 * diff)
  let scaled ← int64 (diff3 * cubicC.toNat)
  let w ← int64 (cubic.wMax.toNat + scaled.tdiv (cubicCScale.toNat * cubicBetaScale.toNat))
  return UInt32.ofInt (if w < cubicMinCwnd.toNat then cubicMinCwnd.toNat else w)

/-! ## Calls -/

/-- The absolute value of an `int32_t`. -/
def abs32 (delta : Int) : Except Fault Int := if delta < 0 then int32 (-delta) else .ok delta

/-- Smooth the round-trip time and its variance. -/
def smoothRtt (cubic : Cubic) (rttMs : UInt32) : Except Fault Cubic :=
  if cubic.srtt = 0 then .ok { cubic with srtt := rttMs, rttVar := rttMs / 2 }
  else do
    let delta ← int32 (cubic.srtt.toInt32.toInt - rttMs.toInt32.toInt)
    let delta ← abs32 delta
    return { cubic with
      rttVar := (3 * cubic.rttVar + UInt32.ofInt delta) / 4
      srtt := (7 * cubic.srtt + rttMs) / 8 }

/-- The timeout, clamped. Its lower bound is compared with the minimum window, as in the source. -/
def calcRto (cubic : Cubic) : UInt32 :=
  let rto := cubic.srtt + 4 * cubic.rttVar
  let rto := if rto < cubicMinCwnd then 200 else rto
  if rto > 60000 then 60000 else rto

/-- Update the round-trip times (C `rc_cubic_update_rtt`). -/
def cubicUpdateRtt (cubic : Cubic) (rttMs : UInt32) : Except Fault Cubic :=
  if rttMs = 0 then .ok cubic
  else do
    let minRtt := if rttMs < cubic.minRtt then rttMs else cubic.minRtt
    let cubic ← smoothRtt { cubic with minRtt := minRtt } rttMs
    return { cubic with rto := calcRto cubic }

/-- The case of slow start of `rc_cubic_on_ack`. -/
def ackSlowStart (cubic : Cubic) (bytesAcked : UInt32) : Except Fault Cubic := do
  let cubic := { cubic with cwnd := cubic.cwnd + bytesAcked }
  if cubic.cwnd ≥ cubic.ssthresh then
    let k ← icbrt (kCubed cubic.cwnd)
    return { cubic with
      state := .congestionAvoidance
      inSlowStart := false
      wMax := cubic.cwnd
      cwndPrior := cubic.cwnd
      tSec := 0
      k := k }
  else return cubic

/-- The window that congestion avoidance aims at, from the value of the cubic function. -/
def avoidanceTarget (cubic : Cubic) (wCubic : UInt32) : UInt32 :=
  let wTcp := cubic.wMax * cubicBeta / cubicBetaScale +
    3 * (cubicBetaScale - cubicBeta) * cubic.tSec / ((cubicBetaScale + cubicBeta) * cubicBetaScale)
  let wTcp := wTcp * cubic.mss
  if wCubic > wTcp then wCubic else wTcp

/-- What congestion avoidance adds to the window, at the advanced time. -/
def avoidanceIncrement (cubic : Cubic) (bytesAcked : UInt32) : Except Fault UInt32 := do
  let wCubic ← cubicEval cubic
  if cubic.cwnd < avoidanceTarget cubic wCubic then
    let increment ← div32 (cubic.mss * bytesAcked) cubic.cwnd
    return if increment = 0 then 1 else increment
  else
    let increment ← div32 (cubic.mss * bytesAcked) cubic.cwnd
    return if increment / 2 = 0 then 1 else increment / 2

/-- The case of congestion avoidance of `rc_cubic_on_ack`. -/
def ackAvoidance (cubic : Cubic) (bytesAcked : UInt32) : Except Fault Cubic := do
  let cubic := { cubic with tSec := cubic.tSec + 1 }
  let increment ← avoidanceIncrement cubic bytesAcked
  return { cubic with cwnd := cubic.cwnd + increment }

/-- The cases of `rc_cubic_on_ack`. -/
def ackByState (cubic : Cubic) (bytesAcked : UInt32) : Except Fault Cubic :=
  match cubic.state with
  | .slowStart => ackSlowStart cubic bytesAcked
  | .congestionAvoidance => ackAvoidance cubic bytesAcked
  | .fastRecovery => .ok { cubic with cwnd := cubic.cwnd + bytesAcked }

/-- The pacing rate of a window. -/
def calcPacingRate (cubic : Cubic) : UInt32 :=
  if cubic.srtt > 0 then (cubic.cwnd.toUInt64 * 1000 / cubic.srtt.toUInt64).toUInt32
  else cubic.pacingRate

/-- Process an ACK (C `rc_cubic_on_ack`). -/
def cubicOnAck (cubic : Cubic) (bytesAcked rttMs : UInt32) : Except Fault Cubic :=
  if bytesAcked = 0 then .ok cubic
  else do
    let totalAcked := cubic.totalAcked + bytesAcked.toUInt64
    -- Without a measurement the update returns at once.
    let cubic ← cubicUpdateRtt
      { cubic with totalAcked := totalAcked, ackCount := cubic.ackCount + 1 } rttMs
    let cubic ← ackByState cubic bytesAcked
    return { cubic with pacingRate := calcPacingRate cubic }

/-- Process a loss (C `rc_cubic_on_loss`). -/
def cubicOnLoss (cubic : Cubic) : Except Fault Cubic := do
  let wMax :=
    if cubic.wMax > 0 ∧ cubic.cwnd < cubic.wMax then
      (cubic.cwnd.toUInt64 * (cubicBetaScale + cubicFcBeta).toUInt64 /
        (2 * cubicFcScale).toUInt64).toUInt32
    else cubic.cwnd
  let cwnd := (cubic.cwnd.toUInt64 * cubicBeta.toUInt64 / cubicBetaScale.toUInt64).toUInt32
  let cwnd := if cwnd < cubicMinCwnd then cubicMinCwnd else cwnd
  let k ← icbrt (kCubed wMax)
  return { cubic with
    recoveryEpisodes := cubic.recoveryEpisodes + 1
    wMax := wMax
    cwndPrior := cubic.cwnd
    cwnd := cwnd
    ssthresh := cwnd
    tSec := 0
    k := k
    state := .fastRecovery
    inSlowStart := false }

/-! ## Runs -/

/-- A call of `rc_cubic_on_ack` or `rc_cubic_on_loss`. -/
inductive CubicOp where
  | ack (bytesAcked rttMs : UInt32)
  | loss
  deriving DecidableEq

/-- Make a call; `none` if it does not return. -/
def CubicOp.apply (cubic : Cubic) : CubicOp → Option Cubic
  | .ack bytesAcked rttMs => (cubicOnAck cubic bytesAcked rttMs).toOption
  | .loss => (cubicOnLoss cubic).toOption

/-- Make calls in order. -/
def cubicRun (cubic : Cubic) (ops : List CubicOp) : Option Cubic := ops.foldlM CubicOp.apply cubic

end RoboControl.Congestion
