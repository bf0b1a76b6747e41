import RoboControl.Base.Estimator
import RoboControl.Congestion.Window
import RoboControl.Retransmit.Queue

/-!
# Round-trip times

What `rc_cubic_update_rtt` of `src/core/rc_congestion.c` keeps of the samples it is given. For
samples below `2 ^ 29` nothing wraps around in 32 bits: the smoothed time and its variance are those
of `Base.Estimate` (`Tracks`), so they stay within the samples (`smoothing_within_samples`). The
timeout is computed from them here and, by another formula, in `src/core/rc_retransmit.c`;
`rto_agrees_iff` says when the two agree.
-/

namespace RoboControl.Congestion
open Base

/-! ## Samples -/

/-- The round-trip times are those of the samples `r :: rs`. -/
structure Tracks (cubic : Cubic) (r : UInt32) (rs : List UInt32) : Prop where
  srtt : cubic.srtt.toNat = (estimate r.toNat (rs.map UInt32.toNat)).mean
  rttVar : cubic.rttVar.toNat = (estimate r.toNat (rs.map UInt32.toNat)).dev
  minRtt_mem : cubic.minRtt ∈ r :: rs
  minRtt_le : ∀ x ∈ r :: rs, cubic.minRtt ≤ x
  rto : cubic.rto = calcRto cubic

/-- The round-trip times are those of some samples, if there are any. -/
def Sampled (cubic : Cubic) : List UInt32 → Prop
  | [] => cubic.srtt = 0 ∧ cubic.minRtt = 0xFFFFFFFF
  | r :: rs => Tracks cubic r rs

/-- A sample that 32 bits have room for. -/
def InRange (x : UInt32) : Prop := 1 ≤ x.toNat ∧ x.toNat < 2 ^ 29

lemma toInt_toInt32 {x : UInt32} (h : x.toNat < 2 ^ 31) : x.toInt32.toInt = x.toNat := by
  refine BitVec.toInt_eq_toNat_of_lt (x := x.toBitVec) ?_
  show 2 * x.toNat < 2 ^ 32
  omega

lemma toNat_ofInt {d : Int} (h0 : 0 ≤ d) (h : d < 2 ^ 32) : (UInt32.ofInt d).toNat = d.toNat := by
  rw [UInt32.ofInt, UInt32.toNat_ofNat']
  omega

/-- The absolute difference is computed without an overflow. -/
lemma abs32_sub {a b : ℕ} (ha : a < 2 ^ 29) (hb : b < 2 ^ 29) :
    (int32 ((a : Int) - b) >>= abs32) = .ok ((a.dist b : ℕ) : Int) := by
  have hdist : a.dist b = a - b + (b - a) := rfl
  rw [int32, if_pos (by omega)]
  show abs32 ((a : Int) - b) = _
  rw [abs32]
  split
  · rw [int32, if_pos (by omega)]
    congr 1
    omega
  · congr 1
    omega

/-- The smoothing of the code is that of the estimate. -/
lemma smoothRtt_estimate (cubic : Cubic) {x : UInt32} {e : Estimate}
    (hmean : cubic.srtt.toNat = e.mean) (hdev : cubic.rttVar.toNat = e.dev)
    (hx : x.toNat < 2 ^ 29) (within : e.Within 1 (2 ^ 29 - 1)) :
    ∃ srtt rttVar, smoothRtt cubic x = .ok { cubic with srtt := srtt, rttVar := rttVar } ∧
      srtt.toNat = (e.update x.toNat).mean ∧ rttVar.toNat = (e.update x.toNat).dev := by
  obtain ⟨hpos, hle, hle'⟩ := within
  have hne : cubic.srtt ≠ 0 := by
    intro h
    rw [h] at hmean
    exact absurd (hmean ▸ hpos : 1 ≤ (0 : UInt32).toNat) (by decide)
  have habs : (int32 (cubic.srtt.toInt32.toInt - x.toInt32.toInt) >>= abs32) =
      .ok ((e.mean.dist x.toNat : ℕ) : Int) := by
    rw [toInt_toInt32 (by omega), toInt_toInt32 (by omega), hmean]
    exact abs32_sub (by omega) hx
  have hdist : e.mean.dist x.toNat = e.mean - x.toNat + (x.toNat - e.mean) := rfl
  rw [smoothRtt, if_neg hne]
  obtain ⟨d, hd, habs⟩ := bind_eq_ok habs
  rw [hd]
  refine ⟨(7 * cubic.srtt + x) / 8,
    (3 * cubic.rttVar + UInt32.ofInt ((e.mean.dist x.toNat : ℕ) : Int)) / 4, ?_, ?_, ?_⟩
  · show (abs32 d >>= _) = _
    rw [habs]
    rfl
  · rw [UInt32.toNat_div, UInt32.toNat_add, UInt32.toNat_mul, hmean]
    show (7 * e.mean % 2 ^ 32 + x.toNat) % 2 ^ 32 / 8 = (7 * e.mean + x.toNat) / 8
    omega
  · rw [UInt32.toNat_div, UInt32.toNat_add, UInt32.toNat_mul, hdev,
      toNat_ofInt (by omega) (by omega)]
    show (3 * e.dev % 2 ^ 32 + ((e.mean.dist x.toNat : ℕ) : Int).toNat) % 2 ^ 32 / 4 =
      (3 * e.dev + e.mean.dist x.toNat) / 4
    omega

section Samples
variable {cubic cubic' : Cubic} {r x : UInt32} {rs : List UInt32}

/-- A sample that is smoothed. -/
lemma cubicUpdateRtt_of_smooth (hne : x ≠ 0)
    (h : smoothRtt { cubic with minRtt := if x < cubic.minRtt then x else cubic.minRtt } x =
      .ok cubic') :
    cubicUpdateRtt cubic x = .ok { cubic' with rto := calcRto cubic' } := by
  rw [cubicUpdateRtt, if_neg hne]
  dsimp only
  rw [h]
  rfl

/-- An estimate from samples within bounds. -/
lemma Tracks.within (tracks : Tracks cubic r rs) {lo hi : ℕ}
    (h : ∀ x ∈ r :: rs, lo ≤ x.toNat ∧ x.toNat ≤ hi) :
    lo ≤ cubic.srtt.toNat ∧ cubic.srtt.toNat ≤ hi ∧ cubic.rttVar.toNat ≤ hi := by
  have hmap : ∀ y ∈ r.toNat :: rs.map UInt32.toNat, lo ≤ y ∧ y ≤ hi := by
    rw [← List.map_cons]
    exact List.forall_mem_map.mpr h
  obtain ⟨hlo, hhi, hdev⟩ := within_estimate hmap
  rw [tracks.srtt, tracks.rttVar]
  exact ⟨hlo, hhi, hdev⟩

/-- The first sample. -/
lemma Sampled.first (sampled : Sampled cubic []) (hr : InRange r) :
    ∃ cubic', cubicUpdateRtt cubic r = .ok cubic' ∧ Tracks cubic' r [] := by
  obtain ⟨hsrtt, hmin⟩ := sampled
  obtain ⟨hpos, hlt⟩ := hr
  have hne : r ≠ 0 := by
    rintro rfl
    exact absurd hpos (by decide)
  have hmin' : r < cubic.minRtt := by
    rw [hmin, UInt32.lt_iff_toNat_lt]
    exact hlt.trans (by decide)
  refine ⟨_, cubicUpdateRtt_of_smooth hne (if_pos hsrtt), rfl, ?_, ?_, ?_, rfl⟩
  · exact UInt32.toNat_div r 2
  · dsimp only
    rw [if_pos hmin']
    exact List.mem_cons_self
  · intro y hy
    dsimp only
    rw [if_pos hmin']
    rw [List.mem_singleton.mp hy]
    exact UInt32.le_refl r

/-- Another sample. -/
lemma Tracks.update (tracks : Tracks cubic r rs) (hrs : ∀ y ∈ r :: rs, InRange y) (hx : InRange x) :
    ∃ cubic', cubicUpdateRtt cubic x = .ok cubic' ∧ Tracks cubic' r (rs ++ [x]) := by
  have hne : x ≠ 0 := by
    rintro rfl
    exact absurd hx.1 (by decide)
  have hmap : ∀ y ∈ r.toNat :: rs.map UInt32.toNat, 1 ≤ y ∧ y ≤ 2 ^ 29 - 1 := by
    rw [← List.map_cons]
    exact List.forall_mem_map.mpr fun y hy => ⟨(hrs y hy).1, Nat.le_pred_of_lt (hrs y hy).2⟩
  obtain ⟨srtt, rttVar, hsmooth, hsrtt, hvar⟩ := smoothRtt_estimate
    { cubic with minRtt := if x < cubic.minRtt then x else cubic.minRtt } tracks.srtt tracks.rttVar
      hx.2
    (within_estimate hmap)
  have hmin_le : (if x < cubic.minRtt then x else cubic.minRtt) ≤ x ∧
      (if x < cubic.minRtt then x else cubic.minRtt) ≤ cubic.minRtt := by
    split
    · next hlt => exact ⟨UInt32.le_refl x, UInt32.le_of_lt hlt⟩
    · next hlt => exact ⟨UInt32.not_lt.mp hlt, UInt32.le_refl _⟩
  refine ⟨_, cubicUpdateRtt_of_smooth hne hsmooth, ?_, ?_, ?_, fun y hy => ?_, rfl⟩
  · rw [List.map_append, List.map_singleton, estimate_concat]
    exact hsrtt
  · rw [List.map_append, List.map_singleton, estimate_concat]
    exact hvar
  · dsimp only
    rw [← List.cons_append]
    split
    · exact List.mem_append_right _ List.mem_cons_self
    · exact List.mem_append_left _ tracks.minRtt_mem
  · rw [← List.cons_append] at hy
    obtain hy | hy := List.mem_append.mp hy
    · exact UInt32.le_trans hmin_le.2 (tracks.minRtt_le y hy)
    · rw [List.mem_singleton.mp hy]
      exact hmin_le.1

/-- A sample that may be the first one. -/
lemma Sampled.update {samples : List UInt32} (sampled : Sampled cubic samples)
    (hsamples : ∀ y ∈ samples, InRange y) (hx : InRange x) :
    ∃ cubic', cubicUpdateRtt cubic x = .ok cubic' ∧ Sampled cubic' (samples ++ [x]) := by
  cases samples with
  | nil => exact Sampled.first sampled hx
  | cons r rs => exact Tracks.update sampled hsamples hx

end Samples

/-- Samples given to `rc_cubic_update_rtt` one after the other. -/
lemma updates_sampled (mss : UInt32) {samples : List UInt32} (h : ∀ x ∈ samples, InRange x) :
    ∃ cubic, samples.foldlM cubicUpdateRtt (cubicInit mss) = .ok cubic ∧ Sampled cubic samples := by
  induction samples using List.reverseRecOn with
  | nil => exact ⟨cubicInit mss, rfl, rfl, rfl⟩
  | append_singleton samples x ih =>
    rw [List.forall_mem_append] at h
    obtain ⟨cubic, hrun, sampled⟩ := ih h.1
    obtain ⟨cubic', h', sampled'⟩ := sampled.update h.1 (h.2 x List.mem_cons_self)
    refine ⟨cubic', ?_, sampled'⟩
    rw [List.foldlM_append, hrun]
    show (cubicUpdateRtt cubic x >>= pure) = _
    rw [h']
    rfl

/-- After samples between 1 and `2 ^ 29 - 1`: the smoothed time and its variance are those of the
estimate over the natural numbers, and nothing wraps around when the next sample is smoothed; the
minimum is that of the samples; and the smoothed time is between the least and the greatest sample
and not zero, and its variance not above the greatest. -/
theorem smoothing_within_samples (mss r : UInt32) (rs : List UInt32)
    (h : ∀ x ∈ r :: rs, 1 ≤ x.toNat ∧ x.toNat ≤ 2 ^ 29 - 1) :
    ∃ cubic, (r :: rs).foldlM cubicUpdateRtt (cubicInit mss) = .ok cubic ∧
      cubic.srtt.toNat = (estimate r.toNat (rs.map UInt32.toNat)).mean ∧
      cubic.rttVar.toNat = (estimate r.toNat (rs.map UInt32.toNat)).dev ∧
      (∀ x : UInt32, x.toNat ≤ 2 ^ 29 - 1 → 7 * cubic.srtt.toNat + x.toNat < 2 ^ 32 ∧
        3 * cubic.rttVar.toNat + cubic.srtt.toNat.dist x.toNat < 2 ^ 32) ∧
      (cubic.minRtt ∈ r :: rs ∧ ∀ x ∈ r :: rs, cubic.minRtt ≤ x) ∧
      cubic.minRtt ≤ cubic.srtt ∧ cubic.srtt ≠ 0 ∧
      ∃ hi ∈ r :: rs, (∀ x ∈ r :: rs, x ≤ hi) ∧ cubic.srtt ≤ hi ∧ cubic.rttVar ≤ hi := by
  obtain ⟨cubic, hrun, tracks⟩ :=
    updates_sampled mss fun x hx => ⟨(h x hx).1, Nat.lt_of_le_pred (by decide) (h x hx).2⟩
  obtain ⟨hi, hmem, hhi⟩ := (r :: rs).toFinset.exists_max_image UInt32.toNat ⟨r, by simp⟩
  rw [List.mem_toFinset] at hmem
  have hhi' : ∀ x ∈ r :: rs, x.toNat ≤ hi.toNat := fun x hx => hhi x (List.mem_toFinset.mpr hx)
  have hlo : ∀ x ∈ r :: rs, cubic.minRtt.toNat ≤ x.toNat := fun x hx =>
    UInt32.le_iff_toNat_le.mp (tracks.minRtt_le x hx)
  obtain ⟨hlo', hsrtt, hvar⟩ := tracks.within fun x hx => ⟨hlo x hx, hhi' x hx⟩
  obtain ⟨hpos, hlt, hlt'⟩ := tracks.within h
  refine ⟨cubic, hrun, tracks.srtt, tracks.rttVar, fun x hx => ?_,
    ⟨tracks.minRtt_mem, tracks.minRtt_le⟩, UInt32.le_iff_toNat_le.mpr hlo', ?_, hi, hmem,
      fun x hx => UInt32.le_iff_toNat_le.mpr (hhi' x hx),
    UInt32.le_iff_toNat_le.mpr hsrtt, UInt32.le_iff_toNat_le.mpr hvar⟩
  · have hdist : cubic.srtt.toNat.dist x.toNat =
        cubic.srtt.toNat - x.toNat + (x.toNat - cubic.srtt.toNat) := rfl
    omega
  · intro hzero
    rw [hzero] at hpos
    exact absurd hpos (by decide)

/-- Three samples. -/
theorem smoothing_within_samples_sample :
    ∃ cubic, [100, 180, 60].foldlM cubicUpdateRtt (cubicInit 1460) = .ok cubic ∧
      (60 ≤ cubic.srtt ∧ cubic.srtt ≤ 180) ∧ cubic.minRtt = 60 := by
  obtain ⟨cubic, hrun, -, -, -, ⟨-, hmin⟩, hle, -⟩ :=
    smoothing_within_samples 1460 100 [180, 60] (by simp)
  have heval : ([100, 180, 60].foldlM cubicUpdateRtt (cubicInit 1460)).toOption.map
      (fun cubic => (cubic.minRtt, decide (cubic.srtt ≤ 180))) = some (60, true) := by
    decide +kernel
  rw [hrun] at heval
  obtain ⟨hminRtt, hsrtt⟩ := Prod.mk.inj (Option.some.inj heval)
  rw [hminRtt] at hle
  exact ⟨cubic, hrun, ⟨hle, of_decide_eq_true hsrtt⟩, hminRtt⟩

/-! ## The timeout -/

/-- A call that may bring a sample. -/
inductive RttCall where
  | update (rttMs : UInt32)
  | call (op : CubicOp)

/-- Make a call; `none` if it does not return. -/
def RttCall.apply (cubic : Cubic) : RttCall → Option Cubic
  | .update rttMs => (cubicUpdateRtt cubic rttMs).toOption
  | .call op => op.apply cubic

/-- The sample that a call brings: an ACK of no bytes and a time of zero bring none. -/
def RttCall.samples : RttCall → List UInt32
  | .update rttMs => if rttMs = 0 then [] else [rttMs]
  | .call (.ack bytesAcked rttMs) => if bytesAcked = 0 ∨ rttMs = 0 then [] else [rttMs]
  | .call .loss => []

/-- Make calls in order, from a new state. -/
def rttRun (mss : UInt32) (calls : List RttCall) : Option Cubic :=
  calls.foldlM RttCall.apply (cubicInit mss)

/-- Two states with the same round-trip times. -/
structure SameRtt (cubic cubic' : Cubic) : Prop where
  srtt : cubic'.srtt = cubic.srtt
  rttVar : cubic'.rttVar = cubic.rttVar
  minRtt : cubic'.minRtt = cubic.minRtt
  rto : cubic'.rto = cubic.rto

section Calls
variable {cubic cubic' : Cubic} {samples : List UInt32}

/-- The estimates decide. -/
lemma Sampled.congr (sampled : Sampled cubic samples) (same : SameRtt cubic cubic') :
    Sampled cubic' samples := by
  cases samples with
  | nil =>
    obtain ⟨hsrtt, hmin⟩ := sampled
    exact ⟨same.srtt.trans hsrtt, same.minRtt.trans hmin⟩
  | cons r rs =>
    obtain ⟨hsrtt, hvar, hmem, hle, hrto⟩ := sampled
    refine ⟨same.srtt ▸ hsrtt, same.rttVar ▸ hvar, same.minRtt ▸ hmem, same.minRtt ▸ hle, ?_⟩
    rw [same.rto, hrto, calcRto, calcRto, same.srtt, same.rttVar]

/-- The cases of an ACK leave the round-trip times. -/
lemma ackByState_sameRtt {bytesAcked : UInt32} (h : ackByState cubic bytesAcked = .ok cubic') :
    SameRtt cubic cubic' := by
  rw [ackByState] at h
  split at h
  · rw [ackSlowStart] at h
    split at h
    · obtain ⟨k, -, h⟩ := bind_eq_ok h
      cases h
      exact ⟨rfl, rfl, rfl, rfl⟩
    · cases h
      exact ⟨rfl, rfl, rfl, rfl⟩
  · obtain ⟨n, -, h⟩ := bind_eq_ok h
    cases h
    exact ⟨rfl, rfl, rfl, rfl⟩
  · cases h
    exact ⟨rfl, rfl, rfl, rfl⟩

/-- A loss keeps the estimates. -/
lemma cubicOnLoss_sameRtt (h : cubicOnLoss cubic = .ok cubic') : SameRtt cubic cubic' := by
  rw [cubicOnLoss] at h
  obtain ⟨k, -, h⟩ := bind_eq_ok h
  cases h
  exact ⟨rfl, rfl, rfl, rfl⟩

/-- An update brings its sample, if any. -/
lemma Sampled.updateRtt (sampled : Sampled cubic samples) {rttMs : UInt32}
    (hrange : ∀ x ∈ samples ++ (if rttMs = 0 then [] else [rttMs]), InRange x)
    (h : cubicUpdateRtt cubic rttMs = .ok cubic') :
    Sampled cubic' (samples ++ if rttMs = 0 then [] else [rttMs]) := by
  by_cases hzero : rttMs = 0
  · rw [if_pos hzero, List.append_nil]
    rw [cubicUpdateRtt, if_pos hzero] at h
    cases h
    exact sampled
  · rw [if_neg hzero] at hrange ⊢
    rw [List.forall_mem_append] at hrange
    obtain ⟨cubic₁, h₁, sampled₁⟩ := sampled.update hrange.1 (hrange.2 rttMs List.mem_cons_self)
    cases h.symm.trans h₁
    exact sampled₁

/-- A call brings its samples. -/
lemma Sampled.apply (sampled : Sampled cubic samples) {call : RttCall}
    (hrange : ∀ x ∈ samples ++ call.samples, InRange x) (h : call.apply cubic = some cubic') :
    Sampled cubic' (samples ++ call.samples) := by
  cases call with
  | update rttMs => exact sampled.updateRtt hrange (toOption_eq_some h)
  | call op =>
    cases op with
    | loss =>
      rw [RttCall.samples, List.append_nil]
      exact sampled.congr (cubicOnLoss_sameRtt (toOption_eq_some h))
    | ack bytesAcked rttMs =>
      have h : cubicOnAck cubic bytesAcked rttMs = .ok cubic' := toOption_eq_some h
      rw [cubicOnAck] at h
      by_cases hbytes : bytesAcked = 0
      · rw [if_pos hbytes] at h
        cases h
        rw [RttCall.samples, if_pos (.inl hbytes), List.append_nil]
        exact sampled
      · rw [if_neg hbytes] at h
        obtain ⟨cubic₁, h₁, h⟩ := bind_eq_ok h
        obtain ⟨cubic₂, h₂, h⟩ := bind_eq_ok h
        cases h
        have hsamples : (RttCall.call (.ack bytesAcked rttMs)).samples =
            if rttMs = 0 then [] else [rttMs] := by
          rw [RttCall.samples]
          exact if_congr (or_iff_right hbytes) rfl rfl
        rw [hsamples] at hrange ⊢
        have sampled₀ : Sampled { cubic with
            totalAcked := cubic.totalAcked + bytesAcked.toUInt64, ackCount := cubic.ackCount + 1 }
            samples := sampled.congr ⟨rfl, rfl, rfl, rfl⟩
        have sampled₂ := (sampled₀.updateRtt hrange h₁).congr (ackByState_sameRtt h₂)
        exact sampled₂.congr ⟨rfl, rfl, rfl, rfl⟩

/-- Calls bring their samples. -/
lemma Sampled.run (sampled : Sampled cubic samples) {calls : List RttCall}
    (hrange : ∀ x ∈ samples ++ calls.flatMap RttCall.samples, InRange x)
    (hrun : calls.foldlM RttCall.apply cubic = some cubic') :
    Sampled cubic' (samples ++ calls.flatMap RttCall.samples) := by
  induction calls generalizing cubic samples with
  | nil =>
    cases hrun
    rwa [List.flatMap_nil, List.append_nil]
  | cons call calls ih =>
    obtain ⟨cubic₁, h₁, hrun⟩ := foldlM_cons_eq_some hrun
    rw [List.flatMap_cons, ← List.append_assoc] at hrange ⊢
    have sampled₁ := sampled.apply (fun x hx => hrange x (List.mem_append_left _ hx)) h₁
    exact ih sampled₁ hrange hrun

end Calls

lemma mem_samples_ne_zero {call : RttCall} {x : UInt32} (h : x ∈ call.samples) : x ≠ 0 := by
  cases call with
  | update rttMs =>
    rw [RttCall.samples] at h
    split at h
    · cases h
    · next hne => exact List.mem_singleton.mp h ▸ hne
  | call op =>
    cases op with
    | loss => cases h
    | ack bytesAcked rttMs =>
      rw [RttCall.samples] at h
      split at h
      · cases h
      · next hne => exact List.mem_singleton.mp h ▸ fun hzero => hne (.inr hzero)

/-- The timeout of this file. -/
lemma toNat_calcRto {cubic : Cubic} (hsrtt : cubic.srtt.toNat ≤ 60000)
    (hvar : cubic.rttVar.toNat ≤ 60000) :
    (calcRto cubic).toNat = if cubic.srtt.toNat + 4 * cubic.rttVar.toNat < 1460 then 200
      else min 60000 (cubic.srtt.toNat + 4 * cubic.rttVar.toNat) := by
  have hsum : (cubic.srtt + 4 * cubic.rttVar).toNat = cubic.srtt.toNat + 4 *
    cubic.rttVar.toNat := by
    rw [UInt32.toNat_add, UInt32.toNat_mul, show (4 : UInt32).toNat = 4 from rfl]
    omega
  rw [calcRto]
  generalize cubic.srtt + 4 * cubic.rttVar = rto at hsum ⊢
  rw [← hsum]
  by_cases hmin : rto < cubicMinCwnd
  · have hmin' : rto.toNat < 1460 := UInt32.lt_iff_toNat_lt.mp hmin
    rw [if_pos hmin, if_pos hmin']
    rfl
  · have hmin' : ¬ rto.toNat < 1460 := fun h => hmin (UInt32.lt_iff_toNat_lt.mpr h)
    rw [if_neg hmin, if_neg hmin']
    split
    · next h =>
      rw [gt_iff_lt, UInt32.lt_iff_toNat_lt] at h
      rw [show (60000 : UInt32).toNat = 60000 from rfl] at h ⊢
      omega
    · next h =>
      rw [gt_iff_lt, UInt32.lt_iff_toNat_lt, show (60000 : UInt32).toNat = 60000 from rfl] at h
      omega

/-- The timeout of the retransmission queue is the documented one. -/
lemma toNat_retransmit_calcRto {srtt rttVar : UInt32} (hsrtt : srtt.toNat ≤ 60000)
    (hvar : rttVar.toNat ≤ 60000) :
    (Retransmit.calcRto srtt rttVar).toNat =
      min 60000 (max 200 (srtt.toNat + max 200 (4 * rttVar.toNat))) := by
  have hsum : (srtt + if rttVar > 50 then 4 * rttVar else 200).toNat =
      srtt.toNat + max 200 (4 * rttVar.toNat) := by
    split
    · next h =>
      rw [gt_iff_lt, UInt32.lt_iff_toNat_lt, show (50 : UInt32).toNat = 50 from rfl] at h
      rw [UInt32.toNat_add, UInt32.toNat_mul, show (4 : UInt32).toNat = 4 from rfl]
      omega
    · next h =>
      rw [gt_iff_lt, UInt32.lt_iff_toNat_lt, show (50 : UInt32).toNat = 50 from rfl] at h
      rw [UInt32.toNat_add, show (200 : UInt32).toNat = 200 from rfl]
      omega
  rw [Retransmit.calcRto]
  generalize (srtt + if rttVar > 50 then 4 * rttVar else 200) = rto at hsum ⊢
  have hmin : ¬ rto < Retransmit.minRtoMs := by
    rw [UInt32.lt_iff_toNat_lt, hsum, show Retransmit.minRtoMs.toNat = 200 from rfl]
    omega
  rw [if_neg hmin]
  split
  · next h =>
    rw [gt_iff_lt, UInt32.lt_iff_toNat_lt, hsum] at h
    rw [show Retransmit.maxRtoMs.toNat = 60000 from rfl] at h ⊢
    omega
  · next h =>
    rw [gt_iff_lt, UInt32.lt_iff_toNat_lt, hsum,
      show Retransmit.maxRtoMs.toNat = 60000 from rfl] at h
    omega

/-- After calls that bring at least one sample, all of them at most 60000 ms: the timeout of the
retransmission queue is the documented one, for the smoothed time and its variance; and the timeout
of the congestion control is this one, and not below the smoothed time, if and only if the smoothed
time and four times the variance make at least 1460 and the variance is at least 50 or the sum is at
the upper bound. -/
theorem rto_agrees_iff (mss : UInt32) (calls : List RttCall) (cubic : Cubic)
    (hrun : rttRun mss calls = some cubic) (hne : calls.flatMap RttCall.samples ≠ [])
    (hrange : ∀ x ∈ calls.flatMap RttCall.samples, x.toNat ≤ 60000) :
    (Retransmit.calcRto cubic.srtt cubic.rttVar).toNat =
        min 60000 (max 200 (cubic.srtt.toNat + max 200 (4 * cubic.rttVar.toNat))) ∧
      (cubic.rto = Retransmit.calcRto cubic.srtt cubic.rttVar ∧
          min 60000 cubic.srtt.toNat ≤ cubic.rto.toNat ↔
        1460 ≤ cubic.srtt.toNat + 4 * cubic.rttVar.toNat ∧
          (50 ≤ cubic.rttVar.toNat ∨ 60000 ≤ cubic.srtt.toNat + 4 * cubic.rttVar.toNat)) := by
  have hpos : ∀ x ∈ calls.flatMap RttCall.samples, 1 ≤ x.toNat := fun x hx => by
    obtain ⟨call, -, hx⟩ := List.mem_flatMap.mp hx
    exact UInt32.pos_iff_ne_zero.mpr (mem_samples_ne_zero hx)
  have hinit : Sampled (cubicInit mss) [] := ⟨rfl, rfl⟩
  have sampled := hinit.run (fun x hx => ⟨hpos x hx, (hrange x hx).trans_lt (by decide)⟩) hrun
  rw [List.nil_append] at sampled
  cases hsamples : calls.flatMap RttCall.samples with
  | nil => exact absurd hsamples hne
  | cons r rs =>
    rw [hsamples] at sampled hrange hpos
    have tracks : Tracks cubic r rs := sampled
    obtain ⟨hlo, hhi, hvar⟩ := tracks.within fun x hx => ⟨hpos x hx, hrange x hx⟩
    have hrto := toNat_calcRto hhi hvar
    have hcalc := toNat_retransmit_calcRto hhi hvar
    refine ⟨hcalc, ?_⟩
    rw [← UInt32.toNat_inj, tracks.rto, hcalc, hrto]
    split <;> omega

/-- Two samples of two seconds, one of them with an ACK. -/
theorem rto_agrees_iff_sample :
    ∃ cubic, rttRun 1460 [.update 2000, .call (.ack 1460 2000)] = some cubic ∧
      cubic.rto = Retransmit.calcRto cubic.srtt cubic.rttVar := by
  have heval : (rttRun 1460 [.update 2000, .call (.ack 1460 2000)]).map
      (fun cubic => (cubic.srtt, cubic.rttVar)) = some (2000, 750) := by
    decide +kernel
  obtain ⟨cubic, hrun, hs⟩ := Option.map_eq_some_iff.mp heval
  obtain ⟨hsrtt, hvar⟩ := Prod.mk.inj hs
  refine ⟨cubic, hrun, ?_⟩
  refine ((rto_agrees_iff 1460 _ cubic hrun (by decide) (by simp [RttCall.samples])).2.mpr ?_).1
  rw [hsrtt, hvar]
  decide

/-- One sample of 400 ms: the timeout is 200 ms, below the sample, and 1200 ms by the formula of the
retransmission queue. -/
theorem rto_below_sample :
    (rttRun 1460 [.update 400]).map (fun cubic => (cubic.srtt, cubic.rttVar, cubic.rto,
      Retransmit.calcRto cubic.srtt cubic.rttVar)) = some (400, 200, 200, 1200) := by
  decide +kernel

end RoboControl.Congestion
