import RoboControl.Base.Ledger
import RoboControl.Billing.Commands

/-!
# Usage of a day

What a report of usage answers after any requests without a reset. The counter `bytes_today` has the
bytes of all reports that it took (`run_counter`), on whatever day: `last_day` is stored and never
read. So an answer shows the usage of its day exactly if the reports of other days that were taken
have as many bytes as the reports of this day that `HINCRBY` refused (`daily_usage_iff`).
-/

namespace RoboControl.Billing
open Base Crypto Auth

/-! ## Reports -/

/-- A report of usage: when it came, and its bytes. -/
structure Report where
  time : UInt64
  bytes : UInt64
  deriving DecidableEq

/-- The bytes of a report. -/
def Report.weight (report : Report) : Nat := report.bytes.toNat

/-- A report came on the same day (in UTC) as a time. -/
def Report.sameDay (t : UInt64) (report : Report) : Bool :=
  report.time.toNat / 86400 == t.toNat / 86400

/-- The report of usage that a request is, if it is one of a user. -/
def Request.report (user : List UInt8) (r : Request) : Option Report :=
  match r.call with
  | some (.usage user' bytes _) => if user' = user then some ⟨r.draws.now, bytes⟩ else none
  | _ => none

/-- The reports of a user. -/
def reports (user : List UInt8) (requests : List Request) : List Report :=
  requests.filterMap (Request.report user)

/-- The reports that the counter of a user takes and refuses. -/
def usageLedger (user : List UInt8) (requests : List Request) : Ledger Report :=
  ledger Report.weight (2 ^ 63) (reports user requests)

/-- The bytes that a user reported on the day of a time. -/
def dayBytes (t : UInt64) (user : List UInt8) (requests : List Request) : Nat :=
  weightOf Report.weight (Report.sameDay t) (reports user requests)

/-- A report of usage is answered with these bytes of the day, and they decide on the alert. -/
structure AnswersWith (redis : Redis) (r : Request) (user : List UInt8) (today : Nat) : Prop where
  reply : ∃ month, (serve redis r).1 =
    some (httpOk (usageBody user (redisGetTier redis user) today month))
  alert : Alerted redis (serve redis r).2 user ↔
    0 < (redisGetTier redis user).dailyBytes.toNat ∧
      (redisGetTier redis user).dailyBytes.toNat < today

variable {redis : Redis} {requests : List Request} {r : Request} {user : List UInt8}
  {bytes connSec : UInt64} {n today : Nat}

/-! ## The counter -/

/-- One more request. -/
lemma reports_concat (user : List UInt8) (requests : List Request) (r : Request) :
    reports user (requests ++ [r]) = reports user requests ++ (r.report user).toList := by
  rw [reports, List.filterMap_append, reports]
  cases h : r.report user with
  | none => rw [List.filterMap_cons_none h]; rfl
  | some report => rw [List.filterMap_cons_some h]; rfl

/-- A request changes the counter of a user as their ledger says. -/
lemma serve_counter
    (h : redis.Holds (usageKey user) (cstr "bytes_today")
      ((usageLedger user requests).count Report.weight))
    (hreset : r.call ≠ some (.reset user)) :
    (serve redis r).2.Holds (usageKey user) (cstr "bytes_today")
      ((usageLedger user (requests ++ [r])).count Report.weight) := by
  rw [usageLedger, reports_concat]
  cases hcall : r.call with
  | none =>
    rw [serve_eq_none hcall, Request.report, hcall]
    dsimp only
    rw [Option.toList_none, List.append_nil]
    exact h
  | some call =>
    have hstep := respond_counter r.draws h fun e : call = .reset user => hreset (by rw [hcall, e])
    rw [serve_eq hcall, Request.report, hcall]
    cases call with
    | usage user' bytes connSec =>
      dsimp only at hstep ⊢
      by_cases huser : user' = user
      · rw [if_pos huser] at hstep ⊢
        rw [Option.toList_some, ledger_concat, Ledger.count_add]
        exact hstep
      · rw [if_neg huser] at hstep ⊢
        rw [Option.toList_none, List.append_nil]
        exact hstep
    | subscribe | reset | invoice | tiers | health | refused =>
      rw [Option.toList_none, List.append_nil]
      exact hstep

/-- The counter of a user has the bytes of all reports that it took. -/
lemma run_counter (hreset : ∀ q ∈ requests, q.call ≠ some (.reset user)) :
    (run .empty requests).Holds (usageKey user) (cstr "bytes_today")
      ((usageLedger user requests).count Report.weight) := by
  induction requests using List.reverseRecOn with
  | nil => exact ⟨show 0 < 2 ^ 63 by decide, rfl⟩
  | append_singleton requests r ih =>
    rw [run_concat]
    exact serve_counter (ih fun q hq => hreset q (List.mem_append_left _ hq))
      (hreset r (List.mem_append_right _ List.mem_cons_self))

/-- The value of the counter after a report. -/
lemma count_report (hcall : r.call = some (.usage user bytes connSec)) :
    (usageLedger user (requests ++ [r])).count Report.weight =
      Redis.counterAfter ((usageLedger user requests).count Report.weight) bytes.toNat := by
  have hreport : r.report user = some ⟨r.draws.now, bytes⟩ := by
    rw [Request.report, hcall]
    exact if_pos rfl
  rw [usageLedger, reports_concat, hreport, Option.toList_some, ledger_concat, Ledger.count_add]
  rfl

/-- The answer to a report has the new value of the counter. -/
lemma answersWith_iff (hreset : ∀ q ∈ requests, q.call ≠ some (.reset user))
    (hcall : r.call = some (.usage user bytes connSec)) :
    AnswersWith (run .empty requests) r user today ↔
      (usageLedger user (requests ++ [r])).count Report.weight = today := by
  obtain ⟨hreply, hpublished⟩ := respond_usage r.draws (run .empty requests) user bytes connSec
  rw [today_countUsage (run_counter hreset), ← count_report hcall] at hreply hpublished
  constructor
  · intro h
    obtain ⟨month', hbody⟩ := h.reply
    rw [serve_eq hcall, hreply] at hbody
    exact usageBody_today (congrArg Reply.body (Option.some.inj hbody))
  · rintro rfl
    refine ⟨⟨_, (congrArg Prod.fst (serve_eq hcall)).trans (congrArg some hreply)⟩, ?_⟩
    rw [serve_eq hcall]
    exact alerted_iff hpublished

/-- A report is answered with the bytes of its day, which decide on the alert, exactly if the bytes
that the counter took on other days are as many as those of the day that it refused. As long as all
reports together stay in the range of the counter, no report of another day may have bytes. -/
theorem daily_usage_iff (hreset : ∀ q ∈ requests, q.call ≠ some (.reset user))
    (hcall : r.call = some (.usage user bytes connSec)) :
    let day := Report.sameDay r.draws.now
    let l := usageLedger user (requests ++ [r])
    let answered := AnswersWith (run .empty requests) r user
      (dayBytes r.draws.now user (requests ++ [r]))
    (answered ↔ weightOf Report.weight (fun q => !day q) l.taken = weightOf Report.weight day
      l.refused) ∧
      (weightOf Report.weight (fun _ => true) (reports user (requests ++ [r])) < 2 ^ 63 →
        (answered ↔ ∀ q ∈ reports user (requests ++ [r]), day q = false → q.bytes.toNat = 0)) := by
  intro day l answered
  refine ⟨?_, fun hfits => ?_⟩
  · exact (answersWith_iff hreset hcall).trans (count_ledger_eq_iff day _)
  · exact (answersWith_iff hreset hcall).trans (count_ledger_eq_iff_of_fits hfits day)

/-- The bytes of a report of 70000000 bytes of the user `u`. -/
def sampleBytes : List UInt8 :=
  cstr "POST /billing/usage HTTP/1.1\r\n\r\n\x7b\"user_id\":\"u\",\"bytes\":70000000\x7d"

/-- The report at some time. -/
def sampleReport (t : UInt64) : Request := ⟨⟨t, t⟩, sampleBytes⟩

/-- The sample is a report. -/
lemma call_sampleReport (t : UInt64) : (sampleReport t).call =
    some (.usage (cstr "u") 70000000 0) := by
  have hroute : route (Signaling.cstr (sampleBytes.take (maxReqSize - 1))) = .usage (cstr "u")
    70000000 0 := by
    decide +kernel
  have hbytes : sampleBytes ≠ [] := by decide +kernel
  exact (if_neg hbytes).trans (congrArg some hroute)

lemma no_reset_sampleReport (t : UInt64) : ∀ q ∈ [sampleReport t],
    q.call ≠ some (.reset (cstr "u")) := by
  intro q hq
  rw [List.mem_singleton.mp hq, call_sampleReport]
  exact fun e => Call.noConfusion (Option.some.inj e)

/-- Two reports. -/
lemma reports_sampleReport (t t' : UInt64) :
    reports (cstr "u") ([sampleReport t] ++ [sampleReport t']) = [⟨t, 70000000⟩,
      ⟨t', 70000000⟩] := by
  have hreport : ∀ t, (sampleReport t).report (cstr "u") = some ⟨t, 70000000⟩ := by
    intro t
    rw [Request.report, call_sampleReport]
    exact if_pos rfl
  rw [reports_concat, hreport, reports, List.filterMap_cons_some (hreport t)]
  rfl

/-- Two reports of one day. -/
theorem daily_usage_iff_sample :
    AnswersWith (run .empty [sampleReport 0]) (sampleReport 3600) (cstr "u") 140000000 := by
  have h := daily_usage_iff (no_reset_sampleReport 0) (call_sampleReport 3600)
  rw [dayBytes, reports_sampleReport] at h
  exact (h.2 (by decide)).mpr (by decide)

/-- A report after midnight is answered with the bytes of the day before as well, and it is alerted
although the user is within the limit of the day. -/
theorem midnight_keeps_counter :
    ¬ AnswersWith (run .empty [sampleReport 0]) (sampleReport 86400) (cstr "u")
        (dayBytes 86400 (cstr "u") ([sampleReport 0] ++ [sampleReport 86400])) ∧
      (serve (run .empty [sampleReport 0]) (sampleReport 86400)).1 =
        some (httpOk (usageBody (cstr "u") .free 140000000 140000000)) ∧
      (serve (run .empty [sampleReport 0]) (sampleReport 86400)).2.published =
        [overageAlert (cstr "u") 140000000] ∧
      dayBytes 86400 (cstr "u") ([sampleReport 0] ++ [sampleReport 86400]) = 70000000 ∧
      70000000 < Tier.free.dailyBytes.toNat := by
  refine ⟨?_, by decide +kernel, by decide +kernel, ?_, by decide⟩
  · rw [answersWith_iff (no_reset_sampleReport 0) (call_sampleReport 86400), usageLedger, dayBytes,
      reports_sampleReport]
    decide
  · rw [dayBytes, reports_sampleReport]
    decide

end RoboControl.Billing
