import RoboControl.Billing.Usage

/-!
# Expiry of subscriptions

Which tier a report of usage is judged by after any requests. A subscription stores `expires_at` and
`active`, but nothing reads them, so the tier is that of the latest subscription for ever
(`run_tier`). It is the one the user is entitled to exactly if this subscription has not expired or
is for `TIER_FREE` (`subscription_expiry_iff`).
-/

namespace RoboControl.Billing
open Base Crypto Auth

/-- A subscription: its tier, and when it expires. -/
structure Subscription where
  tier : Tier
  expiresAt : UInt64
  deriving DecidableEq

/-- The subscription that a request is, if it is one of a user. -/
def Request.subscription (user : List UInt8) (r : Request) : Option Subscription :=
  match r.call with
  | some (.subscribe user' tier) =>
    if user' = user then some ⟨tier, Billing.expiresAt r.draws⟩ else none
  | _ => none

/-- The latest subscription of a user. -/
def latest (user : List UInt8) (requests : List Request) : Option Subscription :=
  (requests.filterMap (Request.subscription user)).getLast?

/-- The tier that a user is entitled to at a time. -/
def entitled (sub : Option Subscription) (t : UInt64) : Tier :=
  match sub with
  | none => .free
  | some sub => if t < sub.expiresAt then sub.tier else .free

/-- A report of usage is answered with a tier, and its limit decides on the alert. -/
def UsesTier (redis : Redis) (r : Request) (user : List UInt8) (tier : Tier) : Prop :=
  ∃ today month, (serve redis r).1 = some (httpOk (usageBody user tier today month)) ∧
    (Alerted redis (serve redis r).2 user ↔
      0 < tier.dailyBytes.toNat ∧ tier.dailyBytes.toNat < today)

variable {redis : Redis} {requests : List Request} {r : Request} {user : List UInt8}
  {bytes connSec : UInt64} {tier : Tier}

/-- The last request. -/
lemma latest_concat (user : List UInt8) (requests : List Request) (r : Request) :
    latest user (requests ++ [r]) = (r.subscription user).or (latest user requests) := by
  rw [latest, List.filterMap_append, latest]
  cases h : r.subscription user with
  | none => rw [List.filterMap_cons_none h, List.filterMap_nil, List.append_nil, Option.none_or]
  | some sub =>
    rw [List.filterMap_cons_some h, List.filterMap_nil, List.getLast?_concat, Option.some_or]

/-- A request changes the tier of a user as their latest subscription says. -/
lemma serve_tier (h : redisGetTier redis user = ((latest user requests).map Subscription.tier).getD
    .free) :
    redisGetTier (serve redis r).2 user =
      ((latest user (requests ++ [r])).map Subscription.tier).getD .free := by
  rw [latest_concat]
  cases hcall : r.call with
  | none =>
    rw [serve_eq_none hcall, Request.subscription, hcall]
    exact h
  | some call =>
    rw [serve_eq hcall, respond_tier, Request.subscription, hcall]
    cases call with
    | subscribe user' tier =>
      dsimp only
      by_cases huser : user' = user
      · rw [if_pos huser, if_pos huser]
        rfl
      · rw [if_neg huser, if_neg huser]
        exact h
    | usage | reset | invoice | tiers | health | refused => exact h

/-- The tier of a user is that of their latest subscription. -/
lemma run_tier (user : List UInt8) (requests : List Request) :
    redisGetTier (run .empty requests) user = ((latest user requests).map Subscription.tier).getD
      .free := by
  induction requests using List.reverseRecOn with
  | nil => rfl
  | append_singleton requests r ih =>
    rw [run_concat]
    exact serve_tier ih

/-- A report of usage is judged by the tier in Redis. -/
lemma usesTier_iff (hcall : r.call = some (.usage user bytes connSec)) :
    UsesTier redis r user tier ↔ redisGetTier redis user = tier := by
  obtain ⟨hreply, hpublished⟩ := respond_usage r.draws redis user bytes connSec
  rw [UsesTier, serve_eq hcall, hreply]
  constructor
  · rintro ⟨today, month, hbody, -⟩
    exact usageBody_tier (congrArg Reply.body (Option.some.inj hbody))
  · rintro rfl
    exact ⟨_, _, rfl, alerted_iff hpublished⟩

/-- A report is judged by the tier that the user is entitled to exactly if their latest subscription
is for `TIER_FREE` or has not expired. -/
theorem subscription_expiry_iff (hcall : r.call = some (.usage user bytes connSec)) :
    UsesTier (run .empty requests) r user (entitled (latest user requests) r.draws.now) ↔
      ∀ sub, latest user requests = some sub → sub.tier = .free ∨ r.draws.now < sub.expiresAt := by
  rw [usesTier_iff hcall, run_tier]
  cases latest user requests with
  | none =>
    refine iff_of_true rfl fun sub e => ?_
    cases e
  | some sub =>
    rw [entitled, Option.map_some, Option.getD_some]
    constructor
    · intro h sub' e
      cases e
      by_cases ht : r.draws.now < sub.expiresAt
      · exact .inr ht
      · rw [if_neg ht] at h
        exact .inl h
    · intro h
      rcases h sub rfl with hfree | ht
      · rw [hfree, ite_self]
      · rw [if_pos ht]

/-- The bytes of a subscription of the user `u` for the tier `pro`. -/
def subscribeBytes : List UInt8 :=
  cstr "POST /billing/subscribe HTTP/1.1\r\n\r\n\x7b\"user_id\":\"u\",\"tier\":\"pro\"\x7d"

/-- The subscription at time 0. -/
def sampleSubscription : Request := ⟨⟨0, 0⟩, subscribeBytes⟩

lemma latest_sampleSubscription : latest (cstr "u") [sampleSubscription] =
    some ⟨.pro, 2592000⟩ := by
  have hroute : sampleSubscription.call = some (.subscribe (cstr "u") .pro) := by decide +kernel
  have hsub : sampleSubscription.subscription (cstr "u") = some ⟨.pro, 2592000⟩ := by
    rw [Request.subscription, hroute]
    exact if_pos rfl
  rw [latest, List.filterMap_cons_some hsub]
  rfl

/-- A second before the end of a subscription. -/
theorem subscription_expiry_iff_sample :
    UsesTier (run .empty [sampleSubscription]) (sampleReport 2591999) (cstr "u") .pro := by
  have h : UsesTier (run .empty [sampleSubscription]) (sampleReport 2591999) (cstr "u")
      (entitled (latest (cstr "u") [sampleSubscription]) 2591999) := by
    refine (subscription_expiry_iff (call_sampleReport 2591999)).mpr fun sub e => .inr ?_
    rw [latest_sampleSubscription] at e
    rw [← Option.some.inj e]
    decide
  rw [latest_sampleSubscription] at h
  exact h

/-- A report a day after the expiry is still judged by the tier `pro`. -/
theorem expired_subscription_used :
    latest (cstr "u") [sampleSubscription] = some ⟨.pro, 2592000⟩ ∧
      ¬ UsesTier (run .empty [sampleSubscription]) (sampleReport 2678400) (cstr "u")
        (entitled (latest (cstr "u") [sampleSubscription]) 2678400) ∧
      (serve (run .empty [sampleSubscription]) (sampleReport 2678400)).1 =
        some (httpOk (usageBody (cstr "u") .pro 70000000 70000000)) := by
  refine ⟨latest_sampleSubscription, ?_, by decide +kernel⟩
  rw [usesTier_iff (call_sampleReport 2678400), run_tier, latest_sampleSubscription]
  decide

end RoboControl.Billing
