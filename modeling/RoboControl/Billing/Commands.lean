import RoboControl.Billing.Server

/-!
# What the requests of the billing service write

The effect of each request on the tier of a user (`respond_tier`) and on the counter `bytes_today`
(`respond_counter`), and what a report of usage answers and publishes (`respond_usage`). Later
proofs do not look into the hashes of Redis.
-/

namespace RoboControl.Billing
open Base Crypto Auth Function

variable {redis : Redis} {draws : Draws} {key key' field field' user user' : List UInt8} {n m : Nat}

/-! ## Commands -/

namespace Redis

variable {fields : List (List UInt8 × List UInt8)}

/-- Other fields stay. -/
lemma foldl_setField_other
    (h : field ∉ fields.map Prod.fst) (hash : List UInt8 → Option (List UInt8)) :
    fields.foldl setField hash field = hash field := by
  induction fields generalizing hash with
  | nil => rfl
  | cons f fields ih =>
    rw [List.map_cons, List.mem_cons, not_or] at h
    rw [List.foldl_cons, ih h.2]
    exact update_of_ne h.1 _ _

/-- `HSET` changes the hash of its key. -/
lemma hget_hset_self (redis : Redis) (key field : List UInt8)
    (fields : List (List UInt8 × List UInt8)) :
    (redis.hset key fields).hget key field = fields.foldl setField (redis.hashes key) field :=
  congrFun (update_self key _ redis.hashes) field

/-- `HSET` leaves other fields alone. -/
lemma hget_hset_other
    (h : key' ≠ key ∨ field ∉ fields.map Prod.fst) :
    (redis.hset key fields).hget key' field = redis.hget key' field := by
  by_cases hkey : key' = key
  · subst hkey
    rw [hget_hset_self]
    exact foldl_setField_other (h.resolve_left fun hne => hne rfl) _
  · exact congrFun (update_of_ne hkey _ redis.hashes) field

/-- The field that `HSET` writes first. -/
lemma hget_hset_head {value : List UInt8}
    (h : field ∉ fields.map Prod.fst) :
    (redis.hset key ((field, value) :: fields)).hget key field = some value := by
  rw [hget_hset_self, List.foldl_cons, foldl_setField_other h]
  exact update_self _ _ _

lemma hget_sadd (redis : Redis) (user key field : List UInt8) :
    (redis.sadd user).hget key field = redis.hget key field := rfl

/-- `HINCRBY` does nothing or writes its field. -/
lemma hincrby_cases (redis : Redis) (key field increment : List UInt8) :
    redis.hincrby key field increment = redis ∨
      ∃ value, redis.hincrby key field increment = redis.hset key [(field, value)] := by
  rw [hincrby]
  split
  · split
    · exact .inr ⟨_, rfl⟩
    · exact .inl rfl
  · exact .inl rfl

/-- Other counters stay. -/
lemma hget_hincrby_other {increment : List UInt8} (h : key' ≠ key ∨ field' ≠ field) :
    (redis.hincrby key field increment).hget key' field' = redis.hget key' field' := by
  rcases redis.hincrby_cases key field increment with e | ⟨value, e⟩
  · rw [e]
  · rw [e]
    refine hget_hset_other (h.imp_right fun hne => ?_)
    rw [List.map_singleton]
    exact fun hmem => hne (List.mem_singleton.mp hmem)

lemma published_hincrby (redis : Redis) (key field increment : List UInt8) :
    (redis.hincrby key field increment).published = redis.published := by
  rcases redis.hincrby_cases key field increment with e | ⟨value, e⟩
  · rw [e]
  · rw [e]
    rfl

/-- A field counts up to a number; a field that is missing counts 0. -/
structure Holds (redis : Redis) (key field : List UInt8) (n : Nat) : Prop where
  lt : n < 2 ^ 63
  value : (redis.hget key field).getD (digits 0) = digits n

/-- Fields that are read alike count alike. -/
lemma Holds.congr {redis' : Redis} (h : redis.Holds key field n)
    (e : redis'.hget key field = redis.hget key field) : redis'.Holds key field n :=
  ⟨h.lt, by rw [e, h.value]⟩

/-- A counter after `HINCRBY`, which adds what stays in the range, and nothing else. -/
def counterAfter (n m : Nat) : Nat := if n + m < 2 ^ 63 then n + m else n

/-- A counter is incremented. -/
lemma Holds.hincrby (h : redis.Holds key field n) (m : Nat) :
    (redis.hincrby key field (digits m)).Holds key field (counterAfter n m) := by
  rw [counterAfter, Redis.hincrby, h.value, string2ll_digits, string2ll_digits, if_pos h.lt]
  by_cases hm : m < 2 ^ 63
  · rw [if_pos hm]
    dsimp only
    by_cases hsum : n + m < 2 ^ 63
    · rw [if_pos hsum, if_pos (by omega), ← Nat.cast_add, signedDigits_natCast]
      exact ⟨hsum, by rw [hget_hset_head List.not_mem_nil, Option.getD_some]⟩
    · rw [if_neg hsum, if_neg (by omega)]
      exact h
  · rw [if_neg hm, if_neg (by omega)]
    exact h

/-- A counter is read as the number it counts up to. -/
lemma Holds.strtoull (h : redis.Holds key field n) :
    ((redis.hget key field).elim 0 Base.strtoull).toNat = n := by
  have hread := strtoull_digits (h.lt.trans (by decide : 2 ^ 63 < 2 ^ 64))
  rw [← h.value] at hread
  cases hfield : redis.hget key field with
  | none =>
    rw [hfield] at hread
    exact Eq.trans (by decide +kernel) hread
  | some text =>
    rw [hfield] at hread
    exact hread

end Redis

/-! ## Keys -/

/-- Subscriptions and usage have different keys. -/
lemma subKey_ne_usageKey (user user' : List UInt8) : subKey user ≠ usageKey user' := by
  intro h
  have htake : ∀ {s t : List UInt8}, 9 ≤ s.length → (s ++ t).take 9 = s.take 9 := fun hs =>
    List.take_append_of_le_length hs
  have h9 := congrArg (List.take 9) h
  rw [subKey, usageKey, htake (by decide +kernel), htake (by decide +kernel)] at h9
  exact absurd h9 (by decide +kernel)

lemma subKey_inj : subKey user = subKey user' ↔ user = user' := List.append_right_inj _

lemma usageKey_inj : usageKey user = usageKey user' ↔ user = user' := List.append_right_inj _

/-! ## Functions -/

variable {bytes connSec : UInt64}

/-- Counting usage writes the usage of the user only. -/
lemma hget_countUsage_other (h : key ≠ usageKey user) :
    (countUsage draws redis user bytes connSec).hget key field = redis.hget key field := by
  rw [countUsage, Redis.hget_hset_other (.inl h), Redis.hget_hincrby_other (.inl h),
    Redis.hget_hincrby_other (.inl h), Redis.hget_hincrby_other (.inl h)]

/-- Publishing changes no hash. -/
lemma hget_checkOverage (redis : Redis) (user key field : List UInt8) :
    (checkOverage redis user).hget key field = redis.hget key field := by
  rw [checkOverage]
  split
  · rfl
  · rfl

/-- The check does not change the usage. -/
lemma redisGetUsage_checkOverage (redis : Redis) (user user' : List UInt8) :
    redisGetUsage (checkOverage redis user) user' = redisGetUsage redis user' := by
  simp only [redisGetUsage, hget_checkOverage]

/-- Counting publishes nothing. -/
lemma published_countUsage (draws : Draws) (redis : Redis) (user : List UInt8)
    (bytes connSec : UInt64) :
    (countUsage draws redis user bytes connSec).published = redis.published := by
  rw [countUsage]
  exact (Redis.published_hincrby ..).trans
    ((Redis.published_hincrby ..).trans (Redis.published_hincrby ..))

/-- An alert is published beyond the limit. -/
lemma published_checkOverage (redis : Redis) (user : List UInt8) :
    let limit := (redisGetTier redis user).dailyBytes.toNat
    let today := (redisGetUsage redis user).bytesToday.toNat
    (checkOverage redis user).published = redis.published ++
      if 0 < limit ∧ limit < today then [overageAlert user today] else [] := by
  intro limit today
  have hover : (redisGetTier redis user).dailyBytes > 0 ∧
      (redisGetUsage redis user).bytesToday > (redisGetTier redis user).dailyBytes ↔ 0 < limit ∧
        limit < today :=
    and_congr UInt64.lt_iff_toNat_lt UInt64.lt_iff_toNat_lt
  rw [checkOverage]
  by_cases h : 0 < limit ∧ limit < today
  · rw [if_pos h, if_pos (hover.mpr h)]
    rfl
  · rw [if_neg h, if_neg (mt hover.mp h), List.append_nil]

/-- The counter `bytes_today` counts the bytes. -/
lemma holds_countUsage
    (h : redis.Holds (usageKey user) (cstr "bytes_today") n) :
    (countUsage draws redis user bytes connSec).Holds (usageKey user) (cstr "bytes_today")
      (Redis.counterAfter n bytes.toNat) := by
  refine (h.hincrby bytes.toNat).congr ?_
  have hday : cstr "bytes_today" ∉ [cstr "last_day"] := by decide +kernel
  rw [countUsage, Redis.hget_hset_other (.inr hday),
    Redis.hget_hincrby_other (.inr (by decide +kernel)),
      Redis.hget_hincrby_other (.inr (by decide +kernel))]

/-- The counter is read after a report. -/
lemma today_countUsage
    (h : redis.Holds (usageKey user) (cstr "bytes_today") n) :
    (redisGetUsage (countUsage draws redis user bytes connSec) user).bytesToday.toNat =
      Redis.counterAfter n bytes.toNat :=
  (holds_countUsage h).strtoull

/-- A hash that is read alike has the same tier. -/
lemma redisGetTier_congr {redis' : Redis}
    (h : redis'.hget (subKey user) (cstr "tier") = redis.hget (subKey user) (cstr "tier")) :
    redisGetTier redis' user = redisGetTier redis user := by
  rw [redisGetTier, redisGetTier, h]

/-- The tier that a subscription stores is read back. -/
lemma ofCode_atoi_code (tier : Tier) : Tier.ofCode (atoi (digits tier.code)) = tier := by
  have hcode : tier.code < 2 ^ 31 := by cases tier <;> decide
  rw [atoi_digits hcode]
  cases tier <;> rfl

variable {tier : Tier}

/-- A subscription sets the tier of its user. -/
lemma redisGetTier_setSubscription {expires : UInt64} :
    redisGetTier (redisSetSubscription draws redis user tier expires) user = tier := by
  have hfields : cstr "tier" ∉ [cstr "subscribed_at", cstr "expires_at", cstr "active"] := by
    decide +kernel
  rw [redisGetTier, redisSetSubscription, Redis.hget_sadd, Redis.hget_hset_head hfields]
  exact ofCode_atoi_code tier

/-- A subscription writes the subscription of its user only. -/
lemma hget_setSubscription_other {expires : UInt64} (h : key ≠ subKey user) :
    (redisSetSubscription draws redis user tier expires).hget key field = redis.hget key field := by
  rw [redisSetSubscription, Redis.hget_sadd, Redis.hget_hset_other (.inl h)]

/-- The tier of a user changes with their subscriptions only. -/
lemma respond_tier (draws : Draws) (redis : Redis) (call : Call) (user : List UInt8) :
    redisGetTier (respond draws redis call).2 user =
      match call with
      | .subscribe user' tier => if user' = user then tier else redisGetTier redis user
      | _ => redisGetTier redis user := by
  cases call with
  | subscribe user' tier =>
    dsimp only [respond]
    split
    · next e =>
      subst e
      exact redisGetTier_setSubscription
    · next hne =>
      exact redisGetTier_congr (hget_setSubscription_other fun e => hne (subKey_inj.mp e).symm)
  | usage user' bytes connSec =>
    refine redisGetTier_congr ?_
    exact (hget_checkOverage ..).trans (hget_countUsage_other (subKey_ne_usageKey user user'))
  | reset user' =>
    exact redisGetTier_congr (Redis.hget_hset_other (.inl (subKey_ne_usageKey user user')))
  | invoice | tiers | health | refused => rfl

/-- The counter of a user changes with their reports and resets only. -/
lemma respond_counter (draws : Draws) {call : Call}
    (h : redis.Holds (usageKey user) (cstr "bytes_today") n) (hreset : call ≠ .reset user) :
    (respond draws redis call).2.Holds (usageKey user) (cstr "bytes_today")
      (match call with
      | .usage user' bytes _ => if user' = user then Redis.counterAfter n bytes.toNat else n
      | _ => n) := by
  cases call with
  | subscribe user' tier =>
    exact h.congr (hget_setSubscription_other (subKey_ne_usageKey user' user).symm)
  | usage user' bytes connSec =>
    dsimp only
    split
    · next e =>
      subst e
      exact (holds_countUsage h).congr (hget_checkOverage ..)
    · next hne =>
      exact h.congr ((hget_checkOverage ..).trans
        (hget_countUsage_other fun e => hne (usageKey_inj.mp e).symm))
  | reset user' =>
    refine h.congr (Redis.hget_hset_other (.inl fun e => ?_))
    exact hreset (congrArg Call.reset (usageKey_inj.mp e).symm)
  | invoice | tiers | health | refused => exact h

/-- What a report of usage answers and publishes. -/
lemma respond_usage (draws : Draws) (redis : Redis) (user : List UInt8) (bytes connSec : UInt64) :
    let tier := redisGetTier redis user
    let u := redisGetUsage (countUsage draws redis user bytes connSec) user
    (respond draws redis (.usage user bytes connSec)).1 =
        httpOk (usageBody user tier u.bytesToday.toNat u.bytesThisMonth.toNat) ∧
      (respond draws redis (.usage user bytes connSec)).2.published = redis.published ++
        if 0 < tier.dailyBytes.toNat ∧ tier.dailyBytes.toNat < u.bytesToday.toNat then
          [overageAlert user u.bytesToday.toNat] else [] := by
  intro tier u
  have htier : redisGetTier (countUsage draws redis user bytes connSec) user = tier :=
    redisGetTier_congr (hget_countUsage_other (subKey_ne_usageKey user user))
  have hpublished := published_checkOverage (countUsage draws redis user bytes connSec) user
  rw [htier, published_countUsage] at hpublished
  refine ⟨?_, hpublished⟩
  rw [respond.eq_def]
  dsimp only
  rw [redisAddUsage, redisGetUsage_checkOverage, redisGetTier_congr (hget_checkOverage ..), htier]

/-! ## Answers -/

/-- An overage alert for a user was published. -/
def Alerted (redis redis' : Redis) (user : List UInt8) : Prop :=
  ∃ bytes, redis'.published = redis.published ++ [overageAlert user bytes]

/-- When an alert is published. -/
lemma alerted_iff {redis' : Redis} {c : Prop} [Decidable c]
    (h : redis'.published = redis.published ++ if c then [overageAlert user n] else []) :
    Alerted redis redis' user ↔ c := by
  constructor
  · rintro ⟨bytes, e⟩
    by_contra hc
    rw [e, if_neg hc] at h
    exact List.cons_ne_nil _ _ (List.append_cancel_left h)
  · intro hc
    exact ⟨n, by rw [h, if_pos hc]⟩

/-- The names of the tiers start with different bytes. -/
lemma Tier.name_head_inj {tier' : Tier} {s t : List UInt8}
    (h : (tier.name ++ s).head? = (tier'.name ++ t).head?) : tier = tier' := by
  have hhead : ∀ (tier : Tier) (s : List UInt8), (tier.name ++ s).head? = tier.name.head? := by
    intro tier s
    cases tier <;> rfl
  rw [hhead, hhead] at h
  cases tier <;> cases tier' <;> first | rfl | exact absurd h (by decide)

/-- The tier that an answer shows. -/
lemma usageBody_tier {tier' : Tier} {month month' : Nat}
    (h : usageBody user tier n month = usageBody user tier' m month') : tier = tier' := by
  simp only [usageBody, List.append_assoc] at h
  have hname := List.append_cancel_left (List.append_cancel_left (List.append_cancel_left h))
  exact Tier.name_head_inj (congrArg List.head? hname)

/-- The bytes that an answer shows. -/
lemma usageBody_today {month month' : Nat}
    (h : usageBody user tier n month = usageBody user tier m month') : n = m := by
  have hcomma : cstr ",\"bytes_month\":" = 44 :: cstr "\"bytes_month\":" := by decide +kernel
  simp only [usageBody, List.append_assoc] at h
  have htoday := List.append_cancel_left (List.append_cancel_left (List.append_cancel_left
    (List.append_cancel_left (List.append_cancel_left h))))
  rw [hcomma] at htoday
  exact digits_append_inj (by decide) (by decide) htoday

end RoboControl.Billing
