import RoboControl.Base.Bytes
import RoboControl.Base.CString
import RoboControl.Base.Intern

/-!
# Rate limits per key

Model of `include/rate_limit.h`: a limit (`rateLimitCheck`) and the table of limits by key
(`rateTableCheck`). The bucket of a key is chosen by a hash of the whole key, and an entry holds the
first 127 bytes of the key it was made for, which are compared with the whole key. So an entry made
for a longer key is never found by that key again, and may be found by its first 127 bytes
(`Finds`). `one_entry_per_key_iff` says when keys have entries of their own nevertheless.

Pointers to entries are the numbers of their allocations. A call is made at one time, and whether an
entry can be allocated is an argument.
-/

namespace RoboControl.RateLimit
open Base

/-- A limit (C `rc_rate_limit_t`). -/
structure Limit where
  tokens : Float
  maxTokens : Float
  refillRate : Float
  lastRefillMs : Int
  totalAllowed : Int64
  totalDenied : Int64

/-- A new limit (C `rc_rate_limit_init`). -/
def rateLimitInit (maxTokens refillRate : Float) (now : Int) : Limit where
  tokens := maxTokens
  maxTokens := maxTokens
  refillRate := refillRate
  lastRefillMs := now
  totalAllowed := 0
  totalDenied := 0

/-- Whether the limit allows a cost, and the limit afterwards (C `rc_rate_limit_check`). -/
def rateLimitCheck (rl : Limit) (cost : Float) (now : Int) : Bool × Limit :=
  let elapsed := Float.ofInt (now - rl.lastRefillMs) / 1000.0
  let tokens := rl.tokens + elapsed * rl.refillRate
  let tokens := if tokens > rl.maxTokens then rl.maxTokens else tokens
  if tokens ≥ cost then
    (true,
      { rl with
        tokens := tokens - cost, lastRefillMs := now, totalAllowed := rl.totalAllowed + 1 })
  else (false, { rl with tokens := tokens, lastRefillMs := now, totalDenied := rl.totalDenied + 1 })

/-- A pointer to an entry. -/
abbrev Ptr := Nat

/-- An entry (C `rc_rate_entry_t`); its place in a list is in the table. -/
structure RateEntry where
  key : Bytes 128
  limit : Limit
  lastUsed : Int

/-- The table (C `rc_rate_table_t`): the lists of the buckets, the entries by pointer and the number
of allocations. -/
structure RateTable where
  buckets : Nat → List Ptr
  entries : Ptr → RateEntry
  allocated : Nat
  maxTokens : Float
  refillRate : Float

lemma length_keyField (key : List UInt8) : (strncpy 127 key ++ [0]).length = 128 := by
  rw [List.length_append, length_strncpy]
  rfl

/-- The field `key` of a new entry: `strncpy` leaves its last byte zero. -/
def keyField (key : List UInt8) : Bytes 128 := ⟨strncpy 127 key ++ [0], length_keyField key⟩

/-- A new table (C `rc_rate_table_init`); what is at pointers that were not allocated
does not matter. -/
def rateTableInit (maxTokens refillRate : Float) : RateTable where
  buckets _ := []
  entries _ := ⟨.zeros 128, rateLimitInit 0 0 0, 0⟩
  allocated := 0
  maxTokens := maxTokens
  refillRate := refillRate

/-- The bucket of a key (C `rc_rate_key_hash`). -/
def rateKeyHash (key : List UInt8) : UInt32 :=
  key.foldl (fun h b => (h ^^^ b.toUInt32) * 0x01000193) 0x811c9dc5 % 4096

/-- The entry of a key (C `rc_rate_table_get_or_create`). -/
def rateTableGetOrCreate (rt : RateTable) (key : List UInt8) (alloc : Bool) (now : Int) :
    Option Ptr × RateTable :=
  let idx := (rateKeyHash key).toNat
  match (rt.buckets idx).find? fun e => stringIn (rt.entries e).key.toList = key with
  | some e =>
    (some e,
      { rt with entries := Function.update rt.entries e { rt.entries e with lastUsed := now } })
  | none =>
    if alloc = false then (none, rt)
    else
      let e := rt.allocated
      let entry : RateEntry := ⟨keyField key, rateLimitInit rt.maxTokens rt.refillRate now, now⟩
      (some e, { rt with
        entries := Function.update rt.entries e entry
        buckets := Function.update rt.buckets idx (e :: rt.buckets idx)
        allocated := e + 1 })

/-- Whether a key is allowed a cost (C `rc_rate_table_check`). -/
def rateTableCheck (rt : RateTable) (key : List UInt8) (cost : Float) (alloc : Bool) (now : Int) :
    Bool × RateTable :=
  match rateTableGetOrCreate rt key alloc now with
  | (none, rt) => (false, rt)
  | (some e, rt) =>
    let (allowed, limit) := rateLimitCheck (rt.entries e).limit cost now
    (allowed,
      { rt with entries := Function.update rt.entries e { rt.entries e with limit := limit } })

/-! ## Runs -/

/-- A call of `rc_rate_table_check`. -/
structure RateCall where
  key : List UInt8
  cost : Float
  now : Int

/-- What a call did: the entry it acted on, and whether it made it. -/
structure RateEvent where
  key : List UInt8
  entry : Option Ptr
  created : Bool
  deriving DecidableEq

/-- A call in which an entry can be allocated. -/
def rateCall (s : List RateEvent × RateTable) (c : RateCall) : List RateEvent × RateTable :=
  let got := rateTableGetOrCreate s.2 c.key true c.now
  (s.1 ++ [⟨c.key, got.1, decide (got.2.allocated ≠ s.2.allocated)⟩],
    (rateTableCheck s.2 c.key c.cost true c.now).2)

/-- A run of calls on a new table. -/
def rateRun (maxTokens refillRate : Float) (calls : List RateCall) : List RateEvent × RateTable :=
  calls.foldl rateCall ([], rateTableInit maxTokens refillRate)

/-- Calls act on the same entry exactly if they have the same key, and no two entries are
made for one key. -/
def OneEntryPerKey (events : List RateEvent) : Prop :=
  (∀ x ∈ events, ∀ y ∈ events, x.key = y.key ↔ x.entry = y.entry) ∧
  ((events.filter (·.created)).map (·.key)).Nodup

/-! ## What a key finds -/

/-- A key finds the entry that was made for `m`. -/
def Finds (m key : List UInt8) : Prop := rateKeyHash m = rateKeyHash key ∧ m.take 127 = key

instance : DecidableRel Finds := fun _ _ => inferInstanceAs (Decidable (_ ∧ _))

/-- A key finds its own entry if it is not cut. -/
lemma finds_self_iff (key : List UInt8) : Finds key key ↔ key.length < 128 := by
  rw [Finds, and_iff_right rfl, List.take_eq_self_iff]
  omega

/-- The keys that find an entry. -/
lemma finds_iff {m key : List UInt8} : Finds m key ↔ key = m.take 127 ∧
    rateKeyHash key = rateKeyHash m := by
  rw [Finds, and_comm, eq_comm, eq_comm (a := rateKeyHash m)]

/-- Only the key itself finds an entry that it finds. -/
lemma finds_sharp (a b : List UInt8) (ha : Finds a a) (hab : Finds a b) : a = b :=
  ha.2.symm.trans hab.2

/-- The list of a bucket, by the keys that the entries were made for, the newest first. -/
def chain (idx : Nat) : List (List UInt8) → List Ptr
  | [] => []
  | m :: made =>
    if (rateKeyHash m).toNat = idx then made.length :: chain idx made else chain idx made

/-- The table holds entries made for these keys. -/
structure Holds (rt : RateTable) (made : List (List UInt8)) : Prop where
  allocated : rt.allocated = made.length
  buckets : ∀ idx, rt.buckets idx = chain idx made
  text : ∀ {e m}, Intern.owner made e = some m → stringIn (rt.entries e).key.toList = m.take 127

variable {rt : RateTable} {made : List (List UInt8)} {key : List UInt8}

/-- The search along a chain. -/
lemma find_chain {entries : Ptr → RateEntry} (key : List UInt8) (made : List (List UInt8))
    (text : ∀ {e m}, Intern.owner made e = some m → stringIn (entries e).key.toList = m.take 127) :
    ((chain (rateKeyHash key).toNat made).find? fun e => stringIn (entries e).key.toList = key) =
      Intern.find Finds key made := by
  induction made with
  | nil => rfl
  | cons m made ih =>
    have hrest := ih fun h => text (Intern.owner_cons_of_owner h)
    have hm : stringIn (entries made.length).key.toList = m.take 127 :=
      text (by rw [Intern.owner_cons, if_pos rfl])
    rw [chain, Intern.find]
    by_cases hhash : rateKeyHash m = rateKeyHash key
    · rw [if_pos (congrArg UInt32.toNat hhash), List.find?_cons, hm]
      by_cases htake : m.take 127 = key
      · rw [if_pos ⟨hhash, htake⟩, decide_eq_true htake]
      · rw [if_neg fun h => htake h.2, decide_eq_false htake]
        exact hrest
    · rw [if_neg fun h => hhash (UInt32.toNat_inj.mp h), if_neg fun h => hhash h.1]
      exact hrest

/-- The table finds the entry that the keys say. -/
lemma Holds.find_eq (h : Holds rt made) (key : List UInt8) :
    ((rt.buckets (rateKeyHash key).toNat).find? fun e => stringIn (rt.entries e).key.toList = key) =
      Intern.find Finds key made := by
  rw [h.buckets]
  exact find_chain key made h.text

/-- An entry may change except for its key. -/
lemma Holds.update (h : Holds rt made) {e : Ptr} {entry : RateEntry}
    (hkey : entry.key = (rt.entries e).key) :
    Holds { rt with entries := Function.update rt.entries e entry } made := by
  refine ⟨h.allocated, h.buckets, fun {i m} hi => ?_⟩
  dsimp only
  by_cases hie : i = e
  · subst hie
    rw [Function.update_self, hkey]
    exact h.text hi
  · rw [Function.update_of_ne hie]
    exact h.text hi

/-- A new entry is put before the others of its bucket. -/
lemma Holds.push (h : Holds rt made) (hkey : 0 ∉ key) {limit : Limit} {now : Int} :
    Holds { rt with
      entries := Function.update rt.entries rt.allocated ⟨keyField key, limit, now⟩
      buckets := Function.update rt.buckets (rateKeyHash key).toNat
        (rt.allocated :: rt.buckets (rateKeyHash key).toNat)
      allocated := rt.allocated + 1 } (key :: made) := by
  refine ⟨by rw [List.length_cons, h.allocated], fun idx => ?_, fun {i m} hi => ?_⟩
  · dsimp only
    rw [chain]
    split
    · next hidx =>
      subst hidx
      rw [Function.update_self, h.allocated, h.buckets]
    · next hidx => rw [Function.update_of_ne (Ne.symm hidx), h.buckets]
  · dsimp only
    rw [Intern.owner_cons] at hi
    split at hi
    · next hlen =>
      cases hi
      rw [hlen, h.allocated, Function.update_self]
      exact stringIn_strncpy 127 hkey
    · next hlen =>
      rw [h.allocated, Function.update_of_ne hlen]
      exact h.text hi

/-- A call acts on the entry that the keys say, and so does the table afterwards. -/
lemma Holds.getOrCreate (h : Holds rt made) (hkey : 0 ∉ key) (now : Int) :
    (rateTableGetOrCreate rt key true now).1 = some (Intern.enter Finds made key).1 ∧
    Holds (rateTableGetOrCreate rt key true now).2 (Intern.enter Finds made key).2 := by
  rw [rateTableGetOrCreate, Intern.enter]
  dsimp only
  rw [h.find_eq key]
  cases Intern.find Finds key made with
  | some e => exact ⟨rfl, h.update rfl⟩
  | none =>
    rw [if_neg Bool.noConfusion]
    exact ⟨congrArg some h.allocated, h.push hkey⟩

/-- A call of `rc_rate_table_check`. -/
lemma Holds.check (h : Holds rt made) (hkey : 0 ∉ key) (cost : Float) (now : Int) :
    Holds (rateTableCheck rt key cost true now).2 (Intern.enter Finds made key).2 := by
  obtain ⟨hentry, hgot⟩ := h.getOrCreate hkey now
  rw [rateTableCheck]
  generalize rateTableGetOrCreate rt key true now = got at hentry hgot ⊢
  rcases got with ⟨_ | e, rt'⟩
  · cases hentry
  · exact hgot.update rfl

/-! ## Runs of the table are runs of the keys -/

/-- A run of the table has done what the run of the keys says. -/
structure Follows (s : List RateEvent × RateTable) (t : List (List UInt8 × ℕ) × List (List UInt8)) :
    Prop where
  holds : Holds s.2 t.2
  acted : s.1.map (fun x => (x.key, x.entry)) = t.1.map fun x => (x.1, some x.2)
  created : (s.1.filter (·.created)).map (·.key) = t.2.reverse

/-- One call. -/
lemma Follows.call {s : List RateEvent × RateTable} {t : List (List UInt8 × ℕ) × List (List UInt8)}
    (h : Follows s t) {c : RateCall} (hkey : 0 ∉ c.key) :
    Follows (rateCall s c) (Intern.call Finds t c.key) := by
  obtain ⟨hentry, hgot⟩ := h.holds.getOrCreate hkey c.now
  refine ⟨h.holds.check hkey c.cost c.now, ?_, ?_⟩
  · rw [rateCall, Intern.call, List.map_append, List.map_append, h.acted, List.map_singleton,
      List.map_singleton, hentry]
  · have hcreated : decide ((Intern.enter Finds t.2 c.key).2.length ≠ t.2.length) =
        (Intern.find Finds c.key t.2).isNone := by
      rw [Intern.enter]
      cases Intern.find Finds c.key t.2 with
      | some e => simp
      | none => simp
    rw [rateCall, Intern.call, List.filter_append, List.map_append, h.created, hgot.allocated,
      h.holds.allocated, hcreated, Intern.enter]
    cases Intern.find Finds c.key t.2 with
    | some e => simp
    | none => simp

/-- A run. -/
lemma follows_run (maxTokens refillRate : Float) (calls : List RateCall)
    (hkeys : ∀ c ∈ calls, 0 ∉ c.key) :
    Follows (rateRun maxTokens refillRate calls) (Intern.run Finds (calls.map (·.key))) := by
  induction calls using List.reverseRecOn with
  | nil => exact ⟨⟨rfl, fun _ => rfl, fun h => by cases h⟩, rfl, rfl⟩
  | append_singleton calls c ih =>
    have hcalls : ∀ c ∈ calls, 0 ∉ c.key := fun c hc => hkeys c (List.mem_append_left _ hc)
    have hc : 0 ∉ c.key := hkeys c (List.mem_append_right _ List.mem_cons_self)
    rw [rateRun, List.foldl_append, List.map_append, List.map_singleton, Intern.run_concat]
    exact (ih hcalls).call hc

/-- Calls have entries of their own exactly if the keys do. -/
lemma Follows.acted_iff {s : List RateEvent × RateTable}
    {t : List (List UInt8 × ℕ) × List (List UInt8)} (h : Follows s t) :
    (∀ x ∈ s.1, ∀ y ∈ s.1, x.key = y.key ↔ x.entry = y.entry) ↔ Intern.Faithful t.1 := by
  have hevents : (∀ x ∈ s.1, ∀ y ∈ s.1, x.key = y.key ↔ x.entry = y.entry) ↔
      ∀ u ∈ s.1.map (fun x => (x.key, x.entry)), ∀ v ∈ s.1.map (fun x => (x.key, x.entry)),
        u.1 = v.1 ↔ u.2 = v.2 := by
    simp only [List.forall_mem_map]
  rw [hevents, h.acted]
  simp only [List.forall_mem_map, Option.some_inj, Intern.Faithful]

/-- In a run of calls keys have entries of their own, and no two entries are made for one key,
exactly if no key of more than 127 bytes comes back or has its entry found by a key that is its
first 127 bytes. -/
theorem one_entry_per_key_iff (maxTokens refillRate : Float) (calls : List RateCall)
    (hkeys : ∀ c ∈ calls, 0 ∉ c.key) :
    OneEntryPerKey (rateRun maxTokens refillRate calls).1 ↔
      (calls.map (·.key)).Pairwise fun a b =>
        128 ≤ a.length → b ≠ a ∧ ¬ (b = a.take 127 ∧ rateKeyHash b = rateKeyHash a) := by
  have hrun := follows_run maxTokens refillRate calls hkeys
  have hcond : ∀ {a b : List UInt8}, (¬ Finds a a → b ≠ a ∧ ¬ Finds a b) ↔
      (128 ≤ a.length → b ≠ a ∧ ¬ (b = a.take 127 ∧ rateKeyHash b = rateKeyHash a)) := by
    intro a b
    rw [finds_self_iff, not_lt, finds_iff]
  have hfaithful := Intern.faithful_run_iff finds_sharp (calls.map (·.key))
  rw [← hrun.acted_iff] at hfaithful
  rw [OneEntryPerKey, hrun.created, List.nodup_reverse]
  constructor
  · rintro ⟨hacted, -⟩
    exact (hfaithful.mp hacted).imp hcond.mp
  · intro hpair
    have hacted := hfaithful.mpr (hpair.imp hcond.mpr)
    exact ⟨hacted, (Intern.inv_run _).nodup (hrun.acted_iff.mp hacted)⟩

/-- The keys `a`, `b` and `a`. -/
theorem one_entry_per_key_iff_sample :
    OneEntryPerKey (rateRun 10 1 [⟨[97], 1, 0⟩, ⟨[98], 1, 5⟩, ⟨[97], 1, 7⟩]).1 :=
  (one_entry_per_key_iff 10 1 [⟨[97], 1, 0⟩, ⟨[98], 1, 5⟩, ⟨[97], 1, 7⟩] (by simp)).mpr (by simp)

/-- A key of 128 bytes gets a new entry with every call. -/
theorem long_key_new_entries :
    (rateRun 10 1 [⟨List.replicate 128 97, 1, 0⟩, ⟨List.replicate 128 97, 1, 5⟩]).1 =
      [⟨List.replicate 128 97, some 0, true⟩, ⟨List.replicate 128 97, some 1, true⟩] ∧
    ¬ OneEntryPerKey (rateRun 10 1 [⟨List.replicate 128 97, 1, 0⟩,
      ⟨List.replicate 128 97, 1, 5⟩]).1 := by
  have hrun : (rateRun 10 1 [⟨List.replicate 128 97, 1, 0⟩, ⟨List.replicate 128 97, 1, 5⟩]).1 =
      [⟨List.replicate 128 97, some 0, true⟩, ⟨List.replicate 128 97, some 1, true⟩] := by
    decide +kernel
  refine ⟨hrun, fun h => ?_⟩
  rw [hrun] at h
  exact absurd ((h.1 _ List.mem_cons_self _ (List.mem_cons_of_mem _ List.mem_cons_self)).mp rfl)
    (by decide)

end RoboControl.RateLimit
