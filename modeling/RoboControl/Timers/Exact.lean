import RoboControl.Timers.Agenda

/-!
# When timers are on time

The cursors of the wheel start at 0 whatever the time is, and are never reduced. The cascade with
number `j` of a loop is made at the tick `cascadeTick start j` and empties slot `j` of level 1, and
the one with number 255 also slot 0 of level 2; the one with number 256 would access the wheel out
of bounds, so that the loop runs up to `horizon start` at most. A timer that is put into a slot of
level 1 or 2 by its absolute time is therefore on time only if the cascade of that slot is the last
one before its expiry time. `Punctual` is this condition on a call of `rc_timer_add`, and `Placed`
the invariant that follows from it.
-/

namespace RoboControl.Timers
open Base Function

/-! ## Cascades -/

/-- The number of the first multiple of the slots that is not before the start. -/
def firstWrap (start : UInt64) : Nat := (start.toNat + (timerSlots - 1)) / timerSlots

/-- The tick of the cascade with number `j`. -/
def cascadeTick (start : UInt64) (j : Nat) : Nat := timerSlots * (firstWrap start + j)

/-- The tick at which the cursor of level 1 leaves the wheel. -/
def horizon (start : UInt64) : Nat := cascadeTick start timerSlots

/-- The slots that the cascade with number `j` empties. -/
def Emptied (key : Nat × Nat) (j : Nat) : Prop := key = (1, j) ∨ key = (2, 0) ∧ j = timerSlots - 1

/-- A timer with expiry time `e` is in a slot that is reached in time. The next tick is `n`, and `m`
cascades have been made. -/
def Placed (start : UInt64) (n m : Nat) (key : Nat × Nat) (e : UInt64) : Prop :=
  (key = (0, e.toNat % timerSlots) ∧ n ≤ e.toNat ∧ e.toNat < n + timerSlots) ∨
  (∃ j, Emptied key j ∧ m ≤ j ∧ cascadeTick start j < e.toNat ∧
    e.toNat ≤ cascadeTick start j + timerSlots) ∨
  horizon start ≤ e.toNat

/-- The condition on a call of `rc_timer_add` for a one-shot timer: it is due beyond the
horizon; or its delay is below the slots of level 0, and not zero in a callback; or the slot of
level 1 it is put into is emptied by the last cascade before its expiry time; or it is put into
slot 0 of level 2. -/
def Added.Punctual (start : UInt64) (a : Added) : Prop :=
  a.intervalMs = 0 →
    horizon start ≤ a.atMs.toNat + a.delayMs.toNat ∨
    (a.delayMs.toNat < timerSlots ∧ (a.inCallback = true → 0 < a.delayMs.toNat)) ∨
    (timerSlots ≤ a.delayMs.toNat ∧ a.delayMs.toNat < timerSlots * timerSlots ∧
      cascadeTick start ((a.atMs.toNat + a.delayMs.toNat) / timerSlots % timerSlots) <
        a.atMs.toNat + a.delayMs.toNat ∧
      a.atMs.toNat + a.delayMs.toNat ≤
        cascadeTick start ((a.atMs.toNat + a.delayMs.toNat) / timerSlots % timerSlots) +
          timerSlots) ∨
    (timerSlots * timerSlots ≤ a.delayMs.toNat ∧
      a.delayMs.toNat < timerSlots * timerSlots * timerSlots ∧
      (a.atMs.toNat + a.delayMs.toNat) / (timerSlots * timerSlots) % timerSlots = 0)

instance (start : UInt64) (a : Added) : Decidable (a.Punctual start) := by
  unfold Added.Punctual
  infer_instance

/-- The cursors of a loop, by its time. -/
structure Clock (start : UInt64) (loop : EventLoop) : Prop where
  ge : start.toNat ≤ loop.currentMs.toNat
  le : loop.currentMs.toNat ≤ cascadeTick start (loop.wheelTicks 1).toNat
  lt : cascadeTick start (loop.wheelTicks 1).toNat < loop.currentMs.toNat + timerSlots
  le_slots : (loop.wheelTicks 1).toNat ≤ timerSlots
  second : (loop.wheelTicks 1).toNat < timerSlots → loop.wheelTicks 2 = 0

/-! ## Places -/

/-- The slot of a time that is not past, by the distance. -/
lemma timerSlot_eq {c e : UInt64} (h : c.toNat ≤ e.toNat) :
    timerSlot c e =
      if e.toNat - c.toNat < timerSlots then (0, e.toNat % timerSlots)
      else if e.toNat - c.toNat < timerSlots * timerSlots then
        (1, e.toNat / timerSlots % timerSlots)
      else if e.toNat - c.toNat < timerSlots * timerSlots * timerSlots then
        (2, e.toNat / (timerSlots * timerSlots) % timerSlots)
      else (3, e.toNat / (timerSlots * timerSlots * timerSlots) % timerSlots) := by
  rw [timerSlot, UInt64.toNat_sub_of_le e c (UInt64.le_iff_toNat_le.mpr h)]

/-- No delay wraps around before the horizon. -/
lemma toNat_add_delay {start c : UInt64} {d : UInt32} (hstart : start.toNat + 2 ^ 33 ≤ 2 ^ 64)
    (hc : c.toNat ≤ horizon start) : (c + d.toUInt64).toNat = c.toNat + d.toNat := by
  have hd := d.toNat_lt
  rw [horizon, cascadeTick, firstWrap, timerSlots] at hc
  rw [UInt64.toNat_add, UInt32.toNat_toUInt64]
  omega

/-- A punctual call puts its timer where it is reached in time. -/
lemma Clock.placed {start : UInt64} {loop : EventLoop} (clock : Clock start loop)
    (hstart : start.toNat + 2 ^ 33 ≤ 2 ^ 64) (hc : loop.currentMs.toNat ≤ horizon start)
    {d : UInt32} {arg : Nat} {b : Bool} (h : Added.Punctual start ⟨d, 0, arg, loop.currentMs, b⟩)
    {n : Nat} (hn : n = loop.currentMs.toNat + b.toNat) :
    Placed start n (loop.wheelTicks 1).toNat
      (timerSlot loop.currentMs (loop.currentMs + d.toUInt64)) (loop.currentMs + d.toUInt64) := by
  have he := toNat_add_delay (d := d) hstart hc
  obtain ⟨hge, hle, hlt, -, -⟩ := clock
  rw [timerSlot_eq (by omega), Placed, he, Nat.add_sub_cancel_left]
  obtain h | ⟨hd, hb⟩ | ⟨hd, hd', hj, hj'⟩ | ⟨hd, hd', hz⟩ := h rfl
  · exact Or.inr (Or.inr h)
  -- Level 0: in a callback the current slot has been detached, and a delay of 0 misses it.
  · dsimp only at hd hb
    rw [if_pos hd]
    refine Or.inl ⟨rfl, ?_, ?_⟩
    · cases b with
      | false => rw [hn]; exact Nat.le_add_right _ _
      | true => rw [hn]; exact Nat.add_le_add_left (hb rfl) _
    · omega
  -- Level 1: the cascade of the slot is still to come, since the delay is a whole round.
  · dsimp only at hd hd' hj hj'
    rw [if_neg (Nat.not_lt.mpr hd), if_pos hd']
    refine Or.inr (Or.inl ⟨_, Or.inl rfl, ?_, hj, hj'⟩)
    generalize (loop.currentMs.toNat + d.toNat) / timerSlots % timerSlots = j at *
    rw [cascadeTick, timerSlots] at *
    omega
  -- Level 2: a timer due before the horizon is added before the first cascade.
  · dsimp only at hd hd' hz
    have hd₁ : ¬ d.toNat < timerSlots := by
      rw [timerSlots] at *
      omega
    rw [if_neg hd₁, if_neg (Nat.not_lt.mpr hd), if_pos hd', hz]
    by_cases hh : horizon start ≤ loop.currentMs.toNat + d.toNat
    · exact Or.inr (Or.inr hh)
    · refine Or.inr (Or.inl ⟨timerSlots - 1, Or.inr ⟨rfl, rfl⟩, ?_, ?_, ?_⟩)
      all_goals
        rw [horizon, cascadeTick, firstWrap, timerSlots] at hh
        rw [cascadeTick, firstWrap, timerSlots] at *
        omega

/-- A timer stays where it is reached in time when a tick is over that did not reach its slot. -/
lemma Placed.next {start : UInt64} {c m : Nat} {key : Nat × Nat} {e : UInt64}
    (h : Placed start c m key e) (hkey : key ≠ (0, c % timerSlots)) :
    Placed start (c + 1) m key e := by
  obtain ⟨rfl, hle, hlt⟩ | h := h
  · refine Or.inl ⟨rfl, Nat.lt_of_le_of_ne hle fun he => hkey (he ▸ rfl), ?_⟩
    omega
  · exact Or.inr h

/-- The timers of the current slot are due now or beyond the horizon. -/
lemma Placed.due {start : UInt64} {c m : Nat} {e : UInt64}
    (h : Placed start c m (0, c % timerSlots) e) : e.toNat = c ∨ horizon start ≤ e.toNat := by
  obtain ⟨hk, hle, hlt⟩ | ⟨j, hj | ⟨hj, _⟩, _⟩ | h := h
  · have hmod := congrArg Prod.snd hk
    rw [timerSlots] at *
    exact Or.inl (by dsimp only at hmod; omega)
  · cases hj
  · cases hj
  · exact Or.inr h

/-- A timer of a slot that is emptied now is due before the next cascade, and gets into level 0. -/
lemma Placed.cascaded {start : UInt64} {m : Nat} {key : Nat × Nat} {c e : UInt64}
    (h : Placed start (cascadeTick start m + 1) m key e) (hkey : Emptied key m)
    (hc : c.toNat = cascadeTick start m + 1) (m' : Nat) :
    Placed start (cascadeTick start m + 1) m' (timerSlot c e) e := by
  obtain ⟨rfl, _⟩ | ⟨j, hj, _, hlt, hle⟩ | h := h
  · obtain hkey | ⟨hkey, _⟩ := hkey <;> cases hkey
  · have hjm : j = m := by
      obtain rfl | ⟨rfl, rfl⟩ := hj
      · obtain hkey | ⟨hkey, _⟩ := hkey
        · exact congrArg Prod.snd hkey
        · cases hkey
      · obtain hkey | ⟨_, rfl⟩ := hkey
        · cases hkey
        · rfl
    subst hjm
    rw [timerSlot_eq (by omega), if_pos (by omega)]
    exact Or.inl ⟨rfl, by omega, by omega⟩
  · exact Or.inr (Or.inr h)

/-- What is left after a cascade is reached by a later one. -/
lemma Placed.succ {start : UInt64} {n m : Nat} {key : Nat × Nat} {e : UInt64}
    (h : Placed start n m key e) (hkey : Emptied key m → Placed start n (m + 1) key e) :
    Placed start n (m + 1) key e := by
  obtain h | ⟨j, hj, hm, h⟩ | h := h
  · exact Or.inl h
  · obtain rfl | hm := hm.eq_or_lt
    · exact hkey hj
    · exact Or.inr (Or.inl ⟨j, hj, hm, h⟩)
  · exact Or.inr (Or.inr h)

/-! ## Ticks -/

/-- A loop between ticks whose timers are reached in time, if the calls were punctual. -/
structure Steady (start : UInt64) (loop : EventLoop) (lists : Place → List Ptr) : Prop
    extends Clock start loop,
      Inv (Added.Punctual start) (Placed start loop.currentMs.toNat (loop.wheelTicks 1).toNat)
        (fun _ => True) loop none lists where
  past : ∀ f ∈ loop.fired, f.tick < loop.currentMs

section Ticks
variable {start : UInt64} {loop : EventLoop} {lists : Place → List Ptr} {F : UInt64 → Prop}
  {calls : Nat → List TimerCall}

/-- A cascade goes on to the next level when the cursor of its level is at the end. -/
lemma cascade_cons {loop₁ : EventLoop} {lvl : Nat} (h : cascadeLevel loop lvl = some loop₁)
    (lvls : List Nat) :
    cascade (lvl :: lvls) loop =
      if (loop₁.wheelTicks lvl).toNat % timerSlots ≠ 0 then some loop₁ else cascade lvls loop₁ := by
  rw [cascade, h]
  rfl

/-- The cursors after the cascade of level 1. -/
lemma cursors_of_level_one {loop₁ : EventLoop} {m : Nat} (hm : (loop.wheelTicks 1).toNat = m)
    (hlt : m < timerSlots) (h2 : loop.wheelTicks 2 = 0)
    (hw₁ : loop₁.wheelTicks = update loop.wheelTicks 1 (loop.wheelTicks 1 + 1)) :
    (loop₁.wheelTicks 1).toNat = m + 1 ∧ loop₁.wheelTicks 2 = 0 := by
  rw [timerSlots] at hlt
  rw [hw₁, update_self, update_of_ne (by decide), UInt32.toNat_add, hm,
    show (1 : UInt32).toNat = 1 from rfl]
  exact ⟨by omega, h2⟩

/-- The cursors after the first cascade of level 2. -/
lemma cursors_of_level_two {loop₂ : EventLoop} (h2 : loop.wheelTicks 2 = 0)
    (hw₂ : loop₂.wheelTicks = update loop.wheelTicks 2 (loop.wheelTicks 2 + 1)) :
    loop₂.wheelTicks 1 = loop.wheelTicks 1 ∧ loop₂.wheelTicks 2 = 1 := by
  rw [hw₂, update_self, update_of_ne (by decide), h2]
  exact ⟨rfl, rfl⟩

/-- The cascade of a tick empties its slots. -/
lemma cascade_placed {m : Nat}
    (inv : Inv (Added.Punctual start) (Placed start (cascadeTick start m + 1) m) F loop none lists)
    (hc : loop.currentMs.toNat = cascadeTick start m + 1) (hm : (loop.wheelTicks 1).toNat = m)
    (hlt : m < timerSlots) (h2 : loop.wheelTicks 2 = 0) :
    ∃ loop' lists', cascade (List.range' 1 (timerLevels - 1)) loop = some loop' ∧
      Inv (Added.Punctual start) (Placed start (cascadeTick start m + 1) (m + 1)) F loop' none
        lists' ∧
      loop'.currentMs = loop.currentMs ∧ loop'.fired = loop.fired ∧
      (loop'.wheelTicks 1).toNat = m + 1 ∧ (m + 1 < timerSlots → loop'.wheelTicks 2 = 0) := by
  -- After each level, what is in its emptied slot is placed for the next cascade.
  have hkey : (1, m) = (1, (loop.wheelTicks 1).toNat) := by rw [hm]
  obtain ⟨loop₁, lists₁, h₁, inv₁, hc₁, hf₁, hw₁⟩ := inv.cascadeLevel 1 hkey hlt
    (fun key e => Placed start (cascadeTick start m + 1) m key e ∧
      (key = (1, m) → Placed start (cascadeTick start m + 1) (m + 1) key e))
    (fun key hk e h => ⟨h, fun hk' => absurd hk' hk⟩)
    (fun e h => ⟨h.cascaded (Or.inl rfl) hc m, fun _ => h.cascaded (Or.inl rfl) hc (m + 1)⟩)
  obtain ⟨hm₁, h2₁⟩ := cursors_of_level_one hm hlt h2 hw₁
  rw [show List.range' 1 (timerLevels - 1) = [1, 2, 3] from rfl, cascade_cons h₁]
  by_cases hlast : m + 1 = timerSlots
  · -- The cursor of level 1 is at the end of its level, and level 2 is cascaded as well.
    have hmod : (loop₁.wheelTicks 1).toNat % timerSlots = 0 := by rw [hm₁, hlast, Nat.mod_self]
    have hE : Emptied (2, 0) m := Or.inr ⟨rfl, Nat.eq_sub_of_add_eq hlast⟩
    have hkey₁ : (2, 0) = (2, (loop₁.wheelTicks 2).toNat) := by
      rw [h2₁]
      rfl
    obtain ⟨loop₂, lists₂, h₂, inv₂, hc₂, hf₂, hw₂⟩ := inv₁.cascadeLevel 2 hkey₁ (by decide)
      (Placed start (cascadeTick start m + 1) (m + 1))
      (fun key hk e h => h.1.succ fun hkm => h.2 (hkm.resolve_right fun h => hk h.1))
      (fun e h => h.1.cascaded hE (hc₁ ▸ hc) (m + 1))
    obtain ⟨hw1, hw2⟩ := cursors_of_level_two h2₁ hw₂
    rw [if_neg (not_not.mpr hmod), cascade_cons h₂, hw2, if_pos (by decide)]
    exact ⟨loop₂, lists₂, rfl, inv₂, hc₂.trans hc₁, hf₂.trans hf₁, hw1 ▸ hm₁,
      fun h => absurd hlast h.ne⟩
  · rw [hm₁, Nat.mod_eq_of_lt (Nat.lt_of_le_of_ne hlt hlast), if_pos (Nat.succ_ne_zero m)]
    refine ⟨loop₁, lists₁, rfl, inv₁.mono fun key e h => ?_, hc₁, hf₁, hm₁, fun _ => h2₁⟩
    exact h.1.succ fun hkm => h.2 (hkm.resolve_right fun h => hlast (by rw [h.2]; rfl))

/-- The walk over the slot of the current tick fires the timers that are due. -/
lemma Steady.walk (st : Steady start loop lists) (hstart : start.toNat + 2 ^ 33 ≤ 2 ^ 64)
    (hcalls : ∀ n, ∀ c ∈ calls n, c.IsAdd) (hc : loop.currentMs.toNat < horizon start)
    {key : Nat × Nat} (hkey : key = (0, loop.currentMs.toNat % timerSlots)) :
    ∃ loop' lists',
      walk calls loop.timerPoolSize.toNat (detach loop key) (loop.wheel key) = some loop' ∧
      Inv (Added.Punctual start)
        (Placed start (loop.currentMs.toNat + 1) (loop.wheelTicks 1).toNat)
        (fun _ => True) loop' none
        lists' ∧
      Frame loop loop' := by
  subst hkey
  have inv₁ := st.toInv.detach (0, loop.currentMs.toNat % timerSlots)
    (fun key hk e h => h.next hk) (fun e h => h.due)
  -- The timers of the slot that are not due now are beyond the horizon.
  have hnow : ∀ e : UInt64, e.toNat = loop.currentMs.toNat ∨ horizon start ≤ e.toNat →
      e ≤ loop.currentMs → e = loop.currentMs := by
    rintro e (he | he) hle
    · exact UInt64.toNat_inj.mp he
    · exact absurd (he.trans (UInt64.le_iff_toNat_le.mp hle)) hc.not_ge
  have hlater : ∀ e : UInt64, e.toNat = loop.currentMs.toNat ∨ horizon start ≤ e.toNat →
      loop.currentMs < e → horizon start ≤ e.toNat := by
    rintro e (he | he) hlt
    · exact absurd he (UInt64.lt_iff_toNat_lt.mp hlt).ne'
    · exact he
  obtain ⟨loop₂, lists₂, h₂, inv₂, hframe⟩ := inv₁.walk (inv₁.length_le .inFlight) hcalls hnow
    (fun e he hlt => Or.inr (Or.inr (hlater e he hlt)))
    (fun d arg hg => st.toClock.placed hstart hc.le hg rfl)
  exact ⟨loop₂, lists₂, h₂, inv₂.flight_irrel, hframe.currentMs, hframe.wheelTicks,
    hframe.timerPoolSize, hframe.fired⟩

/-- No tick wraps around before the horizon. -/
lemma toNat_add_one {c : UInt64} (hstart : start.toNat + 2 ^ 33 ≤ 2 ^ 64)
    (hc : c.toNat < horizon start) : (c + 1).toNat = c.toNat + 1 := by
  rw [horizon, cascadeTick, firstWrap, timerSlots] at hc
  rw [UInt64.toNat_add, show (1 : UInt64).toNat = 1 from rfl]
  omega

/-- Cascades are 256 ticks apart. -/
lemma cascadeTick_succ (start : UInt64) (j : Nat) :
    cascadeTick start (j + 1) = cascadeTick start j + timerSlots :=
  rfl

/-- At a multiple of the slots the next cascade is due, and its slot is in the wheel. -/
lemma Clock.wrap (clock : Clock start loop) (hc : loop.currentMs.toNat < horizon start)
    (hslot : loop.currentMs.toNat % timerSlots = 0) :
    (loop.wheelTicks 1).toNat < timerSlots ∧
      loop.currentMs.toNat = cascadeTick start (loop.wheelTicks 1).toNat := by
  obtain ⟨-, hle, hlt, -, -⟩ := clock
  rw [horizon] at hc
  rw [cascadeTick, timerSlots] at *
  omega

/-- The clock after a tick with a cascade. -/
lemma Clock.cascaded {loop' : EventLoop} (clock : Clock start loop)
    (hc : loop.currentMs.toNat = cascadeTick start (loop.wheelTicks 1).toNat)
    (hlt : (loop.wheelTicks 1).toNat < timerSlots)
    (hn : loop'.currentMs.toNat = loop.currentMs.toNat + 1)
    (hm : (loop'.wheelTicks 1).toNat = (loop.wheelTicks 1).toNat + 1)
    (h2 : (loop.wheelTicks 1).toNat + 1 < timerSlots → loop'.wheelTicks 2 = 0) :
    Clock start loop' := by
  have hpos : 0 < timerSlots := by decide
  refine ⟨?_, ?_, ?_, ?_, fun h => h2 (hm ▸ h)⟩
  · exact clock.ge.trans (hn ▸ Nat.le_succ _)
  · rw [hn, hm, hc, cascadeTick_succ]
    exact Nat.add_le_add_left hpos _
  · rw [hn, hm, hc, cascadeTick_succ]
    omega
  · rw [hm]
    exact hlt

/-- The clock after a tick without a cascade. -/
lemma Clock.next {loop' : EventLoop} (clock : Clock start loop)
    (hslot : loop.currentMs.toNat % timerSlots ≠ 0)
    (hn : loop'.currentMs.toNat = loop.currentMs.toNat + 1)
    (hw : loop'.wheelTicks = loop.wheelTicks) :
    Clock start loop' := by
  refine ⟨?_, ?_, ?_, hw ▸ clock.le_slots, hw ▸ clock.second⟩
  · exact clock.ge.trans (hn ▸ Nat.le_succ _)
  · have hne : loop.currentMs.toNat ≠ cascadeTick start (loop.wheelTicks 1).toNat := fun h =>
      hslot (h ▸ Nat.mul_mod_right _ _)
    rw [hn, hw]
    exact Nat.lt_of_le_of_ne clock.le hne
  · rw [hn, hw, Nat.add_right_comm]
    exact clock.lt.trans (Nat.lt_succ_self _)

/-- One tick before the horizon. -/
lemma Steady.tick (st : Steady start loop lists) (hstart : start.toNat + 2 ^ 33 ≤ 2 ^ 64)
    (hcalls : ∀ n, ∀ c ∈ calls n, c.IsAdd) (hc : loop.currentMs.toNat < horizon start) :
    ∃ loop' lists', tick calls loop = some loop' ∧ Steady start loop' lists' ∧
      loop'.currentMs.toNat = loop.currentMs.toNat + 1 := by
  have hsucc := toNat_add_one hstart hc
  obtain ⟨loop₂, lists₂, h₂, inv₂, hframe⟩ := st.walk hstart hcalls hc rfl
  -- Callbacks are run at the tick that is over now.
  have hpast : ∀ f ∈ loop₂.fired, f.tick < loop.currentMs + 1 := by
    intro f hf
    rw [UInt64.lt_iff_toNat_lt, hsucc]
    obtain hf | hf := hframe.fired f hf
    · exact Nat.lt_succ_of_lt (UInt64.lt_iff_toNat_lt.mp (st.past f hf))
    · rw [hf]
      exact Nat.lt_succ_self _
  have inv₃ := inv₂.of_eq (loop.currentMs + 1) loop₂.wheelTicks
  rw [Timers.tick, h₂]
  dsimp only [Option.bind_eq_bind, Option.bind_some]
  rw [hframe.currentMs]
  split
  · next hslot =>
    obtain ⟨hlt, hceq⟩ := st.toClock.wrap hc hslot
    rw [hceq] at inv₃
    obtain ⟨loop₄, lists₄, h₄, inv₄, hc₄, hf₄, hm₄, h2₄⟩ := cascade_placed inv₃ (hceq ▸ hsucc)
      (congrArg UInt32.toNat (congrFun hframe.wheelTicks 1)) hlt
      ((congrFun hframe.wheelTicks 2).trans (st.second hlt))
    have hn : loop₄.currentMs.toNat = loop.currentMs.toNat + 1 := by rw [hc₄, hsucc]
    refine ⟨loop₄, lists₄, h₄, ⟨st.toClock.cascaded hceq hlt hn hm₄ h2₄, ?_, ?_⟩, hn⟩
    · rw [hn, hm₄, hceq]
      exact inv₄
    · rw [hf₄, hc₄]
      exact hpast
  · next hslot =>
    refine ⟨_, lists₂, rfl, ⟨st.toClock.next hslot hsucc hframe.wheelTicks, ?_, hpast⟩, hsucc⟩
    dsimp only
    rw [hsucc, hframe.wheelTicks]
    exact hframe.wheelTicks ▸ inv₃

/-- Some ticks before the horizon. -/
lemma Steady.ticks (st : Steady start loop lists) (hstart : start.toNat + 2 ^ 33 ≤ 2 ^ 64)
    (hcalls : ∀ n, ∀ c ∈ calls n, c.IsAdd) {k : Nat}
    (hk : loop.currentMs.toNat + k ≤ horizon start) :
    ∃ loop' lists', ticks calls k loop = some loop' ∧ Steady start loop' lists' ∧
      loop'.currentMs.toNat = loop.currentMs.toNat + k := by
  induction k generalizing loop lists with
  | zero => exact ⟨loop, lists, rfl, st, rfl⟩
  | succ k ih =>
    obtain ⟨loop₁, lists₁, h₁, st₁, hc₁⟩ := st.tick hstart hcalls (by omega)
    obtain ⟨loop₂, lists₂, h₂, st₂, hc₂⟩ := ih st₁ (by omega)
    refine ⟨loop₂, lists₂, ?_, st₂, by omega⟩
    rw [Timers.ticks, h₁]
    exact h₂

end Ticks

/-! ## Runs -/

/-- A step within the horizon: a call of `rc_timer_add`, or a pass at a time before the horizon. -/
def TimerOp.Within (start : UInt64) : TimerOp → Prop
  | .call c => c.IsAdd
  | .process now => now.toNat < horizon start

section Runs
variable {start : UInt64} {loop : EventLoop} {lists : Place → List Ptr}
  {calls : Nat → List TimerCall}

/-- The clock has not passed the horizon. -/
lemma Clock.le_horizon (clock : Clock start loop) : loop.currentMs.toNat ≤ horizon start :=
  clock.le.trans (Nat.mul_le_mul_left _ (Nat.add_le_add_left clock.le_slots _))

/-- The horizon is about two minutes after the start at most. -/
lemma horizon_le (start : UInt64) : horizon start ≤ start.toNat + 2 ^ 17 := by
  rw [horizon, cascadeTick, firstWrap, timerSlots]
  omega

/-- An operation within the horizon. -/
lemma Steady.apply (st : Steady start loop lists) (hstart : start.toNat + 2 ^ 33 ≤ 2 ^ 64)
    (hcalls : ∀ n, ∀ c ∈ calls n, c.IsAdd) {op : TimerOp} (hop : op.Within start) :
    ∃ loop' lists', op.apply calls loop = some loop' ∧ Steady start loop' lists' := by
  cases op with
  | call c =>
    have hadd : ∀ c' ∈ [c], c'.IsAdd := fun c' hc' => List.mem_singleton.mp hc' ▸ hop
    obtain ⟨lists', inv', hb⟩ := st.toInv.calls false hadd
      fun d arg hg => st.toClock.placed hstart st.toClock.le_horizon hg rfl
    obtain ⟨hge, hle, hlt, hs, h2⟩ := st.toClock
    refine ⟨c.apply false loop, lists', rfl, ⟨?_, ?_, ?_⟩⟩
    · rw [← hb.wheelTicks] at hle hlt hs h2
      rw [← hb.currentMs] at hge hle hlt
      exact ⟨hge, hle, hlt, hs, h2⟩
    · rw [← hb.wheelTicks, ← hb.currentMs] at inv'
      exact inv'
    · exact hb.quiet.symm ▸ hb.currentMs.symm ▸ st.past
  | process now =>
    have hnow : now.toNat < horizon start := hop
    have hlast : now.toNat + 1 ≠ 2 ^ 64 := by
      have hh := horizon_le start
      omega
    rw [TimerOp.apply, processTimers, if_neg hlast]
    by_cases hle : loop.currentMs.toNat ≤ now.toNat + 1
    · obtain ⟨loop', lists', h, st', _⟩ := st.ticks hstart hcalls
        (k := now.toNat + 1 - loop.currentMs.toNat) (by omega)
      exact ⟨loop', lists', h, st'⟩
    · rw [Nat.sub_eq_zero_of_le (by omega)]
      exact ⟨loop, lists, rfl, st⟩

/-- A run within the horizon. -/
lemma Steady.run (st : Steady start loop lists) (hstart : start.toNat + 2 ^ 33 ≤ 2 ^ 64)
    (hcalls : ∀ n, ∀ c ∈ calls n, c.IsAdd) {ops : List TimerOp}
    (hops : ∀ op ∈ ops, op.Within start) :
    ∃ loop' lists', run calls loop ops = some loop' ∧ Steady start loop' lists' := by
  induction ops generalizing loop lists with
  | nil => exact ⟨loop, lists, rfl, st⟩
  | cons op ops ih =>
    obtain ⟨hop, hops'⟩ := List.forall_mem_cons.mp hops
    obtain ⟨loop₁, lists₁, h₁, st₁⟩ := st.apply hstart hcalls hop
    obtain ⟨loop₂, lists₂, h₂, st₂⟩ := ih st₁ hops'
    refine ⟨loop₂, lists₂, ?_, st₂⟩
    rw [Timers.run, List.foldlM_cons, h₁]
    exact h₂

/-- The fields of a new loop. -/
lemma loopCreate_fields {maxFds : UInt32} (h : loopCreate maxFds start = some loop) :
    loop.currentMs = start ∧ loop.wheelTicks = (fun _ => 0) ∧ loop.added = [] ∧
      loop.fired = [] := by
  rw [loopCreate] at h
  split at h
  · cases h
  · cases h
    exact ⟨rfl, rfl, rfl, rfl⟩

/-- A new loop is steady. -/
lemma loopCreate_steady {maxFds : UInt32} (h : loopCreate maxFds start = some loop) :
    Steady start loop (newLists loop.timerPoolSize.toNat) := by
  have lay := loopCreate_layout h
  have hpend : loop.pending = [] := by
    refine List.filterMap_eq_nil_iff.mpr fun p _ => Timer.due_of_not_active ?_
    rw [← Bool.not_eq_true, (lay.armed p).active]
    exact not_armed_newLists _ p
  obtain ⟨hcur, hticks, hadd, hfired⟩ := loopCreate_fields h
  have hm : (loop.wheelTicks 1).toNat = 0 := by
    rw [hticks]
    rfl
  refine ⟨⟨?_, ?_, ?_, ?_, ?_⟩, ⟨lay, fun _ => ⟨⟨?_, ?_⟩, ?_⟩⟩, ?_⟩
  · rw [hcur]
  · rw [hcur, hm, cascadeTick, firstWrap, timerSlots]
    omega
  · rw [hcur, hm, cascadeTick, firstWrap, timerSlots]
    omega
  · rw [hm]
    exact Nat.zero_le _
  · exact fun _ => congrFun hticks 2
  · intro key p hp
    cases hp
  · intro p hp
    cases hp
  · rw [EventLoop.dues, EventLoop.shots, hadd, hfired, hpend]
    exact List.Perm.refl _
  · rw [hfired]
    exact fun _ h => absurd h List.not_mem_nil

/-- A timer that is reached in time is not due before the next tick. -/
lemma Clock.le_of_placed (clock : Clock start loop) {key : Nat × Nat} {e : UInt64}
    (h : Placed start loop.currentMs.toNat (loop.wheelTicks 1).toNat key e) :
    loop.currentMs.toNat ≤ e.toNat := by
  obtain ⟨_, hle, _⟩ | ⟨j, _, hm, hlt, _⟩ | h := h
  · exact hle
  · have hj : cascadeTick start (loop.wheelTicks 1).toNat ≤ cascadeTick start j :=
      Nat.mul_le_mul_left _ (Nat.add_le_add_left hm _)
    exact (clock.le.trans hj).trans hlt.le
  · exact clock.le_horizon.trans h

/-- No armed one-shot timer is overdue. -/
lemma Steady.pending_ge (st : Steady start loop lists) (hg : ∀ a ∈ loop.added, a.Punctual start)
    {x : Nat × UInt64} (hx : x ∈ loop.pending) : loop.currentMs ≤ x.2 := by
  obtain ⟨p, _, hp⟩ := List.mem_filterMap.mp hx
  rw [Timer.due] at hp
  split at hp
  · next ha =>
    cases hp
    obtain ⟨pl, hpl, hmem⟩ := (st.armed p).active.mp ha.1
    cases pl with
    | free => exact absurd rfl hpl
    | inFlight =>
      rw [st.toLayout.inFlight_eq_nil] at hmem
      cases hmem
    | slot key =>
      exact UInt64.le_iff_toNat_le.mpr
        (st.toClock.le_of_placed ((st.timely hg).slots key p hmem ha.2))
  · cases hp

/-- The one-shot timers that have been run are those whose expiry time is over, each once and at its
tick. -/
def EventLoop.OnTime (loop : EventLoop) : Prop :=
  loop.shots.Perm (loop.dues.filter fun x => x.2 < loop.currentMs)

/-- If all timers were added well, all are on time. -/
lemma Steady.onTime (st : Steady start loop lists) (hg : ∀ a ∈ loop.added, a.Punctual start) :
    loop.OnTime := by
  have hbal := (st.timely hg).balance.filter fun x => x.2 < loop.currentMs
  rw [List.filter_append] at hbal
  have hshots : loop.shots.filter (fun x => x.2 < loop.currentMs) = loop.shots := by
    refine List.filter_eq_self.mpr fun x hx => ?_
    obtain ⟨f, hf, hfx⟩ := List.mem_filterMap.mp hx
    rw [Fired.shot] at hfx
    split at hfx
    · cases hfx
      exact decide_eq_true (st.past f hf)
    · cases hfx
  -- Armed timers are not overdue, so all that is due has been taken off.
  have hpend : loop.pending.filter (fun x => x.2 < loop.currentMs) = [] := by
    refine List.filter_eq_nil_iff.mpr fun x hx h => ?_
    exact absurd (of_decide_eq_true h) (UInt64.not_lt.mpr (st.pending_ge hg hx))
  rw [hshots, hpend, List.append_nil] at hbal
  exact hbal.symm

end Runs

/-- In a run of additions and passes before the horizon in which every addition is punctual,
timers are on time. -/
theorem timers_on_time (maxFds : UInt32) (start : UInt64) (calls : Nat → List TimerCall)
    (ops : List TimerOp) (hpool : timerPoolSize maxFds ≠ 0) (hstart : start.toNat + 2 ^ 33 ≤ 2 ^ 64)
    (hcalls : ∀ n, ∀ c ∈ calls n, c.IsAdd) (hops : ∀ op ∈ ops, op.Within start)
    (hpunctual : ∀ loop, runNew calls maxFds start ops = some loop →
      ∀ a ∈ loop.added, a.Punctual start) :
    ∃ loop, runNew calls maxFds start ops = some loop ∧ loop.OnTime := by
  obtain ⟨loop₀, h₀⟩ : ∃ loop₀, loopCreate maxFds start = some loop₀ :=
    ⟨_, if_neg hpool⟩
  obtain ⟨loop, lists, h, st⟩ := (loopCreate_steady h₀).run hstart hcalls hops
  have hrun : runNew calls maxFds start ops = some loop := by
    rw [runNew, h₀]
    exact h
  exact ⟨loop, hrun, st.onTime (hpunctual loop hrun)⟩

/-- A program with a timer of level 1, a repeating timer, and one whose callback adds another. -/
def sampleOps : List TimerOp :=
  [.call (.add 300 0 (some 0) 1), .call (.add 20 30 (some 0) 9), .call (.add 10 0 (some 0) 2),
    .process 65520, .process 65560]

/-- The first callback of the sample adds a timer. -/
def sampleCalls (n : Nat) : List TimerCall := if n = 0 then [.add 5 0 (some 0) 3] else []

/-- A run with a timer that a callback adds. -/
lemma sample_run :
    (runNew sampleCalls 4 65500 sampleOps).map (fun loop => (loop.added, loop.shots)) =
      some ([⟨300, 0, 1, 65500, false⟩, ⟨20, 30, 9, 65500, false⟩, ⟨10, 0, 2, 65500, false⟩,
        ⟨5, 0, 3, 65510, true⟩], [(2, 65510), (3, 65515)]) := by
  decide +kernel

/-- Two one-shot timers fire on time, one of them added by a callback. -/
theorem timers_on_time_sample :
    ∃ loop, runNew sampleCalls 4 65500 sampleOps = some loop ∧ loop.OnTime ∧
      loop.shots = [(2, 65510), (3, 65515)] := by
  have hadds : ∀ n, ∀ c ∈ sampleCalls n, c.IsAdd := by
    intro n c hc
    rw [sampleCalls] at hc
    split at hc
    · rw [List.mem_singleton.mp hc]
      trivial
    · cases hc
  have hfields : ∀ loop, runNew sampleCalls 4 65500 sampleOps = some loop →
      (loop.added, loop.shots) = ([⟨300, 0, 1, 65500, false⟩, ⟨20, 30, 9, 65500, false⟩,
        ⟨10, 0, 2, 65500, false⟩, ⟨5, 0, 3, 65510, true⟩], [(2, 65510), (3, 65515)]) := by
    intro loop h
    have hs := sample_run
    rw [h] at hs
    exact Option.some.inj hs
  obtain ⟨loop, h, hon⟩ := timers_on_time 4 65500 sampleCalls sampleOps (by decide) (by decide)
    hadds (by simp [sampleOps, TimerOp.Within, TimerCall.IsAdd]; decide)
    (fun loop h => by
      rw [show loop.added = _ from congrArg Prod.fst (hfields loop h)]
      decide)
  exact ⟨loop, h, hon, congrArg Prod.snd (hfields loop h)⟩

/-- A timer with a delay of 256 ms in a loop created at 1000 ms has not been run when its
time is over. -/
theorem timer_missed :
    ∃ loop, runNew (fun _ => []) 2 1000 [.call (.add 256 0 (some 0) 7), .process 1256] = some loop ∧
      loop.dues = [(7, 1256)] ∧ loop.currentMs = 1257 ∧ loop.shots = [] ∧ ¬ loop.OnTime := by
  have hrun : (runNew (fun _ => []) 2 1000 [.call (.add 256 0 (some 0) 7), .process 1256]).map
      (fun loop => (loop.dues, loop.currentMs, loop.shots)) = some ([(7, 1256)], 1257, []) := by
    decide +kernel
  obtain ⟨loop, h, hf⟩ := Option.map_eq_some_iff.mp hrun
  obtain ⟨hd, hc, hs⟩ : loop.dues = [(7, 1256)] ∧ loop.currentMs = 1257 ∧ loop.shots = [] := by
    simpa only [Prod.mk.injEq] using hf
  refine ⟨loop, h, hd, hc, hs, fun hon => ?_⟩
  rw [EventLoop.OnTime, hd, hc, hs] at hon
  exact absurd hon.symm (by decide)

end RoboControl.Timers
