import RoboControl.Base.Circular

/-!
# Bounded reports

Passes over a list that append the keys of elements to a report of at most `cap` keys. One pass
reports every element with a property (`reportAll`), another only those whose key is not in the
report yet, and replaces them (`reportNew`). As long as there is room for every key that is missing
(`Room`), the bound does not show: the second pass reports every element (`Room.mem_reportNew`), and
it leaves one that it should have replaced exactly if its key is there already
(`Room.replaced_iff`).
-/

namespace Base
variable {α β : Type*}

/-- Report an element with a property. -/
def reportAll (key : α → β) (cap : ℤ) (p : α → Bool) (acc : List β) (a : α) : List β × α :=
  if (acc.length : ℤ) < cap ∧ p a = true then (acc ++ [key a], a) else (acc, a)

/-- What a pass reports: the first keys that there is room for. -/
lemma mapAccum_reportAll (key : α → β) (cap : ℤ) (p : α → Bool) (acc : List β) (l : List α) :
    (mapAccum (reportAll key cap p) acc l).1 =
      acc ++ ((l.filter p).map key).take (cap.toNat - acc.length) := by
  induction l generalizing acc with
  | nil => simp [mapAccum]
  | cons a l ih =>
    rw [mapAccum_cons, ih, reportAll]
    by_cases hp : p a = true
    · by_cases hlt : (acc.length : ℤ) < cap
      · obtain ⟨m, hm⟩ : ∃ m, cap.toNat - acc.length = m + 1 :=
          Nat.exists_eq_add_one_of_ne_zero (by omega)
        have hm' : cap.toNat - (acc ++ [key a]).length = m := by
          rw [List.length_append, List.length_singleton]
          omega
        rw [if_pos ⟨hlt, hp⟩, hm', hm, List.filter_cons_of_pos hp, List.map_cons,
          List.take_succ_cons, List.append_assoc]
        rfl
      · have hzero : cap.toNat - acc.length = 0 := by omega
        rw [if_neg fun h => hlt h.1, hzero, List.take_zero, List.take_zero]
    · rw [if_neg fun h => hp h.2, List.filter_cons_of_neg hp]

variable [DecidableEq β] {key : α → β} {cap : ℤ} {p : α → Bool} {upd : α → α}
variable {acc : List β} {l : List α} {a : α}

/-- Report an element with a property whose key is not in the report yet, and replace it. -/
def reportNew (key : α → β) (cap : ℤ) (p : α → Bool) (upd : α → α) (acc : List β) (a : α) :
    List β × α :=
  if (acc.length : ℤ) < cap ∧ p a = true ∧ key a ∉ acc then (acc ++ [key a], upd a) else (acc, a)

/-- The elements of a pass that are left as they are or replaced. -/
lemma mem_mapAccum_reportNew (h : a ∈ (mapAccum (reportNew key cap p upd) acc l).2) :
    a ∈ l ∨ ∃ b ∈ l, a = upd b := by
  induction l generalizing acc with
  | nil => cases h
  | cons b l ih =>
    rw [mapAccum_cons] at h
    obtain h | h := List.mem_cons.mp h
    · rw [reportNew] at h
      split at h
      · exact .inr ⟨b, List.mem_cons_self, h⟩
      · exact .inl (h ▸ List.mem_cons_self)
    · obtain h | ⟨c, hc, h⟩ := ih h
      · exact .inl (List.mem_cons_of_mem b h)
      · exact .inr ⟨c, List.mem_cons_of_mem b hc, h⟩

/-- A pass appends new keys of elements with the property, each once. -/
lemma mapAccum_reportNew (key : α → β) (cap : ℤ) (p : α → Bool) (upd : α → α) (acc : List β)
    (l : List α) :
    ∃ new, (mapAccum (reportNew key cap p upd) acc l).1 = acc ++ new ∧ new.Nodup ∧
      ∀ x ∈ new, x ∉ acc ∧ ∃ a ∈ l, p a = true ∧ key a = x := by
  induction l generalizing acc with
  | nil => exact ⟨[], (List.append_nil acc).symm, .nil, List.forall_mem_nil _⟩
  | cons a l ih =>
    rw [mapAccum_cons, reportNew]
    split
    · next h =>
      obtain ⟨new, hnew, hnd, hmem⟩ := ih (acc ++ [key a])
      refine ⟨key a :: new, ?_, List.nodup_cons.mpr ⟨fun ha => ?_, hnd⟩, fun x hx => ?_⟩
      · rw [hnew, List.append_assoc]
        rfl
      · exact (hmem _ ha).1 (List.mem_append_right acc List.mem_cons_self)
      · obtain rfl | hx := List.mem_cons.mp hx
        · exact ⟨h.2.2, a, List.mem_cons_self, h.2.1, rfl⟩
        · obtain ⟨hacc, b, hb, hpb⟩ := hmem x hx
          exact ⟨fun hx => hacc (List.mem_append_left _ hx), b, List.mem_cons_of_mem a hb, hpb⟩
    · obtain ⟨new, hnew, hnd, hmem⟩ := ih acc
      refine ⟨new, hnew, hnd, fun x hx => ?_⟩
      obtain ⟨hacc, b, hb, hpb⟩ := hmem x hx
      exact ⟨hacc, b, List.mem_cons_of_mem a hb, hpb⟩

/-- An element is left as it is, or it is replaced and its key is reported. -/
lemma reportNew_left_or_replaced (ha : a ∈ l) :
    a ∈ (mapAccum (reportNew key cap p upd) acc l).2 ∨
      upd a ∈ (mapAccum (reportNew key cap p upd) acc l).2 ∧
        key a ∈ (mapAccum (reportNew key cap p upd) acc l).1 := by
  induction l generalizing acc with
  | nil => cases ha
  | cons b l ih =>
    rw [mapAccum_cons]
    obtain rfl | ha := List.mem_cons.mp ha
    · rw [reportNew]
      split
      · obtain ⟨new, hnew, -⟩ := mapAccum_reportNew key cap p upd (acc ++ [key a]) l
        rw [hnew]
        exact .inr ⟨List.mem_cons_self, List.mem_append_left _
          (List.mem_append_right _ List.mem_cons_self)⟩
      · exact .inl List.mem_cons_self
    · obtain h | ⟨h, hkey⟩ := ih ha
      · exact .inl (List.mem_cons_of_mem _ h)
      · exact .inr ⟨List.mem_cons_of_mem _ h, hkey⟩

/-- There are no more than fit. -/
lemma length_reportNew_le (hacc : (acc.length : ℤ) ≤ cap) :
    ((mapAccum (reportNew key cap p upd) acc l).1.length : ℤ) ≤ cap := by
  induction l generalizing acc with
  | nil => exact hacc
  | cons a l ih =>
    rw [mapAccum_cons]
    refine ih ?_
    rw [reportNew]
    split
    · next h =>
      rw [List.length_append, List.length_singleton]
      have hlt := h.1
      omega
    · exact hacc

/-- An element whose key was reported before a pass is left as it is. -/
lemma mem_reportNew_of_key_mem (ha : a ∈ l) (hkey : key a ∈ acc) :
    a ∈ (mapAccum (reportNew key cap p upd) acc l).2 := by
  induction l generalizing acc with
  | nil => cases ha
  | cons b l ih =>
    rw [mapAccum_cons]
    obtain rfl | ha := List.mem_cons.mp ha
    · have hleft : (reportNew key cap p upd acc a).2 = a := by
        rw [reportNew, if_neg fun h => h.2.2 hkey]
      exact List.mem_cons.mpr (.inl hleft.symm)
    · refine List.mem_cons_of_mem _ (ih ha ?_)
      rw [reportNew]
      split
      · exact List.mem_append_left _ hkey
      · exact hkey

/-- A pass that starts with an empty report and room for a key reports nothing if and only if no
element has the property. -/
lemma reportNew_eq_nil_iff (hcap : 0 < cap) :
    (mapAccum (reportNew key cap p upd) [] l).1 = [] ↔ ∀ a ∈ l, p a = false := by
  induction l with
  | nil => exact iff_of_true rfl (List.forall_mem_nil _)
  | cons a l ih =>
    rw [mapAccum_cons, List.forall_mem_cons, reportNew]
    by_cases hp : p a = true
    · rw [if_pos ⟨hcap, hp, List.not_mem_nil⟩]
      obtain ⟨new, hnew, -⟩ := mapAccum_reportNew key cap p upd ([] ++ [key a]) l
      rw [hnew]
      exact iff_of_false (List.cons_ne_nil _ _) fun h => Bool.false_ne_true (h.1.symm.trans hp)
    · rw [if_neg fun h => hp h.2.1, ih]
      exact ⟨fun h => ⟨Bool.not_eq_true _ ▸ hp, h⟩, And.right⟩

/-! ## Room -/

/-- There is room for the keys that are not in the report yet. -/
def Room (key : α → β) (cap : ℤ) (acc : List β) (l : List α) : Prop :=
  ((acc.length + l.countP fun a => key a ∉ acc : ℕ) : ℤ) ≤ cap

/-- There is room for one more. -/
lemma Room.lt (room : Room key cap acc (a :: l)) (ha : key a ∉ acc) : (acc.length : ℤ) < cap := by
  rw [Room, List.countP_cons_of_pos (by simpa using ha)] at room
  omega

/-- An element that is not reported. -/
lemma Room.skip (room : Room key cap acc (a :: l)) : Room key cap acc l := by
  rw [Room, List.countP_cons] at room
  rw [Room]
  omega

/-- An element that is reported. -/
lemma Room.report (room : Room key cap acc (a :: l)) (ha : key a ∉ acc) :
    Room key cap (acc ++ [key a]) l := by
  rw [Room, List.countP_cons_of_pos (by simpa using ha)] at room
  have hle : (l.countP fun b => key b ∉ acc ++ [key a]) ≤ l.countP fun b => key b ∉ acc := by
    refine List.countP_mono_left fun b _ hb => ?_
    rw [decide_eq_true_iff] at hb ⊢
    exact fun h => hb (List.mem_append_left _ h)
  rw [Room, List.length_append, List.length_singleton]
  omega

/-- With room, a step of a pass does not see the bound. -/
lemma Room.step_eq (room : Room key cap acc (a :: l)) :
    reportNew key cap p upd acc a =
      if p a = true ∧ key a ∉ acc then (acc ++ [key a], upd a) else (acc, a) := by
  rw [reportNew]
  refine if_congr ⟨And.right, fun h => ⟨room.lt h.2, h⟩⟩ rfl rfl

/-- With room, a pass leaves room. -/
lemma Room.step (room : Room key cap acc (a :: l)) :
    Room key cap (reportNew key cap p upd acc a).1 l := by
  rw [room.step_eq]
  split
  · next h => exact room.report h.2
  · exact room.skip

/-- With room, a pass reports every element with the property. -/
lemma Room.mem_reportNew (room : Room key cap acc l) (ha : a ∈ l) (hp : p a = true) :
    key a ∈ (mapAccum (reportNew key cap p upd) acc l).1 := by
  induction l generalizing acc with
  | nil => cases ha
  | cons b l ih =>
    rw [mapAccum_cons]
    obtain rfl | ha := List.mem_cons.mp ha
    · obtain ⟨new, hnew, -⟩ :=
        mapAccum_reportNew key cap p upd (reportNew key cap p upd acc a).1 l
      rw [hnew, room.step_eq]
      refine List.mem_append_left _ ?_
      by_cases hkey : key a ∈ acc
      · rwa [if_neg fun h => h.2 hkey]
      · rw [if_pos ⟨hp, hkey⟩]
        exact List.mem_append_right _ List.mem_cons_self
    · exact ih room.step ha

/-- With room, a pass replaces every element with the property if and only if their keys are new and
different. -/
lemma Room.replaced_iff (room : Room key cap acc l) (hacc : acc.Nodup)
    (hupd : ∀ a ∈ l, p (upd a) = false) :
    (∀ a ∈ (mapAccum (reportNew key cap p upd) acc l).2, p a = false) ↔
      (acc ++ (l.filter p).map key).Nodup := by
  induction l generalizing acc with
  | nil =>
    rw [List.filter_nil, List.map_nil, List.append_nil]
    exact iff_of_true (List.forall_mem_nil _) hacc
  | cons a l ih =>
    obtain ⟨ha, hupd⟩ := List.forall_mem_cons.mp hupd
    rw [mapAccum_cons, List.forall_mem_cons, room.step_eq]
    by_cases hp : p a = true
    · rw [List.filter_cons_of_pos hp, List.map_cons]
      by_cases hkey : key a ∈ acc
      · -- The element stays, and its key is there twice.
        rw [if_neg fun h => h.2 hkey]
        refine iff_of_false (fun h => Bool.false_ne_true (h.1.symm.trans hp)) fun h => ?_
        exact (List.nodup_append.mp h).2.2 _ hkey _ List.mem_cons_self rfl
      · have hacc' : (acc ++ [key a]).Nodup := by
          rw [← List.concat_eq_append]
          exact hacc.concat hkey
        rw [if_pos ⟨hp, hkey⟩, and_iff_right ha, ih (room.report hkey) hacc' hupd,
          List.append_assoc]
        rfl
    · rw [if_neg fun h => hp h.1, List.filter_cons_of_neg hp, ih room.skip hacc hupd]
      exact and_iff_right (Bool.not_eq_true _ ▸ hp)

end Base
