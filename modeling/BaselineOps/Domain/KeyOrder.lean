import Mathlib
import BaselineOps.Domain.Traverse

/-!
# Values up to the order of object members

The maps of `serde_json` iterate in the order of their keys; the canonical writer sorts the members
of every object all the same. `sortKeys` is the normal form behind it:

* `sortKeys_of_keysSorted`: values whose objects are sorted, as they are in a `BTreeMap`, are their
  own normal form.
* `sortKeys_eq_iff`: for objects with distinct keys, equal normal forms mean equal values up to the
  order of members.
-/

namespace BaselineOps.Domain

/-! ## Sorted members -/

section SortByKey

variable {α : Type}

theorem sortByKey_sorted (members : List (String × α)) :
    (sortByKey members).Pairwise fun a b => a.1 ≤ b.1 :=
  List.pairwise_insertionSort _ _

/-- Members with distinct keys have one sorted order. -/
theorem sortByKey_eq_of_perm {members members' : List (String × α)} (h : members.Perm members')
    (hnodup : (members.map Prod.fst).Nodup) : sortByKey members = sortByKey members' := by
  have hperm : (sortByKey members).Perm (sortByKey members') :=
    (sortByKey_perm members).trans (h.trans (sortByKey_perm members').symm)
  apply hperm.eq_of_pairwise _ (sortByKey_sorted members) (sortByKey_sorted members')
  intro a b ha hb hab hba
  have ha' := (sortByKey_perm members).mem_iff.mp ha
  have hb' := (h.trans (sortByKey_perm members').symm).mem_iff.mpr hb
  exact List.inj_on_of_nodup_map hnodup ha' hb' (le_antisymm hab hba)

theorem sortByKey_of_sorted {members : List (String × α)}
    (h : members.Pairwise fun a b => a.1 < b.1) : sortByKey members = members := by
  apply List.Pairwise.insertionSort_eq
  exact h.imp fun hlt => le_of_lt hlt

end SortByKey

/-! ## Sorted and distinct keys -/

/-- The keys of an object are in ascending order. -/
def Value.LocallySorted : Value → Prop
  | .object members => members.Pairwise fun a b => a.1 < b.1
  | _ => True

/-- The keys of all objects are in ascending order, as a `BTreeMap` has them. -/
def Value.KeysSorted (v : Value) : Prop := v.All (fun _ => Value.LocallySorted) 0

/-- The keys of an object are distinct. -/
def Value.LocallyDistinct : Value → Prop
  | .object members => (members.map Prod.fst).Nodup
  | _ => True

/-- The keys of all objects are distinct. -/
def Value.DistinctKeys (v : Value) : Prop := v.All (fun _ => Value.LocallyDistinct) 0

/-- A property that does not depend on the depth holds at all of them. -/
theorem Value.all_depth {P : Value → Prop} {v : Value} {depth : ℕ} (depth' : ℕ)
    (h : v.All (fun _ => P) depth) : v.All (fun _ => P) depth' := by
  induction v using Value.induction generalizing depth depth' with
  | null | bool b | number n | string s => exact h
  | array items ih =>
    obtain ⟨hlocal, hitems⟩ := Value.all_array.mp h
    exact Value.all_array.mpr ⟨hlocal, fun v hv => ih v hv _ (hitems v hv)⟩
  | object members ih =>
    obtain ⟨hlocal, hmembers⟩ := Value.all_object.mp h
    exact Value.all_object.mpr ⟨hlocal, fun m hm => ih m hm _ (hmembers m hm)⟩

theorem Value.all_array_zero {P : Value → Prop} {items : List Value} :
    (Value.array items).All (fun _ => P) 0 ↔
      P (.array items) ∧ ∀ v ∈ items, v.All (fun _ => P) 0 := by
  rw [Value.all_array]
  constructor
  · rintro ⟨hlocal, hitems⟩
    exact ⟨hlocal, fun v hv => Value.all_depth 0 (hitems v hv)⟩
  · rintro ⟨hlocal, hitems⟩
    exact ⟨hlocal, fun v hv => Value.all_depth _ (hitems v hv)⟩

theorem Value.all_object_zero {P : Value → Prop} {members : List (String × Value)} :
    (Value.object members).All (fun _ => P) 0 ↔
      P (.object members) ∧ ∀ m ∈ members, m.2.All (fun _ => P) 0 := by
  rw [Value.all_object]
  constructor
  · rintro ⟨hlocal, hmembers⟩
    exact ⟨hlocal, fun m hm => Value.all_depth 0 (hmembers m hm)⟩
  · rintro ⟨hlocal, hmembers⟩
    exact ⟨hlocal, fun m hm => Value.all_depth _ (hmembers m hm)⟩

/-- Values with sorted objects are their own normal form. -/
theorem sortKeys_of_keysSorted {v : Value} (h : v.KeysSorted) : sortKeys v = v := by
  unfold Value.KeysSorted at h
  induction v using Value.induction with
  | null | bool b | number n | string s => rfl
  | array items ih =>
    obtain ⟨-, hitems⟩ := Value.all_array_zero.mp h
    rw [sortKeys, sortKeysItems_eq_map, List.map_congr_left fun v hv => ih v hv (hitems v hv),
      List.map_id']
  | object members ih =>
    obtain ⟨hlocal, hmembers⟩ := Value.all_object_zero.mp h
    have hmap : (members.map fun m => (m.1, sortKeys m.2)) = members := by
      conv_rhs => rw [← List.map_id members]
      apply List.map_congr_left
      intro m hm
      exact Prod.ext rfl (ih m hm (hmembers m hm))
    rw [sortKeys, sortKeysMembers_eq_map, hmap, sortByKey_of_sorted hlocal]

/-- The normal form has sorted objects. -/
theorem keysSorted_sortKeys {v : Value} (h : v.DistinctKeys) : (sortKeys v).KeysSorted := by
  unfold Value.DistinctKeys at h
  unfold Value.KeysSorted
  induction v using Value.induction with
  | null | bool b | number n | string s => exact trivial
  | array items ih =>
    obtain ⟨-, hitems⟩ := Value.all_array_zero.mp h
    rw [sortKeys, sortKeysItems_eq_map]
    refine Value.all_array_zero.mpr ⟨trivial, ?_⟩
    intro v hv
    obtain ⟨u, hu, rfl⟩ := List.mem_map.mp hv
    exact ih u hu (hitems u hu)
  | object members ih =>
    obtain ⟨hnodup, hmembers⟩ := Value.all_object_zero.mp h
    rw [sortKeys]
    refine Value.all_object_zero.mpr ⟨?_, ?_⟩
    · have hkeys : ((sortByKey (sortKeysMembers members)).map Prod.fst).Nodup :=
        (map_fst_sortKeys_perm members).nodup_iff.mpr hnodup
      have hne := List.pairwise_map.mp hkeys
      exact (sortByKey_sorted _).imp₂ (fun _ _ hle hne => lt_of_le_of_ne hle hne) hne
    · intro m hm
      obtain ⟨u, hu, rfl⟩ := List.mem_map.mp ((sortKeys_object_perm members).mem_iff.mp hm)
      exact ih u hu (hmembers u hu)

theorem sortKeys_sortKeys {v : Value} (h : v.DistinctKeys) : sortKeys (sortKeys v) = sortKeys v :=
  sortKeys_of_keysSorted (keysSorted_sortKeys h)

theorem distinctKeys_sortKeys {v : Value} (h : v.DistinctKeys) : (sortKeys v).DistinctKeys := by
  refine Value.all_sortKeys ?_ h
  intro _ v hv
  cases v with
  | null | bool b | number n | string s | array items => exact trivial
  | object members => exact (map_fst_sortKeys_perm members).nodup_iff.mpr hv

/-! ## Equality up to the order of members -/

mutual

/-- Equality of JSON values, where the members of an object have no order. -/
def Value.EqUpToOrder : Value → Value → Prop
  | .array items, .array items' => Value.EqItems items items'
  | .object members, .object members' =>
    ∃ listed, listed.Perm members' ∧ Value.EqMembers members listed
  | v, v' => v = v'

/-- The items agree one by one. -/
def Value.EqItems : List Value → List Value → Prop
  | [], items' => items' = []
  | v :: items, items' => ∃ v' rest, items' = v' :: rest ∧ v.EqUpToOrder v' ∧ Value.EqItems items rest

/-- The members agree one by one. -/
def Value.EqMembers : List (String × Value) → List (String × Value) → Prop
  | [], members' => members' = []
  | m :: members, members' =>
    ∃ m' rest, members' = m' :: rest ∧ Value.EqMember m m' ∧ Value.EqMembers members rest

/-- Equal keys, and values that agree up to order. -/
def Value.EqMember : String × Value → String × Value → Prop
  | (k, v), m' => k = m'.1 ∧ v.EqUpToOrder m'.2

end

theorem Value.eqItems_iff {items items' : List Value} :
    Value.EqItems items items' ↔ List.Forall₂ Value.EqUpToOrder items items' := by
  induction items generalizing items' with
  | nil => rw [Value.EqItems, List.forall₂_nil_left_iff]
  | cons v items ih =>
    rw [Value.EqItems, List.forall₂_cons_left_iff]
    constructor
    · rintro ⟨v', rest, rfl, hv, hrest⟩
      exact ⟨v', rest, hv, ih.mp hrest, rfl⟩
    · rintro ⟨v', rest, hv, hrest, rfl⟩
      exact ⟨v', rest, rfl, hv, ih.mpr hrest⟩

theorem Value.eqMembers_iff {members members' : List (String × Value)} :
    Value.EqMembers members members' ↔
      List.Forall₂ (fun m m' => m.1 = m'.1 ∧ m.2.EqUpToOrder m'.2) members members' := by
  induction members generalizing members' with
  | nil => rw [Value.EqMembers, List.forall₂_nil_left_iff]
  | cons m members ih =>
    obtain ⟨k, v⟩ := m
    rw [Value.EqMembers, List.forall₂_cons_left_iff]
    simp only [Value.EqMember]
    constructor
    · rintro ⟨m', rest, rfl, hm, hrest⟩
      exact ⟨m', rest, hm, ih.mp hrest, rfl⟩
    · rintro ⟨m', rest, hm, hrest, rfl⟩
      exact ⟨m', rest, rfl, hm, ih.mpr hrest⟩

/-- Related elements have the same image. -/
theorem map_eq_map_iff_forall₂ {α β : Type} {f : α → β} {l l' : List α} :
    l.map f = l'.map f ↔ List.Forall₂ (fun a b => f a = f b) l l' := by
  rw [← List.forall₂_eq_eq_eq, List.forall₂_map_left_iff, List.forall₂_map_right_iff]

/-- A map that is injective on the elements of two lists. -/
theorem map_inj_on {α β : Type*} {f : α → β} {xs ys : List α}
    (hf : ∀ x ∈ xs, ∀ y ∈ ys, f x = f y → x = y) (h : xs.map f = ys.map f) : xs = ys := by
  induction xs generalizing ys with
  | nil => exact (List.map_eq_nil_iff.mp h.symm).symm
  | cons x xs ih =>
    cases ys with
    | nil => cases h
    | cons y ys =>
      obtain ⟨hxy, hrest⟩ := List.cons.inj h
      rw [hf x (by simp) y (by simp) hxy,
        ih (fun a ha b hb => hf a (by simp [ha]) b (by simp [hb])) hrest]

theorem forall₂_congr_mem {α β : Type} {R S : α → β → Prop} {l : List α} {l' : List β}
    (h : ∀ a ∈ l, ∀ b ∈ l', R a b ↔ S a b) : List.Forall₂ R l l' ↔ List.Forall₂ S l l' := by
  rw [List.forall₂_iff_get, List.forall₂_iff_get]
  apply and_congr_right
  intro _
  apply forall_congr'
  intro i
  apply forall_congr'
  intro hi
  apply forall_congr'
  intro hi'
  exact h _ (List.get_mem l ⟨i, hi⟩) _ (List.get_mem l' ⟨i, hi'⟩)

/-- Equal normal forms are equality up to the order of members. -/
theorem sortKeys_eq_iff {u v : Value} (hu : u.DistinctKeys) (hv : v.DistinctKeys) :
    sortKeys u = sortKeys v ↔ u.EqUpToOrder v := by
  unfold Value.DistinctKeys at hu hv
  induction u using Value.induction generalizing v with
  | null | bool b | number n | string s => cases v <;> simp [sortKeys, Value.EqUpToOrder]
  | array items ih =>
    cases v with
    | array items' =>
      obtain ⟨-, hitems⟩ := Value.all_array_zero.mp hu
      obtain ⟨-, hitems'⟩ := Value.all_array_zero.mp hv
      rw [sortKeys, sortKeys, sortKeysItems_eq_map, sortKeysItems_eq_map, Value.array.injEq,
        Value.EqUpToOrder, Value.eqItems_iff, map_eq_map_iff_forall₂]
      apply forall₂_congr_mem
      intro a ha b hb
      exact ih a ha (hitems a ha) (hitems' b hb)
    | _ => simp [sortKeys, Value.EqUpToOrder]
  | object members ih =>
    cases v with
    | object members' =>
      obtain ⟨hnodup, hmembers⟩ := Value.all_object_zero.mp hu
      obtain ⟨-, hmembers'⟩ := Value.all_object_zero.mp hv
      let f : String × Value → String × Value := fun m => (m.1, sortKeys m.2)
      have hkeys : ((members.map f).map Prod.fst).Nodup := by
        rw [List.map_map]
        exact hnodup
      -- objects have one normal form for all orders of their members
      have hnormal : sortKeys (.object members) = sortKeys (.object members') ↔
          (members.map f).Perm (members'.map f) := by
        rw [sortKeys, sortKeys, Value.object.injEq, sortKeysMembers_eq_map, sortKeysMembers_eq_map]
        constructor
        · intro h
          exact (sortByKey_perm _).symm.trans ((List.Perm.of_eq h).trans (sortByKey_perm _))
        · intro h
          exact sortByKey_eq_of_perm h hkeys
      have hmatch : ∀ listed : List (String × Value), listed.Perm members' →
          (members.map f = listed.map f ↔ Value.EqMembers members listed) := by
        intro listed hlisted
        rw [map_eq_map_iff_forall₂, Value.eqMembers_iff]
        apply forall₂_congr_mem
        intro a ha b hb
        rw [Prod.ext_iff, ih a ha (hmembers a ha) (hmembers' b (hlisted.subset hb))]
      have hperm : (members.map f).Perm (members'.map f) ↔
          ∃ listed : List (String × Value), members.map f = listed.map f ∧ listed.Perm members' :=
        Iff.of_eq (congrFun (congrFun (List.eq_map_comp_perm f) _) _).symm
      rw [hnormal, hperm, Value.EqUpToOrder]
      constructor
      · rintro ⟨listed, heq, hlisted⟩
        exact ⟨listed, hlisted, (hmatch listed hlisted).mp heq⟩
      · rintro ⟨listed, hlisted, hmembersEq⟩
        exact ⟨listed, (hmatch listed hlisted).mpr hmembersEq, hlisted⟩
    | _ => simp [sortKeys, Value.EqUpToOrder]

end BaselineOps.Domain
