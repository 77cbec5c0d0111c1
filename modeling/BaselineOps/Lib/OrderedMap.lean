import Mathlib

/-!
# Ordered maps with distinct keys

`BTreeMap` is `Std.TreeMap`. For a map collected from pairs with distinct keys: its entries are the
pairs, and its size is the number of its keys as a finite set, so that maps are compared by counting.
-/

namespace BaselineOps.Lib.OrderedMap

open Std

variable {α β : Type} [Ord α] [TransOrd α] [LawfulEqOrd α] [DecidableEq α]

/-- The keys of a map. -/
def keySet (map : TreeMap α β) : Finset α := map.keys.toFinset

theorem mem_keySet {map : TreeMap α β} {key : α} :
    key ∈ keySet map ↔ ∃ value, map[key]? = some value := by
  rw [keySet, List.mem_toFinset, TreeMap.mem_keys, TreeMap.mem_iff_isSome_getElem?,
    Option.isSome_iff_exists]

omit [LawfulEqOrd α] in
theorem size_eq_card (map : TreeMap α β) : map.size = (keySet map).card := by
  rw [keySet, List.toFinset_card_of_nodup TreeMap.nodup_keys, TreeMap.length_keys]

theorem getElem?_erase_eq (map : TreeMap α β) (erased key : α) :
    (map.erase erased)[key]? = if erased = key then none else map[key]? := by
  simp only [TreeMap.getElem?_erase, Std.compare_eq_iff_eq]

theorem getElem?_insert_eq (map : TreeMap α β) (inserted key : α) (value : β) :
    (map.insert inserted value)[key]? = if inserted = key then some value else map[key]? := by
  simp only [TreeMap.getElem?_insert, Std.compare_eq_iff_eq]

/-- The entries of a map collected from pairs with distinct keys. -/
theorem getElem?_ofList_iff {pairs : List (α × β)} (h : (pairs.map Prod.fst).Nodup) {key : α}
    {value : β} : (TreeMap.ofList pairs)[key]? = some value ↔ (key, value) ∈ pairs := by
  have hpairwise : pairs.Pairwise fun a b => ¬ compare a.1 b.1 = .eq := by
    rw [List.Nodup, List.pairwise_map] at h
    exact h.imp fun hne heq => hne (Std.compare_eq_iff_eq.mp heq)
  constructor
  · intro hget
    -- The key is that of some pair, and the map holds this pair's value.
    have hmem : key ∈ pairs.map Prod.fst := by
      by_contra hnot
      rw [TreeMap.getElem?_ofList_of_contains_eq_false (by simpa using hnot)] at hget
      cases hget
    obtain ⟨pair, hpair, rfl⟩ := List.mem_map.mp hmem
    rw [TreeMap.getElem?_ofList_of_mem (Std.compare_eq_iff_eq.mpr rfl) hpairwise hpair] at hget
    cases hget
    exact hpair
  · intro hmem
    exact TreeMap.getElem?_ofList_of_mem (Std.compare_eq_iff_eq.mpr rfl) hpairwise hmem

theorem keySet_ofList {pairs : List (α × β)} (h : (pairs.map Prod.fst).Nodup) :
    keySet (TreeMap.ofList pairs) = (pairs.map Prod.fst).toFinset := by
  ext key
  rw [mem_keySet, List.mem_toFinset, List.mem_map]
  constructor
  · rintro ⟨value, hvalue⟩
    exact ⟨_, (getElem?_ofList_iff h).mp hvalue, rfl⟩
  · rintro ⟨pair, hpair, rfl⟩
    exact ⟨_, (getElem?_ofList_iff h).mpr hpair⟩

omit [DecidableEq α] in
/-- Two maps have the same entries when they have the same value for every key. -/
theorem toList_eq_iff {map map' : TreeMap α β} :
    map.toList = map'.toList ↔ ∀ key : α, map[key]? = map'[key]? := by
  constructor
  · intro h key
    ext value
    rw [← TreeMap.mem_toList_iff_getElem?_eq_some, h, TreeMap.mem_toList_iff_getElem?_eq_some]
  · intro h
    have hnodup : ∀ m : TreeMap α β, m.toList.Nodup := by
      intro m
      refine (TreeMap.distinct_keys_toList (t := m)).imp fun hne heq => hne ?_
      exact Std.compare_eq_iff_eq.mpr (congrArg Prod.fst heq)
    have hperm : map.toList.Perm map'.toList := by
      rw [List.perm_ext_iff_of_nodup (hnodup map) (hnodup map')]
      rintro ⟨key, value⟩
      rw [TreeMap.mem_toList_iff_getElem?_eq_some, TreeMap.mem_toList_iff_getElem?_eq_some, h]
    exact (TreeMap.Equiv.of_toList_perm hperm).toList_eq

/-- Erasing keys one after another. -/
theorem getElem?_foldl_erase (keys : List α) (map : TreeMap α β) (key : α) :
    (keys.foldl (fun map erased => map.erase erased) map)[key]? =
      if key ∈ keys then none else map[key]? := by
  induction keys generalizing map with
  | nil => simp
  | cons erased keys ih =>
    rw [List.foldl_cons, ih, getElem?_erase_eq]
    by_cases hkeys : key ∈ keys
    · simp [hkeys]
    · by_cases herased : erased = key
      · simp [herased]
      · simp [hkeys, herased, Ne.symm herased]

/-- Inserting entries with distinct keys one after another. -/
theorem getElem?_foldl_insert {entries : List (α × β)} (h : (entries.map Prod.fst).Nodup)
    (map : TreeMap α β) (key : α) (value : β) :
    (entries.foldl (fun map entry => map.insert entry.1 entry.2) map)[key]? = some value ↔
      (key, value) ∈ entries ∨ key ∉ entries.map Prod.fst ∧ map[key]? = some value := by
  induction entries generalizing map with
  | nil => simp
  | cons entry entries ih =>
    obtain ⟨inserted, stored⟩ := entry
    rw [List.map_cons, List.nodup_cons] at h
    rw [List.foldl_cons, ih h.2, getElem?_insert_eq]
    by_cases hkey : inserted = key
    · subst hkey
      have hfresh : ∀ value, (inserted, value) ∉ entries :=
        fun value hmem => h.1 (List.mem_map.mpr ⟨_, hmem, rfl⟩)
      simp [h.1, hfresh, eq_comm]
    · simp [hkey, Ne.symm hkey]

/-- Erasing all keys of a map and inserting the entries of another one gives the other one. -/
theorem getElem?_replace (map map' : TreeMap α β) (key : α) :
    (map'.toList.foldl (fun map entry => map.insert entry.1 entry.2)
      (map.keys.foldl (fun map erased => map.erase erased) map))[key]? = map'[key]? := by
  have hnodup : (map'.toList.map Prod.fst).Nodup := by
    rw [TreeMap.map_fst_toList_eq_keys]
    exact TreeMap.nodup_keys
  ext value
  rw [getElem?_foldl_insert hnodup, getElem?_foldl_erase, TreeMap.mem_toList_iff_getElem?_eq_some]
  have hnone : (if key ∈ map.keys then none else map[key]?) = none := by
    split_ifs with hkey
    · rfl
    · rwa [TreeMap.mem_keys, TreeMap.mem_iff_isSome_getElem?, Option.not_isSome_iff_eq_none] at hkey
  rw [hnone]
  simp

end BaselineOps.Lib.OrderedMap
