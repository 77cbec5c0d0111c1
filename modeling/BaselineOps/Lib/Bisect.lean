import Mathlib

/-!
# Bisection

`binarySearch` looks an element up in an ascending list, as `slice::binary_search` does: it narrows the
list down to one candidate, which it compares last. `bisect` finds the last number that passes a test,
where every number below a passing one passes.

* `binarySearch_iff`: in an ascending list the search finds exactly the elements.
* `bisect_eq_iff`: what the bisection of a test returns.
* `sortedLT_destutter_sort`: sorting and dropping repetitions leaves a strictly ascending list of the
  same elements.
-/

namespace BaselineOps.Lib

section Search

variable {α : Type*} [LinearOrder α]

/-- The loop of `slice::binary_search`: `size` elements from `base` on are left, and the index of the
    last candidate is returned. -/
def searchFrom (l : List α) (x : α) (base size : ℕ) : ℕ :=
  if 1 < size then
    let mid := base + size / 2
    match l[mid]? with
    | some y => if x < y then searchFrom l x base (size - size / 2) else searchFrom l x mid (size - size / 2)
    | none => base
  else base
termination_by size

/-- `slice::binary_search(x).is_ok()`. -/
def binarySearch (l : List α) (x : α) : Bool :=
  if l = [] then false else l[searchFrom l x 0 l.length]? = some x

/-- What the loop keeps: `x` is among the elements left if it is in the list at all. -/
def Among (l : List α) (x : α) (base size : ℕ) : Prop :=
  ∀ i : ℕ, l[i]? = some x → ∃ j, base ≤ j ∧ j < base + size ∧ l[j]? = some x

theorem getElem?_le_of_sorted {l : List α} (hsorted : l.SortedLE) {i j : ℕ} {x y : α} (hij : i ≤ j)
    (hx : l[i]? = some x) (hy : l[j]? = some y) : x ≤ y := by
  obtain ⟨hi, rfl⟩ := List.getElem?_eq_some_iff.mp hx
  obtain ⟨hj, rfl⟩ := List.getElem?_eq_some_iff.mp hy
  exact List.sortedLE_iff_getElem_le_getElem_of_le.mp hsorted hij

theorem searchFrom_among {l : List α} (hsorted : l.SortedLE) {x : α} {base size : ℕ} (hsize : 0 < size)
    (hlength : base + size ≤ l.length) (hx : Among l x base size) :
    Among l x (searchFrom l x base size) 1 := by
  fun_induction searchFrom l x base size with
  | case1 base size hlt mid y hy hxy ih =>
    -- everything from the middle on is greater
    refine ih (by omega) (by omega) fun i hi => ?_
    obtain ⟨j, hbase, hj, hjx⟩ := hx i hi
    have hmid : j < mid := by
      by_contra hle
      exact absurd hxy (not_lt_of_ge (getElem?_le_of_sorted hsorted (by omega) hy hjx))
    exact ⟨j, hbase, by omega, hjx⟩
  | case2 base size hlt mid y hy hxy ih =>
    refine ih (by omega) (by omega) fun i hi => ?_
    obtain ⟨j, hbase, hj, hjx⟩ := hx i hi
    rcases Nat.lt_or_ge j mid with hlt' | hge
    · -- an equal element below the middle means that the middle is equal, too
      have hle := getElem?_le_of_sorted hsorted hlt'.le hjx hy
      have heq : y = x := le_antisymm (not_lt.mp hxy) hle
      exact ⟨mid, le_rfl, by omega, by rw [hy, heq]⟩
    · exact ⟨j, hge, by omega, hjx⟩
  | case3 base size hlt mid hnone =>
    have hmid : mid < l.length := by omega
    rw [List.getElem?_eq_getElem hmid] at hnone
    cases hnone
  | case4 base size hle =>
    have hone : size = 1 := by omega
    rwa [hone] at hx

theorem binarySearch_iff {l : List α} (hsorted : l.SortedLE) (x : α) :
    binarySearch l x = true ↔ x ∈ l := by
  unfold binarySearch
  split_ifs with hnil
  · simp [hnil]
  · have hpos : 0 < l.length := List.length_pos_of_ne_nil hnil
    have hall : Among l x 0 l.length := by
      intro i hi
      obtain ⟨hlt, -⟩ := List.getElem?_eq_some_iff.mp hi
      exact ⟨i, i.zero_le, by omega, hi⟩
    have hlast := searchFrom_among hsorted hpos (by omega) hall
    rw [decide_eq_true_iff]
    constructor
    · exact List.mem_of_getElem?
    · intro hx
      obtain ⟨i, hi⟩ := List.getElem?_of_mem hx
      obtain ⟨j, hbase, hj, hjx⟩ := hlast i hi
      rwa [show searchFrom l x 0 l.length = j by omega]

/-- `sort_unstable`: equal elements of a linear order are identical. -/
def sortUnstable (l : List α) : List α := l.insertionSort (· ≤ ·)

@[simp] theorem mem_sortUnstable {l : List α} {x : α} : x ∈ sortUnstable l ↔ x ∈ l :=
  List.mem_insertionSort _

theorem sortedLE_sortUnstable (l : List α) : (sortUnstable l).SortedLE := List.sortedLE_insertionSort

/-- `sort_unstable` followed by `dedup`, which drops an element equal to the one before. -/
def sortDedup (l : List α) : List α := (sortUnstable l).destutter (· ≠ ·)

theorem sortDedup_eq (l : List α) : sortDedup l = (sortUnstable l).dedup :=
  (sortedLE_sortUnstable l).pairwise.destutter_eq_dedup

@[simp] theorem mem_sortDedup {l : List α} {x : α} : x ∈ sortDedup l ↔ x ∈ l := by
  rw [sortDedup_eq, List.mem_dedup, mem_sortUnstable]

theorem sortedLT_sortDedup (l : List α) : (sortDedup l).SortedLT := by
  rw [List.sortedLT_iff_nodup_and_sortedLE]
  constructor
  · rw [sortDedup_eq]
    exact List.nodup_dedup _
  · exact ((sortedLE_sortUnstable l).pairwise.sublist (List.destutter_sublist _ _)).sortedLE

/-- Sorting and dropping repetitions keeps the length of a list without repetitions only. -/
theorem length_sortDedup_eq_iff {l : List α} : (sortDedup l).length = l.length ↔ l.Nodup := by
  have hperm : (sortUnstable l).Perm l := List.perm_insertionSort _ l
  rw [← hperm.nodup_iff, ← hperm.length_eq, sortDedup_eq]
  constructor
  · intro hlength
    rw [← (List.dedup_sublist _).eq_of_length hlength]
    exact List.nodup_dedup _
  · intro hnodup
    rw [hnodup.dedup]

end Search

/-! ## The last number that passes -/

/-- `while (low < high)`: the middle is rounded up. -/
def bisect (passes : ℕ → Bool) (low high : ℕ) : ℕ :=
  if low < high then
    let mid := (low + high + 1) / 2
    if passes mid then bisect passes mid high else bisect passes low (mid - 1)
  else low
termination_by high - low

/-- The bisection returns the last passing number, or `low` where no later one passes. -/
theorem bisect_spec {passes : ℕ → Bool} (hmono : ∀ m n, m ≤ n → passes n = true → passes m = true)
    {low high : ℕ} (hle : low ≤ high) (hlow : passes low = true) :
    low ≤ bisect passes low high ∧ bisect passes low high ≤ high ∧
      passes (bisect passes low high) = true ∧
      ∀ n, bisect passes low high < n → n ≤ high → passes n = false := by
  fun_induction bisect passes low high with
  | case1 low high hlt mid hmid ih =>
    obtain ⟨hge, hhigh, hpass, hlast⟩ := ih (by omega) hmid
    exact ⟨by omega, hhigh, hpass, hlast⟩
  | case2 low high hlt mid hmid ih =>
    obtain ⟨hge, hhigh, hpass, hlast⟩ := ih (by omega) hlow
    refine ⟨hge, by omega, hpass, fun n hn hnhigh => ?_⟩
    rcases Nat.lt_or_ge n mid with hlt' | hge'
    · exact hlast n hn (by omega)
    · by_contra hn'
      exact hmid (hmono mid n hge' (by simpa using hn'))
  | case3 low high hlt =>
    exact ⟨le_rfl, hle, hlow, fun n hn hnhigh => by omega⟩

theorem bisect_eq_iff {passes : ℕ → Bool} (hmono : ∀ m n, m ≤ n → passes n = true → passes m = true)
    {high n : ℕ} (hzero : passes 0 = true) :
    bisect passes 0 high = n ↔
      n ≤ high ∧ passes n = true ∧ ∀ m, n < m → m ≤ high → passes m = false := by
  obtain ⟨-, hhigh, hpass, hlast⟩ := bisect_spec hmono high.zero_le hzero
  constructor
  · rintro rfl
    exact ⟨hhigh, hpass, hlast⟩
  · rintro ⟨hn, hpass', hlast'⟩
    rcases Nat.lt_trichotomy (bisect passes 0 high) n with hlt | heq | hgt
    · have hfail := hlast n hlt hn
      rw [hpass'] at hfail
      cases hfail
    · exact heq
    · have hfail := hlast' _ hgt hhigh
      rw [hpass] at hfail
      cases hfail

end BaselineOps.Lib
