import Mathlib.Data.List.AList
import Mathlib.Data.List.TakeWhile

/-!
# A replay cache with eviction by age and by size

Keys are kept with the time they were accepted at, and in the order of acceptance. Both evictions
start at the oldest key and run until they meet one that may stay. `Holds` says which keys a cache
remembers; as long as all of them are young (`evictExpired_of_young`) and there is room
(`evictCapacity_of_room`), nothing is forgotten. `Remembers` compares them with the log of all that
was ever accepted: what was forgotten is old, or has a whole capacity of newer keys behind it.
-/

namespace BaselineOps.Lib.ReplayCache

variable {K : Type} [DecidableEq K]

/-- Drop keys from the front until one is younger than `ttl`. A key without a time is dropped. -/
def evictExpired (ttl now : ℕ) : List K → AList (fun _ : K => ℕ) → List K × AList (fun _ : K => ℕ)
  | [], seen => ([], seen)
  | key :: order, seen =>
    match seen.lookup key with
    | none => evictExpired ttl now order seen
    | some acceptedAt =>
      if now - acceptedAt < ttl then (key :: order, seen)
      else evictExpired ttl now order (seen.erase key)

/-- Drop keys from the front until fewer than `capacity` are left. -/
def evictCapacity (capacity : ℕ) : List K → AList (fun _ : K => ℕ) → List K × AList (fun _ : K => ℕ)
  | [], seen => ([], seen)
  | key :: order, seen =>
    if capacity ≤ (key :: order).length then evictCapacity capacity order (seen.erase key)
    else (key :: order, seen)

/-- The cache remembers exactly these keys, in this order, with the times they were accepted at. -/
structure Holds (order : List K) (seen : AList fun _ : K => ℕ) (entries : List (K × ℕ)) : Prop where
  order : order = entries.map Prod.fst
  nodup : (entries.map Prod.fst).Nodup
  seen : ∀ key time, seen.lookup key = some time ↔ (key, time) ∈ entries

section Holds

variable {order : List K} {seen : AList fun _ : K => ℕ} {entries : List (K × ℕ)}

theorem holds_empty : Holds ([] : List K) ∅ [] where
  order := rfl
  nodup := List.nodup_nil
  seen := by simp

theorem Holds.mem_iff (h : Holds order seen entries) {key : K} :
    key ∈ seen ↔ key ∈ entries.map Prod.fst := by
  rw [← AList.lookup_isSome, Option.isSome_iff_exists, List.mem_map]
  constructor
  · rintro ⟨time, htime⟩
    exact ⟨(key, time), (h.seen key time).mp htime, rfl⟩
  · rintro ⟨⟨_, time⟩, hmem, rfl⟩
    exact ⟨time, (h.seen _ time).mpr hmem⟩

/-- Nothing expires while every key is young. -/
theorem evictExpired_of_young (h : Holds order seen entries) {ttl now : ℕ}
    (hyoung : ∀ entry ∈ entries, now - entry.2 < ttl) :
    evictExpired ttl now order seen = (order, seen) := by
  rw [h.order]
  cases entries with
  | nil => rfl
  | cons entry entries =>
    have hlookup := (h.seen entry.1 entry.2).mpr List.mem_cons_self
    rw [List.map_cons, evictExpired, hlookup]
    exact if_pos (hyoung entry List.mem_cons_self)

/-- Nothing is dropped while there is room. -/
theorem evictCapacity_of_room {capacity : ℕ} (hroom : order.length < capacity) :
    evictCapacity capacity order seen = (order, seen) := by
  cases order with
  | nil => rfl
  | cons key order =>
    rw [evictCapacity]
    exact if_neg (Nat.not_le.mpr hroom)

/-- A new key is remembered behind the others. -/
theorem Holds.push (h : Holds order seen entries) {key : K} (hnew : key ∉ seen) (now : ℕ) :
    Holds (order ++ [key]) (seen.insert key now) (entries ++ [(key, now)]) where
  order := by rw [h.order, List.map_append, List.map_cons, List.map_nil]
  nodup := by
    rw [List.map_append, List.map_cons, List.map_nil, ← List.concat_eq_append]
    exact h.nodup.concat (fun hmem => hnew (h.mem_iff.mpr hmem))
  seen := by
    intro key' time
    rw [List.mem_append, List.mem_singleton, Prod.mk.injEq]
    by_cases hkey : key' = key
    · subst hkey
      rw [AList.lookup_insert, Option.some.injEq]
      constructor
      · rintro rfl
        exact .inr ⟨rfl, rfl⟩
      · rintro (hmem | ⟨-, rfl⟩)
        · exact absurd (h.mem_iff.mpr (List.mem_map_of_mem hmem)) hnew
        · rfl
    · rw [AList.lookup_insert_ne hkey, h.seen]
      constructor
      · intro hmem
        exact .inl hmem
      · rintro (hmem | ⟨heq, -⟩)
        · exact hmem
        · exact absurd heq hkey

theorem Holds.tail {entry : K × ℕ} (h : Holds order seen (entry :: entries)) :
    Holds (entries.map Prod.fst) (seen.erase entry.1) entries where
  order := rfl
  nodup := (List.nodup_cons.mp h.nodup).2
  seen := by
    intro key time
    have hnot := (List.nodup_cons.mp h.nodup).1
    by_cases hkey : key = entry.1
    · subst hkey
      rw [AList.lookup_erase]
      constructor
      · intro hnone
        cases hnone
      · intro hmem
        exact absurd (List.mem_map_of_mem hmem) hnot
    · rw [AList.lookup_erase_ne hkey, h.seen, List.mem_cons]
      constructor
      · rintro (rfl | hmem)
        · exact absurd rfl hkey
        · exact hmem
      · exact .inr

/-- The keys that expire are the first ones. -/
theorem Holds.evictExpired (h : Holds order seen entries) (ttl now : ℕ) :
    Holds (evictExpired ttl now order seen).1 (evictExpired ttl now order seen).2
      (entries.dropWhile fun entry => decide (ttl ≤ now - entry.2)) := by
  induction entries generalizing order seen with
  | nil =>
    have horder : order = [] := h.order
    subst horder
    exact h
  | cons entry entries ih =>
    have horder : order = entry.1 :: entries.map Prod.fst := h.order
    have hlookup := (h.seen entry.1 entry.2).mpr List.mem_cons_self
    subst horder
    rw [ReplayCache.evictExpired, hlookup]
    by_cases hold : ttl ≤ now - entry.2
    · rw [List.dropWhile_cons_of_pos (by simpa using hold)]
      simp only [if_neg (Nat.not_lt.mpr hold)]
      exact ih h.tail
    · rw [List.dropWhile_cons_of_neg (by simpa using hold)]
      simp only [if_pos (Nat.not_le.mp hold)]
      exact h

/-- The keys that make room are the first ones. -/
theorem Holds.evictCapacity (h : Holds order seen entries) (capacity : ℕ) :
    Holds (evictCapacity capacity order seen).1 (evictCapacity capacity order seen).2
      (entries.drop (entries.length + 1 - capacity)) := by
  induction entries generalizing order seen with
  | nil =>
    have horder : order = [] := h.order
    subst horder
    simpa [ReplayCache.evictCapacity] using h
  | cons entry entries ih =>
    have horder : order = entry.1 :: entries.map Prod.fst := h.order
    subst horder
    rw [ReplayCache.evictCapacity, List.length_cons, List.length_map, List.length_cons]
    by_cases hfull : capacity ≤ entries.length + 1
    · have hdrop : entries.length + 1 + 1 - capacity = (entries.length + 1 - capacity) + 1 := by omega
      rw [if_pos hfull, hdrop, List.drop_succ_cons]
      exact ih h.tail
    · have hdrop : entries.length + 1 + 1 - capacity = 0 := by omega
      rw [if_neg hfull, hdrop, List.drop_zero]
      exact h

end Holds

/-! ## The log of accepted keys -/

/-- The cache remembers the log from `forgotten` on. What comes before is old, or `capacity` keys
    were accepted behind it. -/
structure Remembers (ttl capacity now : ℕ) (log entries : List (K × ℕ)) (forgotten : ℕ) : Prop where
  remembered : entries = log.drop forgotten
  bound : forgotten ≤ log.length
  why : ∀ i < forgotten, ∀ entry, log[i]? = some entry →
    ttl ≤ now - entry.2 ∨ i + capacity < log.length
  room : entries.length ≤ capacity
  /-- Times along the log do not decrease and none lies ahead. -/
  sorted : (log.map Prod.snd).Pairwise (· ≤ ·)
  past : ∀ entry ∈ log, entry.2 ≤ now

section Remembers

omit [DecidableEq K]

variable {ttl capacity now : ℕ} {log entries : List (K × ℕ)} {forgotten : ℕ}

theorem remembers_empty (ttl capacity now : ℕ) :
    Remembers ttl capacity now ([] : List (K × ℕ)) [] 0 where
  remembered := rfl
  bound := Nat.le_refl 0
  why := by simp
  room := Nat.zero_le capacity
  sorted := List.Pairwise.nil
  past := by simp

theorem Remembers.later (h : Remembers ttl capacity now log entries forgotten) {later : ℕ}
    (hle : now ≤ later) : Remembers ttl capacity later log entries forgotten where
  remembered := h.remembered
  bound := h.bound
  why := by
    intro i hi entry hentry
    obtain hold | hmany := h.why i hi entry hentry
    · exact .inl (Nat.le_trans hold (Nat.sub_le_sub_right hle _))
    · exact .inr hmany
  room := h.room
  sorted := h.sorted
  past := fun entry hmem => Nat.le_trans (h.past entry hmem) hle

theorem Remembers.sorted_entries (h : Remembers ttl capacity now log entries forgotten) :
    entries.Pairwise fun a b => a.2 ≤ b.2 := by
  rw [h.remembered]
  exact (List.pairwise_map.mp h.sorted).drop

/-- Behind the expired keys of a sorted list all keys are young. -/
theorem young_of_mem_dropWhile (hsorted : entries.Pairwise fun a b => a.2 ≤ b.2) {entry : K × ℕ}
    (h : entry ∈ entries.dropWhile fun entry => decide (ttl ≤ now - entry.2)) :
    now - entry.2 < ttl := by
  induction entries with
  | nil => cases h
  | cons first entries ih =>
    obtain ⟨hfirst, hrest⟩ := List.pairwise_cons.mp hsorted
    by_cases hold : ttl ≤ now - first.2
    · rw [List.dropWhile_cons_of_pos (by simpa using hold)] at h
      exact ih hrest h
    · rw [List.dropWhile_cons_of_neg (by simpa using hold)] at h
      obtain rfl | hmem := List.mem_cons.mp h
      · exact Nat.not_le.mp hold
      · have hle := hfirst entry hmem
        omega

/-- Expired keys may be forgotten. -/
theorem Remembers.evictExpired (h : Remembers ttl capacity now log entries forgotten) :
    ∃ n, Remembers ttl capacity now log
      (entries.dropWhile fun entry => decide (ttl ≤ now - entry.2)) n := by
  have hsplit := List.takeWhile_append_dropWhile (p := fun entry : K × ℕ => decide (ttl ≤ now - entry.2))
    (l := entries)
  have hold : ∀ entry ∈ entries.takeWhile fun entry => decide (ttl ≤ now - entry.2),
      ttl ≤ now - entry.2 := by
    intro entry hmem
    simpa using List.mem_takeWhile_imp hmem
  generalize entries.takeWhile (fun entry => decide (ttl ≤ now - entry.2)) = old at hsplit hold
  generalize entries.dropWhile (fun entry => decide (ttl ≤ now - entry.2)) = kept at hsplit ⊢
  have hlength : (old ++ kept).length = log.length - forgotten := by
    rw [hsplit, h.remembered, List.length_drop]
  rw [List.length_append] at hlength
  have hbound := h.bound
  refine ⟨forgotten + old.length, ?_⟩
  exact {
    remembered := by rw [← List.drop_drop, ← h.remembered, ← hsplit, List.drop_left]
    bound := by omega
    why := by
      intro i hi entry hentry
      by_cases hbefore : i < forgotten
      · exact h.why i hbefore entry hentry
      · apply Or.inl
        apply hold entry
        have hat : (old ++ kept)[i - forgotten]? = some entry := by
          rw [hsplit, h.remembered, List.getElem?_drop, Nat.add_sub_cancel' (Nat.not_lt.mp hbefore)]
          exact hentry
        rw [List.getElem?_append_left (by omega)] at hat
        exact List.mem_of_getElem? hat
    room := by
      have hroom := h.room
      rw [← hsplit, List.length_append] at hroom
      omega
    sorted := h.sorted
    past := h.past }

/-- A new key is logged; to make room for it, keys with a whole capacity behind them are forgotten. -/
theorem Remembers.push (h : Remembers ttl capacity now log entries forgotten) (hpos : 0 < capacity)
    (key : K) :
    ∃ n, Remembers ttl capacity now (log ++ [(key, now)])
      (entries.drop (entries.length + 1 - capacity) ++ [(key, now)]) n := by
  have hlength : entries.length = log.length - forgotten := by rw [h.remembered, List.length_drop]
  have hbound := h.bound
  have hroom := h.room
  refine ⟨forgotten + (entries.length + 1 - capacity), ?_⟩
  exact {
    remembered := by
      rw [List.drop_append_of_le_length (by omega), ← List.drop_drop, ← h.remembered]
    bound := by
      rw [List.length_append]
      omega
    why := by
      intro i hi entry hentry
      rw [List.length_append, List.length_singleton]
      by_cases hbefore : i < forgotten
      · rw [List.getElem?_append_left (by omega)] at hentry
        obtain hold | hmany := h.why i hbefore entry hentry
        · exact .inl hold
        · exact .inr (by omega)
      · exact .inr (by omega)
    room := by
      rw [List.length_append, List.length_drop, List.length_singleton]
      omega
    sorted := by
      rw [List.map_append, List.pairwise_append]
      refine ⟨h.sorted, List.pairwise_singleton _ _, ?_⟩
      intro time htime time' htime'
      obtain ⟨entry, hentry, rfl⟩ := List.mem_map.mp htime
      rw [List.map_cons, List.map_nil, List.mem_singleton] at htime'
      subst htime'
      exact h.past entry hentry
    past := by
      intro entry hentry
      rw [List.mem_append, List.mem_singleton] at hentry
      obtain hmem | rfl := hentry
      · exact h.past entry hmem
      · exact Nat.le_refl now }

/-- A key that is no longer remembered was accepted long ago, or many keys were accepted since. -/
theorem Remembers.of_not_mem (h : Remembers ttl capacity now log entries forgotten) {i : ℕ}
    {entry : K × ℕ} (hentry : log[i]? = some entry) (hnot : entry ∉ entries) :
    ttl ≤ now - entry.2 ∨ i + capacity < log.length := by
  apply h.why i _ entry hentry
  by_contra hge
  apply hnot
  rw [h.remembered]
  apply List.mem_iff_getElem?.mpr
  refine ⟨i - forgotten, ?_⟩
  rw [List.getElem?_drop, Nat.add_sub_cancel' (Nat.not_lt.mp hge)]
  exact hentry

end Remembers

end BaselineOps.Lib.ReplayCache
