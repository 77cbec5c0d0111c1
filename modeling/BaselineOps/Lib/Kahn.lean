import Mathlib.Data.Finset.Max
import Mathlib.Data.List.Count
import BaselineOps.Lib.TopologicalOrder

/-!
# Kahn's algorithm with counters

A graph is a list of entries, each a key with the keys it depends on. The algorithm keeps for every
position the number of its unfinished dependencies, counted with multiplicity, and takes the least
position with the counter `0` until there is none. Counters are decremented with a check: `none` is
an underflow or a position out of range.

* `release_eq`: what finishing one position does to the counters.
* `drain_start`: the algorithm never underflows and lists the greedy topological order that is stuck.
-/

namespace BaselineOps.Lib.Kahn

/-! ## The algorithm -/

/-- The counters, and the positions whose counter has reached zero. -/
structure Counters where
  pending : List ℕ
  ready : Finset ℕ

/-- The least element of an ordered set, and the others. -/
def popFirst (s : Finset ℕ) : Option (ℕ × Finset ℕ) :=
  if h : s.Nonempty then some (s.min' h, s.erase (s.min' h)) else none

/-- One dependency of the position `i` is finished. -/
def discharge (c : Counters) (i : ℕ) : Option Counters :=
  match c.pending[i]? with
  | some (k + 1) => some ⟨c.pending.set i k, if k = 0 then insert i c.ready else c.ready⟩
  | _ => none

/-- One dependency is finished for every entry of `dependents`. -/
def release (c : Counters) (dependents : List ℕ) : Option Counters :=
  dependents.foldlM discharge c

/-- The counters at the start. -/
def start (pending : List ℕ) : Counters where
  pending := pending
  ready := (Finset.range pending.length).filter fun i => pending[i]? = some 0

/-- Takes the least ready position, emits what `visit` gives for it and releases its dependents,
    until no position is ready. -/
def drain {β : Type} (visit : ℕ → Option (β × List ℕ)) :
    ℕ → List β → Counters → Option (List β × Counters)
  | 0, _, _ => none
  | fuel + 1, order, c =>
    match popFirst c.ready with
    | none => some (order, c)
    | some (p, ready) => do
      let (x, dependents) ← visit p
      let c ← release ⟨c.pending, ready⟩ dependents
      drain visit fuel (order ++ [x]) c

/-! ## One release -/

theorem popFirst_eq_none {s : Finset ℕ} (h : popFirst s = none) : s = ∅ := by
  unfold popFirst at h
  split_ifs at h with hs
  exact Finset.not_nonempty_iff_eq_empty.mp hs

theorem popFirst_eq_some {s ready : Finset ℕ} {p : ℕ} (h : popFirst s = some (p, ready)) :
    IsLeast (s : Set ℕ) p ∧ ready = s.erase p := by
  unfold popFirst at h
  split_ifs at h with hs
  simp only [Option.some.injEq, Prod.mk.injEq] at h
  obtain ⟨rfl, rfl⟩ := h
  exact ⟨s.isLeast_min' hs, rfl⟩

/-- A release for which the counters suffice. -/
theorem release_eq {c : Counters} {is : List ℕ}
    (h : ∀ i ∈ is, ∃ k, c.pending[i]? = some k ∧ is.count i ≤ k) :
    ∃ c', release c is = some c' ∧
      (∀ j, c'.pending[j]? = c.pending[j]?.map (· - is.count j)) ∧
      ∀ j, j ∈ c'.ready ↔ j ∈ c.ready ∨ (j ∈ is ∧ c.pending[j]? = some (is.count j)) := by
  induction is generalizing c with
  | nil => exact ⟨c, rfl, by simp, by simp⟩
  | cons i is ih =>
    obtain ⟨k, hk, hcount⟩ := h i List.mem_cons_self
    rw [List.count_cons_self] at hcount
    obtain ⟨k, rfl⟩ : ∃ m, k = m + 1 := ⟨k - 1, by omega⟩
    have hlt : i < c.pending.length := (List.getElem?_eq_some_iff.mp hk).1
    let c₁ : Counters := ⟨c.pending.set i k, if k = 0 then insert i c.ready else c.ready⟩
    have hstep : discharge c i = some c₁ := by
      unfold discharge
      rw [hk]
    have hset : ∀ j, c₁.pending[j]? = if i = j then some k else c.pending[j]? := by
      intro j
      show (c.pending.set i k)[j]? = _
      rw [List.getElem?_set]
      split_ifs <;> rfl
    have hcounts : ∀ j ∈ is, ∃ m, c₁.pending[j]? = some m ∧ is.count j ≤ m := by
      intro j hj
      rw [hset j]
      split_ifs with hij
      · subst hij
        exact ⟨k, rfl, by omega⟩
      · obtain ⟨m, hm, hle⟩ := h j (List.mem_cons_of_mem i hj)
        rw [List.count_cons_of_ne hij] at hle
        exact ⟨m, hm, hle⟩
    obtain ⟨c', hrelease, hpending, hready⟩ := ih hcounts
    refine ⟨c', ?_, ?_, ?_⟩
    · show (discharge c i >>= fun c => release c is) = some c'
      rw [hstep]
      exact hrelease
    · intro j
      rw [hpending j, hset j]
      split_ifs with hij
      · subst hij
        rw [hk, List.count_cons_self]
        simp only [Option.map_some]
        congr 1
        omega
      · rw [List.count_cons_of_ne hij]
    · intro j
      rw [hready j, hset j]
      by_cases hij : i = j
      · subst hij
        have hready₁ : i ∈ c₁.ready ↔ i ∈ c.ready ∨ k = 0 := by
          show i ∈ (if k = 0 then insert i c.ready else c.ready) ↔ _
          split_ifs with hzero <;> simp [hzero]
        rw [hready₁, hk, List.count_cons_self, if_pos rfl]
        simp only [Option.some.injEq, List.mem_cons, true_or, true_and, Nat.add_right_cancel_iff]
        by_cases hi : i ∈ is
        · have hpos := List.count_pos_iff.mpr hi
          simp only [hi, true_and]
          constructor
          · rintro ((hmem | hzero) | heq)
            · exact .inl hmem
            · omega
            · exact .inr heq
          · rintro (hmem | heq)
            · exact .inl (.inl hmem)
            · exact .inr heq
        · simp [List.count_eq_zero_of_not_mem hi, hi]
      · have hready₁ : j ∈ c₁.ready ↔ j ∈ c.ready := by
          show j ∈ (if k = 0 then insert i c.ready else c.ready) ↔ _
          split_ifs <;> simp [Ne.symm hij]
        rw [hready₁, if_neg hij, List.count_cons_of_ne hij]
        simp [Ne.symm hij]

/-! ## The graph -/

section Graph

variable {κ : Type} [DecidableEq κ] (graph : List (κ × List κ))

/-- The keys of the entries, in the order of the entries. -/
def keys : List κ := graph.map Prod.fst

/-- The keys as a set. -/
def nodes : Finset κ := (keys graph).toFinset

/-- The entry of `x` lists `y`. -/
def WaitsFor (x y : κ) : Prop := ∃ entry ∈ graph, entry.1 = x ∧ y ∈ entry.2

/-- The position of a key. -/
def rank (x : κ) : ℕ := (keys graph).idxOf x

variable {graph}

theorem mem_nodes {x : κ} : x ∈ nodes graph ↔ x ∈ keys graph := List.mem_toFinset

omit [DecidableEq κ] in
theorem getElem?_keys {i : ℕ} {entry : κ × List κ} (h : graph[i]? = some entry) :
    (keys graph)[i]? = some entry.1 := by
  rw [keys, List.getElem?_map, h, Option.map_some]

theorem rank_of_getElem? (hnodup : (keys graph).Nodup) {i : ℕ} {entry : κ × List κ}
    (h : graph[i]? = some entry) : rank graph entry.1 = i := by
  obtain ⟨hlt, hget⟩ := List.getElem?_eq_some_iff.mp (getElem?_keys h)
  rw [rank, ← hget]
  exact hnodup.idxOf_getElem i hlt

theorem rank_injOn : Set.InjOn (rank graph) (nodes graph) := by
  intro x hx y _ hxy
  exact (List.idxOf_inj (mem_nodes.mp hx)).mp hxy

omit [DecidableEq κ] in
theorem waitsFor_iff (hnodup : (keys graph).Nodup) {entry : κ × List κ} (h : entry ∈ graph)
    {y : κ} : WaitsFor graph entry.1 y ↔ y ∈ entry.2 := by
  constructor
  · rintro ⟨entry', h', hkey, hy⟩
    rw [List.inj_on_of_nodup_map hnodup h h' hkey.symm]
    exact hy
  · intro hy
    exact ⟨entry, h, rfl, hy⟩

theorem card_nodes (hnodup : (keys graph).Nodup) : (nodes graph).card = graph.length := by
  rw [nodes, List.toFinset_card_of_nodup hnodup, keys, List.length_map]

theorem ready_iff (hnodup : (keys graph).Nodup) {done : List κ} {entry : κ × List κ}
    (h : entry ∈ graph) : Ready (nodes graph) (WaitsFor graph) done entry.1 ↔
      entry.1 ∉ done ∧ entry.2.countP (fun y => y ∉ done) = 0 := by
  rw [List.countP_eq_zero]
  constructor
  · rintro ⟨-, hfresh, hdeps⟩
    refine ⟨hfresh, ?_⟩
    intro y hy
    simpa using hdeps y ((waitsFor_iff hnodup h).mpr hy)
  · rintro ⟨hfresh, hzero⟩
    refine ⟨mem_nodes.mpr (List.mem_map_of_mem h), hfresh, ?_⟩
    intro y hy
    simpa using hzero y ((waitsFor_iff hnodup h).mp hy)

/-- Linear lists of all keys are the topological orders of the graph. -/
theorem linear_iff_of_perm {l : List κ} (hnodup : (keys graph).Nodup) (hperm : l.Perm (keys graph)) :
    Linear (nodes graph) (WaitsFor graph) l ↔
      ∀ before x after, l = before ++ x :: after → ∀ y, WaitsFor graph x y → y ∈ before := by
  constructor
  · intro h before x after hl y hy
    exact (h before x after hl).deps y hy
  · intro h
    refine Linear.of_nodup (hperm.nodup_iff.mpr hnodup) ?_ h
    intro x hx
    exact mem_nodes.mpr (hperm.subset hx)

theorem perm_of_linear {l : List κ}
    (h : Linear (nodes graph) (WaitsFor graph) l) (hlen : l.length = graph.length) :
    l.Perm (keys graph) := by
  have hsub : l.Subperm (keys graph) :=
    List.subperm_of_subset h.nodup fun x hx => mem_nodes.mp (h.subset hx)
  apply hsub.perm_of_length_le
  rw [hlen, keys, List.length_map]

/-- Entries listed after all they depend on are in their greedy order. -/
theorem greedy_keys (hnodup : (keys graph).Nodup)
    (hlisted : ∀ before entry after, graph = before ++ entry :: after →
      ∀ y ∈ entry.2, y ∈ keys before) :
    Greedy (nodes graph) (WaitsFor graph) (rank graph) (keys graph) ∧
      Stuck (nodes graph) (WaitsFor graph) (keys graph) := by
  have hlinear : Linear (nodes graph) (WaitsFor graph) (keys graph) := by
    rw [linear_iff_of_perm hnodup (List.Perm.refl _)]
    intro before x after hkeys y hy
    obtain ⟨left, right, hgraph, rfl, hright⟩ := List.map_eq_append_iff.mp hkeys
    obtain ⟨entry, rest, rfl, rfl, -⟩ := List.map_eq_cons_iff.mp hright
    have hmem : entry ∈ graph := by
      rw [hgraph]
      exact List.mem_append_right _ List.mem_cons_self
    exact hlisted left entry rest hgraph y ((waitsFor_iff hnodup hmem).mp hy)
  have hsorted : (keys graph).Pairwise fun x y => rank graph x ≤ rank graph y := by
    rw [List.pairwise_iff_getElem]
    intro i j hi hj hij
    show (keys graph).idxOf _ ≤ (keys graph).idxOf _
    rw [hnodup.idxOf_getElem i hi, hnodup.idxOf_getElem j hj]
    exact Nat.le_of_lt hij
  refine ⟨hlinear.greedy_of_sorted hsorted fun x hx => mem_nodes.mp hx, ?_⟩
  intro x hx
  exact hx.fresh (mem_nodes.mp hx.mem)

end Graph

/-! ## The invariant -/

section Invariant

variable {κ : Type} [DecidableEq κ] (graph : List (κ × List κ))

/-- After the keys `done`: every counter is the number of unfinished dependencies, and the ready set
    is the set of the positions of the ready keys. -/
structure Inv (done : List κ) (c : Counters) : Prop where
  greedy : Greedy (nodes graph) (WaitsFor graph) (rank graph) done
  pending : ∀ (i : ℕ) (entry : κ × List κ), graph[i]? = some entry →
    c.pending[i]? = some (entry.2.countP fun y => y ∉ done)
  ready : ∀ i, i ∈ c.ready ↔
    ∃ entry, graph[i]? = some entry ∧ Ready (nodes graph) (WaitsFor graph) done entry.1

/-- `visit` emits the key at a position, with the positions that wait for it: one for each edge. -/
def Indexed (visit : ℕ → Option (κ × List ℕ)) : Prop :=
  ∀ p x, (keys graph)[p]? = some x → ∃ dependents, visit p = some (x, dependents) ∧
    (∀ i ∈ dependents, i < graph.length) ∧
    ∀ (i : ℕ) (entry : κ × List κ), graph[i]? = some entry → dependents.count i = entry.2.count x

/-- The edges, by the position of their entry, in the order of the entries. -/
def edges : List (ℕ × κ) := graph.zipIdx.flatMap fun entry => entry.1.2.map fun y => (entry.2, y)

/-- The positions that wait for `x`, one for each edge. -/
def dependentsOf (x : κ) : List ℕ :=
  ((edges graph).filter fun edge => edge.2 = x).map Prod.fst

variable {graph}

omit [DecidableEq κ] in
theorem mem_edges {edge : ℕ × κ} : edge ∈ edges graph ↔
    ∃ entry, graph[edge.1]? = some entry ∧ edge.2 ∈ entry.2 := by
  obtain ⟨i, y⟩ := edge
  simp only [edges, List.mem_flatMap, List.mem_zipIdx_iff_getElem?, List.mem_map, Prod.mk.injEq]
  constructor
  · rintro ⟨⟨entry, j⟩, hget, z, hz, rfl, rfl⟩
    exact ⟨entry, hget, hz⟩
  · rintro ⟨entry, hget, hy⟩
    exact ⟨(entry, i), hget, y, hy, rfl, rfl⟩

omit [DecidableEq κ] in
/-- Entries at other positions have no edge at the position `i`. -/
theorem filter_edges_eq_nil {entries : List ((κ × List κ) × ℕ)} {i : ℕ}
    (h : ∀ e ∈ entries, e.2 ≠ i) :
    (entries.flatMap fun e => e.1.2.map fun y => (e.2, y)).filter (fun edge => edge.1 = i) = [] := by
  rw [List.filter_eq_nil_iff]
  intro edge hedge
  obtain ⟨e, he, hmem⟩ := List.mem_flatMap.mp hedge
  obtain ⟨y, -, rfl⟩ := List.mem_map.mp hmem
  simpa using h e he

omit [DecidableEq κ] in
/-- The edges of one entry. -/
theorem filter_edges {i : ℕ} {entry : κ × List κ} (hi : graph[i]? = some entry) :
    (edges graph).filter (fun edge => edge.1 = i) = entry.2.map fun y => (i, y) := by
  obtain ⟨hlt, hget⟩ := List.getElem?_eq_some_iff.mp hi
  have hsplit : graph = graph.take i ++ entry :: graph.drop (i + 1) := by
    rw [← hget, List.cons_getElem_drop_succ, List.take_append_drop]
  have hlen : 0 + (graph.take i).length = i := by
    rw [List.length_take_of_le (Nat.le_of_lt hlt), Nat.zero_add]
  rw [edges, hsplit, List.zipIdx_append, List.zipIdx_cons, hlen, List.flatMap_append,
    List.flatMap_cons, List.filter_append, List.filter_append, filter_edges_eq_nil,
    filter_edges_eq_nil, List.nil_append, List.append_nil]
  · rw [List.filter_eq_self]
    intro edge hedge
    obtain ⟨y, -, rfl⟩ := List.mem_map.mp hedge
    exact decide_eq_true rfl
  · intro e he
    have hle := List.le_snd_of_mem_zipIdx he
    omega
  · intro e he
    have hlt := List.snd_lt_of_mem_zipIdx he
    omega

omit [DecidableEq κ] in
theorem countP_edges {i : ℕ} {entry : κ × List κ} (hi : graph[i]? = some entry) :
    (edges graph).countP (fun edge => edge.1 = i) = entry.2.length := by
  rw [List.countP_eq_length_filter, filter_edges hi, List.length_map]

theorem count_edges {i : ℕ} {entry : κ × List κ} (hi : graph[i]? = some entry) (y : κ) :
    (edges graph).count (i, y) = entry.2.count y := by
  have hfilter : ((edges graph).filter fun edge => edge.1 = i).count (i, y) =
      (edges graph).count (i, y) := List.count_filter (decide_eq_true rfl)
  rw [← hfilter, filter_edges hi]
  exact List.count_map_of_injective _ (fun z => (i, z)) (Prod.mk_right_injective i) y

/-- A visit that looks the edges up is indexed. -/
theorem indexed_of_dependentsOf {visit : ℕ → Option (κ × List ℕ)}
    (h : ∀ p x, (keys graph)[p]? = some x → visit p = some (x, dependentsOf graph x)) :
    Indexed graph visit := by
  intro p x hp
  refine ⟨dependentsOf graph x, h p x hp, ?_, ?_⟩
  · intro i hi
    obtain ⟨edge, hedge, rfl⟩ := List.mem_map.mp hi
    obtain ⟨entry, hget, -⟩ := mem_edges.mp (List.mem_of_mem_filter hedge)
    exact (List.getElem?_eq_some_iff.mp hget).1
  · intro i entry hi
    rw [← count_edges hi x, dependentsOf, List.count, List.countP_map, List.countP_filter, List.count]
    apply List.countP_congr
    intro edge _
    simp [Prod.ext_iff]

/-- The counters at the start count all dependencies. -/
theorem inv_start (hnodup : (keys graph).Nodup) {pending : List ℕ}
    (hpending : pending = graph.map fun entry => entry.2.length) : Inv graph [] (start pending) := by
  have hget : ∀ i : ℕ, pending[i]? = graph[i]?.map fun entry => entry.2.length := by
    intro i
    rw [hpending, List.getElem?_map]
  refine ⟨eachNext_nil, ?_, ?_⟩
  · intro i entry hi
    rw [show (start pending).pending = pending from rfl, hget i, hi]
    simp
  · intro i
    show i ∈ (Finset.range pending.length).filter (fun i => pending[i]? = some 0) ↔ _
    rw [Finset.mem_filter, Finset.mem_range, hget i, Option.map_eq_some_iff]
    constructor
    · rintro ⟨-, entry, hi, hzero⟩
      refine ⟨entry, hi, (ready_iff hnodup (List.mem_of_getElem? hi)).mpr ⟨List.not_mem_nil, ?_⟩⟩
      rw [List.length_eq_zero_iff.mp hzero]
      rfl
    · rintro ⟨entry, hi, hready⟩
      refine ⟨?_, entry, hi, ?_⟩
      · rw [hpending, List.length_map]
        exact (List.getElem?_eq_some_iff.mp hi).1
      · simpa using ((ready_iff hnodup (List.mem_of_getElem? hi)).mp hready).2

/-- The edges into a key that is not finished are among the unfinished ones. -/
theorem count_le_countP {done : List κ} {x : κ} (hx : x ∉ done) (l : List κ) :
    l.count x ≤ l.countP fun y => y ∉ done := by
  rw [List.count]
  apply List.countP_mono_left
  intro y _ hy
  rw [beq_iff_eq] at hy
  simpa [hy] using hx

/-- Finishing `x` removes its edges from the unfinished ones. -/
theorem countP_concat {done : List κ} {x : κ} (hx : x ∉ done) (l : List κ) :
    l.countP (fun y => y ∉ done ++ [x]) = l.countP (fun y => y ∉ done) - l.count x := by
  induction l with
  | nil => rfl
  | cons y l ih =>
    have hle := count_le_countP hx l
    rw [List.countP_cons, List.countP_cons, ih]
    by_cases hy : y = x
    · subst hy
      rw [List.count_cons_self, if_neg (by simp), if_pos (by simpa using hx)]
      omega
    · rw [List.count_cons_of_ne hy]
      simp only [List.mem_append, List.mem_singleton, hy, or_false]
      omega

/-- One round of the algorithm. -/
theorem Inv.step (hnodup : (keys graph).Nodup) {visit : ℕ → Option (κ × List ℕ)}
    (hvisit : Indexed graph visit) {done : List κ} {c : Counters} (h : Inv graph done c) {p : ℕ}
    {ready : Finset ℕ} (hpop : popFirst c.ready = some (p, ready)) :
    ∃ x dependents c', visit p = some (x, dependents) ∧
      release ⟨c.pending, ready⟩ dependents = some c' ∧ Inv graph (done ++ [x]) c' := by
  obtain ⟨hleast, rfl⟩ := popFirst_eq_some hpop
  obtain ⟨⟨x, deps⟩, hp, hx⟩ := (h.ready p).mp hleast.1
  replace hx : Ready (nodes graph) (WaitsFor graph) done x := hx
  obtain ⟨dependents, hvisited, hbound, hcount⟩ := hvisit p x (getElem?_keys hp)
  have hentry : ∀ i ∈ dependents, ∃ entry, graph[i]? = some entry := fun i hi =>
    ⟨_, List.getElem?_eq_getElem (hbound i hi)⟩
  have hcounts : ∀ i ∈ dependents, ∃ k, c.pending[i]? = some k ∧ dependents.count i ≤ k := by
    intro i hi
    obtain ⟨entry, hget⟩ := hentry i hi
    refine ⟨_, h.pending i entry hget, ?_⟩
    rw [hcount i entry hget]
    exact count_le_countP hx.fresh entry.2
  obtain ⟨c', hrelease, hpending, hready⟩ :=
    release_eq (c := ⟨c.pending, c.ready.erase p⟩) hcounts
  refine ⟨x, dependents, c', hvisited, hrelease, ?_, ?_, ?_⟩
  · refine eachNext_concat h.greedy ⟨hx, ?_⟩
    -- a ready key has its position in the ready set
    intro y hy
    obtain ⟨entry, hmem, rfl⟩ := List.mem_map.mp (mem_nodes.mp hy.mem)
    obtain ⟨j, hj⟩ := List.getElem?_of_mem hmem
    rw [rank_of_getElem? hnodup hp, rank_of_getElem? hnodup hj]
    exact hleast.2 ((h.ready j).mpr ⟨entry, hj, hy⟩)
  · intro i entry hi
    rw [hpending i, h.pending i entry hi, hcount i entry hi, countP_concat hx.fresh]
    rfl
  · intro i
    rw [hready i, Finset.mem_erase, h.ready i]
    constructor
    · rintro (⟨hne, entry, hi, hready⟩ | ⟨hi, hlast⟩)
      · refine ⟨entry, hi, hready.concat ?_⟩
        intro heq
        apply hne
        rw [← rank_of_getElem? hnodup hi, ← rank_of_getElem? hnodup hp, heq]
      · obtain ⟨entry, hget⟩ := hentry i hi
        have hmem := List.mem_of_getElem? hget
        have hdep : WaitsFor graph entry.1 x := by
          rw [waitsFor_iff hnodup hmem, ← List.count_pos_iff, ← hcount i entry hget]
          exact List.count_pos_iff.mpr hi
        rw [h.pending i entry hget, Option.some.injEq, hcount i entry hget] at hlast
        refine ⟨entry, hget, (ready_iff hnodup hmem).mpr ⟨?_, ?_⟩⟩
        · rw [List.mem_append, List.mem_singleton]
          rintro (hdone | heq)
          · exact hx.fresh (h.greedy.linear.mem_of_dep hdone hdep)
          · rw [heq] at hdep
            exact hx.fresh (hx.deps x hdep)
        · rw [countP_concat hx.fresh, hlast, Nat.sub_self]
    · rintro ⟨entry, hget, hready⟩
      have hmem := List.mem_of_getElem? hget
      obtain ⟨hfresh, hzero⟩ := (ready_iff hnodup hmem).mp hready
      rw [List.mem_append, List.mem_singleton, not_or] at hfresh
      rw [countP_concat hx.fresh] at hzero
      by_cases hdep : x ∈ entry.2
      · have hle := count_le_countP hx.fresh entry.2
        refine .inr ⟨?_, ?_⟩
        · rw [← List.count_pos_iff, hcount i entry hget]
          exact List.count_pos_iff.mpr hdep
        · rw [h.pending i entry hget, hcount i entry hget, Option.some.injEq]
          omega
      · rw [List.count_eq_zero_of_not_mem hdep, Nat.sub_zero] at hzero
        refine .inl ⟨?_, entry, hget, (ready_iff hnodup hmem).mpr ⟨hfresh.1, hzero⟩⟩
        rintro rfl
        rw [hp, Option.some.injEq] at hget
        exact hfresh.2 (congrArg Prod.fst hget).symm

/-- With fuel for every key left, the algorithm ends with the greedy order that is stuck. -/
theorem Inv.drain (hnodup : (keys graph).Nodup) {visit : ℕ → Option (κ × List ℕ)}
    (hvisit : Indexed graph visit) {fuel : ℕ} {done : List κ} {c : Counters}
    (h : Inv graph done c) (hfuel : graph.length < done.length + fuel) :
    ∃ order c', drain visit fuel done c = some (order, c') ∧ Inv graph order c' ∧
      Stuck (nodes graph) (WaitsFor graph) order := by
  induction fuel generalizing done c with
  | zero =>
    have hle := h.greedy.linear.length_le
    rw [card_nodes hnodup] at hle
    omega
  | succ fuel ih =>
    cases hpop : popFirst c.ready with
    | none =>
      refine ⟨done, c, ?_, h, ?_⟩
      · rw [Kahn.drain, hpop]
      · intro x hx
        obtain ⟨entry, hmem, rfl⟩ := List.mem_map.mp (mem_nodes.mp hx.mem)
        obtain ⟨i, hi⟩ := List.getElem?_of_mem hmem
        have hready := (h.ready i).mpr ⟨entry, hi, hx⟩
        rw [popFirst_eq_none hpop] at hready
        exact Finset.notMem_empty i hready
    | some popped =>
      obtain ⟨p, ready⟩ := popped
      obtain ⟨x, dependents, c₁, hvisited, hrelease, hinv⟩ := h.step hnodup hvisit hpop
      have hfuel₁ : graph.length < (done ++ [x]).length + fuel := by
        rw [List.length_append, List.length_singleton]
        omega
      obtain ⟨order, c', hdrain, horder⟩ := ih hinv hfuel₁
      refine ⟨order, c', ?_, horder⟩
      rw [Kahn.drain, hpop]
      simp only [hvisited, Option.bind_eq_bind, Option.bind_some, hrelease]
      exact hdrain

/-- The algorithm from the start. -/
theorem drain_start (hnodup : (keys graph).Nodup) {visit : ℕ → Option (κ × List ℕ)}
    (hvisit : Indexed graph visit) {pending : List ℕ}
    (hpending : pending = graph.map fun entry => entry.2.length) :
    ∃ order c, drain visit (graph.length + 1) [] (start pending) = some (order, c) ∧
      Inv graph order c ∧ Stuck (nodes graph) (WaitsFor graph) order :=
  (inv_start hnodup hpending).drain hnodup hvisit (by rw [List.length_nil]; omega)

/-- At the end the counters tell which keys were left out. -/
theorem Inv.pending_eq_zero_iff (hnodup : (keys graph).Nodup) {order : List κ} {c : Counters}
    (h : Inv graph order c) (hstuck : Stuck (nodes graph) (WaitsFor graph) order) {i : ℕ}
    {entry : κ × List κ} (hi : graph[i]? = some entry) :
    c.pending[i]? = some 0 ↔ entry.1 ∈ order := by
  have hmem := List.mem_of_getElem? hi
  rw [h.pending i entry hi, Option.some.injEq]
  constructor
  · intro hzero
    by_contra hout
    exact hstuck entry.1 ((ready_iff hnodup hmem).mpr ⟨hout, hzero⟩)
  · intro hin
    rw [List.countP_eq_zero]
    intro y hy
    simpa using h.greedy.linear.mem_of_dep hin ((waitsFor_iff hnodup hmem).mpr hy)

end Invariant

end BaselineOps.Lib.Kahn
