import Mathlib
import BaselineOps.Lib.Kahn

/-!
# Sweeping a dependency graph

A scheduler that goes over the pending entries again and again, and on every pass takes each entry
whose dependencies are done when the pass comes to it. An entry that waits for a later one misses the
pass of that one. `wave` counts how often this happens below an entry, and a sweep takes the entries
by wave and, within a wave, in the order of the list.

* `takes_wave`: pass `k` takes the entries of wave `k`.
* `greedy_waveOrder_iff`: the order of a sweep is the greedy one (always the first ready entry)
  unless some entry is overtaken.
-/

namespace BaselineOps.Lib.Sweep

open Relation Kahn

variable {κ : Type} [DecidableEq κ]

/-- One pass over `entries` after the keys `done`: the keys it takes, in order. -/
def takes : List κ → List (κ × List κ) → List κ
  | _, [] => []
  | done, entry :: rest =>
    if ∀ y ∈ entry.2, y ∈ done then entry.1 :: takes (done ++ [entry.1]) rest else takes done rest

variable (graph : List (κ × List κ))

/-- The dependencies of a key. -/
def dependenciesOf (x : κ) : List κ := (graph.find? fun entry => entry.1 = x).elim [] Prod.snd

/-- The number of dependencies listed after the key that waits for them, on the worst path of at most
    `n` edges from `x`. -/
def lag : ℕ → κ → ℕ
  | 0, _ => 0
  | n + 1, x => (dependenciesOf graph x).toFinset.sup fun y =>
      lag n y + if rank graph x < rank graph y then 1 else 0

/-- The number of passes `x` misses. -/
def wave (x : κ) : ℕ := lag graph graph.length x

/-- The keys of the waves below `k`, wave after wave. -/
def waveOrder (k : ℕ) : List κ :=
  (List.range k).flatMap fun j => (keys graph).filter fun x => wave graph x = j

/-- `x` comes before `y` in a sweep. -/
def Precedes (x y : κ) : Prop :=
  wave graph x < wave graph y ∨ wave graph x = wave graph y ∧ rank graph x < rank graph y

/-- `x` is listed before `y` and waits only for what comes before `y`, yet `y` comes first. -/
def Overtaken (x y : κ) : Prop :=
  rank graph x < rank graph y ∧ wave graph y < wave graph x ∧
    ∀ z ∈ dependenciesOf graph x, Precedes graph z y

instance (x y : κ) : Decidable (Precedes graph x y) := inferInstanceAs (Decidable (_ ∨ _))
instance (x y : κ) : Decidable (Overtaken graph x y) := inferInstanceAs (Decidable (_ ∧ _))

variable {graph}

theorem mem_dependenciesOf (hnodup : (keys graph).Nodup) {x y : κ} :
    y ∈ dependenciesOf graph x ↔ WaitsFor graph x y := by
  rw [dependenciesOf]
  cases hfind : graph.find? fun entry => entry.1 = x with
  | none =>
    rw [List.find?_eq_none] at hfind
    constructor
    · intro hy
      cases hy
    · rintro ⟨entry, hentry, hkey, -⟩
      exact absurd (decide_eq_true hkey) (hfind entry hentry)
  | some entry =>
    have hmem := List.mem_of_find?_eq_some hfind
    have hkey : entry.1 = x := by simpa using List.find?_some hfind
    subst hkey
    exact (Kahn.waitsFor_iff hnodup hmem).symm

/-- The keys listed before an entry are those of a lower rank. -/
theorem mem_keys_iff_rank_lt (hnodup : (keys graph).Nodup) {before rest : List (κ × List κ)}
    {entry : κ × List κ} (hgraph : graph = before ++ entry :: rest) {y : κ} :
    y ∈ keys before ↔ rank graph y < rank graph entry.1 := by
  have hkeys : keys graph = keys before ++ entry.1 :: keys rest := by simp [keys, hgraph]
  have hfresh : entry.1 ∉ keys before := by
    rw [hkeys, List.nodup_append] at hnodup
    intro hmem
    exact hnodup.2.2 _ hmem _ List.mem_cons_self rfl
  have hentry : rank graph entry.1 = (keys before).length := by
    rw [rank, hkeys, List.idxOf_append_of_notMem hfresh, List.idxOf_cons_self, Nat.add_zero]
  rw [hentry, rank, hkeys]
  constructor
  · intro hy
    rw [List.idxOf_append_of_mem hy]
    exact List.idxOf_lt_length_iff.mpr hy
  · intro hlt
    by_contra hy
    rw [List.idxOf_append_of_notMem hy] at hlt
    omega

omit [DecidableEq κ] in
/-- Some linear list cannot be continued. -/
theorem exists_linear_stuck (nodes : Finset κ) (dep : κ → κ → Prop) :
    ∃ order, Linear nodes dep order ∧ Stuck nodes dep order := by
  have hgrow : ∀ n, (∃ order, Linear nodes dep order ∧ Stuck nodes dep order) ∨
      ∃ order, Linear nodes dep order ∧ order.length = n := by
    intro n
    induction n with
    | zero => exact .inr ⟨[], eachNext_nil, rfl⟩
    | succ n ih =>
      rcases ih with hstuck | ⟨order, hlinear, hlength⟩
      · exact .inl hstuck
      · by_cases hstuck : Stuck nodes dep order
        · exact .inl ⟨order, hlinear, hstuck⟩
        · obtain ⟨x, hx⟩ := not_forall_not.mp hstuck
          exact .inr ⟨order ++ [x], eachNext_concat hlinear hx, by simp [hlength]⟩
  rcases hgrow (nodes.card + 1) with hstuck | ⟨order, hlinear, hlength⟩
  · exact hstuck
  · have hle := hlinear.length_le
    omega

/-! ## Waves of an acyclic graph -/

section Acyclic

variable {order : List κ} (hnodup : (keys graph).Nodup)
  (hlinear : Linear (nodes graph) (WaitsFor graph) order)

include hnodup hlinear in
/-- Beyond the position of a key in a topological order, `lag` has settled. -/
theorem lag_succ {n : ℕ} {x : κ} (hx : x ∈ order) (hn : order.idxOf x ≤ n) :
    lag graph (n + 1) x = lag graph n x := by
  induction n generalizing x with
  | zero =>
    have hempty : dependenciesOf graph x = [] := by
      rw [List.eq_nil_iff_forall_not_mem]
      intro y hy
      have hlt := hlinear.idxOf_lt hx ((mem_dependenciesOf hnodup).mp hy)
      omega
    simp [lag, hempty]
  | succ n ih =>
    show (dependenciesOf graph x).toFinset.sup _ = (dependenciesOf graph x).toFinset.sup _
    apply Finset.sup_congr rfl
    intro y hy
    have hdep := (mem_dependenciesOf hnodup).mp (List.mem_toFinset.mp hy)
    have hlt := hlinear.idxOf_lt hx hdep
    rw [ih (hlinear.mem_of_dep hx hdep) (by omega)]

include hnodup hlinear in
/-- The recursion that `wave` solves. -/
theorem wave_le_iff (hall : ∀ x ∈ keys graph, x ∈ order) {x : κ} (hx : x ∈ keys graph) {k : ℕ} :
    wave graph x ≤ k ↔ ∀ y, WaitsFor graph x y →
      wave graph y + (if rank graph x < rank graph y then 1 else 0) ≤ k := by
  have hle : order.idxOf x ≤ graph.length := by
    have hlt := List.idxOf_lt_length_iff.mpr (hall x hx)
    have hlen := hlinear.length_le
    rw [card_nodes hnodup] at hlen
    omega
  rw [wave, ← lag_succ hnodup hlinear (hall x hx) hle, lag, Finset.sup_le_iff]
  simp only [List.mem_toFinset, mem_dependenciesOf hnodup]
  rfl

variable (hall : ∀ x ∈ keys graph, x ∈ order)

include hnodup hlinear hall in
/-- A dependency comes before the key that waits for it, and nothing else holds the key back. -/
theorem wave_le_iff_forall {x : κ} (hx : x ∈ keys graph) {k : ℕ} : wave graph x ≤ k ↔
    ∀ y, WaitsFor graph x y →
      wave graph y < k ∨ wave graph y = k ∧ rank graph y < rank graph x := by
  rw [wave_le_iff hnodup hlinear hall hx]
  apply forall₂_congr
  intro y hy
  have hmem : y ∈ keys graph := mem_nodes.mp (hlinear.subset (hlinear.mem_of_dep (hall x hx) hy))
  have hne : rank graph y ≠ rank graph x := by
    intro heq
    rw [rank_injOn (mem_nodes.mpr hmem) (mem_nodes.mpr hx) heq] at hy
    exact hlinear.irrefl (hall x hx) (.single hy)
  split_ifs with hlt <;> omega

include hnodup hlinear hall in
theorem precedes_of_waitsFor {x y : κ} (hx : x ∈ keys graph) (hy : WaitsFor graph x y) :
    Precedes graph y x :=
  (wave_le_iff_forall hnodup hlinear hall hx).mp (le_refl _) y hy

/-! ## Passes -/

include hnodup hlinear hall in
/-- The rest of pass `k`, when the entries `before` have been visited. -/
theorem takes_wave_append {k : ℕ} {before rest : List (κ × List κ)} {done : List κ}
    (hgraph : graph = before ++ rest)
    (hdone : ∀ x ∈ keys graph, x ∈ done ↔
      wave graph x < k ∨ wave graph x = k ∧ x ∈ keys before) :
    takes done (rest.filter fun entry => k ≤ wave graph entry.1) =
      (keys rest).filter fun x => wave graph x = k := by
  induction rest generalizing before done with
  | nil => rfl
  | cons entry rest ih =>
    have hmem : entry ∈ graph := by simp [hgraph]
    have hkey : entry.1 ∈ keys graph := List.mem_map_of_mem hmem
    have hready : (∀ y ∈ entry.2, y ∈ done) ↔ wave graph entry.1 ≤ k := by
      rw [wave_le_iff_forall hnodup hlinear hall hkey]
      apply forall_congr'
      intro y
      rw [Kahn.waitsFor_iff hnodup hmem]
      apply imp_congr_right
      intro hy
      have hwaits := (Kahn.waitsFor_iff hnodup hmem).mpr hy
      have hlisted := mem_nodes.mp (hlinear.subset (hlinear.mem_of_dep (hall _ hkey) hwaits))
      rw [hdone y hlisted, mem_keys_iff_rank_lt hnodup hgraph]
    have hgraph' : graph = (before ++ [entry]) ++ rest := by simp [hgraph]
    have hkeys : keys (before ++ [entry]) = keys before ++ [entry.1] := by simp [keys]
    have hrest : keys (entry :: rest) = entry.1 :: keys rest := rfl
    rw [hrest]
    rcases lt_trichotomy (wave graph entry.1) k with hlt | heq | hgt
    · rw [List.filter_cons_of_neg (by simpa using hlt),
        List.filter_cons_of_neg (by simpa using hlt.ne)]
      refine ih hgraph' ?_
      intro x hx
      rw [hdone x hx, hkeys, List.mem_append, List.mem_singleton]
      have hne : wave graph x = k → x ≠ entry.1 := by
        rintro hwave rfl
        omega
      tauto
    · -- the entry of wave `k` is taken and joins the keys that are done
      rw [List.filter_cons_of_pos (by simpa using heq.ge), List.filter_cons_of_pos (by simpa using heq),
        takes, if_pos (hready.mpr heq.le)]
      congr 1
      refine ih hgraph' ?_
      intro x hx
      rw [List.mem_append, List.mem_singleton, hdone x hx, hkeys, List.mem_append,
        List.mem_singleton]
      constructor
      · rintro ((hx | ⟨hwave, hx⟩) | rfl)
        · exact .inl hx
        · exact .inr ⟨hwave, .inl hx⟩
        · exact .inr ⟨heq, .inr rfl⟩
      · rintro (hx | ⟨hwave, hx | rfl⟩)
        · exact .inl (.inl hx)
        · exact .inl (.inr ⟨hwave, hx⟩)
        · exact .inr rfl
    · rw [List.filter_cons_of_pos (by simpa using hgt.le),
        List.filter_cons_of_neg (by simpa using hgt.ne'), takes,
        if_neg fun hall' => absurd (hready.mp hall') (not_le.mpr hgt)]
      refine ih hgraph' ?_
      intro x hx
      rw [hdone x hx, hkeys, List.mem_append, List.mem_singleton]
      have hne : wave graph x = k → x ≠ entry.1 := by
        rintro hwave rfl
        omega
      tauto

theorem mem_waveOrder {k : ℕ} {x : κ} :
    x ∈ waveOrder graph k ↔ x ∈ keys graph ∧ wave graph x < k := by
  simp only [waveOrder, List.mem_flatMap, List.mem_range, List.mem_filter, decide_eq_true_iff]
  constructor
  · rintro ⟨j, hj, hx, rfl⟩
    exact ⟨hx, hj⟩
  · rintro ⟨hx, hlt⟩
    exact ⟨_, hlt, hx, rfl⟩

theorem waveOrder_succ (k : ℕ) :
    waveOrder graph (k + 1) = waveOrder graph k ++ (keys graph).filter fun x => wave graph x = k := by
  simp [waveOrder, List.range_succ]

include hnodup hlinear hall in
/-- Pass `k` takes the entries of wave `k`. -/
theorem takes_wave (k : ℕ) :
    takes (waveOrder graph k) (graph.filter fun entry => k ≤ wave graph entry.1) =
      (keys graph).filter fun x => wave graph x = k := by
  apply takes_wave_append hnodup hlinear hall (List.nil_append graph).symm
  intro x hx
  rw [mem_waveOrder, and_iff_right hx]
  simp [keys]

end Acyclic

/-! ## The order of a sweep -/

theorem pairwise_rank (hnodup : (keys graph).Nodup) :
    (keys graph).Pairwise fun x y => rank graph x < rank graph y := by
  rw [List.pairwise_iff_getElem]
  intro i j hi hj hij
  show (keys graph).idxOf _ < (keys graph).idxOf _
  rw [hnodup.idxOf_getElem i hi, hnodup.idxOf_getElem j hj]
  exact hij

theorem pairwise_waveOrder (hnodup : (keys graph).Nodup) (k : ℕ) :
    (waveOrder graph k).Pairwise (Precedes graph) := by
  rw [waveOrder, List.pairwise_flatMap]
  constructor
  · intro j _
    refine ((pairwise_rank hnodup).filter _).imp_of_mem ?_
    intro x y hx hy hlt
    simp only [List.mem_filter, decide_eq_true_iff] at hx hy
    exact .inr ⟨hx.2.trans hy.2.symm, hlt⟩
  · refine List.pairwise_lt_range.imp ?_
    intro i j hij x hx y hy
    simp only [List.mem_filter, decide_eq_true_iff] at hx hy
    exact .inl (by omega)

theorem Precedes.asymm {x y : κ} (h : Precedes graph x y) (h' : Precedes graph y x) : False := by
  unfold Precedes at h h'
  omega

/-- What comes before a key in the order of a sweep. -/
theorem mem_before_iff (hnodup : (keys graph).Nodup) {k : ℕ} (hk : ∀ x ∈ keys graph, wave graph x < k)
    {before after : List κ} {x y : κ} (hsplit : waveOrder graph k = before ++ y :: after)
    (hx : x ∈ keys graph) : x ∈ before ↔ Precedes graph x y := by
  have hpairwise := pairwise_waveOrder hnodup k
  rw [hsplit, List.pairwise_append, List.pairwise_cons] at hpairwise
  obtain ⟨-, ⟨hafter, -⟩, hbefore⟩ := hpairwise
  constructor
  · intro hmem
    exact hbefore x hmem y List.mem_cons_self
  · intro hprecedes
    have hmem : x ∈ before ++ y :: after := hsplit ▸ mem_waveOrder.mpr ⟨hx, hk x hx⟩
    rcases List.mem_append.mp hmem with hmem | hmem
    · exact hmem
    · rcases List.mem_cons.mp hmem with rfl | hmem
      · exact (hprecedes.asymm hprecedes).elim
      · exact (hprecedes.asymm (hafter x hmem)).elim

/-- A sweep is greedy exactly when no entry is overtaken. -/
theorem greedy_waveOrder_iff {order : List κ} (hnodup : (keys graph).Nodup)
    (hlinear : Linear (nodes graph) (WaitsFor graph) order) (hall : ∀ x ∈ keys graph, x ∈ order)
    {k : ℕ} (hk : ∀ x ∈ keys graph, wave graph x < k) :
    Greedy (nodes graph) (WaitsFor graph) (rank graph) (waveOrder graph k) ↔
      ∀ x ∈ keys graph, ∀ y ∈ keys graph, ¬ Overtaken graph x y := by
  have hlisted : ∀ {x y}, x ∈ keys graph → WaitsFor graph x y → y ∈ keys graph := by
    intro x y hx hy
    exact mem_nodes.mp (hlinear.subset (hlinear.mem_of_dep (hall x hx) hy))
  constructor
  · rintro hgreedy x hx y hy ⟨hrank, hwave, hdeps⟩
    obtain ⟨before, after, hsplit⟩ := List.append_of_mem (mem_waveOrder.mpr ⟨hy, hk y hy⟩)
    -- `x` is ready when `y` is taken, and it is listed before `y`
    have hready : Ready (nodes graph) (WaitsFor graph) before x := by
      refine ⟨mem_nodes.mpr hx, ?_, ?_⟩
      · rw [mem_before_iff hnodup hk hsplit hx]
        rintro (hlt | ⟨heq, -⟩) <;> omega
      · intro z hz
        rw [mem_before_iff hnodup hk hsplit (hlisted hx hz)]
        exact hdeps z ((mem_dependenciesOf hnodup).mpr hz)
    have hle := (hgreedy before y after hsplit).least x hready
    omega
  · intro hnone before y after hsplit
    have hmem : y ∈ waveOrder graph k := by
      rw [hsplit]
      simp
    have hy : y ∈ keys graph := (mem_waveOrder.mp hmem).1
    refine ⟨⟨mem_nodes.mpr hy, ?_, ?_⟩, ?_⟩
    · intro hmem
      rw [mem_before_iff hnodup hk hsplit hy] at hmem
      exact hmem.asymm hmem
    · intro z hz
      rw [mem_before_iff hnodup hk hsplit (hlisted hy hz)]
      exact precedes_of_waitsFor hnodup hlinear hall hy hz
    · intro x hx
      have hmem : x ∈ keys graph := mem_nodes.mp hx.mem
      by_contra hlt
      refine hnone x hmem y hy ⟨not_le.mp hlt, ?_, ?_⟩
      · have hfresh := hx.fresh
        rw [mem_before_iff hnodup hk hsplit hmem, Precedes] at hfresh
        omega
      · intro z hz
        rw [mem_dependenciesOf hnodup] at hz
        exact (mem_before_iff hnodup hk hsplit (hlisted hmem hz)).mp (hx.deps z hz)

/-! ## Renamed graphs -/

section Renamed

variable {ι : Type} [DecidableEq ι]

/-- The graph with other keys. -/
def renamed (f : κ → ι) (graph : List (κ × List κ)) : List (ι × List ι) :=
  graph.map fun entry => (f entry.1, entry.2.map f)

variable {f : κ → ι} (hnodup : (keys graph).Nodup) (hf : Set.InjOn f {x | x ∈ keys graph})

omit [DecidableEq κ] [DecidableEq ι] in
theorem keys_renamed : keys (renamed f graph) = (keys graph).map f := by
  simp [keys, renamed]

omit [DecidableEq κ] [DecidableEq ι] in
include hnodup hf in
theorem nodup_keys_renamed : (keys (renamed f graph)).Nodup := by
  rw [keys_renamed]
  exact hnodup.map_on fun x hx y hy => hf hx hy

include hnodup hf in
theorem rank_renamed {x : κ} (hx : x ∈ keys graph) :
    rank (renamed f graph) (f x) = rank graph x := by
  obtain ⟨entry, hentry, rfl⟩ := List.mem_map.mp hx
  obtain ⟨i, hi⟩ := List.mem_iff_getElem?.mp hentry
  have hi' : (renamed f graph)[i]? = some (f entry.1, entry.2.map f) := by
    rw [renamed, List.getElem?_map, hi]
    rfl
  rw [rank_of_getElem? hnodup hi]
  exact rank_of_getElem? (nodup_keys_renamed hnodup hf) hi'

omit [DecidableEq κ] [DecidableEq ι] in
include hf in
theorem waitsFor_renamed {x : κ} (hx : x ∈ keys graph) {y' : ι} :
    WaitsFor (renamed f graph) (f x) y' ↔ ∃ y, WaitsFor graph x y ∧ f y = y' := by
  constructor
  · rintro ⟨_, hentry, hkey, hy'⟩
    obtain ⟨entry, hmem, rfl⟩ := List.mem_map.mp hentry
    obtain ⟨y, hy, rfl⟩ := List.mem_map.mp hy'
    have heq : entry.1 = x := hf (List.mem_map_of_mem hmem) hx hkey
    exact ⟨y, ⟨entry, hmem, heq, hy⟩, rfl⟩
  · rintro ⟨y, ⟨entry, hentry, rfl, hy⟩, rfl⟩
    exact ⟨_, List.mem_map_of_mem hentry, rfl, List.mem_map_of_mem hy⟩

include hnodup hf in
/-- Renaming the keys keeps a list greedy. -/
theorem greedy_renamed (hknown : ∀ x y, WaitsFor graph x y → y ∈ keys graph) {l : List κ}
    (h : Greedy (nodes graph) (WaitsFor graph) (rank graph) l) :
    Greedy (nodes (renamed f graph)) (WaitsFor (renamed f graph)) (rank (renamed f graph))
      (l.map f) := by
  intro before' x' after' hsplit
  obtain ⟨before, tail, hl, rfl, htail⟩ := List.map_eq_append_iff.mp hsplit
  obtain ⟨x, after, rfl, rfl, -⟩ := List.map_eq_cons_iff.mp htail
  obtain ⟨⟨hmem, hfresh, hdeps⟩, hleast⟩ := h before x after hl
  have hbefore : ∀ z ∈ before, z ∈ keys graph := by
    intro z hz
    exact mem_nodes.mp (h.linear.subset (hl ▸ List.mem_append_left _ hz))
  have hfresh_iff : ∀ z ∈ keys graph, f z ∈ before.map f ↔ z ∈ before := by
    intro z hz
    constructor
    · intro hmap
      obtain ⟨w, hw, heq⟩ := List.mem_map.mp hmap
      rw [← hf (hbefore w hw) hz heq]
      exact hw
    · exact fun hz => List.mem_map_of_mem hz
  rw [mem_nodes] at hmem
  refine ⟨⟨?_, ?_, ?_⟩, ?_⟩
  · rw [mem_nodes, keys_renamed]
    exact List.mem_map_of_mem hmem
  · rw [hfresh_iff x hmem]
    exact hfresh
  · intro y' hy'
    obtain ⟨y, hy, rfl⟩ := (waitsFor_renamed hf hmem).mp hy'
    exact List.mem_map_of_mem (hdeps y hy)
  · intro z' hz'
    have hnode := mem_nodes.mp hz'.mem
    rw [keys_renamed] at hnode
    obtain ⟨z, hz, rfl⟩ := List.mem_map.mp hnode
    rw [rank_renamed hnodup hf hmem, rank_renamed hnodup hf hz]
    refine hleast z ⟨mem_nodes.mpr hz, fun hzb => hz'.fresh (List.mem_map_of_mem hzb), ?_⟩
    intro y hy
    rw [← hfresh_iff y (hknown z y hy)]
    exact hz'.deps (f y) ((waitsFor_renamed hf hz).mpr ⟨y, hy, rfl⟩)

end Renamed

end BaselineOps.Lib.Sweep
