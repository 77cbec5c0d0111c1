import Mathlib
import BaselineOps.Lib.Kahn
import BaselineOps.Domain.Validate

/-!
# Dependency graphs

Model of `baselineops-domain/src/validate/graph.rs`: the validation of a list of items with ids and
dependencies, and their deterministic topological order. A `BTreeMap` that is only looked up is an
association list. The result is `none` when a counter would underflow, which panics.

* `validateDependencyGraph_exact`: the graphs that are accepted, the order that is returned and the
  ids that a cycle error names.
-/

namespace BaselineOps.Domain

open BaselineOps.Lib Relation

/-- `TopologicalOrder` (`validate.rs`, line 25). -/
structure TopologicalOrder where
  ids : List ActionId
  deriving DecidableEq

section Model

variable {T : Type} (id : T → ActionId) (dependencies : T → List ActionId)
  (validate : T → Except DomainError Unit)

/-- One round of `validate_and_index`. -/
def indexItem (index : AList fun _ : ActionId => ℕ) (item : T × ℕ) :
    Except DomainError (AList fun _ : ActionId => ℕ) := do
  validate item.1
  if id item.1 ∈ index then validation "profile or plan contains duplicate action IDs"
  return index.insert (id item.1) item.2

/-- `validate_and_index` (lines 31–44). -/
def validateAndIndex (items : List T) : Except DomainError (AList fun _ : ActionId => ℕ) :=
  items.zipIdx.foldlM (indexItem id validate) ∅

/-- `DependencyIndex` (lines 71–74). -/
structure DependencyIndex where
  remaining : List ℕ
  children : AList fun _ : ActionId => List ℕ

/-- `remaining_dependencies[position] += 1` and
    `children.entry(*dependency).or_default().push(position)` (lines 97–98). -/
def DependencyIndex.addEdge (g : DependencyIndex) (edge : ℕ × ActionId) : DependencyIndex where
  remaining := g.remaining.modify edge.1 (· + 1)
  children := g.children.insert edge.2 ((g.children.lookup edge.2).getD [] ++ [edge.1])

/-- One round of `index_item_dependencies`. -/
def indexDependency (index : AList fun _ : ActionId => ℕ) (item : T × ℕ)
    (state : List ActionId × DependencyIndex) (dependency : ActionId) :
    Except DomainError (List ActionId × DependencyIndex) := do
  let seen ← insertNew state.1 dependency "an action lists the same dependency more than once"
  if dependency ∉ index then
    validation ("action " ++ (id item.1).uuid.toText ++ " depends on unknown action " ++
      dependency.uuid.toText)
  return (seen, state.2.addEdge (item.2, dependency))

/-- `index_item_dependencies` (lines 76–101). -/
def indexItemDependencies (index : AList fun _ : ActionId => ℕ) (g : DependencyIndex)
    (item : T × ℕ) : Except DomainError DependencyIndex := do
  let state ← (dependencies item.1).foldlM (indexDependency id index item) ([], g)
  return state.2

/-- `index_dependencies` (lines 46–69). -/
def indexDependencies (items : List T) (index : AList fun _ : ActionId => ℕ) :
    Except DomainError DependencyIndex :=
  items.zipIdx.foldlM (indexItemDependencies id dependencies index)
    ⟨List.replicate items.length 0, ∅⟩

/-- The body of the loop of `topological_sort`: the id that is pushed, and the positions that
    `release_dependents` (lines 124–139) decrements. -/
def visitItem (items : List T) (children : AList fun _ : ActionId => List ℕ) (position : ℕ) :
    Option (ActionId × List ℕ) :=
  items[position]?.map fun item => (id item, (children.lookup (id item)).getD [])

/-- `topological_sort` (lines 103–122); a position is taken at most once. -/
def topologicalSort (items : List T) (g : DependencyIndex) :
    Option (List ActionId × Kahn.Counters) :=
  Kahn.drain (visitItem id items g.children) (items.length + 1) [] (Kahn.start g.remaining)

/-- The ids that `dependency_cycle` lists. -/
def cycleMembers (items : List T) (remaining : List ℕ) : List ActionId :=
  (items.zipIdx.filter fun item => remaining[item.2]? ≠ some 0).map fun item => id item.1

/-- The message of `dependency_cycle`. -/
def cycleMessage (members : List ActionId) : String :=
  "action dependency graph contains a cycle: " ++
    String.intercalate ", " (members.map fun member => member.uuid.toText)

/-- `dependency_cycle` (lines 141–155). -/
def dependencyCycle (items : List T) (remaining : List ℕ) : Except DomainError TopologicalOrder :=
  validation (cycleMessage (cycleMembers id items remaining))

/-- `validate_dependency_graph` (lines 7–29). -/
def validateDependencyGraph (items : List T) : Option (Except DomainError TopologicalOrder) :=
  if items.isEmpty then
    some (validation "profiles and plans must contain at least one action")
  else
    match validateAndIndex id validate items >>= indexDependencies id dependencies items with
    | .error e => some (.error e)
    | .ok g => do
      let (order, counters) ← topologicalSort id items g
      if order.length ≠ items.length then
        return dependencyCycle id items counters.pending
      else
        return .ok ⟨order⟩

end Model

/-! ## Indexing -/

section Indexing

variable {T : Type} {id : T → ActionId} {dependencies : T → List ActionId}
  {validate : T → Except DomainError Unit}

theorem indexItem_ok_iff {index index' : AList fun _ : ActionId => ℕ} {item : T × ℕ} :
    indexItem id validate index item = .ok index' ↔
      validate item.1 = .ok () ∧ id item.1 ∉ index ∧ index.insert (id item.1) item.2 = index' := by
  unfold indexItem
  rw [except_bind_ok_iff]
  simp only [Unique.exists_iff, PUnit.default_eq_unit]
  by_cases h : id item.1 ∈ index <;> simp [h, validation, pure, Except.pure, bind, Except.bind]

/-- The loop of `validate_and_index` succeeds on valid items with new ids. -/
theorem foldlM_indexItem_ok_iff {items : List T} {k : ℕ} {index : AList fun _ : ActionId => ℕ} :
    (∃ index', (items.zipIdx k).foldlM (indexItem id validate) index = .ok index') ↔
      (∀ item ∈ items, validate item = .ok ()) ∧ (items.map id).Nodup ∧
        ∀ item ∈ items, id item ∉ index := by
  induction items generalizing k index with
  | nil => simp [pure, Except.pure]
  | cons item items ih =>
    have hstep : (∃ index', ((item :: items).zipIdx k).foldlM (indexItem id validate) index =
        .ok index') ↔ validate item = .ok () ∧ id item ∉ index ∧
          ∃ index', (items.zipIdx (k + 1)).foldlM (indexItem id validate)
            (index.insert (id item) k) = .ok index' := by
      simp only [List.zipIdx_cons, List.foldlM_cons, except_bind_ok_iff, indexItem_ok_iff]
      constructor
      · rintro ⟨index', m, ⟨hvalid, hnew, rfl⟩, hrest⟩
        exact ⟨hvalid, hnew, index', hrest⟩
      · rintro ⟨hvalid, hnew, index', hrest⟩
        exact ⟨index', _, ⟨hvalid, hnew, rfl⟩, hrest⟩
    rw [hstep, ih]
    simp only [List.forall_mem_cons, List.map_cons, List.nodup_cons, AList.mem_insert, not_or,
      List.mem_map, not_exists, not_and]
    constructor
    · rintro ⟨hvalid, hnew, hall, hnodup, hfresh⟩
      exact ⟨⟨hvalid, hall⟩, ⟨fun x hx => (hfresh x hx).1, hnodup⟩, hnew,
        fun x hx => (hfresh x hx).2⟩
    · rintro ⟨⟨hvalid, hall⟩, ⟨hne, hnodup⟩, hnew, hfresh⟩
      exact ⟨hvalid, hnew, hall, hnodup, fun x hx => ⟨hne x hx, hfresh x hx⟩⟩

/-- The index holds the ids of the items. -/
theorem mem_of_foldlM_indexItem {items : List T} {k : ℕ} {index index' : AList fun _ : ActionId => ℕ}
    (h : (items.zipIdx k).foldlM (indexItem id validate) index = .ok index') {x : ActionId} :
    x ∈ index' ↔ x ∈ index ∨ x ∈ items.map id := by
  induction items generalizing k index with
  | nil =>
    rw [List.zipIdx_nil, List.foldlM_nil] at h
    cases h
    simp
  | cons item items ih =>
    rw [List.zipIdx_cons, List.foldlM_cons, except_bind_ok_iff] at h
    obtain ⟨m, hstep, hrest⟩ := h
    obtain ⟨-, -, rfl⟩ := indexItem_ok_iff.mp hstep
    rw [ih hrest, AList.mem_insert, List.map_cons, List.mem_cons]
    tauto

theorem indexDependency_ok_iff {index : AList fun _ : ActionId => ℕ} {item : T × ℕ}
    {state state' : List ActionId × DependencyIndex} {y : ActionId} :
    indexDependency id index item state y = .ok state' ↔
      y ∉ state.1 ∧ y ∈ index ∧ (y :: state.1, state.2.addEdge (item.2, y)) = state' := by
  unfold indexDependency insertNew
  by_cases hseen : y ∈ state.1 <;> by_cases hknown : y ∈ index <;>
    simp [hseen, hknown, validation, pure, Except.pure, bind, Except.bind]

/-- The loop of `index_item_dependencies` succeeds on distinct known dependencies and adds their
    edges. -/
theorem foldlM_indexDependency_ok_iff {index : AList fun _ : ActionId => ℕ} {item : T × ℕ}
    {ys seen : List ActionId} {g g' : DependencyIndex} :
    (∃ seen', ys.foldlM (indexDependency id index item) (seen, g) = .ok (seen', g')) ↔
      ys.Nodup ∧ (∀ y ∈ ys, y ∉ seen) ∧ (∀ y ∈ ys, y ∈ index) ∧
        (ys.map fun y => (item.2, y)).foldl DependencyIndex.addEdge g = g' := by
  induction ys generalizing seen g with
  | nil => simp [pure, Except.pure]
  | cons y ys ih =>
    have hstep : (∃ seen', (y :: ys).foldlM (indexDependency id index item) (seen, g) =
        .ok (seen', g')) ↔ y ∉ seen ∧ y ∈ index ∧
          ∃ seen', ys.foldlM (indexDependency id index item)
            (y :: seen, g.addEdge (item.2, y)) = .ok (seen', g') := by
      simp only [List.foldlM_cons, except_bind_ok_iff, indexDependency_ok_iff]
      constructor
      · rintro ⟨seen', m, ⟨hnew, hknown, rfl⟩, hrest⟩
        exact ⟨hnew, hknown, seen', hrest⟩
      · rintro ⟨hnew, hknown, seen', hrest⟩
        exact ⟨seen', _, ⟨hnew, hknown, rfl⟩, hrest⟩
    rw [hstep, ih]
    simp only [List.forall_mem_cons, List.nodup_cons, List.map_cons, List.foldl_cons]
    simp only [List.mem_cons, not_or]
    constructor
    · rintro ⟨hnew, hknown, hnodup, hfresh, hall, hg⟩
      exact ⟨⟨fun hy => (hfresh y hy).1 rfl, hnodup⟩, ⟨hnew, fun x hx => (hfresh x hx).2⟩,
        ⟨hknown, hall⟩, hg⟩
    · rintro ⟨⟨hne, hnodup⟩, ⟨hnew, hfresh⟩, ⟨hknown, hall⟩, hg⟩
      refine ⟨hnew, hknown, hnodup, ?_, hall, hg⟩
      intro x hx
      refine ⟨?_, hfresh x hx⟩
      rintro rfl
      exact hne hx

theorem indexItemDependencies_ok_iff {index : AList fun _ : ActionId => ℕ} {item : T × ℕ}
    {g g' : DependencyIndex} : indexItemDependencies id dependencies index g item = .ok g' ↔
      (dependencies item.1).Nodup ∧ (∀ y ∈ dependencies item.1, y ∈ index) ∧
        ((dependencies item.1).map fun y => (item.2, y)).foldl DependencyIndex.addEdge g = g' := by
  have hloop := @foldlM_indexDependency_ok_iff T id index item (dependencies item.1) [] g g'
  simp only [List.not_mem_nil, not_false_eq_true, implies_true, true_and] at hloop
  rw [← hloop, indexItemDependencies, except_bind_ok_iff]
  constructor
  · rintro ⟨state, hfold, hstate⟩
    cases hstate
    exact ⟨state.1, hfold⟩
  · rintro ⟨seen, hfold⟩
    exact ⟨(seen, g'), hfold, rfl⟩

/-- The loop of `index_dependencies` adds every edge. -/
theorem foldlM_indexItemDependencies_ok_iff {index : AList fun _ : ActionId => ℕ}
    {items : List (T × ℕ)} {g g' : DependencyIndex} :
    items.foldlM (indexItemDependencies id dependencies index) g = .ok g' ↔
      (∀ item ∈ items, (dependencies item.1).Nodup ∧ ∀ y ∈ dependencies item.1, y ∈ index) ∧
        (items.flatMap fun item => (dependencies item.1).map fun y => (item.2, y)).foldl
          DependencyIndex.addEdge g = g' := by
  induction items generalizing g with
  | nil => simp [pure, Except.pure]
  | cons item items ih =>
    simp only [List.foldlM_cons, except_bind_ok_iff, indexItemDependencies_ok_iff, ih,
      List.forall_mem_cons, List.flatMap_cons, List.foldl_append]
    constructor
    · rintro ⟨m, ⟨hnodup, hknown, rfl⟩, hall, hg⟩
      exact ⟨⟨⟨hnodup, hknown⟩, hall⟩, hg⟩
    · rintro ⟨⟨⟨hnodup, hknown⟩, hall⟩, hg⟩
      exact ⟨_, ⟨hnodup, hknown, rfl⟩, hall, hg⟩

end Indexing

/-! ## The index as a graph -/

theorem foldl_addEdge_remaining (es : List (ℕ × ActionId)) (g : DependencyIndex) (i : ℕ) :
    (es.foldl DependencyIndex.addEdge g).remaining[i]? =
      g.remaining[i]?.map (· + es.countP fun edge => edge.1 = i) := by
  induction es generalizing g with
  | nil => simp
  | cons edge es ih =>
    rw [List.foldl_cons, ih, DependencyIndex.addEdge, List.getElem?_modify, List.countP_cons]
    cases g.remaining[i]? with
    | none => rfl
    | some k =>
      by_cases h : edge.1 = i
      · simp only [h, if_true, decide_true, Option.map_some, Option.map_eq_map]
        congr 1
        omega
      · simp [h]

theorem foldl_addEdge_children (es : List (ℕ × ActionId)) (g : DependencyIndex) (x : ActionId) :
    ((es.foldl DependencyIndex.addEdge g).children.lookup x).getD [] =
      (g.children.lookup x).getD [] ++ (es.filter fun edge => edge.2 = x).map Prod.fst := by
  induction es generalizing g with
  | nil => simp
  | cons edge es ih =>
    rw [List.foldl_cons, ih, DependencyIndex.addEdge, List.filter_cons]
    by_cases h : edge.2 = x
    · subst h
      rw [AList.lookup_insert]
      simp
    · rw [AList.lookup_insert_ne (Ne.symm h)]
      simp [h]

section Graph

variable {T : Type} (id : T → ActionId) (dependencies : T → List ActionId)

/-- The items as a graph of ids. -/
def itemGraph (items : List T) : List (ActionId × List ActionId) :=
  items.map fun item => (id item, dependencies item)

/-- The item `x` lists `y` as a dependency. -/
def DependsOn (items : List T) (x y : ActionId) : Prop :=
  ∃ item ∈ items, id item = x ∧ y ∈ dependencies item

/-- Every id is listed once, after all ids it depends on. -/
structure IsTopologicalOrder (items : List T) (order : List ActionId) : Prop where
  perm : order.Perm (items.map id)
  deps : ∀ before x after, order = before ++ x :: after →
    ∀ y, DependsOn id dependencies items x y → y ∈ before

/-- The checks of `validate_dependency_graph` before the sort. -/
structure WellFormedGraph (items : List T) : Prop where
  nonempty : items ≠ []
  nodup : (items.map id).Nodup
  depsNodup : ∀ item ∈ items, (dependencies item).Nodup
  known : ∀ item ∈ items, ∀ y ∈ dependencies item, y ∈ items.map id

variable {id dependencies} {items : List T}

theorem keys_itemGraph : Kahn.keys (itemGraph id dependencies items) = items.map id := by
  rw [Kahn.keys, itemGraph, List.map_map]
  rfl

theorem getElem?_itemGraph {i : ℕ} {item : T} (h : items[i]? = some item) :
    (itemGraph id dependencies items)[i]? = some (id item, dependencies item) := by
  rw [itemGraph, List.getElem?_map, h, Option.map_some]

theorem waitsFor_itemGraph {x y : ActionId} :
    Kahn.WaitsFor (itemGraph id dependencies items) x y ↔ DependsOn id dependencies items x y := by
  constructor
  · rintro ⟨entry, hentry, rfl, hy⟩
    obtain ⟨item, hitem, rfl⟩ := List.mem_map.mp hentry
    exact ⟨item, hitem, rfl, hy⟩
  · rintro ⟨item, hitem, rfl, hy⟩
    exact ⟨_, List.mem_map_of_mem hitem, rfl, hy⟩

theorem waitsFor_itemGraph_eq :
    Kahn.WaitsFor (itemGraph id dependencies items) = DependsOn id dependencies items := by
  funext x y
  exact propext waitsFor_itemGraph

theorem edges_itemGraph : Kahn.edges (itemGraph id dependencies items) =
    items.zipIdx.flatMap fun item => (dependencies item.1).map fun y => (item.2, y) := by
  rw [Kahn.edges, itemGraph, List.zipIdx_map, List.flatMap_map]
  rfl

variable {validate : T → Except DomainError Unit}

/-- What both indexing passes accept, and the index they build. -/
theorem index_ok_iff {g : DependencyIndex} :
    (items ≠ [] ∧ (validateAndIndex id validate items >>=
      indexDependencies id dependencies items) = .ok g) ↔
      WellFormedGraph id dependencies items ∧ (∀ item ∈ items, validate item = .ok ()) ∧
        (Kahn.edges (itemGraph id dependencies items)).foldl DependencyIndex.addEdge
          ⟨List.replicate items.length 0, ∅⟩ = g := by
  have hvalidated : ∀ index, validateAndIndex id validate items = .ok index →
      ∀ y, y ∈ index ↔ y ∈ items.map id := by
    intro index hindex y
    rw [mem_of_foldlM_indexItem hindex]
    simp
  have hloop := @foldlM_indexItem_ok_iff T id validate items 0 ∅
  simp only [AList.notMem_empty, not_false_eq_true, implies_true, and_true] at hloop
  simp only [except_bind_ok_iff, edges_itemGraph]
  constructor
  · rintro ⟨hne, index, hindex, hg⟩
    obtain ⟨hvalid, hnodup⟩ := hloop.mp ⟨index, hindex⟩
    obtain ⟨hdeps, hg⟩ := foldlM_indexItemDependencies_ok_iff.mp hg
    have hitems : ∀ item ∈ items, (dependencies item).Nodup ∧ ∀ y ∈ dependencies item, y ∈ index := by
      intro item hitem
      obtain ⟨i, hi⟩ := List.getElem?_of_mem hitem
      exact hdeps (item, i) (List.mem_zipIdx_iff_getElem?.mpr hi)
    refine ⟨⟨hne, hnodup, fun item hitem => (hitems item hitem).1, ?_⟩, hvalid, hg⟩
    intro item hitem y hy
    exact (hvalidated index hindex y).mp ((hitems item hitem).2 y hy)
  · rintro ⟨hwf, hvalid, hg⟩
    obtain ⟨index, hindex⟩ := hloop.mpr ⟨hvalid, hwf.nodup⟩
    refine ⟨hwf.nonempty, index, hindex, foldlM_indexItemDependencies_ok_iff.mpr ⟨?_, hg⟩⟩
    intro item hzip
    have hitem := List.fst_mem_of_mem_zipIdx hzip
    refine ⟨hwf.depsNodup item.1 hitem, ?_⟩
    intro y hy
    exact (hvalidated index hindex y).mpr (hwf.known item.1 hitem y hy)

/-! ## The order -/

/-- The sort on the index of a graph: the greedy order that is stuck, and the counters that are left. -/
theorem topologicalSort_eq (hnodup : (items.map id).Nodup) :
    ∃ order c, topologicalSort id items
        ((Kahn.edges (itemGraph id dependencies items)).foldl DependencyIndex.addEdge
          ⟨List.replicate items.length 0, ∅⟩) = some (order, c) ∧
      Kahn.Inv (itemGraph id dependencies items) order c ∧
      Stuck (Kahn.nodes (itemGraph id dependencies items))
        (Kahn.WaitsFor (itemGraph id dependencies items)) order := by
  have hlen : (itemGraph id dependencies items).length = items.length := List.length_map _
  rw [topologicalSort, ← hlen]
  apply Kahn.drain_start (keys_itemGraph ▸ hnodup)
  · apply Kahn.indexed_of_dependentsOf
    intro p x hp
    rw [keys_itemGraph, List.getElem?_map, Option.map_eq_some_iff] at hp
    obtain ⟨item, hitem, rfl⟩ := hp
    rw [visitItem, hitem, Option.map_some, foldl_addEdge_children]
    rfl
  · apply List.ext_getElem?
    intro i
    rw [foldl_addEdge_remaining, List.getElem?_map, List.getElem?_replicate]
    split_ifs with hi
    · have hget := List.getElem?_eq_getElem hi
      rw [hget, Option.map_some, Option.map_some, Kahn.countP_edges hget, Nat.zero_add]
    · rw [List.getElem?_eq_none (Nat.le_of_not_lt hi)]
      rfl

/-- Linear lists of all ids are the topological orders. -/
theorem isTopologicalOrder_iff (hnodup : (items.map id).Nodup) {order : List ActionId}
    (hperm : order.Perm (items.map id)) : IsTopologicalOrder id dependencies items order ↔
      Linear (Kahn.nodes (itemGraph id dependencies items)) (DependsOn id dependencies items) order := by
  have hkeys : Kahn.keys (itemGraph id dependencies items) = items.map id := keys_itemGraph
  rw [← hkeys] at hperm hnodup
  rw [← waitsFor_itemGraph_eq, Kahn.linear_iff_of_perm hnodup hperm, waitsFor_itemGraph_eq]
  constructor
  · intro h
    exact h.deps
  · intro h
    exact ⟨keys_itemGraph ▸ hperm, h⟩

/-- In a graph without unknown dependencies the blocked ids are those that depend on a cycle. -/
theorem blocked_iff (hknown : ∀ item ∈ items, ∀ y ∈ dependencies item, y ∈ items.map id)
    {x : ActionId} :
    x ∈ items.map id ∧ Blocked (Kahn.nodes (itemGraph id dependencies items))
        (DependsOn id dependencies items) x ↔
      ∃ y, ReflTransGen (DependsOn id dependencies items) x y ∧
        TransGen (DependsOn id dependencies items) y y := by
  have hsource : ∀ u v, DependsOn id dependencies items u v → u ∈ items.map id := by
    rintro u v ⟨item, hitem, rfl, -⟩
    exact List.mem_map_of_mem hitem
  have htarget : ∀ u v, DependsOn id dependencies items u v → v ∈ items.map id := by
    rintro u v ⟨item, hitem, -, hv⟩
    exact hknown item hitem v hv
  constructor
  · rintro ⟨hx, y, hreach, hy | hy⟩
    · exfalso
      rw [Kahn.mem_nodes, keys_itemGraph] at hy
      rcases hreach.cases_tail with rfl | ⟨z, -, hz⟩
      · exact hy hx
      · exact hy (htarget z y hz)
    · exact ⟨y, hreach, hy⟩
  · rintro ⟨y, hreach, hy⟩
    refine ⟨?_, y, hreach, .inr hy⟩
    rcases hreach.cases_head with rfl | ⟨z, hz, -⟩
    · obtain ⟨z, hz, -⟩ := TransGen.head'_iff.mp hy
      exact hsource x z hz
    · exact hsource x z hz

/-- The dependency relation has no cycle. -/
def Acyclic (id : T → ActionId) (dependencies : T → List ActionId) (items : List T) : Prop :=
  ∀ x, ¬ TransGen (DependsOn id dependencies items) x x

/-- What `validate_dependency_graph` does: it fails a check, or it sorts the graph. -/
theorem validateDependencyGraph_cases (id : T → ActionId) (dependencies : T → List ActionId)
    (validate : T → Except DomainError Unit) (items : List T) :
    (¬ (WellFormedGraph id dependencies items ∧ ∀ item ∈ items, validate item = .ok ()) ∧
      ∃ e, validateDependencyGraph id dependencies validate items = some (.error e)) ∨
    ((WellFormedGraph id dependencies items ∧ ∀ item ∈ items, validate item = .ok ()) ∧
      ∃ order c, Kahn.Inv (itemGraph id dependencies items) order c ∧
        Stuck (Kahn.nodes (itemGraph id dependencies items))
          (Kahn.WaitsFor (itemGraph id dependencies items)) order ∧
        validateDependencyGraph id dependencies validate items =
          some (if order.length ≠ items.length then dependencyCycle id items c.pending
            else .ok ⟨order⟩)) := by
  by_cases hwf : WellFormedGraph id dependencies items ∧ ∀ item ∈ items, validate item = .ok ()
  · obtain ⟨-, hindex⟩ := index_ok_iff.mpr ⟨hwf.1, hwf.2, rfl⟩
    obtain ⟨order, c, hsort, hinv, hstuck⟩ :=
      @topologicalSort_eq T id dependencies items hwf.1.nodup
    refine .inr ⟨hwf, order, c, hinv, hstuck, ?_⟩
    unfold validateDependencyGraph
    rw [if_neg (by simpa using hwf.1.nonempty), hindex]
    simp only [hsort, Option.bind_eq_bind, Option.bind_some]
    split_ifs <;> rfl
  · refine .inl ⟨hwf, ?_⟩
    unfold validateDependencyGraph
    by_cases hne : items = []
    · rw [if_pos (by simpa using hne)]
      exact ⟨_, rfl⟩
    · rw [if_neg (by simpa using hne)]
      cases hindex : validateAndIndex id validate items >>= indexDependencies id dependencies items with
      | error e => exact ⟨e, rfl⟩
      | ok g =>
        obtain ⟨hgraph, hvalid, -⟩ := index_ok_iff.mp ⟨hne, hindex⟩
        exact absurd ⟨hgraph, hvalid⟩ hwf

/-- The sort lists every id exactly when there is no cycle. -/
theorem length_eq_iff_acyclic (hnodup : (items.map id).Nodup)
    (hknown : ∀ item ∈ items, ∀ y ∈ dependencies item, y ∈ items.map id) {order : List ActionId}
    (hlinear : Linear (Kahn.nodes (itemGraph id dependencies items)) (DependsOn id dependencies items)
      order)
    (hstuck : Stuck (Kahn.nodes (itemGraph id dependencies items)) (DependsOn id dependencies items)
      order) : order.length = items.length ↔ Acyclic id dependencies items := by
  have hlen : (itemGraph id dependencies items).length = items.length := List.length_map _
  constructor
  · intro horder x hcycle
    rw [← waitsFor_itemGraph_eq] at hlinear
    have hperm := Kahn.perm_of_linear hlinear (horder.trans hlen.symm)
    obtain ⟨hx, hblocked⟩ := (blocked_iff hknown).mpr ⟨x, .refl, hcycle⟩
    rw [waitsFor_itemGraph_eq] at hlinear
    rw [← hlinear.notMem_iff_of_stuck hstuck] at hblocked
    rw [keys_itemGraph] at hperm
    exact hblocked (hperm.mem_iff.mpr hx)
  · intro hacyclic
    have hall : ∀ x ∈ items.map id, x ∈ order := by
      intro x hx
      by_contra hout
      rw [hlinear.notMem_iff_of_stuck hstuck] at hout
      obtain ⟨y, -, hcycle⟩ := (blocked_iff hknown).mp ⟨hx, hout⟩
      exact hacyclic y hcycle
    apply le_antisymm
    · rw [← hlen, ← Kahn.card_nodes (keys_itemGraph ▸ hnodup)]
      exact hlinear.length_le
    · have hids : (items.map id).length = items.length := List.length_map id
      rw [← hids]
      exact (List.subperm_of_subset hnodup hall).length_le

/-- The ids that the cycle error names. -/
theorem mem_cycleMembers (hwf : WellFormedGraph id dependencies items) {order : List ActionId}
    {c : Kahn.Counters} (hinv : Kahn.Inv (itemGraph id dependencies items) order c)
    (hstuck : Stuck (Kahn.nodes (itemGraph id dependencies items))
      (Kahn.WaitsFor (itemGraph id dependencies items)) order) {x : ActionId} :
    x ∈ cycleMembers id items c.pending ↔
      ∃ y, ReflTransGen (DependsOn id dependencies items) x y ∧
        TransGen (DependsOn id dependencies items) y y := by
  have hlinear := hinv.greedy.linear
  have hkeys : (Kahn.keys (itemGraph id dependencies items)).Nodup := keys_itemGraph ▸ hwf.nodup
  have hpending : ∀ (i : ℕ) (item : T), items[i]? = some item →
      (c.pending[i]? ≠ some 0 ↔ id item ∉ order) := by
    intro i item hi
    exact not_congr (hinv.pending_eq_zero_iff hkeys hstuck (getElem?_itemGraph hi))
  rw [← blocked_iff hwf.known, ← waitsFor_itemGraph_eq, ← hlinear.notMem_iff_of_stuck hstuck]
  simp only [cycleMembers, List.mem_map, List.mem_filter, List.mem_zipIdx_iff_getElem?,
    decide_eq_true_eq]
  constructor
  · rintro ⟨⟨item, i⟩, ⟨hi, hzero⟩, rfl⟩
    exact ⟨⟨item, List.mem_of_getElem? hi, rfl⟩, (hpending i item hi).mp hzero⟩
  · rintro ⟨⟨item, hitem, rfl⟩, hout⟩
    obtain ⟨i, hi⟩ := List.getElem?_of_mem hitem
    exact ⟨(item, i), ⟨hi, (hpending i item hi).mpr hout⟩, rfl⟩

theorem cycleMembers_sublist {remaining : List ℕ} :
    (cycleMembers id items remaining).Sublist (items.map id) := by
  have hmap : (items.zipIdx.map fun item => id item.1) = items.map id := by
    conv_rhs => rw [← List.zipIdx_map_fst 0 items, List.map_map]
    rfl
  rw [← hmap]
  exact List.filter_sublist.map _

/-- An accepted graph is sorted by the greedy order of all its ids. -/
theorem validateDependencyGraph_ok {validate : T → Except DomainError Unit} {order : TopologicalOrder}
    (h : validateDependencyGraph id dependencies validate items = some (.ok order)) :
    WellFormedGraph id dependencies items ∧ (∀ item ∈ items, validate item = .ok ()) ∧
      order.ids.length = items.length ∧
      Greedy (Kahn.nodes (itemGraph id dependencies items)) (DependsOn id dependencies items)
        (Kahn.rank (itemGraph id dependencies items)) order.ids ∧
      Stuck (Kahn.nodes (itemGraph id dependencies items)) (DependsOn id dependencies items)
        order.ids := by
  rcases validateDependencyGraph_cases id dependencies validate items with
    ⟨-, e, he⟩ | ⟨hwf, ids, c, hinv, hstuck, hresult⟩
  · rw [he] at h
    simp at h
  · rw [hresult] at h
    split_ifs at h with hlen
    · simp [dependencyCycle, validation] at h
    · simp only [Option.some.injEq, Except.ok.injEq] at h
      subst h
      rw [← waitsFor_itemGraph_eq]
      exact ⟨hwf.1, hwf.2, not_not.mp hlen, hinv.greedy, hstuck⟩

/-- Every item is listed after the items it depends on. -/
def ListedInOrder (id : T → ActionId) (dependencies : T → List ActionId) (items : List T) : Prop :=
  ∀ before item after, items = before ++ item :: after → ∀ y ∈ dependencies item, y ∈ before.map id

/-- The greedy order of items that are listed in order is the order of the list. -/
theorem greedy_of_listedInOrder (hnodup : (items.map id).Nodup)
    (hlisted : ListedInOrder id dependencies items) :
    Greedy (Kahn.nodes (itemGraph id dependencies items)) (DependsOn id dependencies items)
        (Kahn.rank (itemGraph id dependencies items)) (items.map id) ∧
      Stuck (Kahn.nodes (itemGraph id dependencies items)) (DependsOn id dependencies items)
        (items.map id) := by
  have hkeys : Kahn.keys (itemGraph id dependencies items) = items.map id := keys_itemGraph
  rw [← waitsFor_itemGraph_eq, ← hkeys]
  apply Kahn.greedy_keys (keys_itemGraph ▸ hnodup)
  intro before entry after hgraph y hy
  obtain ⟨left, right, hitems, rfl, hright⟩ := List.map_eq_append_iff.mp hgraph
  obtain ⟨item, rest, rfl, rfl, -⟩ := List.map_eq_cons_iff.mp hright
  have hmem := hlisted left item rest hitems y hy
  have hkeys : Kahn.keys (left.map fun item => (id item, dependencies item)) = left.map id :=
    keys_itemGraph
  rw [hkeys]
  exact hmem

/-- Sorting items that are listed in order returns the order of the list. -/
theorem ids_eq_of_listedInOrder {validate : T → Except DomainError Unit} {order : TopologicalOrder}
    (h : validateDependencyGraph id dependencies validate items = some (.ok order))
    (hlisted : ListedInOrder id dependencies items) : order.ids = items.map id := by
  obtain ⟨hwf, -, -, hgreedy, hstuck⟩ := validateDependencyGraph_ok h
  obtain ⟨hgreedy', hstuck'⟩ := greedy_of_listedInOrder hwf.nodup hlisted
  exact hgreedy.eq_of_stuck Kahn.rank_injOn hgreedy' hstuck hstuck'

/-- The items in the order of their ids. -/
theorem exists_ordered {order : List ActionId} (horder : order.Perm (items.map id)) :
    ∃ ordered : List T, order = ordered.map id ∧ ordered.Perm items :=
  (congrFun (congrFun (List.eq_map_comp_perm id) order) items).mpr horder

/-- The position of an id among the items. -/
def position (id : T → ActionId) (items : List T) (x : ActionId) : ℕ := (items.map id).idxOf x

/-- The order of an accepted graph. -/
theorem isTopologicalOrder_of_ok {validate : T → Except DomainError Unit} {order : TopologicalOrder}
    (h : validateDependencyGraph id dependencies validate items = some (.ok order)) :
    IsTopologicalOrder id dependencies items order.ids ∧
      ∀ other, IsTopologicalOrder id dependencies items other → order.ids = other ∨
        List.Lex (· < ·) (order.ids.map (position id items)) (other.map (position id items)) := by
  obtain ⟨hwf, -, hlen, hgreedy, -⟩ := validateDependencyGraph_ok h
  have hlinear := hgreedy.linear
  have hperm : order.ids.Perm (items.map id) := by
    have hkeys : Kahn.keys (itemGraph id dependencies items) = items.map id := keys_itemGraph
    rw [← hkeys]
    apply Kahn.perm_of_linear
    · rw [waitsFor_itemGraph_eq]
      exact hlinear
    · rw [hlen, itemGraph, List.length_map]
  have hrank : Kahn.rank (itemGraph id dependencies items) = position id items := by
    funext x
    rw [Kahn.rank, keys_itemGraph, position]
  refine ⟨(isTopologicalOrder_iff hwf.nodup hperm).mpr hlinear, ?_⟩
  intro other hother
  rw [← hrank]
  refine hgreedy.eq_or_lex Kahn.rank_injOn ?_ ?_
  · exact (isTopologicalOrder_iff hwf.nodup hother.perm).mp hother
  · rw [hperm.length_eq, hother.perm.length_eq]

/-- Validation is exact and its order canonical: the graphs that are accepted, the order that is
    returned, and the ids that a cycle error names. No counter underflows. -/
theorem validateDependencyGraph_exact (id : T → ActionId) (dependencies : T → List ActionId)
    (validate : T → Except DomainError Unit) (items : List T)
    (hvalid : ∀ item ∈ items, validate item = .ok ()) :
    ((∃ order, validateDependencyGraph id dependencies validate items = some (.ok order)) ↔
      items ≠ [] ∧ (items.map id).Nodup ∧ (∀ item ∈ items, (dependencies item).Nodup) ∧
        (∀ item ∈ items, ∀ y ∈ dependencies item, y ∈ items.map id) ∧
        Acyclic id dependencies items) ∧
    (∀ order, validateDependencyGraph id dependencies validate items = some (.ok order) →
      IsTopologicalOrder id dependencies items order.ids ∧
      ∀ other, IsTopologicalOrder id dependencies items other → order.ids = other ∨
        List.Lex (· < ·) (order.ids.map (position id items)) (other.map (position id items))) ∧
    (WellFormedGraph id dependencies items → ¬ Acyclic id dependencies items →
      ∃ members, validateDependencyGraph id dependencies validate items =
          some (validation (cycleMessage members)) ∧
        members.Sublist (items.map id) ∧
        ∀ x, x ∈ members ↔ ∃ y, ReflTransGen (DependsOn id dependencies items) x y ∧
          TransGen (DependsOn id dependencies items) y y) ∧
    validateDependencyGraph id dependencies validate items ≠ none := by
  have hcases := validateDependencyGraph_cases id dependencies validate items
  refine ⟨⟨?_, ?_⟩, fun order => isTopologicalOrder_of_ok, ?_, ?_⟩
  · rintro ⟨order, horder⟩
    obtain ⟨hwf, -, hlen, hgreedy, hstuck⟩ := validateDependencyGraph_ok horder
    exact ⟨hwf.nonempty, hwf.nodup, hwf.depsNodup, hwf.known,
      (length_eq_iff_acyclic hwf.nodup hwf.known hgreedy.linear hstuck).mp hlen⟩
  · rintro ⟨hne, hnodup, hdeps, hknown, hacyclic⟩
    have hwf : WellFormedGraph id dependencies items := ⟨hne, hnodup, hdeps, hknown⟩
    rcases hcases with ⟨hnot, -⟩ | ⟨-, order, c, hinv, hstuck, hresult⟩
    · exact absurd ⟨hwf, hvalid⟩ hnot
    · have hlinear := hinv.greedy.linear
      rw [waitsFor_itemGraph_eq] at hlinear hstuck
      have hlen := (length_eq_iff_acyclic hwf.nodup hwf.known hlinear hstuck).mpr hacyclic
      rw [hresult, if_neg (not_not.mpr hlen)]
      exact ⟨⟨order⟩, rfl⟩
  · intro hwf hcyclic
    rcases hcases with ⟨hnot, -⟩ | ⟨-, order, c, hinv, hstuck, hresult⟩
    · exact absurd ⟨hwf, hvalid⟩ hnot
    · refine ⟨cycleMembers id items c.pending, ?_, cycleMembers_sublist, fun x =>
        mem_cycleMembers hwf hinv hstuck⟩
      have hlinear := hinv.greedy.linear
      rw [waitsFor_itemGraph_eq] at hlinear hstuck
      have hlen := mt (length_eq_iff_acyclic hwf.nodup hwf.known hlinear hstuck).mp hcyclic
      rw [hresult, if_pos hlen]
      rfl
  · rcases hcases with ⟨-, e, he⟩ | ⟨-, order, c, -, -, hresult⟩
    · rw [he]
      exact Option.some_ne_none _
    · rw [hresult]
      exact Option.some_ne_none _

end Graph

/-- An id for examples. -/
def sampleActionId (n : UInt8) : ActionId := ⟨⟨Vector.replicate 16 n⟩⟩

/-- Three items, of which the first two wait for each other and the third for the second. -/
def sampleCycle : List (ActionId × List ActionId) :=
  [(sampleActionId 1, [sampleActionId 2]), (sampleActionId 2, [sampleActionId 1]),
   (sampleActionId 3, [sampleActionId 2])]

theorem validateDependencyGraph_exact_cycle :
    ∃ members, validateDependencyGraph Prod.fst Prod.snd (fun _ => .ok ()) sampleCycle =
        some (validation (cycleMessage members)) ∧
      members = [sampleActionId 1, sampleActionId 2, sampleActionId 3] := by
  have h := validateDependencyGraph_exact Prod.fst Prod.snd (fun _ => .ok ()) sampleCycle
    (fun _ _ => rfl)
  have hedge : ∀ x y, (∃ item ∈ sampleCycle, item.1 = x ∧ y ∈ item.2) →
      DependsOn Prod.fst Prod.snd sampleCycle x y := fun _ _ hxy => hxy
  have hloop : TransGen (DependsOn Prod.fst Prod.snd sampleCycle) (sampleActionId 2)
      (sampleActionId 2) :=
    (TransGen.single (hedge (sampleActionId 2) (sampleActionId 1) (by decide))).tail
      (hedge (sampleActionId 1) (sampleActionId 2) (by decide))
  have hwf : WellFormedGraph Prod.fst Prod.snd sampleCycle :=
    ⟨by decide, by decide, by decide, by decide⟩
  obtain ⟨members, hresult, hsub, hmem⟩ := h.2.2.1 hwf fun hacyclic => hacyclic _ hloop
  refine ⟨members, hresult, hsub.eq_of_length_le ?_⟩
  have hall : ∀ x ∈ sampleCycle.map Prod.fst, x ∈ members := by
    intro x hx
    rw [hmem x]
    refine ⟨sampleActionId 2, ?_, hloop⟩
    have hcases : x = sampleActionId 1 ∨ x = sampleActionId 2 ∨ x = sampleActionId 3 := by
      simpa [sampleCycle] using hx
    rcases hcases with rfl | rfl | rfl
    · exact .single (hedge _ _ (by decide))
    · exact .refl
    · exact .single (hedge _ _ (by decide))
  exact (List.subperm_of_subset (by decide) hall).length_le

end BaselineOps.Domain
