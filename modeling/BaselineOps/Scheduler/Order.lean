import Mathlib
import BaselineOps.Domain.Graph
import BaselineOps.Domain.Plan

/-!
# The order of execution

Model of `baselineops-engine/src/scheduler/order.rs`, which indexes the dependencies, and of
`reference_order` in `scheduler_bench.rs`, which scans the actions again in every round. A
`BTreeMap` is an association list. `topologicalOrder` is `none` when a counter would underflow or an
index is out of range, which panics.

* `topologicalOrder_eq_referenceOrder`: both give the same order or the same error.
* `topologicalOrder_ok`: what an order that is returned satisfies.
-/

namespace BaselineOps.Engine

open BaselineOps.Domain BaselineOps.Lib

/-- `SchedulerError` (`scheduler.rs`, lines 88–96). -/
inductive SchedulerError where
  | invalidGraph (message : String)
  | capability (message : String)
  deriving DecidableEq

/-- `SchedulerError`'s `Display`. -/
def SchedulerError.toText : SchedulerError → String
  | .invalidGraph message => "invalid action graph: " ++ message
  | .capability message => "capability execution failed: " ++ message

/-! ## `order.rs` -/

/-- `incomplete_graph` (lines 85–87). -/
def incompleteGraph : SchedulerError := .invalidGraph "dependencies are missing or cyclic"

/-- A `BTreeMap` collected from the ids of the actions. -/
def collectById {β : Type} (entries : List (ActionId × β)) : AList fun _ : ActionId => β :=
  entries.foldl (fun map entry => map.insert entry.1 entry.2) ∅

/-- `action_positions` (lines 29–46). -/
def actionPositions (actions : List PlannedActionV3) :
    Except SchedulerError (AList fun _ : ActionId => ℕ) :=
  if actions.isEmpty then .error (.invalidGraph "no actions were supplied")
  else
    let positions := collectById (actions.zipIdx.map fun action => (action.1.id, action.2))
    if positions.entries.length ≠ actions.length then
      .error (.invalidGraph "duplicate action IDs")
    else .ok positions

/-- `DependencyIndex` (lines 48–51). -/
structure DependencyIndex where
  pending : List ℕ
  dependents : List (List ℕ)

/-- The inner loop of `DependencyIndex::build` (lines 66–69). -/
def indexDependents (positions : AList fun _ : ActionId => ℕ) (dependents : List (List ℕ))
    (action : PlannedActionV3 × ℕ) : Except SchedulerError (List (List ℕ)) :=
  action.1.dependsOn.foldlM (fun dependents dependency =>
    match positions.lookup dependency with
    | none => .error incompleteGraph
    | some parent => .ok (dependents.modify parent (· ++ [action.2]))) dependents

/-- `DependencyIndex::build` (lines 54–72). -/
def DependencyIndex.build (actions : List PlannedActionV3)
    (positions : AList fun _ : ActionId => ℕ) : Except SchedulerError DependencyIndex := do
  let dependents ← actions.zipIdx.foldlM (indexDependents positions)
    (List.replicate actions.length [])
  return ⟨actions.map fun action => action.dependsOn.length, dependents⟩

/-- The body of the loop of `topological_order` (lines 18–21): the id that is pushed, and the
    positions that `DependencyIndex::complete` (lines 74–83) decrements. -/
def visitAction (actions : List PlannedActionV3) (dependents : List (List ℕ)) (position : ℕ) :
    Option (ActionId × List ℕ) := do
  let action ← actions[position]?
  let waiting ← dependents[position]?
  return (action.id, waiting)

/-- `topological_order` (lines 6–27); a position is taken at most once. -/
def topologicalOrder (actions : List PlannedActionV3) :
    Option (Except SchedulerError (List ActionId)) :=
  match actionPositions actions >>= DependencyIndex.build actions with
  | .error e => some (.error e)
  | .ok graph => do
    let (order, _) ← Kahn.drain (visitAction actions graph.dependents) (actions.length + 1) []
      (Kahn.start graph.pending)
    if order.length ≠ actions.length then
      return .error incompleteGraph
    else
      return .ok order

/-! ## `reference_order` -/

/-- The test of the `find` in `reference_order` (lines 111–117). -/
def isNext (complete : Finset ActionId) (action : PlannedActionV3) : Bool :=
  decide (action.id ∉ complete) && action.dependsOn.all fun dependency => decide (dependency ∈ complete)

/-- The loop of `reference_order` (lines 109–133). Every round pushes one id, so
    `while order.len() < actions.len()` makes as many rounds as there are actions. -/
def referenceLoop (actions : List PlannedActionV3) (byId : AList fun _ : ActionId => PlannedActionV3) :
    ℕ → Finset ActionId → List ActionId → Except SchedulerError (List ActionId)
  | 0, _, order => .ok order
  | rounds + 1, complete, order =>
    match actions.find? (isNext complete) with
    | none => .error (.invalidGraph "dependencies are missing or cyclic")
    | some next =>
      if next.dependsOn.any fun dependency => decide (dependency ∉ byId) then
        .error (.invalidGraph "an action depends on an unknown action")
      else
        referenceLoop actions byId rounds (insert next.id complete) (order ++ [next.id])

/-- `reference_order` (`scheduler_bench.rs`, lines 92–135). -/
def referenceOrder (actions : List PlannedActionV3) : Except SchedulerError (List ActionId) :=
  if actions.isEmpty then .error (.invalidGraph "no actions were supplied")
  else
    let byId := collectById (actions.map fun action => (action.id, action))
    if byId.entries.length ≠ actions.length then
      .error (.invalidGraph "duplicate action IDs")
    else referenceLoop actions byId actions.length ∅ []

/-! ## Maps by id -/

theorem foldl_insert_keys {β : Type} (entries : List (ActionId × β))
    (map : AList fun _ : ActionId => β) (x : ActionId) :
    x ∈ entries.foldl (fun map entry => map.insert entry.1 entry.2) map ↔
      x ∈ map ∨ x ∈ entries.map Prod.fst := by
  induction entries generalizing map with
  | nil => simp
  | cons entry entries ih =>
    rw [List.foldl_cons, ih, AList.mem_insert, List.map_cons, List.mem_cons]
    tauto

theorem mem_collectById {β : Type} {entries : List (ActionId × β)} {x : ActionId} :
    x ∈ collectById entries ↔ x ∈ entries.map Prod.fst := by
  rw [collectById, foldl_insert_keys]
  simp

/-- The collected map has as many entries as there are different ids. -/
theorem length_collectById {β : Type} (entries : List (ActionId × β)) :
    (collectById entries).entries.length = (entries.map Prod.fst).toFinset.card := by
  have hkeys : (collectById entries).keys.toFinset = (entries.map Prod.fst).toFinset := by
    ext x
    rw [List.mem_toFinset, List.mem_toFinset, ← mem_collectById, AList.mem_keys]
  have hnodup : (collectById entries).keys.Nodup := (collectById entries).nodupKeys
  rw [← hkeys, List.toFinset_card_of_nodup hnodup, AList.keys, List.keys, List.length_map]

theorem length_collectById_eq_iff {β : Type} {entries : List (ActionId × β)} {n : ℕ}
    (hn : entries.length = n) :
    (collectById entries).entries.length = n ↔ (entries.map Prod.fst).Nodup := by
  rw [length_collectById, ← hn, ← List.length_map (f := Prod.fst)]
  exact Multiset.toFinset_card_eq_card_iff_nodup

theorem lookup_collectById {β : Type} {entries : List (ActionId × β)}
    (hnodup : (entries.map Prod.fst).Nodup) {x : ActionId} {b : β} :
    (collectById entries).lookup x = some b ↔ (x, b) ∈ entries := by
  induction entries using List.reverseRecOn with
  | nil => simp [collectById]
  | append_singleton entries entry ih =>
    rw [List.map_append, List.nodup_append] at hnodup
    have hconcat : collectById (entries ++ [entry]) =
        (collectById entries).insert entry.1 entry.2 := by
      rw [collectById, List.foldl_append]
      rfl
    rw [hconcat, List.mem_append, List.mem_singleton, ← ih hnodup.1]
    by_cases hx : x = entry.1
    · subst hx
      have hnone : (collectById entries).lookup entry.1 = none := by
        rw [AList.lookup_eq_none, mem_collectById]
        intro hmem
        exact hnodup.2.2 entry.1 hmem entry.1 (by simp) rfl
      rw [AList.lookup_insert, hnone, Option.some.injEq]
      constructor
      · rintro rfl
        exact .inr rfl
      · rintro (h | h)
        · simp at h
        · exact (congrArg Prod.snd h).symm
    · rw [AList.lookup_insert_ne hx]
      constructor
      · intro h
        exact .inl h
      · rintro (h | h)
        · exact h
        · exact absurd (congrArg Prod.fst h) hx

/-! ## The index as a graph -/

/-- The actions as a graph of ids. -/
abbrev actionGraph (actions : List PlannedActionV3) : List (ActionId × List ActionId) :=
  itemGraph PlannedActionV3.id PlannedActionV3.dependsOn actions

theorem length_actionGraph (actions : List PlannedActionV3) :
    (actionGraph actions).length = actions.length :=
  List.length_map _

section Index

variable {actions : List PlannedActionV3}

/-- The push of one edge. -/
def addDependent (positions : AList fun _ : ActionId => ℕ) (dependents : List (List ℕ))
    (edge : ℕ × ActionId) : Except SchedulerError (List (List ℕ)) :=
  match positions.lookup edge.2 with
  | none => .error incompleteGraph
  | some parent => .ok (dependents.modify parent (· ++ [edge.1]))

theorem foldlM_indexDependents (positions : AList fun _ : ActionId => ℕ)
    (dependents : List (List ℕ)) : actions.zipIdx.foldlM (indexDependents positions) dependents =
      (Kahn.edges (actionGraph actions)).foldlM (addDependent positions) dependents := by
  rw [edges_itemGraph]
  generalize actions.zipIdx = items
  induction items generalizing dependents with
  | nil => rfl
  | cons item items ih =>
    rw [List.foldlM_cons, List.flatMap_cons, List.foldlM_append, List.foldlM_map]
    exact bind_congr fun dependents => ih dependents

/-- The positions of the actions that wait for the action at `rank y`. -/
theorem foldlM_addDependent {positions : AList fun _ : ActionId => ℕ} {rank : ActionId → ℕ}
    {es : List (ℕ × ActionId)} (h : ∀ edge ∈ es, positions.lookup edge.2 = some (rank edge.2))
    (dependents : List (List ℕ)) : ∃ dependents',
      es.foldlM (addDependent positions) dependents = .ok dependents' ∧
      ∀ p : ℕ, dependents'[p]? = dependents[p]?.map
        (· ++ (es.filter fun edge => rank edge.2 = p).map Prod.fst) := by
  induction es generalizing dependents with
  | nil => exact ⟨dependents, rfl, by simp⟩
  | cons edge es ih =>
    have hstep : addDependent positions dependents edge =
        .ok (dependents.modify (rank edge.2) (· ++ [edge.1])) := by
      rw [addDependent, h edge List.mem_cons_self]
    obtain ⟨dependents', hfold, hget⟩ := ih (fun e he => h e (List.mem_cons_of_mem edge he))
      (dependents.modify (rank edge.2) (· ++ [edge.1]))
    refine ⟨dependents', ?_, ?_⟩
    · rw [List.foldlM_cons, hstep]
      exact hfold
    · intro p
      rw [hget p, List.getElem?_modify, List.filter_cons]
      cases dependents[p]? with
      | none => rfl
      | some waiting => by_cases hp : rank edge.2 = p <;> simp [hp]

theorem foldlM_addDependent_error {positions : AList fun _ : ActionId => ℕ}
    {es : List (ℕ × ActionId)} (h : ∃ edge ∈ es, positions.lookup edge.2 = none)
    (dependents : List (List ℕ)) :
    es.foldlM (addDependent positions) dependents = .error incompleteGraph := by
  induction es generalizing dependents with
  | nil =>
    obtain ⟨edge, hedge, -⟩ := h
    exact absurd hedge List.not_mem_nil
  | cons edge es ih =>
    rw [List.foldlM_cons]
    cases hlookup : positions.lookup edge.2 with
    | none =>
      rw [addDependent, hlookup]
      rfl
    | some parent =>
      rw [addDependent, hlookup]
      apply ih
      obtain ⟨e, he, hnone⟩ := h
      rcases List.mem_cons.mp he with rfl | he
      · rw [hlookup] at hnone
        simp at hnone
      · exact ⟨e, he, hnone⟩

/-- The map of `action_positions`. -/
theorem actionPositions_eq (hne : actions ≠ []) (hnodup : (actions.map PlannedActionV3.id).Nodup) :
    ∃ positions, actionPositions actions = .ok positions ∧
      (∀ y ∈ actions.map PlannedActionV3.id,
        positions.lookup y = some (Kahn.rank (actionGraph actions) y)) ∧
      ∀ y ∉ actions.map PlannedActionV3.id, positions.lookup y = none := by
  have hfst : (actions.zipIdx.map fun action => (action.1.id, action.2)).map Prod.fst =
      actions.map PlannedActionV3.id := by
    conv_rhs => rw [← List.zipIdx_map_fst 0 actions, List.map_map]
    rw [List.map_map]
    rfl
  have hlen : (actions.zipIdx.map fun action => (action.1.id, action.2)).length =
      actions.length := by
    rw [List.length_map, List.length_zipIdx]
  rw [← hfst] at hnodup
  refine ⟨collectById (actions.zipIdx.map fun action => (action.1.id, action.2)), ?_, ?_, ?_⟩
  · unfold actionPositions
    rw [if_neg (by simpa using hne)]
    show (if _ then _ else _) = _
    rw [if_neg (not_not.mpr ((length_collectById_eq_iff hlen).mpr hnodup))]
  · intro y hy
    rw [lookup_collectById hnodup, List.mem_map]
    obtain ⟨action, haction, rfl⟩ := List.mem_map.mp hy
    obtain ⟨i, hi⟩ := List.getElem?_of_mem haction
    refine ⟨(action, i), List.mem_zipIdx_iff_getElem?.mpr hi, ?_⟩
    have hget : (actionGraph actions)[i]? = some (action.id, action.dependsOn) :=
      getElem?_itemGraph hi
    rw [hfst] at hnodup
    rw [Kahn.rank_of_getElem? (keys_itemGraph ▸ hnodup) hget]
  · intro y hy
    rw [AList.lookup_eq_none, mem_collectById, hfst]
    exact hy

/-- Every dependency is the id of an action. -/
def KnownDependencies (actions : List PlannedActionV3) : Prop :=
  ∀ action ∈ actions, ∀ y ∈ action.dependsOn, y ∈ actions.map PlannedActionV3.id

theorem mem_ids_of_edge (h : KnownDependencies actions) {edge : ℕ × ActionId}
    (hedge : edge ∈ Kahn.edges (actionGraph actions)) : edge.2 ∈ actions.map PlannedActionV3.id := by
  obtain ⟨entry, hentry, hy⟩ := Kahn.mem_edges.mp hedge
  obtain ⟨action, haction, rfl⟩ := List.mem_map.mp (List.mem_of_getElem? hentry)
  exact h action haction _ hy

/-- The order of distinct actions with known dependencies. -/
theorem topologicalOrder_eq (hne : actions ≠ []) (hnodup : (actions.map PlannedActionV3.id).Nodup)
    (hknown : KnownDependencies actions) :
    ∃ order c, Kahn.Inv (actionGraph actions) order c ∧
      Stuck (Kahn.nodes (actionGraph actions)) (Kahn.WaitsFor (actionGraph actions)) order ∧
      topologicalOrder actions =
        some (if order.length ≠ actions.length then .error incompleteGraph else .ok order) := by
  have hkeys : (Kahn.keys (actionGraph actions)).Nodup := keys_itemGraph ▸ hnodup
  have hlen : (actionGraph actions).length = actions.length := List.length_map _
  obtain ⟨positions, hpositions, hlookup, -⟩ := actionPositions_eq hne hnodup
  obtain ⟨dependents, hfold, hget⟩ := foldlM_addDependent
    (fun edge hedge => hlookup edge.2 (mem_ids_of_edge hknown hedge))
    (List.replicate actions.length [])
  have hbuild : (actionPositions actions >>= DependencyIndex.build actions) =
      .ok ⟨actions.map fun action => action.dependsOn.length, dependents⟩ := by
    rw [hpositions]
    show DependencyIndex.build actions positions = _
    rw [DependencyIndex.build, foldlM_indexDependents, hfold]
    rfl
  have hindexed : Kahn.Indexed (actionGraph actions) (visitAction actions dependents) := by
    apply Kahn.indexed_of_dependentsOf
    intro p x hp
    rw [keys_itemGraph, List.getElem?_map, Option.map_eq_some_iff] at hp
    obtain ⟨action, haction, rfl⟩ := hp
    have hentry : (actionGraph actions)[p]? = some (action.id, action.dependsOn) :=
      getElem?_itemGraph haction
    have hrank := Kahn.rank_of_getElem? hkeys hentry
    have hp : p < actions.length := (List.getElem?_eq_some_iff.mp haction).1
    have hfilter : (Kahn.edges (actionGraph actions)).filter
        (fun edge => Kahn.rank (actionGraph actions) edge.2 = p) =
          (Kahn.edges (actionGraph actions)).filter fun edge => edge.2 = action.id := by
      apply List.filter_congr
      intro edge hedge
      rw [decide_eq_decide, ← hrank]
      constructor
      · intro heq
        have hmem := mem_ids_of_edge hknown hedge
        have hkeys : Kahn.keys (actionGraph actions) = actions.map PlannedActionV3.id :=
          keys_itemGraph
        rw [← hkeys] at hmem
        exact (List.idxOf_inj hmem).mp heq
      · intro heq
        rw [heq]
    have hwaiting : dependents[p]? = some (Kahn.dependentsOf (actionGraph actions) action.id) := by
      rw [hget p, List.getElem?_replicate, if_pos hp, hfilter]
      rfl
    rw [visitAction, haction, hwaiting]
    rfl
  have hpending : (actions.map fun action => action.dependsOn.length) =
      (actionGraph actions).map fun entry => entry.2.length := by
    unfold actionGraph itemGraph
    rw [List.map_map]
    rfl
  obtain ⟨order, c, hdrain, hinv, hstuck⟩ := Kahn.drain_start hkeys hindexed hpending
  refine ⟨order, c, hinv, hstuck, ?_⟩
  rw [hlen] at hdrain
  unfold topologicalOrder
  rw [hbuild]
  simp only [hdrain, Option.bind_eq_bind, Option.bind_some]
  split_ifs <;> rfl

theorem topologicalOrder_unknown (hne : actions ≠ [])
    (hnodup : (actions.map PlannedActionV3.id).Nodup) (hunknown : ¬ KnownDependencies actions) :
    topologicalOrder actions = some (.error incompleteGraph) := by
  obtain ⟨positions, hpositions, -, hlookup⟩ := actionPositions_eq hne hnodup
  have hedge : ∃ edge ∈ Kahn.edges (actionGraph actions), positions.lookup edge.2 = none := by
    simp only [KnownDependencies, not_forall] at hunknown
    obtain ⟨action, haction, y, hy, hmissing⟩ := hunknown
    obtain ⟨i, hi⟩ := List.getElem?_of_mem haction
    exact ⟨(i, y), Kahn.mem_edges.mpr ⟨_, getElem?_itemGraph hi, hy⟩, hlookup y hmissing⟩
  have hbuild : (actionPositions actions >>= DependencyIndex.build actions) =
      .error incompleteGraph := by
    rw [hpositions]
    show DependencyIndex.build actions positions = _
    rw [DependencyIndex.build, foldlM_indexDependents, foldlM_addDependent_error hedge]
    rfl
  unfold topologicalOrder
  rw [hbuild]

end Index

/-! ## The reference -/

section Reference

variable {actions : List PlannedActionV3}

theorem isNext_iff (hnodup : (actions.map PlannedActionV3.id).Nodup) {order : List ActionId}
    {action : PlannedActionV3} (haction : action ∈ actions) :
    isNext order.toFinset action = true ↔
      Ready (Kahn.nodes (actionGraph actions)) (Kahn.WaitsFor (actionGraph actions)) order
        action.id := by
  have hentry : (action.id, action.dependsOn) ∈ actionGraph actions := List.mem_map_of_mem haction
  rw [Kahn.ready_iff (keys_itemGraph ▸ hnodup) hentry, List.countP_eq_zero]
  simp [isNext]

/-- The first action that passes the test is the ready one of the least position. -/
theorem leastReady_of_find? (hnodup : (actions.map PlannedActionV3.id).Nodup) {order : List ActionId}
    {next : PlannedActionV3} (h : actions.find? (isNext order.toFinset) = some next) :
    LeastReady (Kahn.nodes (actionGraph actions)) (Kahn.WaitsFor (actionGraph actions))
      (Kahn.rank (actionGraph actions)) order next.id := by
  have hkeys : (Kahn.keys (actionGraph actions)).Nodup := keys_itemGraph ▸ hnodup
  obtain ⟨hnext, before, after, hactions, hbefore⟩ := List.find?_eq_some_iff_append.mp h
  have hmem : next ∈ actions := List.mem_of_find?_eq_some h
  refine ⟨(isNext_iff hnodup hmem).mp hnext, ?_⟩
  intro y hy
  have hymem := hy.mem
  rw [Kahn.mem_nodes, keys_itemGraph] at hymem
  obtain ⟨action, haction, rfl⟩ := List.mem_map.mp hymem
  obtain ⟨j, hj⟩ := List.getElem?_of_mem haction
  have hget : actions[before.length]? = some next := by
    rw [hactions, List.getElem?_append_right (Nat.le_refl _), Nat.sub_self, List.getElem?_cons_zero]
  rw [Kahn.rank_of_getElem? hkeys (getElem?_itemGraph hget),
    Kahn.rank_of_getElem? hkeys (getElem?_itemGraph hj)]
  -- an action before the first one that passes the test fails it
  by_contra hlt
  rw [hactions, List.getElem?_append_left (by omega)] at hj
  have hfails := hbefore action (List.mem_of_getElem? hj)
  rw [(isNext_iff hnodup haction).mpr hy] at hfails
  simp at hfails

/-- The loop of the reference ends with a full greedy order, or with the error of a stuck one. -/
theorem referenceLoop_spec (hnodup : (actions.map PlannedActionV3.id).Nodup)
    {byId : AList fun _ : ActionId => PlannedActionV3}
    (hbyId : ∀ y, y ∈ byId ↔ y ∈ actions.map PlannedActionV3.id) {rounds : ℕ} {order : List ActionId}
    (hgreedy : Greedy (Kahn.nodes (actionGraph actions)) (Kahn.WaitsFor (actionGraph actions))
      (Kahn.rank (actionGraph actions)) order)
    (hrounds : order.length + rounds = actions.length) :
    ∃ order', Greedy (Kahn.nodes (actionGraph actions)) (Kahn.WaitsFor (actionGraph actions))
        (Kahn.rank (actionGraph actions)) order' ∧
      Stuck (Kahn.nodes (actionGraph actions)) (Kahn.WaitsFor (actionGraph actions)) order' ∧
      referenceLoop actions byId rounds order.toFinset order =
        if order'.length ≠ actions.length then .error incompleteGraph else .ok order' := by
  induction rounds generalizing order with
  | zero =>
    refine ⟨order, hgreedy, ?_, ?_⟩
    · intro x hx
      have hperm := Kahn.perm_of_linear hgreedy.linear
        (hrounds.trans (length_actionGraph actions).symm)
      exact hx.fresh (hperm.mem_iff.mpr (Kahn.mem_nodes.mp hx.mem))
    · rw [Nat.add_zero] at hrounds
      rw [if_neg (not_not.mpr hrounds)]
      rfl
  | succ rounds ih =>
    cases hfind : actions.find? (isNext order.toFinset) with
    | none =>
      refine ⟨order, hgreedy, ?_, ?_⟩
      · intro x hx
        have hxmem := hx.mem
        rw [Kahn.mem_nodes, keys_itemGraph] at hxmem
        obtain ⟨action, haction, rfl⟩ := List.mem_map.mp hxmem
        exact List.find?_eq_none.mp hfind action haction ((isNext_iff hnodup haction).mpr hx)
      · rw [referenceLoop, hfind, if_pos (by omega)]
        rfl
    | some next =>
      have hleast := leastReady_of_find? hnodup hfind
      have hknown : (next.dependsOn.any fun dependency => decide (dependency ∉ byId)) = false := by
        rw [List.any_eq_false]
        intro y hy
        have hdone := hleast.ready.deps y ⟨_, List.mem_map_of_mem (List.mem_of_find?_eq_some hfind),
          rfl, hy⟩
        have hmem := hgreedy.linear.subset hdone
        rw [Kahn.mem_nodes, keys_itemGraph, ← hbyId y] at hmem
        simpa using hmem
      have hinsert : insert next.id order.toFinset = (order ++ [next.id]).toFinset := by
        ext x
        simp
      obtain ⟨order', hgreedy', hstuck', hloop⟩ := ih (eachNext_concat hgreedy hleast)
        (by rw [List.length_append, List.length_singleton]; omega)
      refine ⟨order', hgreedy', hstuck', ?_⟩
      rw [← hloop, referenceLoop, hfind]
      simp only [hknown, Bool.false_eq_true, if_false, hinsert]

/-- Both sorts refuse actions that share an id. -/
theorem order_of_duplicate (hne : actions ≠ []) (hdup : ¬ (actions.map PlannedActionV3.id).Nodup) :
    topologicalOrder actions = some (.error (.invalidGraph "duplicate action IDs")) ∧
      referenceOrder actions = .error (.invalidGraph "duplicate action IDs") := by
  have hlen : ∀ {β : Type} (entries : List (ActionId × β)),
      entries.map Prod.fst = actions.map PlannedActionV3.id →
      (collectById entries).entries.length ≠ actions.length := by
    intro β entries hfst heq
    have hentries : entries.length = actions.length := by
      simpa using congrArg List.length hfst
    rw [length_collectById_eq_iff hentries, hfst] at heq
    exact hdup heq
  constructor
  · have hpositions : actionPositions actions =
        .error (.invalidGraph "duplicate action IDs") := by
      unfold actionPositions
      rw [if_neg (by simpa using hne)]
      refine if_pos (hlen _ ?_)
      conv_rhs => rw [← List.zipIdx_map_fst 0 actions, List.map_map]
      rw [List.map_map]
      rfl
    unfold topologicalOrder
    rw [hpositions]
    rfl
  · unfold referenceOrder
    rw [if_neg (by simpa using hne)]
    refine if_pos (hlen _ ?_)
    rw [List.map_map]
    rfl

/-- The reference on distinct actions. -/
theorem referenceOrder_eq (hne : actions ≠ []) (hnodup : (actions.map PlannedActionV3.id).Nodup) :
    ∃ order, Greedy (Kahn.nodes (actionGraph actions)) (Kahn.WaitsFor (actionGraph actions))
        (Kahn.rank (actionGraph actions)) order ∧
      Stuck (Kahn.nodes (actionGraph actions)) (Kahn.WaitsFor (actionGraph actions)) order ∧
      referenceOrder actions =
        if order.length ≠ actions.length then .error incompleteGraph else .ok order := by
  have hfst : (actions.map fun action => (action.id, action)).map Prod.fst =
      actions.map PlannedActionV3.id := by
    rw [List.map_map]
    rfl
  have hbyId : ∀ y, y ∈ collectById (actions.map fun action => (action.id, action)) ↔
      y ∈ actions.map PlannedActionV3.id := by
    intro y
    rw [mem_collectById, hfst]
  obtain ⟨order, hgreedy, hstuck, hloop⟩ := referenceLoop_spec hnodup hbyId
    (eachNext_nil : Greedy (Kahn.nodes (actionGraph actions)) (Kahn.WaitsFor (actionGraph actions))
      (Kahn.rank (actionGraph actions)) []) (Nat.zero_add actions.length)
  refine ⟨order, hgreedy, hstuck, ?_⟩
  unfold referenceOrder
  rw [if_neg (by simpa using hne), ← hloop]
  refine if_neg (not_not.mpr ?_)
  rw [length_collectById_eq_iff (List.length_map _), hfst]
  exact hnodup

/-- A stuck order leaves an action with an unknown dependency out. -/
theorem length_ne_of_unknown (hunknown : ¬ KnownDependencies actions) {order : List ActionId}
    (hlinear : Linear (Kahn.nodes (actionGraph actions)) (Kahn.WaitsFor (actionGraph actions))
      order) : order.length ≠ actions.length := by
  intro hlen
  apply hunknown
  intro action haction y hy
  have hperm := Kahn.perm_of_linear hlinear (hlen.trans (length_actionGraph actions).symm)
  rw [keys_itemGraph] at hperm
  have hmem : action.id ∈ order := hperm.mem_iff.mpr (List.mem_map_of_mem haction)
  have hdone := hlinear.mem_of_dep hmem ⟨_, List.mem_map_of_mem haction, rfl, hy⟩
  exact hperm.mem_iff.mp hdone

/-- Every error is about the graph. -/
theorem referenceOrder_error {e : SchedulerError} (h : referenceOrder actions = .error e) :
    ∃ message, e = .invalidGraph message := by
  by_cases hne : actions = []
  · subst hne
    cases h
    exact ⟨_, rfl⟩
  by_cases hnodup : (actions.map PlannedActionV3.id).Nodup
  · obtain ⟨order, -, -, href⟩ := referenceOrder_eq hne hnodup
    rw [href] at h
    split_ifs at h with hlen
    cases h
    exact ⟨_, rfl⟩
  · rw [(order_of_duplicate hne hnodup).2] at h
    cases h
    exact ⟨_, rfl⟩

/-- The indexed sort computes the order of the reference. -/
theorem topologicalOrder_eq_some (actions : List PlannedActionV3) :
    topologicalOrder actions = some (referenceOrder actions) := by
  by_cases hne : actions = []
  · subst hne
    rfl
  by_cases hnodup : (actions.map PlannedActionV3.id).Nodup
  · obtain ⟨order, hgreedy, hstuck, href⟩ := referenceOrder_eq hne hnodup
    by_cases hknown : KnownDependencies actions
    · obtain ⟨order', c, hinv, hstuck', htop⟩ := topologicalOrder_eq hne hnodup hknown
      rw [htop, href, hgreedy.eq_of_stuck Kahn.rank_injOn hinv.greedy hstuck hstuck']
    · rw [topologicalOrder_unknown hne hnodup hknown, href,
        if_pos (length_ne_of_unknown hknown hgreedy.linear)]
  · obtain ⟨htop, href⟩ := order_of_duplicate hne hnodup
    rw [htop, href]

/-- The indexed sort and the scanning reference agree on every list of actions: they return the same
    order or fail with the same message about the graph. -/
theorem topologicalOrder_eq_referenceOrder (actions : List PlannedActionV3) :
    (∃ message, topologicalOrder actions = some (.error (.invalidGraph message)) ∧
      referenceOrder actions = .error (.invalidGraph message)) ∨
    ∃ order, topologicalOrder actions = some (.ok order) ∧ referenceOrder actions = .ok order := by
  rw [topologicalOrder_eq_some]
  cases href : referenceOrder actions with
  | error e =>
    obtain ⟨message, rfl⟩ := referenceOrder_error href
    exact .inl ⟨message, rfl, rfl⟩
  | ok order => exact .inr ⟨order, rfl, rfl⟩

end Reference

/-! ## The order that is returned -/

/-- An order that is returned lists every action once, greedily. -/
theorem topologicalOrder_ok {actions : List PlannedActionV3} {order : List ActionId}
    (h : topologicalOrder actions = some (.ok order)) :
    (actions.map PlannedActionV3.id).Nodup ∧ KnownDependencies actions ∧
      order.Perm (actions.map PlannedActionV3.id) ∧
      Greedy (Kahn.nodes (actionGraph actions))
        (DependsOn PlannedActionV3.id PlannedActionV3.dependsOn actions)
        (Kahn.rank (actionGraph actions)) order := by
  rw [topologicalOrder_eq_some, Option.some.injEq] at h
  have hne : actions ≠ [] := by
    rintro rfl
    cases h
  have hnodup : (actions.map PlannedActionV3.id).Nodup := by
    by_contra hdup
    rw [(order_of_duplicate hne hdup).2] at h
    cases h
  obtain ⟨order', hgreedy, -, href⟩ := referenceOrder_eq hne hnodup
  rw [href] at h
  split_ifs at h with hlen
  cases h
  have hknown : KnownDependencies actions := by
    by_contra hunknown
    exact length_ne_of_unknown hunknown hgreedy.linear (not_not.mp hlen)
  have hperm := Kahn.perm_of_linear hgreedy.linear
    ((not_not.mp hlen).trans (length_actionGraph actions).symm)
  rw [keys_itemGraph] at hperm
  rw [waitsFor_itemGraph_eq] at hgreedy
  exact ⟨hnodup, hknown, hperm, hgreedy⟩

/-- Distinct actions with known dependencies and no cycle have an order. -/
theorem exists_topologicalOrder {actions : List PlannedActionV3} (hne : actions ≠ [])
    (hnodup : (actions.map PlannedActionV3.id).Nodup) (hknown : KnownDependencies actions)
    (hacyclic : Acyclic PlannedActionV3.id PlannedActionV3.dependsOn actions) :
    ∃ order, topologicalOrder actions = some (.ok order) := by
  obtain ⟨order, c, hinv, hstuck, htop⟩ := topologicalOrder_eq hne hnodup hknown
  have hlinear := hinv.greedy.linear
  rw [waitsFor_itemGraph_eq] at hlinear hstuck
  have hlen := (length_eq_iff_acyclic hnodup hknown hlinear hstuck).mpr hacyclic
  rw [htop, if_neg (not_not.mpr hlen)]
  exact ⟨order, rfl⟩

/-- Actions that are listed in order are executed as listed. -/
theorem topologicalOrder_of_listedInOrder {actions : List PlannedActionV3} (hne : actions ≠ [])
    (hnodup : (actions.map PlannedActionV3.id).Nodup) (hknown : KnownDependencies actions)
    (hlisted : ListedInOrder PlannedActionV3.id PlannedActionV3.dependsOn actions) :
    topologicalOrder actions = some (.ok (actions.map PlannedActionV3.id)) := by
  obtain ⟨order, c, hinv, hstuck, htop⟩ := topologicalOrder_eq hne hnodup hknown
  obtain ⟨hgreedy', hstuck'⟩ := greedy_of_listedInOrder hnodup hlisted
  rw [← waitsFor_itemGraph_eq] at hgreedy' hstuck'
  have horder := hinv.greedy.eq_of_stuck Kahn.rank_injOn hgreedy' hstuck hstuck'
  rw [htop, horder, if_neg (by rw [List.length_map]; simp)]

end BaselineOps.Engine
