import Mathlib
import BaselineOps.Scheduler.Execute

/-!
# Wire order has no execution semantics

`PlanV4.actions` is documented as a set whose wire order does not matter. For a run that never stops
(no cancellation, an operation other than apply, and continuation after errors) and a runner whose
answer depends on the action alone, every action has the same turn whatever the order of the list.

* `Reflects.turn_unique`: the turn of an action is determined by the actions it depends on.
* `executeActions_wire_order`: outcomes do not depend on the order of the list.
-/

namespace BaselineOps.Engine

open BaselineOps.Domain BaselineOps.Lib

/-- A world without cancellation whose runner answers by the action alone. -/
def pureWorld (run : PlannedActionV3 → Except SchedulerError ActionExecution)
    (clock : ℕ → DateTime) : World where
  requests _ := false
  run _ := run
  clock := clock

/-- The status and metadata reported for an id. -/
def ExecutionSummary.outcomeOf (summary : ExecutionSummary) (x : ActionId) :
    Option (ActionStatus × JsonMap) :=
  (summary.actions.find? fun r => r.actionId = x).map fun r => (r.status, r.metadata)

section Turns

variable {policy : ExecutionPolicy} {run : PlannedActionV3 → Except SchedulerError ActionExecution}
  {clock clock' : ℕ → DateTime}

theorem pureWorld_isCancelled (k : ℕ) : (pureWorld run clock).isCancelled k = false := by
  simp [World.isCancelled, pureWorld]

/-- Without cancellation a policy that continues never stops. -/
theorem stops_eq_false (hoperation : policy.operation ≠ .apply) (hcontinue : policy.continueOnError = true)
    {t : Turn} (hcancelled : t.cancelled = false) : t.stops policy = false := by
  simp [Turn.stops, hcancelled, ExecutionPolicy.shouldStopAfterFailure, hoperation, hcontinue]

/-- A run whose turns follow the dependencies among `actions`. -/
structure OrderedRun (actions : List PlannedActionV3) (policy : ExecutionPolicy) (world : World)
    (s : ExecutionState) (log : List Turn) : Prop where
  reflects : Reflects policy world s log
  mem : ∀ t ∈ log, t.action ∈ actions
  perm : (log.map fun t => t.action.id).Perm (actions.map PlannedActionV3.id)
  linear : Linear (Kahn.nodes (actionGraph actions))
    (DependsOn PlannedActionV3.id PlannedActionV3.dependsOn actions) (log.map fun t => t.action.id)

theorem OrderedRun.cancelled {actions : List PlannedActionV3} {s : ExecutionState}
    {log : List Turn} (h : OrderedRun actions policy (pureWorld run clock) s log) {t : Turn}
    (ht : t ∈ log) : t.cancelled = false := by
  obtain ⟨before, after, hlog⟩ := List.append_of_mem ht
  rw [(h.reflects.turns before t after hlog).cancelled]
  exact pureWorld_isCancelled _

theorem OrderedRun.called_iff {actions : List PlannedActionV3} {s : ExecutionState}
    {log : List Turn} (h : OrderedRun actions policy (pureWorld run clock) s log)
    (hoperation : policy.operation ≠ .apply) (hcontinue : policy.continueOnError = true)
    {before after : List Turn} {t : Turn} (hlog : log = before ++ t :: after) :
    t.answer.isSome ↔
      ∀ u ∈ before, u.action.id ∈ t.action.dependsOn → blocksDependents u.status = false := by
  have ht : t ∈ log := hlog ▸ List.mem_append_right _ List.mem_cons_self
  have hbefore : ∀ u ∈ before, u.stops policy = false := by
    intro u hu
    exact stops_eq_false hoperation hcontinue (h.cancelled (hlog ▸ List.mem_append_left _ hu))
  rw [(h.reflects.turns before t after hlog).called]
  constructor
  · rintro ⟨-, -, hdeps⟩
    exact hdeps
  · intro hdeps
    exact ⟨h.cancelled ht, hbefore, hdeps⟩

/-- The turn of an action is the same in every run that follows the dependencies. -/
theorem OrderedRun.turn_unique {actions actions' : List PlannedActionV3} {s s' : ExecutionState}
    {log log' : List Turn} (hactions : actions.Perm actions')
    (hnodup : (actions.map PlannedActionV3.id).Nodup) (hoperation : policy.operation ≠ .apply)
    (hcontinue : policy.continueOnError = true)
    (h : OrderedRun actions policy (pureWorld run clock) s log)
    (h' : OrderedRun actions' policy (pureWorld run clock') s' log') :
    ∀ t ∈ log, ∀ t' ∈ log', t'.action.id = t.action.id → t' = t := by
  apply forall_mem_of_before
  intro before t after hlog ih t' ht' hid
  have ht : t ∈ log := hlog ▸ List.mem_append_right _ List.mem_cons_self
  have haction : t'.action = t.action :=
    List.inj_on_of_nodup_map hnodup (hactions.mem_iff.mpr (h'.mem t' ht')) (h.mem t ht) hid
  obtain ⟨before', after', hlog'⟩ := List.append_of_mem ht'
  have hbefore' : ∀ u ∈ before', u ∈ log' := fun u hu => hlog' ▸ List.mem_append_left _ hu
  have hcalled : t'.answer.isSome ↔ t.answer.isSome := by
    rw [h.called_iff hoperation hcontinue hlog, h'.called_iff hoperation hcontinue hlog', haction]
    constructor
    · intro hdeps u hu hdep
      obtain ⟨u', hu', hid'⟩ :=
        exists_turn_of_dependency h'.linear h'.mem hlog' (haction ▸ hdep)
      have hsame := ih u hu u' (hbefore' u' hu') hid'
      rw [← hsame]
      exact hdeps u' hu' (hid' ▸ hdep)
    · intro hdeps u' hu' hdep
      obtain ⟨u, hu, hid'⟩ := exists_turn_of_dependency h.linear h.mem hlog hdep
      have hsame := ih u hu u' (hbefore' u' hu') hid'.symm
      rw [hsame]
      exact hdeps u hu (hid' ▸ hdep)
  have hanswer : t'.answer = t.answer := by
    cases ha' : t'.answer with
    | none =>
      rw [ha'] at hcalled
      exact (Option.not_isSome_iff_eq_none.mp (mt hcalled.mpr (by simp))).symm
    | some answer' =>
      rw [ha'] at hcalled
      obtain ⟨answer, ha⟩ := Option.isSome_iff_exists.mp (hcalled.mp rfl)
      have hrun' := (h'.reflects.turns before' t' after' hlog').answer answer' ha'
      have hrun := (h.reflects.turns before t after hlog).answer answer ha
      rw [ha, hrun', hrun, haction]
      rfl
  obtain ⟨action, cancelled, answer⟩ := t
  obtain ⟨action', cancelled', answer'⟩ := t'
  have hc := h.cancelled ht
  have hc' := h'.cancelled ht'
  simp only at haction hanswer hc hc'
  rw [haction, hanswer, hc, hc']

/-- Two runs over the same actions have the same turns. -/
theorem OrderedRun.log_perm {actions actions' : List PlannedActionV3} {s s' : ExecutionState}
    {log log' : List Turn} (hactions : actions.Perm actions')
    (hnodup : (actions.map PlannedActionV3.id).Nodup) (hoperation : policy.operation ≠ .apply)
    (hcontinue : policy.continueOnError = true)
    (h : OrderedRun actions policy (pureWorld run clock) s log)
    (h' : OrderedRun actions' policy (pureWorld run clock') s' log') : log.Perm log' := by
  have hids : (log.map fun t => t.action.id).Perm (log'.map fun t => t.action.id) :=
    (h.perm.trans (hactions.map _)).trans h'.perm.symm
  have hunique := h.turn_unique hactions hnodup hoperation hcontinue h'
  rw [List.perm_ext_iff_of_nodup h.reflects.nodup.of_map h'.reflects.nodup.of_map]
  intro t
  constructor
  · intro ht
    obtain ⟨t', ht', hid⟩ := List.mem_map.mp (hids.mem_iff.mp (List.mem_map_of_mem ht))
    rw [← hunique t ht t' ht' hid]
    exact ht'
  · intro ht'
    obtain ⟨u, hu, hid⟩ := List.mem_map.mp (hids.mem_iff.mpr (List.mem_map_of_mem ht'))
    rw [hunique u hu t ht' hid.symm]
    exact hu

end Turns

/-! ## Reports -/

/-- A map with different keys is looked up the same in every order. -/
theorem find?_eq_of_perm {α β : Type} [DecidableEq α] {l l' : List (α × β)} (hperm : l.Perm l')
    (hnodup : (l.map Prod.fst).Nodup) (x : α) :
    l.find? (fun entry => entry.1 = x) = l'.find? fun entry => entry.1 = x := by
  have hfind : ∀ {l : List (α × β)}, (l.map Prod.fst).Nodup → ∀ entry,
      l.find? (fun entry => entry.1 = x) = some entry ↔ entry ∈ l ∧ entry.1 = x := by
    intro l hnodup entry
    constructor
    · intro h
      exact ⟨List.mem_of_find?_eq_some h, by simpa using List.find?_some h⟩
    · rintro ⟨hmem, hx⟩
      cases hfound : l.find? fun entry => entry.1 = x with
      | none => exact absurd (decide_eq_true hx) (List.find?_eq_none.mp hfound entry hmem)
      | some found =>
        have hkey : found.1 = x := by simpa using List.find?_some hfound
        rw [List.inj_on_of_nodup_map hnodup (List.mem_of_find?_eq_some hfound) hmem
          (hkey.trans hx.symm)]
  apply Option.ext
  intro entry
  rw [hfind hnodup, hfind ((hperm.map _).nodup_iff.mp hnodup), hperm.mem_iff]

theorem Reflects.outcomeOf_eq {policy : ExecutionPolicy} {world : World} {s : ExecutionState}
    {log : List Turn} (h : Reflects policy world s log) (x : ActionId) :
    s.finish.outcomeOf x = ((log.map fun t => (t.action.id, t.status, t.metadata)).find?
      fun entry => entry.1 = x).map Prod.snd := by
  rw [← h.results, List.find?_map, Option.map_map]
  rfl

/-- A run over distinct actions with known dependencies and no cycle. -/
theorem exists_orderedRun {actions : List PlannedActionV3} (hne : actions ≠ [])
    (hnodup : (actions.map PlannedActionV3.id).Nodup) (hknown : KnownDependencies actions)
    (hacyclic : Acyclic PlannedActionV3.id PlannedActionV3.dependsOn actions)
    (policy : ExecutionPolicy) (world : World) :
    ∃ s log, executeActions actions policy world = some (.ok (s.finish, log)) ∧
      OrderedRun actions policy world s log := by
  obtain ⟨order, horder⟩ := exists_topologicalOrder hne hnodup hknown hacyclic
  obtain ⟨-, -, hperm, hgreedy⟩ := topologicalOrder_ok horder
  obtain ⟨s, log, hrun, hreflects, hlog, hmem⟩ :=
    executeActions_run policy world horder
  refine ⟨s, log, hrun, hreflects, hmem, ?_, ?_⟩
  · rw [hlog]
    exact hperm
  · rw [hlog]
    exact hgreedy.linear

/-- The dependencies do not depend on the order of the actions. -/
theorem dependsOn_perm {actions actions' : List PlannedActionV3} (h : actions.Perm actions') :
    DependsOn PlannedActionV3.id PlannedActionV3.dependsOn actions =
      DependsOn PlannedActionV3.id PlannedActionV3.dependsOn actions' := by
  funext x y
  simp only [Domain.DependsOn, h.mem_iff]

theorem knownDependencies_perm {actions actions' : List PlannedActionV3} (h : actions.Perm actions') :
    KnownDependencies actions ↔ KnownDependencies actions' := by
  simp only [KnownDependencies, h.mem_iff, (h.map PlannedActionV3.id).mem_iff]

/-- Wire order has no execution semantics: a permuted list of distinct, acyclic actions gives the
    same error (when it is empty or names an unknown dependency), or the same outcome for every id
    and the same findings and artifacts up to their order. -/
theorem executeActions_wire_order {actions actions' : List PlannedActionV3}
    (hperm : actions.Perm actions') (hnodup : (actions.map PlannedActionV3.id).Nodup)
    (hacyclic : Acyclic PlannedActionV3.id PlannedActionV3.dependsOn actions)
    {policy : ExecutionPolicy} (hoperation : policy.operation ≠ .apply)
    (hcontinue : policy.continueOnError = true)
    (run : PlannedActionV3 → Except SchedulerError ActionExecution) (clock clock' : ℕ → DateTime) :
    ((actions = [] ∨ ¬ KnownDependencies actions) ∧
      ∃ e, executeActions actions policy (pureWorld run clock) = some (.error e) ∧
        executeActions actions' policy (pureWorld run clock') = some (.error e)) ∨
    ∃ summary log summary' log',
      executeActions actions policy (pureWorld run clock) = some (.ok (summary, log)) ∧
      executeActions actions' policy (pureWorld run clock') = some (.ok (summary', log')) ∧
      (∀ x, summary.outcomeOf x = summary'.outcomeOf x) ∧
      summary.findings.Perm summary'.findings ∧ summary.artifacts.Perm summary'.artifacts := by
  have hnodup' : (actions'.map PlannedActionV3.id).Nodup :=
    (hperm.map PlannedActionV3.id).nodup_iff.mp hnodup
  by_cases hne : actions = []
  · subst hne
    rw [List.nil_perm.mp hperm]
    exact .inl ⟨.inl rfl, _, rfl, rfl⟩
  have hne' : actions' ≠ [] := by
    rintro rfl
    exact hne (List.perm_nil.mp hperm)
  by_cases hknown : KnownDependencies actions
  · have hacyclic' : Acyclic PlannedActionV3.id PlannedActionV3.dependsOn actions' := by
      unfold Acyclic
      rw [← dependsOn_perm hperm]
      exact hacyclic
    obtain ⟨s, log, hrun, h⟩ :=
      exists_orderedRun hne hnodup hknown hacyclic policy (pureWorld run clock)
    obtain ⟨s', log', hrun', h'⟩ := exists_orderedRun hne' hnodup'
      ((knownDependencies_perm hperm).mp hknown) hacyclic' policy (pureWorld run clock')
    have hlog := h.log_perm hperm hnodup hoperation hcontinue h'
    refine .inr ⟨s.finish, log, s'.finish, log', hrun, hrun', ?_, ?_, ?_⟩
    · intro x
      rw [h.reflects.outcomeOf_eq, h'.reflects.outcomeOf_eq, find?_eq_of_perm (hlog.map _)]
      rw [List.map_map]
      exact h.reflects.nodup
    · show s.findings.Perm s'.findings
      rw [h.reflects.findings, h'.reflects.findings]
      exact hlog.flatMap_right _
    · show s.artifacts.Perm s'.artifacts
      rw [h.reflects.artifacts, h'.reflects.artifacts]
      exact hlog.flatMap_right _
  · have hknown' := mt (knownDependencies_perm hperm).mpr hknown
    exact .inl ⟨.inr hknown, incompleteGraph,
      executeActions_error (topologicalOrder_unknown hne hnodup hknown),
      executeActions_error (topologicalOrder_unknown hne' hnodup' hknown')⟩

/-- Two lists of a failing action, one that depends on it and a third. -/
theorem executeActions_wire_order_failed_dependency : ∃ summary log summary' log',
    executeActions [sampleAction 1 [], sampleAction 2 [1], sampleAction 3 []] ⟨.audit, true⟩
      (pureWorld (sampleWorld.run 0) sampleWorld.clock) = some (.ok (summary, log)) ∧
    executeActions [sampleAction 3 [], sampleAction 2 [1], sampleAction 1 []] ⟨.audit, true⟩
      (pureWorld (sampleWorld.run 0) sampleWorld.clock) = some (.ok (summary', log')) ∧
    summary.outcomeOf (sampleActionId 2) = summary'.outcomeOf (sampleActionId 2) := by
  have hedge : ∀ x y, DependsOn PlannedActionV3.id PlannedActionV3.dependsOn
      [sampleAction 1 [], sampleAction 2 [1], sampleAction 3 []] x y →
      x = sampleActionId 2 ∧ y = sampleActionId 1 := by
    rintro x y ⟨action, haction, rfl, hy⟩
    simp only [List.mem_cons, List.not_mem_nil, or_false] at haction
    rcases haction with rfl | rfl | rfl
    · simp [sampleAction] at hy
    · exact ⟨rfl, by simpa [sampleAction] using hy⟩
    · simp [sampleAction] at hy
  have hacyclic : Acyclic PlannedActionV3.id PlannedActionV3.dependsOn
      [sampleAction 1 [], sampleAction 2 [1], sampleAction 3 []] := by
    intro x hcycle
    obtain ⟨y, hxy, -⟩ := Relation.TransGen.head'_iff.mp hcycle
    obtain ⟨z, -, hzx⟩ := Relation.TransGen.tail'_iff.mp hcycle
    have hne : sampleActionId 2 ≠ sampleActionId 1 := by decide
    exact hne ((hedge x y hxy).1.symm.trans (hedge z x hzx).2)
  have hreverse : [sampleAction 1 [], sampleAction 2 [1], sampleAction 3 []].Perm
      [sampleAction 3 [], sampleAction 2 [1], sampleAction 1 []] :=
    List.reverse_perm [sampleAction 3 [], sampleAction 2 [1], sampleAction 1 []]
  have haudit : (⟨.audit, true⟩ : ExecutionPolicy).operation ≠ .apply := by decide
  have h := executeActions_wire_order hreverse (by decide) hacyclic haudit rfl (sampleWorld.run 0)
    sampleWorld.clock sampleWorld.clock
  rcases h with ⟨hbad, -⟩ | ⟨summary, log, summary', log', hrun, hrun', houtcome, -, -⟩
  · exfalso
    rcases hbad with hnil | hunknown
    · cases hnil
    · apply hunknown
      unfold KnownDependencies
      decide
  · exact ⟨summary, log, summary', log', hrun, hrun', houtcome _⟩

end BaselineOps.Engine
