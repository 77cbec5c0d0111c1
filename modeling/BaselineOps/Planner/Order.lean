import Mathlib
import BaselineOps.Planner.Derive
import BaselineOps.Scheduler.Execute

/-!
# The reviewed order

A plan that `build_plan` returns lists its actions in the topological order of the profile. Sorting
the actions again, once by the validation of plans and once by the scheduler, returns the list as it
is, so the actions are executed in the order that was shown for approval.
-/

namespace BaselineOps.Engine

open BaselineOps.Domain BaselineOps.Lib

/-! ## The actions of the steps -/

/-- The actions are derived from the steps in the order of their ids. -/
theorem deriveActions_ok {profile : ProfileV3} {context : PlanBuildContext}
    {deriver : TrustedActionDeriver} (hnodup : (profile.steps.map ProfileStepV3.stepId).Nodup)
    {steps : List ProfileStepV3} (hsteps : ∀ step ∈ steps, step ∈ profile.steps)
    {actions : List PlannedActionV3}
    (h : deriveActions profile (PlanningIndex.fromValidated profile)
      (steps.map ProfileStepV3.stepId) context deriver = .ok actions) :
    List.Forall₂ (fun step action =>
      ∃ n, deriver n step context.intent context.observedState = .ok action) steps actions := by
  unfold deriveActions at h
  rw [except_mapM_ok_iff] at h
  generalize 0 = n at h
  induction steps generalizing n actions with
  | nil =>
    rw [List.map_nil, List.zipIdx_nil, List.forall₂_nil_left_iff] at h
    rw [h]
    exact List.Forall₂.nil
  | cons step steps ih =>
    rw [List.map_cons, List.zipIdx_cons, List.forall₂_cons_left_iff] at h
    obtain ⟨action, rest, haction, hrest, rfl⟩ := h
    have hderive := deriveAction_ok hnodup (hsteps step List.mem_cons_self) haction
    have htail := ih (fun s hs => hsteps s (List.mem_cons_of_mem step hs)) (n + 1) hrest
    exact List.Forall₂.cons ⟨n, hderive⟩ htail

/-- The ids of derived actions are those of their steps. -/
theorem map_id_of_derives {steps : List ProfileStepV3} {actions : List PlannedActionV3}
    (h : List.Forall₂ Derives steps actions) :
    actions.map PlannedActionV3.id = steps.map ProfileStepV3.stepId := by
  induction h with
  | nil => rfl
  | cons hderives _ ih => rw [List.map_cons, List.map_cons, hderives.id, ih]

/-- Actions that are derived in a topological order of the steps are listed in order. -/
theorem listedInOrder_of_derives {profileSteps steps : List ProfileStepV3}
    {actions : List PlannedActionV3} (h : List.Forall₂ Derives steps actions)
    (hsteps : ∀ step ∈ steps, step ∈ profileSteps)
    (horder : IsTopologicalOrder ProfileStepV3.stepId ProfileStepV3.dependsOn profileSteps
      (steps.map ProfileStepV3.stepId)) :
    ListedInOrder PlannedActionV3.id PlannedActionV3.dependsOn actions := by
  intro before action after hactions y hy
  rw [hactions] at h
  have hleft := List.forall₂_take_append steps before (action :: after) h
  have hright := List.forall₂_drop_append steps before (action :: after) h
  obtain ⟨step, rest, hderives, -, hdrop⟩ := List.forall₂_cons_right_iff.mp hright
  have hsplit : steps = steps.take before.length ++ step :: rest := by
    rw [← hdrop, List.take_append_drop]
  rw [map_id_of_derives hleft]
  refine horder.deps _ step.stepId (rest.map ProfileStepV3.stepId) ?_ y ?_
  · rw [← List.map_cons, ← List.map_append, ← hsplit]
  · exact ⟨step, hsteps step (by rw [hsplit]; simp), rfl, hderives.dependsOn ▸ hy⟩

/-- Lists of actions with different ids are equal when their ids are. -/
theorem eq_of_map_id_eq {actions listed : List PlannedActionV3}
    (hnodup : (actions.map PlannedActionV3.id).Nodup) (hmem : ∀ action ∈ listed, action ∈ actions)
    (h : listed.map PlannedActionV3.id = actions.map PlannedActionV3.id) : listed = actions := by
  have hlen : listed.length = actions.length := by
    have := congrArg List.length h
    rwa [List.length_map, List.length_map] at this
  apply List.ext_getElem hlen
  intro i hi hi'
  apply List.inj_on_of_nodup_map hnodup (hmem _ (List.getElem_mem hi)) (List.getElem_mem hi')
  have hget : (listed.map PlannedActionV3.id)[i]? = (actions.map PlannedActionV3.id)[i]? := by rw [h]
  rw [List.getElem?_map, List.getElem?_map, List.getElem?_eq_getElem hi,
    List.getElem?_eq_getElem hi'] at hget
  exact Option.some.inj hget

/-! ## The order -/

/-- The executed order is the reviewed order: the actions of a plan correspond one to one to the
    steps of the profile, in the order its validation returned, each with one observation; both sorts
    of these actions return them as listed, and every run executes them so. -/
theorem buildPlan_reviewed_order {d : Deps} {registry : Registry} {planId : PlanId} {runId : RunId}
    {profile : ProfileV3} {context : PlanBuildContext} {now : DateTime} {worker : WorkerPlan}
    (h : buildPlan d planId runId profile context (registryActionDeriver d registry) now =
      some (.ok worker)) :
    ∃ v, profile.validate = some (.ok v) ∧
      (∃ steps, steps.Perm profile.steps ∧ List.Forall₂ Derives steps worker.plan.actions) ∧
      worker.plan.actions.map PlannedActionV3.id = v.topologicalOrder.ids ∧
      (worker.plan.observedState.values.entries.map Prod.fst).Perm
        (profile.steps.map ProfileStepV3.stepId) ∧
      (∀ action ∈ worker.plan.actions, ∃ observed,
        worker.plan.observedState.values.get action.sourceStep = some observed ∧
        observed.capability = action.capability ∧
        observed.parametersDigest = canonicalJsonDigest d (.object action.parameters.entries)) ∧
      worker.plan.validateStructure d =
        some (.ok ⟨worker.plan.actions.map PlannedActionV3.id⟩) ∧
      topologicalOrder worker.plan.actions =
        some (.ok (worker.plan.actions.map PlannedActionV3.id)) ∧
      ∀ policy world, ∃ summary log,
        executeActions worker.plan.actions policy world = some (.ok (summary, log)) ∧
        log.map Turn.action = worker.plan.actions ∧
        summary.actions.map ActionResultV3.actionId =
          worker.plan.actions.map PlannedActionV3.id := by
  obtain ⟨order, expiresAt, actions, listed, hinputs, hactions, hplan, hstructure, -⟩ := buildPlan_ok h
  obtain ⟨⟨v, hvalid, rfl⟩, -⟩ := validateBuildInputs_ok hinputs
  have hgraph := ProfileV3.validate_ok hvalid
  obtain ⟨hwf, -⟩ := validateDependencyGraph_ok hgraph
  obtain ⟨horder, -⟩ := isTopologicalOrder_of_ok hgraph
  obtain ⟨steps, hsteps, hperm⟩ := exists_ordered horder.perm
  have hmem : ∀ step ∈ steps, step ∈ profile.steps := fun _ hstep => hperm.subset hstep
  rw [hsteps] at hactions horder
  have hderives : List.Forall₂ Derives steps actions :=
    (deriveActions_ok hwf.nodup hmem hactions).imp fun step action ⟨_, hderive⟩ =>
      registryActionDeriver_ok hderive
  have hids := map_id_of_derives hderives
  have hlisted := listedInOrder_of_derives hderives hmem horder
  have hplanActions : worker.plan.actions = actions := by rw [hplan, proposedPlan]
  rw [hplanActions]
  -- the plan itself is a valid graph, listed in order
  have hplanValid := PlanV3.validateStructure_ok hstructure
  have hsorted := hplanValid.sorted
  rw [hplanActions] at hsorted
  obtain ⟨hwfActions, -⟩ := validateDependencyGraph_ok hsorted
  have hlistedIds := ids_eq_of_listedInOrder hsorted hlisted
  have htop := topologicalOrder_of_listedInOrder hwfActions.nonempty hwfActions.nodup
    hwfActions.known hlisted
  refine ⟨v, hvalid, ⟨steps, hperm, hderives⟩, hids.trans hsteps.symm, ?_, ?_, ?_, htop, ?_⟩
  · have hsource : actions.map PlannedActionV3.sourceStep = steps.map ProfileStepV3.stepId := by
      clear * - hderives
      induction hderives with
      | nil => rfl
      | cons hstep _ ih => rw [List.map_cons, List.map_cons, hstep.sourceStep, ih]
    have hobservations := hplanValid.observations_perm
    rw [hplanActions, hsource] at hobservations
    exact hobservations.trans (hperm.map _)
  · intro action haction
    obtain ⟨observed, hget, -, hcapability, hparameters⟩ :=
      hplanValid.bound action (hplanActions ▸ haction)
    exact ⟨observed, hget, hcapability, hparameters⟩
  · rw [hstructure, ← hlistedIds]
  · intro policy world
    obtain ⟨s, log, hrun, hreflects, hlog, hlogMem⟩ := executeActions_run policy world htop
    refine ⟨s.finish, log, hrun, ?_, ?_⟩
    · apply eq_of_map_id_eq hwfActions.nodup
      · intro action haction
        obtain ⟨t, ht, rfl⟩ := List.mem_map.mp haction
        exact hlogMem t ht
      · rw [List.map_map]
        exact hlog
    · have hresults := congrArg (List.map Prod.fst) hreflects.results
      rw [List.map_map, List.map_map] at hresults
      rw [← hlog]
      exact hresults

theorem buildPlan_reviewed_order_sample : ∃ worker,
    buildPlan referenceDeps ⟨⟨Vector.replicate 16 0⟩⟩ ⟨⟨Vector.replicate 16 1⟩⟩ sampleProfile
      (sampleContext referenceDeps) (registryActionDeriver referenceDeps sampleRegistry)
      ⟨0, 0, by decide, by decide⟩ = some (.ok worker) ∧
    sampleProfile.steps.map ProfileStepV3.stepId = [sampleActionId 2, sampleActionId 1] ∧
    topologicalOrder worker.plan.actions = some (.ok [sampleActionId 1, sampleActionId 2]) := by
  refine ⟨_, sample_buildPlan, rfl, ?_⟩
  obtain ⟨_, _, _, _, _, _, _, htop, _⟩ := buildPlan_reviewed_order sample_buildPlan
  exact htop

end BaselineOps.Engine
