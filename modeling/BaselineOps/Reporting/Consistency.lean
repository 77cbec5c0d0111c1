import BaselineOps.Domain.ValidateResult
import BaselineOps.Evidence.Store
import BaselineOps.Lib.OrderedMap
import BaselineOps.Planner.Derive

/-!
# Consistency of a final result

Model of `validate_result_consistency` (`reporting.rs`, lines 67–125): a final result against the approved
plan and the evidence manifest.

* `validateResultConsistency_ok_iff`: what is accepted; the outcomes are those of the planned actions, up
  to order.
-/

namespace BaselineOps.Engine

open BaselineOps.Domain BaselineOps.Lib Std

/-! ## Ids as keys -/

instance : Ord ActionId := ⟨compareOn fun id => id.uuid.bytes⟩
instance : TransOrd ActionId := inferInstanceAs (TransCmp (compareOn fun id : ActionId => id.uuid.bytes))
instance : LawfulEqOrd ActionId where
  eq_of_compare h := ActionId.ext (congrArg Uuid.mk (Std.compare_eq_iff_eq.mp h))

instance : Ord ArtifactId := ⟨compareOn fun id => id.uuid.bytes⟩
instance : TransOrd ArtifactId :=
  inferInstanceAs (TransCmp (compareOn fun id : ArtifactId => id.uuid.bytes))
instance : LawfulEqOrd ArtifactId where
  eq_of_compare h := ArtifactId.ext (congrArg Uuid.mk (Std.compare_eq_iff_eq.mp h))

/-! ## Model -/

/-- `ReportError` (lines 267–292), as far as these checks raise it. -/
inductive ReportError where
  | domain (error : DomainError)
  | resultPlanMismatch
  | actionSetMismatch
  | artifactMismatch

/-- `matches_plan_identity` (lines 111–125). -/
def matchesPlanIdentity (result : ResultV3) (plan : PlanV3) : Prop :=
  result.planId = plan.id ∧ result.runId = plan.runId ∧ result.profileId = plan.profileId ∧
    result.host = plan.host ∧ result.operation = plan.intent.toOperation

instance (result : ResultV3) (plan : PlanV3) : Decidable (matchesPlanIdentity result plan) :=
  inferInstanceAs (Decidable (_ ∧ _ ∧ _ ∧ _ ∧ _))

/-- An outcome, as these checks compare it. -/
def outcomeKey (action : ActionResultV3) : ActionId × CapabilityId :=
  (action.actionId, action.capability)

/-- A planned action, as they compare it. -/
def plannedKey (action : PlannedActionV3) : ActionId × CapabilityId :=
  (action.id, action.capability)

/-- `validate_result_plan_bindings` (lines 88–109). -/
def validateResultPlanBindings (result : ResultV3) (plan : PlanV3) : Except ReportError Unit := do
  failIf (¬ matchesPlanIdentity result plan) .resultPlanMismatch
  let planned := TreeMap.ofList (plan.actions.map plannedKey)
  failIf (result.actions.length ≠ planned.size) .actionSetMismatch
  result.actions.forM fun action =>
    failIf (planned[action.actionId]? ≠ some action.capability) .actionSetMismatch

/-- `validate_result_consistency` (lines 67–86). -/
def validateResultConsistency (d : Deps) (result : ResultV3) (approvedPlan : VerifiedPlan d)
    (evidence : EvidenceManifest) : Except ReportError Unit := do
  (result.validate d).mapError .domain
  validateResultPlanBindings result approvedPlan.plan
  let retained := TreeMap.ofList (evidence.artifacts.map fun artifact => (artifact.id, artifact))
  result.artifacts.forM fun artifact =>
    failIf (retained[artifact.id]? ≠ some artifact) .artifactMismatch

/-! ## What is accepted -/

/-- As many outcomes as actions, each of them planned and no id twice: these are the planned actions. -/
theorem validateResultPlanBindings_ok_iff {result : ResultV3} {plan : PlanV3}
    (hresult : (result.actions.map ActionResultV3.actionId).Nodup)
    (hplan : (plan.actions.map PlannedActionV3.id).Nodup) :
    validateResultPlanBindings result plan = .ok () ↔ matchesPlanIdentity result plan ∧
      (result.actions.map outcomeKey).Perm (plan.actions.map plannedKey) := by
  have hkeys : ((plan.actions.map plannedKey).map Prod.fst).Nodup := by
    rwa [List.map_map]
  have hsize : (TreeMap.ofList (plan.actions.map plannedKey)).size = plan.actions.length := by
    rw [OrderedMap.size_eq_card, OrderedMap.keySet_ofList hkeys, List.toFinset_card_of_nodup hkeys,
      List.length_map, List.length_map]
  have hfound : ∀ action : ActionResultV3,
      (TreeMap.ofList (plan.actions.map plannedKey))[action.actionId]? =
        some action.capability ↔ outcomeKey action ∈ plan.actions.map plannedKey :=
    fun action => OrderedMap.getElem?_ofList_iff hkeys
  unfold validateResultPlanBindings
  simp only [except_bind_ok_iff, except_forM_ok_iff, failIf_ok_iff, not_not, hsize, hfound,
    exists_and_left, exists_const]
  refine and_congr_right fun _ => ?_
  constructor
  · rintro ⟨hlength, hmem⟩
    have hnodup : (result.actions.map outcomeKey).Nodup := by
      refine List.Nodup.of_map Prod.fst ?_
      rwa [List.map_map]
    have hsub : (result.actions.map outcomeKey).Subperm (plan.actions.map plannedKey) := by
      refine List.subperm_of_subset hnodup fun key hkey => ?_
      obtain ⟨action, haction, rfl⟩ := List.mem_map.mp hkey
      exact hmem action haction
    refine hsub.perm_of_length_le ?_
    rw [List.length_map, List.length_map, hlength]
  · intro hperm
    refine ⟨?_, fun action haction => hperm.subset (List.mem_map_of_mem haction)⟩
    simpa using hperm.length_eq

/-- A final result is accepted if and only if it is valid, it has the identity of the approved plan, its
    outcomes are those of the planned actions up to order, and the manifest lists its artifacts. -/
theorem validateResultConsistency_ok_iff (d : Deps) (result : ResultV3) (approvedPlan : VerifiedPlan d)
    (evidence : EvidenceManifest) (hevidence : (evidence.artifacts.map ArtifactV3.id).Nodup) :
    validateResultConsistency d result approvedPlan evidence = .ok () ↔
      result.validate d = .ok () ∧ result.planId = approvedPlan.plan.id ∧
        result.runId = approvedPlan.plan.runId ∧ result.profileId = approvedPlan.plan.profileId ∧
        result.host = approvedPlan.plan.host ∧
        result.operation = approvedPlan.plan.intent.toOperation ∧
        (result.actions.map fun action => (action.actionId, action.capability)).Perm
          (approvedPlan.plan.actions.map fun action => (action.id, action.capability)) ∧
        ∀ artifact ∈ result.artifacts, artifact ∈ evidence.artifacts := by
  have hids : ((evidence.artifacts.map fun artifact => (artifact.id, artifact)).map Prod.fst).Nodup := by
    rwa [List.map_map]
  have hretained : ∀ artifact : ArtifactV3,
      (TreeMap.ofList (evidence.artifacts.map fun artifact => (artifact.id, artifact)))[artifact.id]? =
        some artifact ↔ artifact ∈ evidence.artifacts := by
    intro artifact
    rw [OrderedMap.getElem?_ofList_iff hids, List.mem_map]
    constructor
    · rintro ⟨listed, hlisted, heq⟩
      obtain rfl := (Prod.mk.inj heq).2
      exact hlisted
    · intro hlisted
      exact ⟨artifact, hlisted, rfl⟩
  unfold validateResultConsistency
  rw [except_bind_ok_iff]
  simp only [except_mapError_ok_iff, except_bind_ok_iff, except_forM_ok_iff, failIf_ok_iff, not_not,
    hretained]
  constructor
  · rintro ⟨_, hvalid, _, hbindings, hartifacts⟩
    obtain ⟨hidentity, hperm⟩ := (validateResultPlanBindings_ok_iff (ResultV3.actionIds_nodup hvalid)
      approvedPlan.actionIds_nodup).mp hbindings
    obtain ⟨hplan, hrun, hprofile, hhost, hoperation⟩ := hidentity
    exact ⟨hvalid, hplan, hrun, hprofile, hhost, hoperation, hperm, hartifacts⟩
  · rintro ⟨hvalid, hplan, hrun, hprofile, hhost, hoperation, hperm, hartifacts⟩
    exact ⟨(), hvalid, (), (validateResultPlanBindings_ok_iff (ResultV3.actionIds_nodup hvalid)
      approvedPlan.actionIds_nodup).mpr ⟨⟨hplan, hrun, hprofile, hhost, hoperation⟩, hperm⟩, hartifacts⟩

/-! ## A sample -/

/-- The sample plan, verified against its own bindings. -/
def sampleVerifiedPlan : VerifiedPlan referenceDeps where
  plan := samplePlan referenceDeps
  verified := by
    refine ⟨⟨⟨0, 0, by decide, by decide⟩, .apply, sampleHost referenceDeps,
      (samplePlan referenceDeps).tool, (samplePlan referenceDeps).packageDigest,
      (samplePlan referenceDeps).source, (samplePlan referenceDeps).input,
      (samplePlan referenceDeps).observedState.digest⟩, ⟨[sampleActionId 1, sampleActionId 2]⟩, ?_⟩
    unfold PlanV3.validateAgainst PlanV3.validateAt validateContextHostAndTool validateContextBindings
      validateEqual
    simp only [panicking_bind_ok_iff, fromExcept_ok_iff, except_bind_ok_iff, refuseIf_ok_iff]
    exact ⟨_, ⟨_, samplePlan_validate, (), fun h => h (by decide), rfl⟩, (), fun h => h rfl, (),
      ⟨(), sampleHost_validate referenceDeps, (), fun h => h rfl, fun h => h rfl⟩, (),
      ⟨(), fun h => h rfl, (), fun h => h rfl, (), fun h => h rfl, fun h => h rfl⟩, rfl⟩

/-- The outcome of a sample action. -/
def sampleOutcome (id : UInt8) : ActionResultV3 where
  actionId := sampleActionId id
  capability := ⟨"v3.doh.audit", sampleCapability_valid⟩
  status := .succeeded
  startedAt := ⟨0, 0, sampleInstant_ge, sampleInstant_le⟩
  completedAt := ⟨0, 0, sampleInstant_ge, sampleInstant_le⟩
  metadata := JsonMap.empty

/-- A result of the sample plan, with the outcomes in another order than the actions. -/
def sampleResult : ResultV3 where
  schemaVersion := .v3
  id := ⟨⟨Vector.replicate 16 0⟩⟩
  runId := (samplePlan referenceDeps).runId
  planId := (samplePlan referenceDeps).id
  profileId := (samplePlan referenceDeps).profileId
  capabilityId := none
  operation := .apply
  host := sampleHost referenceDeps
  status := .completed
  startedAt := ⟨0, 0, sampleInstant_ge, sampleInstant_le⟩
  completedAt := ⟨0, 0, sampleInstant_ge, sampleInstant_le⟩
  actions := [sampleOutcome 2, sampleOutcome 1]
  findings := []
  summary := "done"
  artifacts := []
  metadata := JsonMap.empty

theorem sampleResult_validate : sampleResult.validate referenceDeps = .ok () := by
  unfold ResultV3.validate validateResultHeader
  simp only [except_bind_ok_iff, refuseIf_ok_iff]
  exact ⟨(), ⟨(), by decide, (), sampleHost_validate referenceDeps, (), rfl, rfl⟩, (), rfl, (), rfl, rfl⟩

theorem validateResultConsistency_sample :
    validateResultConsistency referenceDeps sampleResult sampleVerifiedPlan EvidenceManifest.empty =
      .ok () :=
  (validateResultConsistency_ok_iff referenceDeps sampleResult sampleVerifiedPlan
    EvidenceManifest.empty List.nodup_nil).mpr
    ⟨sampleResult_validate, rfl, rfl, rfl, rfl, rfl, List.Perm.swap _ _ _, fun _ h => nomatch h⟩

end BaselineOps.Engine
