import Mathlib
import BaselineOps.Domain.Reference
import BaselineOps.Planner.Build

/-!
# The registry deriver

Model of `baselineops-engine/src/registry_deriver.rs`, with the part of
`baselineops-capabilities/src/{types,registry,semantic_plan}.rs` that it uses. The catalog and the
planners of the single capabilities are the fields of `Registry`; nothing is assumed of them.
-/

namespace BaselineOps.Engine

open BaselineOps.Domain BaselineOps.Lib

/-! ## The registry -/

/-- `Operation` (`types.rs`, lines 6–13). -/
inductive RegistryOperation where
  | audit | plan | apply
  deriving DecidableEq

/-- `{:?}` of an operation. -/
def RegistryOperation.debug : RegistryOperation → String
  | .audit => "Audit"
  | .plan => "Plan"
  | .apply => "Apply"

/-- `Operations` (lines 17–24). -/
structure Operations where
  audit : Bool
  plan : Bool
  apply : Bool

/-- `Privilege` (lines 41–48). -/
inductive RegistryPrivilege where
  | standardUser | elevatedForApply | administratorRequired
  deriving DecidableEq

/-- `Risk` (lines 53–62). -/
inductive RegistryRisk where
  | low | medium | high | critical

/-- `Reboot` (lines 81–88). -/
inductive RegistryReboot where
  | no | possible | required

/-- `ImplementationMaturity` (lines 93–103). -/
inductive ImplementationMaturity where
  | legacyOnly | inDevelopment | codeComplete | implemented
  deriving DecidableEq

/-- `ApplyEligibility` (lines 112–119). -/
inductive ApplyEligibility where
  | notApplicable | evidenceRequired | enabled

/-- The `snake_case` names of `ApplyEligibility`. -/
def ApplyEligibility.name : ApplyEligibility → String
  | .notApplicable => "not_applicable"
  | .evidenceRequired => "evidence_required"
  | .enabled => "enabled"

/-- `CapabilityDescriptor` (lines 263–298), as far as the deriver reads it. -/
structure CapabilityDescriptor where
  legacyNumber : ℕ
  id : String
  operations : Operations
  privilege : RegistryPrivilege
  risk : RegistryRisk
  reboot : RegistryReboot
  maturity : ImplementationMaturity
  applyEligibility : ApplyEligibility

/-- `SemanticPlan` (`semantic_plan.rs`, lines 13–51). The proposals of the capabilities are one
    variant: its tag, its content and whether its list of changes is non-empty. -/
inductive SemanticPlan where
  | observation (result : Value) (reason : String)
  | proposal (kind : String) (content : Value) (changes : Bool)

/-- `proposes_changes` (lines 56–61). -/
def SemanticPlan.proposesChanges : SemanticPlan → Bool
  | .observation _ _ => false
  | .proposal _ _ changes => changes

/-- `serde_json::to_value` of a proposal, tagged by `kind` and `proposal`. -/
def SemanticPlan.toValue : SemanticPlan → Value
  | .observation result reason => .object [("kind", .string "observation"),
      ("proposal", .object [("reason", .string reason), ("result", result)])]
  | .proposal kind content _ => .object [("kind", .string kind), ("proposal", content)]

/-- The catalog (`CAPABILITIES`) and the planners of the capabilities (`PLANNERS`). -/
structure Registry where
  capabilities : List CapabilityDescriptor
  planners : List (String × (Value → Value → Except String SemanticPlan))

/-- `lookup` (`registry.rs`, lines 66–68). -/
def Registry.lookup (registry : Registry) (id : String) : Option CapabilityDescriptor :=
  registry.capabilities.find? fun descriptor => descriptor.id == id

/-- `require_observation` (`semantic_plan.rs`, lines 121–126). -/
def requireObservation : Value → Except String Unit
  | .object (_ :: _) => .ok ()
  | _ => .error "native observation must be a nonempty object"

/-- The reason of a plan that observes only (lines 112–116). -/
def observationReason (legacyNumber : ℕ) : String :=
  if legacyNumber ∈ [2, 3, 13, 33, 39, 40] then
    "This capability currently provides observation only; native remediation is not implemented."
  else "This capability is read-only; no endpoint change is proposed."

/-- `plan_observed` (lines 100–119). -/
def Registry.planObserved (registry : Registry) (id : String) (parameters observed : Value) :
    Except String SemanticPlan :=
  match registry.lookup id with
  | none => .error ("unknown capability " ++ id)
  | some descriptor => do
    requireObservation observed
    match registry.planners.find? fun entry => entry.1 == id with
    | some entry => entry.2 parameters observed
    | none => return .observation observed (observationReason descriptor.legacyNumber)

/-! ## Domain mappings -/

/-- `registry_operation` (lines 169–177). -/
def registryOperation : ExecutionIntent → RegistryOperation
  | .audit => .audit
  | .plan | .apply => .plan

/-- `domain_privilege` (lines 179–187). -/
def domainPrivilege (value : RegistryPrivilege) (intent : ExecutionIntent) : Privilege :=
  match value with
  | .elevatedForApply => if intent = .apply then .administrator else .user
  | .standardUser => .user
  | .administratorRequired => .administrator

/-- `domain_risk` (lines 189–196). -/
def domainRisk : RegistryRisk → RiskLevel
  | .low => .low
  | .medium => .moderate
  | .high => .high
  | .critical => .critical

/-- `domain_reboot` (lines 209–215). -/
def domainReboot : RegistryReboot → RebootRequirement
  | .no => .notRequired
  | .possible => .recommended
  | .required => .required

/-! ## The deriver -/

/-- `BTreeMap::get`. -/
def jsonMapGet (map : JsonMap) (key : String) : Option Value :=
  (map.entries.find? fun entry => entry.1 = key).map Prod.snd

/-- `supported_descriptor` (lines 46–69). -/
def supportedDescriptor (registry : Registry) (step : ProfileStepV3) (intent : ExecutionIntent) :
    Except String CapabilityDescriptor :=
  match registry.lookup step.capabilityId.asStr with
  | none => .error ("unknown capability " ++ step.capabilityId.asStr)
  | some descriptor => do
    failIf (descriptor.operations.audit = false) ("capability " ++ descriptor.id ++
      " does not support " ++ (registryOperation intent).debug)
    failIf (¬ (descriptor.maturity = .codeComplete ∨ descriptor.maturity = .implemented))
      ("capability " ++ descriptor.id ++ " has no code-complete native planner")
    return descriptor

/-- `proposal_privilege` (lines 118–128). -/
def proposalPrivilege (registry : RegistryPrivilege) (changes : Bool) (intent : ExecutionIntent) :
    Privilege :=
  if changes ∧ intent = .apply then .administrator else domainPrivilege registry .audit

/-- `proposal_metadata` (lines 130–150). -/
def proposalMetadata (facts : JsonMap) (semantic : SemanticPlan) (descriptor : CapabilityDescriptor) :
    JsonMap where
  entries := [("apply_eligibility", .string descriptor.applyEligibility.name),
    ("pre_state", .object facts.entries), ("semantic_plan", semantic.toValue)]
  sorted := (List.pairwise_map (f := Prod.fst)).mp
    (show ["apply_eligibility", "pre_state", "semantic_plan"].Pairwise (· < ·) by decide +kernel)

/-- `preconditions` (lines 152–167). -/
def preconditions (step : ProfileStepV3) (digest : Sha256Digest) (privilege : Privilege) :
    List PreconditionV3 :=
  [.capabilityAvailable step.capabilityId, .observedStateDigest digest] ++
    if privilege = .administrator then [.elevation true] else []

/-- `planned_action` (lines 71–116). -/
def plannedAction (registry : Registry) (step : ProfileStepV3) (intent : ExecutionIntent)
    (observedState : ObservedStateV3) (facts : JsonMap) (descriptor : CapabilityDescriptor) :
    Except String PlannedActionV3 :=
  match jsonMapGet facts "native_result" with
  | none => .error "captured native result is absent"
  | some native => do
    let semantic ← registry.planObserved descriptor.id (.object step.parameters.entries) native
    let changes := semantic.proposesChanges
    let privilege := proposalPrivilege descriptor.privilege changes intent
    return {
      id := step.stepId
      sourceStep := step.stepId
      capability := step.capabilityId
      operation := intent.toOperation
      parameters := step.parameters
      dependsOn := step.dependsOn
      continueOnError := step.continueOnError
      factsDigest := observedState.digest
      preconditions := preconditions step observedState.digest privilege
      risk := domainRisk descriptor.risk
      reversibility := if changes then .irreversible else .notApplicable
      reboot := if changes then domainReboot descriptor.reboot else .notRequired
      privileges := [privilege]
      metadata := proposalMetadata facts semantic descriptor }

/-- `RegistryActionDeriver::derive` (lines 20–43). It has no state, so all its calls agree. -/
def registryActionDeriver (d : Deps) (registry : Registry) : TrustedActionDeriver :=
  fun _ step intent observedState => do
    let descriptor ← supportedDescriptor registry step intent
    match observedState.values.get step.stepId with
    | none => .error ("trusted observation is absent for capability " ++ descriptor.id)
    | some observed =>
      failIf (observed.capability ≠ step.capabilityId ∨
          observed.parametersDigest ≠ canonicalJsonDigest d (.object step.parameters.entries))
        "observation does not match the profile step capability and parameters"
      plannedAction registry step intent observedState observed.facts descriptor

/-! ## What is derived -/

/-- The action of a step: what the deriver copies from it. -/
structure Derives (step : ProfileStepV3) (action : PlannedActionV3) : Prop where
  id : action.id = step.stepId
  sourceStep : action.sourceStep = step.stepId
  capability : action.capability = step.capabilityId
  parameters : action.parameters = step.parameters
  dependsOn : action.dependsOn = step.dependsOn
  continueOnError : action.continueOnError = step.continueOnError

theorem registryActionDeriver_ok {d : Deps} {registry : Registry} {n : ℕ} {step : ProfileStepV3}
    {intent : ExecutionIntent} {observedState : ObservedStateV3} {action : PlannedActionV3}
    (h : registryActionDeriver d registry n step intent observedState = .ok action) :
    Derives step action := by
  unfold registryActionDeriver at h
  obtain ⟨descriptor, -, h⟩ := except_bind_ok_iff.mp h
  split at h
  · cases h
  · obtain ⟨_, -, h⟩ := except_bind_ok_iff.mp h
    unfold plannedAction at h
    split at h
    · cases h
    · obtain ⟨semantic, -, h⟩ := except_bind_ok_iff.mp h
      rw [← Except.ok.inj h]
      exact ⟨rfl, rfl, rfl, rfl, rfl, rfl⟩

/-! ## A sample -/

/-- The catalog entry of `v3.doh.audit` (`catalog.rs`, line 101), which has no planner. -/
def sampleRegistry : Registry where
  capabilities := [⟨52, "v3.doh.audit", ⟨true, true, false⟩, .standardUser, .low, .no, .codeComplete,
    .evidenceRequired⟩]
  planners := []

theorem sampleCapability_valid : capabilityIdValid "v3.doh.audit" = true := by decide +kernel

/-- A step of the sample profile. -/
def sampleStep (id : UInt8) (dependsOn : List UInt8) : ProfileStepV3 where
  stepId := sampleActionId id
  capabilityId := ⟨"v3.doh.audit", sampleCapability_valid⟩
  parameters := JsonMap.empty
  dependsOn := dependsOn.map sampleActionId
  continueOnError := false

theorem sampleInstant_ge : (-8334601228800 : ℤ) ≤ 0 := by decide

theorem sampleInstant_le : (0 : ℤ) ≤ 8210266876799 := by decide

/-- A profile of two steps, of which the first depends on the second. -/
def sampleProfile : ProfileV3 where
  schemaVersion := .v3
  id := ⟨⟨Vector.replicate 16 0⟩⟩
  name := "baseline"
  version := "1"
  description := none
  createdAt := ⟨0, 0, sampleInstant_ge, sampleInstant_le⟩
  expiresAt := none
  defaults := ⟨false⟩
  steps := [sampleStep 2 [1], sampleStep 1 []]
  metadata := JsonMap.empty

/-- A host. -/
def sampleHost (d : Deps) : HostIdentityV3 :=
  let host : HostIdentityV3 :=
    ⟨"host", "boot", "session", "name", .windows, "10", "x86_64", ⟨Vector.replicate 32 0⟩⟩
  { host with fingerprint := host.calculatedFingerprint d }

/-- The observation of a step of the sample profile. -/
def sampleObserved (d : Deps) : ObservedValueV3 where
  capability := ⟨"v3.doh.audit", sampleCapability_valid⟩
  parametersDigest := canonicalJsonDigest d (.object [])
  observedAt := ⟨0, 0, sampleInstant_ge, sampleInstant_le⟩
  facts := ⟨[("native_result", .object [("observed", .bool true)])], by decide +kernel⟩

/-- The state that was observed for the sample profile. -/
def sampleObservedState (d : Deps) : ObservedStateV3 :=
  let state : ObservedStateV3 := ⟨⟨0, 0, sampleInstant_ge, sampleInstant_le⟩, ⟨Vector.replicate 32 0⟩,
    ⟨[(sampleActionId 1, sampleObserved d), (sampleActionId 2, sampleObserved d)],
    (List.pairwise_map (f := Prod.fst) (R := ActionId.Lt)).mp
      (show [sampleActionId 1, sampleActionId 2].Pairwise ActionId.Lt by decide +kernel)⟩⟩
  { state with digest := state.calculatedDigest d }

/-- The context of a proposal for the sample profile. -/
def sampleContext (d : Deps) : PlanBuildContext where
  intent := .apply
  host := sampleHost d
  tool := ⟨"baselineops", "3.0.0", none⟩
  packageDigest := ⟨Vector.replicate 32 1⟩
  source := ⟨.bundled, "profiles/baseline.json", ⟨Vector.replicate 32 2⟩⟩
  input := ⟨⟨Vector.replicate 32 3⟩, 512⟩
  resources := []
  observedState := sampleObservedState d
  lifetime := Duration.hours 1

/-- The action that the registry derives for a step of the sample profile. -/
def samplePlanned (d : Deps) (id : UInt8) (dependsOn : List UInt8) : PlannedActionV3 where
  id := sampleActionId id
  sourceStep := sampleActionId id
  capability := ⟨"v3.doh.audit", sampleCapability_valid⟩
  operation := .apply
  parameters := JsonMap.empty
  dependsOn := dependsOn.map sampleActionId
  continueOnError := false
  factsDigest := (sampleObservedState d).digest
  preconditions := preconditions (sampleStep id dependsOn) (sampleObservedState d).digest .user
  risk := .low
  reversibility := .notApplicable
  reboot := .notRequired
  privileges := [.user]
  metadata := proposalMetadata (sampleObserved d).facts
    (.observation (.object [("observed", .bool true)]) (observationReason 52))
    ⟨52, "v3.doh.audit", ⟨true, true, false⟩, .standardUser, .low, .no, .codeComplete,
      .evidenceRequired⟩

theorem sample_derive (d : Deps) (n : ℕ) {id : UInt8} (dependsOn : List UInt8)
    (hget : (sampleObservedState d).values.get (sampleActionId id) = some (sampleObserved d)) :
    registryActionDeriver d sampleRegistry n (sampleStep id dependsOn) .apply
      (sampleObservedState d) = .ok (samplePlanned d id dependsOn) := by
  have hstep : (sampleStep id dependsOn).stepId = sampleActionId id := rfl
  unfold registryActionDeriver
  rw [except_bind_ok_iff]
  refine ⟨_, rfl, ?_⟩
  rw [hstep, hget]
  dsimp only
  rw [except_bind_ok_iff]
  refine ⟨(), failIf_ok_iff.mpr ?_, ?_⟩
  · rintro (h | h)
    · exact h rfl
    · exact h rfl
  · rfl

theorem sampleHost_validate (d : Deps) : (sampleHost d).validate d = .ok () := by
  unfold HostIdentityV3.validate
  simp only [except_bind_ok_iff, refuseIf_ok_iff]
  dsimp only [sampleHost]
  exact ⟨(), rfl, (), rfl, (), rfl, (), rfl, (), rfl, (), rfl, fun h => h rfl⟩

theorem sampleObservedState_validate (d : Deps) : (sampleObservedState d).validate d = .ok () := by
  unfold ObservedStateV3.validate
  simp only [except_bind_ok_iff, refuseIf_ok_iff]
  refine ⟨(), by simp [sampleObservedState], (), ?_, fun h => h rfl⟩
  rw [except_forM_ok_iff]
  have hentry : ∀ entry ∈ (sampleObservedState d).values.entries, entry.2 = sampleObserved d := by
    simp [sampleObservedState]
  intro entry hmem
  rw [hentry entry hmem, except_bind_ok_iff]
  dsimp only [sampleObserved]
  exact ⟨(), rfl, rfl⟩

/-- A proposal for the sample profile. -/
def samplePlan (d : Deps) : PlanV3 :=
  proposedPlan d ⟨⟨Vector.replicate 16 0⟩⟩ ⟨⟨Vector.replicate 16 1⟩⟩ sampleProfile
    (sampleContext d) ⟨0, 0, sampleInstant_ge, sampleInstant_le⟩ ⟨3600, 0, by decide, by decide⟩
    [samplePlanned d 1 [], samplePlanned d 2 [1]]

theorem sample_bind (d : Deps) {id : UInt8} (dependsOn : List UInt8) {seen seen' : List ActionId}
    (hget : (sampleObservedState d).values.get (sampleActionId id) = some (sampleObserved d))
    (hnew : insertNew seen (sampleActionId id) "planned source steps must be unique" = .ok seen') :
    bindObservation d (samplePlan d) seen (samplePlanned d id dependsOn) = .ok seen' := by
  unfold bindObservation
  rw [except_bind_ok_iff]
  refine ⟨seen', hnew, ?_⟩
  have hvalues : (samplePlan d).observedState.values.get
    (samplePlanned d id dependsOn).sourceStep = some (sampleObserved d) := hget
  rw [hvalues]
  dsimp only
  rw [except_bind_ok_iff]
  refine ⟨(), ?_, rfl⟩
  unfold validateActionObservation
  rw [refuseIf_ok_iff]
  rintro (h | h | h)
  · exact h rfl
  · exact h rfl
  · exact h rfl

theorem samplePlan_sorted : validateDependencyGraph PlannedActionV3.id PlannedActionV3.dependsOn
    validatePlannedAction (samplePlan referenceDeps).actions =
      some (.ok ⟨[sampleActionId 1, sampleActionId 2]⟩) := by
  decide +kernel

theorem samplePlan_validate : (samplePlan referenceDeps).validateStructure referenceDeps =
    some (.ok ⟨[sampleActionId 1, sampleActionId 2]⟩) := by
  unfold PlanV3.validateStructure
  rw [panicking_bind_ok_iff]
  refine ⟨(), fromExcept_ok_iff.mpr ?_, ?_⟩
  · unfold validatePlanStaticFields
    simp only [except_bind_ok_iff, refuseIf_ok_iff]
    dsimp only [samplePlan, proposedPlan, sampleContext]
    exact ⟨(), by decide, (), sampleHost_validate referenceDeps, (), rfl, (), rfl, (), rfl, (),
      by decide, (), sampleObservedState_validate referenceDeps, rfl⟩
  · rw [panicking_bind_ok_iff]
    refine ⟨⟨[sampleActionId 1, sampleActionId 2]⟩, samplePlan_sorted, ?_⟩
    rw [panicking_bind_ok_iff]
    refine ⟨(), fromExcept_ok_iff.mpr ?_, rfl⟩
    unfold validatePlanObservationBindings
    simp only [except_bind_ok_iff, refuseIf_ok_iff]
    refine ⟨(), fun h => h rfl, [sampleActionId 2, sampleActionId 1], ?_, rfl⟩
    show [samplePlanned referenceDeps 1 [], samplePlanned referenceDeps 2 [1]].foldlM _ _ = _
    simp only [List.foldlM_cons, List.foldlM_nil, except_bind_ok_iff]
    exact ⟨_, sample_bind referenceDeps [] rfl rfl, _, sample_bind referenceDeps [1] rfl rfl, rfl⟩

theorem sample_deriveAction (n : ℕ) {id : UInt8} (dependsOn : List UInt8)
    (hget : (sampleObservedState referenceDeps).values.get (sampleActionId id) =
      some (sampleObserved referenceDeps)) (hstep : sampleStep id dependsOn ∈ sampleProfile.steps) :
    deriveAction sampleProfile (PlanningIndex.fromValidated sampleProfile)
      (sampleContext referenceDeps) (registryActionDeriver referenceDeps sampleRegistry)
      (sampleActionId id, n) = .ok (samplePlanned referenceDeps id dependsOn) := by
  have hindex : (PlanningIndex.fromValidated sampleProfile).step sampleProfile
      (sampleStep id dependsOn).stepId = some (sampleStep id dependsOn) :=
    PlanningIndex.step_fromValidated (by decide) hstep
  unfold deriveAction
  rw [show (sampleActionId id, n).1 = (sampleStep id dependsOn).stepId from rfl, hindex]
  dsimp only
  rw [except_bind_ok_iff]
  refine ⟨_, except_mapError_ok_iff.mpr (sample_derive referenceDeps n dependsOn hget), ?_⟩
  rw [except_bind_ok_iff]
  refine ⟨(), ?_, rfl⟩
  unfold validateDerivedAction
  simp only [except_bind_ok_iff, failIf_ok_iff]
  refine ⟨(), ?_, (), fun h => h rfl, fun h => h rfl⟩
  rintro (h | h)
  · exact h rfl
  · exact h rfl

theorem sample_buildPlan :
    buildPlan referenceDeps ⟨⟨Vector.replicate 16 0⟩⟩ ⟨⟨Vector.replicate 16 1⟩⟩ sampleProfile
      (sampleContext referenceDeps) (registryActionDeriver referenceDeps sampleRegistry)
      ⟨0, 0, by decide, by decide⟩ = some (.ok ⟨samplePlan referenceDeps,
        canonicalJsonDigest referenceDeps ((samplePlan referenceDeps).toValue referenceDeps)⟩) := by
  unfold buildPlan
  rw [panicking_bind_ok_iff]
  refine ⟨([sampleActionId 1, sampleActionId 2], ⟨3600, 0, by decide, by decide⟩), ?_, ?_⟩
  · unfold validateBuildInputs
    simp only [panicking_bind_ok_iff, wrapError_ok_iff, fromExcept_ok_iff, failIf_ok_iff]
    dsimp only [sampleContext]
    exact ⟨⟨⟨[sampleActionId 1, sampleActionId 2]⟩⟩, rfl, (), sampleHost_validate referenceDeps, (),
      sampleObservedState_validate referenceDeps, (), by simp [sampleProfile], (), by decide, rfl⟩
  · dsimp only
    rw [panicking_bind_ok_iff]
    refine ⟨[samplePlanned referenceDeps 1 [], samplePlanned referenceDeps 2 [1]], ?_, ?_⟩
    · rw [fromExcept_ok_iff]
      unfold deriveActions
      rw [except_mapM_ok_iff]
      refine List.Forall₂.cons ?_ (List.Forall₂.cons ?_ List.Forall₂.nil)
      · exact sample_deriveAction 0 [] rfl (by simp [sampleProfile])
      · exact sample_deriveAction 1 [1] rfl (by simp [sampleProfile])
    · rw [panicking_bind_ok_iff]
      exact ⟨_, wrapError_ok_iff.mpr samplePlan_validate, rfl⟩

end BaselineOps.Engine
