import Mathlib
import BaselineOps.Lib.EState
import BaselineOps.Domain.Graph
import BaselineOps.Domain.PlanDocument

/-!
# Validation of profiles and plans

Model of `baselineops-domain/src/validate.rs` (lines 91–412) and `validate/observation.rs`: profiles,
host identities, observed states and the structure of plans. `canonical_json_digest` cannot fail on
these types, so the branches for its error do not appear.
-/

namespace BaselineOps.Domain

open BaselineOps.Lib

/-- `if condition { return validation(message); }`. -/
def refuseIf (condition : Prop) [Decidable condition] (message : String) : Except DomainError Unit :=
  failIf condition (.validation message)

theorem refuseIf_ok_iff {condition : Prop} [Decidable condition] {message : String} {u : Unit} :
    refuseIf condition message = .ok u ↔ ¬ condition := failIf_ok_iff

/-! ## Profiles -/

/-- `ProfileValidation` (lines 42–45). -/
structure ProfileValidation where
  topologicalOrder : TopologicalOrder
  deriving DecidableEq

/-- `validate_profile_header` (lines 142–146). -/
def validateProfileHeader (profile : ProfileV3) : Except DomainError Unit := do
  validateNonempty "profile name" profile.name 256
  validateNonempty "profile version" profile.version 128
  validateOptionalText "profile description" profile.description 4096

/-- `validate_profile_expiry` and `validate_profile_expiry_order` (lines 148–163). -/
def validateProfileExpiry (profile : ProfileV3) : Except DomainError Unit :=
  match profile.expiresAt with
  | none => .ok ()
  | some expiresAt =>
    refuseIf (¬ profile.createdAt < expiresAt) "profile expiry must be after its creation time"

/-- `validate_profile_step` (lines 385–392). -/
def validateProfileStep (step : ProfileStepV3) : Except DomainError Unit := do
  validateNonempty "profile step capability ID" step.capabilityId.asStr 128
  validateJsonMap "profile step parameters" step.parameters

/-- `validate_profile_steps` (lines 367–374). -/
def validateProfileSteps (steps : List ProfileStepV3) : Panicking DomainError TopologicalOrder :=
  validateDependencyGraph ProfileStepV3.stepId ProfileStepV3.dependsOn validateProfileStep steps

/-- `ProfileV3::validate` (lines 97–101) with `validate_profile_payload` (lines 165–170). -/
def ProfileV3.validate (profile : ProfileV3) : Panicking DomainError ProfileValidation := do
  fromExcept (validateProfileHeader profile)
  fromExcept (validateProfileExpiry profile)
  fromExcept (validateJsonMap "profile metadata" profile.metadata)
  let topologicalOrder ← validateProfileSteps profile.steps
  return ⟨topologicalOrder⟩

/-! ## Hosts -/

/-- `calculated_fingerprint` (lines 119–129). -/
def HostIdentityV3.calculatedFingerprint (d : Deps) (host : HostIdentityV3) : Sha256Digest :=
  canonicalJsonDigest d (.object host.payload)

/-- `HostIdentityV3::validate` (lines 136–139) with `validate_host_identifiers`,
    `validate_host_platform` and `validate_host_fingerprint` (lines 172–194). -/
def HostIdentityV3.validate (d : Deps) (host : HostIdentityV3) : Except DomainError Unit := do
  validateNonempty "host ID" host.hostId 256
  validateNonempty "boot ID" host.bootId 256
  validateNonempty "session ID" host.sessionId 256
  validateNonempty "hostname" host.hostname 255
  validateNonempty "OS version" host.osVersion 128
  validateNonempty "architecture" host.architecture 64
  refuseIf (host.calculatedFingerprint d ≠ host.fingerprint)
    "host fingerprint does not match the host identity fields"

/-! ## Observed states -/

/-- The facts that an observed state is bound to: capability, parameters digest and facts of every
    step, without times (lines 203–213). -/
def ObservedStateV3.factsValue (state : ObservedStateV3) : Value := .object
  (state.values.entries.map fun entry => (entry.1.uuid.toText,
    .array [.string entry.2.capability.asStr, .string entry.2.parametersDigest.toHex,
      .object entry.2.facts.entries]))

/-- `calculated_digest` (lines 202–215). -/
def ObservedStateV3.calculatedDigest (d : Deps) (state : ObservedStateV3) : Sha256Digest :=
  canonicalJsonDigest d state.factsValue

/-- `ObservedStateV3::validate` (lines 221–237). -/
def ObservedStateV3.validate (d : Deps) (state : ObservedStateV3) : Except DomainError Unit := do
  refuseIf (state.values.entries = []) "observed state must contain at least one capability value"
  state.values.entries.forM fun entry => do
    validateNonempty "observed-state capability ID" entry.2.capability.asStr 128
    validateJsonMap "observed-state facts" entry.2.facts
  refuseIf (state.calculatedDigest d ≠ state.digest)
    "observed-state digest does not match its captured values"

/-! ## Plans -/

/-- `validate_planned_action` (lines 394–412). -/
def validatePlannedAction (action : PlannedActionV3) : Except DomainError Unit := do
  validateNonempty "planned action capability ID" action.capability.asStr 128
  validateJsonMap "planned action parameters" action.parameters
  validateJsonMap "planned action metadata" action.metadata
  action.preconditions.forM fun condition =>
    match condition with
    | .operatingSystem _ (some version) => validateNonempty "minimum OS version" version 128
    | _ => .ok ()

/-- `validate_planned_actions` (lines 376–383). -/
def validatePlannedActions (actions : List PlannedActionV3) :
    Panicking DomainError TopologicalOrder :=
  validateDependencyGraph PlannedActionV3.id PlannedActionV3.dependsOn validatePlannedAction actions

/-- `validate_plan_static_fields` (lines 299–309) with `validate_plan_input`, `validate_tool` and
    `validate_source`. -/
def validatePlanStaticFields (d : Deps) (plan : PlanV3) : Except DomainError Unit := do
  refuseIf (¬ plan.issuedAt < plan.expiresAt) "plan expiry must be after its issue time"
  plan.host.validate d
  validateNonempty "tool name" plan.tool.name 128
  validateNonempty "tool version" plan.tool.version 128
  validateNonempty "source locator" plan.source.locator 2048
  refuseIf (plan.input.sizeBytes = 0) "plan input size must be non-zero"
  plan.observedState.validate d
  validateJsonMap "plan metadata" plan.metadata

/-- `validate_action_observation` (`observation.rs`, lines 25–37). -/
def validateActionObservation (d : Deps) (action : PlannedActionV3) (digest : Sha256Digest)
    (observed : ObservedValueV3) : Except DomainError Unit :=
  refuseIf (action.factsDigest ≠ digest ∨ observed.capability ≠ action.capability ∨
      observed.parametersDigest ≠ canonicalJsonDigest d (.object action.parameters.entries))
    "planned action does not match its step observation binding"

/-- One round of `validate_plan_observation_bindings`. -/
def bindObservation (d : Deps) (plan : PlanV3) (sourceSteps : List ActionId)
    (action : PlannedActionV3) : Except DomainError (List ActionId) := do
  let sourceSteps ← insertNew sourceSteps action.sourceStep "planned source steps must be unique"
  match plan.observedState.values.get action.sourceStep with
  | none => validation "planned action has no step-bound observation"
  | some observed =>
    validateActionObservation d action plan.observedState.digest observed
    return sourceSteps

/-- `validate_plan_observation_bindings` (lines 8–23). -/
def validatePlanObservationBindings (d : Deps) (plan : PlanV3) : Except DomainError Unit := do
  refuseIf (plan.observedState.values.entries.length ≠ plan.actions.length)
    "plan must retain one observation for every source step"
  let _ ← plan.actions.foldlM (bindObservation d plan) []

/-- `PlanV3::validate_structure` (`validate.rs`, lines 246–251). -/
def PlanV3.validateStructure (d : Deps) (plan : PlanV3) : Panicking DomainError TopologicalOrder := do
  fromExcept (validatePlanStaticFields d plan)
  let order ← validatePlannedActions plan.actions
  fromExcept (validatePlanObservationBindings d plan)
  return order

/-- `PlanV3::validate_at` (lines 258–264). -/
def PlanV3.validateAt (d : Deps) (plan : PlanV3) (now : DateTime) :
    Panicking DomainError TopologicalOrder := do
  let order ← plan.validateStructure d
  fromExcept (refuseIf (¬ now < plan.expiresAt) "plan has expired")
  return order

/-! ## What validation establishes -/

/-- An accepted profile has an accepted graph. -/
theorem ProfileV3.validate_ok {profile : ProfileV3} {v : ProfileValidation}
    (h : profile.validate = some (.ok v)) :
    validateDependencyGraph ProfileStepV3.stepId ProfileStepV3.dependsOn validateProfileStep
      profile.steps = some (.ok v.topologicalOrder) := by
  unfold ProfileV3.validate at h
  simp only [panicking_bind_ok_iff] at h
  obtain ⟨_, _, _, _, _, _, order, horder, hv⟩ := h
  cases Except.ok.inj (Option.some.inj hv)
  exact horder

theorem ObservedStateV3.validate_ok {d : Deps} {state : ObservedStateV3}
    (h : state.validate d = .ok ()) : state.calculatedDigest d = state.digest := by
  unfold ObservedStateV3.validate at h
  simp only [except_bind_ok_iff, refuseIf_ok_iff] at h
  obtain ⟨_, _, _, _, hdigest⟩ := h
  exact not_not.mp hdigest

/-- What the structure of a valid plan satisfies, as far as the development uses it. -/
structure ValidPlan (d : Deps) (plan : PlanV3) (order : TopologicalOrder) : Prop where
  observed : plan.observedState.calculatedDigest d = plan.observedState.digest
  sorted : validateDependencyGraph PlannedActionV3.id PlannedActionV3.dependsOn validatePlannedAction
    plan.actions = some (.ok order)
  observations : plan.observedState.values.entries.length = plan.actions.length
  sourceSteps : (plan.actions.map PlannedActionV3.sourceStep).Nodup
  bound : ∀ action ∈ plan.actions, ∃ observed,
    plan.observedState.values.get action.sourceStep = some observed ∧
    action.factsDigest = plan.observedState.digest ∧ observed.capability = action.capability ∧
    observed.parametersDigest = canonicalJsonDigest d (.object action.parameters.entries)

theorem bindObservation_ok {d : Deps} {plan : PlanV3} {seen seen' : List ActionId}
    {action : PlannedActionV3} (h : bindObservation d plan seen action = .ok seen') :
    action.sourceStep ∉ seen ∧ seen' = action.sourceStep :: seen ∧ ∃ observed,
      plan.observedState.values.get action.sourceStep = some observed ∧
      action.factsDigest = plan.observedState.digest ∧ observed.capability = action.capability ∧
      observed.parametersDigest = canonicalJsonDigest d (.object action.parameters.entries) := by
  unfold bindObservation at h
  obtain ⟨steps, hinsert, h⟩ := except_bind_ok_iff.mp h
  obtain ⟨hnew, rfl⟩ := insertNew_ok hinsert
  split at h
  · simp [validation] at h
  · rename_i observed hget
    obtain ⟨_, hbound, hsteps⟩ := except_bind_ok_iff.mp h
    unfold validateActionObservation at hbound
    rw [refuseIf_ok_iff, not_or, not_or, not_not, not_not, not_not] at hbound
    exact ⟨hnew, (Except.ok.inj hsteps).symm, observed, hget, hbound⟩

/-- The inversion of `validate_structure`. -/
theorem PlanV3.validateStructure_ok {d : Deps} {plan : PlanV3} {order : TopologicalOrder}
    (h : plan.validateStructure d = some (.ok order)) : ValidPlan d plan order := by
  unfold PlanV3.validateStructure validatePlanStaticFields validatePlanObservationBindings at h
  simp only [panicking_bind_ok_iff, fromExcept_ok_iff, except_bind_ok_iff, refuseIf_ok_iff] at h
  obtain ⟨_, ⟨_, _, _, _, _, _, _, _, _, _, _, _, _, hobserved, _⟩, order', hsorted, _,
    ⟨_, hlength, steps, hfold, _⟩, horder⟩ := h
  cases Except.ok.inj (Option.some.inj horder)
  obtain ⟨hnodup, -, hbound⟩ := foldlM_insert_ok PlannedActionV3.sourceStep (fun seen => seen)
    (fun action => ∃ observed, plan.observedState.values.get action.sourceStep = some observed ∧
      action.factsDigest = plan.observedState.digest ∧ observed.capability = action.capability ∧
      observed.parametersDigest = canonicalJsonDigest d (.object action.parameters.entries))
    (fun seen action seen' hstep => bindObservation_ok hstep) hfold
  exact ⟨ObservedStateV3.validate_ok hobserved, hsorted, not_not.mp hlength, hnodup, hbound⟩

theorem PlanV3.validateAt_ok {d : Deps} {plan : PlanV3} {now : DateTime} {order : TopologicalOrder}
    (h : plan.validateAt d now = some (.ok order)) :
    ValidPlan d plan order ∧ now < plan.expiresAt := by
  unfold PlanV3.validateAt at h
  simp only [panicking_bind_ok_iff, fromExcept_ok_iff, refuseIf_ok_iff] at h
  obtain ⟨order', hvalid, _, hnow, horder⟩ := h
  cases Except.ok.inj (Option.some.inj horder)
  exact ⟨PlanV3.validateStructure_ok hvalid, not_not.mp hnow⟩

/-! ## Observations by step -/

theorem ObservedValues.get_eq_some {values : ObservedValues} {step : ActionId}
    {observed : ObservedValueV3} (h : values.get step = some observed) :
    (step, observed) ∈ values.entries := by
  unfold ObservedValues.get at h
  obtain ⟨entry, hfind, rfl⟩ := Option.map_eq_some_iff.mp h
  have hstep : entry.1 = step := by simpa using List.find?_some hfind
  rw [← hstep]
  exact List.mem_of_find?_eq_some hfind

/-- A valid plan holds exactly one observation for every source step. -/
theorem ValidPlan.observations_perm {d : Deps} {plan : PlanV3} {order : TopologicalOrder}
    (h : ValidPlan d plan order) :
    (plan.observedState.values.entries.map Prod.fst).Perm
      (plan.actions.map PlannedActionV3.sourceStep) := by
  have hsub : (plan.actions.map PlannedActionV3.sourceStep).Subperm
      (plan.observedState.values.entries.map Prod.fst) := by
    apply List.subperm_of_subset h.sourceSteps
    intro step hstep
    obtain ⟨action, haction, rfl⟩ := List.mem_map.mp hstep
    obtain ⟨observed, hget, -⟩ := h.bound action haction
    exact List.mem_map_of_mem (ObservedValues.get_eq_some hget)
  apply List.Perm.symm
  apply hsub.perm_of_length_le
  rw [List.length_map, List.length_map, h.observations]

end BaselineOps.Domain
