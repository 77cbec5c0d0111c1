import BaselineOps.Domain.ValidatePlan

/-!
# Final results and verified plans

Model of `ResultV3` (`model/result.rs`), of its validation (`validate/result.rs` and `validate.rs`, lines
414–437), and of the plans that were verified against a live context (`validate.rs`, lines 48–89 and
266–335).
-/

namespace BaselineOps.Domain

open BaselineOps.Lib

/-! ## Results -/

/-- `ResultV3` (lines 183–225). -/
structure ResultV3 where
  schemaVersion : SchemaVersion
  id : ResultId
  runId : RunId
  planId : PlanId
  profileId : ProfileId
  capabilityId : Option CapabilityId
  operation : Operation
  host : HostIdentityV3
  status : ResultStatus
  startedAt : DateTime
  completedAt : DateTime
  actions : List ActionResultV3
  findings : List FindingV3
  summary : String
  artifacts : List ArtifactV3
  metadata : JsonMap

/-- `validate_result_header` with `validate_result_times` (`validate/result.rs`, lines 24–36). -/
def validateResultHeader (d : Deps) (result : ResultV3) : Except DomainError Unit := do
  refuseIf (result.completedAt < result.startedAt)
    "result completion time must not precede its start time"
  result.host.validate d
  validateNonempty "result summary" result.summary 4096
  validateJsonMap "result metadata" result.metadata

/-- `validate_action_result` (`validate.rs`, lines 414–424). -/
def validateActionResult (action : ActionResultV3) : Except DomainError Unit := do
  refuseIf (action.completedAt < action.startedAt)
    "action completion time must not precede its start time"
  validateNonempty "action-result capability ID" action.capability.asStr 128
  validateJsonMap "action-result metadata" action.metadata

/-- `validate_result_action` (lines 46–55). -/
def validateResultAction (actionIds : List ActionId) (action : ActionResultV3) :
    Except DomainError (List ActionId) := do
  validateActionResult action
  insertNew actionIds action.actionId "result contains duplicate action result IDs"

/-- `validate_result_actions` (lines 38–44). -/
def validateResultActions (actions : List ActionResultV3) : Except DomainError Unit := do
  let _ ← actions.foldlM validateResultAction []

/-- `FindingV3::validate` (lines 81–85). -/
def FindingV3.validate (finding : FindingV3) : Except DomainError Unit := do
  validateNonempty "finding code" finding.code 128
  validateNonempty "finding message" finding.message 4096
  validateJsonMap "finding evidence" finding.evidence

/-- `validate_result_finding` (lines 65–73). -/
def validateResultFinding (findingIds : List FindingId) (finding : FindingV3) :
    Except DomainError (List FindingId) := do
  finding.validate
  insertNew findingIds finding.id "result contains duplicate finding IDs"

/-- `validate_result_findings` (lines 57–63). -/
def validateResultFindings (findings : List FindingV3) : Except DomainError Unit := do
  let _ ← findings.foldlM validateResultFinding []

/-- `ResultV3::validate` (lines 15–20). -/
def ResultV3.validate (d : Deps) (result : ResultV3) : Except DomainError Unit := do
  validateResultHeader d result
  validateResultActions result.actions
  validateResultFindings result.findings
  validateArtifacts result.artifacts

/-- A valid result has one outcome for each action id. -/
theorem ResultV3.actionIds_nodup {d : Deps} {result : ResultV3} (h : result.validate d = .ok ()) :
    (result.actions.map ActionResultV3.actionId).Nodup := by
  unfold ResultV3.validate validateResultActions at h
  simp only [except_bind_ok_iff] at h
  obtain ⟨_, -, _, ⟨ids, hfold, -⟩, -⟩ := h
  refine (foldlM_insert_ok ActionResultV3.actionId (fun seen => seen) (fun _ => True) ?_ hfold).1
  intro seen action seen' hstep
  obtain ⟨_, -, hinsert⟩ := except_bind_ok_iff.mp hstep
  obtain ⟨hnew, hseen⟩ := insertNew_ok hinsert
  exact ⟨hnew, hseen, trivial⟩

/-- The locators of a valid result are accepted ones. -/
theorem ResultV3.locators_accepted {d : Deps} {result : ResultV3} (h : result.validate d = .ok ()) :
    ∀ artifact ∈ result.artifacts, validateRelativeLocator artifact.locator = .ok () := by
  unfold ResultV3.validate validateArtifacts at h
  simp only [except_bind_ok_iff] at h
  obtain ⟨_, -, _, -, _, -, ids, hfold, -⟩ := h
  refine (foldlM_insert_ok ArtifactV3.id (fun seen => seen)
    (fun artifact => validateRelativeLocator artifact.locator = .ok ()) ?_ hfold).2.2
  intro seen artifact seen' hstep
  obtain ⟨ids', hinsert, hrest⟩ := except_bind_ok_iff.mp hstep
  obtain ⟨_, -, hrest⟩ := except_bind_ok_iff.mp hrest
  obtain ⟨_, hlocator, hrest⟩ := except_bind_ok_iff.mp hrest
  obtain ⟨_, -, hseen⟩ := except_bind_ok_iff.mp hrest
  cases hseen
  obtain ⟨hnew, hids⟩ := insertNew_ok hinsert
  exact ⟨hnew, hids, hlocator⟩

/-! ## Verified plans -/

/-- `PlanValidationContext` (`validate.rs`, lines 50–67). -/
structure PlanValidationContext where
  now : DateTime
  intent : ExecutionIntent
  host : HostIdentityV3
  tool : ToolIdentityV3
  packageDigest : Sha256Digest
  source : SourceIdentityV3
  input : InputIdentityV3
  observedStateDigest : Sha256Digest

/-- `validate_equal` (lines 360–365). -/
def validateEqual {α : Type} [DecidableEq α] (expected actual : α) (message : String) :
    Except DomainError Unit :=
  refuseIf (expected ≠ actual) message

/-- `validate_context_host_and_tool` (lines 318–334). -/
def validateContextHostAndTool (d : Deps) (plan : PlanV3) (context : PlanValidationContext) :
    Except DomainError Unit := do
  context.host.validate d
  validateEqual plan.host context.host "plan host identity does not match the current host"
  validateEqual plan.tool context.tool "plan tool identity does not match the current worker"

/-- `validate_context_bindings` (lines 336–358). -/
def validateContextBindings (plan : PlanV3) (context : PlanValidationContext) :
    Except DomainError Unit := do
  validateEqual plan.packageDigest context.packageDigest
    "plan package digest does not match the verified package"
  validateEqual plan.source context.source
    "plan source identity does not match the re-verified source"
  validateEqual plan.input context.input
    "plan input identity does not match the re-verified input"
  validateEqual plan.observedState.digest context.observedStateDigest
    "plan observed state does not match the current state binding"

/-- `PlanV3::validate_against` (lines 271–282). -/
def PlanV3.validateAgainst (d : Deps) (plan : PlanV3) (context : PlanValidationContext) :
    Panicking DomainError TopologicalOrder := do
  let order ← plan.validateAt d context.now
  fromExcept (refuseIf (plan.intent ≠ context.intent)
    "plan intent does not match the requested execution intent")
  fromExcept (validateContextHostAndTool d plan context)
  fromExcept (validateContextBindings plan context)
  return order

/-- `VerifiedPlan` (line 75): only `verify_for_execution` (lines 290–296) makes one. -/
structure VerifiedPlan (d : Deps) where
  plan : PlanV3
  verified : ∃ context order, plan.validateAgainst d context = some (.ok order)

/-- The structure of a verified plan is valid. -/
theorem VerifiedPlan.valid {d : Deps} (approved : VerifiedPlan d) :
    ∃ order, ValidPlan d approved.plan order := by
  obtain ⟨context, order, h⟩ := approved.verified
  unfold PlanV3.validateAgainst at h
  rw [panicking_bind_ok_iff] at h
  obtain ⟨order', hvalid, -⟩ := h
  exact ⟨order', (PlanV3.validateAt_ok hvalid).1⟩

/-- The actions of a verified plan have distinct ids. -/
theorem VerifiedPlan.actionIds_nodup {d : Deps} (approved : VerifiedPlan d) :
    (approved.plan.actions.map PlannedActionV3.id).Nodup := by
  obtain ⟨order, hvalid⟩ := approved.valid
  exact (validateDependencyGraph_ok hvalid.sorted).1.nodup

end BaselineOps.Domain
