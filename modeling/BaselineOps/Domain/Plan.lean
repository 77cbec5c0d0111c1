import Mathlib
import BaselineOps.Domain.Result

/-!
# Profiles and plans

Data types of `baselineops-domain/src/model/{primitives,bindings,action,plan}.rs` that the planner
and the scheduler use, and those of `model/result.rs` for the outcome of one action, with the JSON
of the `Serialize` derives that the planner hashes.
-/

namespace BaselineOps.Domain

/-! ## Primitives -/

/-- `PlanSchemaVersion` (`primitives.rs`, lines 21–27). -/
inductive PlanSchemaVersion where
  | v4
  deriving DecidableEq

/-- `Operation` (lines 31–38). -/
inductive Operation where
  | audit | plan | apply
  deriving DecidableEq

/-- `ExecutionIntent` (lines 49–56). -/
inductive ExecutionIntent where
  | audit | plan | apply
  deriving DecidableEq

/-- `From<ExecutionIntent> for Operation` (lines 58–66). -/
def ExecutionIntent.toOperation : ExecutionIntent → Operation
  | .audit => .audit
  | .plan => .plan
  | .apply => .apply

/-- `RiskLevel` (lines 73–84). -/
inductive RiskLevel where
  | none | low | moderate | high | critical
  deriving DecidableEq

/-- `Reversibility` (lines 89–98). -/
inductive Reversibility where
  | notApplicable | reversible | conditionallyReversible | irreversible
  deriving DecidableEq

/-- `RebootRequirement` (lines 103–110). -/
inductive RebootRequirement where
  | notRequired | recommended | required
  deriving DecidableEq

/-- `Privilege` (lines 117–128). -/
inductive Privilege where
  | user | administrator | localSystem | backupOperator | securityOperator
  deriving DecidableEq

/-- `OsFamily` (lines 157–166). -/
inductive OsFamily where
  | windows | linux | macos | other
  deriving DecidableEq

/-- The `snake_case` names of `Operation`. -/
def Operation.name : Operation → String
  | .audit => "audit"
  | .plan => "plan"
  | .apply => "apply"

/-- The `snake_case` names of `ExecutionIntent`. -/
def ExecutionIntent.name : ExecutionIntent → String
  | .audit => "audit"
  | .plan => "plan"
  | .apply => "apply"

/-- The `snake_case` names of `RiskLevel`. -/
def RiskLevel.name : RiskLevel → String
  | .none => "none"
  | .low => "low"
  | .moderate => "moderate"
  | .high => "high"
  | .critical => "critical"

/-- The `snake_case` names of `Reversibility`. -/
def Reversibility.name : Reversibility → String
  | .notApplicable => "not_applicable"
  | .reversible => "reversible"
  | .conditionallyReversible => "conditionally_reversible"
  | .irreversible => "irreversible"

/-- The `snake_case` names of `RebootRequirement`. -/
def RebootRequirement.name : RebootRequirement → String
  | .notRequired => "not_required"
  | .recommended => "recommended"
  | .required => "required"

/-- The `snake_case` names of `Privilege`. -/
def Privilege.name : Privilege → String
  | .user => "user"
  | .administrator => "administrator"
  | .localSystem => "local_system"
  | .backupOperator => "backup_operator"
  | .securityOperator => "security_operator"

/-- The `snake_case` names of `OsFamily`. -/
def OsFamily.name : OsFamily → String
  | .windows => "windows"
  | .linux => "linux"
  | .macos => "macos"
  | .other => "other"

/-! ## Actions and steps -/

/-- `PreconditionV3` (`action.rs`, lines 17–51). -/
inductive PreconditionV3 where
  | elevation (required : Bool)
  | privilege (privilege : Privilege)
  | capabilityAvailable (capability : CapabilityId)
  | hostFingerprint (fingerprint : Sha256Digest)
  | observedStateDigest (digest : Sha256Digest)
  | operatingSystem (family : OsFamily) (minimumVersion : Option String)
  deriving DecidableEq

/-- `ProfileStepV3` (lines 132–147). -/
structure ProfileStepV3 where
  stepId : ActionId
  capabilityId : CapabilityId
  parameters : JsonMap
  dependsOn : List ActionId
  continueOnError : Bool
  deriving DecidableEq

/-- `PlannedActionV3` (lines 151–191). -/
structure PlannedActionV3 where
  id : ActionId
  sourceStep : ActionId
  capability : CapabilityId
  operation : Operation
  parameters : JsonMap
  dependsOn : List ActionId
  continueOnError : Bool
  factsDigest : Sha256Digest
  preconditions : List PreconditionV3
  risk : RiskLevel
  reversibility : Reversibility
  reboot : RebootRequirement
  privileges : List Privilege
  metadata : JsonMap
  deriving DecidableEq

/-- `ProfileDefaultsV3` (lines 194–198). -/
structure ProfileDefaultsV3 where
  continueOnError : Bool
  deriving DecidableEq

/-- `ProfileV3` (lines 203–229). -/
structure ProfileV3 where
  schemaVersion : SchemaVersion
  id : ProfileId
  name : String
  version : String
  description : Option String
  createdAt : DateTime
  expiresAt : Option DateTime
  defaults : ProfileDefaultsV3
  steps : List ProfileStepV3
  metadata : JsonMap
  deriving DecidableEq

/-! ## Outcomes of actions -/

/-- `ActionResultV3` (`result.rs`, lines 52–66). -/
structure ActionResultV3 where
  actionId : ActionId
  capability : CapabilityId
  status : ActionStatus
  startedAt : DateTime
  completedAt : DateTime
  metadata : JsonMap
  deriving DecidableEq

/-- `FindingId` (`ids.rs`, line 75). -/
structure FindingId where
  uuid : Uuid
  deriving DecidableEq

/-- `Severity` (`result.rs`, lines 73–84). -/
inductive Severity where
  | info | low | medium | high | critical
  deriving DecidableEq

/-- `FindingStatus` (lines 89–102). -/
inductive FindingStatus where
  | pass | fail | warning | info | skipped | error
  deriving DecidableEq

/-- `FindingV3` (lines 107–129). -/
structure FindingV3 where
  id : FindingId
  capability : CapabilityId
  actionId : Option ActionId
  code : String
  status : FindingStatus
  severity : Severity
  message : String
  observedAt : DateTime
  evidence : JsonMap
  deriving DecidableEq

end BaselineOps.Domain
