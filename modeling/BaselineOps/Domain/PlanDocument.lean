import Mathlib
import BaselineOps.Domain.Plan

/-!
# Plan documents

Data types of `baselineops-domain/src/model/bindings.rs` and `model/plan.rs`, and the JSON of the
`Serialize` derives of profiles and plans, which the planner hashes. A field with
`skip_serializing_if` is left out when it is empty.
-/

namespace BaselineOps.Domain

/-! ## Bindings -/

/-- `HostIdentityV3` (`bindings.rs`, lines 17–34). -/
structure HostIdentityV3 where
  hostId : String
  bootId : String
  sessionId : String
  hostname : String
  osFamily : OsFamily
  osVersion : String
  architecture : String
  fingerprint : Sha256Digest
  deriving DecidableEq

/-- `ToolIdentityV3` (lines 39–47). -/
structure ToolIdentityV3 where
  name : String
  version : String
  buildDigest : Option Sha256Digest
  deriving DecidableEq

/-- `SourceKind` (lines 52–61). -/
inductive SourceKind where
  | localFile | bundled | remote | api
  deriving DecidableEq

/-- `SourceIdentityV3` (lines 66–73). -/
structure SourceIdentityV3 where
  kind : SourceKind
  locator : String
  digest : Sha256Digest
  deriving DecidableEq

/-- `InputIdentityV3` (lines 78–83). -/
structure InputIdentityV3 where
  digest : Sha256Digest
  sizeBytes : UInt64
  deriving DecidableEq

/-- `ResourceKind` (lines 88–93). -/
inductive ResourceKind where
  | file | directoryManifest
  deriving DecidableEq

/-- The checks of `LogicalResourceId::new` (`ids.rs`, lines 158–173), on the UTF-8 bytes. -/
def logicalResourceIdValid (value : String) : Bool :=
  let bytes := utf8 value
  !bytes.isEmpty && bytes.length ≤ 64 && bytes.all fun b =>
    (0x61 ≤ b && b ≤ 0x7a) || (0x30 ≤ b && b ≤ 0x39) || b == 0x2e || b == 0x2d || b == 0x5f

/-- A bounded logical resource key. -/
structure LogicalResourceId where
  asStr : String
  valid : logicalResourceIdValid asStr = true
  deriving DecidableEq

/-- `ResourceBindingV3` (`bindings.rs`, lines 98–107). -/
structure ResourceBindingV3 where
  logicalId : LogicalResourceId
  kind : ResourceKind
  digest : Sha256Digest
  sizeBytes : UInt64
  deriving DecidableEq

/-- `ObservedValueV3` (lines 145–155). -/
structure ObservedValueV3 where
  capability : CapabilityId
  parametersDigest : Sha256Digest
  observedAt : DateTime
  facts : JsonMap
  deriving DecidableEq

/-- The derived order of ids: the bytes of the UUID, one after the other. -/
def ActionId.Lt (a b : ActionId) : Prop :=
  List.Lex (· < ·) a.uuid.bytes.toList b.uuid.bytes.toList

instance (a b : ActionId) : Decidable (a.Lt b) := inferInstanceAs (Decidable (List.Lex _ _ _))

/-- `BTreeMap<ActionId, ObservedValueV3>`, by ascending key. -/
@[ext]
structure ObservedValues where
  entries : List (ActionId × ObservedValueV3)
  sorted : entries.Pairwise fun a b => a.1.Lt b.1
  deriving DecidableEq

/-- `BTreeMap::get`. -/
def ObservedValues.get (values : ObservedValues) (step : ActionId) : Option ObservedValueV3 :=
  (values.entries.find? fun entry => entry.1 = step).map Prod.snd

/-- `ObservedStateV3` (lines 160–167). -/
structure ObservedStateV3 where
  capturedAt : DateTime
  digest : Sha256Digest
  values : ObservedValues
  deriving DecidableEq

/-- `PlanV4` (`plan.rs`, lines 17–55), also named `PlanV3`. -/
structure PlanV3 where
  schemaVersion : PlanSchemaVersion
  id : PlanId
  runId : RunId
  intent : ExecutionIntent
  profileId : ProfileId
  profileDigest : Sha256Digest
  host : HostIdentityV3
  tool : ToolIdentityV3
  packageDigest : Sha256Digest
  source : SourceIdentityV3
  input : InputIdentityV3
  resources : List ResourceBindingV3
  observedState : ObservedStateV3
  issuedAt : DateTime
  expiresAt : DateTime
  actions : List PlannedActionV3
  metadata : JsonMap
  deriving DecidableEq

/-! ## JSON -/

/-- The `snake_case` names of `SourceKind`. -/
def SourceKind.name : SourceKind → String
  | .localFile => "local_file"
  | .bundled => "bundled"
  | .remote => "remote"
  | .api => "api"

/-- The `snake_case` names of `ResourceKind`. -/
def ResourceKind.name : ResourceKind → String
  | .file => "file"
  | .directoryManifest => "directory_manifest"

/-- A member with `skip_serializing_if = "BTreeMap::is_empty"`. -/
def mapMember (name : String) (map : JsonMap) : List (String × Value) :=
  if map.entries.isEmpty then [] else [(name, .object map.entries)]

/-- A member with `skip_serializing_if = "Vec::is_empty"`. -/
def listMember (name : String) (items : List Value) : List (String × Value) :=
  if items.isEmpty then [] else [(name, .array items)]

/-- A member with `skip_serializing_if = "Option::is_none"`. -/
def optionMember (name : String) (value : Option Value) : List (String × Value) :=
  value.toList.map fun value => (name, value)

/-- The JSON of an action id. -/
def ActionId.toValue (x : ActionId) : Value := .string x.uuid.toText

/-- `Serialize` of `PreconditionV3`, tagged by `kind`. -/
def PreconditionV3.toValue : PreconditionV3 → Value
  | .elevation required => .object [("kind", .string "elevation"), ("required", .bool required)]
  | .privilege required =>
    .object [("kind", .string "privilege"), ("privilege", .string required.name)]
  | .capabilityAvailable capability =>
    .object [("kind", .string "capability_available"), ("capability", .string capability.asStr)]
  | .hostFingerprint fingerprint =>
    .object [("kind", .string "host_fingerprint"), ("fingerprint", .string fingerprint.toHex)]
  | .observedStateDigest digest =>
    .object [("kind", .string "observed_state_digest"), ("digest", .string digest.toHex)]
  | .operatingSystem family minimumVersion =>
    .object ([("kind", .string "operating_system"), ("family", .string family.name)] ++
      optionMember "minimum_version" (minimumVersion.map .string))

/-- `Serialize` of `ProfileStepV3`. -/
def ProfileStepV3.toValue (step : ProfileStepV3) : Value := .object
  ([("step_id", step.stepId.toValue), ("capability_id", .string step.capabilityId.asStr)] ++
    mapMember "parameters" step.parameters ++
    listMember "depends_on" (step.dependsOn.map ActionId.toValue) ++
    [("continue_on_error", .bool step.continueOnError)])

/-- `Serialize` of `PlannedActionV3`. -/
def PlannedActionV3.toValue (action : PlannedActionV3) : Value := .object
  ([("action_id", action.id.toValue), ("source_step_id", action.sourceStep.toValue),
    ("capability_id", .string action.capability.asStr),
    ("operation", .string action.operation.name)] ++
    mapMember "parameters" action.parameters ++
    listMember "depends_on" (action.dependsOn.map ActionId.toValue) ++
    [("continue_on_error", .bool action.continueOnError),
     ("facts_digest", .string action.factsDigest.toHex)] ++
    listMember "preconditions" (action.preconditions.map PreconditionV3.toValue) ++
    [("risk", .string action.risk.name), ("reversibility", .string action.reversibility.name),
     ("reboot", .string action.reboot.name)] ++
    listMember "privileges" (action.privileges.map fun privilege => .string privilege.name) ++
    mapMember "metadata" action.metadata)

/-- `Serialize` of `ProfileV3`. -/
def ProfileV3.toValue (d : Deps) (profile : ProfileV3) : Value := .object
  ([("schema_version", .string "3.0"), ("profile_id", .string profile.id.uuid.toText),
    ("name", .string profile.name), ("version", .string profile.version)] ++
    optionMember "description" (profile.description.map .string) ++
    [("created_at", .string (d.rfc3339 profile.createdAt))] ++
    optionMember "expires_at" (profile.expiresAt.map fun time => .string (d.rfc3339 time)) ++
    [("defaults", .object [("continue_on_error", .bool profile.defaults.continueOnError)]),
     ("steps", .array (profile.steps.map ProfileStepV3.toValue))] ++
    mapMember "metadata" profile.metadata)

/-- The members of `HostFingerprintPayload` (`validate.rs`, lines 562–572). -/
def HostIdentityV3.payload (host : HostIdentityV3) : List (String × Value) :=
  [("host_id", .string host.hostId), ("boot_id", .string host.bootId),
   ("session_id", .string host.sessionId), ("hostname", .string host.hostname),
   ("os_family", .string host.osFamily.name), ("os_version", .string host.osVersion),
   ("architecture", .string host.architecture)]

/-- `Serialize` of `HostIdentityV3`. -/
def HostIdentityV3.toValue (host : HostIdentityV3) : Value :=
  .object (host.payload ++ [("fingerprint", .string host.fingerprint.toHex)])

/-- `Serialize` of `ToolIdentityV3`. -/
def ToolIdentityV3.toValue (tool : ToolIdentityV3) : Value := .object
  ([("name", .string tool.name), ("version", .string tool.version)] ++
    optionMember "build_digest" (tool.buildDigest.map fun digest => .string digest.toHex))

/-- `Serialize` of `SourceIdentityV3`. -/
def SourceIdentityV3.toValue (source : SourceIdentityV3) : Value := .object
  [("kind", .string source.kind.name), ("locator", .string source.locator),
   ("digest", .string source.digest.toHex)]

/-- `Serialize` of `InputIdentityV3`. -/
def InputIdentityV3.toValue (input : InputIdentityV3) : Value := .object
  [("digest", .string input.digest.toHex), ("size_bytes", .number (.posInt input.sizeBytes))]

/-- `Serialize` of `ResourceBindingV3`. -/
def ResourceBindingV3.toValue (resource : ResourceBindingV3) : Value := .object
  [("logical_id", .string resource.logicalId.asStr), ("kind", .string resource.kind.name),
   ("digest", .string resource.digest.toHex), ("size_bytes", .number (.posInt resource.sizeBytes))]

/-- `Serialize` of `ObservedValueV3`. -/
def ObservedValueV3.toValue (d : Deps) (value : ObservedValueV3) : Value := .object
  ([("capability", .string value.capability.asStr),
    ("parameters_digest", .string value.parametersDigest.toHex),
    ("observed_at", .string (d.rfc3339 value.observedAt))] ++
    mapMember "facts" value.facts)

/-- `Serialize` of `ObservedStateV3`. -/
def ObservedStateV3.toValue (d : Deps) (state : ObservedStateV3) : Value := .object
  [("captured_at", .string (d.rfc3339 state.capturedAt)), ("digest", .string state.digest.toHex),
   ("values", .object (state.values.entries.map fun entry =>
     (entry.1.uuid.toText, entry.2.toValue d)))]

/-- `Serialize` of `PlanV4`. -/
def PlanV3.toValue (d : Deps) (plan : PlanV3) : Value := .object
  ([("schema_version", .string "4.0"), ("plan_id", .string plan.id.uuid.toText),
    ("run_id", .string plan.runId.uuid.toText), ("intent", .string plan.intent.name),
    ("profile_id", .string plan.profileId.uuid.toText),
    ("profile_digest", .string plan.profileDigest.toHex), ("host", plan.host.toValue),
    ("tool", plan.tool.toValue), ("package_digest", .string plan.packageDigest.toHex),
    ("source", plan.source.toValue), ("input", plan.input.toValue)] ++
    listMember "resources" (plan.resources.map ResourceBindingV3.toValue) ++
    [("observed_state", plan.observedState.toValue d),
     ("issued_at", .string (d.rfc3339 plan.issuedAt)),
     ("expires_at", .string (d.rfc3339 plan.expiresAt)),
     ("actions", .array (plan.actions.map PlannedActionV3.toValue))] ++
    mapMember "metadata" plan.metadata)

end BaselineOps.Domain
