import Mathlib
import BaselineOps.Domain.Canonical

/-!
# Windows Update desired state and plan

Model of `baselineops-capabilities/src/windows_update_policy.rs` and of `PolicyValueSnapshot`
(`office_browser_policy.rs`, lines 12–27).

The `BTreeMap` from fields to values is a function: the twelve fields are finite, two maps are
equal when they agree on every field, and iteration follows the order of the fields.

* `mem_mutations_iff`: the plan changes exactly the fields whose observed value is not the
  expected one.
* `mutations_fields_nodup`: no field is changed twice.
-/

namespace BaselineOps.Capabilities

open BaselineOps.Domain

/-! ## Fields and values -/

/-- `WindowsUpdateField` (lines 16–41), in the order of its `Ord`. -/
inductive WindowsUpdateField where
  | useWsus
  | wsusServer
  | wsusStatusServer
  | allowMicrosoftUpdate
  | deferFeatureUpdates
  | deferFeatureDays
  | deferQualityUpdates
  | deferQualityDays
  | targetReleaseVersion
  | productVersion
  | targetReleaseVersionInfo
  | deliveryOptimizationMode
  deriving DecidableEq

/-- The `snake_case` names of the fields. -/
def WindowsUpdateField.name : WindowsUpdateField → String
  | .useWsus => "use_wsus"
  | .wsusServer => "wsus_server"
  | .wsusStatusServer => "wsus_status_server"
  | .allowMicrosoftUpdate => "allow_microsoft_update"
  | .deferFeatureUpdates => "defer_feature_updates"
  | .deferFeatureDays => "defer_feature_days"
  | .deferQualityUpdates => "defer_quality_updates"
  | .deferQualityDays => "defer_quality_days"
  | .targetReleaseVersion => "target_release_version"
  | .productVersion => "product_version"
  | .targetReleaseVersionInfo => "target_release_version_info"
  | .deliveryOptimizationMode => "delivery_optimization_mode"

/-- The `Debug` names of the fields. -/
def WindowsUpdateField.debugName : WindowsUpdateField → String
  | .useWsus => "UseWsus"
  | .wsusServer => "WsusServer"
  | .wsusStatusServer => "WsusStatusServer"
  | .allowMicrosoftUpdate => "AllowMicrosoftUpdate"
  | .deferFeatureUpdates => "DeferFeatureUpdates"
  | .deferFeatureDays => "DeferFeatureDays"
  | .deferQualityUpdates => "DeferQualityUpdates"
  | .deferQualityDays => "DeferQualityDays"
  | .targetReleaseVersion => "TargetReleaseVersion"
  | .productVersion => "ProductVersion"
  | .targetReleaseVersionInfo => "TargetReleaseVersionInfo"
  | .deliveryOptimizationMode => "DeliveryOptimizationMode"

/-- All fields, in order: `WINDOWS_UPDATE_FIELDS` of `native_execution/action.rs` (lines 13–26). -/
def windowsUpdateFields : List WindowsUpdateField :=
  [.useWsus, .wsusServer, .wsusStatusServer, .allowMicrosoftUpdate, .deferFeatureUpdates,
   .deferFeatureDays, .deferQualityUpdates, .deferQualityDays, .targetReleaseVersion,
   .productVersion, .targetReleaseVersionInfo, .deliveryOptimizationMode]

theorem mem_windowsUpdateFields (f : WindowsUpdateField) : f ∈ windowsUpdateFields := by
  cases f <;> decide

theorem windowsUpdateFields_nodup : windowsUpdateFields.Nodup := by decide

instance : Fintype WindowsUpdateField where
  elems := windowsUpdateFields.toFinset
  complete f := List.mem_toFinset.mpr (mem_windowsUpdateFields f)

/-- `PolicyValueSnapshot` (`office_browser_policy.rs`, lines 20–27). -/
inductive PolicyValueSnapshot where
  | missing
  | dword (value : UInt32)
  | string (value : String)
  deriving DecidableEq

/-- `Serialize` of `PolicyValueSnapshot`: adjacently tagged with `status` and `value`. -/
def PolicyValueSnapshot.toValue : PolicyValueSnapshot → Value
  | .missing => .object [("status", .string "missing")]
  | .dword value => .object
    [("status", .string "dword"), ("value", .number (.posInt value.toUInt64))]
  | .string value => .object [("status", .string "string"), ("value", .string value)]

/-- `BTreeMap<WindowsUpdateField, PolicyValueSnapshot>`. -/
abbrev PolicyMap := WindowsUpdateField → Option PolicyValueSnapshot

namespace PolicyMap

/-- The empty map. -/
def empty : PolicyMap := fun _ => none

/-- `insert`. -/
def insert (m : PolicyMap) (f : WindowsUpdateField) (v : PolicyValueSnapshot) : PolicyMap :=
  Function.update m f (some v)

/-- The entries in the order of their keys. -/
def entries (m : PolicyMap) : List (WindowsUpdateField × PolicyValueSnapshot) :=
  windowsUpdateFields.filterMap fun f => (m f).map (Prod.mk f)

/-- `len`. -/
def len (m : PolicyMap) : ℕ := m.entries.length

theorem mem_entries {m : PolicyMap} {f : WindowsUpdateField} {v : PolicyValueSnapshot} :
    (f, v) ∈ m.entries ↔ m f = some v := by
  simp only [entries, List.mem_filterMap, Option.map_eq_some_iff, Prod.mk.injEq]
  constructor
  · rintro ⟨g, -, w, hw, rfl, rfl⟩
    exact hw
  · intro h
    exact ⟨f, mem_windowsUpdateFields f, v, h, rfl, rfl⟩

@[simp] theorem insert_self (m : PolicyMap) (f : WindowsUpdateField) (v : PolicyValueSnapshot) :
    m.insert f v f = some v := by
  simp [insert]

theorem insert_of_ne {m : PolicyMap} {f g : WindowsUpdateField} {v : PolicyValueSnapshot}
    (h : g ≠ f) : m.insert f v g = m g := by
  simp [insert, h]

end PolicyMap

/-- `WindowsUpdateObservation` (lines 46–49). -/
@[ext]
structure WindowsUpdateObservation where
  values : PolicyMap
  deriving DecidableEq

/-- `Serialize` of `WindowsUpdateObservation`. -/
def WindowsUpdateObservation.toValue (o : WindowsUpdateObservation) : Value :=
  .object [("values", .object (o.values.entries.map fun e => (e.1.name, e.2.toValue)))]

/-! ## Desired state -/

/-- `UpdateSource` (lines 90–96). -/
inductive UpdateSource where
  | wufb | wsus
  deriving DecidableEq

/-- `Deferrals` (lines 100–105). -/
structure Deferrals where
  featureDays : UInt16 := 30
  qualityDays : UInt8 := 7
  deriving DecidableEq

/-- `TargetRelease` (lines 117–124). -/
structure TargetRelease where
  enabled : Bool := false
  productVersion : String := "Windows 11"
  release : String := "24H2"
  deriving DecidableEq

/-- `DownloadMode` (lines 151–163). -/
inductive DownloadMode where
  | httpOnly | lan | group | internet | simple
  deriving DecidableEq

/-- `WindowsUpdateConfig` (lines 64–75), with the defaults of lines 76–86. -/
structure WindowsUpdateConfig where
  updateSource : UpdateSource := .wufb
  allowMicrosoftUpdate : Bool := true
  deferrals : Deferrals := {}
  targetRelease : TargetRelease := {}
  downloadMode : DownloadMode := .httpOnly
  deriving DecidableEq

/-- `WindowsUpdateParameters` (lines 54–59). -/
structure WindowsUpdateParameters where
  config : Option WindowsUpdateConfig := none
  desired : Option WindowsUpdateConfig := none

/-- `MAX_POLICY_STRING_BYTES` (line 11). -/
def maxPolicyStringBytes : ℕ := 128

/-- `valid_policy_string` (lines 234–236). -/
def validPolicyString (value : String) : Bool :=
  value ≠ "" && (utf8 value).length ≤ maxPolicyStringBytes && !value.toList.contains '\x00'

/-- `validate_deferrals` (lines 210–215). -/
def validateDeferrals (deferrals : Deferrals) : Except String Unit :=
  if deferrals.featureDays > 365 || deferrals.qualityDays > 35 then
    .error "Windows Update deferrals exceed the legacy allowlisted ranges"
  else .ok ()

/-- `validate_update_source` (lines 217–225). -/
def validateUpdateSource (source : UpdateSource) : Except String Unit :=
  if source ≠ .wufb then
    .error ("WSUS is excluded until bounded server identities and service evidence are " ++
      "implemented")
  else .ok ()

/-- `validate_target_release` (lines 227–232). -/
def validateTargetRelease (target : TargetRelease) : Except String Unit :=
  if !validPolicyString target.productVersion || !validPolicyString target.release then
    .error "target release strings must be bounded non-empty strings without NUL"
  else .ok ()

/-- `resolve_desired_state` (lines 196–208). -/
def resolveDesiredState (parameters : WindowsUpdateParameters) :
    Except String WindowsUpdateConfig := do
  let desired := (parameters.desired.or parameters.config).getD {}
  validateDeferrals desired.deferrals
  validateUpdateSource desired.updateSource
  validateTargetRelease desired.targetRelease
  return desired

/-! ## The plan -/

/-- `download_mode_value` (lines 324–332). -/
def downloadModeValue : DownloadMode → UInt32
  | .httpOnly => 0
  | .lan => 1
  | .group => 2
  | .internet => 3
  | .simple => 99

/-- `insert_target_release` (lines 308–322). -/
def insertTargetRelease (expected : PolicyMap) (target : TargetRelease) : PolicyMap :=
  let product := if target.enabled then some target.productVersion else none
  let release := if target.enabled then some target.release else none
  let expected := expected.insert .productVersion (product.elim .missing .string)
  expected.insert .targetReleaseVersionInfo (release.elim .missing .string)

/-- `u32::from` of a boolean. -/
def boolValue (b : Bool) : UInt32 := if b then 1 else 0

/-- `expected_values` (lines 262–306). -/
def expectedValues (desired : WindowsUpdateConfig) : PolicyMap :=
  let useWsus := desired.updateSource == .wsus
  let expected := PolicyMap.empty.insert .useWsus (.dword (boolValue useWsus))
  let expected := expected.insert .deferFeatureUpdates (.dword 1)
  let expected := expected.insert .deferFeatureDays
    (.dword desired.deferrals.featureDays.toUInt32)
  let expected := expected.insert .deferQualityUpdates (.dword 1)
  let expected := expected.insert .deferQualityDays
    (.dword desired.deferrals.qualityDays.toUInt32)
  let expected := expected.insert .targetReleaseVersion
    (.dword (boolValue desired.targetRelease.enabled))
  let expected := insertTargetRelease expected desired.targetRelease
  let expected := expected.insert .deliveryOptimizationMode
    (.dword (downloadModeValue desired.downloadMode))
  if !useWsus then
    (expected.insert .wsusServer .missing).insert .wsusStatusServer .missing
  else expected

/-- `WindowsUpdateMutation` (lines 168–173). -/
structure WindowsUpdateMutation where
  field : WindowsUpdateField
  desired : PolicyValueSnapshot
  deriving DecidableEq

/-- `WindowsUpdatePlan` (lines 177–190). -/
structure WindowsUpdatePlan where
  observation : WindowsUpdateObservation
  desired : WindowsUpdateConfig
  mutations : List WindowsUpdateMutation
  rollback : WindowsUpdateObservation
  requiresAdministrator : Bool
  rebootPossible : Bool
  deriving DecidableEq

/-- `build_plan` (lines 240–260). -/
def buildPlan (observation : WindowsUpdateObservation) (desired : WindowsUpdateConfig) :
    WindowsUpdatePlan where
  rollback := observation
  observation := observation
  desired := desired
  mutations := (expectedValues desired).entries.filterMap fun e =>
    if observation.values e.1 ≠ some e.2 then some ⟨e.1, e.2⟩ else none
  requiresAdministrator := true
  rebootPossible := true

/-! ## Properties of a plan -/

variable {observation : WindowsUpdateObservation} {desired : WindowsUpdateConfig}

/-- The plan changes the fields whose observed value is not the expected one. -/
theorem mem_mutations_iff {m : WindowsUpdateMutation} :
    m ∈ (buildPlan observation desired).mutations ↔
      expectedValues desired m.field = some m.desired ∧
        observation.values m.field ≠ some m.desired := by
  simp only [buildPlan, List.mem_filterMap]
  constructor
  · rintro ⟨⟨f, v⟩, hmem, hm⟩
    rw [PolicyMap.mem_entries] at hmem
    split at hm
    · rename_i hne
      cases hm
      exact ⟨hmem, hne⟩
    · cases hm
  · rintro ⟨hexp, hobs⟩
    refine ⟨(m.field, m.desired), PolicyMap.mem_entries.mpr hexp, ?_⟩
    rw [if_pos hobs]

theorem entries_keys_nodup (m : PolicyMap) : (m.entries.map Prod.fst).Nodup := by
  have hsub : (m.entries.map Prod.fst).Sublist windowsUpdateFields := by
    unfold PolicyMap.entries
    induction windowsUpdateFields with
    | nil => simp
    | cons f fs ih =>
      cases hf : m f with
      | none => simpa [hf] using ih.cons f
      | some v => simpa [hf] using ih
  exact hsub.nodup windowsUpdateFields_nodup

/-- No field is changed twice. -/
theorem mutations_fields_nodup :
    ((buildPlan observation desired).mutations.map WindowsUpdateMutation.field).Nodup := by
  have hsub : ((buildPlan observation desired).mutations.map
      WindowsUpdateMutation.field).Sublist ((expectedValues desired).entries.map Prod.fst) := by
    simp only [buildPlan]
    induction (expectedValues desired).entries with
    | nil => simp
    | cons e es ih =>
      by_cases he : observation.values e.1 ≠ some e.2
      · simpa [he] using ih
      · simpa [he] using ih.cons e.1
  exact hsub.nodup (entries_keys_nodup _)

end BaselineOps.Capabilities
