import Mathlib
import BaselineOps.Domain.Plan
import BaselineOps.Domain.Canonical
import BaselineOps.Lib.EState

/-!
# Security Options audit and plan

Model of `security_options_policy.rs` and of `security_options` in `semantic_plan.rs` (lines 242–248 and
280–294). A `BTreeMap` keyed by the six fields is a function, iterated in the order of the fields; the
typed decoders of `serde_json` are functions.

* `auditAndPlan_agree_iff`: audit and plan agree when the evidence of `EnableLua` is present. An
  `EnableLua` that is missing or unreadable is proposed, and the reboot flag stays false.
-/

namespace BaselineOps.Capabilities

open BaselineOps.Domain BaselineOps.Lib

/-! ## Types -/

/-- `SecurityOptionsField` (lines 16–29), in the order of its `Ord`. -/
inductive SecurityOptionsField where
  | enableLua
  | lmCompatibilityLevel
  | noLmHash
  | restrictAnonymous
  | restrictAnonymousSam
  | limitBlankPasswordUse
  deriving DecidableEq

/-- All fields, in order. -/
def securityOptionsFields : List SecurityOptionsField :=
  [.enableLua, .lmCompatibilityLevel, .noLmHash, .restrictAnonymous, .restrictAnonymousSam,
   .limitBlankPasswordUse]

/-- `{:?}` of a field. -/
def SecurityOptionsField.debug : SecurityOptionsField → String
  | .enableLua => "EnableLua"
  | .lmCompatibilityLevel => "LmCompatibilityLevel"
  | .noLmHash => "NoLmHash"
  | .restrictAnonymous => "RestrictAnonymous"
  | .restrictAnonymousSam => "RestrictAnonymousSam"
  | .limitBlankPasswordUse => "LimitBlankPasswordUse"

/-- The `snake_case` names of the fields. -/
def SecurityOptionsField.name : SecurityOptionsField → String
  | .enableLua => "enable_lua"
  | .lmCompatibilityLevel => "lm_compatibility_level"
  | .noLmHash => "no_lm_hash"
  | .restrictAnonymous => "restrict_anonymous"
  | .restrictAnonymousSam => "restrict_anonymous_sam"
  | .limitBlankPasswordUse => "limit_blank_password_use"

/-- `SecurityOptionEvidence` (lines 39–48). -/
inductive SecurityOptionEvidence where
  | present (value : UInt32)
  | missing
  | accessDenied
  | error
  deriving DecidableEq

/-- `json!` of a DWORD. -/
def dwordValue (value : UInt32) : Value := .number (.posInt value.toUInt64)

/-- `Serialize` of `SecurityOptionEvidence`: adjacently tagged with `status` and `value`. -/
def SecurityOptionEvidence.toValue : SecurityOptionEvidence → Value
  | .present value => .object [("status", .string "present"), ("value", dwordValue value)]
  | .missing => .object [("status", .string "missing")]
  | .accessDenied => .object [("status", .string "access_denied")]
  | .error => .object [("status", .string "error")]

/-- `SecurityOptionsObservation` (lines 53–56). -/
structure SecurityOptionsObservation where
  values : SecurityOptionsField → Option SecurityOptionEvidence

/-- `Enabled` (lines 61–67). -/
inductive Enabled where
  | disabled | enabled

/-- `Enabled::dword` (lines 70–75). -/
def Enabled.dword : Enabled → UInt32
  | .disabled => 0
  | .enabled => 1

/-- `LmCompatibilityLevel` (lines 81–95). -/
inductive LmCompatibilityLevel where
  | sendLmAndNtlm
  | sendLmAndNtlmWithNtlmV2SessionSecurity
  | sendNtlmOnly
  | sendNtlmV2Only
  | sendNtlmV2RefuseLm
  | sendNtlmV2RefuseLmAndNtlm

/-- `LmCompatibilityLevel::dword` (lines 98–107). -/
def LmCompatibilityLevel.dword : LmCompatibilityLevel → UInt32
  | .sendLmAndNtlm => 0
  | .sendLmAndNtlmWithNtlmV2SessionSecurity => 1
  | .sendNtlmOnly => 2
  | .sendNtlmV2Only => 3
  | .sendNtlmV2RefuseLm => 4
  | .sendNtlmV2RefuseLmAndNtlm => 5

/-- `AnonymousRestriction` (lines 113–121). -/
inductive AnonymousRestriction where
  | none | noAnonymousSam | noAnonymousSamOrShares

/-- `AnonymousRestriction::dword` (lines 124–130). -/
def AnonymousRestriction.dword : AnonymousRestriction → UInt32
  | .none => 0
  | .noAnonymousSam => 1
  | .noAnonymousSamOrShares => 2

/-- `SecurityOptionsPolicy` (lines 136–149), with the defaults of lines 151–162. -/
structure SecurityOptionsPolicy where
  enableLua : Enabled := .enabled
  lmCompatibilityLevel : LmCompatibilityLevel := .sendNtlmV2Only
  noLmHash : Enabled := .enabled
  restrictAnonymous : AnonymousRestriction := .noAnonymousSam
  restrictAnonymousSam : Enabled := .enabled
  limitBlankPasswordUse : Enabled := .enabled

/-- `PolicyFinding` (`audit_policy.rs`, lines 11–22). -/
structure PolicyFinding where
  code : String
  status : FindingStatus
  severity : Severity
  message : String
  evidence : JsonMap

/-- `SecurityOptionsDrift` (lines 167–174). -/
structure SecurityOptionsDrift where
  field : SecurityOptionsField
  observed : SecurityOptionEvidence
  desired : UInt32

/-- `SecurityOptionsAudit` (lines 179–188). -/
structure SecurityOptionsAudit where
  observation : SecurityOptionsObservation
  desired : SecurityOptionsField → UInt32
  findings : List PolicyFinding
  rebootOrLogoffRequiredIfEnableLuaChanged : Bool

/-- `SecurityOptionsPlan` (lines 193–204). -/
structure SecurityOptionsPlan where
  audit : SecurityOptionsAudit
  proposedChanges : List SecurityOptionsDrift
  requiresAdministrator : Bool
  applyAvailable : Bool
  exclusions : List String

/-! ## Audit -/

/-- `desired_values` (lines 337–358). -/
def desiredValues (policy : SecurityOptionsPolicy) : SecurityOptionsField → UInt32
  | .enableLua => policy.enableLua.dword
  | .lmCompatibilityLevel => policy.lmCompatibilityLevel.dword
  | .noLmHash => policy.noLmHash.dword
  | .restrictAnonymous => policy.restrictAnonymous.dword
  | .restrictAnonymousSam => policy.restrictAnonymousSam.dword
  | .limitBlankPasswordUse => policy.limitBlankPasswordUse.dword

/-- `{}` of a DWORD. -/
def dwordText (value : UInt32) : String := Nat.repr value.toNat

/-- `field_outcome` (lines 253–299): code, status, severity, message and the reboot flag. -/
def fieldOutcome (field : SecurityOptionsField) (wanted : UInt32) (evidence : SecurityOptionEvidence) :
    String × FindingStatus × Severity × String × Bool :=
  match evidence with
  | .present actual =>
    if actual = wanted then
      ("SECOPT-Compliant", .pass, .low,
        field.debug ++ " matches its fixed desired value " ++ dwordText wanted ++ ".", false)
    else
      ("SECOPT-Drift", .fail, .high,
        field.debug ++ " is " ++ dwordText actual ++ ", expected " ++ dwordText wanted ++ ".",
        field = .enableLua)
  | .missing =>
    ("SECOPT-Missing", .warning, .medium,
      field.debug ++ " is not configured or its fixed key is absent.", false)
  | .accessDenied =>
    ("SECOPT-AccessDenied", .error, .high,
      "Windows denied read access to " ++ field.debug ++ ".", false)
  | .error =>
    ("SECOPT-ObservationError", .error, .high,
      field.debug ++ " could not be read as its required DWORD type.", false)

/-- The `evidence` of a finding. -/
def findingEvidence (field : SecurityOptionsField) (wanted : UInt32)
    (evidence : SecurityOptionEvidence) : JsonMap where
  entries := [("desired", dwordValue wanted), ("field", .string field.name),
    ("observed", evidence.toValue)]
  sorted := (List.pairwise_map (f := Prod.fst)).mp
    (show ["desired", "field", "observed"].Pairwise (· < ·) by decide +kernel)

/-- `evaluate_field` (lines 231–251). -/
def evaluateField (field : SecurityOptionsField) (wanted : UInt32) (evidence : SecurityOptionEvidence) :
    PolicyFinding × Bool :=
  let (code, status, severity, message, luaChanged) := fieldOutcome field wanted evidence
  (⟨code, status, severity, message, findingEvidence field wanted evidence⟩, luaChanged)

/-- The evidence of a field: without an entry it is missing. -/
def SecurityOptionsObservation.evidence (observation : SecurityOptionsObservation)
    (field : SecurityOptionsField) : SecurityOptionEvidence :=
  (observation.values field).getD .missing

/-- `evaluate_security_options` (lines 207–229). -/
def evaluateSecurityOptions (observation : SecurityOptionsObservation) (policy : SecurityOptionsPolicy) :
    SecurityOptionsAudit :=
  let desired := desiredValues policy
  let state := securityOptionsFields.foldl (fun (state : List PolicyFinding × Bool) field =>
    let (finding, luaChanged) := evaluateField field (desired field) (observation.evidence field)
    (state.1 ++ [finding], state.2 || luaChanged)) ([], false)
  ⟨observation, desired, state.1, state.2⟩

/-! ## Plan -/

/-- `build_security_options_plan` (lines 302–335). -/
def buildSecurityOptionsPlan (observation : SecurityOptionsObservation)
    (policy : SecurityOptionsPolicy) : SecurityOptionsPlan :=
  let audit := evaluateSecurityOptions observation policy
  { audit := audit
    proposedChanges := securityOptionsFields.filterMap fun field =>
      let observed := audit.observation.evidence field
      if observed ≠ .present (audit.desired field) then some ⟨field, observed, audit.desired field⟩
      else none
    requiresAdministrator := true
    applyAvailable := false
    exclusions :=
      ["legacy DesiredJson paths, value names, and registry types are not v3 authority",
       "raw registry writes and arbitrary remediation are unavailable"] }

/-- `Value::get` of a name. -/
def Value.get (value : Value) (name : String) : Option Value :=
  match value with
  | .object members => (members.find? fun member => member.1 = name).map Prod.snd
  | _ => none

section Planner

variable (decodeObservation : Value → Except String SecurityOptionsObservation)
  (decodePolicy : Value → Except String SecurityOptionsPolicy)

/-- `observation` (`semantic_plan.rs`, lines 242–248). -/
def observation (value : Value) : Except String SecurityOptionsObservation :=
  match Value.get value "observation" with
  | none => .error "captured native observation is absent"
  | some value => decodeObservation value

/-- Evidence that the planner accepts. -/
def readable : Option SecurityOptionEvidence → Bool
  | some (.present _) | some .missing => true
  | _ => false

/-- `security_options` (lines 280–294). -/
def securityOptions (parameters observed : Value) : Except String SecurityOptionsPlan := do
  let observation ← observation decodeObservation observed
  let policy ← decodePolicy parameters
  let plan := buildSecurityOptionsPlan observation policy
  failIf (securityOptionsFields.any fun field => !readable (plan.audit.observation.values field))
    "Security Options snapshot has missing or unreadable evidence"
  return plan

end Planner

/-! ## What agreement means -/

/-- The proposed values are written: each change replaces the evidence of its field. -/
def override (observation : SecurityOptionsObservation) (changes : List SecurityOptionsDrift) :
    SecurityOptionsObservation :=
  changes.foldl (fun observation change =>
    ⟨Function.update observation.values change.field (some (.present change.desired))⟩) observation

/-- Audit and plan agree on an observation: the changes are for the fields whose finding does not pass,
    the reboot flag is that of a change to `EnableLua`, nothing is left once they are made, and the planner
    refuses exactly the evidence that is not in the snapshot or not readable. -/
structure AuditAndPlanAgree (decodeObservation : Value → Except String SecurityOptionsObservation)
    (decodePolicy : Value → Except String SecurityOptionsPolicy)
    (snapshot : SecurityOptionsObservation) (policy : SecurityOptionsPolicy) : Prop where
  changes : (buildSecurityOptionsPlan snapshot policy).proposedChanges.map (·.field) =
    ((securityOptionsFields.zip (buildSecurityOptionsPlan snapshot policy).audit.findings).filter
      fun entry => entry.2.status ≠ .pass).map Prod.fst
  reboot : (buildSecurityOptionsPlan snapshot policy).audit.rebootOrLogoffRequiredIfEnableLuaChanged =
      true ↔
    .enableLua ∈ (buildSecurityOptionsPlan snapshot policy).proposedChanges.map (·.field)
  converges : (buildSecurityOptionsPlan
      (override snapshot (buildSecurityOptionsPlan snapshot policy).proposedChanges)
      policy).proposedChanges = []
  cleared : (buildSecurityOptionsPlan
      (override snapshot (buildSecurityOptionsPlan snapshot policy).proposedChanges)
      policy).audit.rebootOrLogoffRequiredIfEnableLuaChanged = false
  planner : ∀ parameters observed, observation decodeObservation observed = .ok snapshot →
    decodePolicy parameters = .ok policy →
      ((∃ plan, securityOptions decodeObservation decodePolicy parameters observed = .ok plan) ↔
        ∀ field, (∃ value, snapshot.values field = some (.present value)) ∨
          snapshot.values field = some .missing)

variable {decodeObservation : Value → Except String SecurityOptionsObservation}
  {decodePolicy : Value → Except String SecurityOptionsPolicy}
  {snapshot : SecurityOptionsObservation} {policy : SecurityOptionsPolicy}

theorem mem_securityOptionsFields (field : SecurityOptionsField) : field ∈ securityOptionsFields := by
  cases field <;> decide

/-! ### The audit -/

/-- The loop evaluates the fields one after another. -/
theorem evaluate_foldl (desired : SecurityOptionsField → UInt32)
    (evidence : SecurityOptionsField → SecurityOptionEvidence) (fields : List SecurityOptionsField)
    (findings : List PolicyFinding) (changed : Bool) :
    fields.foldl (fun (state : List PolicyFinding × Bool) field =>
      let (finding, luaChanged) := evaluateField field (desired field) (evidence field)
      (state.1 ++ [finding], state.2 || luaChanged)) (findings, changed) =
    (findings ++ fields.map fun field => (evaluateField field (desired field) (evidence field)).1,
      changed || fields.any fun field => (evaluateField field (desired field) (evidence field)).2) := by
  induction fields generalizing findings changed with
  | nil => simp
  | cons field fields ih =>
    rw [List.foldl_cons, ih]
    simp [Bool.or_assoc]

theorem audit_findings : (buildSecurityOptionsPlan snapshot policy).audit.findings =
    securityOptionsFields.map fun field =>
      (evaluateField field (desiredValues policy field) (snapshot.evidence field)).1 := by
  simp only [buildSecurityOptionsPlan, evaluateSecurityOptions, evaluate_foldl, List.nil_append]

theorem status_pass_iff {field : SecurityOptionsField} {wanted : UInt32}
    {evidence : SecurityOptionEvidence} :
    (evaluateField field wanted evidence).1.status = .pass ↔ evidence = .present wanted := by
  cases evidence with
  | present actual =>
    by_cases h : actual = wanted
    · simp [evaluateField, fieldOutcome, h]
    · simp [evaluateField, fieldOutcome, h]
  | missing | accessDenied | error => simp [evaluateField, fieldOutcome]

theorem luaChanged_iff {field : SecurityOptionsField} {wanted : UInt32}
    {evidence : SecurityOptionEvidence} :
    (evaluateField field wanted evidence).2 = true ↔
      field = .enableLua ∧ ∃ actual, evidence = .present actual ∧ actual ≠ wanted := by
  cases evidence with
  | present actual =>
    by_cases h : actual = wanted
    · simp [evaluateField, fieldOutcome, h]
    · simp [evaluateField, fieldOutcome, h]
  | missing | accessDenied | error => simp [evaluateField, fieldOutcome]

/-- The reboot flag is about a present `EnableLua` with another value. -/
theorem audit_reboot_iff :
    (buildSecurityOptionsPlan snapshot policy).audit.rebootOrLogoffRequiredIfEnableLuaChanged = true ↔
      ∃ actual, snapshot.evidence .enableLua = .present actual ∧
        actual ≠ desiredValues policy .enableLua := by
  simp only [buildSecurityOptionsPlan, evaluateSecurityOptions, evaluate_foldl, Bool.false_or,
    List.any_eq_true, luaChanged_iff]
  constructor
  · rintro ⟨_, -, rfl, hactual⟩
    exact hactual
  · intro hactual
    exact ⟨.enableLua, mem_securityOptionsFields _, rfl, hactual⟩

/-! ### The plan -/

theorem proposedChanges_eq : (buildSecurityOptionsPlan snapshot policy).proposedChanges =
    securityOptionsFields.filterMap fun field =>
      if snapshot.evidence field ≠ .present (desiredValues policy field) then
        some ⟨field, snapshot.evidence field, desiredValues policy field⟩
      else none := rfl

theorem proposed_fields :
    (buildSecurityOptionsPlan snapshot policy).proposedChanges.map (·.field) =
      securityOptionsFields.filter fun field =>
        snapshot.evidence field ≠ .present (desiredValues policy field) := by
  rw [proposedChanges_eq]
  induction securityOptionsFields with
  | nil => rfl
  | cons field fields ih =>
    by_cases h : snapshot.evidence field ≠ .present (desiredValues policy field)
    · rw [List.filterMap_cons, if_pos h]
      simp only
      rw [List.map_cons, ih, List.filter_cons, if_pos (decide_eq_true h)]
    · rw [List.filterMap_cons, if_neg h]
      simp only
      rw [ih, List.filter_cons, if_neg (by rwa [decide_eq_true_eq])]

theorem mem_proposed_iff {field : SecurityOptionsField} :
    field ∈ (buildSecurityOptionsPlan snapshot policy).proposedChanges.map (·.field) ↔
      snapshot.evidence field ≠ .present (desiredValues policy field) := by
  rw [proposed_fields, List.mem_filter]
  simp [mem_securityOptionsFields]

theorem proposed_desired {change : SecurityOptionsDrift}
    (h : change ∈ (buildSecurityOptionsPlan snapshot policy).proposedChanges) :
    change.desired = desiredValues policy change.field := by
  rw [proposedChanges_eq, List.mem_filterMap] at h
  obtain ⟨field, -, h⟩ := h
  by_cases hne : snapshot.evidence field ≠ .present (desiredValues policy field)
  · rw [if_pos hne] at h
    cases h
    rfl
  · rw [if_neg hne] at h
    cases h

/-- What is overridden has the value of its change. -/
theorem override_values {changes : List SecurityOptionsDrift} (desired : SecurityOptionsField → UInt32)
    (hdesired : ∀ change ∈ changes, change.desired = desired change.field)
    (field : SecurityOptionsField) :
    (override snapshot changes).values field =
      if field ∈ changes.map (·.field) then some (.present (desired field)) else snapshot.values field := by
  induction changes generalizing snapshot with
  | nil => simp [override]
  | cons change changes ih =>
    have hcons : override snapshot (change :: changes) = override
      ⟨Function.update snapshot.values change.field (some (.present change.desired))⟩ changes := rfl
    rw [hcons, ih fun other hother => hdesired other (List.mem_cons_of_mem _ hother)]
    by_cases hrest : field ∈ changes.map (·.field)
    · simp [hrest]
    · by_cases hfield : field = change.field
      · subst hfield
        simp [hrest, hdesired change List.mem_cons_self]
      · simp [hrest, hfield, Function.update_of_ne]

/-- Once the changes are made, every field is as desired. -/
theorem evidence_override (field : SecurityOptionsField) :
    (override snapshot (buildSecurityOptionsPlan snapshot policy).proposedChanges).evidence field =
      .present (desiredValues policy field) := by
  rw [SecurityOptionsObservation.evidence,
    override_values (desiredValues policy) (fun _ h => proposed_desired h)]
  split_ifs with hmem
  · rfl
  · rw [mem_proposed_iff, not_not] at hmem
    exact hmem

/-! ### The planner -/

theorem readable_iff {evidence : Option SecurityOptionEvidence} :
    readable evidence = true ↔
      (∃ value, evidence = some (.present value)) ∨ evidence = some .missing := by
  match evidence with
  | some (.present value) => exact ⟨fun _ => .inl ⟨value, rfl⟩, fun _ => rfl⟩
  | some .missing => exact ⟨fun _ => .inr rfl, fun _ => rfl⟩
  | none | some .accessDenied | some .error =>
    constructor
    · intro h
      cases h
    · rintro (⟨value, h⟩ | h)
      · cases h
      · cases h

theorem securityOptions_ok_iff {parameters observed : Value}
    (hobserved : observation decodeObservation observed = .ok snapshot)
    (hpolicy : decodePolicy parameters = .ok policy) :
    (∃ plan, securityOptions decodeObservation decodePolicy parameters observed = .ok plan) ↔
      ∀ field, (∃ value, snapshot.values field = some (.present value)) ∨
        snapshot.values field = some .missing := by
  have hplan : securityOptions decodeObservation decodePolicy parameters observed =
      (do
        failIf (securityOptionsFields.any fun field => !readable (snapshot.values field))
          "Security Options snapshot has missing or unreadable evidence"
        return buildSecurityOptionsPlan snapshot policy) := by
    rw [securityOptions, hobserved, hpolicy]
    rfl
  rw [hplan]
  simp only [except_bind_ok_iff, failIf_ok_iff, List.any_eq_true, not_exists, not_and,
    Bool.not_eq_true', Bool.not_eq_false, ← readable_iff]
  constructor
  · rintro ⟨_, _, hreadable, -⟩ field
    exact hreadable field (mem_securityOptionsFields field)
  · intro hreadable
    exact ⟨_, (), fun field _ => hreadable field, rfl⟩

/-- Audit and plan agree when `EnableLua` is present in the observation, and on no other observation. -/
theorem auditAndPlan_agree_iff
    (decodeObservation : Value → Except String SecurityOptionsObservation)
    (decodePolicy : Value → Except String SecurityOptionsPolicy)
    (snapshot : SecurityOptionsObservation) (policy : SecurityOptionsPolicy) :
    AuditAndPlanAgree decodeObservation decodePolicy snapshot policy ↔
      ∃ value, snapshot.values .enableLua = some (.present value) := by
  constructor
  · intro h
    have hreboot := h.reboot
    rw [audit_reboot_iff, mem_proposed_iff] at hreboot
    -- Either the evidence is the desired value, or the flag asks for another present one.
    have hpresent : ∃ value, snapshot.evidence .enableLua = .present value := by
      by_cases hdesired : snapshot.evidence .enableLua = .present (desiredValues policy .enableLua)
      · exact ⟨_, hdesired⟩
      · obtain ⟨value, hvalue, -⟩ := hreboot.mpr hdesired
        exact ⟨value, hvalue⟩
    obtain ⟨value, hvalue⟩ := hpresent
    rw [SecurityOptionsObservation.evidence] at hvalue
    cases hentry : snapshot.values .enableLua with
    | none =>
      rw [hentry] at hvalue
      cases hvalue
    | some evidence =>
      rw [hentry] at hvalue
      exact ⟨value, congrArg some hvalue⟩
  · rintro ⟨value, hvalue⟩
    refine ⟨?_, ?_, ?_, ?_, fun _ _ => securityOptions_ok_iff⟩
    · rw [proposed_fields, audit_findings]
      induction securityOptionsFields with
      | nil => rfl
      | cons field fields ih =>
        rw [List.map_cons, List.zip_cons_cons, List.filter_cons, List.filter_cons]
        simp only [ne_eq, status_pass_iff]
        split_ifs with h
        · rw [List.map_cons, ← ih]
        · rw [← ih]
    · rw [audit_reboot_iff, mem_proposed_iff, SecurityOptionsObservation.evidence, hvalue]
      simp
    · rw [← List.map_eq_nil_iff (f := (·.field)), proposed_fields, List.filter_eq_nil_iff]
      intro field _
      simp [evidence_override]
    · rw [← Bool.not_eq_true, audit_reboot_iff, evidence_override]
      simp

/-- Nothing observed: `EnableLua` is to be changed, and no reboot is announced. -/
theorem auditAndPlan_disagree_missing :
    ¬ ∀ decodeObservation decodePolicy snapshot policy,
      AuditAndPlanAgree decodeObservation decodePolicy snapshot policy := by
  intro h
  have hempty := (h (fun _ => .error "") (fun _ => .error "") ⟨fun _ => none⟩ {}).reboot
  revert hempty
  decide

end BaselineOps.Capabilities
