import Mathlib
import BaselineOps.Execution.Trace
import BaselineOps.WindowsUpdate.Mutation

/-!
# The Windows Update planner, the engine and the adapter agree

`build_plan` of the capability, `validate_plan` of the engine (`native_execution/action.rs`, lines
150–189) and `validate_request` of the adapter each know the fields and their values.

* `mutations_eq_nil_iff`: nothing is planned exactly when every expected value is observed.
* `expectedPostState_values`: the post-state of a plan, field by field.
* `expectedValues_valid`: the adapter accepts every value of an accepted configuration.
* `windowsUpdate_planner_laws`: the laws of the planner for every observation.
-/

namespace BaselineOps.WindowsUpdate

open BaselineOps.Capabilities BaselineOps.Domain BaselineOps.Engine BaselineOps.Lib

variable {observation : WindowsUpdateObservation} {desired : WindowsUpdateConfig}

/-! ## Mutations -/

/-- The mutated fields come in the order of the fields. -/
theorem mutations_fields_sublist :
    ((buildPlan observation desired).mutations.map WindowsUpdateMutation.field).Sublist
      windowsUpdateFields := by
  have hkeys : ((expectedValues desired).entries.map Prod.fst).Sublist windowsUpdateFields := by
    unfold PolicyMap.entries
    induction windowsUpdateFields with
    | nil => simp
    | cons f fs ih =>
      cases hf : expectedValues desired f with
      | none => simpa [hf] using ih.cons f
      | some v => simpa [hf] using ih
  refine List.Sublist.trans ?_ hkeys
  simp only [Capabilities.buildPlan]
  induction (expectedValues desired).entries with
  | nil => simp
  | cons e es ih =>
    by_cases he : observation.values e.1 ≠ some e.2
    · simpa [he] using ih
    · simpa [he] using ih.cons e.1

/-- The observation-only field is never expected. -/
theorem expectedValues_allowMicrosoftUpdate (desired : WindowsUpdateConfig) :
    expectedValues desired .allowMicrosoftUpdate = none := by
  unfold expectedValues insertTargetRelease
  cases desired.updateSource == .wsus <;>
    simp [PolicyMap.insert, PolicyMap.empty, Function.update]

theorem mutations_eq_nil_iff :
    (buildPlan observation desired).mutations = [] ↔
      ∀ f v, expectedValues desired f = some v → observation.values f = some v := by
  rw [List.eq_nil_iff_forall_not_mem]
  constructor
  · intro h f v hexpected
    by_contra hobserved
    exact h ⟨f, v⟩ (mem_mutations_iff.mpr ⟨hexpected, hobserved⟩)
  · intro h m hm
    obtain ⟨hexpected, hobserved⟩ := mem_mutations_iff.mp hm
    exact hobserved (h m.field m.desired hexpected)

/-! ## The post-state -/

/-- Inserting along a list without repeated fields. -/
theorem foldl_insert {mutations : List WindowsUpdateMutation}
    (hnodup : (mutations.map WindowsUpdateMutation.field).Nodup) (values : PolicyMap)
    (f : WindowsUpdateField) :
    mutations.foldl (fun values m => values.insert m.field m.desired) values f =
      ((mutations.find? fun m => m.field = f).map WindowsUpdateMutation.desired).or (values f) := by
  induction mutations generalizing values with
  | nil => rfl
  | cons m mutations ih =>
    obtain ⟨hnot, hnodup⟩ := List.nodup_cons.mp hnodup
    rw [List.foldl_cons, ih hnodup, List.find?_cons]
    by_cases hf : m.field = f
    · have hnone : (mutations.find? fun m => m.field = f) = none := by
        rw [List.find?_eq_none]
        intro m' hm' hfield
        have hfield : m'.field = f := by simpa using hfield
        exact hnot (hf ▸ hfield ▸ List.mem_map_of_mem hm')
      subst hf
      simp [hnone]
    · simp [hf, PolicyMap.insert_of_ne (Ne.symm hf)]

theorem expectedPostState_values (f : WindowsUpdateField) :
    (expectedPostState (buildPlan observation desired)).values f =
      (((buildPlan observation desired).mutations.find? fun m => m.field = f).map
        WindowsUpdateMutation.desired).or (observation.values f) :=
  foldl_insert mutations_fields_nodup observation.values f

/-- Behind the plan every expected value is in place. -/
theorem expectedPostState_expected {f : WindowsUpdateField} {v : PolicyValueSnapshot}
    (hexpected : expectedValues desired f = some v) :
    (expectedPostState (buildPlan observation desired)).values f = some v := by
  rw [expectedPostState_values]
  cases hfind : (buildPlan observation desired).mutations.find? fun m => m.field = f with
  | none =>
    rw [List.find?_eq_none] at hfind
    by_contra hobserved
    exact hfind ⟨f, v⟩ (mem_mutations_iff.mpr ⟨hexpected, hobserved⟩) (by simp)
  | some m =>
    have hm := (mem_mutations_iff.mp (List.mem_of_find?_eq_some hfind)).1
    have hfield : m.field = f := by simpa using List.find?_some hfind
    rw [hfield, hexpected] at hm
    exact hm.symm

/-! ## Accepted configurations -/

/-- What `resolve_desired_state` checks. -/
structure Accepted (desired : WindowsUpdateConfig) : Prop where
  featureDays : desired.deferrals.featureDays ≤ 365
  qualityDays : desired.deferrals.qualityDays ≤ 35
  updateSource : desired.updateSource = .wufb
  productVersion : validPolicyString desired.targetRelease.productVersion = true
  release : validPolicyString desired.targetRelease.release = true

theorem accepted_of_resolved {parameters : WindowsUpdateParameters}
    (h : resolveDesiredState parameters = .ok desired) : Accepted desired := by
  have hsame := resolveDesiredState_ok h
  simp only [resolveDesiredState, except_bind_ok_iff] at h
  obtain ⟨_, hdeferrals, _, hsource, _, htarget, _⟩ := h
  rw [← hsame] at hdeferrals hsource htarget
  unfold validateDeferrals at hdeferrals
  unfold validateUpdateSource at hsource
  unfold validateTargetRelease at htarget
  split_ifs at hdeferrals hsource htarget with hd hs ht
  simp only [Bool.or_eq_true, decide_eq_true_eq, not_or] at hd
  simp only [Bool.or_eq_true, not_or, Bool.not_eq_true', Bool.not_eq_false] at ht
  exact ⟨UInt16.not_lt.mp hd.1, UInt8.not_lt.mp hd.2, not_not.mp hs, ht.1, ht.2⟩

theorem Accepted.resolves (h : Accepted desired) :
    resolveDesiredState { config := none, desired := some desired } = .ok desired := by
  have hdeferrals : validateDeferrals desired.deferrals = .ok () := by
    apply if_neg
    simp only [Bool.or_eq_true, decide_eq_true_eq, not_or]
    exact ⟨UInt16.not_lt.mpr h.featureDays, UInt8.not_lt.mpr h.qualityDays⟩
  have hsource : validateUpdateSource desired.updateSource = .ok () :=
    if_neg (not_not.mpr h.updateSource)
  have htarget : validateTargetRelease desired.targetRelease = .ok () := by
    apply if_neg
    simp [h.productVersion, h.release]
  simp only [resolveDesiredState, except_bind_ok_iff]
  exact ⟨(), hdeferrals, (), hsource, (), htarget, rfl⟩

/-! ## The adapter -/

theorem validateString_ok {value : String} (h : validPolicyString value = true) :
    validateString value = .ok () := by
  unfold validPolicyString at h
  simp only [Bool.and_eq_true, decide_eq_true_eq, Bool.not_eq_true', List.contains_eq_mem,
    decide_eq_false_iff_not] at h
  rw [validateString, failIf_ok_iff, not_or]
  exact ⟨Nat.not_lt.mpr h.1.2, h.2⟩

/-- The values of an accepted configuration, field by field. -/
theorem expectedValues_table (h : Accepted desired) (f : WindowsUpdateField) :
    expectedValues desired f =
      match f with
      | .useWsus => some (.dword 0)
      | .wsusServer | .wsusStatusServer => some .missing
      | .allowMicrosoftUpdate => none
      | .deferFeatureUpdates | .deferQualityUpdates => some (.dword 1)
      | .deferFeatureDays => some (.dword desired.deferrals.featureDays.toUInt32)
      | .deferQualityDays => some (.dword desired.deferrals.qualityDays.toUInt32)
      | .targetReleaseVersion => some (.dword (boolValue desired.targetRelease.enabled))
      | .productVersion => some
        (if desired.targetRelease.enabled then .string desired.targetRelease.productVersion
          else .missing)
      | .targetReleaseVersionInfo => some
        (if desired.targetRelease.enabled then .string desired.targetRelease.release
          else .missing)
      | .deliveryOptimizationMode => some (.dword (downloadModeValue desired.downloadMode)) := by
  have hsource : (desired.updateSource == .wsus) = false := by
    rw [h.updateSource]
    rfl
  unfold expectedValues insertTargetRelease
  rw [hsource]
  cases desired.targetRelease.enabled <;> cases f <;>
    simp [PolicyMap.insert, PolicyMap.empty, Function.update, boolValue]

/-- The adapter takes every value that an accepted configuration expects. -/
theorem expectedValues_valid (h : Accepted desired) {f : WindowsUpdateField}
    {v : PolicyValueSnapshot} (hexpected : expectedValues desired f = some v) :
    validateSnapshot (fieldSpec f) v = .ok () ∧ validateDwordBound f v = .ok () := by
  have hfeature : desired.deferrals.featureDays.toUInt32 ≤ 365 := by
    have hle := h.featureDays
    rw [UInt16.le_iff_toNat_le] at hle
    rw [UInt32.le_iff_toNat_le, UInt16.toNat_toUInt32]
    exact hle
  have hquality : desired.deferrals.qualityDays.toUInt32 ≤ 35 := by
    have hle := h.qualityDays
    rw [UInt8.le_iff_toNat_le] at hle
    rw [UInt32.le_iff_toNat_le, UInt8.toNat_toUInt32]
    exact hle
  have hbool (b : Bool) : boolValue b ≤ 1 := by cases b <;> decide
  rw [expectedValues_table h] at hexpected
  cases f with
  | useWsus | wsusServer | wsusStatusServer | deferFeatureUpdates | deferQualityUpdates =>
    cases hexpected
    exact ⟨rfl, rfl⟩
  | allowMicrosoftUpdate => cases hexpected
  | deferFeatureDays =>
    cases hexpected
    exact ⟨rfl, if_pos (decide_eq_true hfeature)⟩
  | deferQualityDays =>
    cases hexpected
    exact ⟨rfl, if_pos (decide_eq_true hquality)⟩
  | targetReleaseVersion =>
    cases hexpected
    exact ⟨rfl, if_pos (decide_eq_true (hbool _))⟩
  | productVersion =>
    cases hexpected
    cases desired.targetRelease.enabled with
    | false => exact ⟨rfl, rfl⟩
    | true => exact ⟨validateString_ok h.productVersion, rfl⟩
  | targetReleaseVersionInfo =>
    cases hexpected
    cases desired.targetRelease.enabled with
    | false => exact ⟨rfl, rfl⟩
    | true => exact ⟨validateString_ok h.release, rfl⟩
  | deliveryOptimizationMode =>
    cases hexpected
    cases desired.downloadMode <;> exact ⟨rfl, rfl⟩

/-! ## The engine -/

theorem validatePlan_buildPlan {capability : CapabilityId}
    (hcapability : capability.asStr = windowsUpdateCapability) (h : Accepted desired)
    (hcomplete : ∀ f, (observation.values f).isSome = true) :
    validatePlan capability (buildPlan observation desired) =
      .ok (expectedPostState (buildPlan observation desired)) := by
  have hobservation : requireComplete observation "planned pre-state" = .ok () :=
    requireComplete_ok_iff.mpr hcomplete
  have hrollback : requireComplete observation "rollback pre-state" = .ok () :=
    requireComplete_ok_iff.mpr hcomplete
  unfold validatePlan
  rw [if_neg (not_not.mpr hcapability)]
  simp only [except_bind_ok_iff]
  refine ⟨(), hobservation, (), hrollback, desired, h.resolves, ?_⟩
  exact if_neg (not_not.mpr rfl)

/-- The engine takes no other plan for the same observation and configuration. -/
theorem validatePlan_eq_buildPlan {capability : CapabilityId} {plan : WindowsUpdatePlan}
    {post : WindowsUpdateObservation} (h : validatePlan capability plan = .ok post) :
    plan = buildPlan plan.observation plan.desired :=
  (validatePlan_ok h).1.canonical.symm

/-- The laws of the planner. -/
theorem windowsUpdate_planner_laws {parameters : WindowsUpdateParameters}
    (hresolved : resolveDesiredState parameters = .ok desired)
    (observation : WindowsUpdateObservation) (capability : CapabilityId)
    (hcapability : capability.asStr = windowsUpdateCapability) :
    let plan := buildPlan observation desired
    -- exactly the expected fields whose observed value is absent or different, in field order
    ((∀ m : WindowsUpdateMutation, m ∈ plan.mutations ↔
        expectedValues desired m.field = some m.desired ∧
          observation.values m.field ≠ some m.desired) ∧
      (plan.mutations.map WindowsUpdateMutation.field).Sublist windowsUpdateFields ∧
      (plan.mutations.map WindowsUpdateMutation.field).Nodup ∧
      (∀ m ∈ plan.mutations, m.field ≠ .allowMicrosoftUpdate) ∧ plan.rollback = observation) ∧
    -- planning again finds nothing to do
    ((∀ f, (expectedPostState plan).values f = ((plan.mutations.find? fun m => m.field = f).map
        WindowsUpdateMutation.desired).or (observation.values f)) ∧
      (buildPlan (expectedPostState plan) desired).mutations = []) ∧
    -- the adapter takes every desired value
    (∀ m ∈ plan.mutations, validateSnapshot (fieldSpec m.field) m.desired = .ok () ∧
      validateDwordBound m.field m.desired = .ok ()) ∧
    -- the engine takes this plan and no other one
    ((∀ f, (observation.values f).isSome = true) →
      validatePlan capability plan = .ok (expectedPostState plan)) ∧
    ∀ other : WindowsUpdatePlan, other.observation = observation → other.desired = desired →
      other ≠ plan → ∃ detail, validatePlan capability other = .error detail := by
  intro plan
  have haccepted := accepted_of_resolved hresolved
  refine ⟨⟨fun m => mem_mutations_iff, mutations_fields_sublist, mutations_fields_nodup, ?_, rfl⟩,
    ⟨expectedPostState_values, ?_⟩, ?_, validatePlan_buildPlan hcapability haccepted, ?_⟩
  · intro m hm hfield
    have hexpected := (mem_mutations_iff.mp hm).1
    rw [hfield, expectedValues_allowMicrosoftUpdate] at hexpected
    cases hexpected
  · rw [mutations_eq_nil_iff]
    exact fun f v hexpected => expectedPostState_expected hexpected
  · intro m hm
    exact expectedValues_valid haccepted (mem_mutations_iff.mp hm).1
  · intro other hobservation hdesired hne
    cases hvalid : validatePlan capability other with
    | error detail => exact ⟨detail, rfl⟩
    | ok post =>
      have hcanonical := validatePlan_eq_buildPlan hvalid
      rw [hobservation, hdesired] at hcanonical
      exact absurd hcanonical hne

/-- The default configuration on a host where nothing is set. -/
theorem windowsUpdate_planner_laws_sample :
    (buildPlan (expectedPostState (buildPlan ⟨fun _ => some .missing⟩ {})) {}).mutations = [] :=
  (@windowsUpdate_planner_laws {} {} (by decide)
    ⟨fun _ => some .missing⟩ ⟨"v3.windows-update.policy", by decide⟩ rfl).2.1.2

end BaselineOps.WindowsUpdate
