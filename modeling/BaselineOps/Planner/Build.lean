import Mathlib
import BaselineOps.Domain.ValidatePlan

/-!
# The planner

Model of `baselineops-engine/src/planner.rs` (lines 1–252): `build_plan` derives one action for every
step of a validated profile, in its topological order, and binds the plan to the observed state. The
identifiers `PlanId::new` and `RunId::new` draw are arguments. A deriver may have a state of its own,
so its answer depends on the number of its calls.
-/

namespace BaselineOps.Engine

open BaselineOps.Domain BaselineOps.Lib

/-! ## Times -/

/-- `chrono::Duration`, in nanoseconds. -/
structure Duration where
  nanos : ℤ
  deriving DecidableEq

/-- `Duration::seconds`. -/
def Duration.seconds (n : ℤ) : Duration := ⟨n * 1000000000⟩

/-- `Duration::hours`. -/
def Duration.hours (n : ℤ) : Duration := Duration.seconds (n * 3600)

/-- The time with the given parts, if it is in range. -/
def dateTime? (secs frac : ℤ) : Option DateTime :=
  if h : (-8334601228800 ≤ secs ∧ secs ≤ 8210266876799) ∧ 0 ≤ frac ∧ frac < 2000000000 then
    some ⟨secs, ⟨frac.toNat, by omega⟩, h.1.1, h.1.2⟩
  else none

/-- The parts of a time before seconds are added: a leap second that is left counts as the second
    before it, or after it when the time goes back. -/
def addBase (t : DateTime) (secsToAdd fracToAdd : ℤ) : ℤ × ℤ :=
  if (t.frac.val : ℤ) < 1000000000 then (t.secs, t.frac.val)
  else if 0 < secsToAdd ∨ (0 < fracToAdd ∧ 2000000000 - fracToAdd ≤ (t.frac.val : ℤ)) then
    (t.secs, t.frac.val - 1000000000)
  else (t.secs + 1, t.frac.val - 1000000000)

/-- `DateTime::checked_add_signed` of `chrono`. -/
def checkedAddSigned (t : DateTime) (duration : Duration) : Option DateTime :=
  let secsToAdd := duration.nanos.tdiv 1000000000
  let fracToAdd := duration.nanos.tmod 1000000000
  if 1000000000 ≤ (t.frac.val : ℤ) ∧ secsToAdd = 0 ∧
      ¬ (0 < fracToAdd ∧ 2000000000 - fracToAdd ≤ (t.frac.val : ℤ)) then
    -- the sum stays within the leap second
    dateTime? t.secs (t.frac.val + fracToAdd)
  else
    let base := addBase t secsToAdd fracToAdd
    let secs := base.1 + secsToAdd
    let frac := base.2 + fracToAdd
    if frac < 0 then dateTime? (secs - 1) (frac + 1000000000)
    else if 1000000000 ≤ frac then dateTime? (secs + 1) (frac - 1000000000)
    else dateTime? secs frac

/-! ## The model -/

/-- `PlanBuildContext` (lines 11–30). -/
structure PlanBuildContext where
  intent : ExecutionIntent
  host : HostIdentityV3
  tool : ToolIdentityV3
  packageDigest : Sha256Digest
  source : SourceIdentityV3
  input : InputIdentityV3
  resources : List ResourceBindingV3
  observedState : ObservedStateV3
  lifetime : Duration
  deriving DecidableEq

/-- `WorkerPlan` (lines 38–42). -/
structure WorkerPlan where
  plan : PlanV3
  digest : Sha256Digest
  deriving DecidableEq

/-- `TrustedActionDeriver::derive` (lines 66–79) in its `n`-th call. -/
abbrev TrustedActionDeriver :=
  ℕ → ProfileStepV3 → ExecutionIntent → ObservedStateV3 → Except String PlannedActionV3

/-- `PlanningError` (lines 82–111). -/
inductive PlanningError where
  | domain (error : DomainError)
  | invalidLifetime
  | expiryOverflow
  | expiredProfile
  | sourceStepMismatch
  | intentMismatch
  | factsMismatch
  | derivation (message : String)
  | reviewedEnvelopeMismatch

/-- `PlanningIndex` (lines 132–135). -/
structure PlanningIndex where
  capabilityByStep : AList fun _ : ActionId => CapabilityId
  stepsByCapability : AList fun _ : CapabilityId => AList fun _ : ActionId => ℕ

/-- The body of the loop of `PlanningIndex::from_validated`. -/
def PlanningIndex.add (index : PlanningIndex) (step : ProfileStepV3 × ℕ) : PlanningIndex where
  capabilityByStep := index.capabilityByStep.insert step.1.stepId step.1.capabilityId
  stepsByCapability := index.stepsByCapability.insert step.1.capabilityId
    (((index.stepsByCapability.lookup step.1.capabilityId).getD ∅).insert step.1.stepId step.2)

/-- `PlanningIndex::from_validated` (lines 138–152). -/
def PlanningIndex.fromValidated (profile : ProfileV3) : PlanningIndex :=
  profile.steps.zipIdx.foldl PlanningIndex.add ⟨∅, ∅⟩

/-- `PlanningIndex::step` (lines 154–158). -/
def PlanningIndex.step (index : PlanningIndex) (profile : ProfileV3) (stepId : ActionId) :
    Option ProfileStepV3 := do
  let capability ← index.capabilityByStep.lookup stepId
  let positions ← index.stepsByCapability.lookup capability
  let position ← positions.lookup stepId
  profile.steps[position]?

/-- `validate_build_inputs` (lines 161–183). -/
def validateBuildInputs (d : Deps) (profile : ProfileV3) (context : PlanBuildContext)
    (now : DateTime) : Panicking PlanningError (List ActionId × DateTime) := do
  let validation ← wrapError PlanningError.domain profile.validate
  wrapError PlanningError.domain (fromExcept (context.host.validate d))
  wrapError PlanningError.domain (fromExcept (context.observedState.validate d))
  fromExcept (failIf (∃ expiresAt ∈ profile.expiresAt, ¬ now < expiresAt) .expiredProfile)
  fromExcept (failIf (¬ ((Duration.seconds 1).nanos ≤ context.lifetime.nanos ∧
    context.lifetime.nanos ≤ (Duration.hours 24).nanos)) .invalidLifetime)
  match checkedAddSigned now context.lifetime with
  | none => fromExcept (.error .expiryOverflow)
  | some expiresAt => return (validation.topologicalOrder.ids, expiresAt)

/-- `validate_derived_action` (lines 237–252). -/
def validateDerivedAction (action : PlannedActionV3) (step : ProfileStepV3)
    (context : PlanBuildContext) : Except PlanningError Unit := do
  failIf (action.sourceStep ≠ step.stepId ∨ action.capability ≠ step.capabilityId)
    .sourceStepMismatch
  failIf (action.operation ≠ context.intent.toOperation) .intentMismatch
  failIf (action.factsDigest ≠ context.observedState.digest) .factsMismatch

/-- The body of the loop of `derive_actions`. -/
def deriveAction (profile : ProfileV3) (index : PlanningIndex) (context : PlanBuildContext)
    (deriver : TrustedActionDeriver) (stepId : ActionId × ℕ) :
    Except PlanningError PlannedActionV3 :=
  match index.step profile stepId.1 with
  | none => .error .sourceStepMismatch
  | some step => do
    let action ← (deriver stepId.2 step context.intent context.observedState).mapError
      PlanningError.derivation
    validateDerivedAction action step context
    return action

/-- `derive_actions` (lines 216–235). -/
def deriveActions (profile : ProfileV3) (index : PlanningIndex) (order : List ActionId)
    (context : PlanBuildContext) (deriver : TrustedActionDeriver) :
    Except PlanningError (List PlannedActionV3) :=
  order.zipIdx.mapM (deriveAction profile index context deriver)

/-- The plan that `build_worker_plan` (lines 185–214) validates. -/
def proposedPlan (d : Deps) (planId : PlanId) (runId : RunId) (profile : ProfileV3)
    (context : PlanBuildContext) (now expiresAt : DateTime) (actions : List PlannedActionV3) :
    PlanV3 where
  schemaVersion := .v4
  id := planId
  runId := runId
  intent := context.intent
  profileId := profile.id
  profileDigest := canonicalJsonDigest d (profile.toValue d)
  host := context.host
  tool := context.tool
  packageDigest := context.packageDigest
  source := context.source
  input := context.input
  resources := context.resources
  observedState := context.observedState
  issuedAt := now
  expiresAt := expiresAt
  actions := actions
  metadata := JsonMap.empty

/-- `build_plan` (lines 120–131). -/
def buildPlan (d : Deps) (planId : PlanId) (runId : RunId) (profile : ProfileV3)
    (context : PlanBuildContext) (deriver : TrustedActionDeriver) (now : DateTime) :
    Panicking PlanningError WorkerPlan := do
  let (order, expiresAt) ← validateBuildInputs d profile context now
  let index := PlanningIndex.fromValidated profile
  let actions ← fromExcept (deriveActions profile index order context deriver)
  let plan := proposedPlan d planId runId profile context now expiresAt actions
  let _ ← wrapError PlanningError.domain (plan.validateStructure d)
  return ⟨plan, canonicalJsonDigest d (plan.toValue d)⟩

/-! ## The index -/

/-- The index finds every step of the list by its id. -/
def Indexes (index : PlanningIndex) (steps : List ProfileStepV3) : Prop :=
  ∀ i step, steps[i]? = some step →
    index.capabilityByStep.lookup step.stepId = some step.capabilityId ∧
      ∃ positions, index.stepsByCapability.lookup step.capabilityId = some positions ∧
        positions.lookup step.stepId = some i

/-- The two levels stay inverse to the list when a step with a new id is added. -/
theorem Indexes.add {index : PlanningIndex} {steps : List ProfileStepV3} {new : ProfileStepV3}
    (h : Indexes index steps) (hnew : new.stepId ∉ steps.map ProfileStepV3.stepId) :
    Indexes (index.add (new, steps.length)) (steps ++ [new]) := by
  intro i step hstep
  unfold PlanningIndex.add
  dsimp only
  rcases lt_or_ge i steps.length with hi | hi
  · rw [List.getElem?_append_left hi] at hstep
    obtain ⟨hcapability, positions, hpositions, hposition⟩ := h i step hstep
    have hne : step.stepId ≠ new.stepId := by
      intro heq
      apply hnew
      rw [← heq]
      exact List.mem_map_of_mem (List.mem_of_getElem? hstep)
    rw [AList.lookup_insert_ne hne]
    refine ⟨hcapability, ?_⟩
    by_cases hsame : step.capabilityId = new.capabilityId
    · rw [← hsame, AList.lookup_insert, hpositions, Option.getD_some]
      refine ⟨_, rfl, ?_⟩
      rw [AList.lookup_insert_ne hne]
      exact hposition
    · rw [AList.lookup_insert_ne hsame]
      exact ⟨positions, hpositions, hposition⟩
  · have hi' : i = steps.length := by
      have := (List.getElem?_eq_some_iff.mp hstep).1
      rw [List.length_append, List.length_singleton] at this
      omega
    subst hi'
    rw [List.getElem?_concat_length, Option.some.injEq] at hstep
    subst hstep
    rw [AList.lookup_insert, AList.lookup_insert]
    refine ⟨rfl, _, rfl, ?_⟩
    rw [AList.lookup_insert]

theorem indexes_foldl {steps : List ProfileStepV3} (hnodup : (steps.map ProfileStepV3.stepId).Nodup) :
    Indexes (steps.zipIdx.foldl PlanningIndex.add ⟨∅, ∅⟩) steps := by
  induction steps using List.reverseRecOn with
  | nil =>
    intro i step hstep
    simp at hstep
  | append_singleton steps new ih =>
    rw [List.map_append, List.nodup_append] at hnodup
    rw [List.zipIdx_append, Nat.zero_add, List.foldl_append]
    refine (ih hnodup.1).add ?_
    intro hmem
    exact hnodup.2.2 new.stepId hmem new.stepId (by simp) rfl

/-- Looking a step up by its id finds it. -/
theorem PlanningIndex.step_fromValidated {profile : ProfileV3}
    (hnodup : (profile.steps.map ProfileStepV3.stepId).Nodup) {step : ProfileStepV3}
    (hstep : step ∈ profile.steps) :
    (PlanningIndex.fromValidated profile).step profile step.stepId = some step := by
  obtain ⟨i, hi⟩ := List.mem_iff_getElem?.mp hstep
  obtain ⟨hcapability, positions, hpositions, hposition⟩ := indexes_foldl hnodup i step hi
  unfold PlanningIndex.step PlanningIndex.fromValidated
  simp only [hcapability, hpositions, hposition, Option.bind_eq_bind, Option.bind_some]
  exact hi

/-! ## What a built plan is -/

/-- The inversion of `validate_build_inputs`. -/
theorem validateBuildInputs_ok {d : Deps} {profile : ProfileV3} {context : PlanBuildContext}
    {now : DateTime} {order : List ActionId} {expiresAt : DateTime}
    (h : validateBuildInputs d profile context now = some (.ok (order, expiresAt))) :
    (∃ v, profile.validate = some (.ok v) ∧ v.topologicalOrder.ids = order) ∧
      context.observedState.validate d = .ok () ∧
      (∀ expiry ∈ profile.expiresAt, now < expiry) ∧
      (Duration.seconds 1).nanos ≤ context.lifetime.nanos ∧
      context.lifetime.nanos ≤ (Duration.hours 24).nanos ∧
      checkedAddSigned now context.lifetime = some expiresAt := by
  unfold validateBuildInputs at h
  simp only [panicking_bind_ok_iff, wrapError_ok_iff, fromExcept_ok_iff, failIf_ok_iff] at h
  obtain ⟨v, hvalid, _, _, _, hobserved, _, hexpiry, _, hlifetime, h⟩ := h
  push Not at hexpiry
  split at h
  · cases h
  · rename_i time htime
    cases Except.ok.inj (Option.some.inj h)
    have hrange := not_not.mp hlifetime
    exact ⟨⟨v, hvalid, rfl⟩, hobserved, hexpiry, hrange.1, hrange.2, htime⟩

/-- The inversion of `build_plan`. -/
theorem buildPlan_ok {d : Deps} {planId : PlanId} {runId : RunId} {profile : ProfileV3}
    {context : PlanBuildContext} {deriver : TrustedActionDeriver} {now : DateTime}
    {worker : WorkerPlan}
    (h : buildPlan d planId runId profile context deriver now = some (.ok worker)) :
    ∃ order expiresAt actions listed,
      validateBuildInputs d profile context now = some (.ok (order, expiresAt)) ∧
      deriveActions profile (PlanningIndex.fromValidated profile) order context deriver =
        .ok actions ∧
      worker.plan = proposedPlan d planId runId profile context now expiresAt actions ∧
      worker.plan.validateStructure d = some (.ok listed) ∧
      worker.digest = canonicalJsonDigest d (worker.plan.toValue d) := by
  unfold buildPlan at h
  simp only [panicking_bind_ok_iff, wrapError_ok_iff, fromExcept_ok_iff] at h
  obtain ⟨⟨order, expiresAt⟩, hinputs, actions, hactions, listed, hlisted, h⟩ := h
  cases Except.ok.inj (Option.some.inj h)
  exact ⟨order, expiresAt, actions, listed, hinputs, hactions, rfl, hlisted, rfl⟩

/-- What one round of `derive_actions` yields for a step of the profile. -/
theorem deriveAction_ok {profile : ProfileV3} {context : PlanBuildContext}
    {deriver : TrustedActionDeriver} (hnodup : (profile.steps.map ProfileStepV3.stepId).Nodup)
    {step : ProfileStepV3} (hstep : step ∈ profile.steps) {n : ℕ} {action : PlannedActionV3}
    (h : deriveAction profile (PlanningIndex.fromValidated profile) context deriver
      (step.stepId, n) = .ok action) :
    deriver n step context.intent context.observedState = .ok action := by
  unfold deriveAction at h
  rw [PlanningIndex.step_fromValidated hnodup hstep] at h
  simp only [except_bind_ok_iff, except_mapError_ok_iff] at h
  obtain ⟨action', hderive, _, _, haction⟩ := h
  cases haction
  exact hderive

end BaselineOps.Engine
