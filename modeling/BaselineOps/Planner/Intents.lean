import Mathlib
import BaselineOps.Capabilities.WindowsUpdatePolicy
import BaselineOps.Planner.Review

/-!
# The intents that a worker retains

Model of `RetainedIntents` (`baselineops-engine/src/native_intents.rs`, lines 42–150): the worker derives
the typed proposals of its own plan once more, from the parameters and the observed facts of the plan,
and compares them with the metadata that was reviewed.

The typed content of the variant `WindowsUpdate`, which the metadata has as JSON, is a parameter.

* `fromWorkerPlan_ok`: a plan whose actions were derived from its own facts is retained in full.
* `retainedIntents_agree`: so are the plans of `build_plan` and of `rebuild_reviewed_apply_plan`, although
  the latter has the actions of one and the facts of another observation.
-/

namespace BaselineOps.Engine

open BaselineOps.Capabilities BaselineOps.Domain BaselineOps.Lib

/-! ## The model -/

/-- `RetainedIntent` (lines 9–13). -/
structure RetainedIntent where
  actionId : ActionId
  capability : CapabilityId
  semantic : SemanticPlan

/-- `ApprovalError` (`approval.rs`, lines 93–108). -/
inductive ApprovalError where
  | digestMismatch
  | applyIneligible (capabilityId reason : String)
  | domain (error : DomainError)

/-- `BTreeMap` indexing, which panics where `get` finds nothing. -/
def indexObserved (values : ObservedValues) (step : ActionId) :
    Panicking PlanningError ObservedValueV3 :=
  (values.get step).map Except.ok

/-- `retain_intent` (lines 72–98). -/
def retainIntent (registry : Registry) (action : PlannedActionV3) (facts : JsonMap) :
    Except PlanningError RetainedIntent :=
  match jsonMapGet facts "native_result" with
  | none => .error (.derivation "worker native observation is absent")
  | some native => do
    let semantic ← (registry.planObserved action.capability.asStr (.object action.parameters.entries)
      native).mapError PlanningError.derivation
    failIf (jsonMapGet action.metadata "semantic_plan" ≠ some semantic.toValue)
      (.derivation "worker typed proposal differs from review metadata")
    return ⟨action.id, action.capability, semantic⟩

/-- One round of `from_worker_plan`. -/
def retainAction (registry : Registry) (plan : PlanV3) (action : PlannedActionV3) :
    Panicking PlanningError RetainedIntent := do
  let observed ← indexObserved plan.observedState.values action.sourceStep
  fromExcept (retainIntent registry action observed.facts)

/-- `from_worker_plan` (lines 42–54). -/
def fromWorkerPlan (registry : Registry) (worker : WorkerPlan) :
    Panicking PlanningError (List RetainedIntent) :=
  worker.plan.actions.mapM (retainAction registry worker.plan)

/-- `ineligible` (lines 134–139). -/
def ineligible (capability : CapabilityId) (reason : String) : ApprovalError :=
  .applyIneligible capability.asStr reason

/-- The handler of a catalog entry is `NativeHandler::WindowsUpdate`, which `for_legacy`
    (`types.rs`, lines 196–245) assigns to number 5 only. -/
def CapabilityDescriptor.HandlesWindowsUpdate (descriptor : CapabilityDescriptor) : Prop :=
  descriptor.legacyNumber = 5

instance (descriptor : CapabilityDescriptor) : Decidable descriptor.HandlesWindowsUpdate :=
  inferInstanceAs (Decidable (_ = _))

/-- `validate_native_semantic` (lines 100–132). -/
def validateNativeSemantic (registry : Registry)
    (windowsUpdate : SemanticPlan → Option WindowsUpdatePlan) (capability : CapabilityId)
    (semantic : SemanticPlan) : Except ApprovalError Unit :=
  match registry.lookup capability.asStr with
  | none => .error (ineligible capability "typed intent is not registered")
  | some descriptor => do
    failIf (¬ descriptor.HandlesWindowsUpdate ∨ capability.asStr ≠ "v3.windows-update.policy")
      (ineligible capability "a typed native execution and recovery contract is not implemented")
    match windowsUpdate semantic with
    | none => .error (ineligible capability
        "semantic variant does not match the registered native handler")
    | some plan => do
      failIf (plan.rollback ≠ plan.observation)
        (ineligible capability "typed intent lacks exact recovery pre-state")
      -- the gate stays shut
      .error (ineligible capability ("Windows Update requires verified containment, " ++
        "shipping recovery, and Windows execution evidence"))

/-- One round of `validate_execution`. -/
def validateIntent (registry : Registry) (windowsUpdate : SemanticPlan → Option WindowsUpdatePlan)
    (pair : RetainedIntent × PlannedActionV3) : Except ApprovalError Unit := do
  failIf (pair.1.actionId ≠ pair.2.id ∨ pair.1.capability ≠ pair.2.capability) .digestMismatch
  validateNativeSemantic registry windowsUpdate pair.1.capability pair.1.semantic

/-- `validate_execution` (lines 56–67). -/
def validateExecution (registry : Registry) (windowsUpdate : SemanticPlan → Option WindowsUpdatePlan)
    (intents : List RetainedIntent) (approved : PlanV3) : Except ApprovalError Unit := do
  failIf (approved.resources ≠ [] ∨ intents.length ≠ approved.actions.length) .digestMismatch
  (intents.zip approved.actions).forM (validateIntent registry windowsUpdate)

/-! ## Retaining -/

/-- The action was derived from these observations: deriving its proposal once more gives what its
    metadata has. -/
def Rederives (registry : Registry) (values : ObservedValues) (action : PlannedActionV3) : Prop :=
  ∃ observed native semantic, values.get action.sourceStep = some observed ∧
    jsonMapGet observed.facts "native_result" = some native ∧
    registry.planObserved action.capability.asStr (.object action.parameters.entries) native =
      .ok semantic ∧
    jsonMapGet action.metadata "semantic_plan" = some semantic.toValue

/-- The intent of an action. -/
structure Retains (intent : RetainedIntent) (action : PlannedActionV3) : Prop where
  actionId : intent.actionId = action.id
  capability : intent.capability = action.capability
  semantic : jsonMapGet action.metadata "semantic_plan" = some intent.semantic.toValue

/-- One action of `from_worker_plan`: neither the index nor the comparison fails. -/
theorem retainAction_ok {registry : Registry} {plan : PlanV3} {action : PlannedActionV3}
    (h : Rederives registry plan.observedState.values action) :
    ∃ intent, retainAction registry plan action = some (.ok intent) ∧ Retains intent action := by
  obtain ⟨observed, native, semantic, hget, hnative, hplan, hmetadata⟩ := h
  refine ⟨⟨action.id, action.capability, semantic⟩, ?_, rfl, rfl, hmetadata⟩
  rw [retainAction, panicking_bind_ok_iff]
  refine ⟨observed, by rw [indexObserved, hget]; rfl, fromExcept_ok_iff.mpr ?_⟩
  rw [retainIntent, hnative]
  dsimp only
  rw [except_bind_ok_iff]
  refine ⟨semantic, except_mapError_ok_iff.mpr hplan, ?_⟩
  rw [except_bind_ok_iff]
  exact ⟨(), failIf_ok_iff.mpr (not_not.mpr hmetadata), rfl⟩

/-- A plan whose actions were derived from its own observations is retained, action by action. -/
theorem fromWorkerPlan_ok {registry : Registry} {worker : WorkerPlan}
    (h : ∀ action ∈ worker.plan.actions,
      Rederives registry worker.plan.observedState.values action) :
    ∃ intents, fromWorkerPlan registry worker = some (.ok intents) ∧
      List.Forall₂ Retains intents worker.plan.actions := by
  simp only [fromWorkerPlan, panicking_mapM_ok_iff]
  generalize worker.plan.actions = actions at h
  induction actions with
  | nil => exact ⟨[], List.Forall₂.nil, List.Forall₂.nil⟩
  | cons action rest ih =>
    obtain ⟨haction, hrest⟩ := List.forall_mem_cons.mp h
    obtain ⟨intent, hretained, hretains⟩ := retainAction_ok haction
    obtain ⟨intents, hintents, hall⟩ := ih hrest
    exact ⟨intent :: intents, List.Forall₂.cons hretained hintents, List.Forall₂.cons hretains hall⟩

/-- The gate on a single intent never says that the plans differ. -/
theorem validateNativeSemantic_ne {registry : Registry}
    {windowsUpdate : SemanticPlan → Option WindowsUpdatePlan} {capability : CapabilityId}
    {semantic : SemanticPlan} :
    validateNativeSemantic registry windowsUpdate capability semantic ≠ .error .digestMismatch := by
  unfold validateNativeSemantic ineligible
  intro h
  split at h
  · cases h
  · rw [except_bind_error_iff, failIf_error_iff] at h
    rcases h with ⟨-, h⟩ | ⟨_, -, h⟩
    · cases h
    · split at h
      · cases h
      · rw [except_bind_error_iff, failIf_error_iff] at h
        rcases h with ⟨-, h⟩ | ⟨_, -, h⟩
        · cases h
        · cases h

/-- Retained intents are never found to differ from their plan. -/
theorem validateExecution_ne {registry : Registry}
    {windowsUpdate : SemanticPlan → Option WindowsUpdatePlan} {intents : List RetainedIntent}
    {approved : PlanV3} (h : List.Forall₂ Retains intents approved.actions)
    (hresources : approved.resources = []) :
    validateExecution registry windowsUpdate intents approved ≠ .error .digestMismatch := by
  intro hmismatch
  rw [validateExecution, except_bind_error_iff, failIf_error_iff] at hmismatch
  rcases hmismatch with ⟨hshape, -⟩ | ⟨_, -, hloop⟩
  · rcases hshape with hsome | hlength
    · exact hsome hresources
    · exact hlength h.length_eq
  · obtain ⟨pair, hpair, hfail⟩ := except_forM_error hloop
    have hretains : Retains pair.1 pair.2 := List.forall₂_zip h hpair
    rw [validateIntent, except_bind_error_iff, failIf_error_iff] at hfail
    rcases hfail with ⟨hdiffers, -⟩ | ⟨_, -, hgate⟩
    · rcases hdiffers with hid | hcapability
      · exact hid hretains.actionId
      · exact hcapability hretains.capability
    · exact validateNativeSemantic_ne hgate

/-! ## What was derived -/

theorem Registry.lookup_id {registry : Registry} {id : String} {descriptor : CapabilityDescriptor}
    (h : registry.lookup id = some descriptor) : descriptor.id = id := by
  unfold Registry.lookup at h
  simpa using List.find?_some h

theorem jsonMapGet_semanticPlan {facts : JsonMap} {semantic : SemanticPlan}
    {descriptor : CapabilityDescriptor} :
    jsonMapGet (proposalMetadata facts semantic descriptor) "semantic_plan" =
      some semantic.toValue := by
  simp [jsonMapGet, proposalMetadata]

/-- An action of the registry can be derived once more from the observations it was derived from. -/
theorem registryActionDeriver_rederives {d : Deps} {registry : Registry} {n : ℕ}
    {step : ProfileStepV3} {intent : ExecutionIntent} {observedState : ObservedStateV3}
    {action : PlannedActionV3}
    (h : registryActionDeriver d registry n step intent observedState = .ok action) :
    Rederives registry observedState.values action := by
  obtain ⟨-, hsource, hcapability, hparameters, -, -⟩ := registryActionDeriver_ok h
  unfold registryActionDeriver at h
  obtain ⟨descriptor, hdescriptor, h⟩ := except_bind_ok_iff.mp h
  have hid : descriptor.id = step.capabilityId.asStr := by
    unfold supportedDescriptor at hdescriptor
    split at hdescriptor
    · cases hdescriptor
    · rename_i found hlookup
      simp only [except_bind_ok_iff] at hdescriptor
      obtain ⟨_, -, _, -, hfound⟩ := hdescriptor
      cases hfound
      exact Registry.lookup_id hlookup
  split at h
  · cases h
  · rename_i observed hobserved
    obtain ⟨_, -, h⟩ := except_bind_ok_iff.mp h
    unfold plannedAction at h
    split at h
    · cases h
    · rename_i native hnative
      obtain ⟨semantic, hsemantic, h⟩ := except_bind_ok_iff.mp h
      refine ⟨observed, native, semantic, ?_, hnative, ?_, ?_⟩
      · rw [hsource]
        exact hobserved
      · rw [hcapability, hparameters, ← hid]
        exact hsemantic
      · rw [← Except.ok.inj h]
        exact jsonMapGet_semanticPlan

/-- So can all actions of a plan. -/
theorem deriveActions_rederives {d : Deps} {registry : Registry} {profile : ProfileV3}
    {index : PlanningIndex} {order : List ActionId} {context : PlanBuildContext}
    {actions : List PlannedActionV3}
    (h : deriveActions profile index order context (registryActionDeriver d registry) = .ok actions) :
    ∀ action ∈ actions, Rederives registry context.observedState.values action := by
  intro action haction
  obtain ⟨entry, -, hderive⟩ := except_mapM_mem h haction
  unfold deriveAction at hderive
  split at hderive
  · cases hderive
  · simp only [except_bind_ok_iff, except_mapError_ok_iff] at hderive
    obtain ⟨_, hderived, _, -, haction⟩ := hderive
    cases haction
    exact registryActionDeriver_rederives hderived

/-- The facts of a state are maps in key order, as all values of `serde_json` are. -/
def FactsKeysSorted (state : ObservedStateV3) : Prop :=
  ∀ entry ∈ state.values.entries, (Value.object entry.2.facts.entries).KeysSorted

/-- What was derived from one observation can be derived from any other with the same facts. -/
theorem Rederives.of_facts {registry : Registry} {state state' : ObservedStateV3}
    {action : PlannedActionV3} (h : Rederives registry state.values action)
    (hfacts : observedFacts state' = observedFacts state) (hsorted : FactsKeysSorted state)
    (hsorted' : FactsKeysSorted state') : Rederives registry state'.values action := by
  obtain ⟨observed, native, semantic, hget, hnative, hplan, hmetadata⟩ := h
  have hentries := facts_eq_of_observedFacts hfacts hsorted' hsorted
  have hfound : ∃ observed', state'.values.get action.sourceStep = some observed' ∧
      observed'.facts.entries = observed.facts.entries := by
    unfold ObservedValues.get at hget ⊢
    generalize state.values.entries = entries at hget hentries
    generalize state'.values.entries = entries' at hentries
    induction hentries with
    | nil => cases hget
    | @cons entry' entry _ _ hentry _ ih =>
      rw [List.find?_cons] at hget ⊢
      rw [hentry.1]
      by_cases hstep : entry.1 = action.sourceStep
      · simp only [hstep, decide_true, Option.map_some, Option.some.injEq, exists_eq_left'] at hget ⊢
        rw [← hget]
        exact hentry.2.2.2
      · simp only [hstep, decide_false] at hget ⊢
        exact ih hget
  obtain ⟨observed', hget', hsame⟩ := hfound
  refine ⟨observed', native, semantic, hget', ?_, hplan, hmetadata⟩
  rw [jsonMapGet, hsame]
  exact hnative

/-- The plans of the planner can be retained. -/
theorem buildPlan_rederives {d : Deps} {registry : Registry} {planId : PlanId} {runId : RunId}
    {profile : ProfileV3} {context : PlanBuildContext} {now : DateTime} {worker : WorkerPlan}
    (h : buildPlan d planId runId profile context (registryActionDeriver d registry) now =
      some (.ok worker)) :
    worker.plan.observedState = context.observedState ∧
      ∀ action ∈ worker.plan.actions, Rederives registry context.observedState.values action := by
  obtain ⟨order, expiresAt, actions, listed, -, hactions, hplan, -, -⟩ := buildPlan_ok h
  rw [hplan]
  exact ⟨rfl, deriveActions_rederives hactions⟩

/-- So can rebuilt plans: they have the actions of the fresh observation, and the reviewed one has the
    same facts. -/
theorem rebuildReviewedApplyPlan_rederives {d : Deps} {registry : Registry} {planId : PlanId}
    {runId : RunId} {reviewed : PlanV3} {profile : ProfileV3} {context : PlanBuildContext}
    {now : DateTime} {worker : WorkerPlan} (hd : d.LawfulText)
    (hfree : Set.InjOn d.sha256 {canonicalJsonBytes d reviewed.observedState.factsValue,
      canonicalJsonBytes d context.observedState.factsValue})
    (hsorted : FactsKeysSorted reviewed.observedState) (hsorted' : FactsKeysSorted context.observedState)
    (h : rebuildReviewedApplyPlan d planId runId reviewed profile context
      (registryActionDeriver d registry) now = some (.ok worker)) :
    ∀ action ∈ worker.plan.actions,
      Rederives registry worker.plan.observedState.values action := by
  have hfacts := rebuildReviewedApplyPlan_facts hd hfree h
  obtain ⟨-, -, fresh, hfresh, -, -, hplan, -⟩ := rebuildReviewedApplyPlan_ok h
  obtain ⟨-, hrederives⟩ := buildPlan_rederives hfresh
  rw [hplan]
  intro action haction
  exact (hrederives action haction).of_facts hfacts hsorted' hsorted

/-- The intents that a worker retains agree with its plan: the index finds every observation, no
    comparison fails, there is one intent for every action in the order of the plan, and the check
    before execution finds no difference. -/
structure RetainedInFull (registry : Registry) (worker : WorkerPlan) : Prop where
  retained : ∃ intents, fromWorkerPlan registry worker = some (.ok intents) ∧
    List.Forall₂ Retains intents worker.plan.actions ∧
    ∀ windowsUpdate, worker.plan.resources = [] →
      validateExecution registry windowsUpdate intents worker.plan ≠ .error .digestMismatch

theorem retainedInFull_of_rederives {registry : Registry} {worker : WorkerPlan}
    (h : ∀ action ∈ worker.plan.actions,
      Rederives registry worker.plan.observedState.values action) :
    RetainedInFull registry worker := by
  obtain ⟨intents, hretained, hall⟩ := fromWorkerPlan_ok h
  exact ⟨intents, hretained, hall, fun _ hresources => validateExecution_ne hall hresources⟩

/-- Retaining the intents of a plan neither panics nor disagrees with the review, whether the plan was
    built or rebuilt. For the latter SHA-256 is assumed to have no collision between the two observed
    states, whose objects are maps in key order. -/
theorem retainedIntents_agree (d : Deps) (registry : Registry) (planId : PlanId) (runId : RunId)
    (profile : ProfileV3) (context : PlanBuildContext) (now : DateTime) (worker : WorkerPlan) :
    (buildPlan d planId runId profile context (registryActionDeriver d registry) now =
        some (.ok worker) → RetainedInFull registry worker) ∧
      ∀ reviewed, d.LawfulText →
        Set.InjOn d.sha256 {canonicalJsonBytes d reviewed.observedState.factsValue,
          canonicalJsonBytes d context.observedState.factsValue} →
        FactsKeysSorted reviewed.observedState → FactsKeysSorted context.observedState →
        rebuildReviewedApplyPlan d planId runId reviewed profile context
          (registryActionDeriver d registry) now = some (.ok worker) →
        RetainedInFull registry worker := by
  constructor
  · intro h
    obtain ⟨hstate, hrederives⟩ := buildPlan_rederives h
    apply retainedInFull_of_rederives
    rw [hstate]
    exact hrederives
  · intro reviewed hd hfree hsorted hsorted' h
    exact retainedInFull_of_rederives
      (rebuildReviewedApplyPlan_rederives hd hfree hsorted hsorted' h)

theorem sample_factsKeysSorted : FactsKeysSorted (sampleObservedState referenceDeps) := by
  intro entry hentry
  have hfacts : entry.2 = sampleObserved referenceDeps := by
    rcases List.mem_cons.mp hentry with rfl | hrest
    · rfl
    · rw [List.mem_singleton.mp hrest]
  rw [hfacts]
  simp [Value.KeysSorted, sampleObserved, Value.All, Value.AllMembers, Value.AllMember,
    Value.LocallySorted]

/-- The sample plan, built and rebuilt. -/
theorem retainedIntents_agree_sample : ∃ built rebuilt,
    buildPlan referenceDeps ⟨⟨Vector.replicate 16 0⟩⟩ ⟨⟨Vector.replicate 16 1⟩⟩ sampleProfile
      (sampleContext referenceDeps) (registryActionDeriver referenceDeps sampleRegistry)
      ⟨0, 0, by decide, by decide⟩ = some (.ok built) ∧
    RetainedInFull sampleRegistry built ∧
    rebuildReviewedApplyPlan referenceDeps ⟨⟨Vector.replicate 16 0⟩⟩ ⟨⟨Vector.replicate 16 1⟩⟩
      (samplePlan referenceDeps) sampleProfile (sampleContext referenceDeps)
      (registryActionDeriver referenceDeps sampleRegistry) ⟨0, 0, by decide, by decide⟩ =
        some (.ok rebuilt) ∧
    RetainedInFull sampleRegistry rebuilt := by
  refine ⟨_, _, sample_buildPlan, ?_, sample_rebuild, ?_⟩
  · exact (retainedIntents_agree referenceDeps sampleRegistry _ _ _ _ _ _).1 sample_buildPlan
  · refine (retainedIntents_agree referenceDeps sampleRegistry _ _ _ _ _ _).2 (samplePlan referenceDeps)
      referenceDeps_lawful ?_ sample_factsKeysSorted sample_factsKeysSorted sample_rebuild
    simp [samplePlan, proposedPlan]

end BaselineOps.Engine
