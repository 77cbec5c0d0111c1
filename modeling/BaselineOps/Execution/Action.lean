import Mathlib
import BaselineOps.Capabilities.WindowsUpdatePolicy
import BaselineOps.Journal.Lifecycle
import BaselineOps.Lib.Emits

/-!
# Execution of a Windows Update action

Model of `baselineops-engine/src/native_execution/action.rs`. The trait `ActionPort` is a structure
of state transformers over an arbitrary state: every call may return anything or fail. The calls
and their results are recorded in order; the one `expect` of the source is the error of the monad.

`canonical_json_digest` cannot fail on observations and receipts, so the branches for its error do
not appear.
-/

namespace BaselineOps.Engine

open BaselineOps.Domain BaselineOps.Lib BaselineOps.Capabilities

/-! ## The port -/

/-- The trait `ActionPort` (lines 52–70) over the state `σ` of its implementation. -/
structure ActionPort (σ : Type) where
  observe : σ → Except String WindowsUpdateObservation × σ
  persistRecovery : ActionId → WindowsUpdateObservation → WindowsUpdateObservation → σ →
    Except String Unit × σ
  append : JournalEvent → σ → Except String Unit × σ
  mutate : WindowsUpdateField → PolicyValueSnapshot → PolicyValueSnapshot → σ →
    Except String PolicyValueSnapshot × σ

/-- One call of the port with its result. -/
inductive PortCall where
  | observe (result : Except String WindowsUpdateObservation)
  | persistRecovery (actionId : ActionId) (pre expectedPost : WindowsUpdateObservation)
      (result : Except String Unit)
  | append (event : JournalEvent) (result : Except String Unit)
  | mutate (field : WindowsUpdateField) (expected desired : PolicyValueSnapshot)
      (result : Except String PolicyValueSnapshot)

/-- The state of the port and the calls made so far. -/
structure PortState (σ : Type) where
  port : σ
  calls : List PortCall

/-- Programs that call the port; the error is a panic. -/
abbrev PortM (σ : Type) := EStateM String (PortState σ)

variable {σ : Type}

/-- A call of `observe`. -/
def callObserve (port : ActionPort σ) : PortM σ (Except String WindowsUpdateObservation) :=
  fun st =>
    let (result, s) := port.observe st.port
    .ok result ⟨s, st.calls ++ [.observe result]⟩

/-- A call of `persist_recovery`. -/
def callPersistRecovery (port : ActionPort σ) (actionId : ActionId)
    (pre expectedPost : WindowsUpdateObservation) : PortM σ (Except String Unit) := fun st =>
  let (result, s) := port.persistRecovery actionId pre expectedPost st.port
  .ok result ⟨s, st.calls ++ [.persistRecovery actionId pre expectedPost result]⟩

/-- A call of `append`. -/
def callAppend (port : ActionPort σ) (event : JournalEvent) : PortM σ (Except String Unit) :=
  fun st =>
    let (result, s) := port.append event st.port
    .ok result ⟨s, st.calls ++ [.append event result]⟩

/-- A call of `mutate`. -/
def callMutate (port : ActionPort σ) (field : WindowsUpdateField)
    (expected desired : PolicyValueSnapshot) : PortM σ (Except String PolicyValueSnapshot) :=
  fun st =>
    let (result, s) := port.mutate field expected desired st.port
    .ok result ⟨s, st.calls ++ [.mutate field expected desired result]⟩

/-! ## Outcomes -/

/-- `FailurePhase` (lines 29–35). -/
inductive FailurePhase where
  | precondition | recoveryEvidence | journal | mutation | postcondition
  deriving DecidableEq

/-- `ActionFailure` (lines 38–42). -/
structure ActionFailure where
  phase : FailurePhase
  detail : String
  mutationAttempted : Bool
  deriving DecidableEq

/-- `ActionOutcome` (lines 45–50). -/
structure ActionOutcome where
  receipt : Option ActionReceiptV3
  failure : Option ActionFailure
  rebootPossible : Bool
  mayFinishRun : Bool
  deriving DecidableEq

/-- `failed_before_start` (lines 410–421). -/
def failedBeforeStart (phase : FailurePhase) (detail : String) : ActionOutcome where
  receipt := none
  failure := some ⟨phase, detail, false⟩
  rebootPossible := false
  mayFinishRun := true

/-- `unmatched_start` (lines 423–434). -/
def unmatchedStart (phase : FailurePhase) (detail : String) (mutationAttempted : Bool) :
    ActionOutcome where
  receipt := none
  failure := some ⟨phase, detail, mutationAttempted⟩
  rebootPossible := mutationAttempted
  mayFinishRun := false

/-- `journal_failure` (lines 436–442). -/
def journalFailure (mutationAttempted : Bool) (detail : String) : ActionOutcome :=
  unmatchedStart .journal ("could not append durable action journal event: " ++ detail)
    mutationAttempted

/-! ## Preparation -/

/-- `WINDOWS_UPDATE_CAPABILITY` (line 12). -/
def windowsUpdateCapability : String := "v3.windows-update.policy"

/-- `require_complete` (lines 170–179). -/
def requireComplete (observation : WindowsUpdateObservation) (label : String) :
    Except String Unit :=
  if observation.values.len = windowsUpdateFields.length ∧
      ∀ field ∈ windowsUpdateFields, (observation.values field).isSome then .ok ()
  else .error ("Windows Update " ++ label ++ " is incomplete")

/-- `expected_post_state` (lines 181–189). -/
def expectedPostState (plan : WindowsUpdatePlan) : WindowsUpdateObservation where
  values := plan.mutations.foldl (fun values m => values.insert m.field m.desired)
    plan.observation.values

/-- `validate_plan` (lines 150–168). -/
def validatePlan (capability : CapabilityId) (plan : WindowsUpdatePlan) :
    Except String WindowsUpdateObservation := do
  if capability.asStr ≠ windowsUpdateCapability then
    throw "action capability is not the fixed Windows Update capability"
  requireComplete plan.observation "planned pre-state"
  requireComplete plan.rollback "rollback pre-state"
  let desired ← resolveDesiredState { config := none, desired := some plan.desired }
  let canonical := buildPlan plan.observation desired
  if canonical ≠ plan then
    throw "Windows Update plan is not the canonical typed mutation list"
  return expectedPostState plan

/-- What `observe_complete` makes of the result of the port. -/
def completeObservation (label : String) (result : Except String WindowsUpdateObservation) :
    Except String WindowsUpdateObservation :=
  match result with
  | .error error => .error ("could not observe Windows Update " ++ label ++ ": " ++ error)
  | .ok observation => do
    requireComplete observation label
    return observation

/-- `observe_complete` (lines 191–200). -/
def observeComplete (port : ActionPort σ) (label : String) :
    PortM σ (Except String WindowsUpdateObservation) := do
  return completeObservation label (← callObserve port)

/-- `PreparedAction` (lines 92–95). -/
structure PreparedAction where
  pre : WindowsUpdateObservation
  expectedPost : WindowsUpdateObservation

/-- `Preparation` (lines 97–100). -/
inductive Preparation where
  | ready (prepared : PreparedAction)
  | failed (outcome : ActionOutcome)

/-- `prepare_action` (lines 102–148). -/
def prepareAction (d : Deps) (port : ActionPort σ) (actionId : ActionId)
    (capability : CapabilityId) (plan : WindowsUpdatePlan) : PortM σ Preparation := do
  match validatePlan capability plan with
  | .error detail => return .failed (failedBeforeStart .precondition detail)
  | .ok expectedPost =>
    match ← observeComplete port "pre-state" with
    | .error detail => return .failed (failedBeforeStart .precondition detail)
    | .ok pre =>
      if pre ≠ plan.observation then
        return .failed (failedBeforeStart .precondition
          "Windows Update pre-state does not exactly match the trusted plan")
      else
        let preDigest := canonicalJsonDigest d pre.toValue
        match ← callPersistRecovery port actionId pre expectedPost with
        | .error error =>
          return .failed (failedBeforeStart .recoveryEvidence
            ("could not persist manual recovery evidence: " ++ error))
        | .ok () =>
          match ← callAppend port (.actionStarted actionId.uuid.toText preDigest) with
          | .error error => return .failed (journalFailure false error)
          | .ok () => return .ready ⟨pre, expectedPost⟩

/-! ## Mutations -/

/-- What `apply_mutation` makes of the result of the port. -/
def mutationResult (mutation : WindowsUpdateMutation)
    (result : Except String PolicyValueSnapshot) : Except String Unit :=
  match result with
  | .error error =>
    .error ("Windows Update " ++ mutation.field.debugName ++ " mutation failed: " ++ error)
  | .ok observed =>
    if observed ≠ mutation.desired then
      .error ("Windows Update " ++ mutation.field.debugName ++
        " mutation returned an unexpected value")
    else .ok ()

/-- `apply_mutation` (lines 240–260). -/
def applyMutation (port : ActionPort σ) (mutation : WindowsUpdateMutation)
    (expected : PolicyValueSnapshot) : PortM σ (Except String Unit) := do
  return mutationResult mutation (← callMutate port mutation.field expected mutation.desired)

/-- The loop of `mutate_then_observe` (lines 210–229), up to its first failure. -/
def applyMutations (port : ActionPort σ) (pre : WindowsUpdateObservation) :
    List WindowsUpdateMutation → PortM σ (Except String Unit)
  | [] => return .ok ()
  | mutation :: rest => do
    match pre.values mutation.field with
    | none => throw "validated complete pre-state contains every mutation field"
    | some expected =>
      match ← applyMutation port mutation expected with
      | .error detail => return .error detail
      | .ok () => applyMutations port pre rest

/-! ## The terminal record -/

/-- `build_receipt` (lines 392–408). -/
def buildReceipt (d : Deps) (actionId : ActionId) (capability : CapabilityId)
    (pre post : WindowsUpdateObservation) (status : ActionStatus) : ActionReceiptV3 where
  actionId := actionId
  capability := capability
  preStateDigest := canonicalJsonDigest d pre.toValue
  postStateDigest := canonicalJsonDigest d post.toValue
  status := status

/-- `record_terminal` (lines 347–390). -/
def recordTerminal (d : Deps) (port : ActionPort σ) (actionId : ActionId)
    (capability : CapabilityId) (pre : WindowsUpdateObservation) (mutationAttempted : Bool)
    (observedPost : WindowsUpdateObservation) (status : ActionStatus)
    (failure : Option (FailurePhase × String)) : PortM σ ActionOutcome := do
  let receipt := buildReceipt d actionId capability pre observedPost status
  let receiptDigest := canonicalJsonDigest d receipt.toValue
  match ← callAppend port (.actionFinished actionId.uuid.toText status receiptDigest) with
  | .error error => return journalFailure mutationAttempted error
  | .ok () =>
    return {
      receipt := some receipt
      failure := failure.map fun f => ⟨f.1, f.2, mutationAttempted⟩
      rebootPossible := mutationAttempted
      mayFinishRun := true }

/-- `finish_after_mutations` (lines 262–305). -/
def finishAfterMutations (d : Deps) (port : ActionPort σ) (actionId : ActionId)
    (capability : CapabilityId) (pre expectedPost : WindowsUpdateObservation)
    (mutationAttempted : Bool) : PortM σ ActionOutcome := do
  match ← observeComplete port "post-state" with
  | .error detail => return unmatchedStart .postcondition detail mutationAttempted
  | .ok observedPost =>
    if observedPost ≠ expectedPost then
      recordTerminal d port actionId capability pre mutationAttempted observedPost .failed
        (some (.postcondition,
          "Windows Update post-state does not match the canonical expected state"))
    else
      recordTerminal d port actionId capability pre mutationAttempted observedPost .succeeded none

/-- `finish_failure` (lines 307–338). -/
def finishFailure (d : Deps) (port : ActionPort σ) (actionId : ActionId)
    (capability : CapabilityId) (pre : WindowsUpdateObservation) (phase : FailurePhase)
    (detail : String) (mutationAttempted : Bool) : PortM σ ActionOutcome := do
  match ← observeComplete port "failure post-state" with
  | .error observationError =>
    return unmatchedStart .postcondition (detail ++ "; " ++ observationError) mutationAttempted
  | .ok observedPost =>
    recordTerminal d port actionId capability pre mutationAttempted observedPost .failed
      (some (phase, detail))

/-- `mutate_then_observe` (lines 202–238). -/
def mutateThenObserve (d : Deps) (port : ActionPort σ) (actionId : ActionId)
    (capability : CapabilityId) (plan : WindowsUpdatePlan)
    (pre expectedPost : WindowsUpdateObservation) : PortM σ ActionOutcome := do
  match ← applyMutations port pre plan.mutations with
  | .error detail => finishFailure d port actionId capability pre .mutation detail true
  | .ok () =>
    finishAfterMutations d port actionId capability pre expectedPost (!plan.mutations.isEmpty)

/-- `execute_windows_update` (lines 72–90). -/
def executeWindowsUpdate (d : Deps) (port : ActionPort σ) (actionId : ActionId)
    (capability : CapabilityId) (plan : WindowsUpdatePlan) : PortM σ ActionOutcome := do
  match ← prepareAction d port actionId capability plan with
  | .failed outcome => return outcome
  | .ready prepared =>
    mutateThenObserve d port actionId capability plan prepared.pre prepared.expectedPost

end BaselineOps.Engine
