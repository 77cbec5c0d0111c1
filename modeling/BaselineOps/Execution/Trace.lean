import Mathlib
import BaselineOps.Execution.Action
import BaselineOps.Lib.Split

/-!
# Traces of a Windows Update execution

`ExecTrace` lists the traces of `execute_windows_update` with their outcomes, one constructor for
each way out of the function. `execute_emits` shows that there are no others, for every port and
with any invariant that the calls of the port keep. The safety properties are read off the traces.

* `execute_emits`: the function returns, without a panic, along one of the listed traces.
* `execute_trace_safe`: what holds of the calls and of the outcome, for every environment.
-/

namespace BaselineOps.Engine

open BaselineOps.Domain BaselineOps.Lib BaselineOps.Capabilities

/-! ## Plans -/

theorem requireComplete_ok_iff {observation : WindowsUpdateObservation} {label : String} :
    requireComplete observation label = .ok () ↔ ∀ f, (observation.values f).isSome = true := by
  unfold requireComplete
  constructor
  · intro h f
    split at h
    · rename_i hc
      exact hc.2 f (mem_windowsUpdateFields f)
    · cases h
  · intro h
    have hlen : observation.values.len = windowsUpdateFields.length := by
      unfold PolicyMap.len PolicyMap.entries
      induction windowsUpdateFields with
      | nil => rfl
      | cons f fs ih =>
        obtain ⟨v, hv⟩ := Option.isSome_iff_exists.mp (h f)
        simp [hv, ih]
    rw [if_pos ⟨hlen, fun f _ => h f⟩]

theorem resolveDesiredState_ok {parameters : WindowsUpdateParameters}
    {config : WindowsUpdateConfig} (h : resolveDesiredState parameters = .ok config) :
    config = (parameters.desired.or parameters.config).getD {} := by
  simp only [resolveDesiredState, except_bind_ok_iff] at h
  obtain ⟨-, -, -, -, -, -, h⟩ := h
  exact (Except.ok.inj h).symm

/-- What a validated plan satisfies. -/
structure ValidPlan (capability : CapabilityId) (plan : WindowsUpdatePlan) : Prop where
  capability_eq : capability.asStr = windowsUpdateCapability
  complete : ∀ f, (plan.observation.values f).isSome = true
  resolves : resolveDesiredState { config := none, desired := some plan.desired } =
    .ok plan.desired
  canonical : buildPlan plan.observation plan.desired = plan

theorem validatePlan_ok {capability : CapabilityId} {plan : WindowsUpdatePlan}
    {post : WindowsUpdateObservation} (h : validatePlan capability plan = .ok post) :
    ValidPlan capability plan ∧ post = expectedPostState plan := by
  unfold validatePlan at h
  by_cases hcap : capability.asStr ≠ windowsUpdateCapability
  · rw [if_pos hcap] at h
    cases h
  · rw [if_neg hcap] at h
    simp only [except_bind_ok_iff, Unique.exists_iff, PUnit.default_eq_unit,
      requireComplete_ok_iff] at h
    obtain ⟨hcomplete, -, desired, hdesired, h⟩ := h
    have hsame : desired = plan.desired := resolveDesiredState_ok hdesired
    subst hsame
    by_cases hcanon : buildPlan plan.observation plan.desired ≠ plan
    · rw [if_pos hcanon] at h
      cases h
    · rw [if_neg hcanon] at h
      cases h
      exact ⟨⟨not_not.mp hcap, hcomplete, hdesired, not_not.mp hcanon⟩, rfl⟩

/-! ## The traces -/

/-- The loop over the mutations: every call before the last one has returned the requested value;
    the last one decides the result. -/
inductive MutationRun (pre : WindowsUpdateObservation) :
    List WindowsUpdateMutation → List PortCall → Except String Unit → Prop where
  | done : MutationRun pre [] [] (.ok ())
  | failed {m rest expected result detail} (hexpected : pre.values m.field = some expected)
      (hresult : mutationResult m result = .error detail) :
      MutationRun pre (m :: rest) [.mutate m.field expected m.desired result] (.error detail)
  | step {m rest expected calls result} (hexpected : pre.values m.field = some expected)
      (h : MutationRun pre rest calls result) :
      MutationRun pre (m :: rest) (.mutate m.field expected m.desired (.ok m.desired) :: calls)
        result

/-- The label of the observation behind the mutations. -/
def finalLabel : Except String Unit → String
  | .ok () => "post-state"
  | .error _ => "failure post-state"

/-- The detail of a failed observation behind the mutations. -/
def finalDetail (detail : String) : Except String Unit → String
  | .ok () => detail
  | .error mutationDetail => mutationDetail ++ "; " ++ detail

/-- Whether a mutation was attempted, by the plan and the result of the loop. -/
def attempted (plan : WindowsUpdatePlan) : Except String Unit → Bool
  | .ok () => !plan.mutations.isEmpty
  | .error _ => true

/-- Status and failure of the terminal record. -/
def terminalStatus (plan : WindowsUpdatePlan) (post : WindowsUpdateObservation) :
    Except String Unit → ActionStatus × Option (FailurePhase × String)
  | .error detail => (.failed, some (.mutation, detail))
  | .ok () =>
    if post ≠ expectedPostState plan then
      (.failed, some (.postcondition,
        "Windows Update post-state does not match the canonical expected state"))
    else (.succeeded, none)

/-- The outcome of `record_terminal` by the result of its append. -/
def terminalOutcome (receipt : ActionReceiptV3) (failure : Option (FailurePhase × String))
    (mutationAttempted : Bool) : Except String Unit → ActionOutcome
  | .error error => journalFailure mutationAttempted error
  | .ok () =>
    { receipt := some receipt
      failure := failure.map fun f => ⟨f.1, f.2, mutationAttempted⟩
      rebootPossible := mutationAttempted
      mayFinishRun := true }

section Traces

variable (d : Deps) (actionId : ActionId) (capability : CapabilityId) (plan : WindowsUpdatePlan)

/-- The event that starts the action. -/
def startedEvent : JournalEvent :=
  .actionStarted actionId.uuid.toText (canonicalJsonDigest d plan.observation.toValue)

/-- The event that finishes the action with a receipt. -/
def finishedEvent (receipt : ActionReceiptV3) : JournalEvent :=
  .actionFinished actionId.uuid.toText receipt.status (canonicalJsonDigest d receipt.toValue)

/-- The calls in front of the first mutation, when none of them fails. -/
def startCalls : List PortCall :=
  [.observe (.ok plan.observation),
   .persistRecovery actionId plan.observation (expectedPostState plan) (.ok ()),
   .append (startedEvent d actionId plan) (.ok ())]

/-- The traces behind the mutations. -/
inductive FinishTrace (result : Except String Unit) : List PortCall → ActionOutcome → Prop where
  | unobserved {observed detail}
      (h : completeObservation (finalLabel result) observed = .error detail) :
      FinishTrace result [.observe observed]
        (unmatchedStart .postcondition (finalDetail detail result) (attempted plan result))
  | recorded {observed post receipt appended}
      (h : completeObservation (finalLabel result) observed = .ok post)
      (hreceipt : receipt = buildReceipt d actionId capability plan.observation post
        (terminalStatus plan post result).1) :
      FinishTrace result
        [.observe observed, .append (finishedEvent d actionId receipt) appended]
        (terminalOutcome receipt (terminalStatus plan post result).2 (attempted plan result)
          appended)

/-- The traces of `execute_windows_update` with their outcomes. -/
inductive ExecTrace : List PortCall → ActionOutcome → Prop where
  | invalid {detail} (h : validatePlan capability plan = .error detail) :
      ExecTrace [] (failedBeforeStart .precondition detail)
  | unobserved {observed detail} (hplan : ValidPlan capability plan)
      (h : completeObservation "pre-state" observed = .error detail) :
      ExecTrace [.observe observed] (failedBeforeStart .precondition detail)
  | changed {observed pre} (hplan : ValidPlan capability plan)
      (h : completeObservation "pre-state" observed = .ok pre) (hne : pre ≠ plan.observation) :
      ExecTrace [.observe observed] (failedBeforeStart .precondition
        "Windows Update pre-state does not exactly match the trusted plan")
  | unrecovered {error} (hplan : ValidPlan capability plan) :
      ExecTrace
        [.observe (.ok plan.observation),
         .persistRecovery actionId plan.observation (expectedPostState plan) (.error error)]
        (failedBeforeStart .recoveryEvidence
          ("could not persist manual recovery evidence: " ++ error))
  | unstarted {error} (hplan : ValidPlan capability plan) :
      ExecTrace
        [.observe (.ok plan.observation),
         .persistRecovery actionId plan.observation (expectedPostState plan) (.ok ()),
         .append (startedEvent d actionId plan) (.error error)]
        (journalFailure false error)
  | ran {mutations result tail outcome} (hplan : ValidPlan capability plan)
      (hrun : MutationRun plan.observation plan.mutations mutations result)
      (hfinish : FinishTrace d actionId capability plan result tail outcome) :
      ExecTrace (startCalls d actionId plan ++ mutations ++ tail) outcome

end Traces

/-! ## The function follows its traces -/

/-- `I` is kept by every call of the port. -/
structure PortInvariant {σ : Type} (port : ActionPort σ) (I : PortState σ → Prop) : Prop where
  observe : ∀ st, I st →
    I ⟨(port.observe st.port).2, st.calls ++ [.observe (port.observe st.port).1]⟩
  persistRecovery : ∀ st actionId pre post, I st →
    I ⟨(port.persistRecovery actionId pre post st.port).2, st.calls ++
      [.persistRecovery actionId pre post (port.persistRecovery actionId pre post st.port).1]⟩
  append : ∀ st event, I st →
    I ⟨(port.append event st.port).2, st.calls ++ [.append event (port.append event st.port).1]⟩
  mutate : ∀ st field expected desired, I st →
    I ⟨(port.mutate field expected desired st.port).2, st.calls ++
      [.mutate field expected desired (port.mutate field expected desired st.port).1]⟩

section Emission

variable {σ : Type} {port : ActionPort σ} {I : PortState σ → Prop} (hI : PortInvariant port I)
  {d : Deps} {actionId : ActionId} {capability : CapabilityId} {plan : WindowsUpdatePlan}

include hI

theorem callObserve_emits :
    Emits I PortState.calls (callObserve port) fun new r => new = [.observe r] := by
  intro st hst
  exact ⟨_, _, rfl, hI.observe st hst, _, rfl, rfl⟩

theorem callPersistRecovery_emits (pre post : WindowsUpdateObservation) :
    Emits I PortState.calls (callPersistRecovery port actionId pre post) fun new r =>
      new = [.persistRecovery actionId pre post r] := by
  intro st hst
  exact ⟨_, _, rfl, hI.persistRecovery st actionId pre post hst, _, rfl, rfl⟩

theorem callAppend_emits (event : JournalEvent) :
    Emits I PortState.calls (callAppend port event) fun new r => new = [.append event r] := by
  intro st hst
  exact ⟨_, _, rfl, hI.append st event hst, _, rfl, rfl⟩

theorem callMutate_emits (field : WindowsUpdateField) (expected desired : PolicyValueSnapshot) :
    Emits I PortState.calls (callMutate port field expected desired) fun new r =>
      new = [.mutate field expected desired r] := by
  intro st hst
  exact ⟨_, _, rfl, hI.mutate st field expected desired hst, _, rfl, rfl⟩

theorem observeComplete_emits (label : String) :
    Emits I PortState.calls (observeComplete port label) fun new r =>
      ∃ observed, new = [.observe observed] ∧ r = completeObservation label observed := by
  refine emits_bind (callObserve_emits hI) ?_
  rintro new observed rfl
  exact emits_pure ⟨observed, by simp, rfl⟩

theorem recordTerminal_emits (pre post : WindowsUpdateObservation) (mutationAttempted : Bool)
    (status : ActionStatus) (failure : Option (FailurePhase × String)) :
    Emits I PortState.calls
      (recordTerminal d port actionId capability pre mutationAttempted post status failure)
      fun new outcome => ∃ appended,
        new = [.append (finishedEvent d actionId
          (buildReceipt d actionId capability pre post status)) appended] ∧
        outcome = terminalOutcome (buildReceipt d actionId capability pre post status) failure
          mutationAttempted appended := by
  refine emits_bind (callAppend_emits hI _) ?_
  rintro new appended rfl
  cases appended with
  | error e => exact emits_pure ⟨.error e, by simp [finishedEvent, buildReceipt], rfl⟩
  | ok u => exact emits_pure ⟨.ok (), by simp [finishedEvent, buildReceipt], rfl⟩

/-- Induction on the mutations; the observation holds a value for each of them. -/
theorem applyMutations_emits {pre : WindowsUpdateObservation}
    {mutations : List WindowsUpdateMutation}
    (hpre : ∀ f, (pre.values f).isSome = true) :
    Emits I PortState.calls (applyMutations port pre mutations) (MutationRun pre mutations) := by
  induction mutations with
  | nil => exact emits_pure .done
  | cons m rest ih =>
    obtain ⟨expected, hexpected⟩ := Option.isSome_iff_exists.mp (hpre m.field)
    simp only [applyMutations, hexpected]
    refine emits_bind (Q := fun new r => ∃ result,
      new = [.mutate m.field expected m.desired result] ∧ r = mutationResult m result) ?_ ?_
    · refine emits_bind (callMutate_emits hI _ _ _) ?_
      rintro new result rfl
      exact emits_pure ⟨result, by simp, rfl⟩
    · rintro new r ⟨result, rfl, rfl⟩
      cases hresult : mutationResult m result with
      | error detail =>
        exact emits_pure (by simpa using MutationRun.failed hexpected hresult)
      | ok u =>
        refine ih.mono ?_
        intro more res hmore
        obtain rfl : result = .ok m.desired := by
          cases result with
          | error e => cases hresult
          | ok observed =>
            by_cases hobs : observed = m.desired
            · rw [hobs]
            · simp [mutationResult, hobs] at hresult
        exact .step hexpected hmore

theorem finish_emits (result : Except String Unit) :
    Emits I PortState.calls
      (match result with
        | .error detail =>
          finishFailure d port actionId capability plan.observation .mutation detail true
        | .ok () => finishAfterMutations d port actionId capability plan.observation
            (expectedPostState plan) (!plan.mutations.isEmpty))
      (FinishTrace d actionId capability plan result) := by
  cases result with
  | error detail =>
    refine emits_bind (observeComplete_emits hI _) ?_
    rintro new r ⟨observed, rfl, rfl⟩
    cases hobs : completeObservation "failure post-state" observed with
    | error e => exact emits_pure (FinishTrace.unobserved hobs)
    | ok post =>
      refine (recordTerminal_emits hI _ _ _ _ _).mono ?_
      rintro more outcome ⟨appended, rfl, rfl⟩
      exact FinishTrace.recorded hobs rfl
  | ok u =>
    refine emits_bind (observeComplete_emits hI _) ?_
    rintro new r ⟨observed, rfl, rfl⟩
    cases hobs : completeObservation "post-state" observed with
    | error e => exact emits_pure (FinishTrace.unobserved hobs)
    | ok post =>
      have hstatus : ∀ status failure, terminalStatus plan post (.ok ()) = (status, failure) →
          Emits I PortState.calls (recordTerminal d port actionId capability plan.observation
            (!plan.mutations.isEmpty) post status failure) fun more outcome =>
              FinishTrace d actionId capability plan (.ok ()) ([.observe observed] ++ more)
                outcome := by
        intro status failure hst
        refine (recordTerminal_emits hI _ _ _ _ _).mono ?_
        rintro more outcome ⟨appended, rfl, rfl⟩
        have htrace :=
          @FinishTrace.recorded d actionId capability plan (.ok ()) observed post _ appended hobs rfl
        rw [hst] at htrace
        exact htrace
      by_cases hpost : post ≠ expectedPostState plan
      · simp only [hpost, if_true, ne_eq, not_false_eq_true]
        exact hstatus _ _ (by simp [terminalStatus, hpost])
      · simp only [hpost, if_false]
        exact hstatus _ _ (by simp [terminalStatus, hpost])

theorem prepareAction_emits :
    Emits I PortState.calls (prepareAction d port actionId capability plan) fun new r =>
      (∃ outcome, r = .failed outcome ∧ ExecTrace d actionId capability plan new outcome) ∨
      (r = .ready ⟨plan.observation, expectedPostState plan⟩ ∧ ValidPlan capability plan ∧
        new = startCalls d actionId plan) := by
  unfold prepareAction
  cases hvalid : validatePlan capability plan with
  | error detail => exact emits_pure (.inl ⟨_, rfl, .invalid hvalid⟩)
  | ok post =>
    obtain ⟨hplan, rfl⟩ := validatePlan_ok hvalid
    refine emits_bind (observeComplete_emits hI _) ?_
    rintro new r ⟨observed, rfl, rfl⟩
    cases hobs : completeObservation "pre-state" observed with
    | error detail => exact emits_pure (.inl ⟨_, rfl, .unobserved hplan hobs⟩)
    | ok pre =>
      by_cases hne : pre ≠ plan.observation
      · simp only [hne, if_true, ne_eq, not_false_eq_true]
        exact emits_pure (.inl ⟨_, rfl, .changed hplan hobs hne⟩)
      · obtain rfl := not_not.mp hne
        have hsame : observed = .ok plan.observation := by
          cases observed with
          | error e => cases hobs
          | ok o =>
            obtain ⟨_, -, ho⟩ := except_bind_ok_iff.mp hobs
            rw [Except.ok.inj ho]
        subst hsame
        simp only [ne_eq, not_true_eq_false, if_false]
        refine emits_bind (callPersistRecovery_emits hI _ _) ?_
        rintro new persisted rfl
        cases persisted with
        | error e => exact emits_pure (.inl ⟨_, rfl, .unrecovered hplan⟩)
        | ok u =>
          refine emits_bind (callAppend_emits hI _) ?_
          rintro new appended rfl
          cases appended with
          | error e => exact emits_pure (.inl ⟨_, rfl, .unstarted hplan⟩)
          | ok u => exact emits_pure (.inr ⟨rfl, hplan, rfl⟩)

/-- The function returns, without a panic, along one of the listed traces. -/
theorem execute_emits :
    Emits I PortState.calls (executeWindowsUpdate d port actionId capability plan)
      (ExecTrace d actionId capability plan) := by
  refine emits_bind (prepareAction_emits hI) ?_
  rintro new r (⟨outcome, rfl, htrace⟩ | ⟨rfl, hplan, rfl⟩)
  · exact emits_pure (by simpa using htrace)
  · refine emits_bind (applyMutations_emits hI hplan.complete) ?_
    intro mutations result hrun
    refine Emits.mono (finish_emits hI result) ?_
    intro tail outcome hfinish
    rw [← List.append_assoc]
    exact .ran hplan hrun hfinish

end Emission

/-! ## Properties of the traces -/

/-- Field, expected value and requested value of a mutation call. -/
def PortCall.mutateArgs? :
    PortCall → Option (WindowsUpdateField × Option PolicyValueSnapshot × PolicyValueSnapshot)
  | .mutate field expected desired _ => some (field, some expected, desired)
  | _ => none

/-- The event that a call tries to append. -/
def PortCall.event? : PortCall → Option JournalEvent
  | .append event _ => some event
  | _ => none

/-- The event that a call has appended. -/
def PortCall.durableEvent? : PortCall → Option JournalEvent
  | .append event (.ok ()) => some event
  | _ => none

/-- Whether an event starts an action. -/
def JournalEvent.isStarted : JournalEvent → Bool
  | .actionStarted .. => true
  | _ => false

/-- Whether an event finishes an action. -/
def JournalEvent.isFinished : JournalEvent → Bool
  | .actionFinished .. => true
  | _ => false

/-- The calls in which a mutation was tried. -/
def mutateCalls (calls : List PortCall) :
    List (WindowsUpdateField × Option PolicyValueSnapshot × PolicyValueSnapshot) :=
  calls.filterMap PortCall.mutateArgs?

namespace MutationRun

variable {pre : WindowsUpdateObservation} {mutations : List WindowsUpdateMutation}
  {calls : List PortCall} {result : Except String Unit}

theorem isMutate (h : MutationRun pre mutations calls result) :
    ∀ c ∈ calls, ∃ field expected desired r, c = .mutate field expected desired r := by
  induction h with
  | done => simp
  | failed hexpected hresult =>
    intro c hc
    rw [List.mem_singleton] at hc
    exact ⟨_, _, _, _, hc⟩
  | step hexpected h ih =>
    intro c hc
    rcases List.mem_cons.mp hc with rfl | hc
    · exact ⟨_, _, _, _, rfl⟩
    · exact ih c hc

/-- The calls are a prefix of the mutations, in order, with the observed values as expected. -/
theorem prefix_of_plan (h : MutationRun pre mutations calls result) :
    ∃ n, mutateCalls calls =
      (mutations.take n).map fun m => (m.field, pre.values m.field, m.desired) := by
  induction h with
  | done => exact ⟨0, rfl⟩
  | failed hexpected hresult => exact ⟨1, by simp [mutateCalls, PortCall.mutateArgs?, hexpected]⟩
  | step hexpected h ih =>
    obtain ⟨n, hn⟩ := ih
    refine ⟨n + 1, ?_⟩
    rw [mutateCalls, List.filterMap_cons, PortCall.mutateArgs?, List.take_succ_cons, List.map_cons,
      ← hn, hexpected]
    rfl

/-- The loop ends at the first call that does not return the requested value. -/
theorem stops (h : MutationRun pre mutations calls result) {before after : List PortCall}
    {field : WindowsUpdateField} {expected desired : PolicyValueSnapshot}
    {r : Except String PolicyValueSnapshot}
    (hcalls : calls = before ++ .mutate field expected desired r :: after)
    (hr : r ≠ .ok desired) : after = [] := by
  induction h generalizing before with
  | done => simp at hcalls
  | failed hexpected hresult =>
    cases before with
    | nil => simpa using (List.cons.inj hcalls).2.symm
    | cons c before => simp at hcalls
  | step hexpected h ih =>
    cases before with
    | nil =>
      simp only [List.nil_append, List.cons.injEq, PortCall.mutate.injEq] at hcalls
      obtain ⟨⟨-, -, rfl, rfl⟩, -⟩ := hcalls
      exact absurd rfl hr
    | cons c before => exact ih (List.cons.inj hcalls).2

/-- A mutation was tried when the plan has one, or the loop has failed. -/
theorem calls_ne_nil_iff {plan : WindowsUpdatePlan} (hm : plan.mutations = mutations)
    (h : MutationRun pre mutations calls result) :
    attempted plan result = true ↔ calls ≠ [] := by
  cases h with
  | done => simp [attempted, hm]
  | failed hexpected hresult => simp [attempted]
  | step hexpected h =>
    cases result with
    | error e => simp [attempted]
    | ok u => simp [attempted, hm]

end MutationRun

section Safety

variable {d : Deps} {actionId : ActionId} {capability : CapabilityId} {plan : WindowsUpdatePlan}
  {calls : List PortCall} {outcome : ActionOutcome}

theorem FinishTrace.not_mutate {result : Except String Unit}
    (h : FinishTrace d actionId capability plan result calls outcome)
    (field : WindowsUpdateField) (expected desired : PolicyValueSnapshot)
    (r : Except String PolicyValueSnapshot) : .mutate field expected desired r ∉ calls := by
  cases h <;> simp

theorem not_mutate_startCalls (field : WindowsUpdateField) (expected desired : PolicyValueSnapshot)
    (r : Except String PolicyValueSnapshot) :
    .mutate field expected desired r ∉ startCalls d actionId plan := by
  simp [startCalls]

/-- A trace with a mutation is one that has started. -/
theorem ExecTrace.ran_of_mutate (h : ExecTrace d actionId capability plan calls outcome)
    {field : WindowsUpdateField} {expected desired : PolicyValueSnapshot}
    {r : Except String PolicyValueSnapshot} (hmem : .mutate field expected desired r ∈ calls) :
    ∃ mutations result tail, calls = startCalls d actionId plan ++ mutations ++ tail ∧
      MutationRun plan.observation plan.mutations mutations result ∧
      FinishTrace d actionId capability plan result tail outcome := by
  cases h with
  | invalid | unobserved | changed | unrecovered | unstarted => simp at hmem
  | ran hplan hrun hfinish => exact ⟨_, _, _, rfl, hrun, hfinish⟩

/-- The position of a mutation in a trace that has started. -/
theorem split_ran {mutations tail before after : List PortCall} {result : Except String Unit}
    (hfinish : FinishTrace d actionId capability plan result tail outcome)
    {field : WindowsUpdateField} {expected desired : PolicyValueSnapshot}
    {r : Except String PolicyValueSnapshot}
    (h : startCalls d actionId plan ++ mutations ++ tail =
      before ++ .mutate field expected desired r :: after) :
    ∃ c c', before = startCalls d actionId plan ++ c ∧
      mutations = c ++ .mutate field expected desired r :: c' ∧ after = c' ++ tail := by
  rw [List.append_assoc] at h
  obtain ⟨c, hbefore, hrest⟩ := split_right h (not_mutate_startCalls _ _ _ _)
  obtain ⟨c', hmutations, hafter⟩ := split_left hrest (hfinish.not_mutate _ _ _ _)
  exact ⟨c, c', hbefore, hmutations, hafter⟩

theorem filterMap_event_mutations {pre : WindowsUpdateObservation}
    {mutations : List WindowsUpdateMutation} {result : Except String Unit}
    (h : MutationRun pre mutations calls result) :
    calls.filterMap PortCall.event? = [] ∧ calls.filterMap PortCall.durableEvent? = [] := by
  constructor
  · rw [List.filterMap_eq_nil_iff]
    intro c hc
    obtain ⟨_, _, _, _, rfl⟩ := h.isMutate c hc
    rfl
  · rw [List.filterMap_eq_nil_iff]
    intro c hc
    obtain ⟨_, _, _, _, rfl⟩ := h.isMutate c hc
    rfl

theorem mutateCalls_tail {result : Except String Unit}
    (h : FinishTrace d actionId capability plan result calls outcome) : mutateCalls calls = [] := by
  cases h <;> rfl

/-- The events that a trace tries to append. -/
theorem ExecTrace.events (h : ExecTrace d actionId capability plan calls outcome) :
    calls.filterMap PortCall.event? = [] ∨
    calls.filterMap PortCall.event? = [startedEvent d actionId plan] ∨
    ∃ receipt, calls.filterMap PortCall.event? =
      [startedEvent d actionId plan, finishedEvent d actionId receipt] := by
  cases h with
  | invalid | unobserved | changed | unrecovered => exact .inl rfl
  | unstarted => exact .inr (.inl rfl)
  | ran hplan hrun hfinish =>
    right
    rw [List.filterMap_append, List.filterMap_append, (filterMap_event_mutations hrun).1]
    cases hfinish with
    | unobserved => exact .inl rfl
    | recorded => exact .inr ⟨_, rfl⟩

/-- The events that a trace has appended. -/
theorem ExecTrace.durableEvents (h : ExecTrace d actionId capability plan calls outcome) :
    calls.filterMap PortCall.durableEvent? <+: calls.filterMap PortCall.event? := by
  cases h with
  | invalid | unobserved | changed | unrecovered => exact List.prefix_rfl
  | unstarted => exact List.nil_prefix
  | ran hplan hrun hfinish =>
    simp only [List.filterMap_append, (filterMap_event_mutations hrun).1,
      (filterMap_event_mutations hrun).2]
    cases hfinish with
    | unobserved => exact List.prefix_rfl
    | @recorded observed post receipt appended h hreceipt =>
      cases appended with
      | error e => exact ⟨[finishedEvent d actionId receipt], rfl⟩
      | ok u => exact List.prefix_rfl

/-- Behind an approval, the events of an action are accepted by the lifecycle. -/
theorem action_events_language (planId : PlanId) (planDigest : Sha256Digest)
    (events : List JournalEvent)
    (h : events = [] ∨ events = [startedEvent d actionId plan] ∨
      ∃ receipt, events = [startedEvent d actionId plan, finishedEvent d actionId receipt]) :
    Language (.planApproved planId planDigest :: events) := by
  rw [language_iff_trace]
  have hid := actionId.uuid.toText_ne_empty
  rcases h with rfl | rfl | ⟨receipt, rfl⟩
  · exact ⟨_, Trace.idle wellFormedPairs_nil⟩
  · exact ⟨_, Trace.active wellFormedPairs_nil hid (by simp) (by simp [AllSucceeded])⟩
  · have hpairs : WellFormedPairs [⟨actionId.uuid.toText,
        canonicalJsonDigest d plan.observation.toValue, receipt.status,
        canonicalJsonDigest d receipt.toValue⟩] :=
      wellFormedPairs_concat.mpr
        ⟨wellFormedPairs_nil, by simp [AllSucceeded], hid, by simp⟩
    exact ⟨_, Trace.idle hpairs⟩

theorem language_of_prefix {xs ys : List JournalEvent} (hpre : xs <+: ys) (h : Language ys) :
    Language xs := by
  obtain ⟨zs, rfl⟩ := hpre
  rw [← replay_ok_iff_language] at h ⊢
  obtain ⟨s, hs⟩ := h
  rw [Lifecycle.replay_append] at hs
  obtain ⟨m, hm, -⟩ := except_bind_ok_iff.mp hs
  exact ⟨m, hm⟩

theorem ExecTrace.mutate_after_start (h : ExecTrace d actionId capability plan calls outcome)
    {before after : List PortCall} {field : WindowsUpdateField}
    {expected desired : PolicyValueSnapshot} {r : Except String PolicyValueSnapshot}
    (hcalls : calls = before ++ .mutate field expected desired r :: after) :
    ∃ c, before = startCalls d actionId plan ++ c := by
  obtain ⟨mutations, result, tail, hsplit, hrun, hfinish⟩ :=
    h.ran_of_mutate (hcalls ▸ List.mem_append_right _ List.mem_cons_self)
  obtain ⟨c, c', hbefore, -, -⟩ := split_ran hfinish (hsplit.symm.trans hcalls)
  exact ⟨c, hbefore⟩

theorem ExecTrace.mutate_stops (h : ExecTrace d actionId capability plan calls outcome)
    {before after : List PortCall} {field : WindowsUpdateField}
    {expected desired : PolicyValueSnapshot} {r : Except String PolicyValueSnapshot}
    (hcalls : calls = before ++ .mutate field expected desired r :: after)
    (hr : r ≠ .ok desired) : mutateCalls after = [] := by
  obtain ⟨mutations, result, tail, hsplit, hrun, hfinish⟩ :=
    h.ran_of_mutate (hcalls ▸ List.mem_append_right _ List.mem_cons_self)
  obtain ⟨c, c', -, hmutations, hafter⟩ := split_ran hfinish (hsplit.symm.trans hcalls)
  have hnil : c' = [] := hrun.stops hmutations hr
  rw [hafter, hnil, List.nil_append, mutateCalls_tail hfinish]

/-- The mutations of a trace: those of the loop, if it was reached. -/
theorem ExecTrace.mutateCalls_eq {mutations tail : List PortCall} {result : Except String Unit}
    (hfinish : FinishTrace d actionId capability plan result tail outcome) :
    mutateCalls (startCalls d actionId plan ++ mutations ++ tail) = mutateCalls mutations := by
  have htail := mutateCalls_tail hfinish
  unfold mutateCalls at htail ⊢
  rw [List.filterMap_append, List.filterMap_append, htail, List.append_nil]
  rfl

theorem ExecTrace.mutate_prefix (h : ExecTrace d actionId capability plan calls outcome) :
    ∃ n, mutateCalls calls = (plan.mutations.take n).map fun m =>
      (m.field, plan.observation.values m.field, m.desired) := by
  cases h with
  | invalid | unobserved | changed | unrecovered | unstarted => exact ⟨0, rfl⟩
  | ran hplan hrun hfinish =>
    rw [mutateCalls_eq hfinish]
    exact hrun.prefix_of_plan

theorem ExecTrace.pre_state (h : ExecTrace d actionId capability plan calls outcome)
    (hne : mutateCalls calls ≠ []) : ∃ rest, calls = .observe (.ok plan.observation) :: rest := by
  cases h with
  | invalid | unobserved | changed | unrecovered | unstarted => exact absurd rfl hne
  | ran hplan hrun hfinish => exact ⟨_, rfl⟩

theorem MutationRun.mutateCalls_ne_nil_iff {pre : WindowsUpdateObservation}
    {mutations : List WindowsUpdateMutation} {result : Except String Unit}
    (h : MutationRun pre mutations calls result) : mutateCalls calls ≠ [] ↔ calls ≠ [] := by
  cases h <;> simp [mutateCalls, PortCall.mutateArgs?]

/-- The calls that append an event, in a trace that has started. -/
theorem append_mem_ran {mutations tail : List PortCall} {result : Except String Unit}
    (hrun : MutationRun plan.observation plan.mutations mutations result) {event : JournalEvent}
    {appended : Except String Unit} :
    .append event appended ∈ startCalls d actionId plan ++ mutations ++ tail ↔
      (event = startedEvent d actionId plan ∧ appended = .ok ()) ∨
        .append event appended ∈ tail := by
  have hmutations : .append event appended ∉ mutations := by
    intro hmem
    obtain ⟨_, _, _, _, hc⟩ := hrun.isMutate _ hmem
    cases hc
  simp [startCalls, hmutations]

/-- The flags and the receipt of an outcome, by what became durable behind the mutations. -/
theorem FinishTrace.outcome_spec {result : Except String Unit}
    (h : FinishTrace d actionId capability plan result calls outcome) :
    outcome.rebootPossible = attempted plan result ∧
    (∀ failure, outcome.failure = some failure →
      failure.mutationAttempted = outcome.rebootPossible) ∧
    ((outcome.receipt = none ∧ outcome.mayFinishRun = false ∧
        ∀ event, .append event (.ok ()) ∉ calls) ∨
      ∃ receipt, outcome.receipt = some receipt ∧ receipt.actionId = actionId ∧
        outcome.mayFinishRun = true ∧
        ∀ event, .append event (.ok ()) ∈ calls ↔ event = finishedEvent d actionId receipt) := by
  cases h with
  | unobserved h => exact ⟨rfl, by rintro _ ⟨⟩; rfl, .inl ⟨rfl, rfl, by simp⟩⟩
  | @recorded observed post receipt appended h hreceipt =>
    cases appended with
    | error e => exact ⟨rfl, by rintro _ ⟨⟩; rfl, .inl ⟨rfl, rfl, by simp⟩⟩
    | ok u =>
      refine ⟨rfl, ?_, .inr ⟨receipt, rfl, by rw [hreceipt]; rfl, rfl, by simp⟩⟩
      intro failure hf
      obtain ⟨_, -, rfl⟩ := Option.map_eq_some_iff.mp hf
      rfl

/-- A trace that has started and its outcome: the durable events are the start and, when the
    outcome has a receipt, the finish of that receipt. -/
theorem ran_safe {mutations tail : List PortCall} {result : Except String Unit}
    (hrun : MutationRun plan.observation plan.mutations mutations result)
    (hfinish : FinishTrace d actionId capability plan result tail outcome)
    (hcalls : calls = startCalls d actionId plan ++ mutations ++ tail) :
    (outcome.receipt.isSome = true ↔
      ∃ event, event.isFinished = true ∧ .append event (.ok ()) ∈ calls) ∧
    (∀ id status digest, .append (.actionFinished id status digest) (.ok ()) ∈ calls →
      ∃ receipt, outcome.receipt = some receipt ∧ id = receipt.actionId.uuid.toText ∧
        status = receipt.status ∧ digest = canonicalJsonDigest d receipt.toValue) ∧
    (outcome.mayFinishRun = true ↔ outcome.receipt.isSome = true) := by
  subst hcalls
  obtain ⟨-, -, ⟨hnone, hfin, hdurable⟩ | ⟨receipt, hsome, hid, hfin, hdurable⟩⟩ :=
    hfinish.outcome_spec
  · refine ⟨?_, ?_, by simp [hnone, hfin]⟩
    · simp only [hnone, append_mem_ran hrun, hdurable, and_true, or_false]
      constructor
      · intro hno
        cases hno
      · rintro ⟨_, hfinished, rfl⟩
        cases hfinished
    · intro id status digest hmem
      rw [append_mem_ran hrun] at hmem
      rcases hmem with ⟨hstart, -⟩ | htail
      · cases hstart
      · exact absurd htail (hdurable _)
  · refine ⟨?_, ?_, by simp [hsome, hfin]⟩
    · simp only [hsome, Option.isSome_some, true_iff]
      exact ⟨finishedEvent d actionId receipt, rfl,
        (append_mem_ran hrun).mpr (.inr ((hdurable _).mpr rfl))⟩
    · intro id status digest hmem
      rw [append_mem_ran hrun, hdurable] at hmem
      rcases hmem with ⟨hstart, -⟩ | hfinished
      · cases hstart
      · cases hfinished
        exact ⟨receipt, hsome, by rw [hid], rfl, rfl⟩

/-- The safety properties of a trace and its outcome. -/
structure TraceSafe (d : Deps) (actionId : ActionId) (plan : WindowsUpdatePlan)
    (calls : List PortCall) (outcome : ActionOutcome) : Prop where
  /-- Every mutation follows a persisted recovery document and a durable start. -/
  mutate_after_start : ∀ before after field expected desired result,
    calls = before ++ .mutate field expected desired result :: after →
    ∃ a b c pre post event, before = a ++ .persistRecovery actionId pre post (.ok ()) ::
        (b ++ .append event (.ok ()) :: c) ∧ event.isStarted = true
  /-- The mutations are a prefix of the plan's, in order, with the values of the pre-state. -/
  mutate_prefix : ∃ n, mutateCalls calls =
    (plan.mutations.take n).map fun m => (m.field, plan.observation.values m.field, m.desired)
  /-- The pre-state was observed again and is the one of the plan. -/
  pre_state : mutateCalls calls ≠ [] → ∃ rest, calls = .observe (.ok plan.observation) :: rest
  /-- No mutation follows one that failed or returned another value. -/
  mutate_stops : ∀ before after field expected desired result,
    calls = before ++ .mutate field expected desired result :: after → result ≠ .ok desired →
    mutateCalls after = []
  /-- At most one start and one finish are appended. -/
  one_start : ((calls.filterMap PortCall.event?).filter JournalEvent.isStarted).length ≤ 1
  one_finish : ((calls.filterMap PortCall.event?).filter JournalEvent.isFinished).length ≤ 1
  /-- Behind an approval, the lifecycle accepts the events, also those that became durable. -/
  lifecycle : ∀ planId planDigest,
    (∃ s, Lifecycle.replay {} (.planApproved planId planDigest ::
      calls.filterMap PortCall.event?) = .ok s) ∧
    ∃ s, Lifecycle.replay {} (.planApproved planId planDigest ::
      calls.filterMap PortCall.durableEvent?) = .ok s
  /-- The outcome carries a receipt when a finish became durable, with the digest of that
      receipt. -/
  receipt_iff : outcome.receipt.isSome = true ↔
    ∃ event, event.isFinished = true ∧ .append event (.ok ()) ∈ calls
  receipt_digest : ∀ id status digest, .append (.actionFinished id status digest) (.ok ()) ∈ calls →
    ∃ receipt, outcome.receipt = some receipt ∧ id = receipt.actionId.uuid.toText ∧
      status = receipt.status ∧ digest = canonicalJsonDigest d receipt.toValue
  /-- A reboot is possible when a mutation was tried, and a failure says whether one was. -/
  reboot_iff : outcome.rebootPossible = true ↔ mutateCalls calls ≠ []
  failure_attempted : ∀ failure, outcome.failure = some failure →
    failure.mutationAttempted = outcome.rebootPossible
  /-- The run may be finished when no start was tried, or the finish became durable. -/
  may_finish_iff : outcome.mayFinishRun = true ↔
    (∀ event result, .append event result ∈ calls → event.isStarted = false) ∨
      ∃ event, event.isFinished = true ∧ .append event (.ok ()) ∈ calls

/-- Every trace with its outcome is safe. -/
theorem ExecTrace.safe (h : ExecTrace d actionId capability plan calls outcome) :
    TraceSafe d actionId plan calls outcome := by
  refine
    { mutate_after_start := ?_
      mutate_prefix := h.mutate_prefix
      pre_state := h.pre_state
      mutate_stops := fun before after field expected desired r => h.mutate_stops
      one_start := ?_
      one_finish := ?_
      lifecycle := ?_
      receipt_iff := ?_
      receipt_digest := ?_
      reboot_iff := ?_
      failure_attempted := ?_
      may_finish_iff := ?_ }
  · intro before after field expected desired r hcalls
    obtain ⟨c, hbefore⟩ := h.mutate_after_start hcalls
    exact ⟨[.observe (.ok plan.observation)], [], c, plan.observation, expectedPostState plan,
      startedEvent d actionId plan, hbefore, rfl⟩
  · rcases h.events with hev | hev | ⟨receipt, hev⟩ <;> rw [hev]
    · exact Nat.zero_le 1
    · exact Nat.le_refl 1
    · exact Nat.le_refl 1
  · rcases h.events with hev | hev | ⟨receipt, hev⟩ <;> rw [hev]
    · exact Nat.zero_le 1
    · exact Nat.zero_le 1
    · exact Nat.le_refl 1
  · intro planId planDigest
    have hlang := action_events_language planId planDigest _ h.events
    have hdurable : Language (.planApproved planId planDigest ::
        calls.filterMap PortCall.durableEvent?) :=
      language_of_prefix (List.prefix_cons_inj _ |>.mpr h.durableEvents) hlang
    exact ⟨replay_ok_iff_language.mpr hlang, replay_ok_iff_language.mpr hdurable⟩
  all_goals
    -- a trace that stops in front of the mutations has no receipt and sets no flag
    cases h with
    | invalid | unobserved | changed | unrecovered | unstarted =>
      simp [failedBeforeStart, journalFailure, unmatchedStart, mutateCalls, PortCall.mutateArgs?,
        startedEvent, JournalEvent.isStarted, JournalEvent.isFinished]
    | ran hplan hrun hfinish => ?_
  · exact (ran_safe hrun hfinish rfl).1
  · exact (ran_safe hrun hfinish rfl).2.1
  · rw [ExecTrace.mutateCalls_eq hfinish, hrun.mutateCalls_ne_nil_iff,
      ← hrun.calls_ne_nil_iff rfl, hfinish.outcome_spec.1]
  · exact hfinish.outcome_spec.2.1
  · rw [(ran_safe hrun hfinish rfl).2.2, (ran_safe hrun hfinish rfl).1]
    refine (or_iff_right ?_).symm
    intro hno
    cases hno _ _ ((append_mem_ran hrun).mpr (.inl ⟨rfl, rfl⟩))

end Safety

/-- For every port and every state of it, the function returns without reaching its `expect`, and
    the calls that it has made and its outcome are safe. -/
theorem execute_trace_safe {σ : Type} (d : Deps) (port : ActionPort σ) (s : σ)
    (actionId : ActionId) (capability : CapabilityId) (plan : WindowsUpdatePlan) :
    ∃ outcome st, executeWindowsUpdate d port actionId capability plan ⟨s, []⟩ =
        .ok outcome st ∧ TraceSafe d actionId plan st.calls outcome := by
  have hI : PortInvariant port fun _ => True :=
    ⟨fun _ _ => trivial, fun _ _ _ _ _ => trivial, fun _ _ _ => trivial, fun _ _ _ _ _ => trivial⟩
  obtain ⟨outcome, st, hrun, -, new, hnew, htrace⟩ :=
    execute_emits (d := d) hI ⟨s, []⟩ trivial
  refine ⟨outcome, st, hrun, ?_⟩
  rw [hnew]
  exact htrace.safe

end BaselineOps.Engine
