import Mathlib
import BaselineOps.Lib.EState
import BaselineOps.RunProfile.Scheduler

/-!
# The v2 schedule is complete and follows the dependencies

`Invoke-RunProfileSchedule` on any list of validated steps, with any children: every step has one
entry in `Results`, a child is called at most once and after all it depends on succeeded, a failure
that does not continue stops the run, and the steps that wait for a cycle are the ones reported.

* `Records`: what taking one step out of the pending list adds to the state.
* `Inv.records`, `Steps.inv`: the invariant over one turn and over a run.
* `invokeSchedule_dependencySafe`: the schedule as a whole.
-/

namespace BaselineOps.RunProfile

open BaselineOps.Domain BaselineOps.Lib Relation

variable {fold : String → String} {world : World} {options : Options} {steps : List ProfileStep}

/-! ## The graph of a profile -/

/-- The steps as a graph of folded names. -/
def stepGraph (fold : String → String) (steps : List ProfileStep) : List (String × List String) :=
  steps.map fun step => (fold step.script, step.dependencies.map fold)

/-- What `Test-ProfileValidationSteps` establishes (`00-Validate-Profile.helpers.ps1`, lines
    133–192): names are distinct without regard to case and dependencies name listed steps. -/
structure Validated (fold : String → String) (steps : List ProfileStep) : Prop where
  distinct : (steps.map fun step => fold step.script).Nodup
  known : ∀ step ∈ steps, ∀ dependency ∈ step.dependencies,
    fold dependency ∈ steps.map fun step => fold step.script

/-- One name waits for another. -/
def WaitsFor (fold : String → String) (steps : List ProfileStep) : String → String → Prop :=
  Kahn.WaitsFor (stepGraph fold steps)

/-- The step is on a cycle or depends, through other steps, on one that is. -/
def NeedsCycle (fold : String → String) (steps : List ProfileStep) (step : ProfileStep) : Prop :=
  ∃ y, ReflTransGen (WaitsFor fold steps) (fold step.script) y ∧ TransGen (WaitsFor fold steps) y y

theorem keys_stepGraph :
    Kahn.keys (stepGraph fold steps) = steps.map fun step => fold step.script := by
  rw [Kahn.keys, stepGraph, List.map_map]
  rfl

theorem mem_nodes_stepGraph {x : String} :
    x ∈ Kahn.nodes (stepGraph fold steps) ↔ ∃ step ∈ steps, fold step.script = x := by
  rw [Kahn.mem_nodes, keys_stepGraph, List.mem_map]

theorem waitsFor_iff {x y : String} : WaitsFor fold steps x y ↔
    ∃ step ∈ steps, fold step.script = x ∧ ∃ dependency ∈ step.dependencies, fold dependency = y := by
  simp only [WaitsFor, Kahn.WaitsFor, stepGraph, List.mem_map]
  constructor
  · rintro ⟨_, ⟨step, hstep, rfl⟩, rfl, hy⟩
    exact ⟨step, hstep, rfl, List.mem_map.mp hy⟩
  · rintro ⟨step, hstep, rfl, hy⟩
    exact ⟨_, ⟨step, hstep, rfl⟩, rfl, List.mem_map.mpr hy⟩

/-- The validated profiles, by their graphs. -/
theorem validated_iff : Validated fold steps ↔ (Kahn.keys (stepGraph fold steps)).Nodup ∧
    ∀ entry ∈ stepGraph fold steps, ∀ y ∈ entry.2, y ∈ Kahn.keys (stepGraph fold steps) := by
  rw [keys_stepGraph, stepGraph, List.forall_mem_map]
  simp only [List.forall_mem_map]
  exact ⟨fun h => ⟨h.distinct, h.known⟩, fun h => ⟨h.1, h.2⟩⟩

theorem Validated.eq_of_fold (h : Validated fold steps) {step step' : ProfileStep}
    (hstep : step ∈ steps) (hstep' : step' ∈ steps) (heq : fold step.script = fold step'.script) :
    step = step' :=
  List.inj_on_of_nodup_map h.distinct hstep hstep' heq

/-- With known dependencies a step is blocked exactly when it needs a cycle. -/
theorem Validated.blocked_iff (h : Validated fold steps) {step : ProfileStep} (hstep : step ∈ steps) :
    Blocked (Kahn.nodes (stepGraph fold steps)) (WaitsFor fold steps) (fold step.script) ↔
      NeedsCycle fold steps step := by
  constructor
  · rintro ⟨y, hreach, hy | hy⟩
    · -- the end of a path is the step itself or a dependency, and both are listed
      exfalso
      apply hy
      rw [mem_nodes_stepGraph]
      rcases ReflTransGen.cases_tail hreach with rfl | ⟨z, -, hz⟩
      · exact ⟨step, hstep, rfl⟩
      · obtain ⟨other, hother, -, dependency, hdep, rfl⟩ := waitsFor_iff.mp hz
        exact List.mem_map.mp (h.known other hother dependency hdep)
    · exact ⟨y, hreach, hy⟩
  · rintro ⟨y, hreach, hy⟩
    exact ⟨y, hreach, .inr hy⟩

/-! ## Dependencies and statuses -/

theorem dependencyLoop_eq (stepStatus : String → Option StepStatus) (dependencies : List String)
    (failed : Bool) : dependencyLoop fold stepStatus dependencies failed =
      if ∀ dependency ∈ dependencies, stepStatus (fold dependency) ≠ none then
        ⟨true, failed || dependencies.any fun dependency =>
          (stepStatus (fold dependency)).any fun status => !status.satisfies⟩
      else ⟨false, false⟩ := by
  induction dependencies generalizing failed with
  | nil => simp [dependencyLoop]
  | cons dependency rest ih =>
    cases hstatus : stepStatus (fold dependency) with
    | none => simp [dependencyLoop, hstatus]
    | some status => simp [dependencyLoop, hstatus, ih, Bool.or_assoc]

theorem getDependencyState_ready {step : ProfileStep} {stepStatus : String → Option StepStatus} :
    (getDependencyState fold step stepStatus).ready = true ↔
      ∀ dependency ∈ step.dependencies, stepStatus (fold dependency) ≠ none := by
  rw [getDependencyState, dependencyLoop_eq]
  split_ifs with h
  · exact iff_of_true rfl h
  · exact iff_of_false id h

/-- A step that is skipped has a dependency with another status. -/
theorem exists_of_failed {step : ProfileStep} {stepStatus : String → Option StepStatus}
    (h : getDependencyState fold step stepStatus = ⟨true, true⟩) :
    ∃ dependency ∈ step.dependencies, ∃ status,
      stepStatus (fold dependency) = some status ∧ status.satisfies = false := by
  rw [getDependencyState, dependencyLoop_eq] at h
  split_ifs at h with hall
  swap
  · cases h
  have hany := congrArg DependencyState.failed h
  simp only [Bool.false_or, List.any_eq_true, Option.any_eq_true, Bool.not_eq_true'] at hany
  obtain ⟨dependency, hmem, status, hstatus, hfail⟩ := hany
  exact ⟨dependency, hmem, status, hstatus, hfail⟩

/-- A step that is run has dependencies that all succeeded. -/
theorem forall_of_not_failed {step : ProfileStep} {stepStatus : String → Option StepStatus}
    (h : getDependencyState fold step stepStatus = ⟨true, false⟩) :
    ∀ dependency ∈ step.dependencies, ∃ status,
      stepStatus (fold dependency) = some status ∧ status.satisfies = true := by
  rw [getDependencyState, dependencyLoop_eq] at h
  split_ifs at h with hall
  swap
  · cases h
  have hany := congrArg DependencyState.failed h
  simp only [Bool.false_or, List.any_eq_false, Option.any_eq_true, Bool.not_eq_true', not_exists,
    not_and] at hany
  intro dependency hmem
  obtain ⟨status, hstatus⟩ := Option.ne_none_iff_exists'.mp (hall dependency hmem)
  exact ⟨status, hstatus, by simpa using hany dependency hmem status hstatus⟩

/-! ## What taking a step adds -/

/-- Findings that are not about a dependency cycle. -/
def NoCycle (findings : List Finding) : Prop :=
  ∀ severity message scripts, Finding.dependencyCycle severity message scripts ∉ findings

theorem NoCycle.append {findings added : List Finding} (h : NoCycle findings) (h' : NoCycle added) :
    NoCycle (findings ++ added) := by
  intro severity message scripts hmem
  rcases List.mem_append.mp hmem with hmem | hmem
  · exact h _ _ _ hmem
  · exact h' _ _ _ hmem

theorem noCycle_nil : NoCycle [] := by
  intro severity message scripts hmem
  cases hmem

theorem noCycle_passedOn (findings : List Value) :
    NoCycle (findings.map .passedOn) := by
  intro severity message scripts hmem
  obtain ⟨_, _, h⟩ := List.mem_map.mp hmem
  cases h

/-- One entry `result` for `step` is added after the events `calls`. -/
structure Records (fold : String → String) (s : State) (step : ProfileStep)
    (calls : List ScheduleEvent) (result : StepResult) (s' : State) : Prop where
  name : result.scriptName = step.script
  pending : s'.pending = s.pending
  results : s'.results = s.results ++ [result]
  stepStatus : s'.stepStatus = Function.update s.stepStatus (fold step.script) (some result.status)
  trace : s'.trace = s.trace ++ calls ++ [.recorded result]
  findings : ∃ added, s'.findings = s.findings ++ added ∧ NoCycle added

theorem records_addDependencySkip (s : State) (step : ProfileStep) :
    Records fold s step [] (skippedResult step.script "Skipped due to failed dependency.")
      (addDependencySkip fold s step.script) where
  name := rfl
  pending := rfl
  results := rfl
  stepStatus := rfl
  trace := by simp [addDependencySkip, State.record, State.setStatus]
  findings := ⟨[], by simp [addDependencySkip, State.record, State.setStatus], noCycle_nil⟩

theorem addExitMismatch_ok {scriptName declaredResult : String} {childResult : ChildObject}
    {processExitCode : ℤ} {outcome : StepOutcome} {result : List Finding × StepOutcome}
    (houtcome : outcome.status ≠ .skipped)
    (h : addExitMismatch fold scriptName declaredResult childResult processExitCode outcome =
      .ok result) : NoCycle result.1 ∧ result.2.status ≠ .skipped := by
  cases hactual : getActualExitCode childResult processExitCode with
  | error message =>
    simp [addExitMismatch, hactual, bind, Except.bind] at h
  | ok actual =>
    simp only [addExitMismatch, hactual, bind, Except.bind, pure, Except.pure] at h
    split_ifs at h with hexpected hdeclared
    · cases h
      exact ⟨noCycle_nil, houtcome⟩
    · cases h
      refine ⟨?_, fun hskipped => by cases hskipped⟩
      intro severity message scripts hmem
      rw [List.mem_singleton] at hmem
      cases hmem
    · cases h
      refine ⟨?_, houtcome⟩
      intro severity message scripts hmem
      rw [List.mem_singleton] at hmem
      cases hmem

theorem getChildOutcome_ok {scriptName : String} {objects : List ChildObject} {processExitCode : ℤ}
    {elapsedMs : ℕ} {result : List Finding × StepOutcome}
    (h : getChildOutcome fold scriptName objects processExitCode elapsedMs = .ok result) :
    NoCycle result.1 ∧ result.2.status ≠ .skipped := by
  unfold getChildOutcome at h
  split at h
  · cases h
    exact ⟨noCycle_nil, fun hskipped => by cases hskipped⟩
  · next childResult text token _ =>
    simp only [except_bind_ok_iff] at h
    obtain ⟨added, hadded, hresult⟩ := h
    cases hresult
    obtain ⟨hfindings, hstatus⟩ := addExitMismatch_ok (by cases token <;> simp [ResultToken.outcome]) hadded
    exact ⟨hfindings.append (noCycle_passedOn _), hstatus⟩

/-- A child leads to no finding about a cycle and is never recorded as skipped. -/
theorem childOutcome_spec (scriptName : String) (answer : Except String ChildOutput) (elapsedMs : ℕ) :
    NoCycle (childOutcome fold scriptName answer elapsedMs).1 ∧
      (childOutcome fold scriptName answer elapsedMs).2.status ≠ .skipped := by
  simp only [childOutcome]
  split
  · next outcome houtcome =>
    rw [except_bind_ok_iff] at houtcome
    obtain ⟨output, -, hresult⟩ := houtcome
    exact getChildOutcome_ok hresult
  · exact ⟨noCycle_nil, fun hskipped => by cases hskipped⟩

theorem stopsProfile_iff {s : State} {step : ProfileStep} :
    stopsProfile fold world options s step = true ↔
      (invokeStep fold world options s step).1.status = .failed ∧ step.continues = false := by
  simp [stopsProfile]

/-- How a step that is run appears in the trace: under `-WhatIf` no child is called. -/
theorem records_runStep (s : State) (step : ProfileStep) :
    ∃ calls result, Records fold s step calls result (runStep fold world options s step) ∧
      result.status = (invokeStep fold world options s step).1.status ∧
      ((calls = [] ∧ result.status = .skipped ∧ result.message = "Skipped (-WhatIf).") ∨
        ∃ parameters, calls = [.invoked parameters] ∧ parameters.scriptName = step.script ∧
          result.status ≠ .skipped) := by
  by_cases hwhatIf : options.whatIf = true
  · refine ⟨[], completedResult step.script (whatIfOutcome (world.elapsedMs s.results.length)), ?_, ?_,
      .inl ⟨rfl, rfl, rfl⟩⟩
    · simp only [runStep, invokeStep, if_pos hwhatIf]
      exact ⟨rfl, rfl, rfl, rfl, by simp [completeStep, State.record, State.setStatus],
        [], by simp [completeStep, State.record, State.setStatus], noCycle_nil⟩
    · simp [invokeStep, hwhatIf, completedResult]
  · let parameters := newStepParameters fold options s step
    let outcome := childOutcome fold step.script
      (world.child (invokedOf s.trace).length parameters) (world.elapsedMs s.results.length)
    obtain ⟨hfindings, hstatus⟩ : NoCycle outcome.1 ∧ outcome.2.status ≠ .skipped :=
      childOutcome_spec _ _ _
    refine ⟨[.invoked parameters], completedResult step.script outcome.2, ?_, ?_,
      .inr ⟨parameters, rfl, rfl, hstatus⟩⟩
    · simp only [runStep, invokeStep, if_neg hwhatIf]
      exact ⟨rfl, rfl, rfl, rfl, rfl, outcome.1, rfl, hfindings⟩
    · simp [invokeStep, hwhatIf, completedResult, outcome, parameters]

/-! ## The invariant -/

/-- The folded names of the entries. -/
def doneOf (fold : String → String) (results : List StepResult) : List String :=
  results.map fun result => fold result.scriptName

/-- A child that is called belongs to a step whose dependencies have all succeeded. -/
def CalledReady (fold : String → String) (steps : List ProfileStep) (before : List ScheduleEvent)
    (event : ScheduleEvent) : Prop :=
  ∀ parameters, event = .invoked parameters → ∃ step ∈ steps, step.script = parameters.scriptName ∧
    ∀ dependency ∈ step.dependencies, ∃ result ∈ recordedOf before,
      fold result.scriptName = fold dependency ∧ result.status.satisfies = true

/-- The step has a dependency that finished with another status than success or partial success. -/
def DependencyFailed (fold : String → String) (steps : List ProfileStep) (results : List StepResult)
    (scriptName : String) : Prop :=
  ∃ step ∈ steps, step.script = scriptName ∧ ∃ dependency ∈ step.dependencies,
    ∃ result ∈ results, fold result.scriptName = fold dependency ∧ result.status.satisfies = false

/-- An entry that says a dependency failed is right. -/
def SkipJustified (fold : String → String) (steps : List ProfileStep) (results : List StepResult)
    (result : StepResult) : Prop :=
  result.status = .skipped → result.message = "Skipped due to failed dependency." →
    DependencyFailed fold steps results result.scriptName

/-- What holds after every turn. -/
structure Inv (fold : String → String) (steps : List ProfileStep) (s : State) : Prop where
  linear : Linear (Kahn.nodes (stepGraph fold steps)) (WaitsFor fold steps) (doneOf fold s.results)
  pending : s.pending = steps.filter fun step => fold step.script ∉ doneOf fold s.results
  stepStatus : ∀ x status, s.stepStatus x = some status ↔
    ∃ result ∈ s.results, fold result.scriptName = x ∧ result.status = status
  named : ∀ result ∈ s.results, ∃ step ∈ steps, step.script = result.scriptName
  recorded : recordedOf s.trace = s.results
  calledReady : EachNext (CalledReady fold steps) s.trace
  calledOnce : ((invokedOf s.trace).map fun parameters => fold parameters.scriptName).Nodup
  calledDone : ∀ parameters ∈ invokedOf s.trace, fold parameters.scriptName ∈ doneOf fold s.results
  skipped : ∀ result ∈ s.results, SkipJustified fold steps s.results result
  findings : NoCycle s.findings

section Records

variable {s s' : State} {step : ProfileStep} {before after : List ProfileStep}
  {calls : List ScheduleEvent} {result : StepResult}

theorem Inv.mem_pending (h : Inv fold steps s) : step ∈ s.pending ↔
    step ∈ steps ∧ fold step.script ∉ doneOf fold s.results := by
  rw [h.pending, List.mem_filter, decide_eq_true_iff]

/-- A name has a status exactly when it is done. -/
theorem Inv.stepStatus_ne_none (h : Inv fold steps s) {x : String} :
    s.stepStatus x ≠ none ↔ x ∈ doneOf fold s.results := by
  rw [Option.ne_none_iff_exists', doneOf, List.mem_map]
  constructor
  · rintro ⟨status, hstatus⟩
    obtain ⟨result, hresult, hx, -⟩ := (h.stepStatus x status).mp hstatus
    exact ⟨result, hresult, hx⟩
  · rintro ⟨result, hresult, hx⟩
    exact ⟨result.status, (h.stepStatus x result.status).mpr ⟨result, hresult, hx, rfl⟩⟩

/-- A pending step whose dependencies have a status is ready. -/
theorem Inv.ready (hvalid : Validated fold steps) (h : Inv fold steps s) (hstep : step ∈ s.pending)
    (hdeps : ∀ dependency ∈ step.dependencies, s.stepStatus (fold dependency) ≠ none) :
    Ready (Kahn.nodes (stepGraph fold steps)) (WaitsFor fold steps) (doneOf fold s.results)
      (fold step.script) := by
  obtain ⟨hmem, hfresh⟩ := h.mem_pending.mp hstep
  refine ⟨mem_nodes_stepGraph.mpr ⟨step, hmem, rfl⟩, hfresh, ?_⟩
  intro y hy
  obtain ⟨other, hother, heq, dependency, hdependency, rfl⟩ := waitsFor_iff.mp hy
  rw [hvalid.eq_of_fold hother hmem heq] at hdependency
  exact h.stepStatus_ne_none.mp (hdeps dependency hdependency)

/-- Taking a step out of the pending list. -/
theorem Inv.pending_erase (hvalid : Validated fold steps) (h : Inv fold steps s)
    (hpending : s.pending = before ++ step :: after) :
    before ++ after =
      steps.filter fun other => fold other.script ∉ doneOf fold s.results ++ [fold step.script] := by
  have hfilter : (steps.filter fun other =>
      decide (fold other.script ∉ doneOf fold s.results ++ [fold step.script])) =
      s.pending.filter fun other => fold other.script ≠ fold step.script := by
    rw [h.pending, List.filter_filter]
    apply List.filter_congr
    intro other _
    simp [and_comm]
  have hnodup : (s.pending.map fun other => fold other.script).Nodup := by
    rw [h.pending]
    exact hvalid.distinct.sublist (List.filter_sublist.map _)
  rw [hpending, List.map_append, List.map_cons, List.nodup_append, List.nodup_cons] at hnodup
  obtain ⟨-, ⟨hafter, -⟩, hbefore⟩ := hnodup
  rw [hfilter, hpending, List.filter_append, List.filter_cons_of_neg (by simp),
    List.filter_eq_self.mpr, List.filter_eq_self.mpr]
  · intro other hother
    have hne : fold other.script ≠ fold step.script := by
      intro heq
      apply hafter
      rw [← heq]
      exact List.mem_map_of_mem (f := fun step => fold step.script) hother
    simpa using hne
  · intro other hother
    simpa using hbefore _ (List.mem_map_of_mem hother) _ List.mem_cons_self

/-- The calls that a turn for `step` may make: none, or one after its dependencies succeeded. -/
def CallsReady (fold : String → String) (s : State) (step : ProfileStep)
    (calls : List ScheduleEvent) : Prop :=
  calls = [] ∨ ∃ parameters, calls = [.invoked parameters] ∧ parameters.scriptName = step.script ∧
    ∀ dependency ∈ step.dependencies, ∃ status,
      s.stepStatus (fold dependency) = some status ∧ status.satisfies = true

theorem recordedOf_append (l l' : List ScheduleEvent) :
    recordedOf (l ++ l') = recordedOf l ++ recordedOf l' := List.filterMap_append

theorem invokedOf_append (l l' : List ScheduleEvent) :
    invokedOf (l ++ l') = invokedOf l ++ invokedOf l' := List.filterMap_append

theorem CallsReady.recordedOf (h : CallsReady fold s step calls) :
    RunProfile.recordedOf calls = [] := by
  rcases h with rfl | ⟨parameters, rfl, -⟩ <;> rfl

theorem CallsReady.scriptName (h : CallsReady fold s step calls) :
    ∀ parameters ∈ invokedOf calls, parameters.scriptName = step.script := by
  rcases h with rfl | ⟨parameters, rfl, hname, -⟩
  · intro parameters hmem
    cases hmem
  · intro other hmem
    rw [List.mem_singleton.mp hmem]
    exact hname

theorem CallsReady.length_le (h : CallsReady fold s step calls) : (invokedOf calls).length ≤ 1 := by
  rcases h with rfl | ⟨parameters, rfl, -⟩
  · exact Nat.zero_le _
  · exact le_refl _

/-- The calls of a turn and the entry after them keep the order of the trace. -/
theorem Inv.calledReady_append (h : Inv fold steps s) (hstep : step ∈ steps)
    (hcalls : CallsReady fold s step calls) :
    EachNext (CalledReady fold steps) (s.trace ++ calls ++ [.recorded result]) := by
  have hrecorded : ∀ trace, CalledReady fold steps trace (.recorded result) := by
    intro trace parameters heq
    cases heq
  apply eachNext_concat _ (hrecorded _)
  rcases hcalls with rfl | ⟨parameters, rfl, hname, hdeps⟩
  · rw [List.append_nil]
    exact h.calledReady
  · apply eachNext_concat h.calledReady
    rintro _ ⟨⟩
    refine ⟨step, hstep, hname.symm, ?_⟩
    intro dependency hdependency
    obtain ⟨status, hstatus, hsatisfies⟩ := hdeps dependency hdependency
    obtain ⟨result, hresult, hfold, rfl⟩ := (h.stepStatus _ _).mp hstatus
    rw [h.recorded]
    exact ⟨result, hresult, hfold, hsatisfies⟩

theorem DependencyFailed.append {results : List StepResult} {scriptName : String}
    (h : DependencyFailed fold steps results scriptName) (added : List StepResult) :
    DependencyFailed fold steps (results ++ added) scriptName := by
  obtain ⟨step, hstep, hname, dependency, hdependency, result, hresult, hfold⟩ := h
  exact ⟨step, hstep, hname, dependency, hdependency, result, List.mem_append_left _ hresult, hfold⟩

/-- The hashtable after the status of a fresh step is set. -/
theorem Inv.stepStatus_update (h : Inv fold steps s) (hname : result.scriptName = step.script)
    (hfresh : fold step.script ∉ doneOf fold s.results) {x : String} {status : StepStatus} :
    Function.update s.stepStatus (fold step.script) (some result.status) x = some status ↔
      ∃ other ∈ s.results ++ [result], fold other.scriptName = x ∧ other.status = status := by
  by_cases hx : x = fold step.script
  · subst hx
    rw [Function.update_self, Option.some.injEq]
    constructor
    · rintro rfl
      exact ⟨result, by simp, congrArg fold hname, rfl⟩
    · rintro ⟨other, hother, hfold, rfl⟩
      rcases List.mem_append.mp hother with hother | hother
      · exact absurd (List.mem_map.mpr ⟨other, hother, hfold⟩) hfresh
      · rw [List.mem_singleton.mp hother]
  · rw [Function.update_of_ne hx, h.stepStatus]
    constructor
    · rintro ⟨other, hother, hrest⟩
      exact ⟨other, List.mem_append_left _ hother, hrest⟩
    · rintro ⟨other, hother, hfold, hstatus⟩
      rcases List.mem_append.mp hother with hother | hother
      · exact ⟨other, hother, hfold, hstatus⟩
      · rw [List.mem_singleton.mp hother, hname] at hfold
        exact absurd hfold.symm hx

/-- A call for a fresh step is not a second one. -/
theorem Inv.calledOnce_append (h : Inv fold steps s)
    (hfresh : fold step.script ∉ doneOf fold s.results) (hcalls : CallsReady fold s step calls) :
    ((invokedOf s.trace ++ invokedOf calls).map fun parameters => fold parameters.scriptName).Nodup := by
  rw [List.map_append, List.nodup_append]
  refine ⟨h.calledOnce, ?_, ?_⟩
  · match hlist : invokedOf calls, hcalls.length_le with
    | [], _ => exact List.nodup_nil
    | [parameters], _ => exact List.nodup_singleton _
  · intro x hx y hy hxy
    obtain ⟨parameters, hparameters, rfl⟩ := List.mem_map.mp hx
    obtain ⟨called, hcalled, rfl⟩ := List.mem_map.mp hy
    apply hfresh
    rw [← hcalls.scriptName called hcalled, ← hxy]
    exact h.calledDone parameters hparameters

/-- Taking a ready step keeps the invariant. -/
theorem Inv.records (hvalid : Validated fold steps) (h : Inv fold steps s)
    (hpending : s.pending = before ++ step :: after)
    (hready : (getDependencyState fold step s.stepStatus).ready = true)
    (hrecords : Records fold { s with pending := before ++ after } step calls result s')
    (hcalls : CallsReady fold s step calls)
    (hskipped : result.status = .skipped → result.message = "Skipped due to failed dependency." →
      ∃ dependency ∈ step.dependencies, ∃ status,
        s.stepStatus (fold dependency) = some status ∧ status.satisfies = false) :
    Inv fold steps s' := by
  have hmem : step ∈ s.pending := by simp [hpending]
  obtain ⟨hstep, hfresh⟩ := h.mem_pending.mp hmem
  have hdone : doneOf fold s'.results = doneOf fold s.results ++ [fold step.script] := by
    rw [hrecords.results, doneOf, List.map_append, List.map_singleton, hrecords.name]
    rfl
  have hresults : s'.results = s.results ++ [result] := hrecords.results
  have htrace : s'.trace = s.trace ++ calls ++ [.recorded result] := hrecords.trace
  have hinvoked : invokedOf s'.trace = invokedOf s.trace ++ invokedOf calls := by
    rw [htrace, invokedOf_append, invokedOf_append]
    exact List.append_nil _
  refine ⟨?_, ?_, ?_, ?_, ?_, ?_, ?_, ?_, ?_, ?_⟩
  · rw [hdone]
    exact eachNext_concat h.linear (h.ready hvalid hmem (getDependencyState_ready.mp hready))
  · rw [hrecords.pending, hdone]
    exact h.pending_erase hvalid hpending
  · intro x status
    rw [hrecords.stepStatus, hresults]
    exact h.stepStatus_update hrecords.name hfresh
  · intro other hother
    rw [hresults, List.mem_append, List.mem_singleton] at hother
    rcases hother with hother | rfl
    · exact h.named other hother
    · exact ⟨step, hstep, hrecords.name.symm⟩
  · rw [htrace, recordedOf_append, recordedOf_append, hcalls.recordedOf, h.recorded, hresults,
      List.append_nil]
    rfl
  · rw [htrace]
    exact h.calledReady_append hstep hcalls
  · rw [hinvoked]
    exact h.calledOnce_append hfresh hcalls
  · intro parameters hparameters
    rw [hinvoked, List.mem_append] at hparameters
    rw [hdone, List.mem_append, List.mem_singleton]
    rcases hparameters with hparameters | hparameters
    · exact .inl (h.calledDone parameters hparameters)
    · exact .inr (congrArg fold (hcalls.scriptName parameters hparameters))
  · intro other hother hstatus hmessage
    rw [hresults] at hother ⊢
    rcases List.mem_append.mp hother with hother | hother
    · exact (h.skipped other hother hstatus hmessage).append _
    · rw [List.mem_singleton] at hother
      subst hother
      obtain ⟨dependency, hdependency, status, hsome, hfail⟩ := hskipped hstatus hmessage
      obtain ⟨failed, hfailed, hfold, rfl⟩ := (h.stepStatus _ _).mp hsome
      exact ⟨step, hstep, hrecords.name.symm, dependency, hdependency, failed,
        List.mem_append_left _ hfailed, hfold, hfail⟩
  · obtain ⟨added, hadded, hnone⟩ := hrecords.findings
    rw [hadded]
    exact h.findings.append hnone

/-- A step that is run, whether or not it ends the profile. -/
theorem Inv.runStep (hvalid : Validated fold steps) (h : Inv fold steps s)
    (hpending : s.pending = before ++ step :: after)
    (hstate : getDependencyState fold step s.stepStatus = ⟨true, false⟩) :
    Inv fold steps (RunProfile.runStep fold world options { s with pending := before ++ after } step) := by
  obtain ⟨calls, result, hrecords, -, hcalls⟩ :=
    @records_runStep fold world options { s with pending := before ++ after } step
  have hready : (getDependencyState fold step s.stepStatus).ready = true := by rw [hstate]
  rcases hcalls with ⟨rfl, -, hmessage⟩ | ⟨parameters, rfl, hname, hstatus⟩
  · refine h.records hvalid hpending hready hrecords (.inl rfl) ?_
    intro _ hother
    rw [hmessage] at hother
    exact absurd hother (by decide)
  · refine h.records hvalid hpending hready hrecords
      (.inr ⟨parameters, rfl, hname, forall_of_not_failed hstate⟩) ?_
    intro hskipped
    exact absurd hskipped hstatus

/-- A turn keeps the invariant. -/
theorem Turn.inv (hvalid : Validated fold steps) (hturn : Turn fold world options s step s')
    (h : Inv fold steps s) : Inv fold steps s' := by
  cases hturn with
  | skip hpending hstate =>
    refine h.records hvalid hpending (by rw [hstate]) (records_addDependencySkip _ step) (.inl rfl) ?_
    intro _ _
    exact exists_of_failed hstate
  | run hpending hstate _ => exact h.runStep hvalid hpending hstate

end Records

theorem inv_start (profileStrict profileRequireSigned : Bool)
    (expectedHashes : List (String × String)) (validation : List Value) :
    Inv fold steps (State.start profileStrict profileRequireSigned expectedHashes validation steps) where
  linear := eachNext_nil
  pending := by simp [State.start, doneOf]
  stepStatus := by simp [State.start]
  named := by simp [State.start]
  recorded := rfl
  calledReady := eachNext_nil
  calledOnce := List.nodup_nil
  calledDone := by simp [State.start, invokedOf]
  skipped := by simp [State.start]
  findings := noCycle_passedOn validation

/-- The invariant holds along a run. -/
theorem Steps.inv (hvalid : Validated fold steps) {s s' : State} {turns : List ProfileStep}
    (hturns : Steps (Turn fold world options) s turns s') (h : Inv fold steps s) :
    Inv fold steps s' :=
  Steps.run_induction (P := fun _ m => Inv fold steps m) h
    (fun _ _ _ _ _ ih hturn => hturn.inv hvalid ih) hturns

/-! ## Failures that stop the run -/

/-- Every step that failed continues on errors. -/
def NoFatal (steps : List ProfileStep) (results : List StepResult) : Prop :=
  ∀ result ∈ results, result.status = .failed → ∀ step ∈ steps, step.script = result.scriptName →
    step.continues = true

theorem NoFatal.append {results added : List StepResult} (h : NoFatal steps results)
    (hadded : ∀ result ∈ added, result.status = .skipped) : NoFatal steps (results ++ added) := by
  intro result hresult hfailed
  rcases List.mem_append.mp hresult with hresult | hresult
  · exact h result hresult hfailed
  · rw [hadded result hresult] at hfailed
    cases hfailed

theorem Turn.noFatal (hvalid : Validated fold steps) {s s' : State} {step : ProfileStep}
    (hturn : Turn fold world options s step s') (hinv : Inv fold steps s)
    (h : NoFatal steps s.results) : NoFatal steps s'.results := by
  cases hturn with
  | skip hpending hstate =>
    refine h.append ?_
    intro result hresult
    rw [List.mem_singleton.mp hresult]
    rfl
  | @run before after hpending hstate hgo =>
    obtain ⟨calls, result, hrecords, hstatus, -⟩ :=
      @records_runStep fold world options { s with pending := before ++ after } step
    have hstep : step ∈ steps := (hinv.mem_pending.mp (by simp [hpending])).1
    rw [hrecords.results]
    intro other hother hfailed other' hother' hname
    rcases List.mem_append.mp hother with hother | hother
    · exact h other hother hfailed other' hother' hname
    · rw [List.mem_singleton] at hother
      subst hother
      rw [hvalid.eq_of_fold hother' hstep (congrArg fold (hname.trans hrecords.name))]
      by_contra hcontinues
      rw [stopsProfile_iff.mpr ⟨hstatus ▸ hfailed, Bool.eq_false_iff.mpr hcontinues⟩] at hgo
      cases hgo

theorem Steps.noFatal (hvalid : Validated fold steps) {s s' : State} {turns : List ProfileStep}
    (hturns : Steps (Turn fold world options) s turns s') (hinv : Inv fold steps s)
    (h : NoFatal steps s.results) : NoFatal steps s'.results :=
  (Steps.run_induction (P := fun _ m => Inv fold steps m ∧ NoFatal steps m.results) ⟨hinv, h⟩
    (fun _ _ _ _ _ ih hturn => ⟨hturn.inv hvalid ih.1, hturn.noFatal hvalid ih.1 ih.2⟩) hturns).2

/-! ## The entries of the steps that are left over -/

/-- Entries are added, and nothing else that is reported changes. -/
structure Adds (s : State) (added : List StepResult) (s' : State) : Prop where
  results : s'.results = s.results ++ added
  trace : s'.trace = s.trace ++ added.map .recorded
  findings : s'.findings = s.findings

/-- A loop that adds one entry for every step. -/
theorem Adds.foldl (add : State → ProfileStep → State) (entry : ProfileStep → StepResult)
    (hadd : ∀ s step, Adds s [entry step] (add s step)) (left : List ProfileStep) (s : State) :
    Adds s (left.map entry) (left.foldl add s) := by
  induction left generalizing s with
  | nil => exact ⟨(List.append_nil _).symm, (List.append_nil _).symm, rfl⟩
  | cons step left ih =>
    obtain ⟨hresults, htrace, hfindings⟩ := ih (add s step)
    refine ⟨?_, ?_, hfindings.trans (hadd s step).findings⟩
    · rw [List.foldl_cons, hresults, (hadd s step).results, List.append_assoc]
      rfl
    · rw [List.foldl_cons, htrace, (hadd s step).trace, List.append_assoc]
      rfl

theorem adds_stopAfterFailure (s : State) (failedScript : String) :
    Adds s (s.pending.map fun step => stoppedResult failedScript step.script)
      (stopAfterFailure fold s failedScript) := by
  obtain ⟨hresults, htrace, hfindings⟩ := Adds.foldl
    (fun s remaining => (s.setStatus fold remaining.script .skipped).record
      (stoppedResult failedScript remaining.script))
    _ (fun _ _ => ⟨rfl, rfl, rfl⟩) s.pending s
  exact ⟨hresults, htrace, hfindings⟩

theorem adds_addDependencyCycle (s : State) :
    Adds (reportCycle s) (s.pending.map fun step =>
        skippedResult step.script "Dependency cycle or unresolved dependency.")
      (addDependencyCycle s) :=
  Adds.foldl (fun s remaining => s.record (skippedResult remaining.script
    "Dependency cycle or unresolved dependency.")) _ (fun _ _ => ⟨rfl, rfl, rfl⟩) s.pending
    (reportCycle s)

/-! ## The whole schedule -/

/-- What a schedule leaves behind. -/
structure DependencySafe (fold : String → String) (steps : List ProfileStep) (final : State) :
    Prop where
  /-- `Results` has exactly one entry for every step. -/
  complete : (final.results.map StepResult.scriptName).Perm (steps.map ProfileStep.script)
  recorded : recordedOf final.trace = final.results
  /-- A child is called at most once for a step. -/
  calledOnce : ((invokedOf final.trace).map fun parameters => fold parameters.scriptName).Nodup
  /-- A child is called when every dependency of its step has succeeded. -/
  calledReady : ∀ before parameters after, final.trace = before ++ .invoked parameters :: after →
    ∃ step ∈ steps, step.script = parameters.scriptName ∧
      ∀ dependency ∈ step.dependencies, ∃ result ∈ recordedOf before,
        fold result.scriptName = fold dependency ∧ result.status.satisfies = true
  /-- After a failure that does not continue, no child is called and what is left is skipped. -/
  stops : ∀ before result after, final.trace = before ++ .recorded result :: after →
    result.status = .failed → ∀ step ∈ steps, step.script = result.scriptName →
    step.continues = false → ∀ event ∈ after, ∃ other, event = .recorded other ∧ other.status = .skipped
  /-- An entry that blames a dependency has a dependency that did not succeed. -/
  skipped : ∀ result ∈ final.results, SkipJustified fold steps final.results result
  /-- A cycle is reported when some step needs one and the run was not stopped. -/
  cycleFound : (∃ severity message scripts,
      Finding.dependencyCycle severity message scripts ∈ final.findings) ↔
    (∃ step ∈ steps, NeedsCycle fold steps step) ∧ NoFatal steps final.results
  /-- The report names the steps that need a cycle. -/
  cycleNamed : ∀ severity message scripts,
    Finding.dependencyCycle severity message scripts ∈ final.findings →
      scripts.Nodup ∧ ∀ name, name ∈ scripts ↔
        ∃ step ∈ steps, step.script = name ∧ NeedsCycle fold steps step

section Ends

variable {s s' : State}

theorem doneOf_eq_map (results : List StepResult) :
    doneOf fold results = (results.map StepResult.scriptName).map fold := by
  rw [doneOf, List.map_map]
  rfl

theorem Validated.nodup_script (h : Validated fold steps) : (steps.map ProfileStep.script).Nodup := by
  apply List.Nodup.of_map fold
  rw [List.map_map]
  exact h.distinct

/-- The entries and the pending steps are all the steps. -/
theorem Inv.perm (hvalid : Validated fold steps) (h : Inv fold steps s) :
    (s.results.map StepResult.scriptName ++ s.pending.map ProfileStep.script).Perm
      (steps.map ProfileStep.script) := by
  have hnames : (s.results.map StepResult.scriptName).Perm
      ((steps.filter fun step => fold step.script ∈ doneOf fold s.results).map
        ProfileStep.script) := by
    rw [List.perm_ext_iff_of_nodup]
    · intro name
      simp only [List.mem_map, List.mem_filter, decide_eq_true_iff, doneOf]
      constructor
      · rintro ⟨result, hresult, rfl⟩
        obtain ⟨step, hstep, hname⟩ := h.named result hresult
        exact ⟨step, ⟨hstep, result, hresult, congrArg fold hname.symm⟩, hname⟩
      · rintro ⟨step, ⟨hstep, result, hresult, hfold⟩, rfl⟩
        obtain ⟨step', hstep', hname⟩ := h.named result hresult
        rw [← hname] at hfold
        rw [hvalid.eq_of_fold hstep hstep' hfold.symm]
        exact ⟨result, hresult, hname.symm⟩
    · apply List.Nodup.of_map fold
      rw [← doneOf_eq_map]
      exact h.linear.nodup
    · exact hvalid.nodup_script.sublist (List.filter_sublist.map _)
  refine (hnames.append_right _).trans ?_
  rw [h.pending, ← List.map_append]
  apply List.Perm.map
  have hfilter : (steps.filter fun step => decide (fold step.script ∉ doneOf fold s.results)) =
      steps.filter fun step => !decide (fold step.script ∈ doneOf fold s.results) :=
    List.filter_congr fun step _ => by simp
  rw [hfilter]
  exact List.filter_append_perm _ steps

/-- When nothing pending is ready, the pending steps are those that need a cycle. -/
theorem Inv.mem_pending_iff (hvalid : Validated fold steps) (h : Inv fold steps s)
    (hnone : ∀ step ∈ s.pending, (getDependencyState fold step s.stepStatus).ready = false)
    {step : ProfileStep} (hstep : step ∈ steps) :
    step ∈ s.pending ↔ NeedsCycle fold steps step := by
  have hstuck : Stuck (Kahn.nodes (stepGraph fold steps)) (WaitsFor fold steps)
      (doneOf fold s.results) := by
    rintro x ⟨hmem, hfresh, hdeps⟩
    obtain ⟨other, hother, rfl⟩ := mem_nodes_stepGraph.mp hmem
    have hready : (getDependencyState fold other s.stepStatus).ready = true := by
      rw [getDependencyState_ready]
      intro dependency hdependency
      exact h.stepStatus_ne_none.mpr
        (hdeps _ (waitsFor_iff.mpr ⟨other, hother, rfl, dependency, hdependency, rfl⟩))
    rw [hnone other (h.mem_pending.mpr ⟨hother, hfresh⟩)] at hready
    cases hready
  rw [h.mem_pending, and_iff_right hstep, h.linear.notMem_iff_of_stuck hstuck,
    hvalid.blocked_iff hstep]

theorem recordedOf_map_recorded (added : List StepResult) :
    recordedOf (added.map .recorded) = added := by
  rw [recordedOf, List.filterMap_map]
  exact List.filterMap_some

theorem invokedOf_map_recorded (added : List StepResult) : invokedOf (added.map .recorded) = [] := by
  rw [invokedOf, List.filterMap_map]
  exact List.filterMap_eq_nil_iff.mpr fun _ _ => rfl

/-- Entries without a call keep the order of the trace. -/
theorem eachNext_append_recorded {trace : List ScheduleEvent}
    (h : EachNext (CalledReady fold steps) trace) (added : List StepResult) :
    EachNext (CalledReady fold steps) (trace ++ added.map .recorded) := by
  induction added using List.reverseRecOn with
  | nil =>
    rw [List.map_nil, List.append_nil]
    exact h
  | append_singleton added result ih =>
    rw [List.map_append, ← List.append_assoc]
    apply eachNext_concat ih
    intro parameters heq
    cases heq

/-- Adding entries for all pending steps completes a run: what the entries are called, and what
    the trace says about calls and skips. -/
theorem Inv.adds (hvalid : Validated fold steps) (h : Inv fold steps s) {start : State}
    {entry : ProfileStep → StepResult} (hadds : Adds start (s.pending.map entry) s')
    (hresults : start.results = s.results) (htrace : start.trace = s.trace)
    (hentry : ∀ step, (entry step).scriptName = step.script ∧ (entry step).status = .skipped ∧
      (entry step).message ≠ "Skipped due to failed dependency.") :
    (s'.results.map StepResult.scriptName).Perm (steps.map ProfileStep.script) ∧
    recordedOf s'.trace = s'.results ∧
    ((invokedOf s'.trace).map fun parameters => fold parameters.scriptName).Nodup ∧
    EachNext (CalledReady fold steps) s'.trace ∧
    ∀ result ∈ s'.results, SkipJustified fold steps s'.results result := by
  have hresults' : s'.results = s.results ++ s.pending.map entry := by rw [hadds.results, hresults]
  have htrace' : s'.trace = s.trace ++ (s.pending.map entry).map .recorded := by
    rw [hadds.trace, htrace]
  refine ⟨?_, ?_, ?_, ?_, ?_⟩
  · have hnames : (s.pending.map entry).map StepResult.scriptName =
        s.pending.map ProfileStep.script := by
      rw [List.map_map]
      exact List.map_congr_left fun step _ => (hentry step).1
    rw [hresults', List.map_append, hnames]
    exact h.perm hvalid
  · rw [htrace', recordedOf_append, recordedOf_map_recorded, h.recorded, hresults']
  · rw [htrace', invokedOf_append, invokedOf_map_recorded, List.append_nil]
    exact h.calledOnce
  · rw [htrace']
    exact eachNext_append_recorded h.calledReady _
  · intro result hresult hstatus hmessage
    rw [hresults'] at hresult ⊢
    rcases List.mem_append.mp hresult with hresult | hresult
    · exact (h.skipped result hresult hstatus hmessage).append _
    · obtain ⟨step, -, rfl⟩ := List.mem_map.mp hresult
      exact absurd hmessage (hentry step).2.2

theorem stoppedResult_message_ne (failedScript scriptName : String) :
    (stoppedResult failedScript scriptName).message ≠ "Skipped due to failed dependency." := by
  intro h
  have hhead := congrArg (fun text => text.toList.head?) h
  simp [stoppedResult, skippedResult] at hhead

theorem mem_recordedOf {trace : List ScheduleEvent} {result : StepResult}
    (h : ScheduleEvent.recorded result ∈ trace) : result ∈ recordedOf trace :=
  List.mem_filterMap.mpr ⟨_, h, rfl⟩

/-- A fatal entry of a trace that was stopped is the one before the entries of the stop. -/
theorem stops_of_append {trace : List ScheduleEvent} {result : StepResult} {added : List StepResult}
    (hnone : NoFatal steps (recordedOf trace)) (hadded : ∀ other ∈ added, other.status = .skipped)
    {before after : List ScheduleEvent} {fatal : StepResult}
    (hsplit : trace ++ .recorded result :: added.map .recorded = before ++ .recorded fatal :: after)
    (hfailed : fatal.status = .failed) {step : ProfileStep} (hstep : step ∈ steps)
    (hname : step.script = fatal.scriptName) (hcontinues : step.continues = false) :
    ∀ event ∈ after, ∃ other, event = .recorded other ∧ other.status = .skipped := by
  have hlast : after = added.map .recorded →
      ∀ event ∈ after, ∃ other, event = .recorded other ∧ other.status = .skipped := by
    rintro rfl event hevent
    obtain ⟨other, hother, rfl⟩ := List.mem_map.mp hevent
    exact ⟨other, rfl, hadded other hother⟩
  rcases List.append_eq_append_iff.mp hsplit with ⟨middle, -, htail⟩ | ⟨middle, htrace, htail⟩
  · cases middle with
    | nil => exact hlast (List.cons.inj htail).2.symm
    | cons event middle =>
      -- behind the entry of the failed step there are only skipped ones
      have hmem : ScheduleEvent.recorded fatal ∈ added.map ScheduleEvent.recorded := by
        rw [(List.cons.inj htail).2]
        simp
      obtain ⟨other, hother, heq⟩ := List.mem_map.mp hmem
      cases heq
      rw [hadded fatal hother] at hfailed
      cases hfailed
  · cases middle with
    | nil => exact hlast (List.cons.inj htail).2
    | cons event middle =>
      have hmem : ScheduleEvent.recorded fatal ∈ trace := by
        rw [htrace, (List.cons.inj htail).1]
        simp
      rw [hnone fatal (mem_recordedOf hmem) hfailed step hstep hname] at hcontinues
      cases hcontinues

/-- Without a fatal entry the condition on stops is empty. -/
theorem stops_of_noFatal {trace : List ScheduleEvent} (hnone : NoFatal steps (recordedOf trace))
    {before after : List ScheduleEvent} {fatal : StepResult}
    (hsplit : trace = before ++ .recorded fatal :: after) (hfailed : fatal.status = .failed)
    {step : ProfileStep} (hstep : step ∈ steps) (hname : step.script = fatal.scriptName)
    (hcontinues : step.continues = false) : False := by
  have hmem : ScheduleEvent.recorded fatal ∈ trace := by
    rw [hsplit]
    simp
  rw [hnone fatal (mem_recordedOf hmem) hfailed step hstep hname] at hcontinues
  cases hcontinues

/-- A run that ends with nothing pending. -/
theorem dependencySafe_complete (hvalid : Validated fold steps) (hinv : Inv fold steps s)
    (hfatal : NoFatal steps s.results) (hpending : s.pending = []) : DependencySafe fold steps s := by
  have hadds : Adds s (s.pending.map fun step => skippedResult step.script "") s := by
    rw [hpending]
    exact ⟨(List.append_nil _).symm, (List.append_nil _).symm, rfl⟩
  obtain ⟨hcomplete, hrecorded, honce, hready, hskipped⟩ :=
    hinv.adds hvalid hadds rfl rfl fun _ => ⟨rfl, rfl, by simp [skippedResult]⟩
  refine ⟨hcomplete, hrecorded, honce, ?_, ?_, hskipped, ?_, ?_⟩
  · intro before parameters after hsplit
    exact hready before _ after hsplit parameters rfl
  · intro before result after hsplit hfailed step hstep hname hcontinues
    exact (stops_of_noFatal (hrecorded ▸ hfatal) hsplit hfailed hstep hname hcontinues).elim
  · constructor
    · rintro ⟨severity, message, scripts, hmem⟩
      exact (hinv.findings _ _ _ hmem).elim
    · rintro ⟨⟨step, hstep, hcycle⟩, -⟩
      rw [← hinv.mem_pending_iff hvalid (by simp [hpending]) hstep, hpending] at hcycle
      cases hcycle
  · intro severity message scripts hmem
    exact (hinv.findings _ _ _ hmem).elim

/-- A run that ends with a report of a cycle. -/
theorem dependencySafe_cycle (hvalid : Validated fold steps) (hinv : Inv fold steps s)
    (hfatal : NoFatal steps s.results) (hpending : s.pending ≠ [])
    (hnone : ∀ step ∈ s.pending, (getDependencyState fold step s.stepStatus).ready = false) :
    DependencySafe fold steps (addDependencyCycle s) := by
  have hadds := adds_addDependencyCycle s
  obtain ⟨hcomplete, hrecorded, honce, hready, hskipped⟩ :=
    hinv.adds hvalid hadds rfl rfl fun _ => ⟨rfl, rfl, by simp [skippedResult]⟩
  have hfatal' : NoFatal steps (addDependencyCycle s).results := by
    rw [hadds.results]
    apply NoFatal.append hfatal
    intro result hresult
    obtain ⟨step, -, rfl⟩ := List.mem_map.mp hresult
    rfl
  have hmem : ∀ severity message scripts,
      Finding.dependencyCycle severity message scripts ∈ (addDependencyCycle s).findings →
        scripts = s.pending.map ProfileStep.script := by
    intro severity message scripts hfinding
    rw [hadds.findings] at hfinding
    rcases List.mem_append.mp hfinding with hfinding | hfinding
    · exact (hinv.findings _ _ _ hfinding).elim
    · cases List.mem_singleton.mp hfinding
      rfl
  refine ⟨hcomplete, hrecorded, honce, ?_, ?_, hskipped, ?_, ?_⟩
  · intro before parameters after hsplit
    exact hready before _ after hsplit parameters rfl
  · intro before result after hsplit hfailed step hstep hname hcontinues
    exact (stops_of_noFatal (hrecorded ▸ hfatal') hsplit hfailed hstep hname hcontinues).elim
  · constructor
    · rintro -
      obtain ⟨step, hstep⟩ := List.exists_mem_of_ne_nil _ hpending
      have hlisted := (hinv.mem_pending.mp hstep).1
      exact ⟨⟨step, hlisted, (hinv.mem_pending_iff hvalid hnone hlisted).mp hstep⟩, hfatal'⟩
    · rintro -
      rw [hadds.findings]
      exact ⟨_, _, _, List.mem_append_right _ List.mem_cons_self⟩
  · intro severity message scripts hfinding
    rw [hmem _ _ _ hfinding]
    constructor
    · rw [hinv.pending]
      exact hvalid.nodup_script.sublist (List.filter_sublist.map _)
    · intro name
      rw [List.mem_map]
      constructor
      · rintro ⟨step, hstep, rfl⟩
        have hlisted := (hinv.mem_pending.mp hstep).1
        exact ⟨step, hlisted, rfl, (hinv.mem_pending_iff hvalid hnone hlisted).mp hstep⟩
      · rintro ⟨step, hlisted, rfl, hcycle⟩
        exact ⟨step, (hinv.mem_pending_iff hvalid hnone hlisted).mpr hcycle, rfl⟩

/-- A run that a failure stops. -/
theorem dependencySafe_stop (hvalid : Validated fold steps) (hinv : Inv fold steps s)
    (hfatal : NoFatal steps s.results) {step : ProfileStep}
    (hstop : Stop fold world options s step s') : DependencySafe fold steps s' := by
  obtain @⟨before, after, hpending, hstate, hstops⟩ := hstop
  have hstep : step ∈ steps := (hinv.mem_pending.mp (by simp [hpending])).1
  obtain ⟨calls, result, hrecords, hfailed, hcalls⟩ :=
    @records_runStep fold world options { s with pending := before ++ after } step
  have hinv' := @Inv.runStep fold world options _ _ _ _ _ hvalid hinv hpending hstate
  have hadds := @adds_stopAfterFailure fold
    (runStep fold world options { s with pending := before ++ after } step) step.script
  obtain ⟨hcomplete, hrecorded, honce, hready, hskipped⟩ :=
    hinv'.adds hvalid hadds rfl rfl fun _ => ⟨rfl, rfl, stoppedResult_message_ne _ _⟩
  obtain ⟨hstatus, hcontinues⟩ := stopsProfile_iff.mp hstops
  rw [← hfailed] at hstatus
  refine ⟨hcomplete, hrecorded, honce, ?_, ?_, hskipped, ?_, ?_⟩
  · intro before parameters after hsplit
    exact hready before _ after hsplit parameters rfl
  · intro before' fatal after' hsplit
    rw [hadds.trace, hrecords.trace, List.append_assoc] at hsplit
    refine stops_of_append ?_ ?_ hsplit
    · have hnone : recordedOf calls = [] := by
        rcases hcalls with ⟨rfl, -⟩ | ⟨parameters, rfl, -⟩ <;> rfl
      rw [recordedOf_append, hnone, List.append_nil, hinv.recorded]
      exact hfatal
    · intro other hother
      obtain ⟨remaining, -, rfl⟩ := List.mem_map.mp hother
      rfl
  · constructor
    · rintro ⟨severity, message, scripts, hmem⟩
      rw [hadds.findings] at hmem
      exact (hinv'.findings _ _ _ hmem).elim
    · rintro ⟨-, hnone⟩
      rw [hnone result ?_ hstatus step hstep hrecords.name.symm] at hcontinues
      · cases hcontinues
      · rw [hadds.results, hrecords.results]
        simp
  · intro severity message scripts hmem
    rw [hadds.findings] at hmem
    exact (hinv'.findings _ _ _ hmem).elim

end Ends

/-- The v2 schedule is complete and dependency safe, whatever the children do. -/
theorem invokeSchedule_dependencySafe (hvalid : Validated fold steps)
    (profileStrict profileRequireSigned : Bool) (expectedHashes : List (String × String))
    (validation : List Value) :
    DependencySafe fold steps (invokeSchedule fold world options
      (State.start profileStrict profileRequireSigned expectedHashes validation steps)) := by
  obtain ⟨turns, m, hturns, hends⟩ := @invokeSchedule_spec fold world options
    (State.start profileStrict profileRequireSigned expectedHashes validation steps)
  have hstart : Inv fold steps
      (State.start profileStrict profileRequireSigned expectedHashes validation steps) :=
    inv_start _ _ _ _
  have hinv := Steps.inv hvalid hturns hstart
  have hfatal : NoFatal steps m.results :=
    Steps.noFatal hvalid hturns hstart fun result hresult => absurd hresult List.not_mem_nil
  generalize invokeSchedule fold world options
    (State.start profileStrict profileRequireSigned expectedHashes validation steps) = final at hends ⊢
  cases hends with
  | complete hpending => exact dependencySafe_complete hvalid hinv hfatal hpending
  | stopped hstop => exact dependencySafe_stop hvalid hinv hfatal hstop
  | cycle hpending hnone => exact dependencySafe_cycle hvalid hinv hfatal hpending hnone

/-- A runner that calls children without `-WhatIf`. -/
def sampleOptions : Options where
  mode := "Audit"
  rootPath := "C:\\BaselineOps"
  whatIf := false
  confirm := none

/-- The first child succeeds and every later one throws. -/
def sampleWorld : World where
  child n _ :=
    if n = 0 then
      .ok { objects := [⟨some "OK", none, none, []⟩], lastExitCode := some 0 }
    else .error "The script has failed."
  elapsedMs n := n

/-- A step that fails but continues, one that waits for it, and two that wait for each other. -/
def sampleSteps : List ProfileStep :=
  [⟨"10-Collect.ps1", some ["20-PREPARE.ps1"], some true⟩, ⟨"20-Prepare.ps1", none, none⟩,
    ⟨"30-Report.ps1", some ["10-collect.ps1"], none⟩, ⟨"40-Left.ps1", some ["41-Right.ps1"], none⟩,
    ⟨"41-Right.ps1", some ["40-Left.ps1"], none⟩]

theorem stepGraph_sample : stepGraph String.toLower sampleSteps =
    [("10-collect.ps1", ["20-prepare.ps1"]), ("20-prepare.ps1", []),
      ("30-report.ps1", ["10-collect.ps1"]), ("40-left.ps1", ["41-right.ps1"]),
      ("41-right.ps1", ["40-left.ps1"])] := by
  decide +kernel

theorem invokeSchedule_dependencySafe_sample :
    Validated String.toLower sampleSteps ∧
      DependencySafe String.toLower sampleSteps (invokeSchedule String.toLower sampleWorld
        sampleOptions (State.start false false [] [] sampleSteps)) := by
  have hvalid : Validated String.toLower sampleSteps := by
    rw [validated_iff, stepGraph_sample]
    decide +kernel
  exact ⟨hvalid, invokeSchedule_dependencySafe hvalid false false [] []⟩

end BaselineOps.RunProfile
