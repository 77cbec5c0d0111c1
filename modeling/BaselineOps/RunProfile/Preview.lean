import Mathlib
import BaselineOps.RunProfile.Order

/-!
# The preview of a profile

A run under `-WhatIf`, with the result of `00-Run-Profile.presentation.ps1` (lines 8–69). A previewed
step gets the status `Skipped`, which `Get-RunProfileDependencyState` takes for a failure: a step that
depends on another is reported as skipped for a failed dependency, with exit code 2.

* `whatIf_skips`: no child is called and every step is skipped once.
* `whatIf_previews_iff`: every step has the entry of a preview only when no step has a dependency.
-/

namespace BaselineOps.RunProfile

open BaselineOps.Domain BaselineOps.Lib Relation

variable {fold : String → String} {world : World} {options : Options} {steps : List ProfileStep}

/-! ## The result of a run -/

/-- A state after the schedule, with what `Initialize-RunProfileCollections` has put into it
    (`00-Run-Profile.runtime.ps1`, lines 280–287). -/
structure FinalState where
  state : State
  validationWarned : Bool
  declaredStepCount : ℕ

/-- What `Get-RunProfileResultCounts` returns, without the entries. -/
structure ResultCounts where
  failed : ℕ
  failedForResult : ℕ
  partialCount : ℕ
  skipped : ℕ

/-- `Get-RunProfileResultCounts` (lines 8–26). -/
def getResultCounts (s : FinalState) : ResultCounts :=
  let count status := s.state.results.countP fun result => result.status = status
  { failed := count .failed
    failedForResult := count .failed + if s.state.dependencyCycleDetected then 1 else 0
    partialCount := count .partialResult
    skipped := count .skipped }

/-- `Get-RunProfileBaseResult` (lines 59–69). -/
def getBaseResult (s : FinalState) (counts : ResultCounts) : ResultToken :=
  if 0 < counts.failedForResult then .fail
  else if s.validationWarned ∨ 0 < counts.partialCount ∨ 0 < counts.skipped then .warn
  else .ok

/-- `Test-RunProfileWhatIfOnlyWarning` (lines 47–57). -/
def testWhatIfOnlyWarning (options : Options) (s : FinalState) (counts : ResultCounts) : Bool :=
  options.whatIf ∧ s.validationWarned = false ∧ counts.failedForResult = 0 ∧ counts.partialCount = 0 ∧
    counts.skipped = s.declaredStepCount

/-- `Get-RunProfileResultStatus` (lines 28–45): the result, and whether strict mode promoted it. -/
def getResultStatus (options : Options) (s : FinalState) : ResultToken × Bool :=
  let counts := getResultCounts s
  let result := getBaseResult s counts
  let whatIfOnlyWarning := testWhatIfOnlyWarning options s counts
  let strictPromoted := decide (s.state.profileStrict ∧ result = .warn ∧ whatIfOnlyWarning = false)
  (if strictPromoted then .fail else result, strictPromoted)

/-- A preview in which every declared step is skipped is a warning, also in strict mode. -/
theorem getResultStatus_skipped {s : FinalState} (hwhatIf : options.whatIf = true)
    (hwarned : s.validationWarned = false) (hcycle : s.state.dependencyCycleDetected = false)
    (hskipped : ∀ result ∈ s.state.results, result.status = .skipped)
    (hcount : s.state.results.length = s.declaredStepCount) (hpos : 0 < s.declaredStepCount) :
    getResultStatus options s = (.warn, false) := by
  have hzero : ∀ status, status ≠ .skipped →
      (s.state.results.countP fun result => result.status = status) = 0 := by
    intro status hne
    rw [List.countP_eq_zero]
    intro result hresult
    simpa [hskipped result hresult] using hne.symm
  have hall : (s.state.results.countP fun result => result.status = .skipped) =
      s.declaredStepCount := by
    rw [← hcount, List.countP_eq_length]
    intro result hresult
    simpa using hskipped result hresult
  simp [getResultStatus, getBaseResult, testWhatIfOnlyWarning, getResultCounts, hzero, hall, hcycle,
    hwarned, hwhatIf, hpos]

/-! ## Turns of a preview -/

/-- What holds after every turn of a preview: all entries are skips, and the step of a preview entry
    depends on nothing. -/
structure Previewed (steps : List ProfileStep) (s : State) : Prop where
  noCalls : invokedOf s.trace = []
  skipped : ∀ result ∈ s.results, result.status = .skipped
  noCycle : s.dependencyCycleDetected = false
  independent : ∀ result ∈ s.results, result.message = "Skipped (-WhatIf)." →
    ∀ step ∈ steps, step.script = result.scriptName → step.dependencies = []
  entries : (∀ step ∈ steps, step.dependencies = []) →
    ∀ result ∈ s.results, result.exitCode = 0 ∧ result.message = "Skipped (-WhatIf)."

/-- A step that is run under `-WhatIf`. -/
theorem runStep_whatIf (hwhatIf : options.whatIf = true) (s : State) (step : ProfileStep) :
    runStep fold world options s step =
      completeStep fold s step (whatIfOutcome (world.elapsedMs s.results.length)) := by
  rw [runStep, invokeStep, if_pos hwhatIf]

theorem stopsProfile_whatIf (hwhatIf : options.whatIf = true) (s : State) (step : ProfileStep) :
    stopsProfile fold world options s step = false := by
  rw [stopsProfile, invokeStep, if_pos hwhatIf]
  rfl

/-- A name whose status is known has been skipped. -/
theorem Previewed.not_satisfied {s : State} (h : Previewed steps s) (hinv : Inv fold steps s) {x : String}
    {status : StepStatus} (hstatus : s.stepStatus x = some status) : status.satisfies = false := by
  obtain ⟨result, hresult, -, rfl⟩ := (hinv.stepStatus x status).mp hstatus
  rw [h.skipped result hresult]
  rfl

theorem Turn.previewed (hvalid : Validated fold steps) (hwhatIf : options.whatIf = true) {s s' : State}
    {step : ProfileStep} (hturn : Turn fold world options s step s') (hinv : Inv fold steps s)
    (h : Previewed steps s) : Previewed steps s' := by
  cases hturn with
  | @skip before after hpending hstate =>
    have hstep : step ∈ steps := (hinv.mem_pending.mp (by simp [hpending])).1
    obtain ⟨dependency, hdependency, -⟩ := exists_of_failed hstate
    refine ⟨?_, ?_, h.noCycle, ?_, ?_⟩
    · simpa [addDependencySkip, State.record, State.setStatus, invokedOf] using h.noCalls
    · intro result hresult
      rcases List.mem_append.mp hresult with hresult | hresult
      · exact h.skipped result hresult
      · rw [List.mem_singleton.mp hresult]
        rfl
    · intro result hresult hmessage
      rcases List.mem_append.mp hresult with hresult | hresult
      · exact h.independent result hresult hmessage
      · rw [List.mem_singleton.mp hresult] at hmessage
        have hne : "Skipped due to failed dependency." ≠ "Skipped (-WhatIf)." := by decide
        exact absurd hmessage hne
    · intro hnone
      rw [hnone step hstep] at hdependency
      cases hdependency
  | @run before after hpending hstate hgo =>
    have hstep : step ∈ steps := (hinv.mem_pending.mp (by simp [hpending])).1
    have hindependent : step.dependencies = [] := by
      rw [List.eq_nil_iff_forall_not_mem]
      intro dependency hdependency
      obtain ⟨status, hstatus, hsatisfies⟩ := forall_of_not_failed hstate dependency hdependency
      rw [h.not_satisfied hinv hstatus] at hsatisfies
      cases hsatisfies
    rw [runStep_whatIf hwhatIf]
    refine ⟨?_, ?_, h.noCycle, ?_, ?_⟩
    · simpa [completeStep, State.record, State.setStatus, invokedOf] using h.noCalls
    · intro result hresult
      rcases List.mem_append.mp hresult with hresult | hresult
      · exact h.skipped result hresult
      · rw [List.mem_singleton.mp hresult]
        rfl
    · intro result hresult hmessage other hother hname
      rcases List.mem_append.mp hresult with hresult | hresult
      · exact h.independent result hresult hmessage other hother hname
      · rw [List.mem_singleton.mp hresult] at hname
        rwa [hvalid.eq_of_fold hother hstep (congrArg fold hname)]
    · intro hnone result hresult
      rcases List.mem_append.mp hresult with hresult | hresult
      · exact h.entries hnone result hresult
      · rw [List.mem_singleton.mp hresult]
        exact ⟨rfl, rfl⟩

theorem Steps.previewed (hvalid : Validated fold steps) (hwhatIf : options.whatIf = true) {s s' : State}
    {turns : List ProfileStep} (hturns : Steps (Turn fold world options) s turns s')
    (hinv : Inv fold steps s) (h : Previewed steps s) : Inv fold steps s' ∧ Previewed steps s' :=
  Steps.run_induction (P := fun _ m => Inv fold steps m ∧ Previewed steps m) ⟨hinv, h⟩
    (fun _ _ _ _ _ ih hturn => ⟨hturn.inv hvalid ih.1, hturn.previewed hvalid hwhatIf ih.1 ih.2⟩) hturns

/-! ## Whole previews -/

/-- A preview ends with nothing pending, or with pending steps of which none is ready. -/
theorem whatIf_ends (hvalid : Validated fold steps) (hwhatIf : options.whatIf = true)
    (profileStrict profileRequireSigned : Bool) (expectedHashes : List (String × String))
    (validation : List Value) :
    ∃ m, Inv fold steps m ∧ Previewed steps m ∧
      Ends fold world options m (invokeSchedule fold world options
        (State.start profileStrict profileRequireSigned expectedHashes validation steps)) ∧
      (∀ step s', ¬ Stop fold world options m step s') := by
  obtain ⟨turns, m, hturns, hends⟩ := @invokeSchedule_spec fold world options
    (State.start profileStrict profileRequireSigned expectedHashes validation steps)
  have hstart : Previewed steps
      (State.start profileStrict profileRequireSigned expectedHashes validation steps) :=
    ⟨rfl, fun _ h => absurd h List.not_mem_nil, rfl, fun _ h => absurd h List.not_mem_nil,
      fun _ _ h => absurd h List.not_mem_nil⟩
  obtain ⟨hinv, hpreviewed⟩ := Steps.previewed hvalid hwhatIf hturns (inv_start _ _ _ _) hstart
  refine ⟨m, hinv, hpreviewed, hends, ?_⟩
  rintro step s' ⟨-, -, hstop⟩
  rw [stopsProfile_whatIf hwhatIf] at hstop
  cases hstop

/-- In a preview of an acyclic profile no child is called, every step is skipped once, and the result is
    a warning that strict mode does not promote. -/
theorem whatIf_skips (hvalid : Validated fold steps) (hacyclic : Acyclic fold steps) (hne : steps ≠ [])
    (hwhatIf : options.whatIf = true) (profileStrict profileRequireSigned : Bool)
    (expectedHashes : List (String × String)) (validation : List Value) :
    let final := invokeSchedule fold world options
      (State.start profileStrict profileRequireSigned expectedHashes validation steps)
    Previewed steps final ∧ (final.results.map StepResult.scriptName).Perm (steps.map ProfileStep.script) ∧
      getResultStatus options ⟨final, false, steps.length⟩ = (.warn, false) := by
  intro final
  obtain ⟨m, hinv, hpreviewed, hends, hnostop⟩ := @whatIf_ends fold world options steps hvalid hwhatIf
    profileStrict profileRequireSigned expectedHashes validation
  have hfinal : m.pending = [] ∧ final = m := by
    generalize hrun : invokeSchedule fold world options
      (State.start profileStrict profileRequireSigned expectedHashes validation steps) = result at hends
    cases hends with
    | complete hpending => exact ⟨hpending, hrun⟩
    | stopped hstop => exact absurd hstop (hnostop _ _)
    | cycle hpending hnone =>
      obtain ⟨step, hstep⟩ := List.exists_mem_of_ne_nil _ hpending
      obtain ⟨y, -, hcycle⟩ :=
        (hinv.mem_pending_iff hvalid hnone (hinv.mem_pending.mp hstep).1).mp hstep
      exact (hacyclic y hcycle).elim
  obtain ⟨hpending, hfinal⟩ := hfinal
  have hperm := hinv.perm hvalid
  rw [hpending, List.map_nil, List.append_nil] at hperm
  have hlength := hperm.length_eq
  rw [List.length_map, List.length_map] at hlength
  rw [hfinal]
  exact ⟨hpreviewed, hperm, getResultStatus_skipped hwhatIf rfl hpreviewed.noCycle hpreviewed.skipped
    hlength (List.length_pos_of_ne_nil hne)⟩

/-- A preview of every step: none is called, each has one entry that says so, and the result is a
    warning when the validation had none. -/
structure PreviewsEvery (options : Options) (steps : List ProfileStep) (final : State) : Prop where
  noCalls : invokedOf final.trace = []
  complete : (final.results.map StepResult.scriptName).Perm (steps.map ProfileStep.script)
  entries : ∀ result ∈ final.results,
    result.status = .skipped ∧ result.exitCode = 0 ∧ result.message = "Skipped (-WhatIf)."
  noDependencySkip : ∀ result ∈ final.results,
    result.message ≠ "Skipped due to failed dependency."
  status : getResultStatus options ⟨final, false, steps.length⟩ = (.warn, false)

theorem acyclic_of_independent (h : ∀ step ∈ steps, step.dependencies = []) : Acyclic fold steps := by
  intro x hcycle
  obtain ⟨y, hedge, -⟩ := TransGen.head'_iff.mp hcycle
  obtain ⟨step, hstep, -, dependency, hdependency, -⟩ := waitsFor_iff.mp hedge
  rw [h step hstep] at hdependency
  cases hdependency

/-- A profile is previewed step by step exactly when no step has a dependency. -/
theorem whatIf_previews_iff (hvalid : Validated fold steps) (hne : steps ≠ [])
    (hwhatIf : options.whatIf = true) (profileStrict profileRequireSigned : Bool)
    (expectedHashes : List (String × String)) (validation : List Value) :
    PreviewsEvery options steps (invokeSchedule fold world options
        (State.start profileStrict profileRequireSigned expectedHashes validation steps)) ↔
      ∀ step ∈ steps, step.dependencies = [] := by
  constructor
  · intro hpreviews step hstep
    obtain ⟨m, hinv, hpreviewed, hends, hnostop⟩ := @whatIf_ends fold world options steps hvalid hwhatIf
      profileStrict profileRequireSigned expectedHashes validation
    generalize invokeSchedule fold world options (State.start profileStrict profileRequireSigned
      expectedHashes validation steps) = final at hpreviews hends
    -- the step has an entry, and this is the entry of a preview
    obtain ⟨result, hresult, hname⟩ := List.mem_map.mp
      (hpreviews.complete.mem_iff.mpr (List.mem_map_of_mem hstep))
    obtain ⟨-, -, hmessage⟩ := hpreviews.entries result hresult
    cases hends with
    | complete hpending =>
      exact hpreviewed.independent result hresult hmessage step hstep hname.symm
    | stopped hstop => exact absurd hstop (hnostop _ _)
    | cycle hpending hnone =>
      obtain ⟨left, hleft⟩ := List.exists_mem_of_ne_nil _ hpending
      have hentry : skippedResult left.script "Dependency cycle or unresolved dependency." ∈
          (addDependencyCycle m).results := by
        rw [(adds_addDependencyCycle m).results]
        exact List.mem_append_right _ (List.mem_map_of_mem hleft)
      have hother : "Dependency cycle or unresolved dependency." = "Skipped (-WhatIf)." :=
        (hpreviews.entries _ hentry).2.2
      exact absurd hother (by decide)
  · intro hnone
    obtain ⟨hpreviewed, hperm, hstatus⟩ := @whatIf_skips fold world options steps hvalid
      (acyclic_of_independent hnone) hne hwhatIf profileStrict profileRequireSigned expectedHashes
      validation
    refine ⟨hpreviewed.noCalls, hperm, ?_, ?_, hstatus⟩
    · intro result hresult
      exact ⟨hpreviewed.skipped result hresult, hpreviewed.entries hnone result hresult⟩
    · intro result hresult hmessage
      rw [(hpreviewed.entries hnone result hresult).2] at hmessage
      exact absurd hmessage (by decide)

/-- A runner that previews. -/
def previewOptions : Options := { sampleOptions with whatIf := true }

/-- Three steps without dependencies, in each way to write that, one of which may fail. -/
def independentSteps : List ProfileStep :=
  [⟨"10-Collect.ps1", none, none⟩, ⟨"20-Prepare.ps1", some [], some true⟩, ⟨"30-Report.ps1", some [], none⟩]

theorem whatIf_previews_iff_sample :
    PreviewsEvery previewOptions independentSteps
      (invokeSchedule String.toLower sampleWorld previewOptions
        (State.start true false [] [] independentSteps)) := by
  have hnone : ∀ step ∈ independentSteps, step.dependencies = [] := by decide
  refine (whatIf_previews_iff ?_ (List.cons_ne_nil _ _) rfl true false [] []).mpr hnone
  constructor
  · decide +kernel
  · intro step hstep dependency hdependency
    rw [hnone step hstep] at hdependency
    cases hdependency

/-- The step that waits is not previewed: its entry blames a dependency that has not failed. -/
theorem whatIf_blames_dependency :
    let final := invokeSchedule String.toLower sampleWorld previewOptions
      (State.start false false [] [] waitingSteps)
    Validated String.toLower waitingSteps ∧ Acyclic String.toLower waitingSteps ∧
      ¬ PreviewsEvery previewOptions waitingSteps final ∧
      skippedResult "10-A.ps1" "Skipped due to failed dependency." ∈ final.results := by
  intro final
  have hskipped : skippedResult "10-A.ps1" "Skipped due to failed dependency." ∈ final.results := by
    have hresults : final.results = [completedResult "11-B.ps1" (whatIfOutcome 0),
        skippedResult "10-A.ps1" "Skipped due to failed dependency."] := by
      decide +kernel
    rw [hresults]
    exact List.mem_cons_of_mem _ List.mem_cons_self
  refine ⟨?_, acyclic_of_edge ["11-b.ps1"] stepGraph_waitingSteps, ?_, hskipped⟩
  · rw [validated_iff, stepGraph_waitingSteps]
    decide +kernel
  · intro hpreviews
    exact hpreviews.noDependencySkip _ hskipped rfl

end BaselineOps.RunProfile
