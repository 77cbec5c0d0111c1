import Mathlib
import BaselineOps.Domain.Json
import BaselineOps.Lib.Kahn
import BaselineOps.Lib.Steps

/-!
# The scheduler of the v2 profile runner

Model of `scripts/internal/00-Run-Profile.scheduler.ps1` (lines 8–350). A pass goes once over the
pending steps by index and takes every step whose dependencies all have a status; the schedule
repeats passes until nothing is pending or a pass takes nothing.

* PowerShell compares names without case: `StepStatus` is a hashtable, `-contains` and `switch` use
  the same comparison. `fold` gives the representative of a name under that comparison, so two names
  are the same exactly when their folds are equal.
* The child process (`Invoke-RunProfileChild`) and the stopwatch are a `World`: the answer to a call
  is what the child emits with its exit code, or the message of an exception.
* Lines for the console (`Write-UiLine`) are left out.
* `State.trace` is a ghost: the calls of the child and the entries of `Results`, in the order in
  which they happen.
-/

namespace BaselineOps.RunProfile

open BaselineOps.Domain BaselineOps.Lib

/-! ## Data -/

/-- The status of a finished step; `partialResult` is `Partial`. -/
inductive StepStatus where
  | success
  | partialResult
  | failed
  | skipped
  deriving DecidableEq, Repr

/-- `-in @('Success', 'Partial')` (line 21). -/
def StepStatus.satisfies : StepStatus → Bool
  | .success | .partialResult => true
  | .failed | .skipped => false

/-- A step of the profile document. `none` is a property that is absent or, for `DependsOn`, null. -/
structure ProfileStep where
  script : String
  dependsOn : Option (List String)
  continueOnError : Option Bool
  deriving DecidableEq, Repr

/-- `@($Step.DependsOn)` or `@()` (lines 11–15). -/
def ProfileStep.dependencies (step : ProfileStep) : List String := step.dependsOn.getD []

/-- `$continueOnError` (lines 328–332). -/
def ProfileStep.continues (step : ProfileStep) : Bool := step.continueOnError.getD false

/-- The options of the runner that the scheduler reads. `confirm` is set when `ConfirmBound` is. -/
structure Options where
  mode : String
  rootPath : String
  whatIf : Bool
  confirm : Option Bool

/-- The parameters of a child (lines 51–70). `OutputFormat` is `None` and `PassThru` is set. -/
structure StepParameters where
  scriptName : String
  scriptArgs : List String
  rootPath : String
  outputFormat : String
  passThru : Bool
  strict : Bool
  requireSigned : Bool
  expectedHash : Option String
  whatIf : Bool
  confirm : Option Bool
  deriving DecidableEq

/-- An object the child emits: the properties the scheduler looks for. The exit code is the value
    cast to `[int]`, or the message of the failed cast. -/
structure ChildObject where
  result : Option String
  runnerDeclaredResult : Option String
  runnerActualExitCode : Option (Except String ℤ)
  findings : List Value

/-- What a child that returns leaves behind: the objects it emits and `$LASTEXITCODE`. -/
structure ChildOutput where
  objects : List ChildObject
  lastExitCode : Option ℤ

/-- Children and stopwatch. `child n` answers the `n`-th call. -/
structure World where
  child : ℕ → StepParameters → Except String ChildOutput
  elapsedMs : ℕ → ℕ

/-- A finding of the run. Findings of the validator and of children are passed on as they are. -/
inductive Finding where
  | passedOn (finding : Value)
  | childResultExitMismatch (severity message scriptName childResult : String)
      (expectedExitCode : Option ℤ) (actualExitCode : ℤ)
  | dependencyCycle (severity message : String) (scripts : List String)

/-- An entry of `Results`. -/
structure StepResult where
  scriptName : String
  status : StepStatus
  exitCode : ℤ
  runnerExitCode : Option ℤ
  childResult : Option String
  childEffectiveResult : Option String
  durationMs : ℕ
  message : String
  deriving DecidableEq

/-- The outcome of `Invoke-RunProfileStep`. -/
structure StepOutcome where
  exitCode : ℤ
  status : StepStatus
  message : String
  processExitCode : Option ℤ
  childResult : Option ChildObject
  declaredResult : Option String
  elapsedMs : ℕ

/-- What happens during a run: a child is called or an entry is added to `Results`. -/
inductive ScheduleEvent where
  | invoked (parameters : StepParameters)
  | recorded (result : StepResult)

/-- The state of a run, as far as the scheduler uses it (`New-RunProfileState`,
    `00-Run-Profile.runtime.ps1` lines 45–65). -/
structure State where
  profileStrict : Bool
  profileRequireSigned : Bool
  expectedHashes : List (String × String)
  results : List StepResult
  stepStatus : String → Option StepStatus
  pending : List ProfileStep
  findings : List Finding
  dependencyCycleDetected : Bool
  dependencyCycleScripts : List String
  trace : List ScheduleEvent

/-- The state before the schedule: `Initialize-RunProfileCollections` has copied the steps and the
    findings of the validator. -/
def State.start (profileStrict profileRequireSigned : Bool) (expectedHashes : List (String × String))
    (validation : List Value) (steps : List ProfileStep) : State where
  profileStrict := profileStrict
  profileRequireSigned := profileRequireSigned
  expectedHashes := expectedHashes
  results := []
  stepStatus _ := none
  pending := steps
  findings := validation.map .passedOn
  dependencyCycleDetected := false
  dependencyCycleScripts := []
  trace := []

/-- The entries of `Results` among the events. -/
def recordedOf (trace : List ScheduleEvent) : List StepResult :=
  trace.filterMap fun
    | .invoked _ => none
    | .recorded result => some result

/-- The calls of the child among the events. -/
def invokedOf (trace : List ScheduleEvent) : List StepParameters :=
  trace.filterMap fun
    | .invoked parameters => some parameters
    | .recorded _ => none

/-! ## Dependencies -/

section Scheduler

variable (fold : String → String)

/-- The two answers of `Get-RunProfileDependencyState`. -/
@[ext]
structure DependencyState where
  ready : Bool
  failed : Bool
  deriving DecidableEq

/-- The loop over the dependencies (lines 16–24): a dependency without a status ends it. -/
def dependencyLoop (stepStatus : String → Option StepStatus) :
    List String → Bool → DependencyState
  | [], failed => ⟨true, failed⟩
  | dependency :: rest, failed =>
    match stepStatus (fold dependency) with
    | none => ⟨false, false⟩
    | some status => dependencyLoop stepStatus rest (failed || !status.satisfies)

/-- `Get-RunProfileDependencyState` (lines 8–26). -/
def getDependencyState (step : ProfileStep) (stepStatus : String → Option StepStatus) :
    DependencyState :=
  dependencyLoop fold stepStatus step.dependencies false

/-- An entry is added to `Results`. -/
def State.record (s : State) (result : StepResult) : State :=
  { s with results := s.results ++ [result], trace := s.trace ++ [.recorded result] }

/-- `$State.StepStatus[$name] = $status`. -/
def State.setStatus (s : State) (name : String) (status : StepStatus) : State :=
  { s with stepStatus := Function.update s.stepStatus (fold name) (some status) }

/-- An entry for a step that is not run. -/
def skippedResult (scriptName message : String) : StepResult where
  scriptName := scriptName
  status := .skipped
  exitCode := 2
  runnerExitCode := none
  childResult := none
  childEffectiveResult := none
  durationMs := 0
  message := message

/-- `Add-RunProfileDependencySkip` (lines 28–40). -/
def addDependencySkip (s : State) (scriptName : String) : State :=
  (s.setStatus fold scriptName .skipped).record
    (skippedResult scriptName "Skipped due to failed dependency.")

/-! ## Running one step -/

/-- `New-RunProfileStepParameters` (lines 42–71). -/
def newStepParameters (options : Options) (s : State) (step : ProfileStep) : StepParameters where
  scriptName := step.script
  scriptArgs := ["-Mode", options.mode] ++ if s.profileStrict then ["-Strict"] else []
  rootPath := options.rootPath
  outputFormat := "None"
  passThru := true
  strict := s.profileStrict
  requireSigned := s.profileRequireSigned
  expectedHash := (s.expectedHashes.find? fun entry => fold entry.1 = fold step.script).map Prod.snd
  whatIf := options.whatIf
  confirm := options.confirm

/-- The result tokens of a child. -/
inductive ResultToken where
  | ok
  | warn
  | fail
  deriving DecidableEq

/-- `@('OK', 'WARN', 'FAIL') -contains` and `switch`: the token a text names. -/
def ResultToken.ofText (text : String) : Option ResultToken :=
  if fold text = fold "OK" then some .ok
  else if fold text = fold "WARN" then some .warn
  else if fold text = fold "FAIL" then some .fail
  else none

/-- `Get-RunProfileChildResultObjects` (lines 73–81), each object with its token. -/
def getChildResultObjects (objects : List ChildObject) : List (ChildObject × String × ResultToken) :=
  objects.filterMap fun object => do
    let text ← object.result
    let token ← ResultToken.ofText fold text
    pure (object, text, token)

/-- `Get-RunProfileExpectedExitCode` (lines 138–146); no case is `$null`. -/
def getExpectedExitCode (result : String) : Option ℤ :=
  match ResultToken.ofText fold result with
  | some .ok => some 0
  | some .warn => some 2
  | some .fail => some 1
  | none => none

/-- `Get-RunProfileActualExitCode` (lines 148–156). -/
def getActualExitCode (childResult : ChildObject) (processExitCode : ℤ) : Except String ℤ :=
  match childResult.runnerActualExitCode with
  | some exitCode => exitCode
  | none => .ok processExitCode

/-- The status and exit code of a token (lines 177–181). -/
def ResultToken.outcome : ResultToken → StepStatus × ℤ
  | .ok => (.success, 0)
  | .warn => (.partialResult, 2)
  | .fail => (.failed, 1)

/-- `Add-RunProfileExitMismatch` (lines 106–136): the finding, and the outcome after it. -/
def addExitMismatch (scriptName declaredResult : String) (childResult : ChildObject)
    (processExitCode : ℤ) (outcome : StepOutcome) : Except String (List Finding × StepOutcome) := do
  let expected := getExpectedExitCode fold declaredResult
  let actual ← getActualExitCode childResult processExitCode
  if some actual = expected then
    pure ([], outcome)
  else
    let declaredOk := fold declaredResult = fold "OK"
    let finding := Finding.childResultExitMismatch (if declaredOk then "High" else "Medium")
      ("Child V2 result '" ++ declaredResult ++ "' does not match process exit code " ++
        toString actual ++ " for " ++ scriptName ++ ".")
      scriptName declaredResult expected actual
    let outcome := { outcome with message := outcome.message ++ "; V2 result/exit-code mismatch" }
    pure ([finding],
      if declaredOk then { outcome with exitCode := 1, status := .failed } else outcome)

/-- `Get-RunProfileChildOutcome` (lines 158–191): the findings it adds, and the outcome. -/
def getChildOutcome (scriptName : String) (objects : List ChildObject) (processExitCode : ℤ)
    (elapsedMs : ℕ) : Except String (List Finding × StepOutcome) :=
  match (getChildResultObjects fold objects).getLast? with
  | none =>
    .ok ([],
      { exitCode := 1
        status := .failed
        message := "Child did not emit a valid V2 result. Process exit code: " ++
          toString processExitCode
        processExitCode := some processExitCode
        childResult := none
        declaredResult := none
        elapsedMs := elapsedMs })
  | some (childResult, text, token) => do
    let declaredResult := childResult.runnerDeclaredResult.getD text
    let (mismatch, outcome) ← addExitMismatch fold scriptName declaredResult childResult
      processExitCode
      { exitCode := token.outcome.2
        status := token.outcome.1
        message := "Child V2 result: " ++ text ++ "; process exit code: " ++
          toString processExitCode
        processExitCode := some processExitCode
        childResult := some childResult
        declaredResult := some declaredResult
        elapsedMs := elapsedMs }
    pure (mismatch ++ childResult.findings.map .passedOn, outcome)

/-- The outcome of a step whose child, or the reading of its answer, throws (lines 218–228). -/
def failedOutcome (message : String) (elapsedMs : ℕ) : StepOutcome where
  exitCode := 1
  status := .failed
  message := message
  processExitCode := none
  childResult := none
  declaredResult := none
  elapsedMs := elapsedMs

/-- The outcome of a step under `-WhatIf` (lines 199–210). -/
def whatIfOutcome (elapsedMs : ℕ) : StepOutcome where
  exitCode := 0
  status := .skipped
  message := "Skipped (-WhatIf)."
  processExitCode := none
  childResult := none
  declaredResult := none
  elapsedMs := elapsedMs

/-- What the answer of a child comes to: the findings it leaves and the outcome of the step. -/
def childOutcome (scriptName : String) (answer : Except String ChildOutput) (elapsedMs : ℕ) :
    List Finding × StepOutcome :=
  let outcome := do
    let output ← answer
    getChildOutcome fold scriptName output.objects (output.lastExitCode.getD 0) elapsedMs
  match outcome with
  | .ok outcome => outcome
  | .error message => ([], failedOutcome message elapsedMs)

/-- `Invoke-RunProfileStep` (lines 193–230). -/
def invokeStep (world : World) (options : Options) (s : State) (step : ProfileStep) :
    StepOutcome × State :=
  let elapsedMs := world.elapsedMs s.results.length
  if options.whatIf then
    (whatIfOutcome elapsedMs, s)
  else
    let parameters := newStepParameters fold options s step
    let answer := world.child (invokedOf s.trace).length parameters
    let outcome := childOutcome fold step.script answer elapsedMs
    (outcome.2, { s with
      findings := s.findings ++ outcome.1
      trace := s.trace ++ [.invoked parameters] })

/-- The entry of a step that was run (lines 247–256). -/
def completedResult (scriptName : String) (outcome : StepOutcome) : StepResult where
  scriptName := scriptName
  status := outcome.status
  exitCode := outcome.exitCode
  runnerExitCode := some (outcome.processExitCode.getD outcome.exitCode)
  childResult := outcome.declaredResult
  childEffectiveResult := outcome.childResult.bind ChildObject.result
  durationMs := outcome.elapsedMs
  message := outcome.message

/-- `Complete-RunProfileStep` (lines 232–262). -/
def completeStep (s : State) (step : ProfileStep) (outcome : StepOutcome) : State :=
  (s.setStatus fold step.script outcome.status).record (completedResult step.script outcome)

/-! ## Passes -/

/-- The entry of a step left over after a failure (lines 271–277). -/
def stoppedResult (failedScript scriptName : String) : StepResult :=
  skippedResult scriptName
    ("Not run because the profile stopped after failure in " ++ failedScript ++ ".")

/-- `Stop-RunProfileAfterFailure` (lines 264–281). -/
def stopAfterFailure (s : State) (failedScript : String) : State :=
  let s' := s.pending.foldl (fun s remaining =>
    (s.setStatus fold remaining.script .skipped).record
      (stoppedResult failedScript remaining.script)) s
  { s' with pending := [] }

/-- The finding about the steps that are left over (lines 286–294). -/
def reportCycle (s : State) : State :=
  let scripts := s.pending.map ProfileStep.script
  { s with
    dependencyCycleDetected := true
    dependencyCycleScripts := scripts
    findings := s.findings ++ [.dependencyCycle "High"
      ("Dependency cycle or unresolved dependency. Scripts not run: " ++ ", ".intercalate scripts)
      scripts] }

/-- `Add-RunProfileDependencyCycle` (lines 283–304). -/
def addDependencyCycle (s : State) : State :=
  s.pending.foldl (fun s remaining =>
    s.record (skippedResult remaining.script "Dependency cycle or unresolved dependency."))
    (reportCycle s)

/-- `Invoke-RunProfileStep`, then `Complete-RunProfileStep` (lines 326–327). -/
def runStep (world : World) (options : Options) (s : State) (step : ProfileStep) : State :=
  let ran := invokeStep fold world options s step
  completeStep fold ran.2 step ran.1

/-- `$outcome.Status -eq 'Failed' -and -not $continueOnError` (line 333). -/
def stopsProfile (world : World) (options : Options) (s : State) (step : ProfileStep) : Bool :=
  (invokeStep fold world options s step).1.status = .failed ∧ ¬ step.continues

/-- A step that is taken out of the pending list (lines 320–336): the state after it, and whether
    the loop goes on. -/
def takeStep (world : World) (options : Options) (s : State) (step : ProfileStep) (failed : Bool) :
    Bool × State :=
  if failed then
    (false, addDependencySkip fold s step.script)
  else if stopsProfile fold world options s step then
    (false, stopAfterFailure fold (runStep fold world options s step) step.script)
  else
    (true, runStep fold world options s step)

@[simp]
theorem pending_record (s : State) (result : StepResult) : (s.record result).pending = s.pending := rfl

@[simp]
theorem pending_setStatus (s : State) (name : String) (status : StepStatus) :
    (s.setStatus fold name status).pending = s.pending := rfl

@[simp]
theorem pending_completeStep (s : State) (step : ProfileStep) (outcome : StepOutcome) :
    (completeStep fold s step outcome).pending = s.pending := rfl

@[simp]
theorem pending_invokeStep (world : World) (options : Options) (s : State) (step : ProfileStep) :
    (invokeStep fold world options s step).2.pending = s.pending := by
  unfold invokeStep
  split_ifs <;> rfl

/-- A step after which the loop goes on leaves the pending list as it is. -/
theorem pending_takeStep {world : World} {options : Options} {s s' : State} {step : ProfileStep}
    {failed : Bool} (h : takeStep fold world options s step failed = (true, s')) :
    s'.pending = s.pending := by
  simp only [takeStep] at h
  split_ifs at h <;> simp only [Prod.mk.injEq, Bool.false_eq_true, false_and, true_and] at h
  rw [← h, runStep, pending_completeStep, pending_invokeStep]

/-- The loop of `Invoke-RunProfileSchedulePass` (lines 310–337), from `index` on. After a step is
    removed `$index--` and the increment of the loop cancel out. -/
def schedulePassLoop (world : World) (options : Options) (index : ℕ) (progress : Bool) (s : State) :
    Bool × State :=
  if hindex : index < s.pending.length then
    let step := s.pending[index]
    let dependency := getDependencyState fold step s.stepStatus
    if !dependency.ready then
      schedulePassLoop world options (index + 1) progress s
    else
      match htake : takeStep fold world options { s with pending := s.pending.eraseIdx index } step
        dependency.failed with
      | (true, s') => schedulePassLoop world options index true s'
      | (false, s') => (true, s')
  else (progress, s)
termination_by s.pending.length - index
decreasing_by
  · omega
  · rw [pending_takeStep fold htake, List.length_eraseIdx_of_lt hindex]
    omega

/-- `Invoke-RunProfileSchedulePass` (lines 306–339). -/
def schedulePass (world : World) (options : Options) (s : State) : Bool × State :=
  schedulePassLoop fold world options 0 false s

/-! ## Turns -/

/-- One step is taken and the run goes on: the step is skipped for a failed dependency, or run. -/
inductive Turn (world : World) (options : Options) (s : State) (step : ProfileStep) : State → Prop
  | skip {before after : List ProfileStep} (hpending : s.pending = before ++ step :: after)
      (hstate : getDependencyState fold step s.stepStatus = ⟨true, true⟩) :
      Turn world options s step
        (addDependencySkip fold { s with pending := before ++ after } step.script)
  | run {before after : List ProfileStep} (hpending : s.pending = before ++ step :: after)
      (hstate : getDependencyState fold step s.stepStatus = ⟨true, false⟩)
      (hgo : stopsProfile fold world options { s with pending := before ++ after } step = false) :
      Turn world options s step (runStep fold world options { s with pending := before ++ after } step)

/-- One step is run, fails, and ends the run. -/
inductive Stop (world : World) (options : Options) (s : State) (step : ProfileStep) : State → Prop
  | stop {before after : List ProfileStep} (hpending : s.pending = before ++ step :: after)
      (hstate : getDependencyState fold step s.stepStatus = ⟨true, false⟩)
      (hstop : stopsProfile fold world options { s with pending := before ++ after } step = true) :
      Stop world options s step (stopAfterFailure fold
        (runStep fold world options { s with pending := before ++ after } step) step.script)

variable {fold}

theorem pending_runStep (world : World) (options : Options) (s : State) (step : ProfileStep) :
    (runStep fold world options s step).pending = s.pending := by
  rw [runStep, pending_completeStep, pending_invokeStep]

theorem Turn.length_pending {world : World} {options : Options} {s s' : State} {step : ProfileStep}
    (h : Turn fold world options s step s') : s'.pending.length < s.pending.length := by
  cases h with
  | skip hpending _ =>
    rw [hpending]
    simp [addDependencySkip]
  | run hpending _ _ =>
    rw [hpending, pending_runStep]
    simp

theorem Steps.length_pending {world : World} {options : Options} {s s' : State}
    {turns : List ProfileStep} (h : Steps (Turn fold world options) s turns s') :
    s'.pending.length + turns.length ≤ s.pending.length := by
  induction h with
  | nil s => exact le_refl _
  | cons hturn _ ih =>
    have hlt := hturn.length_pending
    rw [List.length_cons]
    omega

/-- The step at an index, as `RemoveAt` takes it out. -/
theorem pending_split {s : State} {index : ℕ} (hindex : index < s.pending.length) :
    s.pending = s.pending.take index ++ s.pending[index] :: s.pending.drop (index + 1) ∧
      s.pending.eraseIdx index = s.pending.take index ++ s.pending.drop (index + 1) := by
  constructor
  · rw [← List.drop_eq_getElem_cons hindex, List.take_append_drop]
  · exact List.eraseIdx_eq_take_drop_succ _ _

section Take

variable {world : World} {options : Options} {s s' : State} {index : ℕ}
  (hindex : index < s.pending.length)
  (hready : (getDependencyState fold s.pending[index] s.stepStatus).ready = true)

include hready in
/-- A step after which the loop goes on is a turn. -/
theorem turn_of_takeStep
    (htake : takeStep fold world options { s with pending := s.pending.eraseIdx index }
      s.pending[index] (getDependencyState fold s.pending[index] s.stepStatus).failed = (true, s')) :
    Turn fold world options s s.pending[index] s' := by
  obtain ⟨hsplit, herase⟩ := pending_split hindex
  rw [herase, takeStep] at htake
  split_ifs at htake with hfailed hstop
  · cases htake
  · cases htake
  · cases htake
    exact .run hsplit (DependencyState.ext hready (by simpa using hfailed)) (by simpa using hstop)

include hready in
/-- A step after which the loop breaks is a turn or ends the run. -/
theorem turn_or_stop_of_takeStep
    (htake : takeStep fold world options { s with pending := s.pending.eraseIdx index }
      s.pending[index] (getDependencyState fold s.pending[index] s.stepStatus).failed = (false, s')) :
    Turn fold world options s s.pending[index] s' ∨
      Stop fold world options s s.pending[index] s' := by
  obtain ⟨hsplit, herase⟩ := pending_split hindex
  rw [herase, takeStep] at htake
  split_ifs at htake with hfailed hstop
  · cases htake
    exact .inl (.skip hsplit (DependencyState.ext hready hfailed))
  · cases htake
    exact .inr (.stop hsplit (DependencyState.ext hready (by simpa using hfailed)) hstop)
  · cases htake

end Take

/-- What the loop of a pass does: it finds nothing to take, it takes some steps, or it also ends the
    run. -/
theorem schedulePassLoop_spec {world : World} {options : Options} (index : ℕ) (progress : Bool)
    (s : State) :
    (schedulePassLoop fold world options index progress s = (progress, s) ∧
      ∀ step ∈ s.pending.drop index, (getDependencyState fold step s.stepStatus).ready = false) ∨
    (∃ turns s', turns ≠ [] ∧ Steps (Turn fold world options) s turns s' ∧
      schedulePassLoop fold world options index progress s = (true, s')) ∨
    ∃ turns m step s', Steps (Turn fold world options) s turns m ∧ Stop fold world options m step s' ∧
      schedulePassLoop fold world options index progress s = (true, s') := by
  fun_induction schedulePassLoop fold world options index progress s with
  | case1 index progress s hindex step dependency hready ih =>
    rcases ih with ⟨hloop, hnone⟩ | htaken
    · refine .inl ⟨hloop, ?_⟩
      rw [List.drop_eq_getElem_cons hindex]
      intro other hother
      rcases List.mem_cons.mp hother with rfl | hother
      · simpa using hready
      · exact hnone other hother
    · exact .inr htaken
  | case2 index progress s hindex step dependency hready s' htake ih =>
    have hturn := turn_of_takeStep hindex (by simpa using hready) htake
    right
    rcases ih with ⟨hloop, -⟩ | ⟨turns, t, -, hturns, hloop⟩ | ⟨turns, m, last, t, hturns, hstop, hloop⟩
    · exact .inl ⟨[step], s', List.cons_ne_nil _ _, .cons hturn (.nil s'), hloop⟩
    · exact .inl ⟨step :: turns, t, List.cons_ne_nil _ _, .cons hturn hturns, hloop⟩
    · exact .inr ⟨step :: turns, m, last, t, .cons hturn hturns, hstop, hloop⟩
  | case3 index progress s hindex step dependency hready s' htake =>
    right
    rcases turn_or_stop_of_takeStep hindex (by simpa using hready) htake with hturn | hstop
    · exact .inl ⟨[step], s', List.cons_ne_nil _ _, .cons hturn (.nil s'), rfl⟩
    · exact .inr ⟨[], s, step, s', .nil s, hstop, rfl⟩
  | case4 index progress s hindex =>
    refine .inl ⟨rfl, ?_⟩
    rw [List.drop_eq_nil_of_le (not_lt.mp hindex)]
    intro step hstep
    cases hstep

theorem Stop.pending_eq_nil {world : World} {options : Options} {s s' : State} {step : ProfileStep}
    (h : Stop fold world options s step s') : s'.pending = [] := by
  cases h
  rfl

/-- A pass over a pending list either takes a step or leaves the state as it is. -/
theorem schedulePass_decreasing {world : World} {options : Options} {s : State}
    (hpending : s.pending ≠ [])
    (hgo : ¬ ((schedulePass fold world options s).1 = false ∧
      (schedulePass fold world options s).2.pending ≠ [])) :
    (schedulePass fold world options s).2.pending.length < s.pending.length := by
  have hlength : 0 < s.pending.length := List.length_pos_iff.mpr hpending
  unfold schedulePass at hgo ⊢
  rcases schedulePassLoop_spec 0 false s with
    ⟨hloop, -⟩ | ⟨turns, s', hne, hturns, hloop⟩ | ⟨turns, m, step, s', -, hstop, hloop⟩
  · rw [hloop] at hgo
    exact absurd ⟨rfl, hpending⟩ hgo
  · rw [hloop]
    have hle := Steps.length_pending hturns
    have hpos := List.length_pos_iff.mpr hne
    show s'.pending.length < s.pending.length
    omega
  · rw [hloop, hstop.pending_eq_nil]
    exact hlength

variable (fold)

/-- `Invoke-RunProfileSchedule` (lines 341–350). -/
def invokeSchedule (world : World) (options : Options) (s : State) : State :=
  if _hpending : s.pending ≠ [] then
    let pass := schedulePass fold world options s
    if _hgo : pass.1 = false ∧ pass.2.pending ≠ [] then
      addDependencyCycle pass.2
    else
      invokeSchedule world options pass.2
  else s
termination_by s.pending.length
decreasing_by exact schedulePass_decreasing _hpending _hgo

/-- How a schedule ends: nothing is pending, a failure has stopped it, or nothing pending is ready. -/
inductive Ends (world : World) (options : Options) (s : State) : State → Prop
  | complete (hpending : s.pending = []) : Ends world options s s
  | stopped {step : ProfileStep} {s' : State} (hstop : Stop fold world options s step s') :
      Ends world options s s'
  | cycle (hpending : s.pending ≠ [])
      (hnone : ∀ step ∈ s.pending, (getDependencyState fold step s.stepStatus).ready = false) :
      Ends world options s (addDependencyCycle s)

variable {fold}

/-- A schedule is a run of turns and its end. -/
theorem invokeSchedule_spec {world : World} {options : Options} (s : State) :
    ∃ turns m, Steps (Turn fold world options) s turns m ∧
      Ends fold world options m (invokeSchedule fold world options s) := by
  fun_induction invokeSchedule fold world options s with
  | case1 s hpending pass hgo =>
    rcases schedulePassLoop_spec 0 false s with
      ⟨hloop, hnone⟩ | ⟨_, _, _, _, hloop⟩ | ⟨_, _, _, _, _, _, hloop⟩
    · rw [show pass = (false, s) from hloop]
      exact ⟨[], s, .nil s, .cycle hpending hnone⟩
    · rw [show pass = _ from hloop] at hgo
      cases hgo.1
    · rw [show pass = _ from hloop] at hgo
      cases hgo.1
  | case2 s hpending pass hgo ih =>
    obtain ⟨turns, m, hturns, hends⟩ := ih
    rcases schedulePassLoop_spec 0 false s with
      ⟨hloop, -⟩ | ⟨taken, s', -, htaken, hloop⟩ | ⟨taken, n, step, s', htaken, hstop, hloop⟩
    · rw [show pass = (false, s) from hloop] at hgo
      exact absurd ⟨rfl, hpending⟩ hgo
    · rw [show pass = _ from hloop] at hturns hends ⊢
      exact ⟨taken ++ turns, m, steps_append_iff.mpr ⟨s', htaken, hturns⟩, hends⟩
    · -- nothing is pending after a stop, so the loop ends there
      rw [show pass = _ from hloop, invokeSchedule, dif_neg (not_not.mpr hstop.pending_eq_nil)]
      exact ⟨taken, n, htaken, .stopped hstop⟩
  | case3 s hpending => exact ⟨[], s, .nil s, .complete (not_not.mp hpending)⟩

end Scheduler

end BaselineOps.RunProfile
