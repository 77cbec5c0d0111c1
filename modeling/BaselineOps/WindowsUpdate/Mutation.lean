import Mathlib
import BaselineOps.Capabilities.WindowsUpdatePolicy
import BaselineOps.Lib.EState

/-!
# Compare-and-set of one registry value

Model of `baselineops-windows/src/windows_update/mutation.rs` (lines 1–165) and of the field table of
`windows_update.rs` (lines 84–194). A `RegistryPort` is any transition function on a state of its
own; every call is kept with its result in `PortState.calls`.

Results:
* `applyWith_traces`: the calls of `apply_with` and its result, one case for each way out.
* `applyWith_compareAndSet`: what follows for reads, writes and the returned value.
-/

namespace BaselineOps.WindowsUpdate

open BaselineOps.Capabilities BaselineOps.Lib

/-! ## Fields -/

/-- `PlatformError`: the cases of this module; `other` is any error of the port. -/
inductive RegistryError where
  | processRejected (reason : String)
  | trustFailure (reason : String)
  | other (description : String)
  deriving DecidableEq

/-- `ValueKind` (`windows_update.rs`, lines 84–87). -/
inductive ValueKind where
  | dword | string
  deriving DecidableEq

/-- `FieldSpec` (lines 90–95). -/
structure FieldSpec where
  field : WindowsUpdateField
  path : String
  name : String
  kind : ValueKind
  deriving DecidableEq

/-- `WU`, `AU` and `DO` (lines 104–106). -/
def windowsUpdateKey : String := "SOFTWARE\\Policies\\Microsoft\\Windows\\WindowsUpdate"
/-- `AU` (line 105). -/
def automaticUpdateKey : String := "SOFTWARE\\Policies\\Microsoft\\Windows\\WindowsUpdate\\AU"
/-- `DO` (line 106). -/
def deliveryOptimizationKey : String := "SOFTWARE\\Policies\\Microsoft\\Windows\\DeliveryOptimization"

/-- `FIELDS` (lines 107–180). -/
def fields : List FieldSpec :=
  [⟨.useWsus, automaticUpdateKey, "UseWUServer", .dword⟩,
   ⟨.wsusServer, windowsUpdateKey, "WUServer", .string⟩,
   ⟨.wsusStatusServer, windowsUpdateKey, "WUStatusServer", .string⟩,
   ⟨.allowMicrosoftUpdate, automaticUpdateKey, "AllowMUUpdateService", .dword⟩,
   ⟨.deferFeatureUpdates, windowsUpdateKey, "DeferFeatureUpdates", .dword⟩,
   ⟨.deferFeatureDays, windowsUpdateKey, "DeferFeatureUpdatesPeriodInDays", .dword⟩,
   ⟨.deferQualityUpdates, windowsUpdateKey, "DeferQualityUpdates", .dword⟩,
   ⟨.deferQualityDays, windowsUpdateKey, "DeferQualityUpdatesPeriodInDays", .dword⟩,
   ⟨.targetReleaseVersion, windowsUpdateKey, "TargetReleaseVersion", .dword⟩,
   ⟨.productVersion, windowsUpdateKey, "ProductVersion", .string⟩,
   ⟨.targetReleaseVersionInfo, windowsUpdateKey, "TargetReleaseVersionInfo", .string⟩,
   ⟨.deliveryOptimizationMode, deliveryOptimizationKey, "DODownloadMode", .dword⟩]

/-- Every field is in the table. -/
theorem find_fields_isSome (field : WindowsUpdateField) :
    (fields.find? fun spec => spec.field = field).isSome = true := by
  cases field <;> decide

/-- `field_spec` (lines 97–102). The table has every field, so the `expect` does not panic. -/
def fieldSpec (field : WindowsUpdateField) : FieldSpec :=
  (fields.find? fun spec => spec.field = field).get (find_fields_isSome field)

theorem fieldSpec_field (field : WindowsUpdateField) : (fieldSpec field).field = field := by
  cases field <;> decide

/-! ## Validation -/

/-- `validate_string` (`mutation.rs`, lines 118–125). -/
def validateString (value : String) : Except RegistryError Unit :=
  failIf ((BaselineOps.Domain.utf8 value).length > maxPolicyStringBytes ∨ '\x00' ∈ value.toList)
    (.trustFailure "Windows Update string exceeds its bound or contains NUL")

/-- `validate_snapshot` (lines 106–116). -/
def validateSnapshot (spec : FieldSpec) (value : PolicyValueSnapshot) : Except RegistryError Unit :=
  match spec.kind, value with
  | _, .missing => .ok ()
  | .dword, .dword _ => .ok ()
  | .string, .string value => validateString value
  | .dword, .string _ | .string, .dword _ =>
    .error (.trustFailure "Windows Update value type does not match its fixed field")

/-- `BOOLEAN_FIELDS` (lines 145–151). -/
def booleanFields : List WindowsUpdateField :=
  [.useWsus, .allowMicrosoftUpdate, .deferFeatureUpdates, .deferQualityUpdates,
   .targetReleaseVersion]

/-- `dword_within_bound` (lines 144–161). -/
def dwordWithinBound (field : WindowsUpdateField) (value : UInt32) : Bool :=
  if field ∈ booleanFields then value ≤ 1
  else
    match field with
    | .deferFeatureDays => value ≤ 365
    | .deferQualityDays => value ≤ 35
    | .deliveryOptimizationMode => value ≤ 3 || value == 99
    | _ => false

/-- `validate_dword_bound` (lines 127–142). -/
def validateDwordBound (field : WindowsUpdateField) (desired : PolicyValueSnapshot) :
    Except RegistryError Unit :=
  match desired with
  | .dword value =>
    if dwordWithinBound field value then .ok ()
    else .error (.trustFailure "Windows Update DWORD is outside its fixed field bound")
  | .missing | .string _ => .ok ()

/-- `validate_request` (lines 90–104). -/
def validateRequest (field : WindowsUpdateField) (expected desired : PolicyValueSnapshot) :
    Except RegistryError FieldSpec := do
  failIf (field = .allowMicrosoftUpdate)
    (.processRejected "AllowMicrosoftUpdate is observation-only for v2 behavior parity")
  let spec := fieldSpec field
  validateSnapshot spec expected
  validateSnapshot spec desired
  validateDwordBound field desired
  return spec

/-! ## The port -/

/-- `RegistryPort` (lines 5–32). -/
structure RegistryPort (σ : Type) where
  read : FieldSpec → σ → Except RegistryError PolicyValueSnapshot × σ
  write : FieldSpec → (expected desired : PolicyValueSnapshot) → σ → Except RegistryError Unit × σ
  flushAndReadRetained : FieldSpec → σ → Except RegistryError PolicyValueSnapshot × σ

/-- One call of the port with its result. -/
inductive PortCall where
  | read (spec : FieldSpec) (result : Except RegistryError PolicyValueSnapshot)
  | write (spec : FieldSpec) (expected desired : PolicyValueSnapshot)
      (result : Except RegistryError Unit)
  | flushAndReadRetained (spec : FieldSpec) (result : Except RegistryError PolicyValueSnapshot)

/-- The state of the port and the calls made so far. -/
structure PortState (σ : Type) where
  port : σ
  calls : List PortCall

/-- A program over the port. -/
abbrev RegistryM (σ : Type) := EStateM RegistryError (PortState σ)

variable {σ : Type} (port : RegistryPort σ)

/-- A call of `port.read`. -/
def read (spec : FieldSpec) : RegistryM σ PolicyValueSnapshot := fun s =>
  let answer := port.read spec s.port
  check answer.1 ⟨answer.2, s.calls ++ [.read spec answer.1]⟩

/-- A call of `port.write`. -/
def write (spec : FieldSpec) (expected desired : PolicyValueSnapshot) : RegistryM σ Unit := fun s =>
  let answer := port.write spec expected desired s.port
  check answer.1 ⟨answer.2, s.calls ++ [.write spec expected desired answer.1]⟩

/-- A call of `port.flush_and_read_retained`. -/
def flushAndReadRetained (spec : FieldSpec) : RegistryM σ PolicyValueSnapshot := fun s =>
  let answer := port.flushAndReadRetained spec s.port
  check answer.1 ⟨answer.2, s.calls ++ [.flushAndReadRetained spec answer.1]⟩

/-! ## Compare and set -/

/-- `stale_state` (lines 163–165). -/
def staleState : RegistryError :=
  .trustFailure "Windows Update registry pre-state changed before mutation"

/-- `compare_prestate` (lines 49–59). -/
def comparePrestate (spec : FieldSpec) (expected : PolicyValueSnapshot) :
    RegistryM σ PolicyValueSnapshot := do
  let before ← read port spec
  if before ≠ expected then throw staleState else return before

/-- The error of `verify_readback`. -/
def readbackMismatch : RegistryError :=
  .trustFailure "Windows Update registry read-back did not match the requested value"

/-- `verify_readback` (lines 77–88). -/
def verifyReadback (actual desired : PolicyValueSnapshot) : Except RegistryError Unit :=
  failIf (actual ≠ desired) readbackMismatch

/-- `mutate_and_verify` (lines 62–75). -/
def mutateAndVerify (spec : FieldSpec) (expected desired : PolicyValueSnapshot) :
    RegistryM σ PolicyValueSnapshot := do
  write port spec expected desired
  let retained ← flushAndReadRetained port spec
  check (verifyReadback retained desired)
  let reobserved ← read port spec
  check (verifyReadback reobserved desired)
  return reobserved

/-- `apply_with` (lines 35–47). -/
def applyWith (field : WindowsUpdateField) (expected desired : PolicyValueSnapshot) :
    RegistryM σ PolicyValueSnapshot := do
  let spec ← check (validateRequest field expected desired)
  let before ← comparePrestate port spec expected
  if before = desired then return before else mutateAndVerify port spec expected desired

/-! ## The ways out -/

/-- The result of a run and the calls it made. -/
def run (program : RegistryM σ PolicyValueSnapshot) (start : σ) :
    Except RegistryError PolicyValueSnapshot × List PortCall :=
  match program ⟨start, []⟩ with
  | .ok value after => (.ok value, after.calls)
  | .error error after => (.error error, after.calls)

/-- The calls of `apply_with` for an accepted request, with its result. -/
inductive ApplyTrace (spec : FieldSpec) (expected desired : PolicyValueSnapshot) :
    Except RegistryError PolicyValueSnapshot → List PortCall → Prop where
  | readFailed {e} : ApplyTrace spec expected desired (.error e) [.read spec (.error e)]
  | stale {v} (h : v ≠ expected) :
      ApplyTrace spec expected desired (.error staleState) [.read spec (.ok v)]
  | unchanged (h : expected = desired) :
      ApplyTrace spec expected desired (.ok desired) [.read spec (.ok expected)]
  | writeFailed {e} (h : expected ≠ desired) :
      ApplyTrace spec expected desired (.error e)
        [.read spec (.ok expected), .write spec expected desired (.error e)]
  | flushFailed {e} (h : expected ≠ desired) :
      ApplyTrace spec expected desired (.error e)
        [.read spec (.ok expected), .write spec expected desired (.ok ()),
         .flushAndReadRetained spec (.error e)]
  | retainedMismatch {v} (h : expected ≠ desired) (hv : v ≠ desired) :
      ApplyTrace spec expected desired (.error readbackMismatch)
        [.read spec (.ok expected), .write spec expected desired (.ok ()),
         .flushAndReadRetained spec (.ok v)]
  | rereadFailed {e} (h : expected ≠ desired) :
      ApplyTrace spec expected desired (.error e)
        [.read spec (.ok expected), .write spec expected desired (.ok ()),
         .flushAndReadRetained spec (.ok desired), .read spec (.error e)]
  | rereadMismatch {v} (h : expected ≠ desired) (hv : v ≠ desired) :
      ApplyTrace spec expected desired (.error readbackMismatch)
        [.read spec (.ok expected), .write spec expected desired (.ok ()),
         .flushAndReadRetained spec (.ok desired), .read spec (.ok v)]
  | verified (h : expected ≠ desired) :
      ApplyTrace spec expected desired (.ok desired)
        [.read spec (.ok expected), .write spec expected desired (.ok ()),
         .flushAndReadRetained spec (.ok desired), .read spec (.ok desired)]

variable {port} {spec : FieldSpec} {field : WindowsUpdateField}
  {expected desired : PolicyValueSnapshot}

theorem verifyReadback_self (v : PolicyValueSnapshot) : verifyReadback v v = .ok () :=
  if_neg (not_not.mpr rfl)

theorem verifyReadback_ne {v : PolicyValueSnapshot} (h : v ≠ desired) :
    verifyReadback v desired = .error readbackMismatch :=
  if_pos h

theorem read_eq {s : PortState σ} {result : Except RegistryError PolicyValueSnapshot}
    (h : (port.read spec s.port).1 = result) :
    read port spec s =
      check result ⟨(port.read spec s.port).2, s.calls ++ [.read spec result]⟩ := by
  subst h
  rfl

theorem write_eq {s : PortState σ} {result : Except RegistryError Unit}
    (h : (port.write spec expected desired s.port).1 = result) :
    write port spec expected desired s =
      check result ⟨(port.write spec expected desired s.port).2,
        s.calls ++ [.write spec expected desired result]⟩ := by
  subst h
  rfl

theorem flushAndReadRetained_eq {s : PortState σ}
    {result : Except RegistryError PolicyValueSnapshot}
    (h : (port.flushAndReadRetained spec s.port).1 = result) :
    flushAndReadRetained port spec s =
      check result ⟨(port.flushAndReadRetained spec s.port).2,
        s.calls ++ [.flushAndReadRetained spec result]⟩ := by
  subst h
  rfl

/-- The traces of `mutate_and_verify`, behind the read that found the expected value. -/
theorem mutateAndVerify_trace (h : expected ≠ desired) (s : σ) :
    ∃ result calls after, ApplyTrace spec expected desired result calls ∧
      mutateAndVerify port spec expected desired ⟨s, [.read spec (.ok expected)]⟩ =
        check result ⟨after, calls⟩ := by
  unfold mutateAndVerify
  rw [run_bind]
  cases hwrite : (port.write spec expected desired s).1 with
  | error e =>
    rw [write_eq hwrite]
    exact ⟨_, _, _, .writeFailed h, rfl⟩
  | ok u =>
    rw [write_eq hwrite, run_check_ok]
    dsimp only
    rw [run_bind]
    generalize (port.write spec expected desired s).2 = s
    cases hflush : (port.flushAndReadRetained spec s).1 with
    | error e =>
      rw [flushAndReadRetained_eq hflush]
      exact ⟨_, _, _, .flushFailed h, rfl⟩
    | ok retained =>
      rw [flushAndReadRetained_eq hflush, run_check_ok]
      dsimp only
      rw [run_bind]
      generalize (port.flushAndReadRetained spec s).2 = s
      by_cases hretained : retained = desired
      · rw [hretained, verifyReadback_self, run_check_ok]
        dsimp only
        rw [run_bind]
        cases hread : (port.read spec s).1 with
        | error e =>
          rw [read_eq hread]
          exact ⟨_, _, _, .rereadFailed h, rfl⟩
        | ok reobserved =>
          rw [read_eq hread, run_check_ok]
          dsimp only
          by_cases hreobserved : reobserved = desired
          · rw [hreobserved, verifyReadback_self]
            exact ⟨_, _, _, .verified h, rfl⟩
          · rw [verifyReadback_ne hreobserved]
            exact ⟨_, _, _, .rereadMismatch h hreobserved, rfl⟩
      · rw [verifyReadback_ne hretained]
        exact ⟨_, _, _, .retainedMismatch h hretained, rfl⟩

/-- There are no other traces. -/
theorem applyWith_traces (field : WindowsUpdateField) (expected desired : PolicyValueSnapshot)
    (start : σ) :
    (∃ e, validateRequest field expected desired = .error e ∧
        run (applyWith port field expected desired) start = (.error e, [])) ∨
      ∃ spec, validateRequest field expected desired = .ok spec ∧
        ApplyTrace spec expected desired (run (applyWith port field expected desired) start).1
          (run (applyWith port field expected desired) start).2 := by
  cases hvalid : validateRequest field expected desired with
  | error e =>
    refine .inl ⟨e, rfl, ?_⟩
    unfold run applyWith
    rw [run_bind, hvalid]
    rfl
  | ok spec =>
    refine .inr ⟨spec, rfl, ?_⟩
    unfold run applyWith comparePrestate
    rw [run_bind, hvalid, run_check_ok]
    dsimp only
    rw [run_bind, run_bind]
    cases hread : (port.read spec start).1 with
    | error e =>
      rw [read_eq hread]
      exact .readFailed
    | ok before =>
      rw [read_eq hread, run_check_ok]
      dsimp only
      by_cases hbefore : before = expected
      · subst hbefore
        rw [if_neg (not_not.mpr rfl), run_pure]
        dsimp only
        by_cases hsame : before = desired
        · rw [if_pos hsame, hsame]
          exact .unchanged rfl
        · rw [if_neg hsame]
          obtain ⟨result, calls, after, htrace, hrun⟩ :=
            @mutateAndVerify_trace σ port spec _ _ hsame (port.read spec start).2
          rw [List.nil_append, hrun]
          cases result with
          | error e => exact htrace
          | ok v => exact htrace
      · rw [if_pos hbefore]
        exact .stale hbefore

/-! ## Compare-and-set -/

/-- The calls of `write`. -/
def PortCall.isWrite : PortCall → Bool
  | .write .. => true
  | .read .. | .flushAndReadRetained .. => false

/-- The port reported an error. -/
def PortCall.failed : PortCall → Bool
  | .read _ (.error _) | .write _ _ _ (.error _) | .flushAndReadRetained _ (.error _) => true
  | .read _ (.ok _) | .write _ _ _ (.ok _) | .flushAndReadRetained _ (.ok _) => false

/-- What precedes a write in the traces: one read, which found the expected value. -/
theorem ApplyTrace.before_write {result : Except RegistryError PolicyValueSnapshot}
    {calls before after : List PortCall} (h : ApplyTrace spec expected desired result calls)
    {spec' : FieldSpec} {e d : PolicyValueSnapshot} {r : Except RegistryError Unit}
    (hcalls : calls = before ++ .write spec' e d r :: after) :
    spec' = spec ∧ e = expected ∧ d = desired ∧ before = [.read spec (.ok expected)] ∧
      expected ≠ desired ∧ ∀ call ∈ after, call.isWrite = false := by
  -- the write is the second call of a trace, if there is one at all
  cases before with
  | nil => cases h <;> simp at hcalls
  | cons first before =>
    cases before with
    | nil =>
      cases h with
      | readFailed => simp at hcalls
      | stale hv => simp at hcalls
      | unchanged hsame => simp at hcalls
      | writeFailed hne | flushFailed hne | retainedMismatch hne hv | rereadFailed hne
      | rereadMismatch hne hv | verified hne =>
        simp only [List.cons_append, List.nil_append, List.cons.injEq, PortCall.write.injEq] at hcalls
        obtain ⟨rfl, ⟨rfl, rfl, rfl, rfl⟩, rfl⟩ := hcalls
        exact ⟨rfl, rfl, rfl, rfl, hne, by simp [PortCall.isWrite]⟩
    | cons second before =>
      cases h <;> cases before with
        | nil => simp at hcalls
        | cons third before => cases before <;> simp at hcalls

/-- A successful trace with a write is the complete one. -/
theorem ApplyTrace.ok_cases {v : PolicyValueSnapshot} {calls : List PortCall}
    (h : ApplyTrace spec expected desired (.ok v) calls) :
    v = desired ∧ (expected = desired ∧ calls = [.read spec (.ok desired)] ∨
      calls = [.read spec (.ok expected), .write spec expected desired (.ok ()),
        .flushAndReadRetained spec (.ok desired), .read spec (.ok desired)]) := by
  cases h with
  | unchanged hsame => exact ⟨rfl, .inl ⟨hsame, by rw [hsame]⟩⟩
  | verified hne => exact ⟨rfl, .inr rfl⟩

/-- `apply_with` for every port: only the desired value is returned, and it was read last; a rejected
    request makes no call; a write follows a read of exactly the expected value; there is at most one
    write, and none when there is nothing to change; after a write, success means that the retained
    handle and an independent read both returned the desired value. -/
theorem applyWith_compareAndSet (port : RegistryPort σ) (field : WindowsUpdateField)
    (expected desired : PolicyValueSnapshot) (start : σ) :
    let outcome := run (applyWith port field expected desired) start
    (∀ v, outcome.1 = .ok v → v = desired ∧
      ∃ earlier spec, outcome.2 = earlier ++ [.read spec (.ok v)]) ∧
    (∀ e, validateRequest field expected desired = .error e → outcome = (.error e, [])) ∧
    (∀ before spec e d r after, outcome.2 = before ++ .write spec e d r :: after →
      e = expected ∧ d = desired ∧ (∃ earlier, before = earlier ++ [.read spec (.ok expected)]) ∧
        ∀ call ∈ before, call.failed = false) ∧
    outcome.2.countP PortCall.isWrite ≤ 1 ∧
    (expected = desired → outcome.2.countP PortCall.isWrite = 0) ∧
    (0 < outcome.2.countP PortCall.isWrite → ∀ v, outcome.1 = .ok v → ∃ spec, outcome.2 =
      [.read spec (.ok expected), .write spec expected desired (.ok ()),
       .flushAndReadRetained spec (.ok desired), .read spec (.ok desired)]) ∧
    ∀ call ∈ outcome.2, call.failed = true → ∃ e, outcome.1 = .error e := by
  intro outcome
  obtain ⟨e, hvalid, houtcome⟩ | ⟨spec, hvalid, htrace⟩ :=
    @applyWith_traces σ port field expected desired start
  · have hcalls : outcome = (.error e, []) := houtcome
    rw [hcalls]
    refine ⟨by simp, ?_, by simp, by simp, by simp, by simp, by simp⟩
    intro e' he'
    rw [hvalid] at he'
    cases he'
    rfl
  · have htrace : ApplyTrace spec expected desired outcome.1 outcome.2 := htrace
    obtain ⟨result, calls⟩ := outcome
    refine ⟨?_, ?_, ?_, ?_, ?_, ?_, ?_⟩
    · rintro v rfl
      obtain ⟨rfl, ⟨-, hcalls⟩ | hcalls⟩ := htrace.ok_cases
      · exact ⟨rfl, [], spec, hcalls⟩
      · exact ⟨rfl, [.read spec (.ok expected), .write spec expected v (.ok ()),
          .flushAndReadRetained spec (.ok v)], spec, hcalls⟩
    · intro e he
      rw [hvalid] at he
      cases he
    · intro before spec' e d r after hcalls
      obtain ⟨rfl, rfl, rfl, rfl, -⟩ := htrace.before_write hcalls
      exact ⟨rfl, rfl, ⟨[], rfl⟩, by simp [PortCall.failed]⟩
    · cases htrace <;> simp [PortCall.isWrite, List.countP_cons]
    · intro hsame
      cases htrace <;> first | exact absurd hsame ‹expected ≠ desired› | simp [PortCall.isWrite]
    · rintro hwrite v rfl
      obtain ⟨-, ⟨-, hcalls⟩ | hcalls⟩ := htrace.ok_cases
      · rw [hcalls] at hwrite
        simp [PortCall.isWrite] at hwrite
      · exact ⟨spec, hcalls⟩
    · intro call hcall hfailed
      cases htrace with
      | unchanged hsame =>
        simp only [List.mem_singleton] at hcall
        subst hcall
        cases hfailed
      | verified hne =>
        simp only [List.mem_cons, List.not_mem_nil, or_false] at hcall
        obtain rfl | rfl | rfl | rfl := hcall <;> cases hfailed
      | readFailed | stale hv | writeFailed hne | flushFailed hne | retainedMismatch hne hv
      | rereadFailed hne | rereadMismatch hne hv => exact ⟨_, rfl⟩

end BaselineOps.WindowsUpdate
