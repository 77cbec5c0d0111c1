import Mathlib
import BaselineOps.Domain.Validate
import BaselineOps.Lib.OrderedMap

/-!
# PowerShell logging plan

Model of `powershell_logging_policy.rs`, and of `apply_mutation` and `replace_module_names` of
`baselineops-windows/src/powershell_logging.rs` (lines 232–273) on a machine hive: its six fixed values
and all of its numbered `ModuleNames`.

* `converges_iff`: an accepted plan reaches the desired state, unless the snapshot shows exactly the
  desired names of a hive that has more.
-/

namespace BaselineOps.Capabilities.PowerShellLogging

open BaselineOps.Domain BaselineOps.Lib Std

/-! ## Types -/

/-- `MAX_MODULE_NAMES` (line 12). -/
def maxModuleNames : ℕ := 64

/-- `MAX_POLICY_STRING_BYTES` (line 14). -/
def maxStringBytes : ℕ := 16 * 1024

/-- `ValueSnapshot` (lines 24–29). -/
inductive ValueSnapshot (α : Type) where
  | missing
  | value (v : α)
  deriving DecidableEq

/-- `ModuleNamesSnapshot` (lines 54–59). -/
structure ModuleNamesSnapshot where
  values : TreeMap UInt16 String
  complete : Bool

/-- `PowerShellLoggingHiveSnapshot` (lines 34–49). -/
structure HiveSnapshot where
  enableTranscription : ValueSnapshot UInt32
  transcriptOutputDirectory : ValueSnapshot String
  enableInvocationHeader : ValueSnapshot UInt32
  enableScriptBlockLogging : ValueSnapshot UInt32
  enableScriptBlockInvocationLogging : ValueSnapshot UInt32
  enableModuleLogging : ValueSnapshot UInt32
  moduleNames : ModuleNamesSnapshot

/-- `PowerShellLoggingObservation` (lines 64–70). -/
structure Observation where
  hklm : HiveSnapshot
  hkcu : Option HiveSnapshot

/-- `PowerShellLoggingConfig` (lines 75–90). -/
structure Config where
  enableTranscription : Option Bool := none
  transcriptOutputDirectory : Option String := none
  enableInvocationHeader : Option Bool := none
  enableScriptBlockLogging : Option Bool := none
  enableScriptBlockInvocationLogging : Option Bool := none
  enableModuleLogging : Option Bool := none
  moduleNames : Option (List String) := none

/-- `PowerShellLoggingParameters` (lines 95–116). -/
structure Parameters extends Config where
  config : Option Config := none
  replaceModuleNames : Bool := false
  includeHkcu : Bool := false

/-- `PowerShellLoggingDesiredState` (lines 122–139). -/
structure DesiredState where
  enableTranscription : Bool
  transcriptOutputDirectory : String
  enableInvocationHeader : Bool
  enableScriptBlockLogging : Bool
  enableScriptBlockInvocationLogging : Bool
  enableModuleLogging : Bool
  moduleNames : List String
  replaceModuleNames : Bool

/-- `PolicyField` (lines 169–182). -/
inductive PolicyField where
  | enableTranscription
  | transcriptOutputDirectory
  | enableInvocationHeader
  | enableScriptBlockLogging
  | enableScriptBlockInvocationLogging
  | enableModuleLogging
  deriving DecidableEq

/-- `PowerShellLoggingMutation` (lines 144–164). -/
inductive Mutation where
  | setDword (field : PolicyField) (value : UInt32)
  | setString (field : PolicyField) (value : String)
  | replaceModuleNames (values : TreeMap UInt16 String)

/-- `PowerShellLoggingPlan` (lines 187–202). -/
structure Plan where
  observation : Observation
  desired : DesiredState
  mutations : List Mutation
  rollback : HiveSnapshot
  requiresAdministrator : Bool
  rebootRequired : Bool
  newSessionsMayBeNeeded : Bool

/-! ## Desired state -/

/-- `validate_module_name` (lines 360–365). -/
def validateModuleName (value : String) : Except String String := do
  failIf (value = "" ∨ maxStringBytes < (utf8 value).length ∨ '\x00' ∈ value.toList)
    "module names must be bounded non-empty strings without NUL"
  return value

/-- `choose_bool` (lines 331–333) and `choose_string` (335–340). -/
def choose {α : Type} (explicit configured : Option α) (default : α) : α :=
  (explicit.or configured).getD default

/-- `choose_modules` (lines 342–354). -/
def chooseModules (explicit configured : Option (List String)) : Except String (List String) :=
  ((explicit.or configured).getD ["*"]).mapM validateModuleName

/-- `resolve_desired_state` (lines 204–250). -/
def resolveDesiredState (parameters : Parameters) : Except String DesiredState := do
  let config := parameters.config
  let transcript := choose parameters.transcriptOutputDirectory
    (config.bind (·.transcriptOutputDirectory)) "C:\\ProgramData\\PowerShellTranscripts"
  failIf (maxStringBytes < (utf8 transcript).length ∨ transcript.toList.all isWhitespace = true)
    "transcript output directory must be a bounded non-empty string"
  let modules ← chooseModules parameters.moduleNames (config.bind (·.moduleNames))
  return {
    enableTranscription := choose parameters.enableTranscription
      (config.bind (·.enableTranscription)) true
    transcriptOutputDirectory := transcript
    enableInvocationHeader := choose parameters.enableInvocationHeader
      (config.bind (·.enableInvocationHeader)) true
    enableScriptBlockLogging := choose parameters.enableScriptBlockLogging
      (config.bind (·.enableScriptBlockLogging)) true
    enableScriptBlockInvocationLogging := choose parameters.enableScriptBlockInvocationLogging
      (config.bind (·.enableScriptBlockInvocationLogging)) false
    enableModuleLogging := choose parameters.enableModuleLogging
      (config.bind (·.enableModuleLogging)) true
    moduleNames := modules
    replaceModuleNames := parameters.replaceModuleNames }

/-! ## Plan -/

/-- `u32::from` of a boolean. -/
def dwordOf (enabled : Bool) : UInt32 := if enabled then 1 else 0

/-- `add_dword_drift` (lines 387–397): what it pushes. -/
def dwordDrift (field : PolicyField) (before : ValueSnapshot UInt32) (desired : Bool) : List Mutation :=
  if before ≠ .value (dwordOf desired) then [.setDword field (dwordOf desired)] else []

/-- `add_string_drift` (lines 399–411): what it pushes. -/
def stringDrift (field : PolicyField) (before : ValueSnapshot String) (desired : String) :
    List Mutation :=
  if before ≠ .value desired then [.setString field desired] else []

/-- `add_dword_mutations` (lines 293–329): what it pushes. -/
def dwordMutations (observed : HiveSnapshot) (desired : DesiredState) : List Mutation :=
  dwordDrift .enableTranscription observed.enableTranscription desired.enableTranscription ++
  dwordDrift .enableInvocationHeader observed.enableInvocationHeader desired.enableInvocationHeader ++
  dwordDrift .enableScriptBlockLogging observed.enableScriptBlockLogging
    desired.enableScriptBlockLogging ++
  dwordDrift .enableScriptBlockInvocationLogging observed.enableScriptBlockInvocationLogging
    desired.enableScriptBlockInvocationLogging ++
  dwordDrift .enableModuleLogging observed.enableModuleLogging desired.enableModuleLogging

/-- One entry of `numbered`. -/
def numberedEntry (entry : String × ℕ) : Except String (UInt16 × String) := do
  let value ← validateModuleName entry.1
  failIf (2 ^ 16 ≤ entry.2 + 1) "module_names index overflow"
  return (UInt16.ofNat (entry.2 + 1), value)

/-- `numbered` (lines 367–385). -/
def numbered (values : List String) : Except String (TreeMap UInt16 String) := do
  failIf (values = [] ∨ maxModuleNames < values.length)
    "module_names must contain between one and 64 entries"
  let entries ← values.zipIdx.mapM numberedEntry
  return TreeMap.ofList entries

/-- What `build_plan` pushes for the module names (lines 272–279). -/
def moduleMutations (observed : ModuleNamesSnapshot) (desired : DesiredState) :
    Except String (List Mutation) := do
  let desiredNames ← numbered desired.moduleNames
  if observed.values.toList ≠ desiredNames.toList then do
    failIf (desired.replaceModuleNames = false ∨ observed.complete = false)
      ("ModuleNames replacement requires replace_module_names=true and a complete numbered " ++
        "snapshot")
    return [.replaceModuleNames desiredNames]
  else return []

/-- `build_plan` (lines 258–291). -/
def buildPlan (observation : Observation) (desired : DesiredState) : Except String Plan := do
  let modules ← moduleMutations observation.hklm.moduleNames desired
  return {
    rollback := observation.hklm
    observation := observation
    desired := desired
    mutations := dwordMutations observation.hklm desired ++
      stringDrift .transcriptOutputDirectory observation.hklm.transcriptOutputDirectory
        desired.transcriptOutputDirectory ++ modules
    requiresAdministrator := true
    rebootRequired := false
    newSessionsMayBeNeeded := true }

/-! ## The hive -/

/-- `RegistryValue`: the types of the fixed values. -/
inductive RegistryValue where
  | dword (value : UInt32)
  | string (value : String)
  deriving DecidableEq

/-- The machine hive, as far as the plan is about it. -/
structure Hive where
  fixed : PolicyField → Option RegistryValue
  moduleNames : TreeMap UInt16 String

/-- `replace_module_names` (`powershell_logging.rs`, lines 245–268): each number is deleted, then the
    values are set. -/
def replaceModuleNames (before values : TreeMap UInt16 String) : TreeMap UInt16 String :=
  values.toList.foldl (fun names entry => names.insert entry.1 entry.2)
    (before.keys.foldl (fun names number => names.erase number) before)

/-- `apply_mutation` (lines 232–243). -/
def applyMutation (hive : Hive) : Mutation → Hive
  | .setDword field value => { hive with fixed := Function.update hive.fixed field (some (.dword value)) }
  | .setString field value =>
    { hive with fixed := Function.update hive.fixed field (some (.string value)) }
  | .replaceModuleNames values =>
    { hive with moduleNames := replaceModuleNames hive.moduleNames values }

/-- `apply_logging_mutations` (lines 103–108). -/
def applyMutations (hive : Hive) (mutations : List Mutation) : Hive := mutations.foldl applyMutation hive

/-- A snapshot of a DWORD value. -/
def ReadsDword (value : Option RegistryValue) : ValueSnapshot UInt32 → Prop
  | .missing => value = none
  | .value v => value = some (.dword v)

/-- A snapshot of a string value. -/
def ReadsString (value : Option RegistryValue) : ValueSnapshot String → Prop
  | .missing => value = none
  | .value v => value = some (.string v)

/-- A snapshot of the hive. One that is not complete shows some of the module names. -/
structure Observes (hive : Hive) (snapshot : HiveSnapshot) : Prop where
  enableTranscription : ReadsDword (hive.fixed .enableTranscription) snapshot.enableTranscription
  transcriptOutputDirectory :
    ReadsString (hive.fixed .transcriptOutputDirectory) snapshot.transcriptOutputDirectory
  enableInvocationHeader :
    ReadsDword (hive.fixed .enableInvocationHeader) snapshot.enableInvocationHeader
  enableScriptBlockLogging :
    ReadsDword (hive.fixed .enableScriptBlockLogging) snapshot.enableScriptBlockLogging
  enableScriptBlockInvocationLogging : ReadsDword (hive.fixed .enableScriptBlockInvocationLogging)
    snapshot.enableScriptBlockInvocationLogging
  enableModuleLogging : ReadsDword (hive.fixed .enableModuleLogging) snapshot.enableModuleLogging
  moduleNames : ∀ {number : UInt16} {name}, snapshot.moduleNames.values[number]? = some name →
    hive.moduleNames[number]? = some name
  complete : snapshot.moduleNames.complete = true → ∀ number : UInt16,
    snapshot.moduleNames.values[number]? = hive.moduleNames[number]?

/-- The hive has the desired values and exactly the desired numbered names. -/
structure Reached (desired : DesiredState) (hive : Hive) : Prop where
  enableTranscription :
    hive.fixed .enableTranscription = some (.dword (dwordOf desired.enableTranscription))
  transcriptOutputDirectory :
    hive.fixed .transcriptOutputDirectory = some (.string desired.transcriptOutputDirectory)
  enableInvocationHeader :
    hive.fixed .enableInvocationHeader = some (.dword (dwordOf desired.enableInvocationHeader))
  enableScriptBlockLogging :
    hive.fixed .enableScriptBlockLogging = some (.dword (dwordOf desired.enableScriptBlockLogging))
  enableScriptBlockInvocationLogging : hive.fixed .enableScriptBlockInvocationLogging =
    some (.dword (dwordOf desired.enableScriptBlockInvocationLogging))
  enableModuleLogging :
    hive.fixed .enableModuleLogging = some (.dword (dwordOf desired.enableModuleLogging))
  moduleNames : ∃ names, numbered desired.moduleNames = .ok names ∧
    ∀ number : UInt16, hive.moduleNames[number]? = names[number]?

/-- An accepted plan reaches the desired state, replaces names only when it may, and is the last one. -/
structure Converges (hive : Hive) (observation : Observation) (desired : DesiredState) : Prop where
  reached : ∀ plan, buildPlan observation desired = .ok plan →
    Reached desired (applyMutations hive plan.mutations)
  guarded : ∀ plan values, buildPlan observation desired = .ok plan →
    .replaceModuleNames values ∈ plan.mutations →
      desired.replaceModuleNames = true ∧ observation.hklm.moduleNames.complete = true
  idempotent : ∀ plan again, buildPlan observation desired = .ok plan →
    Observes (applyMutations hive plan.mutations) again.hklm → again.hklm.moduleNames.complete = true →
      ∃ plan', buildPlan again desired = .ok plan' ∧ plan'.mutations = []

/-! ## The fixed values -/

variable {hive : Hive} {observation : Observation} {desired : DesiredState}

theorem applyMutations_append (hive : Hive) (first second : List Mutation) :
    applyMutations hive (first ++ second) = applyMutations (applyMutations hive first) second :=
  List.foldl_append

/-- Where the value was observed, the drift of a DWORD leads to its desired value. -/
theorem apply_dwordDrift {fixed : PolicyField → Option RegistryValue} {names : TreeMap UInt16 String}
    {field : PolicyField} {before : ValueSnapshot UInt32} (enabled : Bool)
    (h : ReadsDword (fixed field) before) :
    applyMutations ⟨fixed, names⟩ (dwordDrift field before enabled) =
      ⟨Function.update fixed field (some (.dword (dwordOf enabled))), names⟩ := by
  rw [dwordDrift]
  split_ifs with hdrift
  · rfl
  · rw [not_not] at hdrift
    rw [hdrift] at h
    have hvalue : fixed field = some (.dword (dwordOf enabled)) := h
    rw [← hvalue, Function.update_eq_self]
    rfl

theorem apply_stringDrift {fixed : PolicyField → Option RegistryValue}
    {names : TreeMap UInt16 String} {field : PolicyField} {before : ValueSnapshot String}
    (value : String) (h : ReadsString (fixed field) before) :
    applyMutations ⟨fixed, names⟩ (stringDrift field before value) =
      ⟨Function.update fixed field (some (.string value)), names⟩ := by
  rw [stringDrift]
  split_ifs with hdrift
  · rfl
  · rw [not_not] at hdrift
    rw [hdrift] at h
    have hvalue : fixed field = some (.string value) := h
    rw [← hvalue, Function.update_eq_self]
    rfl

/-- The desired fixed values. -/
def desiredFixed (desired : DesiredState) : PolicyField → Option RegistryValue
  | .enableTranscription => some (.dword (dwordOf desired.enableTranscription))
  | .transcriptOutputDirectory => some (.string desired.transcriptOutputDirectory)
  | .enableInvocationHeader => some (.dword (dwordOf desired.enableInvocationHeader))
  | .enableScriptBlockLogging => some (.dword (dwordOf desired.enableScriptBlockLogging))
  | .enableScriptBlockInvocationLogging =>
    some (.dword (dwordOf desired.enableScriptBlockInvocationLogging))
  | .enableModuleLogging => some (.dword (dwordOf desired.enableModuleLogging))

/-- The mutations of the fixed values. -/
def fixedMutations (observed : HiveSnapshot) (desired : DesiredState) : List Mutation :=
  dwordMutations observed desired ++ stringDrift .transcriptOutputDirectory
    observed.transcriptOutputDirectory desired.transcriptOutputDirectory

/-- Setting one field leaves what is read of another. -/
theorem ReadsDword.update {fixed : PolicyField → Option RegistryValue} {other : PolicyField}
    {value : Option RegistryValue} {before : ValueSnapshot UInt32} (h : ReadsDword (fixed other) before)
    (field : PolicyField) (hne : other ≠ field := by decide) :
    ReadsDword (Function.update fixed field value other) before := by
  rwa [Function.update_of_ne hne]

theorem ReadsString.update {fixed : PolicyField → Option RegistryValue} {other : PolicyField}
    {value : Option RegistryValue} {before : ValueSnapshot String} (h : ReadsString (fixed other) before)
    (field : PolicyField) (hne : other ≠ field := by decide) :
    ReadsString (Function.update fixed field value other) before := by
  rwa [Function.update_of_ne hne]

theorem apply_fixedMutations {snapshot : HiveSnapshot} (h : Observes hive snapshot) :
    applyMutations hive (fixedMutations snapshot desired) =
      { hive with fixed := desiredFixed desired } := by
  obtain ⟨fixed, names⟩ := hive
  rw [fixedMutations, dwordMutations]
  simp only [applyMutations_append]
  -- One value after another; the values set before are not those of the next field.
  rw [apply_dwordDrift desired.enableTranscription h.enableTranscription]
  rw [apply_dwordDrift desired.enableInvocationHeader
    (h.enableInvocationHeader.update .enableTranscription)]
  rw [apply_dwordDrift desired.enableScriptBlockLogging
    ((h.enableScriptBlockLogging.update .enableTranscription).update .enableInvocationHeader)]
  rw [apply_dwordDrift desired.enableScriptBlockInvocationLogging
    (((h.enableScriptBlockInvocationLogging.update .enableTranscription).update
      .enableInvocationHeader).update .enableScriptBlockLogging)]
  rw [apply_dwordDrift desired.enableModuleLogging
    ((((h.enableModuleLogging.update .enableTranscription).update .enableInvocationHeader).update
      .enableScriptBlockLogging).update .enableScriptBlockInvocationLogging)]
  rw [apply_stringDrift desired.transcriptOutputDirectory
    (((((h.transcriptOutputDirectory.update .enableTranscription).update
      .enableInvocationHeader).update .enableScriptBlockLogging).update
        .enableScriptBlockInvocationLogging).update .enableModuleLogging)]
  simp only [Hive.mk.injEq, and_true]
  funext field
  cases field <;> simp [Function.update, desiredFixed]

theorem fixedMutations_eq_nil {snapshot : HiveSnapshot} (hread : Observes hive snapshot)
    (hfixed : hive.fixed = desiredFixed desired) : fixedMutations snapshot desired = [] := by
  have hdword : ∀ {field : PolicyField} {before : ValueSnapshot UInt32} {enabled : Bool},
      ReadsDword (hive.fixed field) before →
      desiredFixed desired field = some (.dword (dwordOf enabled)) →
        dwordDrift field before enabled = [] := by
    intro field before enabled hreads hvalue
    rw [hfixed, hvalue] at hreads
    cases before with
    | missing => cases hreads
    | value v =>
      cases hreads
      exact if_neg (by simp)
  have hstring : stringDrift .transcriptOutputDirectory snapshot.transcriptOutputDirectory
      desired.transcriptOutputDirectory = [] := by
    have hreads := hread.transcriptOutputDirectory
    rw [hfixed] at hreads
    cases hbefore : snapshot.transcriptOutputDirectory with
    | missing =>
      rw [hbefore] at hreads
      cases hreads
    | value v =>
      rw [hbefore] at hreads
      cases hreads
      exact if_neg (by simp)
  rw [fixedMutations, dwordMutations, hdword hread.enableTranscription rfl,
    hdword hread.enableInvocationHeader rfl, hdword hread.enableScriptBlockLogging rfl,
    hdword hread.enableScriptBlockInvocationLogging rfl, hdword hread.enableModuleLogging rfl, hstring]
  rfl

/-! ## The module names -/

theorem moduleMutations_ok_iff {observed : ModuleNamesSnapshot} {mutations : List Mutation} :
    moduleMutations observed desired = .ok mutations ↔
      ∃ names, numbered desired.moduleNames = .ok names ∧
        ((observed.values.toList = names.toList ∧ mutations = []) ∨
          observed.values.toList ≠ names.toList ∧ desired.replaceModuleNames = true ∧
            observed.complete = true ∧ mutations = [.replaceModuleNames names]) := by
  rw [moduleMutations, except_bind_ok_iff]
  refine exists_congr fun names => and_congr_right fun _ => ?_
  by_cases hequal : observed.values.toList = names.toList
  · rw [if_neg (not_not.mpr hequal)]
    constructor
    · intro h
      cases h
      exact .inl ⟨hequal, rfl⟩
    · rintro (⟨-, rfl⟩ | ⟨hne, -⟩)
      · rfl
      · exact absurd hequal hne
  · rw [if_pos hequal, except_bind_ok_iff]
    simp only [failIf_ok_iff, not_or, Bool.not_eq_false]
    constructor
    · rintro ⟨_, ⟨hreplace, hcomplete⟩, heq⟩
      cases heq
      exact .inr ⟨hequal, hreplace, hcomplete, rfl⟩
    · rintro (⟨h, -⟩ | ⟨-, hreplace, hcomplete, rfl⟩)
      · exact absurd h hequal
      · exact ⟨(), ⟨hreplace, hcomplete⟩, rfl⟩

theorem buildPlan_ok_iff {plan : Plan} : buildPlan observation desired = .ok plan ↔
    ∃ modules, moduleMutations observation.hklm.moduleNames desired = .ok modules ∧
      plan = ⟨observation, desired, fixedMutations observation.hklm desired ++ modules,
        observation.hklm, true, false, true⟩ := by
  rw [buildPlan, except_bind_ok_iff]
  refine exists_congr fun modules => and_congr_right fun _ => ?_
  constructor
  · intro h
    cases h
    rfl
  · rintro rfl
    rfl

/-- The numbered names behind a replacement are the new ones. -/
theorem replaceModuleNames_getElem? (before values : TreeMap UInt16 String) (number : UInt16) :
    (replaceModuleNames before values)[number]? = values[number]? :=
  OrderedMap.getElem?_replace before values number

theorem not_mem_fixedMutations {observed : HiveSnapshot} {values : TreeMap UInt16 String} :
    .replaceModuleNames values ∉ fixedMutations observed desired := by
  have hdword : ∀ {field before enabled},
      .replaceModuleNames values ∉ dwordDrift field before enabled := by
    intro field before enabled
    rw [dwordDrift]
    split_ifs <;> simp
  have hstring : ∀ {field before value},
      .replaceModuleNames values ∉ stringDrift field before value := by
    intro field before value
    rw [stringDrift]
    split_ifs <;> simp
  simp [fixedMutations, dwordMutations, hdword, hstring]

/-! ## Convergence -/

/-- A reached hive is planned for without mutations. -/
theorem Reached.buildPlan_nil {again : Observation} (h : Reached desired hive)
    (hread : Observes hive again.hklm) (hcomplete : again.hklm.moduleNames.complete = true) :
    ∃ plan, buildPlan again desired = .ok plan ∧ plan.mutations = [] := by
  obtain ⟨names, hnumbered, hnames⟩ := h.moduleNames
  have hequal : again.hklm.moduleNames.values.toList = names.toList := by
    rw [OrderedMap.toList_eq_iff]
    intro number
    rw [hread.complete hcomplete, hnames]
  have hfixed : hive.fixed = desiredFixed desired := by
    funext field
    cases field with
    | enableTranscription => exact h.enableTranscription
    | transcriptOutputDirectory => exact h.transcriptOutputDirectory
    | enableInvocationHeader => exact h.enableInvocationHeader
    | enableScriptBlockLogging => exact h.enableScriptBlockLogging
    | enableScriptBlockInvocationLogging => exact h.enableScriptBlockInvocationLogging
    | enableModuleLogging => exact h.enableModuleLogging
  refine ⟨_, buildPlan_ok_iff.mpr ⟨[], moduleMutations_ok_iff.mpr ⟨names, hnumbered,
    .inl ⟨hequal, rfl⟩⟩, rfl⟩, ?_⟩
  rw [List.append_nil]
  exact fixedMutations_eq_nil hread hfixed

/-- What an accepted plan leads to: the fixed values are the desired ones, and the names are, unless the
    snapshot shows just these and the hive has more. -/
theorem reached_iff (hread : Observes hive observation.hklm) {plan : Plan}
    (hplan : buildPlan observation desired = .ok plan) :
    Reached desired (applyMutations hive plan.mutations) ↔
      ∀ names, numbered desired.moduleNames = .ok names →
        observation.hklm.moduleNames.values.toList = names.toList →
          ∀ number : UInt16, hive.moduleNames[number]? = names[number]? := by
  obtain ⟨modules, hmodules, rfl⟩ := buildPlan_ok_iff.mp hplan
  obtain ⟨names, hnumbered, hnames⟩ := moduleMutations_ok_iff.mp hmodules
  simp only [applyMutations_append, apply_fixedMutations hread]
  rcases hnames with ⟨hequal, rfl⟩ | ⟨hne, -, -, rfl⟩
  · constructor
    · intro h other hother _
      obtain ⟨names', hnumbered', hsame⟩ := h.moduleNames
      cases hother.symm.trans hnumbered'
      exact hsame
    · intro h
      exact ⟨rfl, rfl, rfl, rfl, rfl, rfl, names, hnumbered, h names hnumbered hequal⟩
  · constructor
    · intro _ other hother hequal
      cases hother.symm.trans hnumbered
      exact absurd hequal hne
    · intro _
      exact ⟨rfl, rfl, rfl, rfl, rfl, rfl, names, hnumbered, replaceModuleNames_getElem? _ names⟩

/-- Accepted plans converge, unless the snapshot shows exactly the desired names and the hive has more. -/
theorem converges_iff (hive : Hive) (observation : Observation) (desired : DesiredState)
    (hread : Observes hive observation.hklm) :
    Converges hive observation desired ↔
      ∀ names, numbered desired.moduleNames = .ok names →
        observation.hklm.moduleNames.values.toList = names.toList →
          ∀ number : UInt16, hive.moduleNames[number]? = names[number]? := by
  constructor
  · intro h names hnumbered hequal
    have hplan := buildPlan_ok_iff.mpr ⟨[], moduleMutations_ok_iff.mpr ⟨names, hnumbered,
      .inl ⟨hequal, rfl⟩⟩, rfl⟩
    exact (reached_iff hread hplan).mp (h.reached _ hplan) names hnumbered hequal
  · intro h
    refine ⟨?_, ?_, ?_⟩
    · intro plan hplan
      exact (reached_iff hread hplan).mpr h
    · intro plan values hplan hmem
      obtain ⟨modules, hmodules, rfl⟩ := buildPlan_ok_iff.mp hplan
      obtain ⟨names, -, ⟨-, rfl⟩ | ⟨-, hreplace, hcomplete, -⟩⟩ := moduleMutations_ok_iff.mp hmodules
      · rw [List.append_nil] at hmem
        exact absurd hmem not_mem_fixedMutations
      · exact ⟨hreplace, hcomplete⟩
    · intro plan again hplan hread' hcomplete
      exact ((reached_iff hread hplan).mpr h).buildPlan_nil hread' hcomplete

/-- The desired state of a request that says nothing. -/
def defaultDesired : DesiredState where
  enableTranscription := true
  transcriptOutputDirectory := "C:\\ProgramData\\PowerShellTranscripts"
  enableInvocationHeader := true
  enableScriptBlockLogging := true
  enableScriptBlockInvocationLogging := false
  enableModuleLogging := true
  moduleNames := ["*"]
  replaceModuleNames := false

theorem resolveDesiredState_default : resolveDesiredState {} = .ok defaultDesired := rfl

/-- The numbered names of `defaultDesired`. -/
def wildcardNames : TreeMap UInt16 String := TreeMap.ofList [((1 : UInt16), "*")]

theorem numbered_default : numbered defaultDesired.moduleNames = .ok wildcardNames := rfl

/-- A snapshot without policy values, and with the names of `defaultDesired`. -/
def wildcardSnapshot (complete : Bool) : HiveSnapshot :=
  ⟨.missing, .missing, .missing, .missing, .missing, .missing, wildcardNames, complete⟩

/-- A request for two names in place of those that are there. -/
def replacingDesired : DesiredState :=
  { defaultDesired with moduleNames := ["Microsoft.*", "Pester"], replaceModuleNames := true }

/-- The numbered names of `replacingDesired`. -/
def replacingNames : TreeMap UInt16 String := TreeMap.ofList [((1 : UInt16), "Microsoft.*"), (2, "Pester")]

theorem numbered_replacing : numbered replacingDesired.moduleNames = .ok replacingNames := rfl

theorem wildcardNames_ne_replacingNames : wildcardNames.toList ≠ replacingNames.toList := by decide +kernel

/-- A hive without policy values under a complete snapshot of its only name, which is replaced. -/
theorem converges_replaced :
    (∃ plan, buildPlan ⟨wildcardSnapshot true, none⟩ replacingDesired = .ok plan ∧
        .replaceModuleNames replacingNames ∈ plan.mutations) ∧
      Converges ⟨fun _ => none, wildcardNames⟩ ⟨wildcardSnapshot true, none⟩ replacingDesired := by
  constructor
  · have hmodules : moduleMutations (wildcardSnapshot true).moduleNames replacingDesired =
        .ok [.replaceModuleNames replacingNames] :=
      moduleMutations_ok_iff.mpr
        ⟨replacingNames, numbered_replacing, .inr ⟨wildcardNames_ne_replacingNames, rfl, rfl, rfl⟩⟩
    exact ⟨_, buildPlan_ok_iff.mpr ⟨_, hmodules, rfl⟩, List.mem_append_right _ (List.mem_singleton_self _)⟩
  · have hread : Observes ⟨fun _ => none, wildcardNames⟩ (wildcardSnapshot true) :=
      ⟨rfl, rfl, rfl, rfl, rfl, rfl, id, fun _ _ => rfl⟩
    refine (converges_iff _ ⟨wildcardSnapshot true, none⟩ _ hread).mpr fun names hnames hequal => ?_
    cases numbered_replacing.symm.trans hnames
    exact absurd hequal wildcardNames_ne_replacingNames

/-- A second name that the snapshot does not show stays, though the plan is accepted. -/
theorem not_converges_truncated :
    ¬ ∀ (hive : Hive) (observation : Observation) (parameters : Parameters) (desired : DesiredState),
      resolveDesiredState parameters = .ok desired → Observes hive observation.hklm →
        Converges hive observation desired := by
  intro h
  have hread : Observes ⟨fun _ => none, TreeMap.ofList [((1 : UInt16), "*"), (2, "Extra")]⟩
      (wildcardSnapshot false) := by
    refine ⟨rfl, rfl, rfl, rfl, rfl, rfl, ?_, nofun⟩
    intro number name hname
    have hmem := (OrderedMap.getElem?_ofList_iff (by decide)).mp hname
    exact (OrderedMap.getElem?_ofList_iff (by decide)).mpr (List.mem_append_left [(2, "Extra")] hmem)
  have hmodules : moduleMutations (wildcardSnapshot false).moduleNames defaultDesired = .ok [] :=
    moduleMutations_ok_iff.mpr ⟨wildcardNames, numbered_default, .inl ⟨rfl, rfl⟩⟩
  have hplan : buildPlan ⟨wildcardSnapshot false, none⟩ defaultDesired = .ok _ :=
    buildPlan_ok_iff.mpr ⟨[], hmodules, rfl⟩
  have hreached := (h _ ⟨wildcardSnapshot false, none⟩ {} _ resolveDesiredState_default hread).reached
    _ hplan
  have hextra := (@reached_iff _ ⟨wildcardSnapshot false, none⟩ _ hread _ hplan).mp hreached
    wildcardNames numbered_default rfl 2
  revert hextra
  decide

end BaselineOps.Capabilities.PowerShellLogging
