import Mathlib
import BaselineOps.Domain.Reference
import BaselineOps.WindowsUpdate.Native
import BaselineOps.WindowsUpdate.Planner

/-!
# The observer and the mutation adapter

`observe_windows_update_policy` reads the fields with `decode_policy_value` (`policy_registry.rs`, lines
209–286), the adapter with `decode_value`. The observer takes the text before the first NUL of a value of
up to 512 bytes, and the adapter takes terminated text of up to 128 bytes of UTF-8 only.

* `observer_adapter_agree_iff`: the adapter takes every planned mutation, and so an action does not stop
  between two mutations, exactly when every string that has to be changed is stored as the adapter
  writes it.
* `observer_adapter_disagree`: a string without a terminator is observed and cannot be changed.
-/

namespace BaselineOps.WindowsUpdate

open BaselineOps.Capabilities BaselineOps.Lib BaselineOps.Domain BaselineOps.Engine

/-! ## Observer -/

/-- The stored value of every field, with all keys present. -/
abbrev StoredValues := WindowsUpdateField → Option (RegValueType × List UInt8)

/-- The error of `decode_policy_value` for another type. -/
def unexpectedPolicyType : RegistryError :=
  .trustFailure "policy registry value has an unexpected type"

/-- The size check of `read_policy_value` (lines 209–251) on the bytes of a value. -/
def readPolicyValue (bytes : List UInt8) : Except RegistryError Unit :=
  failIf (512 < bytes.length) (.trustFailure "policy registry value exceeds the bounded reader limit")

/-- The units before the first NUL. -/
def textUnits (bytes : List UInt8) : List UInt16 := (unitsOf bytes).takeWhile fun unit => unit ≠ 0

/-- `decode_policy_value` (lines 253–286). -/
def decodePolicyValue (kind : RegValueType) (bytes : List UInt8) (dword : Bool) :
    Except RegistryError PolicyValueSnapshot :=
  if dword then
    if kind = .dword ∧ bytes.length = 4 then .ok (.dword (UInt32.ofNat (fromLeBytes bytes)))
    else .error unexpectedPolicyType
  else if kind ≠ .sz ∨ bytes.length % 2 ≠ 0 then .error unexpectedPolicyType
  else
    match Utf16.decode (textUnits bytes) with
    | none => .error (.trustFailure "invalid utf-16: lone surrogate found")
    | some text => .ok (.string (String.ofList text))

/-- `read_from` (lines 175–187) on the stored value. -/
def readFrom (dword : Bool) (stored : Option (RegValueType × List UInt8)) :
    Except RegistryError PolicyValueSnapshot :=
  match stored with
  | none => .ok .missing
  | some (kind, bytes) => do
    readPolicyValue bytes
    decodePolicyValue kind bytes dword

/-- `observe_windows_update_policy` (`windows_update.rs`, lines 29–42). -/
def observeWindowsUpdatePolicy (stored : StoredValues) : Except RegistryError WindowsUpdateObservation := do
  let values ← fields.foldlM (fun (values : PolicyMap) spec => do
    let value ← readFrom (spec.kind == .dword) (stored spec.field)
    return values.insert spec.field value) PolicyMap.empty
  return ⟨values⟩

/-! ## Adapter -/

/-- `read_leaf` (`native.rs`, lines 147–181). -/
def readLeaf (kind : ValueKind) (stored : Option (RegValueType × List UInt8)) :
    Except RegistryError PolicyValueSnapshot :=
  match stored with
  | none => .ok .missing
  | some (type, bytes) => do
    let _ ← boundedBuffer kind (UInt32.ofNat bytes.length)
    decodeValue kind type bytes

/-- What `write_leaf` (lines 251–281) leaves as the stored value. -/
def writtenValue : PolicyValueSnapshot → Option (RegValueType × List UInt8)
  | .missing => none
  | .dword value => some (.dword, toLeBytes 4 value.toNat)
  | .string value => some (.sz, encodeString value)

/-- `NativeRegistry` (lines 17–20) over the stored values; `pending` stands for the retained key. -/
structure NativeRegistry where
  values : StoredValues
  pending : Bool

/-- `NativeRegistry::write` (lines 28–43). The deletion of an absent value is an error of the system. -/
def nativeWrite (spec : FieldSpec) (expected desired : PolicyValueSnapshot) (s : NativeRegistry) :
    Except RegistryError Unit × NativeRegistry :=
  match readLeaf spec.kind (s.values spec.field) with
  | .error error => (.error error, s)
  | .ok current =>
    if current ≠ expected then (.error staleState, s)
    else if desired = .missing ∧ s.values spec.field = none then
      (.error (.other "The system cannot find the file specified. (os error 2)"), s)
    else (.ok (), ⟨Function.update s.values spec.field (writtenValue desired), true⟩)

/-- `NativeRegistry::flush_and_read_retained` (lines 46–60). -/
def nativeFlush (spec : FieldSpec) (s : NativeRegistry) :
    Except RegistryError PolicyValueSnapshot × NativeRegistry :=
  if s.pending = false then (.error (.trustFailure "Windows Update mutation has no pending key"), s)
  else
    match readLeaf spec.kind (s.values spec.field) with
    | .error error => (.error error, s)
    | .ok snapshot => (.ok snapshot, { s with pending := false })

/-- `NativeRegistry` without faults: all keys are there and pass their controls. -/
def nativeRegistry : RegistryPort NativeRegistry where
  read spec s := (readLeaf spec.kind (s.values spec.field), s)
  write := nativeWrite
  flushAndReadRetained := nativeFlush

/-- `apply_windows_update_mutation` (`windows_update.rs`, lines 64–82) on the stored values. -/
def applyWindowsUpdateMutation (field : WindowsUpdateField) (expected desired : PolicyValueSnapshot)
    (stored : StoredValues) : Except RegistryError PolicyValueSnapshot × StoredValues :=
  match applyWith nativeRegistry field expected desired ⟨⟨stored, false⟩, []⟩ with
  | .ok value after => (.ok value, after.port.values)
  | .error error after => (.error error, after.port.values)

/-- The port of an action on a host without faults; `describe` is `to_string` on errors. -/
def faultlessPort (describe : RegistryError → String) : ActionPort StoredValues where
  observe stored := ((observeWindowsUpdatePolicy stored).mapError describe, stored)
  persistRecovery _ _ _ stored := (.ok (), stored)
  append _ stored := (.ok (), stored)
  mutate field expected desired stored :=
    let answer := applyWindowsUpdateMutation field expected desired stored
    (answer.1.mapError describe, answer.2)

/-! ## What the observer returns -/

theorem foldlM_insert_ok_iff {read : FieldSpec → Except RegistryError PolicyValueSnapshot}
    {specs : List FieldSpec} (hnodup : (specs.map FieldSpec.field).Nodup) {values after : PolicyMap} :
    specs.foldlM (fun (values : PolicyMap) spec => do
        let value ← read spec
        return values.insert spec.field value) values = .ok after ↔
      (∀ spec ∈ specs, ∃ value, read spec = .ok value ∧ after spec.field = some value) ∧
        ∀ f ∉ specs.map FieldSpec.field, after f = values f := by
  induction specs generalizing values with
  | nil =>
    simp only [List.foldlM_nil, List.not_mem_nil, false_implies, implies_true, true_and, List.map_nil,
      not_false_eq_true, forall_const]
    constructor
    · intro h
      cases h
      exact fun _ => rfl
    · intro h
      rw [funext h]
      rfl
  | cons spec specs ih =>
    obtain ⟨hnot, hnodup⟩ := List.nodup_cons.mp hnodup
    rw [List.foldlM_cons, except_bind_ok_iff]
    simp only [except_bind_ok_iff]
    constructor
    · rintro ⟨_, ⟨value, hread, hinsert⟩, hrest⟩
      cases hinsert
      obtain ⟨hspecs, hother⟩ := (ih hnodup).mp hrest
      refine ⟨?_, ?_⟩
      · intro spec' hspec'
        rcases List.mem_cons.mp hspec' with rfl | hspec'
        · exact ⟨value, hread, by rw [hother _ hnot, PolicyMap.insert_self]⟩
        · exact hspecs spec' hspec'
      · intro f hf
        rw [List.map_cons, List.mem_cons, not_or] at hf
        rw [hother f hf.2, PolicyMap.insert_of_ne hf.1]
    · rintro ⟨hspecs, hother⟩
      obtain ⟨value, hread, hvalue⟩ := hspecs spec List.mem_cons_self
      refine ⟨values.insert spec.field value, ⟨value, hread, rfl⟩, (ih hnodup).mpr ⟨?_, ?_⟩⟩
      · exact fun spec' hspec' => hspecs spec' (List.mem_cons_of_mem spec hspec')
      · intro f hf
        by_cases hfield : f = spec.field
        · rw [hfield, PolicyMap.insert_self, hvalue]
        · rw [PolicyMap.insert_of_ne hfield]
          exact hother f (by simp [hfield, hf])

/-- The observation has what the observer reads, field by field. -/
theorem observe_ok_iff {stored : StoredValues} {observation : WindowsUpdateObservation} :
    observeWindowsUpdatePolicy stored = .ok observation ↔
      ∀ f, ∃ value, readFrom ((fieldSpec f).kind == .dword) (stored f) = .ok value ∧
        observation.values f = some value := by
  have hnodup : (fields.map FieldSpec.field).Nodup := by decide
  have hmem : ∀ f, fieldSpec f ∈ fields := by
    intro f
    cases f <;> decide
  have hspec : ∀ spec ∈ fields, fieldSpec spec.field = spec := by decide
  have hall : ∀ f, f ∈ fields.map FieldSpec.field := by
    intro f
    cases f <;> decide
  unfold observeWindowsUpdatePolicy
  rw [except_bind_ok_iff]
  constructor
  · rintro ⟨values, hvalues, hobservation⟩
    cases hobservation
    intro f
    have h := ((foldlM_insert_ok_iff hnodup).mp hvalues).1 (fieldSpec f) (hmem f)
    rwa [fieldSpec_field] at h
  · intro h
    refine ⟨observation.values, (foldlM_insert_ok_iff hnodup).mpr ⟨?_, ?_⟩, rfl⟩
    · intro spec hmem
      have hfield := h spec.field
      rwa [hspec spec hmem] at hfield
    · intro f hf
      exact absurd (hall f) hf

/-! ## One value in both decoders -/

variable {kind : ValueKind} {type : RegValueType} {bytes : List UInt8} {value : PolicyValueSnapshot}

theorem readFrom_dword_ok_iff :
    readFrom true (some (type, bytes)) = .ok value ↔
      type = .dword ∧ bytes.length = 4 ∧ value = .dword (UInt32.ofNat (fromLeBytes bytes)) := by
  have hdecode : decodePolicyValue type bytes true = .ok value ↔
      type = .dword ∧ bytes.length = 4 ∧ value = .dword (UInt32.ofNat (fromLeBytes bytes)) := by
    unfold decodePolicyValue
    by_cases h : type = .dword ∧ bytes.length = 4
    · simp [h, eq_comm]
    · rw [if_pos rfl, if_neg h]
      refine iff_of_false (by simp) ?_
      rintro ⟨htype, hlength, -⟩
      exact h ⟨htype, hlength⟩
  simp only [readFrom, readPolicyValue, except_bind_ok_iff, failIf_ok_iff, hdecode]
  constructor
  · rintro ⟨_, -, h⟩
    exact h
  · rintro ⟨htype, hlength, hvalue⟩
    exact ⟨(), by omega, htype, hlength, hvalue⟩

theorem readFrom_string_ok_iff :
    readFrom false (some (type, bytes)) = .ok value ↔
      bytes.length ≤ 512 ∧ type = .sz ∧ bytes.length % 2 = 0 ∧
        ∃ text, Utf16.decode (textUnits bytes) = some text ∧ value = .string (String.ofList text) := by
  simp only [readFrom, readPolicyValue, except_bind_ok_iff, failIf_ok_iff, not_lt, decodePolicyValue,
    Bool.false_eq_true, if_false]
  constructor
  · rintro ⟨_, hsize, h⟩
    split_ifs at h with hshape
    rw [not_or, not_not, not_not] at hshape
    cases hdecode : Utf16.decode (textUnits bytes) with
    | none =>
      rw [hdecode] at h
      cases h
    | some text =>
      rw [hdecode] at h
      cases h
      exact ⟨hsize, hshape.1, hshape.2, text, rfl, rfl⟩
  · rintro ⟨hsize, htype, heven, text, hdecode, rfl⟩
    refine ⟨(), hsize, ?_⟩
    rw [if_neg (by simp [htype, heven]), hdecode]

theorem readLeaf_ok_iff (hsize : bytes.length < 2 ^ 32) :
    readLeaf kind (some (type, bytes)) = .ok value ↔
      bytes.length ≤ maximumBytes kind ∧ decodeValue kind type bytes = .ok value := by
  have hbuffer : (∃ buffer, boundedBuffer kind (UInt32.ofNat bytes.length) = .ok buffer) ↔
      bytes.length ≤ maximumBytes kind := by
    rw [boundedBuffer_ok_iff, UInt32.toNat_ofNat', Nat.mod_eq_of_lt hsize]
  simp only [readLeaf, except_bind_ok_iff]
  rw [← hbuffer]
  constructor
  · rintro ⟨buffer, h, hdecode⟩
    exact ⟨⟨buffer, h⟩, hdecode⟩
  · rintro ⟨⟨buffer, h⟩, hdecode⟩
    exact ⟨buffer, h, hdecode⟩

/-- The units before the first NUL of an encoding are those of the string. -/
theorem textUnits_encodeString {text : String} (h : '\x00' ∉ text.toList) :
    textUnits (encodeString text) = Utf16.encode text.toList := by
  rw [textUnits, encodeString, unitsOf_bytesOf, List.takeWhile_append_of_pos]
  · simp
  · intro unit hunit
    rw [decide_eq_true_iff]
    rintro rfl
    exact h (nul_mem_encode.mp hunit)

/-- A value that the adapter has written is read as that value by the adapter. -/
theorem readLeaf_writtenValue {spec : FieldSpec} (h : validateSnapshot spec value = .ok ()) :
    readLeaf spec.kind (writtenValue value) = .ok value := by
  cases value with
  | missing => rfl
  | dword number =>
    have hkind : spec.kind = .dword := by
      cases hkind : spec.kind with
      | dword => rfl
      | string =>
        simp [validateSnapshot, hkind] at h
    rw [hkind, writtenValue, readLeaf_ok_iff (by simp [length_toLeBytes])]
    refine ⟨by simp [length_toLeBytes, maximumBytes], ?_⟩
    have hlt : number.toNat < 256 ^ 4 := number.toNat_lt
    rw [decodeValue, if_pos ⟨rfl, length_toLeBytes ..⟩, fromLeBytes_toLeBytes hlt, UInt32.ofNat_toNat]
  | string text =>
    have hkind : spec.kind = .string := by
      cases hkind : spec.kind with
      | string => rfl
      | dword =>
        simp [validateSnapshot, hkind] at h
    simp only [validateSnapshot, hkind] at h
    have hstorable := validateString_ok_iff.mp h
    have hlength := length_encodeString_le hstorable
    have hmax : maximumBytes .string < 2 ^ 32 := by decide
    rw [hkind, writtenValue, readLeaf_ok_iff (by omega)]
    refine ⟨hlength, ?_⟩
    rw [decodeValue, if_pos rfl, decodeString_ok_iff]
    exact ⟨text, rfl, hstorable, rfl⟩

/-! ## Admissible mutations -/

/-- The adapter takes the mutation, and reads what the observer returned. -/
def Admissible (stored : StoredValues) (observation : WindowsUpdateObservation)
    (m : WindowsUpdateMutation) : Prop :=
  ∃ observed, observation.values m.field = some observed ∧
    (∃ spec, validateRequest m.field observed m.desired = .ok spec) ∧
    readLeaf (fieldSpec m.field).kind (stored m.field) = .ok observed

/-- A string that is stored for a field is stored as the adapter writes it, or is the one that the
    configuration wants there. -/
def Readable (stored : StoredValues) (desired : WindowsUpdateConfig) (f : WindowsUpdateField) : Prop :=
  ∀ type bytes, (fieldSpec f).kind = .string → stored f = some (type, bytes) →
    (∃ text, StorableString text ∧ bytes = encodeString text) ∨
      ∃ text, expectedValues desired f = some (.string text) ∧ textUnits bytes = Utf16.encode text.toList

theorem validateRequest_ok_iff {field : WindowsUpdateField} {expected desired : PolicyValueSnapshot} :
    (∃ spec, validateRequest field expected desired = .ok spec) ↔
      field ≠ .allowMicrosoftUpdate ∧ validateSnapshot (fieldSpec field) expected = .ok () ∧
        validateSnapshot (fieldSpec field) desired = .ok () ∧ validateDwordBound field desired = .ok () := by
  simp only [validateRequest, except_bind_ok_iff, failIf_ok_iff]
  constructor
  · rintro ⟨spec, _, hfield, _, hexpected, _, hdesired, _, hbound, -⟩
    exact ⟨hfield, hexpected, hdesired, hbound⟩
  · rintro ⟨hfield, hexpected, hdesired, hbound⟩
    exact ⟨fieldSpec field, (), hfield, (), hexpected, (), hdesired, (), hbound, rfl⟩

variable {stored : StoredValues} {observation : WindowsUpdateObservation} {desired : WindowsUpdateConfig}

/-- Every planned mutation is admissible exactly when the stored strings are readable. -/
theorem admissible_iff (haccepted : Accepted desired)
    (hobserve : observeWindowsUpdatePolicy stored = .ok observation) :
    (∀ m ∈ (buildPlan observation desired).mutations, Admissible stored observation m) ↔
      ∀ f, Readable stored desired f := by
  have hobserved := observe_ok_iff.mp hobserve
  constructor
  · intro h f type bytes hkind hstored
    obtain ⟨observed, hread, hvalue⟩ := hobserved f
    rw [hstored, hkind] at hread
    obtain ⟨hsize, rfl, -, text, hdecode, rfl⟩ := readFrom_string_ok_iff.mp hread
    have hexpected : ∃ v, expectedValues desired f = some v := by
      rw [expectedValues_table haccepted]
      cases f with
      | allowMicrosoftUpdate => exact absurd hkind (by decide)
      | _ => exact ⟨_, rfl⟩
    obtain ⟨v, hv⟩ := hexpected
    by_cases hsame : v = .string (String.ofList text)
    · refine .inr ⟨String.ofList text, by rw [hv, hsame], ?_⟩
      rw [String.toList_ofList]
      exact Utf16.decode_eq_some_iff.mp hdecode
    · have hm : (⟨f, v⟩ : WindowsUpdateMutation) ∈ (buildPlan observation desired).mutations := by
        refine mem_mutations_iff.mpr ⟨hv, ?_⟩
        rw [hvalue]
        intro heq
        exact hsame (Option.some.inj heq).symm
      obtain ⟨observed', -, -, hleaf⟩ := h ⟨f, v⟩ hm
      simp only at hleaf
      rw [hstored, hkind, readLeaf_ok_iff (by omega), decodeValue, if_pos rfl, decodeString_ok_iff] at hleaf
      obtain ⟨-, text', -, hstorable, hbytes⟩ := hleaf
      exact .inl ⟨text', hstorable, hbytes⟩
  · intro h m hm
    obtain ⟨hexpected, hdiffers⟩ := mem_mutations_iff.mp hm
    obtain ⟨observed, hread, hvalue⟩ := hobserved m.field
    have hfield : m.field ≠ .allowMicrosoftUpdate := by
      intro heq
      rw [heq, expectedValues_allowMicrosoftUpdate] at hexpected
      cases hexpected
    have hvalid := expectedValues_valid haccepted hexpected
    -- it is left to show that the adapter reads the observed value and takes it
    have hadapter : readLeaf (fieldSpec m.field).kind (stored m.field) = .ok observed ∧
        validateSnapshot (fieldSpec m.field) observed = .ok () := by
      cases hstored : stored m.field with
      | none =>
        rw [hstored] at hread
        cases hread
        refine ⟨rfl, ?_⟩
        simp only [validateSnapshot]
      | some entry =>
        obtain ⟨type, bytes⟩ := entry
        rw [hstored] at hread
        cases hkind : (fieldSpec m.field).kind with
        | dword =>
          rw [hkind] at hread
          obtain ⟨rfl, hlength, rfl⟩ := readFrom_dword_ok_iff.mp hread
          refine ⟨(readLeaf_ok_iff (by omega)).mpr ⟨by rw [hlength]; exact le_rfl, ?_⟩, ?_⟩
          · rw [decodeValue, if_pos ⟨rfl, hlength⟩]
          · simp only [validateSnapshot, hkind]
        | string =>
          rw [hkind] at hread
          obtain ⟨hsize, rfl, -, text, hdecode, rfl⟩ := readFrom_string_ok_iff.mp hread
          rcases h m.field .sz bytes hkind hstored with ⟨text', hstorable, rfl⟩ | ⟨text', hwanted, hunits⟩
          · rw [textUnits_encodeString hstorable.1, Utf16.decode_encode] at hdecode
            obtain rfl := Option.some.inj hdecode
            rw [String.ofList_toList]
            refine ⟨(readLeaf_ok_iff (by omega)).mpr ⟨length_encodeString_le hstorable, ?_⟩, ?_⟩
            · rw [decodeValue, if_pos rfl, decodeString_ok_iff]
              exact ⟨text', rfl, hstorable, rfl⟩
            · simp only [validateSnapshot, hkind]
              exact validateString_ok_iff.mpr hstorable
          · -- the wanted string is there already
            rw [hunits, Utf16.decode_encode] at hdecode
            obtain rfl := Option.some.inj hdecode
            rw [String.ofList_toList] at hvalue
            rw [hexpected] at hwanted
            rw [hvalue, hwanted] at hdiffers
            exact absurd rfl hdiffers
    exact ⟨observed, hvalue, validateRequest_ok_iff.mpr ⟨hfield, hadapter.2, hvalid.1, hvalid.2⟩, hadapter.1⟩

/-! ## Actions -/

/-- The adapter carries an admissible mutation out, and changes no other field. -/
theorem applyWindowsUpdateMutation_ok {field : WindowsUpdateField} {expected desired : PolicyValueSnapshot}
    {spec : FieldSpec} (hvalid : validateRequest field expected desired = .ok spec)
    (hread : readLeaf (fieldSpec field).kind (stored field) = .ok expected) :
    ∃ stored', applyWindowsUpdateMutation field expected desired stored = (.ok desired, stored') ∧
      ∀ other ≠ field, stored' other = stored other := by
  obtain ⟨-, -, hdesired, -⟩ := validateRequest_ok_iff.mp ⟨spec, hvalid⟩
  have hspec : spec = fieldSpec field := by
    simp only [validateRequest, except_bind_ok_iff] at hvalid
    obtain ⟨_, -, _, -, _, -, _, -, heq⟩ := hvalid
    exact (Except.ok.inj heq).symm
  subst hspec
  have hleaf : readLeaf (fieldSpec field).kind (stored (fieldSpec field).field) = .ok expected := by
    rwa [fieldSpec_field]
  unfold applyWindowsUpdateMutation applyWith comparePrestate
  simp only [run_bind, hvalid, run_check_ok, read, nativeRegistry, hleaf]
  by_cases hsame : expected = desired
  · subst hsame
    exact ⟨stored, by simp [run_pure], fun _ _ => rfl⟩
  · -- the written value is read back by the retained key and by a fresh one
    have hwrite : nativeWrite (fieldSpec field) expected desired ⟨stored, false⟩ =
        (.ok (), ⟨Function.update stored field (writtenValue desired), true⟩) := by
      have hdelete : ¬ (desired = .missing ∧ stored field = none) := by
        rintro ⟨rfl, habsent⟩
        rw [habsent] at hread
        exact hsame (Except.ok.inj hread).symm
      simp only [nativeWrite, fieldSpec_field, hread, ne_eq, not_true_eq_false, if_false]
      rw [if_neg hdelete]
    have hback : readLeaf (fieldSpec field).kind
        (Function.update stored field (writtenValue desired) (fieldSpec field).field) = .ok desired := by
      rw [fieldSpec_field, Function.update_self]
      exact readLeaf_writtenValue hdesired
    have hflush : nativeFlush (fieldSpec field)
        ⟨Function.update stored field (writtenValue desired), true⟩ =
          (.ok desired, ⟨Function.update stored field (writtenValue desired), false⟩) := by
      simp only [nativeFlush, hback]
      rfl
    refine ⟨Function.update stored field (writtenValue desired), ?_,
      fun other hother => Function.update_of_ne hother _ _⟩
    simp [run_pure, if_neg hsame, mutateAndVerify, run_bind, write, hwrite, run_check_ok,
      flushAndReadRetained, hflush, verifyReadback_self, read, hback]
    rfl

/-- Admissible mutations of different fields are carried out one after the other. -/
theorem applyMutations_ok (describe : RegistryError → String) {mutations : List WindowsUpdateMutation}
    (hnodup : (mutations.map WindowsUpdateMutation.field).Nodup)
    (h : ∀ m ∈ mutations, Admissible stored observation m) (calls : List Engine.PortCall) :
    ∃ after, applyMutations (faultlessPort describe) observation mutations ⟨stored, calls⟩ =
      .ok (.ok ()) after := by
  induction mutations generalizing stored calls with
  | nil => exact ⟨_, rfl⟩
  | cons m mutations ih =>
    obtain ⟨hnot, hnodup⟩ := List.nodup_cons.mp hnodup
    obtain ⟨observed, hvalue, ⟨spec, hvalid⟩, hread⟩ := h m List.mem_cons_self
    obtain ⟨stored', happly, hothers⟩ := applyWindowsUpdateMutation_ok hvalid hread
    have hrest : ∀ m' ∈ mutations, Admissible stored' observation m' := by
      intro m' hm'
      obtain ⟨observed', hvalue', hvalid', hread'⟩ := h m' (List.mem_cons_of_mem m hm')
      refine ⟨observed', hvalue', hvalid', ?_⟩
      rwa [hothers]
      intro heq
      exact hnot (heq ▸ List.mem_map_of_mem hm')
    obtain ⟨after, hafter⟩ := ih hnodup hrest
      (calls ++ [.mutate m.field observed m.desired (.ok m.desired)])
    refine ⟨after, ?_⟩
    have hmutate : callMutate (faultlessPort describe) m.field observed m.desired ⟨stored, calls⟩ =
        .ok (.ok m.desired) ⟨stored', calls ++ [.mutate m.field observed m.desired (.ok m.desired)]⟩ := by
      simp only [callMutate, faultlessPort, happly]
      rfl
    have hresult : mutationResult m (.ok m.desired) = .ok () := by simp [mutationResult]
    unfold applyMutations
    rw [hvalue]
    simp only [applyMutation, run_bind, hmutate, run_pure, hresult]
    exact hafter

/-- The action ends without a panic and without a failure among its mutations. -/
def NeverStopsPartway (d : Deps) (describe : RegistryError → String) (actionId : ActionId)
    (capability : CapabilityId) (plan : WindowsUpdatePlan) (stored : StoredValues) : Prop :=
  ∃ outcome after,
    executeWindowsUpdate d (faultlessPort describe) actionId capability plan ⟨stored, []⟩ = .ok outcome after ∧
      ∀ failure, outcome.failure = some failure → failure.phase ≠ .mutation

theorem finishAfterMutations_phase (d : Deps) {port : ActionPort StoredValues} {actionId : ActionId}
    {capability : CapabilityId} {pre expectedPost : WindowsUpdateObservation} {mutationAttempted : Bool}
    (st : Engine.PortState StoredValues) :
    ∃ outcome after,
      finishAfterMutations d port actionId capability pre expectedPost mutationAttempted st = .ok outcome after ∧
        ∀ failure, outcome.failure = some failure → failure.phase ≠ .mutation := by
  have hterminal : ∀ (post : WindowsUpdateObservation) (status : ActionStatus)
      (failure : Option (FailurePhase × String)) (st : Engine.PortState StoredValues),
      (∀ f, failure = some f → f.1 ≠ .mutation) →
      ∃ outcome after, recordTerminal d port actionId capability pre mutationAttempted post status failure st =
          .ok outcome after ∧ ∀ f, outcome.failure = some f → f.phase ≠ .mutation := by
    intro post status failure st hfailure
    simp only [recordTerminal, run_bind, callAppend]
    cases (port.append _ st.port).1 with
    | error detail =>
      refine ⟨_, _, rfl, ?_⟩
      intro f hf
      cases hf
      exact nofun
    | ok _ =>
      refine ⟨_, _, rfl, ?_⟩
      intro f hf
      obtain ⟨f', hf', rfl⟩ := Option.map_eq_some_iff.mp hf
      exact hfailure f' hf'
  simp only [finishAfterMutations, observeComplete, run_bind, callObserve, run_pure]
  cases completeObservation "post-state" (port.observe st.port).1 with
  | error detail =>
    refine ⟨_, _, rfl, ?_⟩
    intro f hf
    cases hf
    exact nofun
  | ok post =>
    simp only
    split_ifs
    · exact hterminal _ _ _ _ (by simp)
    · exact hterminal _ _ _ _ (by simp)

theorem neverStopsPartway (d : Deps) (describe : RegistryError → String) (actionId : ActionId)
    {capability : CapabilityId} (hcapability : capability.asStr = windowsUpdateCapability)
    (haccepted : Accepted desired) (hobserve : observeWindowsUpdatePolicy stored = .ok observation)
    (h : ∀ m ∈ (buildPlan observation desired).mutations, Admissible stored observation m) :
    NeverStopsPartway d describe actionId capability (buildPlan observation desired) stored := by
  have hcomplete : ∀ f, (observation.values f).isSome = true := by
    intro f
    obtain ⟨value, -, hvalue⟩ := observe_ok_iff.mp hobserve f
    rw [hvalue]
    rfl
  have hplan := validatePlan_buildPlan hcapability haccepted hcomplete
  have hobserved : completeObservation "pre-state" (.ok observation) = .ok observation := by
    rw [completeObservation, requireComplete_ok_iff.mpr hcomplete]
    rfl
  have hprepare : ∃ calls, prepareAction d (faultlessPort describe) actionId capability
      (buildPlan observation desired) ⟨stored, []⟩ =
        .ok (.ready ⟨observation, expectedPostState (buildPlan observation desired)⟩) ⟨stored, calls⟩ := by
    have hsame : (buildPlan observation desired).observation = observation := rfl
    simp only [prepareAction, hplan, run_bind, observeComplete, callObserve, faultlessPort, hobserve,
      Except.mapError, hobserved, run_pure, hsame, ne_eq, not_true_eq_false, if_false, callPersistRecovery,
      callAppend]
    exact ⟨_, rfl⟩
  obtain ⟨calls, hprepare⟩ := hprepare
  obtain ⟨after, hmutations⟩ := applyMutations_ok describe mutations_fields_nodup h calls
  unfold NeverStopsPartway
  simp only [executeWindowsUpdate, run_bind, hprepare, mutateThenObserve, hmutations]
  exact finishAfterMutations_phase d after

/-- The adapter takes every mutation that is planned for what the observer returns, and so the action
    does not stop between two mutations, exactly when every string that has to be changed is stored as
    the adapter writes it. -/
theorem observer_adapter_agree_iff (stored : StoredValues) (parameters : WindowsUpdateParameters)
    (hresolved : resolveDesiredState parameters = .ok desired)
    (hobserve : observeWindowsUpdatePolicy stored = .ok observation) (d : Deps)
    (describe : RegistryError → String) (actionId : ActionId) (capability : CapabilityId)
    (hcapability : capability.asStr = windowsUpdateCapability) :
    ((∀ m ∈ (buildPlan observation desired).mutations, Admissible stored observation m) ∧
      NeverStopsPartway d describe actionId capability (buildPlan observation desired) stored) ↔
    ∀ f, Readable stored desired f := by
  have haccepted := accepted_of_resolved hresolved
  rw [← admissible_iff haccepted hobserve]
  constructor
  · exact And.left
  · intro h
    exact ⟨h, neverStopsPartway d describe actionId hcapability haccepted hobserve h⟩

/-- A host on which only the version is set, with these bytes. -/
def versionStored (bytes : List UInt8) : StoredValues :=
  Function.update (fun _ => none) .productVersion (some (.sz, bytes))

/-- The observation of a host where only the version is set. -/
def versionObserved : WindowsUpdateObservation :=
  ⟨fun f => some (if f = .productVersion then .string "W" else .missing)⟩

/-- The default configuration on a host with a terminated version. -/
theorem observer_adapter_agree_iff_sample :
    (∀ m ∈ (buildPlan versionObserved {}).mutations,
      Admissible (versionStored [0x57, 0x00, 0x00, 0x00]) versionObserved m) ∧
    NeverStopsPartway referenceDeps (fun _ => "fault") ⟨⟨Vector.replicate 16 0⟩⟩
      ⟨"v3.windows-update.policy", by decide⟩ (buildPlan versionObserved {})
      (versionStored [0x57, 0x00, 0x00, 0x00]) := by
  have hobserve : observeWindowsUpdatePolicy (versionStored [0x57, 0x00, 0x00, 0x00]) = .ok versionObserved := by
    rw [observe_ok_iff]
    intro f
    refine ⟨if f = .productVersion then .string "W" else .missing, ?_, rfl⟩
    cases f <;> decide +kernel
  refine (observer_adapter_agree_iff _ {} (by decide) hobserve _ _ _ _ rfl).mpr ?_
  intro f type bytes _ hstored
  have hf : f = .productVersion := by
    by_contra hne
    rw [versionStored, Function.update_of_ne hne] at hstored
    cases hstored
  subst hf
  rw [versionStored, Function.update_self] at hstored
  cases hstored
  exact .inl ⟨"W", by unfold StorableString; decide, by decide +kernel⟩

/-- A version without a terminator is observed, and the adapter does not take its removal. -/
theorem observer_adapter_disagree :
    resolveDesiredState {} = .ok {} ∧
      observeWindowsUpdatePolicy (versionStored [0x57, 0x00]) = .ok versionObserved ∧
      ¬ ∀ m ∈ (buildPlan versionObserved {}).mutations,
        Admissible (versionStored [0x57, 0x00]) versionObserved m := by
  refine ⟨by decide, ?_, ?_⟩
  · rw [observe_ok_iff]
    intro f
    refine ⟨if f = .productVersion then .string "W" else .missing, ?_, rfl⟩
    cases f <;> decide +kernel
  · intro h
    have hm : (⟨.productVersion, .missing⟩ : WindowsUpdateMutation) ∈
        (buildPlan versionObserved {}).mutations := by decide +kernel
    obtain ⟨observed, -, -, hread⟩ := h _ hm
    have hrefused : readLeaf (fieldSpec .productVersion).kind (versionStored [0x57, 0x00] .productVersion) =
        .error invalidRegistryValue := by decide +kernel
    simp only [hrefused] at hread
    cases hread

end BaselineOps.WindowsUpdate
