import Mathlib
import BaselineOps.Domain.Parse
import BaselineOps.Evidence.Consistency

/-!
# Reopening the evidence store

A disk that holds a manifest can be opened if the manifest can be read back. The store writes
whatever metadata it is given; `serde_json` refuses a manifest in which containers nest more than 127
deep, so metadata may nest 124 deep.

* `Openable.openStore`: opening yields the manifest on disk.
* `evidence_store_consistent`: what holds of every run, at every point.
* `evidence_store_nesting`: a run that leaves a store which cannot be opened.
-/

namespace BaselineOps.Engine

open BaselineOps.Domain BaselineOps.Lib

section Reopen

variable {K : Type} {p : Platform K} {limits : EvidenceLimits} {P : JsonMap → Prop}

/-! ## Opening -/

theorem checkedAdd_of_lt {a b : UInt64} (h : a.toNat + b.toNat < 2 ^ 64) :
    checkedAdd a b = some (a + b) ∧ (a + b).toNat = a.toNat + b.toNat := by
  refine ⟨if_pos h, ?_⟩
  rw [UInt64.toNat_add]
  exact Nat.mod_eq_of_lt h

theorem readVerifiedArtifact_ok {disk : Disk K} {a : ArtifactV3} (h : Retained p disk a) :
    ∃ bytes, readVerifiedArtifact p disk (p.resolve a.locator) a a.locator = .ok bytes := by
  obtain ⟨bytes, hdisk, hlength, hdigest⟩ := h.content
  refine ⟨bytes, ?_⟩
  rw [readVerifiedArtifact, hdisk]
  simp only [except_bind_ok_iff, failIf_ok_iff]
  exact ⟨(), by simp [hlength, hdigest], rfl⟩

/-- The loop of `validate_manifest`, from any list of locators seen and any total. -/
theorem validateManifestRounds_ok {disk : Disk K} {artifacts : List ArtifactV3}
    (seen : List String) (total : UInt64) (hdistinct : artifacts.Pairwise fun a b => a.locator ≠ b.locator)
    (hseen : ∀ a ∈ artifacts, a.locator ∉ seen)
    (hsafe : ∀ a ∈ artifacts, safeRelativePath a.locator = .ok a.locator)
    (hquota : ∀ a ∈ artifacts, a.sizeBytes ≤ limits.maxFileBytes)
    (hretained : ∀ a ∈ artifacts, Retained p disk a)
    (hfits : total.toNat + totalSize artifacts < 2 ^ 64) :
    ∃ seen' total', artifacts.foldlM (validateManifestRound p limits disk) (seen, total) =
      .ok (seen', total') ∧ total'.toNat = total.toNat + totalSize artifacts := by
  induction artifacts generalizing seen total with
  | nil => exact ⟨seen, total, rfl, rfl⟩
  | cons a artifacts ih =>
    rw [List.pairwise_cons] at hdistinct
    rw [totalSize, List.map_cons, List.sum_cons, ← totalSize] at hfits ⊢
    have hmem : a ∈ a :: artifacts := List.mem_cons_self
    obtain ⟨bytes, hbytes⟩ := readVerifiedArtifact_ok (hretained a hmem)
    obtain ⟨hadd, htotal⟩ := checkedAdd_of_lt (a := total) (b := a.sizeBytes) (by omega)
    have hartifact : validateManifestArtifact p limits disk seen a = .ok (a.locator :: seen) := by
      unfold validateManifestArtifact
      simp only [except_bind_ok_iff, failIf_ok_iff]
      refine ⟨a.locator, hsafe a hmem, (), ?_, bytes, hbytes, rfl⟩
      rintro (h | h)
      · exact hseen a hmem h
      · exact absurd (hquota a hmem) (UInt64.not_le.mpr h)
    have hround : validateManifestRound p limits disk (seen, total) a =
        .ok (a.locator :: seen, total + a.sizeBytes) := by
      unfold validateManifestRound
      simp only [except_bind_ok_iff]
      refine ⟨_, hartifact, ?_⟩
      rw [hadd]
      rfl
    obtain ⟨seen', total', hfold, htotal'⟩ := ih (a.locator :: seen) (total + a.sizeBytes) hdistinct.2
      (by
        intro b hb hin
        rcases List.mem_cons.mp hin with heq | hin
        · exact hdistinct.1 b hb heq.symm
        · exact hseen b (List.mem_cons_of_mem a hb) hin)
      (fun b hb => hsafe b (List.mem_cons_of_mem a hb))
      (fun b hb => hquota b (List.mem_cons_of_mem a hb))
      (fun b hb => hretained b (List.mem_cons_of_mem a hb)) (by omega)
    refine ⟨seen', total', ?_, by omega⟩
    rw [List.foldlM_cons, hround]
    exact hfold

/-- What a manifest on disk must say to be opened. -/
structure Openable (p : Platform K) (limits : EvidenceLimits) (disk : Disk K)
    (manifest : EvidenceManifest) : Prop where
  stored : disk p.manifestFile = some (manifest.bytes p.toDeps)
  schema : manifest.schemaVersion = "1.0"
  distinct : manifest.artifacts.Pairwise fun a b => a.locator ≠ b.locator
  safe : ∀ a ∈ manifest.artifacts, safeRelativePath a.locator = .ok a.locator
  fileQuota : ∀ a ∈ manifest.artifacts, a.sizeBytes ≤ limits.maxFileBytes
  retained : ∀ a ∈ manifest.artifacts, Retained p disk a
  total : manifest.totalBytes.toNat = totalSize manifest.artifacts
  totalQuota : manifest.totalBytes ≤ limits.maxTotalBytes
  countQuota : manifest.artifacts.length ≤ limits.maxArtifacts

theorem Openable.openStore {disk : Disk K} {manifest : EvidenceManifest}
    (h : Openable p limits disk manifest) (hlimits : limits.validate = .ok ())
    (hread : p.fromSlice (manifest.bytes p.toDeps) = some manifest) :
    openStore p limits disk (.ok ()) = .ok manifest := by
  have hreadManifest : readManifest p disk = .ok manifest := by
    rw [readManifest, h.stored]
    dsimp only
    rw [hread]
    simp only [except_bind_ok_iff, failIf_ok_iff, ne_eq, not_not]
    exact ⟨(), trivial, rfl⟩
  obtain ⟨seen, total, hfold, htotal⟩ := validateManifestRounds_ok [] 0 h.distinct
    (fun _ _ h => nomatch h) h.safe h.fileQuota h.retained (by
      rw [← h.total]
      exact lt_of_eq_of_lt (Nat.zero_add _) manifest.totalBytes.toNat_lt)
  have hsum : total = manifest.totalBytes := by
    rw [← UInt64.toNat_inj, htotal, h.total]
    exact Nat.zero_add _
  have hvalidate : validateManifest p limits disk manifest = .ok () := by
    unfold validateManifest
    simp only [except_bind_ok_iff, failIf_ok_iff]
    refine ⟨(), ?_, (seen, total), hfold, ?_⟩
    · rintro (hne | hlt)
      · exact hne h.schema
      · exact absurd h.countQuota (Nat.not_le.mpr hlt)
    · rintro (hne | hlt)
      · exact hne hsum
      · rw [hsum] at hlt
        exact absurd h.totalQuota (UInt64.not_le.mpr hlt)
  unfold Engine.openStore
  simp only [except_bind_ok_iff]
  exact ⟨(), hlimits, (), trivial, manifest, hreadManifest, (), hvalidate, rfl⟩

theorem Holds.openable {disk : Disk K} {manifest : EvidenceManifest}
    (h : Holds p limits P disk manifest) : Openable p limits disk manifest where
  stored := h.stored
  schema := h.valid.schema
  distinct := h.valid.sorted.imp ne_of_lt
  safe := h.valid.safe
  fileQuota := h.valid.fileQuota
  retained := h.retained
  total := h.valid.total
  totalQuota := h.valid.totalQuota
  countQuota := h.valid.countQuota

/-- A manifest that cannot be read cannot be opened. -/
theorem openStore_refused {disk : Disk K} {bytes : List UInt8} (hlimits : limits.validate = .ok ())
    (hstored : disk p.manifestFile = some bytes) (hread : p.fromSlice bytes = none) :
    openStore p limits disk (.ok ()) = .error .json := by
  have hmanifest : readManifest p disk = .error .json := by
    rw [readManifest, hstored]
    dsimp only
    rw [hread]
  rw [openStore, hlimits, hmanifest]
  rfl

/-! ## Runs -/

/-- Metadata that `serde_json` reads back: maps by ascending key, as it keeps them, floats that are
    read from their text, and at most 124 nested containers, for the manifest puts three around
    them. -/
structure Readable (d : Deps) (readFloat : List UInt8 → Option FiniteFloat) (metadata : JsonMap) :
    Prop where
  sorted : (Value.object metadata.entries).KeysSorted
  floats : (Value.object metadata.entries).Exact d readFloat
  nesting : (Value.object metadata.entries).nesting ≤ 124

/-- `serde_json` reads the bytes of a manifest back, if its metadata is readable. -/
def ReadsManifests (p : Platform K) (readFloat : List UInt8 → Option FiniteFloat) : Prop :=
  ∀ manifest : EvidenceManifest,
    (∀ a ∈ manifest.artifacts, Readable p.toDeps readFloat a.metadata) →
    p.fromSlice (manifest.bytes p.toDeps) = some manifest

variable [DecidableEq K]

/-- The invariant in every run. -/
theorem storeRun_ensures (p : Platform K) (limits : EvidenceLimits) (P : JsonMap → Prop)
    (disk : Disk K) (faults : CreateFaults) {calls : List WriteCall}
    (hmetadata : ∀ call ∈ calls, P call.request.metadata) :
    Covered p limits P (storeRun p limits disk faults calls) ∧
    ((storeRun p limits disk faults calls).points ≠ [] → limits.validate = .ok ()) ∧
    ((storeRun p limits disk faults calls).usable = true →
      Live p limits P (storeRun p limits disk faults calls)) := by
  have hcreate := create_ensures p limits P disk faults
  unfold storeRun
  cases h : EvidenceStore.create p limits faults (initialMachine disk) with
  | ok u m =>
    obtain ⟨hlimits, hlive⟩ := hcreate.ok h
    have hrun := runWrites_live hlive hmetadata
    exact ⟨hrun.sound.1, fun _ => hlimits, fun _ => hrun⟩
  | error e m =>
    obtain ⟨hcovered, hlimits⟩ := hcreate.error h
    exact ⟨hcovered, hlimits, fun h => absurd h (by simp)⟩

/-- Consistency of the store in every run, with every step failing or not:
    at every point the manifest on disk is canonical, within the limits, and lists files that are
    there; a usable store has the manifest of the disk in memory; a failed write that leaves the store
    usable leaves the manifest as it was, in memory and on disk; and opening yields the manifest on
    disk at every point, if the metadata that was written can be read back. -/
theorem evidence_store_consistent (p : Platform K) (limits : EvidenceLimits) (disk₀ : Disk K)
    (faults : CreateFaults) (calls : List WriteCall) :
    let m := storeRun p limits disk₀ faults calls
    (∀ disk ∈ m.points, ∃ manifest, Holds p limits (fun _ => True) disk manifest) ∧
    (m.usable = true → m.disk ∈ m.points ∧ Holds p limits (fun _ => True) m.disk m.manifest) ∧
    (∀ request bytes writeFaults e m',
      EvidenceStore.write p limits request bytes writeFaults m = .error e m' → m'.usable = true →
      m'.manifest = m.manifest ∧ m'.disk p.manifestFile = m.disk p.manifestFile) ∧
    (∀ readFloat, ReadsManifests p readFloat →
      (∀ call ∈ calls, Readable p.toDeps readFloat call.request.metadata) →
      ∀ disk ∈ m.points, ∃ manifest, disk p.manifestFile = some (manifest.bytes p.toDeps) ∧
        openStore p limits disk (.ok ()) = .ok manifest) := by
  intro m
  obtain ⟨hcovered, -, hlive⟩ := storeRun_ensures p limits (fun _ => True) disk₀ faults
    (fun call (_ : call ∈ calls) => trivial)
  refine ⟨hcovered, fun h => ⟨(hlive h).sound.2, (hlive h).memory h⟩, ?_, ?_⟩
  · intro request bytes writeFaults e m' hwrite husable'
    cases husable : m.usable with
    | false =>
      -- an unusable store refuses every write
      have hrefused : EvidenceStore.write p limits request bytes writeFaults m =
          .error .unusable m := by
        have haccess : (verifyAccess writeFaults.access : EvidenceM K Unit) m =
            .error .unusable m := by
          unfold verifyAccess
          rw [run_bind, run_get]
          dsimp only
          rw [husable]
          rfl
        rw [EvidenceStore.write, run_bind, haccess]
      rw [hrefused] at hwrite
      cases hwrite
      rw [husable] at husable'
      cases husable'
    | true =>
      have hensures := write_ensures (hlive husable) request trivial bytes writeFaults
      obtain ⟨hlive', hmanifest⟩ := hensures.error hwrite
      refine ⟨hmanifest husable', ?_⟩
      rw [(hlive'.memory husable').stored, ((hlive husable).memory husable).stored,
        hmanifest husable']
  · intro readFloat hreads hreadable disk hdisk
    obtain ⟨hcovered, hlimits, -⟩ := storeRun_ensures p limits (Readable p.toDeps readFloat)
      disk₀ faults hreadable
    obtain ⟨manifest, hholds⟩ := hcovered disk hdisk
    exact ⟨manifest, hholds.stored, hholds.openable.openStore
      (hlimits (List.ne_nil_of_mem hdisk)) (hreads manifest hholds.valid.metadata)⟩

end Reopen

/-! ## Reference instance -/

theorem distinctKeys_of_keysSorted {v : Value} (h : v.KeysSorted) : v.DistinctKeys := by
  refine Value.all_mono ?_ h
  intro _ v hv
  cases v with
  | null | bool b | number n | string s | array items => exact trivial
  | object members =>
    apply List.pairwise_map.mpr
    exact hv.imp fun hlt => ne_of_lt hlt

/-- The JSON of an artifact determines it. -/
theorem ArtifactV3.toValue_inj_of_sorted {d : Deps} (hd : d.LawfulText) {a b : ArtifactV3}
    (ha : (Value.object a.metadata.entries).KeysSorted)
    (hb : (Value.object b.metadata.entries).KeysSorted)
    (h : sortKeys (a.toValue d) = sortKeys (b.toValue d)) : a = b := by
  have ha' := sortKeys_of_keysSorted ha
  have hb' := sortKeys_of_keysSorted hb
  have hfields : a.metadata.entries = b.metadata.entries ∧ a.id.uuid.toText = b.id.uuid.toText ∧
      a.kind.name = b.kind.name ∧ a.mediaType = b.mediaType ∧ a.locator = b.locator ∧
      a.digest.toHex = b.digest.toHex ∧ a.sizeBytes = b.sizeBytes ∧
      d.rfc3339 a.createdAt = d.rfc3339 b.createdAt := by
    -- the metadata stays folded, so that `simp` sorts the other members only
    rw [ArtifactV3.toValue, ArtifactV3.toValue] at h
    generalize hma : Value.object a.metadata.entries = ma at h ha'
    generalize hmb : Value.object b.metadata.entries = mb at h hb'
    cases hea : a.metadata.entries.isEmpty <;> cases heb : b.metadata.entries.isEmpty <;>
      simp [hea, heb, sortKeys, sortKeysMembers, sortKeysMember, sortByKey, List.insertionSort,
        List.orderedInsert] at h
    · obtain ⟨hcreated, hdigest, hid, hkind, hlocator, hmedia, hmetadata, hsize⟩ := h
      rw [ha', hb', ← hma, ← hmb, Value.object.injEq] at hmetadata
      exact ⟨hmetadata, hid, hkind, hmedia, hlocator, hdigest, hsize, hcreated⟩
    · obtain ⟨hcreated, hdigest, hid, hkind, hlocator, hmedia, hsize⟩ := h
      rw [List.isEmpty_iff] at hea heb
      exact ⟨hea.trans heb.symm, hid, hkind, hmedia, hlocator, hdigest, hsize, hcreated⟩
  obtain ⟨hentries, hid, hkind, hmedia, hlocator, hdigest, hsize, hcreated⟩ := hfields
  exact ArtifactV3.ext (ArtifactId.ext (Uuid.toText_injective hid))
    (ArtifactKind.name_injective hkind) hmedia hlocator (Sha256Digest.toHex_injective hdigest) hsize
    (hd.rfc3339_inj hcreated) (JsonMap.ext hentries)

/-- The maps in the metadata of every artifact are by ascending key. -/
def EvidenceManifest.Sorted (manifest : EvidenceManifest) : Prop :=
  ∀ a ∈ manifest.artifacts, (Value.object a.metadata.entries).KeysSorted

theorem EvidenceManifest.toValue_inj {d : Deps} (hd : d.LawfulText) {x y : EvidenceManifest}
    (hx : x.Sorted) (hy : y.Sorted) (h : sortKeys (x.toValue d) = sortKeys (y.toValue d)) : x = y := by
  simp [EvidenceManifest.toValue, sortKeys, sortKeysMembers, sortKeysMember, sortByKey,
    List.insertionSort, List.orderedInsert, sortKeysItems_eq_map, -List.map_inj_left] at h
  obtain ⟨hartifacts, hschema, htotal⟩ := h
  refine EvidenceManifest.ext hschema ?_ htotal
  exact map_inj_on
    (fun a ha b hb => ArtifactV3.toValue_inj_of_sorted hd (hx a ha) (hy b hb)) hartifacts

/-- What holds of a manifest's own members and of all metadata holds of the whole manifest. -/
theorem EvidenceManifest.all_toValue {d : Deps} {Q : Value → Prop} {manifest : EvidenceManifest}
    (hstring : ∀ s, Q (.string s)) (hint : ∀ n, Q (.number (.posInt n)))
    (harray : ∀ items, Q (.array items))
    (hobject : ∀ members : List (String × Value), (members.map Prod.fst).Nodup → Q (.object members))
    (hmetadata : ∀ a ∈ manifest.artifacts,
      (Value.object a.metadata.entries).All (fun _ => Q) 0) :
    (manifest.toValue d).All (fun _ => Q) 0 := by
  refine Value.all_object_zero.mpr ⟨hobject _ (by simp), ?_⟩
  simp only [List.forall_mem_cons, List.not_mem_nil, false_implies, implies_true, and_true]
  refine ⟨hstring _, Value.all_array_zero.mpr ⟨harray _, ?_⟩, hint _⟩
  intro v hv
  obtain ⟨a, ha, rfl⟩ := List.mem_map.mp hv
  refine Value.all_object_zero.mpr ⟨hobject _ ?_, ?_⟩
  · split <;> simp
  · intro m hm
    rw [List.mem_append] at hm
    rcases hm with hm | hm
    · simp only [List.mem_cons, List.not_mem_nil, or_false] at hm
      rcases hm with rfl | rfl | rfl | rfl | rfl | rfl | rfl
      · exact hstring _
      · exact hstring _
      · exact hstring _
      · exact hstring _
      · exact hstring _
      · exact hint _
      · exact hstring _
    · split at hm
      · cases hm
      · rw [List.mem_singleton.mp hm]
        exact hmetadata a ha

/-- The manifest puts three containers around the metadata. -/
theorem EvidenceManifest.nesting_toValue_le {d : Deps} {manifest : EvidenceManifest} {n : ℕ} :
    (manifest.toValue d).nesting ≤ n + 3 ↔
      ∀ a ∈ manifest.artifacts, a.metadata.entries.isEmpty = false →
        (Value.object a.metadata.entries).nesting ≤ n := by
  have hartifact : ∀ a : ArtifactV3, (a.toValue d).nesting ≤ n + 1 ↔
      (a.metadata.entries.isEmpty = false → (Value.object a.metadata.entries).nesting ≤ n) := by
    intro a
    rw [ArtifactV3.toValue, Value.nesting_object_le]
    cases a.metadata.entries.isEmpty <;> simp [Value.nesting]
  rw [EvidenceManifest.toValue, Value.nesting_object_le]
  simp only [List.forall_mem_cons, List.not_mem_nil, false_implies, implies_true, and_true]
  rw [Value.nesting_array_le, List.forall_mem_map]
  simp [Value.nesting, hartifact]

open Classical in
/-- A platform whose locators are its files, and whose reader is `fromSlice` without floats and the
    typed decoder of a manifest. -/
noncomputable def referencePlatform : Platform String where
  toDeps := referenceDeps
  resolve := id
  fromSlice bytes := do
    let value ← fromSlice (fun _ => none) bytes
    if h : ∃ x : EvidenceManifest, x.Sorted ∧ sortKeys (x.toValue referenceDeps) = value then
      some h.choose
    else none

theorem referencePlatform_fromSlice {manifest : EvidenceManifest} (hsorted : manifest.Sorted)
    (hfloats : ∀ a ∈ manifest.artifacts,
      (Value.object a.metadata.entries).Exact referenceDeps fun _ => none) :
    referencePlatform.fromSlice (manifest.bytes referenceDeps) =
      if (manifest.toValue referenceDeps).nesting ≤ 127 then some manifest else none := by
  have hdistinct : (manifest.toValue referenceDeps).DistinctKeys :=
    EvidenceManifest.all_toValue (fun _ => trivial) (fun _ => trivial) (fun _ => trivial)
      (fun _ h => h) fun a ha => distinctKeys_of_keysSorted (hsorted a ha)
  have hexact : (manifest.toValue referenceDeps).Exact referenceDeps fun _ => none :=
    EvidenceManifest.all_toValue (fun _ => trivial) (fun _ _ h => nomatch h) (fun _ => trivial)
      (fun _ _ => trivial) hfloats
  have hparse := fromSlice_canonicalJsonBytes referenceDeps_lawful hdistinct hexact
  simp only [referencePlatform, EvidenceManifest.bytes]
  rw [hparse]
  split_ifs with hnesting
  · have h : ∃ x : EvidenceManifest, x.Sorted ∧
        sortKeys (x.toValue referenceDeps) = sortKeys (manifest.toValue referenceDeps) :=
      ⟨manifest, hsorted, rfl⟩
    have heq : h.choose = manifest :=
      EvidenceManifest.toValue_inj referenceDeps_lawful h.choose_spec.1 hsorted h.choose_spec.2
    simp only [Option.bind_eq_bind, Option.bind_some]
    exact (dif_pos h).trans (congrArg some heq)
  · rfl

theorem referencePlatform_reads : ReadsManifests referencePlatform fun _ => none := by
  intro manifest hreadable
  show referencePlatform.fromSlice (manifest.bytes referenceDeps) = some manifest
  rw [referencePlatform_fromSlice (fun a ha => (hreadable a ha).sorted)
    fun a ha => (hreadable a ha).floats, if_pos]
  exact EvidenceManifest.nesting_toValue_le.mpr fun a ha _ => (hreadable a ha).nesting

/-! ## A run without faults -/

/-- A persist in which nothing fails. -/
def noPersistFaults : PersistFaults := ⟨.ok (), .ok (), false⟩

/-- A write of the file `a` without faults. -/
def sampleCall (metadata : JsonMap) : WriteCall where
  request := ⟨"a", .evidence, "text/plain", epoch, metadata⟩
  bytes := [0x61]
  faults := {
    access := .ok ()
    parent := .ok ()
    file := ⟨.ok (), [], .ok (), .ok ()⟩
    id := ⟨⟨Vector.replicate 16 0⟩⟩
    commit := noPersistFaults
    rollback := noPersistFaults
    cleanup := .ok ()
    removed := false }

/-- The artifact that the call retains. -/
noncomputable def sampleArtifact (metadata : JsonMap) : ArtifactV3 :=
  artifactFrom referencePlatform (sampleCall metadata).faults.id (sampleCall metadata).request [0x61] 1

/-- A store with room for one artifact, created and written once. -/
noncomputable def sampleRun (metadata : JsonMap) : Machine String :=
  storeRun referencePlatform ⟨1, 1, 1⟩ (fun _ => none) ⟨.ok (), .ok (), .ok (), noPersistFaults⟩
    [sampleCall metadata]

/-- The machine behind `create`. -/
noncomputable def sampleCreated : Machine String :=
  (initialMachine fun _ => none).set referencePlatform.manifestFile
    (some (EvidenceManifest.empty.bytes referenceDeps))

theorem sampleRun_manifest (metadata : JsonMap) : (sampleRun metadata).usable = true ∧
    (sampleRun metadata).manifest = ⟨"1.0", [sampleArtifact metadata], 1⟩ := by
  have hrun : sampleRun metadata = stateAfter (EvidenceStore.write referencePlatform ⟨1, 1, 1⟩
      (sampleCall metadata).request [0x61] (sampleCall metadata).faults sampleCreated) := rfl
  have haccess : (verifyAccess (sampleCall metadata).faults.access : EvidenceM String Unit)
      sampleCreated = .ok () sampleCreated := rfl
  have hpath : (check (safeRelativePath (sampleCall metadata).request.locator) : EvidenceM String _)
      sampleCreated = .ok "a" sampleCreated := by
    have hlocator : safeRelativePath "a" = .ok "a" := rfl
    show check (safeRelativePath "a") sampleCreated = _
    rw [hlocator]
    rfl
  have hquota : (check (writeQuota ⟨1, 1, 1⟩ sampleCreated.manifest [0x61]) : EvidenceM String _)
      sampleCreated = .ok (1, 1) sampleCreated := rfl
  have hparent : (check (sampleCall metadata).faults.parent : EvidenceM String Unit) sampleCreated =
      .ok () sampleCreated := rfl
  have hfile : writeNewFile (referencePlatform.resolve "a") [0x61] (sampleCall metadata).faults.file
      sampleCreated = .ok () ((sampleCreated.set "a" (some [])).set "a" (some [0x61])) := rfl
  have hcommit : ∀ (a : ArtifactV3) (m : Machine String), m.manifest = EvidenceManifest.empty →
      commitArtifact referencePlatform a 1 "a" (sampleCall metadata).faults m =
        .ok () (Machine.set { m with manifest := ⟨"1.0", [a], 1⟩ } referencePlatform.manifestFile
          (some (EvidenceManifest.bytes referenceDeps ⟨"1.0", [a], 1⟩))) := by
    rintro a ⟨manifest, usable, disk, points⟩ rfl
    rfl
  have hwrite : commitArtifact referencePlatform (artifactFrom referencePlatform
      (sampleCall metadata).faults.id (sampleCall metadata).request [0x61] 1) 1
      (referencePlatform.resolve "a") (sampleCall metadata).faults
      ((sampleCreated.set "a" (some [])).set "a" (some [0x61])) = _ :=
    hcommit (sampleArtifact metadata) _ rfl
  rw [hrun, EvidenceStore.write, run_bind, haccess]
  dsimp only
  rw [run_bind, hpath]
  dsimp only
  rw [run_bind, run_get]
  dsimp only
  rw [run_bind, hquota]
  dsimp only
  rw [run_bind, hparent]
  dsimp only
  rw [run_bind, hfile]
  dsimp only
  rw [run_bind, hwrite]
  exact ⟨rfl, rfl⟩

/-- Metadata without nesting: the store can be opened again. -/
theorem evidence_store_consistent_sample :
    (sampleRun JsonMap.empty).disk ∈ (sampleRun JsonMap.empty).points ∧
    ∃ manifest, openStore referencePlatform ⟨1, 1, 1⟩ (sampleRun JsonMap.empty).disk (.ok ()) =
      .ok manifest := by
  obtain ⟨-, hmemory, -, hopen⟩ := evidence_store_consistent referencePlatform ⟨1, 1, 1⟩
    (fun _ => none) ⟨.ok (), .ok (), .ok (), noPersistFaults⟩ [sampleCall JsonMap.empty]
  have hdisk := (hmemory (sampleRun_manifest JsonMap.empty).1).1
  obtain ⟨manifest, -, h⟩ := hopen (fun _ => none) referencePlatform_reads (by
    intro call hcall
    rw [List.mem_singleton.mp hcall]
    exact ⟨Value.all_object_zero.mpr ⟨List.Pairwise.nil, fun _ h => nomatch h⟩,
      Value.all_object_zero.mpr ⟨trivial, fun _ h => nomatch h⟩, by decide⟩) _ hdisk
  exact ⟨hdisk, manifest, h⟩

/-- 124 arrays in an object. -/
def deepMetadata : JsonMap where
  entries := [("k", nestedArrays 123)]
  sorted := List.pairwise_singleton _ _

/-- Metadata that nests deeper than the manifest can be read back: the write succeeds, the store stays
    usable, and opening fails. -/
theorem evidence_store_nesting :
    (sampleRun deepMetadata).usable = true ∧
    (sampleRun deepMetadata).disk ∈ (sampleRun deepMetadata).points ∧
    openStore referencePlatform ⟨1, 1, 1⟩ (sampleRun deepMetadata).disk (.ok ()) = .error .json := by
  obtain ⟨husable, hmanifest⟩ := sampleRun_manifest deepMetadata
  have hlive : Live referencePlatform ⟨1, 1, 1⟩ (fun _ => True) (sampleRun deepMetadata) :=
    (storeRun_ensures referencePlatform ⟨1, 1, 1⟩ (fun _ => True) (fun _ => none) _
      (fun _ _ => trivial)).2.2 husable
  have hstored := (hlive.memory husable).stored
  rw [hmanifest] at hstored
  have hmetadata : ∀ {Q : Value → Prop}, (∀ items, Q (.array items)) → Q (.object deepMetadata.entries) →
      (Value.object deepMetadata.entries).All (fun _ => Q) 0 := by
    intro Q harray hobject
    refine Value.all_object_zero.mpr ⟨hobject, ?_⟩
    intro m hm
    rw [List.mem_singleton.mp hm]
    exact all_nestedArrays harray 123
  have hread : referencePlatform.fromSlice
      (EvidenceManifest.bytes referenceDeps ⟨"1.0", [sampleArtifact deepMetadata], 1⟩) = none := by
    rw [referencePlatform_fromSlice, if_neg]
    · rw [EvidenceManifest.nesting_toValue_le]
      intro h
      have hle := h _ (List.mem_singleton_self _) rfl
      rw [show (sampleArtifact deepMetadata).metadata.entries = [("k", nestedArrays 123)] from rfl,
        Value.nesting_object_le] at hle
      have hinner := hle _ (List.mem_singleton_self _)
      rw [nesting_nestedArrays] at hinner
      omega
    · intro a ha
      rw [List.mem_singleton.mp ha]
      exact hmetadata (fun _ => trivial) (List.pairwise_singleton _ _)
    · intro a ha
      rw [List.mem_singleton.mp ha]
      exact hmetadata (fun _ => trivial) trivial
  exact ⟨husable, hlive.sound.2, openStore_refused rfl hstored hread⟩

end BaselineOps.Engine
