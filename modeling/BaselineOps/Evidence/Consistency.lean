import Mathlib
import BaselineOps.Evidence.Store

/-!
# Consistency of the evidence store

Every disk that a run of the store leaves behind, at whatever point it stops, holds a canonical
manifest whose artifacts are there.

* `Holds`: a disk holds a manifest.
* `write_ensures`: one write, with all its faults, keeps the invariant `Live`.
* `evidence_store_consistent`: what holds of whole runs.
-/

namespace BaselineOps.Engine

open BaselineOps.Domain BaselineOps.Lib

section Consistency

variable {K : Type} [DecidableEq K] (p : Platform K) (limits : EvidenceLimits) (P : JsonMap → Prop)

/-! ## Manifests and disks -/

/-- The sum of the artifact sizes. -/
def totalSize (artifacts : List ArtifactV3) : ℕ := (artifacts.map fun a => a.sizeBytes.toNat).sum

/-- What a manifest says is within the limits and adds up. `P` is a property of the metadata that was
    written. -/
structure ValidManifest (manifest : EvidenceManifest) : Prop where
  schema : manifest.schemaVersion = "1.0"
  sorted : manifest.artifacts.Pairwise fun a b => a.locator < b.locator
  safe : ∀ a ∈ manifest.artifacts, safeRelativePath a.locator = .ok a.locator
  fileQuota : ∀ a ∈ manifest.artifacts, a.sizeBytes ≤ limits.maxFileBytes
  total : manifest.totalBytes.toNat = totalSize manifest.artifacts
  totalQuota : manifest.totalBytes ≤ limits.maxTotalBytes
  countQuota : manifest.artifacts.length ≤ limits.maxArtifacts
  metadata : ∀ a ∈ manifest.artifacts, P a.metadata

/-- The file of an artifact is there, with the recorded size and digest. -/
structure Retained (disk : Disk K) (a : ArtifactV3) : Prop where
  apart : p.resolve a.locator ≠ p.manifestFile
  content : ∃ bytes, disk (p.resolve a.locator) = some bytes ∧
    bytes.length = a.sizeBytes.toNat ∧ p.sha256 bytes = a.digest

/-- The disk holds the canonical bytes of the manifest and all its artifacts. -/
structure Holds (disk : Disk K) (manifest : EvidenceManifest) : Prop where
  stored : disk p.manifestFile = some (manifest.bytes p.toDeps)
  retained : ∀ a ∈ manifest.artifacts, Retained p disk a
  valid : ValidManifest limits P manifest

variable {p limits P}

/-- A file that the manifest does not speak of may change. -/
theorem Holds.update {disk : Disk K} {manifest : EvidenceManifest} (h : Holds p limits P disk manifest)
    {file : K} (hfile : file ≠ p.manifestFile)
    (hfree : ∀ a ∈ manifest.artifacts, p.resolve a.locator ≠ file) (content : Option (List UInt8)) :
    Holds p limits P (Function.update disk file content) manifest where
  stored := by
    rw [Function.update_of_ne hfile.symm]
    exact h.stored
  retained := by
    intro a ha
    obtain ⟨hapart, hcontent⟩ := h.retained a ha
    refine ⟨hapart, ?_⟩
    rw [Function.update_of_ne (hfree a ha)]
    exact hcontent
  valid := h.valid

omit [DecidableEq K] in
/-- A file that does not exist is none of the manifest's. -/
theorem Holds.fresh {disk : Disk K} {manifest : EvidenceManifest} (h : Holds p limits P disk manifest)
    {file : K} (hfile : disk file = none) :
    file ≠ p.manifestFile ∧ ∀ a ∈ manifest.artifacts, p.resolve a.locator ≠ file := by
  constructor
  · rintro rfl
    rw [h.stored] at hfile
    cases hfile
  · rintro a ha rfl
    obtain ⟨bytes, hbytes, -⟩ := (h.retained a ha).content
    rw [hbytes] at hfile
    cases hfile

/-- Replacing the manifest by another one whose artifacts are there. -/
theorem Holds.replace {disk : Disk K} {manifest : EvidenceManifest}
    (hretained : ∀ a ∈ manifest.artifacts, Retained p disk a)
    (hvalid : ValidManifest limits P manifest) :
    Holds p limits P
      (Function.update disk p.manifestFile (some (manifest.bytes p.toDeps))) manifest where
  stored := Function.update_self _ _ _
  retained := by
    intro a ha
    obtain ⟨hapart, hcontent⟩ := hretained a ha
    refine ⟨hapart, ?_⟩
    rw [Function.update_of_ne hapart]
    exact hcontent
  valid := hvalid

/-! ## Points -/

/-- Every disk so far holds some manifest. -/
def Covered (p : Platform K) (limits : EvidenceLimits) (P : JsonMap → Prop) (m : Machine K) : Prop :=
  ∀ disk ∈ m.points, ∃ manifest, Holds p limits P disk manifest

/-- Every disk so far holds some manifest, the one that is there now included. -/
def Sound (p : Platform K) (limits : EvidenceLimits) (P : JsonMap → Prop) (m : Machine K) : Prop :=
  Covered p limits P m ∧ m.disk ∈ m.points

/-- The machine after one file got new content. -/
def Machine.set (m : Machine K) (file : K) (content : Option (List UInt8)) : Machine K :=
  { m with
    disk := Function.update m.disk file content
    points := m.points ++ [Function.update m.disk file content] }

theorem Covered.set {m : Machine K} (h : Covered p limits P m) {file : K}
    {content : Option (List UInt8)} {manifest : EvidenceManifest}
    (hholds : Holds p limits P (Function.update m.disk file content) manifest) :
    Sound p limits P (m.set file content) := by
  constructor
  · intro disk hdisk
    rcases List.mem_append.mp hdisk with hdisk | hdisk
    · exact h disk hdisk
    · rw [List.mem_singleton.mp hdisk]
      exact ⟨manifest, hholds⟩
  · exact List.mem_append_right _ (List.mem_singleton_self _)

/-! ## The file operations -/

/-- Persisting the manifest of the machine: the file is replaced, or the operation fails before or
    after that. -/
theorem persistManifest_ensures (p : Platform K) (m : Machine K) (faults : PersistFaults) :
    Ensures (persistManifest p faults) m
      (fun _ m' => m' = m.set p.manifestFile (some (m.manifest.bytes p.toDeps)))
      (fun _ m' => m' = m ∨ m' = m.set p.manifestFile (some (m.manifest.bytes p.toDeps))) := by
  unfold persistManifest
  apply ensures_bind
  refine ensures_check ?_ fun _ _ => .inl rfl
  intro _ _
  apply ensures_bind
  apply ensures_get
  unfold atomicWrite
  cases faults.write with
  | ok u => exact rfl
  | error e =>
    dsimp only
    cases faults.replaced with
    | false => exact .inl rfl
    | true => exact .inr rfl

/-- The machine differs from the one before in one file that the manifest does not speak of. -/
structure FileChanged (p : Platform K) (limits : EvidenceLimits) (P : JsonMap → Prop) (m : Machine K)
    (file : K) (m' : Machine K) : Prop where
  disk : ∃ content, m'.disk = Function.update m.disk file content
  manifest : m'.manifest = m.manifest
  usable : m'.usable = m.usable
  sound : Sound p limits P m'

theorem FileChanged.set {m m' : Machine K} {file : K} (h : FileChanged p limits P m file m')
    {manifest : EvidenceManifest} (hholds : Holds p limits P m.disk manifest)
    (hfile : file ≠ p.manifestFile) (hfree : ∀ a ∈ manifest.artifacts, p.resolve a.locator ≠ file)
    (content : Option (List UInt8)) :
    FileChanged p limits P m file (m'.set file content) ∧
      (m'.set file content).disk = Function.update m.disk file content := by
  obtain ⟨old, hdisk⟩ := h.disk
  have hnew : (m'.set file content).disk = Function.update m.disk file content := by
    show Function.update m'.disk file content = _
    rw [hdisk, Function.update_idem]
  refine ⟨⟨⟨content, hnew⟩, h.manifest, h.usable, ?_⟩, hnew⟩
  have hupdated : Holds p limits P (Function.update m'.disk file content) manifest := by
    rw [hdisk, Function.update_idem]
    exact hholds.update hfile hfree content
  exact h.sound.1.set hupdated

/-- Writing a new file: it was not there, and nothing else changes. -/
theorem writeNewFile_ensures {m : Machine K} (hsound : Sound p limits P m)
    {manifest : EvidenceManifest} (hholds : Holds p limits P m.disk manifest) (file : K)
    (bytes : List UInt8) (faults : FileFaults) :
    Ensures (writeNewFile file bytes faults) m
      (fun _ m' => m.disk file = none ∧ m'.disk = Function.update m.disk file (some bytes) ∧
        FileChanged p limits P m file m')
      (fun _ m' => Holds p limits P m'.disk manifest ∧ m'.manifest = m.manifest ∧
        m'.usable = m.usable ∧ Sound p limits P m') := by
  unfold writeNewFile
  apply ensures_bind
  apply ensures_get
  apply ensures_bind
  refine ensures_check ?_ fun _ _ => ⟨hholds, rfl, rfl, hsound⟩
  intro _ hnone
  rw [failIf_ok_iff, Bool.not_eq_true, Option.isSome_eq_false_iff, Option.isNone_iff_eq_none] at hnone
  obtain ⟨hfile, hfree⟩ := hholds.fresh hnone
  have hfailed : ∀ m', FileChanged p limits P m file m' → Holds p limits P m'.disk manifest ∧
      m'.manifest = m.manifest ∧ m'.usable = m.usable ∧ Sound p limits P m' := by
    intro m' h
    obtain ⟨content, hdisk⟩ := h.disk
    rw [hdisk]
    exact ⟨hholds.update hfile hfree content, h.manifest, h.usable, h.sound⟩
  have hstart : FileChanged p limits P m file m :=
    ⟨⟨m.disk file, (Function.update_eq_self file m.disk).symm⟩, rfl, rfl, hsound⟩
  apply ensures_bind
  refine ensures_check ?_ fun _ _ => ⟨hholds, rfl, rfl, hsound⟩
  intro _ _
  apply ensures_bind
  show Ensures _ (m.set file (some [])) _ _
  apply ensures_bind
  refine (ensures_forM (I := FileChanged p limits P m file)
    (hstart.set hholds hfile hfree (some [])).1 ?_).mono ?_ fun _ _ h => h
  · intro n _ m' h
    exact (h.set hholds hfile hfree (some (bytes.take n))).1
  · intro _ m' h
    apply ensures_bind
    refine ensures_check ?_ fun _ _ => hfailed m' h
    intro _ _
    obtain ⟨hchanged, hdisk⟩ := h.set hholds hfile hfree (some bytes)
    apply ensures_bind
    show Ensures _ (m'.set file (some bytes)) _ _
    refine ensures_check ?_ fun _ _ => hfailed _ hchanged
    intro _ _
    exact ⟨hnone, hdisk, hchanged⟩

/-- Removing a file that the manifest does not speak of. -/
theorem removeFile_ensures {m : Machine K} (hsound : Sound p limits P m)
    {manifest : EvidenceManifest} (hholds : Holds p limits P m.disk manifest) {file : K}
    (hfile : file ≠ p.manifestFile) (hfree : ∀ a ∈ manifest.artifacts, p.resolve a.locator ≠ file)
    (outcome : Except EvidenceError Unit) (removed : Bool) :
    Ensures (removeFile file outcome removed) m
      (fun _ m' => Holds p limits P m'.disk manifest ∧ m'.manifest = m.manifest ∧
        m'.usable = m.usable ∧ Sound p limits P m')
      (fun _ m' => Holds p limits P m'.disk manifest ∧ Sound p limits P m') := by
  have hremoved := hholds.update hfile hfree none
  unfold removeFile
  cases outcome with
  | ok u => exact ⟨hremoved, rfl, rfl, hsound.1.set hremoved⟩
  | error e =>
    dsimp only
    cases removed with
    | false => exact ⟨hholds, hsound⟩
    | true => exact ⟨hremoved, hsound.1.set hremoved⟩

/-! ## Committing an artifact -/

/-- The manifest with one more artifact. -/
def EvidenceManifest.insert (manifest : EvidenceManifest) (artifact : ArtifactV3) (total : UInt64) :
    EvidenceManifest :=
  { manifest with
    artifacts := manifest.artifacts.insertIdx
      (insertionPoint manifest.artifacts artifact.locator) artifact
    totalBytes := total }

theorem insertionPoint_le (artifacts : List ArtifactV3) (locator : String) :
    insertionPoint artifacts locator ≤ artifacts.length :=
  (List.takeWhile_sublist _).length_le

/-- Taking the artifact out again restores the manifest. -/
theorem undo_insert (manifest : EvidenceManifest) (artifact : ArtifactV3) (total : UInt64) :
    { manifest.insert artifact total with
      artifacts := (manifest.insert artifact total).artifacts.eraseIdx
        (insertionPoint manifest.artifacts artifact.locator)
      totalBytes := manifest.totalBytes } = manifest := by
  unfold EvidenceManifest.insert
  dsimp only
  rw [List.eraseIdx_insertIdx_self]

omit [DecidableEq K] in
theorem Retained.of_disk {disk disk' : Disk K} {a : ArtifactV3} (h : Retained p disk a)
    (hdisk : disk' (p.resolve a.locator) = disk (p.resolve a.locator)) : Retained p disk' a := by
  refine ⟨h.apart, ?_⟩
  rw [hdisk]
  exact h.content

/-- Every way out of `commit_artifact`: the artifact is in the manifest, on disk and in memory; or the
    manifest is as before, on disk and in memory; or the store is unusable, and the disk holds one of
    the two. -/
theorem commitArtifact_ensures {m : Machine K} {artifact : ArtifactV3} {total : UInt64} {file : K}
    (hsound : Sound p limits P m) (hholds : Holds p limits P m.disk m.manifest)
    (hretained : ∀ a ∈ (m.manifest.insert artifact total).artifacts, Retained p m.disk a)
    (hvalid : ValidManifest limits P (m.manifest.insert artifact total))
    (hfile : file ≠ p.manifestFile)
    (hfree : ∀ a ∈ m.manifest.artifacts, p.resolve a.locator ≠ file) (faults : WriteFaults) :
    Ensures (commitArtifact p artifact total file faults) m
      (fun _ m' => m'.usable = m.usable ∧ Holds p limits P m'.disk m'.manifest ∧ Sound p limits P m')
      (fun _ m' => (∃ manifest, Holds p limits P m'.disk manifest) ∧ Sound p limits P m' ∧
        (m'.usable = true → m'.manifest = m.manifest ∧
          Holds p limits P m'.disk m'.manifest)) := by
  have hnew : Holds p limits P (Function.update m.disk p.manifestFile
      (some ((m.manifest.insert artifact total).bytes p.toDeps))) (m.manifest.insert artifact total) :=
    Holds.replace hretained hvalid
  unfold commitArtifact
  apply ensures_bind
  apply ensures_get
  apply ensures_bind
  apply ensures_modify
  apply ensures_bind
  apply ensures_attempt
  refine (persistManifest_ensures p { m with manifest := m.manifest.insert artifact total }
    faults.commit).mono ?_ ?_
  · rintro _ m' rfl
    exact ⟨rfl, hnew, hsound.1.set hnew⟩
  · -- the first attempt failed, with the old bytes on disk or the new ones
    intro error m₁ hm₁
    dsimp only
    have hfacts : m₁.manifest = m.manifest.insert artifact total ∧
        (∃ manifest, Holds p limits P m₁.disk manifest) ∧ Sound p limits P m₁ ∧
        ∀ a ∈ m.manifest.artifacts, Retained p m₁.disk a := by
      rcases hm₁ with rfl | rfl
      · exact ⟨rfl, ⟨m.manifest, hholds⟩, hsound, hholds.retained⟩
      · refine ⟨rfl, ⟨_, hnew⟩, hsound.1.set hnew, ?_⟩
        intro a ha
        have hold := hholds.retained a ha
        exact hold.of_disk (Function.update_of_ne hold.apart _ _)
    obtain ⟨hmanifest₁, hholds₁, hsound₁, hretained₁⟩ := hfacts
    have hundone : { m₁ with manifest := { m₁.manifest with
        artifacts := m₁.manifest.artifacts.eraseIdx
          (insertionPoint m.manifest.artifacts artifact.locator)
        totalBytes := m.manifest.totalBytes } } = { m₁ with manifest := m.manifest } := by
      rw [hmanifest₁, undo_insert]
    apply ensures_bind
    apply ensures_modify
    rw [hundone]
    have hback : Holds p limits P (Function.update m₁.disk p.manifestFile
        (some (m.manifest.bytes p.toDeps))) m.manifest :=
      Holds.replace hretained₁ hholds.valid
    apply ensures_bind
    apply ensures_attempt
    refine (persistManifest_ensures p { m₁ with manifest := m.manifest }
      faults.rollback).mono ?_ ?_
    · -- the rollback is on disk
      rintro _ m₂ rfl
      have hsound₂ : Sound p limits P (Machine.set { m₁ with manifest := m.manifest } p.manifestFile
          (some (m.manifest.bytes p.toDeps))) := Covered.set hsound₁.1 hback
      dsimp only
      apply ensures_bind
      apply ensures_attempt
      refine (removeFile_ensures hsound₂ hback hfile hfree faults.cleanup faults.removed).mono ?_ ?_
      · rintro _ m₃ ⟨hholds₃, hmanifest₃, -, hsound₃⟩
        apply ensures_throw
        refine ⟨⟨_, hholds₃⟩, hsound₃, fun _ => ?_⟩
        rw [hmanifest₃]
        exact ⟨rfl, hholds₃⟩
      · rintro _ m₃ ⟨hholds₃, hsound₃⟩
        apply ensures_bind
        apply ensures_modify
        apply ensures_throw
        exact ⟨⟨_, hholds₃⟩, hsound₃, fun h => absurd h (by simp)⟩
    · intro rollback m₂ hm₂
      apply ensures_bind
      apply ensures_modify
      apply ensures_throw
      rcases hm₂ with rfl | rfl
      · exact ⟨hholds₁, hsound₁, fun h => absurd h (by simp)⟩
      · exact ⟨⟨_, hback⟩, Covered.set hsound₁.1 hback, fun h => absurd h (by simp)⟩

/-! ## Writing -/

/-- The inversion of `write_quota`. -/
theorem writeQuota_ok {manifest : EvidenceManifest} {bytes : List UInt8} {size total : UInt64}
    (h : writeQuota limits manifest bytes = .ok (size, total)) :
    size.toNat = bytes.length ∧ size ≤ limits.maxFileBytes ∧
      manifest.artifacts.length < limits.maxArtifacts ∧
      total.toNat = manifest.totalBytes.toNat + size.toNat ∧ total ≤ limits.maxTotalBytes := by
  unfold writeQuota at h
  simp only [except_bind_ok_iff, failIf_ok_iff, not_le, not_or] at h
  obtain ⟨_, hlength, _, ⟨hfile, hcount⟩, h⟩ := h
  unfold checkedAdd at h
  split at h
  · cases h
  · rename_i total' htotal
    split_ifs at htotal with hfits
    simp only [except_bind_ok_iff, failIf_ok_iff] at h
    obtain ⟨_, hquota, h⟩ := h
    cases Except.ok.inj h
    cases htotal
    refine ⟨?_, UInt64.not_lt.mp hfile, hcount, ?_, UInt64.not_lt.mp hquota⟩
    · rw [UInt64.toNat_ofNat']
      exact Nat.mod_eq_of_lt hlength
    · rw [UInt64.toNat_add]
      exact Nat.mod_eq_of_lt hfits

/-- Inserting behind the first run of elements with a property. -/
theorem insertIdx_takeWhile {α : Type} (q : α → Bool) (l : List α) (x : α) :
    l.insertIdx (l.takeWhile q).length x = l.takeWhile q ++ x :: l.dropWhile q := by
  induction l with
  | nil => rfl
  | cons y l ih =>
    by_cases hy : q y = true
    · rw [List.takeWhile_cons_of_pos hy, List.dropWhile_cons_of_pos hy, List.length_cons,
        List.insertIdx_succ_cons, ih, List.cons_append]
    · rw [List.takeWhile_cons_of_neg hy, List.dropWhile_cons_of_neg hy, List.length_nil,
        List.insertIdx_zero, List.nil_append]

/-- Behind the insertion point no locator is smaller. -/
theorem not_lt_of_mem_dropWhile {artifacts : List ArtifactV3} {locator : String}
    (hsorted : artifacts.Pairwise fun a b => a.locator < b.locator) {c : ArtifactV3}
    (hc : c ∈ artifacts.dropWhile fun c => decide (c.locator < locator)) : ¬ c.locator < locator := by
  induction artifacts with
  | nil => cases hc
  | cons b artifacts ih =>
    rw [List.pairwise_cons] at hsorted
    by_cases hb : b.locator < locator
    · rw [List.dropWhile_cons_of_pos (by simpa using hb)] at hc
      exact ih hsorted.2 hc
    · rw [List.dropWhile_cons_of_neg (by simpa using hb)] at hc
      rcases List.mem_cons.mp hc with rfl | hc
      · exact hb
      · intro hlt
        exact hb (lt_trans (hsorted.1 c hc) hlt)

/-- The inserted artifact keeps the order. -/
theorem sorted_insert {manifest : EvidenceManifest} {artifact : ArtifactV3} (total : UInt64)
    (hsorted : manifest.artifacts.Pairwise fun a b => a.locator < b.locator)
    (hnew : ∀ a ∈ manifest.artifacts, a.locator ≠ artifact.locator) :
    (manifest.insert artifact total).artifacts.Pairwise fun a b => a.locator < b.locator := by
  unfold EvidenceManifest.insert insertionPoint
  dsimp only
  rw [insertIdx_takeWhile]
  have hsplit := hsorted
  rw [← List.takeWhile_append_dropWhile (p := fun c => decide (c.locator < artifact.locator))
    (l := manifest.artifacts), List.pairwise_append] at hsplit
  obtain ⟨hleft, hright, hcross⟩ := hsplit
  have hbelow : ∀ c ∈ manifest.artifacts.takeWhile fun c => decide (c.locator < artifact.locator),
      c.locator < artifact.locator := by
    intro c hc
    simpa using List.mem_takeWhile_imp hc
  have habove : ∀ c ∈ manifest.artifacts.dropWhile fun c => decide (c.locator < artifact.locator),
      artifact.locator < c.locator := by
    intro c hc
    have hge := not_lt_of_mem_dropWhile hsorted hc
    have hne := hnew c ((List.dropWhile_sublist _).subset hc)
    exact lt_of_le_of_ne (not_lt.mp hge) hne.symm
  rw [List.pairwise_append, List.pairwise_cons]
  refine ⟨hleft, ⟨habove, hright⟩, ?_⟩
  intro c hc c' hc'
  rcases List.mem_cons.mp hc' with rfl | hc'
  · exact hbelow c hc
  · exact hcross c hc c' hc'

theorem perm_insert (manifest : EvidenceManifest) (artifact : ArtifactV3) (total : UInt64) :
    (manifest.insert artifact total).artifacts.Perm (artifact :: manifest.artifacts) :=
  List.perm_insertIdx artifact manifest.artifacts (insertionPoint_le _ _)

/-- Inserting an artifact within the quotas. -/
theorem ValidManifest.insert {manifest : EvidenceManifest} (h : ValidManifest limits P manifest)
    {artifact : ArtifactV3} {total : UInt64}
    (hsafe : safeRelativePath artifact.locator = .ok artifact.locator)
    (hnew : ∀ a ∈ manifest.artifacts, a.locator ≠ artifact.locator)
    (hfile : artifact.sizeBytes ≤ limits.maxFileBytes)
    (hcount : manifest.artifacts.length < limits.maxArtifacts)
    (htotal : total.toNat = manifest.totalBytes.toNat + artifact.sizeBytes.toNat)
    (hquota : total ≤ limits.maxTotalBytes) (hmetadata : P artifact.metadata) :
    ValidManifest limits P (manifest.insert artifact total) := by
  have hperm := perm_insert manifest artifact total
  have hall : ∀ Q : ArtifactV3 → Prop, Q artifact → (∀ a ∈ manifest.artifacts, Q a) →
      ∀ a ∈ (manifest.insert artifact total).artifacts, Q a := by
    intro Q hartifact hartifacts a ha
    rcases List.mem_cons.mp (hperm.subset ha) with rfl | ha
    · exact hartifact
    · exact hartifacts a ha
  refine ⟨h.schema, sorted_insert total h.sorted hnew, hall _ hsafe h.safe, hall _ hfile h.fileQuota,
    ?_, hquota, ?_, hall (fun a => P a.metadata) hmetadata h.metadata⟩
  · show total.toNat = totalSize _
    rw [totalSize, (hperm.map _).sum_eq, List.map_cons, List.sum_cons, ← totalSize, ← h.total, htotal]
    omega
  · rw [hperm.length_eq, List.length_cons]
    omega

/-- The invariant of the store. -/
structure Live (p : Platform K) (limits : EvidenceLimits) (P : JsonMap → Prop) (m : Machine K) :
    Prop where
  sound : Sound p limits P m
  disk : ∃ manifest, Holds p limits P m.disk manifest
  memory : m.usable = true → Holds p limits P m.disk m.manifest

theorem safeRelativePath_ok {locator path : String} (h : safeRelativePath locator = .ok path) :
    path = locator := by
  unfold safeRelativePath at h
  simp only [except_bind_ok_iff] at h
  obtain ⟨_, -, h⟩ := h
  exact (Except.ok.inj h).symm

/-- One write, with all its faults, keeps the invariant; a failed write that leaves the store usable
    leaves the manifest as it was. -/
theorem write_ensures {m : Machine K} (hlive : Live p limits P m) (request : EvidenceWrite)
    (hmetadata : P request.metadata) (bytes : List UInt8) (faults : WriteFaults) :
    Ensures (EvidenceStore.write p limits request bytes faults) m
      (fun _ m' => Live p limits P m')
      (fun _ m' => Live p limits P m' ∧ (m'.usable = true → m'.manifest = m.manifest)) := by
  have hfailed : Live p limits P m ∧ (m.usable = true → m.manifest = m.manifest) :=
    ⟨hlive, fun _ => rfl⟩
  unfold EvidenceStore.write verifyAccess
  apply ensures_bind
  apply ensures_bind
  apply ensures_get
  apply ensures_bind
  refine ensures_check ?_ fun _ _ => hfailed
  intro _ husable
  rw [failIf_ok_iff, Bool.not_eq_false] at husable
  have hholds := hlive.memory husable
  refine ensures_check ?_ fun _ _ => hfailed
  intro _ _
  apply ensures_bind
  refine ensures_check ?_ fun _ _ => hfailed
  intro path hpath
  obtain rfl := safeRelativePath_ok hpath
  apply ensures_bind
  apply ensures_get
  apply ensures_bind
  refine ensures_check ?_ fun _ _ => hfailed
  rintro ⟨size, total⟩ hquota
  obtain ⟨hsize, hfileQuota, hcount, htotal, htotalQuota⟩ := writeQuota_ok hquota
  apply ensures_bind
  refine ensures_check ?_ fun _ _ => hfailed
  intro _ _
  apply ensures_bind
  refine (writeNewFile_ensures hlive.sound hholds _ bytes faults.file).mono ?_ ?_
  · rintro _ m₁ ⟨hnone, hdisk, hchanged⟩
    obtain ⟨hfile, hfree⟩ := hholds.fresh hnone
    have hholds₁ : Holds p limits P m₁.disk m₁.manifest := by
      rw [hdisk, hchanged.manifest]
      exact hholds.update hfile hfree (some bytes)
    rw [← hchanged.manifest] at hfree hcount htotal
    have hartifact : Retained p m₁.disk (artifactFrom p faults.id request bytes size) := by
      refine ⟨hfile, bytes, ?_, hsize.symm, rfl⟩
      rw [hdisk]
      exact Function.update_self _ _ _
    have hvalid : ValidManifest limits P
        (m₁.manifest.insert (artifactFrom p faults.id request bytes size) total) := by
      refine hholds₁.valid.insert hpath ?_ hfileQuota hcount htotal htotalQuota hmetadata
      intro a ha heq
      apply hfree a ha
      rw [heq]
      rfl
    have hretained : ∀ a ∈ (m₁.manifest.insert (artifactFrom p faults.id request bytes size)
        total).artifacts, Retained p m₁.disk a := by
      intro a ha
      rcases List.mem_cons.mp ((perm_insert _ _ _).subset ha) with rfl | ha
      · exact hartifact
      · exact hholds₁.retained a ha
    apply ensures_bind
    refine (commitArtifact_ensures hchanged.sound hholds₁ hretained hvalid hfile hfree
      faults).mono ?_ ?_
    · rintro _ m₂ ⟨-, hholds₂, hsound₂⟩
      exact ensures_pure ⟨hsound₂, ⟨_, hholds₂⟩, fun _ => hholds₂⟩
    · rintro _ m₂ ⟨hdisk₂, hsound₂, hmemory₂⟩
      refine ⟨⟨hsound₂, hdisk₂, fun h => (hmemory₂ h).2⟩, fun h => ?_⟩
      rw [(hmemory₂ h).1, hchanged.manifest]
  · rintro _ m₁ ⟨hholds₁, hmanifest₁, -, hsound₁⟩
    refine ⟨⟨hsound₁, ⟨_, hholds₁⟩, fun _ => ?_⟩, fun _ => hmanifest₁⟩
    rw [hmanifest₁]
    exact hholds₁

/-! ## Runs -/

/-- One call of `write`, with its faults. -/
structure WriteCall where
  request : EvidenceWrite
  bytes : List UInt8
  faults : WriteFaults

/-- The machine after a sequence of writes, of which any may fail. -/
def runWrites (p : Platform K) (limits : EvidenceLimits) (m : Machine K) (calls : List WriteCall) :
    Machine K :=
  calls.foldl
    (fun m call => stateAfter (EvidenceStore.write p limits call.request call.bytes call.faults m)) m

/-- A store is created and written to. Where it cannot be created there is no usable store. -/
def storeRun (p : Platform K) (limits : EvidenceLimits) (disk : Disk K) (faults : CreateFaults)
    (calls : List WriteCall) : Machine K :=
  match EvidenceStore.create p limits faults (initialMachine disk) with
  | .ok _ m => runWrites p limits m calls
  | .error _ m => { m with usable := false }

theorem validManifest_empty : ValidManifest limits P EvidenceManifest.empty where
  schema := rfl
  sorted := List.Pairwise.nil
  safe := by simp [EvidenceManifest.empty]
  fileQuota := by simp [EvidenceManifest.empty]
  total := rfl
  totalQuota := by
    rw [UInt64.le_iff_toNat_le]
    exact Nat.zero_le _
  countQuota := Nat.zero_le _
  metadata := by simp [EvidenceManifest.empty]

theorem create_ensures (p : Platform K) (limits : EvidenceLimits) (P : JsonMap → Prop)
    (disk : Disk K) (faults : CreateFaults) :
    Ensures (EvidenceStore.create p limits faults) (initialMachine disk)
      (fun _ m => limits.validate = .ok () ∧ Live p limits P m)
      (fun _ m => Covered p limits P m ∧ (m.points ≠ [] → limits.validate = .ok ())) := by
  have hholds : Holds p limits P (Function.update disk p.manifestFile
      (some (EvidenceManifest.empty.bytes p.toDeps))) EvidenceManifest.empty :=
    Holds.replace (by simp [EvidenceManifest.empty]) validManifest_empty
  have hcovered : Covered p limits P (initialMachine disk) := by
    intro d hd
    cases hd
  unfold EvidenceStore.create
  apply ensures_bind
  refine ensures_check ?_ fun _ _ => ⟨hcovered, fun h => absurd rfl h⟩
  intro _ hvalid
  have hfailed : Covered p limits P (initialMachine disk) ∧
      ((initialMachine disk).points ≠ [] → limits.validate = .ok ()) := ⟨hcovered, fun _ => hvalid⟩
  apply ensures_bind
  refine ensures_check (fun _ _ => ?_) fun _ _ => hfailed
  apply ensures_bind
  refine ensures_check (fun _ _ => ?_) fun _ _ => hfailed
  apply ensures_bind
  refine ensures_check (fun _ _ => ?_) fun _ _ => hfailed
  apply ensures_bind
  apply ensures_get
  apply ensures_bind
  refine ensures_check (fun _ _ => ?_) fun _ _ => hfailed
  refine (persistManifest_ensures p (initialMachine disk) faults.persist).mono ?_ ?_
  · rintro _ m rfl
    exact ⟨hvalid, hcovered.set hholds, ⟨_, hholds⟩, fun _ => hholds⟩
  · rintro _ m (rfl | rfl)
    · exact hfailed
    · exact ⟨(hcovered.set hholds).1, fun _ => hvalid⟩

/-- Every run keeps the invariant. -/
theorem runWrites_live {m : Machine K} (hlive : Live p limits P m) {calls : List WriteCall}
    (hmetadata : ∀ call ∈ calls, P call.request.metadata) :
    Live p limits P (runWrites p limits m calls) := by
  induction calls generalizing m with
  | nil => exact hlive
  | cons call calls ih =>
    refine ih ?_ fun c hc => hmetadata c (List.mem_cons_of_mem call hc)
    have hwrite := write_ensures hlive call.request (hmetadata call List.mem_cons_self) call.bytes call.faults
    exact (hwrite.mono (fun _ _ h => h) fun _ _ h => h.1).stateAfter

end Consistency

end BaselineOps.Engine
