import BaselineOps.Evidence.Inventory

/-!
# Writing again after a failed write

A single fault in `EvidenceStore::write` (lines 184–244): in `write_new_file` (lines 399–404) when the file
is created, written or synced, or in `persist_manifest` when the manifest is replaced.

* `retried_iff`: a failed write can be retried, unless the fault struck while the file was written or
  synced.
-/

namespace BaselineOps.Engine

open BaselineOps.Domain BaselineOps.Lib

variable {K : Type} [DecidableEq K] {p : Platform K} {limits : EvidenceLimits} {m : Machine K}

/-! ## Faults -/

/-- A write without faults, and the id it draws. -/
def faultless (id : ArtifactId) : WriteFaults where
  access := .ok ()
  parent := .ok ()
  file := ⟨.ok (), [], .ok (), .ok ()⟩
  id := id
  commit := noPersistFaults
  rollback := noPersistFaults
  cleanup := .ok ()
  removed := false

/-- One fault. Before it fails, writing may have got any lengths to the disk; a failed replacement may
    have taken place. -/
inductive SingleFault where
  | create (error : EvidenceError)
  | write (progress : List ℕ) (error : EvidenceError)
  | sync (progress : List ℕ) (error : EvidenceError)
  | replace (replaced : Bool) (error : EvidenceError)

/-- The outcomes of a write with the fault. -/
def SingleFault.faults (id : ArtifactId) : SingleFault → WriteFaults
  | .create error => { faultless id with file := ⟨.error error, [], .ok (), .ok ()⟩ }
  | .write progress error => { faultless id with file := ⟨.ok (), progress, .error error, .ok ()⟩ }
  | .sync progress error => { faultless id with file := ⟨.ok (), progress, .ok (), .error error⟩ }
  | .replace replaced error => { faultless id with commit := ⟨.ok (), .error error, replaced⟩ }

/-- The fault strikes behind the creation of the file and before the manifest. -/
def SingleFault.InFile : SingleFault → Prop
  | .write _ _ | .sync _ _ => True
  | .create _ | .replace _ _ => False

theorem SingleFault.inFile_iff (fault : SingleFault) (id : ArtifactId) :
    fault.InFile ↔ (fault.faults id).file.write ≠ .ok () ∨ (fault.faults id).file.sync ≠ .ok () := by
  cases fault <;> simp [InFile, faults, faultless]

/-! ## Stores -/

/-- A store that was created or opened, behind any writes. -/
inductive Opened (p : Platform K) (limits : EvidenceLimits) : Machine K → Prop
  | created {disk : Disk K} {faults : CreateFaults} {m : Machine K}
    (h : EvidenceStore.create p limits faults (initialMachine disk) = .ok () m) : Opened p limits m
  | opened {disk : Disk K} {verify : Except EvidenceError Unit} {manifest : EvidenceManifest}
    (h : openStore p limits disk verify = .ok manifest) : Opened p limits (openedMachine disk manifest)
  | written {m : Machine K} (h : Opened p limits m) (call : WriteCall) :
    Opened p limits
      (stateAfter (EvidenceStore.write p limits call.request call.bytes call.faults m))

/-- A write keeps the manifest file. -/
theorem write_manifest_present (h : (m.disk p.manifestFile).isSome = true) (request : EvidenceWrite)
    (bytes : List UInt8) (faults : WriteFaults) :
    Ensures (EvidenceStore.write p limits request bytes faults) m
      (fun _ m' => (m'.disk p.manifestFile).isSome = true)
      (fun _ m' => (m'.disk p.manifestFile).isSome = true) := by
  refine (write_outcome request bytes faults).mono ?_ ?_
  · intro artifact m' hwritten
    obtain ⟨content, hdisk⟩ := hwritten.disk
    rw [hdisk, Function.update_self]
    rfl
  · rintro e m' (⟨rfl, -⟩ | ⟨-, hbegun, -⟩ | ⟨hadmissible, -, -, hkept, -⟩)
    · exact h
    · obtain ⟨content, hdisk⟩ := hbegun.content
      rw [hdisk]
      exact isSome_update h _ content
    · refine hkept _ ?_ h
      intro heq
      rw [heq, hadmissible.absent] at h
      cases h

omit [DecidableEq K] in
theorem openStore_manifest_present {disk : Disk K} {verify : Except EvidenceError Unit}
    {manifest : EvidenceManifest} (h : openStore p limits disk verify = .ok manifest) :
    (disk p.manifestFile).isSome = true := by
  unfold openStore readManifest at h
  simp only [except_bind_ok_iff] at h
  obtain ⟨_, -, _, -, read, hread, -⟩ := h
  cases hdisk : disk p.manifestFile with
  | none =>
    rw [hdisk] at hread
    cases hread
  | some bytes => rfl

theorem Opened.manifest_present (h : Opened p limits m) : (m.disk p.manifestFile).isSome = true := by
  induction h with
  | created h =>
    obtain ⟨-, hlive⟩ := (create_ensures p limits (fun _ => True) _ _).ok h
    obtain ⟨manifest, hholds⟩ := hlive.disk
    rw [hholds.stored]
    rfl
  | opened h => exact openStore_manifest_present h
  | written h call ih => exact (write_manifest_present ih call.request call.bytes call.faults).stateAfter

/-! ## Retrying -/

/-- The requested bytes are retained under the requested locator. -/
structure RetainsBytes (p : Platform K) (request : EvidenceWrite) (bytes : List UInt8)
    (artifact : ArtifactV3) (m : Machine K) : Prop where
  locator : artifact.locator = request.locator
  listed : artifact ∈ m.manifest.artifacts
  content : m.disk (p.resolve request.locator) = some bytes

/-- The write without faults succeeds, and retains the bytes. -/
def Succeeds (p : Platform K) (limits : EvidenceLimits) (m : Machine K) (request : EvidenceWrite)
    (bytes : List UInt8) : Prop :=
  ∀ id, ∃ artifact m', EvidenceStore.write p limits request bytes (faultless id) m = .ok artifact m' ∧
    RetainsBytes p request bytes artifact m'

/-- If the write fails in a store that stays usable, then the path holds what it held, and the request
    succeeds if it would have succeeded in the first place. -/
def Retried (p : Platform K) (limits : EvidenceLimits) (m : Machine K) (request : EvidenceWrite)
    (bytes : List UInt8) (faults : WriteFaults) : Prop :=
  ∀ e m', EvidenceStore.write p limits request bytes faults m = .error e m' → m'.usable = true →
    m'.disk (p.resolve request.locator) = m.disk (p.resolve request.locator) ∧
      (Succeeds p limits m request bytes → Succeeds p limits m' request bytes)

/-- A write without faults succeeds just when it is admissible. -/
theorem succeeds_iff (h : (m.disk p.manifestFile).isSome = true) {request : EvidenceWrite}
    {bytes : List UInt8} :
    Succeeds p limits m request bytes ↔ Admissible p limits m request bytes := by
  constructor
  · intro hsucceeds
    obtain ⟨artifact, m', hwrite, -⟩ := hsucceeds ⟨⟨Vector.replicate 16 0⟩⟩
    exact ((write_outcome request bytes _).ok hwrite).admissible
  · intro hadmissible id
    have houtcome := @write_outcome _ _ p limits m request bytes (faultless id)
    cases hwrite : EvidenceStore.write p limits request bytes (faultless id) m with
    | ok artifact m' =>
      have hwritten := houtcome.ok hwrite
      obtain ⟨total, hmanifest⟩ := hwritten.manifest
      obtain ⟨content, hdisk⟩ := hwritten.disk
      have hapart : p.resolve request.locator ≠ p.manifestFile := by
        intro heq
        rw [← heq, hadmissible.absent] at h
        cases h
      refine ⟨artifact, m', rfl, hwritten.locator, ?_, ?_⟩
      · rw [hmanifest]
        exact (perm_insert m.manifest artifact total).symm.subset List.mem_cons_self
      · rw [hdisk, Function.update_of_ne hapart, Function.update_self]
    | error e m' =>
      -- No fault explains the error.
      rcases houtcome.error hwrite with ⟨-, hwhy⟩ | ⟨-, -, hwhy⟩ | ⟨-, hwhy, -, -, -⟩
      · rcases hwhy hadmissible with hne | hne | hne <;> exact absurd rfl hne
      · rcases hwhy with hne | hne <;> exact absurd rfl hne
      · exact absurd ⟨rfl, rfl⟩ hwhy

/-- A fault in the file of an admissible request leaves it behind. -/
theorem not_retried {request : EvidenceWrite} {bytes : List UInt8} {fault : SingleFault}
    (hin : fault.InFile) (hadmissible : Admissible p limits m request bytes) (id : ArtifactId) :
    ¬ Retried p limits m request bytes (fault.faults id) := by
  intro hretried
  have hclean : (fault.faults id).access = .ok () ∧ (fault.faults id).parent = .ok () ∧
      (fault.faults id).file.create = .ok () ∧ (fault.faults id).commit.Clean := by
    cases fault with
    | create error => cases hin
    | write progress error => exact ⟨rfl, rfl, rfl, rfl, rfl⟩
    | sync progress error => exact ⟨rfl, rfl, rfl, rfl, rfl⟩
    | replace replaced error => cases hin
  obtain ⟨haccess, hparent, hcreate, hcommit⟩ := hclean
  have houtcome := @write_outcome _ _ p limits m request bytes (fault.faults id)
  cases hwrite : EvidenceStore.write p limits request bytes (fault.faults id) m with
  | ok artifact m' =>
    obtain ⟨hok, hsynced⟩ := (houtcome.ok hwrite).clean
    rcases (fault.inFile_iff id).mp hin with hne | hne
    · exact hne hok
    · exact hne hsynced
  | error e m' =>
    rcases houtcome.error hwrite with ⟨-, hwhy⟩ | ⟨-, hbegun, -⟩ | ⟨-, hwhy, -, -, -⟩
    · rcases hwhy hadmissible with hne | hne | hne
      · exact hne haccess
      · exact hne hparent
      · exact hne hcreate
    · -- The begun file is still there.
      obtain ⟨content, hdisk⟩ := hbegun.content
      have hsame := (hretried e m' hwrite (hbegun.usable.trans hadmissible.usable)).1
      rw [hdisk, Function.update_self, hadmissible.absent] at hsame
      cases hsame
    · exact hwhy hcommit

/-- A write that a single fault makes fail can be retried, unless the fault struck while the file of an
    admissible request was written or synced. -/
theorem retried_iff (p : Platform K) (limits : EvidenceLimits) (m : Machine K)
    (hopened : Opened p limits m) (request : EvidenceWrite) (bytes : List UInt8) (fault : SingleFault)
    (id : ArtifactId) :
    Retried p limits m request bytes (fault.faults id) ↔
      ¬ (fault.InFile ∧ Admissible p limits m request bytes) := by
  constructor
  · rintro hretried ⟨hin, hadmissible⟩
    exact not_retried hin hadmissible id hretried
  · intro hnot e m' hwrite husable
    have hstored := hopened.manifest_present
    have hstored' := (write_manifest_present hstored request bytes (fault.faults id)).error hwrite
    rw [succeeds_iff hstored, succeeds_iff hstored']
    rcases (write_outcome request bytes (fault.faults id)).error hwrite with
      ⟨rfl, -⟩ | ⟨hadmissible, -, hwhy⟩ | ⟨hadmissible, -, hmanifest, -, hremoved⟩
    · exact ⟨rfl, fun hadmissible => hadmissible⟩
    · exact absurd ⟨(fault.inFile_iff id).mpr hwhy, hadmissible⟩ hnot
    · have hgone := hremoved husable
      refine ⟨hgone.trans hadmissible.absent.symm, fun _ => ⟨husable, hadmissible.locator, ?_, hgone⟩⟩
      rw [hmanifest]
      exact hadmissible.quota

theorem opened_sampleCreated : Opened referencePlatform ⟨1, 1, 1⟩ sampleCreated :=
  @Opened.created _ _ _ _ (fun _ => none) ⟨.ok (), .ok (), .ok (), noPersistFaults⟩ _ rfl

theorem retried_sample :
    Retried referencePlatform ⟨1, 1, 1⟩ sampleCreated (sampleCall JsonMap.empty).request [0x61]
      ((SingleFault.replace true .io).faults ⟨⟨Vector.replicate 16 0⟩⟩) :=
  (retried_iff _ _ _ opened_sampleCreated _ _ (.replace true .io) _).mpr fun h => h.1

/-- Syncing the first file fails. -/
theorem retried_sync :
    ¬ ∀ limits (m : Machine String) request bytes (fault : SingleFault) id,
      Opened referencePlatform limits m →
        Retried referencePlatform limits m request bytes (fault.faults id) := by
  intro h
  have hadmissible : Admissible referencePlatform ⟨1, 1, 1⟩ sampleCreated
      (sampleCall JsonMap.empty).request [0x61] :=
    ⟨rfl, rfl, ⟨_, rfl⟩, rfl⟩
  exact @not_retried _ _ _ _ _ _ _ (.sync [] .io) trivial hadmissible ⟨⟨Vector.replicate 16 0⟩⟩
    (h _ _ _ _ _ _ opened_sampleCreated)

end BaselineOps.Engine
