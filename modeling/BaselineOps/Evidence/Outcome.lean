import BaselineOps.Evidence.Consistency

/-!
# What one write can do

Every way in which `EvidenceStore::write` (lines 184–244 of `evidence.rs`) ends, on any machine and with
any faults.

* `write_outcome`: a result adds the artifact and its file; an error leaves the machine as it was, or it
  leaves a file that was begun, or it comes from the manifest.
-/

namespace BaselineOps.Engine

open BaselineOps.Domain BaselineOps.Lib

variable {K : Type} [DecidableEq K] {p : Platform K} {limits : EvidenceLimits} {m : Machine K}

/-! ## The parts -/

theorem ne_ok_of_error {ε α : Type} {x : Except ε α} {e : ε} {a : α} (h : x = .error e) : x ≠ .ok a := by
  rw [h]
  nofun

/-- The manifest can be persisted. -/
def PersistFaults.Clean (faults : PersistFaults) : Prop :=
  faults.verify = .ok () ∧ faults.write = .ok ()

/-- The machine has a file that it did not have. -/
structure Begun (m : Machine K) (file : K) (m' : Machine K) : Prop where
  absent : m.disk file = none
  content : ∃ content, m'.disk = Function.update m.disk file (some content)
  manifest : m'.manifest = m.manifest
  usable : m'.usable = m.usable

theorem Begun.set {m' : Machine K} {file : K} (h : Begun m file m') (bytes : List UInt8) :
    Begun m file (m'.set file (some bytes)) ∧
      (m'.set file (some bytes)).disk = Function.update m.disk file (some bytes) := by
  obtain ⟨old, hdisk⟩ := h.content
  have hnew : (m'.set file (some bytes)).disk = Function.update m.disk file (some bytes) := by
    show Function.update m'.disk file (some bytes) = _
    rw [hdisk, Function.update_idem]
  exact ⟨⟨h.absent, ⟨bytes, hnew⟩, h.manifest, h.usable⟩, hnew⟩

/-- `write_new_file`: nothing happens, or the file is begun. -/
theorem writeNewFile_outcome (file : K) (bytes : List UInt8) (faults : FileFaults) :
    Ensures (writeNewFile file bytes faults) m
      (fun _ m' => Begun m file m' ∧ m'.disk = Function.update m.disk file (some bytes) ∧
        faults.write = .ok () ∧ faults.sync = .ok ())
      (fun _ m' => (m' = m ∧ (m.disk file = none → faults.create ≠ .ok ())) ∨
        (Begun m file m' ∧ (faults.write ≠ .ok () ∨ faults.sync ≠ .ok ()))) := by
  unfold writeNewFile
  apply ensures_bind
  apply ensures_get
  apply ensures_bind
  refine ensures_check ?_ ?_
  · intro _ hnone
    rw [failIf_ok_iff, Bool.not_eq_true, Option.isSome_eq_false_iff,
      Option.isNone_iff_eq_none] at hnone
    apply ensures_bind
    refine ensures_check ?_ fun e he => .inl ⟨rfl, fun _ => ne_ok_of_error he⟩
    intro _ _
    have hbegun : Begun m file (m.set file (some [])) :=
      ⟨hnone, ⟨[], rfl⟩, rfl, rfl⟩
    apply ensures_bind
    show Ensures _ (m.set file (some [])) _ _
    apply ensures_bind
    refine (ensures_forM (I := Begun m file) hbegun ?_).mono ?_ fun _ _ h => h
    · intro n _ m' h
      exact (h.set (bytes.take n)).1
    · intro _ m' h
      apply ensures_bind
      refine ensures_check ?_ fun e he => .inr ⟨h, .inl (ne_ok_of_error he)⟩
      intro _ hwrite
      obtain ⟨hbegun', hdisk⟩ := h.set bytes
      apply ensures_bind
      show Ensures _ (m'.set file (some bytes)) _ _
      refine ensures_check ?_ fun e he => .inr ⟨hbegun', .inr (ne_ok_of_error he)⟩
      intro _ hsync
      exact ⟨hbegun', hdisk, hwrite, hsync⟩
  · intro e he
    refine .inl ⟨rfl, fun hnone => ?_⟩
    rw [hnone] at he
    cases he

theorem persistManifest_outcome (faults : PersistFaults) :
    Ensures (persistManifest p faults) m
      (fun _ m' => m' = m.set p.manifestFile (some (m.manifest.bytes p.toDeps)))
      (fun _ m' => ¬ faults.Clean ∧
        (m' = m ∨ m' = m.set p.manifestFile (some (m.manifest.bytes p.toDeps)))) := by
  unfold persistManifest
  apply ensures_bind
  refine ensures_check ?_ fun e he => ⟨fun h => ne_ok_of_error he h.1, .inl rfl⟩
  intro _ _
  apply ensures_bind
  apply ensures_get
  unfold atomicWrite
  cases hwrite : faults.write with
  | ok u => exact rfl
  | error e =>
    have hfails : ¬ faults.Clean := by
      rintro ⟨-, h⟩
      rw [hwrite] at h
      cases h
    dsimp only
    cases faults.replaced with
    | false => exact ⟨hfails, .inl rfl⟩
    | true => exact ⟨hfails, .inr rfl⟩

/-- All files but one are still there. -/
def KeepsOthers (file : K) (disk disk' : Disk K) : Prop :=
  ∀ other, other ≠ file → (disk other).isSome = true → (disk' other).isSome = true

omit [DecidableEq K] in
theorem KeepsOthers.trans {file : K} {disk disk' disk'' : Disk K} (h : KeepsOthers file disk disk')
    (h' : KeepsOthers file disk' disk'') : KeepsOthers file disk disk'' :=
  fun other hother hsome => h' other hother (h other hother hsome)

theorem keepsOthers_self (file : K) (disk : Disk K) (content : Option (List UInt8)) :
    KeepsOthers file disk (Function.update disk file content) := by
  intro other hother hsome
  rwa [Function.update_of_ne hother]

/-- Writing a file takes none away. -/
theorem isSome_update {disk : Disk K} {other : K} (h : (disk other).isSome = true) (file : K)
    (bytes : List UInt8) : (Function.update disk file (some bytes) other).isSome = true := by
  by_cases hother : other = file
  · rw [hother, Function.update_self]
    rfl
  · rwa [Function.update_of_ne hother]

theorem keepsOthers_some (file other : K) (disk : Disk K) (bytes : List UInt8) :
    KeepsOthers file disk (Function.update disk other (some bytes)) :=
  fun _ _ hsome => isSome_update hsome other bytes

/-- Persisting a manifest on the way to an error. -/
theorem keepsOthers_persisted {m m' : Machine K} {bytes : List UInt8} (file : K)
    (h : m' = m ∨ m' = m.set p.manifestFile (some bytes)) : KeepsOthers file m.disk m'.disk := by
  rcases h with rfl | rfl
  · exact fun _ _ hsome => hsome
  · exact keepsOthers_some file p.manifestFile m.disk bytes

/-- `commit_artifact`: an error takes the artifact out again, and a store that is still usable has removed
    the file. -/
theorem commitArtifact_outcome (artifact : ArtifactV3) (total : UInt64) {file : K}
    (faults : WriteFaults) :
    Ensures (commitArtifact p artifact total file faults) m
      (fun _ m' => m'.manifest = m.manifest.insert artifact total ∧
        ∃ bytes, m'.disk = Function.update m.disk p.manifestFile (some bytes))
      (fun _ m' => ¬ faults.commit.Clean ∧ m'.manifest = m.manifest ∧
        KeepsOthers file m.disk m'.disk ∧ (m'.usable = true → m'.disk file = none)) := by
  unfold commitArtifact
  apply ensures_bind
  apply ensures_get
  apply ensures_bind
  apply ensures_modify
  apply ensures_bind
  apply ensures_attempt
  refine (persistManifest_outcome (m := { m with manifest := m.manifest.insert artifact total })
    faults.commit).mono ?_ ?_
  · rintro _ m' rfl
    exact ⟨rfl, _, rfl⟩
  · rintro error m₁ ⟨hfails, hm₁⟩
    have hkept₁ : KeepsOthers file m.disk m₁.disk :=
      keepsOthers_persisted (m := { m with manifest := m.manifest.insert artifact total }) file hm₁
    have hmanifest₁ : m₁.manifest = m.manifest.insert artifact total := by
      rcases hm₁ with rfl | rfl <;> rfl
    have hundone : { m₁ with manifest := { m₁.manifest with
        artifacts := m₁.manifest.artifacts.eraseIdx
          (insertionPoint m.manifest.artifacts artifact.locator)
        totalBytes := m.manifest.totalBytes } } = { m₁ with manifest := m.manifest } := by
      rw [hmanifest₁, undo_insert]
    apply ensures_bind
    apply ensures_modify
    rw [hundone]
    apply ensures_bind
    apply ensures_attempt
    refine (persistManifest_outcome (m := { m₁ with manifest := m.manifest })
      faults.rollback).mono ?_ ?_
    · -- the old manifest is on disk again, and the file is to go
      rintro _ m₂ rfl
      have hkept₂ := hkept₁.trans (keepsOthers_some file p.manifestFile m₁.disk
        (m.manifest.bytes p.toDeps))
      dsimp only
      apply ensures_bind
      apply ensures_attempt
      unfold removeFile
      cases faults.cleanup with
      | ok u =>
        refine ⟨hfails, rfl, hkept₂.trans (keepsOthers_self file _ none), fun _ => ?_⟩
        exact Function.update_self _ _ _
      | error cleanup =>
        dsimp only
        cases faults.removed with
        | false => exact ⟨hfails, rfl, hkept₂, nofun⟩
        | true => exact ⟨hfails, rfl, hkept₂.trans (keepsOthers_self file _ none), nofun⟩
    · rintro rollback m₂ ⟨-, hm₂⟩
      apply ensures_bind
      apply ensures_modify
      apply ensures_throw
      have hkept₂ : KeepsOthers file m₁.disk m₂.disk :=
        keepsOthers_persisted (m := { m₁ with manifest := m.manifest }) file hm₂
      have hmanifest₂ : m₂.manifest = m.manifest := by
        rcases hm₂ with rfl | rfl <;> rfl
      exact ⟨hfails, hmanifest₂, hkept₁.trans hkept₂, nofun⟩

/-! ## The whole write -/

/-- What `write` asks of the machine and the request before it creates the file. -/
structure Admissible (p : Platform K) (limits : EvidenceLimits) (m : Machine K)
    (request : EvidenceWrite) (bytes : List UInt8) : Prop where
  usable : m.usable = true
  locator : safeRelativePath request.locator = .ok request.locator
  quota : ∃ sizes, writeQuota limits m.manifest bytes = .ok sizes
  absent : m.disk (p.resolve request.locator) = none

/-- The outcomes of a write that fails. -/
inductive Failed (p : Platform K) (limits : EvidenceLimits) (m : Machine K) (request : EvidenceWrite)
    (bytes : List UInt8) (faults : WriteFaults) (m' : Machine K) : Prop
  /-- Nothing was done. -/
  | refused (same : m' = m) (why : Admissible p limits m request bytes →
      faults.access ≠ .ok () ∨ faults.parent ≠ .ok () ∨ faults.file.create ≠ .ok ())
  /-- The file was begun. -/
  | begun (admissible : Admissible p limits m request bytes)
      (begun : Begun m (p.resolve request.locator) m')
      (why : faults.file.write ≠ .ok () ∨ faults.file.sync ≠ .ok ())
  /-- The manifest was not persisted. -/
  | uncommitted (admissible : Admissible p limits m request bytes) (why : ¬ faults.commit.Clean)
      (manifest : m'.manifest = m.manifest)
      (kept : KeepsOthers (p.resolve request.locator) m.disk m'.disk)
      (removed : m'.usable = true → m'.disk (p.resolve request.locator) = none)

/-- What a write that succeeds has done. -/
structure Written (p : Platform K) (limits : EvidenceLimits) (m : Machine K) (request : EvidenceWrite)
    (bytes : List UInt8) (faults : WriteFaults) (artifact : ArtifactV3) (m' : Machine K) : Prop where
  admissible : Admissible p limits m request bytes
  locator : artifact.locator = request.locator
  manifest : ∃ total, m'.manifest = m.manifest.insert artifact total
  disk : ∃ content, m'.disk = Function.update
    (Function.update m.disk (p.resolve request.locator) (some bytes)) p.manifestFile (some content)
  clean : faults.file.write = .ok () ∧ faults.file.sync = .ok ()

theorem write_outcome (request : EvidenceWrite) (bytes : List UInt8) (faults : WriteFaults) :
    Ensures (EvidenceStore.write p limits request bytes faults) m
      (fun artifact m' => Written p limits m request bytes faults artifact m')
      (fun _ m' => Failed p limits m request bytes faults m') := by
  unfold EvidenceStore.write verifyAccess
  apply ensures_bind
  apply ensures_bind
  apply ensures_get
  apply ensures_bind
  refine ensures_check ?_ ?_
  swap
  · intro e he
    refine .refused rfl fun hadmissible => ?_
    rw [hadmissible.usable] at he
    cases he
  intro _ husable
  rw [failIf_ok_iff, Bool.not_eq_false] at husable
  refine ensures_check ?_ fun e he => .refused rfl fun _ => .inl (ne_ok_of_error he)
  intro _ _
  apply ensures_bind
  refine ensures_check ?_ ?_
  swap
  · intro e he
    refine .refused rfl fun hadmissible => ?_
    rw [hadmissible.locator] at he
    cases he
  intro path hpath
  obtain rfl := safeRelativePath_ok hpath
  apply ensures_bind
  apply ensures_get
  apply ensures_bind
  refine ensures_check ?_ ?_
  swap
  · intro e he
    refine .refused rfl fun hadmissible => ?_
    obtain ⟨sizes, hsizes⟩ := hadmissible.quota
    rw [hsizes] at he
    cases he
  rintro ⟨size, total⟩ hquota
  apply ensures_bind
  refine ensures_check ?_ fun e he => .refused rfl fun _ => .inr (.inl (ne_ok_of_error he))
  intro _ _
  apply ensures_bind
  refine (writeNewFile_outcome (p.resolve request.locator) bytes faults.file).mono ?_ ?_
  · rintro _ m₁ ⟨hbegun, hdisk, hclean⟩
    have hadmissible : Admissible p limits m request bytes := ⟨husable, hpath, ⟨_, hquota⟩, hbegun.absent⟩
    apply ensures_bind
    refine (commitArtifact_outcome (artifactFrom p faults.id request bytes size) total faults).mono ?_ ?_
    · rintro _ m₂ ⟨hmanifest, content, hdisk₂⟩
      rw [hdisk] at hdisk₂
      rw [hbegun.manifest] at hmanifest
      exact ⟨hadmissible, rfl, ⟨total, hmanifest⟩, ⟨content, hdisk₂⟩, hclean⟩
    · rintro e m₂ ⟨hfails, hmanifest, hkept, hremoved⟩
      rw [hdisk] at hkept
      exact .uncommitted hadmissible hfails (hmanifest.trans hbegun.manifest)
        ((keepsOthers_self _ m.disk _).trans hkept) hremoved
  · rintro e m₁ (⟨rfl, hcreate⟩ | ⟨hbegun, hwhy⟩)
    · exact .refused rfl fun hadmissible => .inr (.inr (hcreate hadmissible.absent))
    · exact .begun ⟨husable, hpath, ⟨_, hquota⟩, hbegun.absent⟩ hbegun hwhy

end BaselineOps.Engine
