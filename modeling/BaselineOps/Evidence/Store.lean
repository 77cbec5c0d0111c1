import Mathlib
import BaselineOps.Domain.Result
import BaselineOps.Lib.Hoare

/-!
# The evidence store

Model of `baselineops-engine/src/evidence.rs`. A disk maps files to their bytes; the operating system
resolves a locator to a file, and several locators may resolve to one. Everything that can fail takes
its outcome from a `WriteFaults`, and the machine keeps every disk that was there at some point,
between the file operations and within them: a crash leaves one of these.
-/

namespace BaselineOps.Engine

open BaselineOps.Domain BaselineOps.Lib

/-! ## Types -/

/-- `EvidenceError` (`evidence/error.rs`). The errors of other crates carry no data here. -/
inductive EvidenceError where
  | io
  | domain
  | json
  | platform
  | protection (reason : String)
  | invalidLimits
  | alreadyExists
  | unsafeLocator (locator : String)
  | quotaExceeded
  | invalidManifest
  | nonCanonicalManifest
  | integrityMismatch (locator : String)
  | unknownArtifact
  | persistenceRollback (persistence rollback : EvidenceError)
  | unusable

/-- `EvidenceLimits` (lines 24–31). -/
structure EvidenceLimits where
  maxFileBytes : UInt64
  maxTotalBytes : UInt64
  maxArtifacts : ℕ

/-- `EvidenceLimits::validate` (lines 39–48). -/
def EvidenceLimits.validate (limits : EvidenceLimits) : Except EvidenceError Unit :=
  failIf (limits.maxFileBytes = 0 ∨ limits.maxTotalBytes = 0 ∨ limits.maxArtifacts = 0 ∨
    limits.maxTotalBytes < limits.maxFileBytes) .invalidLimits

/-- `EvidenceWrite` (lines 73–84). -/
structure EvidenceWrite where
  locator : String
  kind : ArtifactKind
  mediaType : String
  createdAt : DateTime
  metadata : JsonMap

/-- `EvidenceManifest` (lines 89–96). -/
@[ext]
structure EvidenceManifest where
  schemaVersion : String
  artifacts : List ArtifactV3
  totalBytes : UInt64
  deriving DecidableEq

/-- `EvidenceManifest::empty` (lines 99–105). -/
def EvidenceManifest.empty : EvidenceManifest := ⟨"1.0", [], 0⟩

/-- `Serialize` of `EvidenceManifest`. -/
def EvidenceManifest.toValue (d : Deps) (manifest : EvidenceManifest) : Value := .object
  [("schema_version", .string manifest.schemaVersion),
   ("artifacts", .array (manifest.artifacts.map (ArtifactV3.toValue d))),
   ("total_bytes", .number (.posInt manifest.totalBytes))]

/-- The bytes of the manifest file. -/
def EvidenceManifest.bytes (d : Deps) (manifest : EvidenceManifest) : List UInt8 :=
  canonicalJsonBytes d (manifest.toValue d)

/-- The bytes of every file that exists. -/
abbrev Disk (K : Type) := K → Option (List UInt8)

/-- The parts of the world that the store runs on: `resolve` is the file that the operating system
    opens for a relative path, and `fromSlice` is `serde_json::from_slice::<EvidenceManifest>`. -/
structure Platform (K : Type) extends Deps where
  resolve : String → K
  fromSlice : List UInt8 → Option EvidenceManifest

/-- `MANIFEST_NAME` (line 20). -/
def manifestName : String := "evidence-manifest.v1.json"

/-- The manifest file. -/
def Platform.manifestFile {K : Type} (p : Platform K) : K := p.resolve manifestName

/-- The fields of `EvidenceStore` (lines 109–117) that change, and the disk: now, and at every point
    up to now. -/
structure Machine (K : Type) where
  manifest : EvidenceManifest
  usable : Bool
  disk : Disk K
  points : List (Disk K)

/-- Programs of the store. -/
abbrev EvidenceM (K : Type) := EStateM EvidenceError (Machine K)

/-! ## Faults -/

/-- The outcomes in `persist_manifest`. A failed replacement has left the old bytes or the new
    ones. -/
structure PersistFaults where
  verify : Except EvidenceError Unit
  write : Except EvidenceError Unit
  replaced : Bool

/-- The outcomes in `write_new_file`, and the lengths of the prefixes on disk while it writes. -/
structure FileFaults where
  create : Except EvidenceError Unit
  progress : List ℕ
  write : Except EvidenceError Unit
  sync : Except EvidenceError Unit

/-- The outcomes in `EvidenceStore::write`, and the id that `ArtifactId::new` draws. A failed removal
    has left the file or not. -/
structure WriteFaults where
  access : Except EvidenceError Unit
  parent : Except EvidenceError Unit
  file : FileFaults
  id : ArtifactId
  commit : PersistFaults
  rollback : PersistFaults
  cleanup : Except EvidenceError Unit
  removed : Bool

/-! ## File operations -/

section Operations

variable {K : Type} [DecidableEq K]

/-- The disk becomes another one. -/
def setDisk (disk : Disk K) : EvidenceM K Unit :=
  modify fun m => { m with disk := disk, points := m.points ++ [disk] }

/-- One file gets new content. -/
def setFile (file : K) (content : Option (List UInt8)) : EvidenceM K Unit := do
  let m ← get
  setDisk (Function.update m.disk file content)

/-- `atomic_write` of the manifest file. -/
def atomicWrite (file : K) (bytes : List UInt8) (faults : PersistFaults) : EvidenceM K Unit :=
  match faults.write with
  | .ok () => setFile file (some bytes)
  | .error e => do
    if faults.replaced then setFile file (some bytes)
    throw e

/-- `write_new_file` (lines 399–404). -/
def writeNewFile (file : K) (bytes : List UInt8) (faults : FileFaults) : EvidenceM K Unit := do
  let m ← get
  check (failIf ((m.disk file).isSome) .io)
  check faults.create
  setFile file (some [])
  faults.progress.forM fun n => setFile file (some (bytes.take n))
  check faults.write
  setFile file (some bytes)
  check faults.sync

/-- `fs::remove_file`. -/
def removeFile (file : K) (outcome : Except EvidenceError Unit) (removed : Bool) :
    EvidenceM K Unit :=
  match outcome with
  | .ok () => setFile file none
  | .error e => do
    if removed then setFile file none
    throw e

/-! ## Writing -/

/-- `persist_manifest` (lines 269–285). -/
def persistManifest (p : Platform K) (faults : PersistFaults) : EvidenceM K Unit := do
  check faults.verify
  let m ← get
  atomicWrite p.manifestFile (m.manifest.bytes p.toDeps) faults

/-- `verify_access` (lines 287–297). -/
def verifyAccess (access : Except EvidenceError Unit) : EvidenceM K Unit := do
  let m ← get
  check (failIf (m.usable = false) .unusable)
  check access

/-- `safe_relative_path` (lines 372–384). The components of a path are its parts between slashes;
    empty parts and all `.` but a leading one are skipped. -/
def safeRelativePath (locator : String) : Except EvidenceError String := do
  let parts := locator.toList.splitOnP (· == '/')
  failIf (locator.toList = [] ∨ '\\' ∈ locator.toList ∨ ':' ∈ locator.toList ∨
    locator.toList.head? = some '/' ∨ parts.head? = some ['.'] ∨ ['.', '.'] ∈ parts)
    (.unsafeLocator locator)
  return locator

/-- `u64::checked_add`. -/
def checkedAdd (a b : UInt64) : Option UInt64 :=
  if a.toNat + b.toNat < 2 ^ 64 then some (a + b) else none

/-- `write_quota` (lines 200–216). -/
def writeQuota (limits : EvidenceLimits) (manifest : EvidenceManifest) (bytes : List UInt8) :
    Except EvidenceError (UInt64 × UInt64) := do
  failIf (2 ^ 64 ≤ bytes.length) .quotaExceeded
  let size := UInt64.ofNat bytes.length
  failIf (limits.maxFileBytes < size ∨ limits.maxArtifacts ≤ manifest.artifacts.length)
    .quotaExceeded
  match checkedAdd manifest.totalBytes size with
  | none => .error .quotaExceeded
  | some total =>
    failIf (limits.maxTotalBytes < total) .quotaExceeded
    return (size, total)

/-- `artifact_from` (lines 405–416). -/
def artifactFrom (p : Platform K) (id : ArtifactId) (request : EvidenceWrite) (bytes : List UInt8)
    (sizeBytes : UInt64) : ArtifactV3 where
  id := id
  kind := request.kind
  mediaType := request.mediaType
  locator := request.locator
  digest := p.sha256 bytes
  sizeBytes := sizeBytes
  createdAt := request.createdAt
  metadata := request.metadata

/-- `partition_point` of a list that is sorted by locator (line 307). -/
def insertionPoint (artifacts : List ArtifactV3) (locator : String) : ℕ :=
  (artifacts.takeWhile fun candidate => decide (candidate.locator < locator)).length

/-- `commit_artifact` (lines 218–244). -/
def commitArtifact (p : Platform K) (artifact : ArtifactV3) (total : UInt64) (file : K)
    (faults : WriteFaults) : EvidenceM K Unit := do
  let m ← get
  let previousTotal := m.manifest.totalBytes
  let insertion := insertionPoint m.manifest.artifacts artifact.locator
  modify fun m => { m with manifest := { m.manifest with
    artifacts := m.manifest.artifacts.insertIdx insertion artifact, totalBytes := total } }
  match ← attempt (persistManifest p faults.commit) with
  | .ok () => return ()
  | .error error =>
    modify fun m => { m with manifest := { m.manifest with
      artifacts := m.manifest.artifacts.eraseIdx insertion, totalBytes := previousTotal } }
    match ← attempt (persistManifest p faults.rollback) with
    | .error rollback =>
      modify fun m => { m with usable := false }
      throw (.persistenceRollback error rollback)
    | .ok () =>
      match ← attempt (removeFile file faults.cleanup faults.removed) with
      | .error cleanup =>
        modify fun m => { m with usable := false }
        throw cleanup
      | .ok () => throw error

/-- `EvidenceStore::write` (lines 184–198). `ensure_safe_parent` creates directories only. -/
def EvidenceStore.write (p : Platform K) (limits : EvidenceLimits) (request : EvidenceWrite)
    (bytes : List UInt8) (faults : WriteFaults) : EvidenceM K ArtifactV3 := do
  verifyAccess faults.access
  let relative ← check (safeRelativePath request.locator)
  let m ← get
  let (sizeBytes, total) ← check (writeQuota limits m.manifest bytes)
  check faults.parent
  writeNewFile (p.resolve relative) bytes faults.file
  let artifact := artifactFrom p faults.id request bytes sizeBytes
  commitArtifact p artifact total (p.resolve relative) faults
  return artifact

/-! ## Creating and opening -/

/-- The outcomes in `EvidenceStore::create`. -/
structure CreateFaults where
  directory : Except EvidenceError Unit
  protect : Except EvidenceError Unit
  verify : Except EvidenceError Unit
  persist : PersistFaults

/-- `EvidenceStore::create` (lines 126–150). -/
def EvidenceStore.create (p : Platform K) (limits : EvidenceLimits) (faults : CreateFaults) :
    EvidenceM K Unit := do
  check limits.validate
  check faults.directory
  check faults.protect
  check faults.verify
  let m ← get
  check (failIf ((m.disk p.manifestFile).isSome) .alreadyExists)
  persistManifest p faults.persist

/-- The machine in front of `create`: the manifest is the one that `create` writes. -/
def initialMachine {K : Type} (disk : Disk K) : Machine K := ⟨EvidenceManifest.empty, true, disk, []⟩

/-- `read_manifest` (lines 320–327). -/
def readManifest (p : Platform K) (disk : Disk K) : Except EvidenceError EvidenceManifest :=
  match disk p.manifestFile with
  | none => .error .io
  | some bytes =>
    match p.fromSlice bytes with
    | none => .error .json
    | some manifest => do
      failIf (manifest.bytes p.toDeps ≠ bytes) .nonCanonicalManifest
      return manifest

/-- `read_verified_artifact` (lines 417–433). -/
def readVerifiedArtifact (p : Platform K) (disk : Disk K) (file : K) (artifact : ArtifactV3)
    (locator : String) : Except EvidenceError (List UInt8) :=
  match disk file with
  | none => .error .io
  | some bytes => do
    failIf (bytes.length ≠ artifact.sizeBytes.toNat ∨ p.sha256 bytes ≠ artifact.digest)
      (.integrityMismatch locator)
    return bytes

/-- `validate_manifest_artifact` (lines 359–370), with the locators seen so far. -/
def validateManifestArtifact (p : Platform K) (limits : EvidenceLimits) (disk : Disk K)
    (locators : List String) (artifact : ArtifactV3) : Except EvidenceError (List String) := do
  let path ← safeRelativePath artifact.locator
  failIf (artifact.locator ∈ locators ∨ limits.maxFileBytes < artifact.sizeBytes) .invalidManifest
  let _ ← readVerifiedArtifact p disk (p.resolve path) artifact artifact.locator
  return artifact.locator :: locators

/-- One round of the loop in `validate_manifest`. -/
def validateManifestRound (p : Platform K) (limits : EvidenceLimits) (disk : Disk K)
    (state : List String × UInt64) (artifact : ArtifactV3) :
    Except EvidenceError (List String × UInt64) := do
  let locators ← validateManifestArtifact p limits disk state.1 artifact
  match checkedAdd state.2 artifact.sizeBytes with
  | none => .error .quotaExceeded
  | some total => return (locators, total)

/-- `validate_manifest` (lines 329–357). -/
def validateManifest (p : Platform K) (limits : EvidenceLimits) (disk : Disk K)
    (manifest : EvidenceManifest) : Except EvidenceError Unit := do
  failIf (manifest.schemaVersion ≠ "1.0" ∨ limits.maxArtifacts < manifest.artifacts.length)
    .invalidManifest
  let (_, total) ← manifest.artifacts.foldlM (validateManifestRound p limits disk) ([], 0)
  failIf (total ≠ manifest.totalBytes ∨ limits.maxTotalBytes < total) .invalidManifest

/-- `EvidenceStore::open` (lines 158–176) on a disk: the manifest of the store. -/
def openStore (p : Platform K) (limits : EvidenceLimits) (disk : Disk K)
    (verify : Except EvidenceError Unit) : Except EvidenceError EvidenceManifest := do
  limits.validate
  verify
  let manifest ← readManifest p disk
  validateManifest p limits disk manifest
  return manifest

end Operations

end BaselineOps.Engine
