import Mathlib
import BaselineOps.Lib.FileTree
import BaselineOps.Lib.Hoare
import BaselineOps.Lib.OsPath
import BaselineOps.SafePath.Resolve

/-!
# Extraction of an archive

Model of `extract_zip_safely` (`crates/baselineops-windows/src/archive.rs`) and of `archive/extract.rs`.
The archive reader is what it yields: for each index an error or an entry, with any name, declared
size, mode and reads. A file operation may fail at any time: `fault` gives the failures by the number
of the operation, and how many bytes a failing write has written. The disk is recorded after every
change, with the files that the extraction has created.

A path below the destination is a list of names, and the file system finds a name by its key: on a
file system without letter case, names with one key are one entry. `str::to_lowercase` is a parameter.
A string and a vector have fewer than `2 ^ 63` elements, so the counters of names and files do not
saturate.
-/

namespace BaselineOps.Archive

open BaselineOps.Lib BaselineOps.Lib.OsPath BaselineOps.Lib.FileTree BaselineOps.SafePath

/-! ## Types -/

/-- `PlatformError`: the cases of this module. -/
inductive ArchiveError where
  | rejected (reason : String)
  | io (error : IoError)

/-- `ArchivePolicy` (`archive.rs`, lines 9–20). -/
structure ArchivePolicy where
  maxFiles : ℕ
  maxFileBytes : ℕ
  maxTotalBytes : ℕ
  maxDepth : ℕ

/-- What is read of a `ZipFile`: `reads` are the results of reading it to the end, or up to a
    failure. -/
structure Entry where
  name : String
  isDir : Bool
  size : ℕ
  unixMode : Option UInt32
  reads : List (List UInt8)
  failure : Option IoError

/-- The bytes of a sequence of reads: a read of no bytes is its end. -/
def streamOf (reads : List (List UInt8)) : List UInt8 := (reads.takeWhile (· ≠ [])).flatten

/-- The stream of an entry. -/
def Entry.stream (entry : Entry) : List UInt8 := streamOf entry.reads

/-- The results of `by_index`, in order. -/
abbrev Slots := List (Except String Entry)

/-- `ArchiveValidation` (`extract.rs`, lines 56–61). -/
structure ArchiveValidation where
  policy : ArchivePolicy
  totalBytes : ℕ
  fileCount : ℕ
  normalizedNames : List (List Char)

/-- The disk: its tree, and the files that the extraction has created, with their content. -/
structure Disk where
  tree : NodeTree OsStr
  files : List (List OsStr × List UInt8)

/-- The state of an extraction: the disk now and after every change, the number of file operations so
    far, and the variables of `entries`. -/
structure Extraction where
  disk : Disk
  moments : List Disk
  operations : ℕ
  validation : ArchiveValidation
  extracted : List OsStr

/-- Before the extraction. -/
def Extraction.start (tree : NodeTree OsStr) : Extraction :=
  ⟨⟨tree, []⟩, [], 0, ⟨⟨0, 0, 0, 0⟩, 0, 0, []⟩, []⟩

/-- Programs of the extraction. -/
abbrev ExtractM := EStateM ArchiveError Extraction

/-! ## Names -/

local instance lawfulBEqChars : LawfulBEq (List Char) := List.instLawfulBEq

/-- The stem of a component (lines 217–222). -/
def stem (component : List Char) : List Char :=
  (component.takeWhile (· ≠ '.')).map Char.toUpper

/-- `reserved` (lines 223–226). -/
def isReserved (stem : List Char) : Bool :=
  stem ∈ ["CON".toList, "PRN".toList, "AUX".toList, "NUL".toList] ||
    ((stem.map Char.utf8Size).sum = 4 && ("COM".toList.isPrefixOf stem || "LPT".toList.isPrefixOf stem) &&
      stem[3]?.any fun c => '1' ≤ c && c ≤ '9')

/-- `validate_windows_component` (lines 211–232). -/
def validateWindowsComponent (component : List Char) : Except ArchiveError Unit := do
  failIf (component.getLast? = some ' ' ∨ component.getLast? = some '.')
    (.rejected "archive member has a Windows-ambiguous suffix")
  failIf (isReserved (stem component))
    (.rejected "archive member uses a reserved Windows device name")

/-- `reject_invalid_name` (lines 181–188). -/
def rejectInvalidName (name : String) : Except ArchiveError Unit :=
  failIf (name.toList = [] ∨ '\x00' ∈ name.toList ∨ ':' ∈ name.toList)
    (.rejected "archive member has an invalid or alternate-stream name")

section Names

variable (platform : Platform)

/-- The loop of `normalized_components` (lines 190–209). -/
def normalizedComponentsFrom : OsStr → ℕ → List Located → Except ArchiveError (OsStr × ℕ)
  | clean, depth, [] => .ok (clean, depth)
  | clean, depth, located :: rest =>
    match located.component with
    | .normal part => do
      validateWindowsComponent (toStringLossy part)
      normalizedComponentsFrom (push platform clean part) (depth + 1) rest
    | .curDir => normalizedComponentsFrom clean depth rest
    | .parentDir | .rootDir | .pathPrefix _ =>
      .error (.rejected "archive member attempts path traversal")

/-- `normalized_components`. -/
def normalizedComponents (name : String) : Except ArchiveError (OsStr × ℕ) :=
  normalizedComponentsFrom platform [] 0 (components platform (ofText name))

/-- `validate_entry_name` (lines 170–179). -/
def validateEntryName (name : String) (maxDepth : ℕ) : Except ArchiveError OsStr := do
  rejectInvalidName name
  let cleaned ← normalizedComponents platform name
  failIf (cleaned.1 = [] ∨ maxDepth < cleaned.2)
    (.rejected "archive member has an empty or over-deep path")
  pure cleaned.1

end Names

/-! ## `ArchiveValidation` -/

/-- `is_link_or_special` (lines 234–240). -/
def isLinkOrSpecial : Option UInt32 → Bool
  | none => false
  | some mode =>
    let fileType := mode &&& 0o170000
    fileType ≠ 0 && fileType ≠ 0o100000 && fileType ≠ 0o040000

/-- `relative.display()`. -/
def display (relative : OsStr) : String := String.ofList (toStringLossy relative)

/-- `ArchiveValidation::new` (lines 64–71). -/
def ArchiveValidation.new (policy : ArchivePolicy) : ArchiveValidation := ⟨policy, 0, 0, []⟩

/-- `enforce_file_quotas` (lines 108–117), with `reject_file_count`, `reject_member_size` and
    `reject_total_size` (lines 120–146). -/
def enforceFileQuotas (validation : ArchiveValidation) (size : ℕ) (relative : OsStr) :
    Except ArchiveError ArchiveValidation := do
  let policy := validation.policy
  let fileCount := validation.fileCount + 1
  failIf (policy.maxFiles < fileCount) (.rejected "archive contains too many files")
  failIf (policy.maxFileBytes < size)
    (.rejected ("archive member exceeds the per-file quota: " ++ display relative))
  failIf (2 ^ 64 ≤ validation.totalBytes + size) (.rejected "archive size overflow")
  let totalBytes := validation.totalBytes + size
  failIf (policy.maxTotalBytes < totalBytes)
    (.rejected "archive exceeds the total uncompressed quota")
  pure { validation with fileCount := fileCount, totalBytes := totalBytes }

section Validation

variable (platform : Platform) (lower : List Char → List Char)

/-- The name under which duplicates are found (line 94). -/
def normalizedName (relative : OsStr) : List Char :=
  lower ((toStringLossy relative).map fun c => if c = '\\' then '/' else c)

/-- `reject_duplicate_or_special` (lines 89–106). -/
def rejectDuplicateOrSpecial (validation : ArchiveValidation) (entry : Entry) (relative : OsStr) :
    Except ArchiveError ArchiveValidation := do
  let normalized := normalizedName lower relative
  failIf (normalized ∈ validation.normalizedNames)
    (.rejected "archive has duplicate or case-colliding paths")
  failIf (isLinkOrSpecial entry.unixMode) (.rejected "archive contains a link or special file")
  pure { validation with normalizedNames := normalized :: validation.normalizedNames }

/-- `entry_path` (lines 77–87). -/
def entryPath (validation : ArchiveValidation) (entry : Entry) :
    Except ArchiveError (ArchiveValidation × OsStr) := do
  let relative ← validateEntryName platform entry.name validation.policy.maxDepth
  let validation ← rejectDuplicateOrSpecial lower validation entry relative
  if entry.isDir then pure (validation, relative)
  else do
    let validation ← enforceFileQuotas validation entry.size relative
    pure (validation, relative)

end Validation

/-! ## The disk -/

/-- The error of a path that leads to no directory. -/
def walkIo (platform : Platform) : WalkError → IoError
  | .notFound => ⟨true, "No such file or directory"⟩
  | .notADirectory => ⟨platform = .windows, "Not a directory"⟩
  | .loop => ⟨false, "Too many levels of symbolic links"⟩

/-- The error of an operation that makes a new entry, for an entry that exists. -/
def alreadyExists : IoError := ⟨false, "File exists"⟩

namespace Disk

variable (platform : Platform)

/-- A new node with a name in the directory that a path leads to. -/
def addNode (disk : Disk) (base above : List OsStr) (name : OsStr) (node : Node OsStr)
    (hnode : ∀ target, node ≠ .link target) : Except IoError (List OsStr × NodeTree OsStr) :=
  match disk.tree.walk base above with
  | .error error => .error (walkIo platform error)
  | .ok location =>
    if hdirectory : disk.tree.node location = some .directory then
      if habsent : disk.tree.node (location ++ [name]) = none then
        .ok (location ++ [name], disk.tree.add location name node hdirectory habsent hnode)
      else .error alreadyExists
    else .error (walkIo platform .notADirectory)

/-- `mkdir`. -/
def makeDirectory (disk : Disk) (base above : List OsStr) (name : OsStr) : Except IoError Disk :=
  (disk.addNode platform base above name .directory (by simp)).map fun added =>
    { disk with tree := added.2 }

/-- Opening with `create_new`. -/
def createNew (disk : Disk) (base above : List OsStr) (name : OsStr) :
    Except IoError (List OsStr × Disk) :=
  (disk.addNode platform base above name (.file []) (by simp)).map fun added =>
    (added.1, ⟨added.2, disk.files ++ [(added.1, [])]⟩)

/-- Writing at the end of a file. -/
def append (disk : Disk) (location : List OsStr) (bytes : List UInt8) : Disk :=
  match h : disk.tree.node location with
  | some (.file content) =>
    ⟨disk.tree.setContent location (content ++ bytes) ⟨content, h⟩,
      disk.files.map fun file => if file.1 = location then (location, content ++ bytes) else file⟩
  | _ => disk

/-- `Path::is_dir`. -/
def isDirectory (disk : Disk) (base names : List OsStr) : Bool := (disk.tree.walk base names).isOk

/-- `fs::symlink_metadata`: the node itself, the links in front of it followed. -/
def symlinkMetadata (disk : Disk) (base names : List OsStr) : Except IoError (Node OsStr) :=
  match names.getLast? with
  | none => .ok .directory
  | some name =>
    match disk.tree.walk base names.dropLast with
    | .error error => .error (walkIo platform error)
    | .ok location =>
      match disk.tree.node (location ++ [name]) with
      | none => .error (walkIo platform .notFound)
      | some node => .ok node

end Disk

/-! ## File operations -/

section Operations

variable (platform : Platform) (fault : ℕ → Option (ℕ × IoError))

/-- The next operation, and its failure. -/
def nextFault : ExtractM (Option (ℕ × IoError)) := fun state =>
  .ok (fault state.operations) { state with operations := state.operations + 1 }

/-- An operation without an effect. -/
def operation : ExtractM Unit := do
  match ← nextFault fault with
  | some (_, error) => throw (.io error)
  | none => pure ()

/-- The disk becomes another one. -/
def setDisk (disk : Disk) : ExtractM Unit :=
  modify fun state => { state with disk := disk, moments := state.moments ++ [disk] }

/-- `?` on an `io::Result`. -/
def orIo {α : Type} (result : Except IoError α) : ExtractM α := check (result.mapError .io)

/-- `mkdir`. -/
def makeDirectory (base above : List OsStr) (name : OsStr) : ExtractM Unit := do
  operation fault
  let state ← get
  let disk ← orIo (state.disk.makeDirectory platform base above name)
  setDisk disk

/-- The last part of `create_dir_all`: an error is none if the directory exists. -/
def unlessDirectory (base names : List OsStr) (error : ArchiveError) : ExtractM Unit := do
  let state ← get
  if state.disk.isDirectory base names then pure () else throw error

/-- The kind `NotFound`. -/
def ArchiveError.isNotFound : ArchiveError → Bool
  | .io error => error.notFound
  | .rejected _ => false

/-- `fs::create_dir_all` of the names in reverse order below the directory `base`. -/
def createDirAllFrom (base : List OsStr) : List OsStr → ExtractM Unit
  | [] => pure ()
  | name :: above => do
    let names := above.reverse ++ [name]
    match ← attempt (makeDirectory platform fault base above.reverse name) with
    | .ok () => pure ()
    | .error error =>
      if error.isNotFound then do
        createDirAllFrom base above
        match ← attempt (makeDirectory platform fault base above.reverse name) with
        | .ok () => pure ()
        | .error error => unlessDirectory base names error
      else unlessDirectory base names error

/-- `fs::create_dir_all`. -/
def createDirAll (base names : List OsStr) : ExtractM Unit :=
  createDirAllFrom platform fault base names.reverse

/-- `reject_existing_link` (lines 242–250). -/
def rejectExistingLink (base names : List OsStr) : ExtractM Unit := do
  operation fault
  let state ← get
  match ← orIo (state.disk.symlinkMetadata platform base names) with
  | .link _ => throw (.rejected "extraction path contains a symbolic link")
  | _ => pure ()

/-- `create_directory` (lines 43–46). -/
def createDirectory (base names : List OsStr) : ExtractM Unit := do
  createDirAll platform fault base names
  rejectExistingLink platform fault base names

/-- `create_file_parent` (lines 48–54). -/
def createFileParent (base names : List OsStr) : ExtractM Unit := do
  createDirAll platform fault base names.dropLast
  rejectExistingLink platform fault base names.dropLast

/-- `write_all` at the end of the file: a failing write has written a part. -/
def writeAll (location : List OsStr) (bytes : List UInt8) : ExtractM Unit := do
  match ← nextFault fault with
  | some (written, error) =>
    let state ← get
    setDisk (state.disk.append location (bytes.take written))
    throw (.io error)
  | none =>
    let state ← get
    setDisk (state.disk.append location bytes)

/-- `std::io::copy` of at most `limit` bytes: the reads of the entry one by one. -/
def copyTake (location : List OsStr) (failure : Option IoError) :
    ℕ → List (List UInt8) → ExtractM ℕ
  | 0, _ => pure 0
  | _ + 1, [] =>
    match failure with
    | some error => throw (.io error)
    | none => pure 0
  | limit + 1, chunk :: rest =>
    let bytes := chunk.take (limit + 1)
    if bytes = [] then pure 0
    else do
      writeAll fault location bytes
      let copied ← copyTake location failure (limit + 1 - bytes.length) rest
      pure (bytes.length + copied)

/-- `write_entry` (lines 148–168). `max_file_bytes + 1` is a sum of 64 bits. -/
def writeEntry (entry : Entry) (base names : List OsStr) (maxFileBytes : ℕ) (relative : OsStr) :
    ExtractM Unit := do
  operation fault
  let state ← get
  let created ← orIo (state.disk.createNew platform base names.dropLast (names.getLast?.getD []))
  setDisk created.2
  let copied ← copyTake fault created.1 entry.failure ((maxFileBytes + 1) % 2 ^ 64) entry.reads
  check (failIf (copied ≠ entry.size ∨ maxFileBytes < copied)
    (.rejected ("archive member size changed while extracting: " ++ display relative)))
  operation fault
  operation fault

/-! ## The loop -/

variable (lower : List Char → List Char) (key : OsStr → OsStr)

/-- The names of a relative path, as the file system finds them. -/
def location (relative : OsStr) : List OsStr := (normalNames platform relative).map key

/-- `extract_one` (lines 21–41). -/
def extractOne (destination : List OsStr) (slot : Except String Entry) : ExtractM Unit := do
  let entry ← check (slot.mapError .rejected)
  let state ← get
  let checked ← check (entryPath platform lower state.validation entry)
  modify fun state => { state with validation := checked.1 }
  let relative := checked.2
  let names := location platform key relative
  if entry.isDir then createDirectory platform fault destination names
  else do
    createFileParent platform fault destination names
    writeEntry platform fault entry destination names state.validation.policy.maxFileBytes relative
    modify fun state => { state with extracted := state.extracted ++ [relative] }

/-- `entries` (lines 8–19). -/
def entries (destination : List OsStr) (archive : Slots) (policy : ArchivePolicy) :
    ExtractM (List OsStr) := do
  modify fun state => { state with validation := .new policy, extracted := [] }
  archive.forM (extractOne platform fault lower key destination)
  let state ← get
  pure state.extracted

/-- `extract_zip_safely` (`archive.rs`, lines 38–61). The result are the paths below the canonical
    destination. -/
def extractZipSafely (archive : Except String Slots) (destination : List OsStr)
    (policy : ArchivePolicy) : ExtractM (List OsStr) := do
  createDirAll platform fault [] destination
  let state ← get
  let canonical ← orIo ((state.disk.tree.walk [] destination).mapError (walkIo platform))
  check (failIf (state.disk.tree.node canonical ≠ some .directory)
    (.rejected "destination is not a directory"))
  let slots ← check (archive.mapError .rejected)
  check (failIf (min (2 * policy.maxFiles) (2 ^ 64 - 1) < slots.length)
    (.rejected "archive contains too many entries"))
  entries platform fault lower key canonical slots policy

end Operations

end BaselineOps.Archive
