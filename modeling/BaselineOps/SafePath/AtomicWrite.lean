import Mathlib
import BaselineOps.Lib.Hoare
import BaselineOps.Lib.OsPath
import BaselineOps.SafePath.Resolve

/-!
# Atomic replacement of a file

Model of `atomic_write`, `atomic_paths` and `write_and_replace`
(`crates/baselineops-windows/src/safe_path.rs`, lines 388–440). The two files it touches lie in one
directory, the parent of the output path, so the disk is that directory: the bytes of each name.
Every operation takes its outcome from a `WriteFaults`, and the disk is recorded at every point
between two operations and within the writing of the temporary file.

Two refusals are part of the operations: `create_new` refuses a name that exists, and a plain
`File::open` refuses a directory on Windows and the empty path everywhere.

* `ensures_writeAndReplace`: what the sequence of operations leaves, and when it fails.
* `atomicWrite_replaces_iff`: when the output is replaced atomically.
-/

namespace BaselineOps.SafePath

open BaselineOps.Lib BaselineOps.Lib.OsPath

/-! ## Operations -/

/-- The files of a directory: the bytes of each name. -/
abbrev Directory := OsStr → Option (List UInt8)

/-- A directory now, and at every point up to now. -/
structure DirectoryLog where
  files : Directory
  points : List Directory

/-- Programs that write to a directory. -/
abbrev WriteM := EStateM PathError DirectoryLog

/-- The failures of the operations of one `atomic_write`: `none` is success. A write that fails has
    written some bytes; `progress` are the lengths on disk while it writes. -/
structure WriteFaults where
  create : Option IoError
  progress : List ℕ
  write : Option (ℕ × IoError)
  sync : Option IoError
  rename : Option IoError
  openParent : Option IoError
  syncParent : Option IoError
  remove : Option IoError

/-- `?` on an operation without a result. -/
def failWith : Option IoError → WriteM Unit
  | some error => throw (.io error)
  | none => pure ()

/-- The directory becomes another one. -/
def setFiles (files : Directory) : WriteM Unit :=
  modify fun log => ⟨files, log.points ++ [files]⟩

section Operations

variable (faults : WriteFaults)

/-- `atomic_options().open(temporary)`: `create_new` refuses a name that exists. -/
def createNew (temporary : OsStr) : WriteM Unit := do
  failWith faults.create
  let log ← get
  match log.files temporary with
  | some _ => throw (.io ⟨false, "File exists"⟩)
  | none => setFiles (Function.update log.files temporary (some []))

/-- `file.write_all(bytes)`. -/
def writeAll (temporary : OsStr) (bytes : List UInt8) : WriteM Unit := do
  faults.progress.forM fun length => do
    let log ← get
    setFiles (Function.update log.files temporary (some (bytes.take length)))
  let log ← get
  match faults.write with
  | some (length, error) =>
    setFiles (Function.update log.files temporary (some (bytes.take length)))
    throw (.io error)
  | none => setFiles (Function.update log.files temporary (some bytes))

/-- `fs::rename(temporary, path)`. -/
def rename (temporary name : OsStr) : WriteM Unit := do
  failWith faults.rename
  let log ← get
  setFiles (Function.update (Function.update log.files name (log.files temporary)) temporary none)

/-- `File::open(parent)` on a directory. -/
def openDirectory (platform : Platform) (parent : OsStr) : WriteM Unit :=
  match platform with
  | .windows => throw (.io ⟨false, "Access is denied."⟩)
  | .unix =>
    if parent = [] then throw (.io ⟨true, "No such file or directory"⟩)
    else failWith faults.openParent

/-- `fs::remove_file(&temporary)`, whose outcome is not looked at. -/
def removeFile (temporary : OsStr) : WriteM Unit := do
  let log ← get
  match faults.remove with
  | some _ => pure ()
  | none => setFiles (Function.update log.files temporary none)

/-! ## `atomic_write` -/

/-- `write_and_replace` (lines 415–428). -/
def writeAndReplace (platform : Platform) (parent temporary name : OsStr) (bytes : List UInt8) :
    WriteM Unit := do
  createNew faults temporary
  writeAll faults temporary bytes
  failWith faults.sync
  rename faults temporary name
  openDirectory faults platform parent
  failWith faults.syncParent

/-- The name of the temporary file for the output `name`. -/
def temporaryName (processId nonce : ℕ) (name : List Char) : OsStr :=
  .char '.' :: name.map .char ++ ofText ("." ++ toString processId ++ "." ++ toString nonce ++ ".tmp")

/-- What `atomic_paths` returns, and the name of the output in the parent directory. -/
structure AtomicPaths where
  parent : OsStr
  temporary : OsStr
  name : OsStr

/-- `atomic_paths` (lines 398–413). -/
def atomicPaths (platform : Platform) (processId nonce : ℕ) (path : OsStr) :
    Except PathError AtomicPaths :=
  match parent platform path with
  | none => .error (.untrustedPath path "output has no parent")
  | some directory =>
    match fileName platform path with
    | none => .error (.untrustedPath path "output file name is not Unicode")
    | some file =>
      match toStr file with
      | none => .error (.untrustedPath path "output file name is not Unicode")
      | some name => .ok ⟨directory, temporaryName processId nonce name, file⟩

/-- `atomic_write` (lines 388–396). -/
def atomicWrite (platform : Platform) (processId nonce : ℕ) (path : OsStr) (bytes : List UInt8) :
    WriteM Unit := do
  let paths ← check (atomicPaths platform processId nonce path)
  match ← attempt (writeAndReplace faults platform paths.parent paths.temporary paths.name bytes) with
  | .ok () => pure ()
  | .error error =>
    removeFile faults paths.temporary
    throw error

end Operations

/-! ## What the operations leave -/

/-- At every point so far `name` held `old` or `new`. -/
def OldOrNew (name : OsStr) (old new : Option (List UInt8)) (log : DirectoryLog) : Prop :=
  ∀ point ∈ log.points, point name = old ∨ point name = new

/-- The operations up to the renaming succeed. -/
structure Replaces (faults : WriteFaults) (files : Directory) (temporary : OsStr) : Prop where
  create : faults.create = none
  absent : files temporary = none
  write : faults.write = none
  sync : faults.sync = none
  rename : faults.rename = none

/-- The parent directory is opened and synchronised. -/
structure ParentSynced (faults : WriteFaults) (platform : Platform) (parent : OsStr) : Prop where
  supported : platform = .unix
  named : parent ≠ []
  opened : faults.openParent = none
  synced : faults.syncParent = none

section Run

variable {faults : WriteFaults} {name temporary parent : OsStr} {bytes : List UInt8}
  {old : Option (List UInt8)} {log : DirectoryLog} {platform : Platform}

theorem OldOrNew.concat {new : Option (List UInt8)} (h : OldOrNew name old new log)
    {files : Directory} (hfiles : files name = old ∨ files name = new) :
    OldOrNew name old new ⟨files, log.points ++ [files]⟩ := by
  intro point hpoint
  rcases List.mem_append.mp hpoint with hpoint | hpoint
  · exact h point hpoint
  · rw [List.mem_singleton.mp hpoint]
    exact hfiles

theorem ensures_failWith {fault : Option IoError} {Q : Unit → DirectoryLog → Prop}
    {E : PathError → DirectoryLog → Prop} (hok : fault = none → Q () log)
    (herror : ∀ error, fault = some error → E (.io error) log) :
    Ensures (failWith fault) log Q E := by
  cases fault with
  | none => exact ensures_pure (hok rfl)
  | some error => exact ensures_throw (herror error rfl)

/-- Creating the temporary file leaves the output alone. -/
theorem ensures_createNew (hne : name ≠ temporary) (hpoints : OldOrNew name old (some bytes) log)
    (hold : log.files name = old) :
    Ensures (createNew faults temporary) log
      (fun _ log' => (faults.create = none ∧ log.files temporary = none) ∧
        OldOrNew name old (some bytes) log' ∧ log'.files name = old)
      (fun _ log' => ¬ (faults.create = none ∧ log.files temporary = none) ∧
        OldOrNew name old (some bytes) log' ∧ log'.files name = old) := by
  apply ensures_bind
  apply ensures_failWith
  · intro hcreate
    apply ensures_bind
    apply ensures_get
    cases htemporary : log.files temporary with
    | some content => exact ensures_throw ⟨by simp, hpoints, hold⟩
    | none =>
      apply ensures_modify
      have hname : Function.update log.files temporary (some []) name = old := by
        rw [Function.update_of_ne hne, hold]
      exact ⟨⟨hcreate, rfl⟩, hpoints.concat (.inl hname), hname⟩
  · intro error hcreate
    exact ⟨by simp [hcreate], hpoints, hold⟩

/-- Writing the temporary file leaves the output alone. -/
theorem ensures_writeAll (hne : name ≠ temporary) (hpoints : OldOrNew name old (some bytes) log)
    (hold : log.files name = old) :
    Ensures (writeAll faults temporary bytes) log
      (fun _ log' => (faults.write = none ∧ log'.files temporary = some bytes) ∧
        OldOrNew name old (some bytes) log' ∧ log'.files name = old)
      (fun _ log' => faults.write ≠ none ∧
        OldOrNew name old (some bytes) log' ∧ log'.files name = old) := by
  -- Every prefix on disk is a state of the temporary file only.
  have hupdate : ∀ (log : DirectoryLog) (content : List UInt8), log.files name = old →
      Function.update log.files temporary (some content) name = old := by
    intro log content hlog
    rw [Function.update_of_ne hne, hlog]
  apply ensures_bind
  refine (ensures_forM (I := fun log => OldOrNew name old (some bytes) log ∧ log.files name = old)
    (E := fun _ _ => False) ⟨hpoints, hold⟩ ?_).mono ?_ fun _ _ h => h.elim
  · intro length _ log hlog
    apply ensures_bind
    apply ensures_get
    apply ensures_modify
    exact ⟨hlog.1.concat (.inl (hupdate log _ hlog.2)), hupdate log _ hlog.2⟩
  · intro _ log hlog
    apply ensures_bind
    apply ensures_get
    cases hwrite : faults.write with
    | some fault =>
      apply ensures_bind
      apply ensures_modify
      apply ensures_throw
      exact ⟨by simp, hlog.1.concat (.inl (hupdate log _ hlog.2)), hupdate log _ hlog.2⟩
    | none =>
      apply ensures_modify
      exact ⟨⟨rfl, Function.update_self ..⟩, hlog.1.concat (.inl (hupdate log _ hlog.2)),
        hupdate log _ hlog.2⟩

/-- Opening the parent directory changes nothing. -/
theorem ensures_openDirectory :
    Ensures (openDirectory faults platform parent) log
      (fun _ log' => (platform = .unix ∧ parent ≠ [] ∧ faults.openParent = none) ∧ log' = log)
      (fun _ log' => ¬ (platform = .unix ∧ parent ≠ [] ∧ faults.openParent = none) ∧
        log' = log) := by
  cases platform with
  | windows => exact ensures_throw ⟨by simp, rfl⟩
  | unix =>
    simp only [openDirectory]
    split_ifs with hparent
    · exact ensures_throw ⟨by simp [hparent], rfl⟩
    · apply ensures_failWith
      · intro hopen
        exact ⟨⟨trivial, hparent, hopen⟩, rfl⟩
      · intro error hopen
        exact ⟨by simp [hopen], rfl⟩

/-- `write_and_replace` succeeds when every operation does. It fails before the renaming with the
    output as it was, or behind it with the output replaced. -/
theorem ensures_writeAndReplace (hne : name ≠ temporary)
    (hpoints : OldOrNew name old (some bytes) log) (hold : log.files name = old) :
    Ensures (writeAndReplace faults platform parent temporary name bytes) log
      (fun _ log' => (Replaces faults log.files temporary ∧ ParentSynced faults platform parent) ∧
        OldOrNew name old (some bytes) log' ∧ log'.files name = some bytes ∧
        log'.files temporary = none)
      (fun _ log' => OldOrNew name old (some bytes) log' ∧
        ((¬ Replaces faults log.files temporary ∧ log'.files name = old) ∨
          (Replaces faults log.files temporary ∧ ¬ ParentSynced faults platform parent ∧
            log'.files name = some bytes))) := by
  apply ensures_bind
  refine (ensures_createNew hne hpoints hold).mono ?_ ?_
  rotate_left
  · rintro _ log' ⟨hcreate, hpoints, hold⟩
    exact ⟨hpoints, .inl ⟨fun h => hcreate ⟨h.create, h.absent⟩, hold⟩⟩
  rintro _ created ⟨⟨hcreate, habsent⟩, hpoints, hold⟩
  apply ensures_bind
  refine (ensures_writeAll hne hpoints hold).mono ?_ ?_
  rotate_left
  · rintro _ log' ⟨hwrite, hpoints, hold⟩
    exact ⟨hpoints, .inl ⟨fun h => hwrite h.write, hold⟩⟩
  rintro _ written ⟨⟨hwrite, hbytes⟩, hpoints, hold⟩
  apply ensures_bind
  apply ensures_failWith
  rotate_left
  · intro error hsync
    exact ⟨hpoints, .inl ⟨fun h => by simp [h.sync] at hsync, hold⟩⟩
  intro hsync
  apply ensures_bind
  apply ensures_bind
  apply ensures_failWith
  rotate_left
  · intro error hrename
    exact ⟨hpoints, .inl ⟨fun h => by simp [h.rename] at hrename, hold⟩⟩
  intro hrename
  apply ensures_bind
  apply ensures_get
  apply ensures_modify
  have hreplaces : Replaces faults log.files temporary :=
    ⟨hcreate, habsent, hwrite, hsync, hrename⟩
  -- The point of no return: from here on the output holds the new bytes.
  set files := Function.update (Function.update written.files name (written.files temporary))
    temporary none with hfiles
  have hname : files name = some bytes := by
    rw [hfiles, Function.update_of_ne hne, Function.update_self, hbytes]
  have hgone : files temporary = none := Function.update_self ..
  have hreplaced := hpoints.concat (.inr hname)
  apply ensures_bind
  refine ensures_openDirectory.mono ?_ ?_
  rotate_left
  · rintro _ log' ⟨hopen, rfl⟩
    exact ⟨hreplaced, .inr ⟨hreplaces, fun h => hopen ⟨h.supported, h.named, h.opened⟩, hname⟩⟩
  rintro _ log' ⟨⟨hplatform, hparent, hopen⟩, rfl⟩
  apply ensures_failWith
  · intro hsynced
    exact ⟨⟨hreplaces, hplatform, hparent, hopen, hsynced⟩, hreplaced, hname, hgone⟩
  · intro error hsynced
    exact ⟨hreplaced, .inr ⟨hreplaces, fun h => by simp [h.synced] at hsynced, hname⟩⟩

/-- The temporary file is not the output: its name is longer. -/
theorem ne_temporaryName (processId nonce : ℕ) (chars : List Char) :
    chars.map OsUnit.char ≠ temporaryName processId nonce chars := by
  intro h
  have hlength := congrArg List.length h
  simp [temporaryName] at hlength
  omega

/-! ## Atomic replacement -/

/-- No operation fails, the refusal of Windows to open a directory apart. -/
structure NoFailure (faults : WriteFaults) (files : Directory) (temporary parent : OsStr) : Prop
    extends Replaces faults files temporary where
  named : parent ≠ []
  openParent : faults.openParent = none
  syncParent : faults.syncParent = none
  remove : faults.remove = none

/-- The output is replaced atomically by a run of `atomic_write` on the directory `files`. -/
structure AtomicReplacement (faults : WriteFaults) (files : Directory) (paths : AtomicPaths)
    (bytes : List UInt8) (run : EStateM.Result PathError DirectoryLog Unit) : Prop where
  /-- Between two operations the output has its old content or the new bytes. -/
  points : OldOrNew paths.name (files paths.name) (some bytes) (stateAfter run)
  /-- Success: the new bytes, and no temporary file. -/
  ok : ∀ log, run = .ok () log →
    log.files paths.name = some bytes ∧ log.files paths.temporary = none
  /-- Failure: the old content. -/
  error : ∀ error log, run = .error error log → log.files paths.name = files paths.name
  /-- Without a failing operation there is no failure, whatever the platform. -/
  total : NoFailure faults files paths.temporary paths.parent → ∃ log, run = .ok () log

variable {processId nonce : ℕ} {path : OsStr} {chars : List Char} {paths : AtomicPaths}
  {files : Directory}

theorem toStr_map_char (chars : List Char) : toStr (chars.map .char) = some chars := by
  induction chars with
  | nil => rfl
  | cons c chars ih =>
    simp only [toStr] at ih
    simp [toStr, OsUnit.char?, ih]

/-- A path with a parent and a Unicode file name. -/
structure Output (platform : Platform) (processId nonce : ℕ) (path : OsStr) (chars : List Char)
    (paths : AtomicPaths) : Prop where
  parent : OsPath.parent platform path = some paths.parent
  fileName : OsPath.fileName platform path = some paths.name
  name : paths.name = chars.map .char
  temporary : paths.temporary = temporaryName processId nonce chars

theorem Output.atomicPaths_eq (h : Output platform processId nonce path chars paths) :
    atomicPaths platform processId nonce path = .ok paths := by
  obtain ⟨directory, temporary, name⟩ := paths
  obtain ⟨hparent, hfile, hname, htemporary⟩ := h
  simp only at hparent hfile hname htemporary
  subst hname htemporary
  rw [atomicPaths, hparent, hfile]
  simp only [toStr_map_char]

/-- `atomic_write` fails with the output as it was, or with the output replaced when only the parent
    directory could not be synchronised. -/
theorem ensures_atomicWrite (houtput : Output platform processId nonce path chars paths) :
    Ensures (atomicWrite faults platform processId nonce path bytes) ⟨files, [files]⟩
      (fun _ log => (Replaces faults files paths.temporary ∧
          ParentSynced faults platform paths.parent) ∧
        OldOrNew paths.name (files paths.name) (some bytes) log ∧
        log.files paths.name = some bytes ∧ log.files paths.temporary = none)
      (fun _ log => OldOrNew paths.name (files paths.name) (some bytes) log ∧
        ((¬ Replaces faults files paths.temporary ∧ log.files paths.name = files paths.name) ∨
          (Replaces faults files paths.temporary ∧ ¬ ParentSynced faults platform paths.parent ∧
            log.files paths.name = some bytes))) := by
  have hne : paths.name ≠ paths.temporary := by
    rw [houtput.name, houtput.temporary]
    exact ne_temporaryName processId nonce chars
  have hstart : OldOrNew paths.name (files paths.name) (some bytes) ⟨files, [files]⟩ := by
    intro point hpoint
    rw [List.mem_singleton.mp hpoint]
    exact .inl rfl
  apply ensures_bind
  rw [houtput.atomicPaths_eq]
  apply ensures_pure
  apply ensures_bind
  apply ensures_attempt
  refine (ensures_writeAndReplace hne hstart rfl).mono ?_ ?_
  · intro _ log h
    exact ensures_pure h
  · rintro error log ⟨hpoints, hcase⟩
    -- The clean-up removes the temporary file or nothing.
    apply ensures_bind
    apply ensures_bind
    apply ensures_get
    cases faults.remove with
    | some fault =>
      apply ensures_pure
      exact ensures_throw ⟨hpoints, hcase⟩
    | none =>
      apply ensures_modify
      have hname : Function.update log.files paths.temporary none paths.name =
          log.files paths.name := Function.update_of_ne hne ..
      refine ensures_throw ⟨?_, ?_⟩
      · apply hpoints.concat
        rw [hname]
        exact hcase.imp And.right fun h => h.2.2
      · simpa only [hname] using hcase

/-- The output is replaced atomically unless everything up to the renaming succeeds, the parent
    directory is not synchronised afterwards, and that shows: the output was not already what is
    written, or no operation failed. -/
theorem atomicWrite_replaces_iff (houtput : Output platform processId nonce path chars paths) :
    AtomicReplacement faults files paths bytes
        (atomicWrite faults platform processId nonce path bytes ⟨files, [files]⟩) ↔
      ¬ (Replaces faults files paths.temporary ∧ ¬ ParentSynced faults platform paths.parent ∧
        (files paths.name ≠ some bytes ∨ NoFailure faults files paths.temporary paths.parent)) := by
  have hrun : Ensures (atomicWrite faults platform processId nonce path bytes) ⟨files, [files]⟩ _ _ :=
    ensures_atomicWrite houtput
  cases hx : atomicWrite faults platform processId nonce path bytes ⟨files, [files]⟩ with
  | ok result log =>
    obtain ⟨⟨-, hsynced⟩, hpoints, hname, hgone⟩ := hrun.ok hx
    constructor
    · rintro - ⟨-, hparent, -⟩
      exact hparent hsynced
    · intro _
      refine ⟨hpoints, ?_, ?_, ?_⟩
      · rintro log' h
        cases h
        exact ⟨hname, hgone⟩
      · intro error log' h
        cases h
      · intro _
        exact ⟨log, rfl⟩
  | error error log =>
    obtain ⟨hpoints, hcase⟩ := hrun.error hx
    constructor
    · rintro hatomic ⟨hreplaces, -, hshown⟩
      have hold := hatomic.error error log rfl
      rcases hcase with ⟨hnot, -⟩ | ⟨-, -, hname⟩
      · exact hnot hreplaces
      rcases hshown with hdiffers | hnone
      · exact hdiffers (hold.symm.trans hname)
      · obtain ⟨log', h⟩ := hatomic.total hnone
        cases h
    · intro hnot
      refine ⟨hpoints, ?_, ?_, ?_⟩
      · intro log' h
        cases h
      · intro error' log' h
        cases h
        rcases hcase with ⟨-, hold⟩ | ⟨hreplaces, hparent, hname⟩
        · exact hold
        · by_contra hdiffers
          rw [hname] at hdiffers
          exact hnot ⟨hreplaces, hparent, .inl (Ne.symm hdiffers)⟩
      · intro hnone
        rcases hcase with ⟨hreplaces, -⟩ | ⟨hreplaces, hparent, -⟩
        · exact absurd hnone.toReplaces hreplaces
        · exact absurd ⟨hreplaces, hparent, .inr hnone⟩ hnot

/-- Every operation succeeds. -/
def noFaults : WriteFaults := ⟨none, [], none, none, none, none, none, none⟩

/-- A directory with one file. -/
def oneFile (name : OsStr) (content : List UInt8) : Directory :=
  Function.update (fun _ => none) name (some content)

/-- The output of the examples. -/
def resultPaths (directory : String) : AtomicPaths :=
  ⟨ofText directory, temporaryName 7 9 "result.json".toList, ofText "result.json"⟩

theorem output_result_windows :
    Output .windows 7 9 (ofText "C:\\out\\result.json") "result.json".toList
      (resultPaths "C:\\out") := ⟨by decide, by decide, rfl, rfl⟩

theorem output_result_unix :
    Output .unix 7 9 (ofText "/out/result.json") "result.json".toList (resultPaths "/out") :=
  ⟨by decide, by decide, rfl, rfl⟩

theorem atomicWrite_replaces_unix :
    AtomicReplacement noFaults (oneFile (ofText "result.json") [1]) (resultPaths "/out") [2]
      (atomicWrite noFaults .unix 7 9 (ofText "/out/result.json") [2]
        ⟨oneFile (ofText "result.json") [1], [oneFile (ofText "result.json") [1]]⟩) := by
  apply (atomicWrite_replaces_iff output_result_unix).mpr
  rintro ⟨-, hparent, -⟩
  exact hparent ⟨rfl, by decide, rfl, rfl⟩

/-- On Windows the call fails although no operation does, and the output has been replaced. -/
theorem atomicWrite_fails_windows :
    ¬ AtomicReplacement noFaults (oneFile (ofText "result.json") [1]) (resultPaths "C:\\out") [2]
      (atomicWrite noFaults .windows 7 9 (ofText "C:\\out\\result.json") [2]
        ⟨oneFile (ofText "result.json") [1], [oneFile (ofText "result.json") [1]]⟩) := by
  intro hatomic
  have habsent : oneFile (ofText "result.json") [1] (resultPaths "C:\\out").temporary = none := by
    apply Function.update_of_ne
    exact (ne_temporaryName 7 9 "result.json".toList).symm
  obtain ⟨log, hrun⟩ := hatomic.total ⟨⟨rfl, habsent, rfl, rfl, rfl⟩, by decide, rfl, rfl, rfl⟩
  have hsynced := ((ensures_atomicWrite output_result_windows).ok hrun).1.2
  cases hsynced.supported

end Run

end BaselineOps.SafePath
