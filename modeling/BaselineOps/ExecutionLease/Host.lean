import Mathlib
import BaselineOps.Domain.Validate
import BaselineOps.Lib.Hoare

/-!
# Paths, file trees and callers of execution leases

The first part of `ProfileExecutionLease.psm1` (lines 13–166): path comparison, the containing root, the
check for reparse points up to that root, and the frames of the caller. The path functions of the
platform, the file tree and the outcome of a trust check are parameters.
-/

namespace BaselineOps.ExecutionLease

open BaselineOps.Domain BaselineOps.Lib

/-- What a call throws. `unfinished` stands for a loop that is cut off, `disposal` for the error of a
    stream that `Close-LeaseStreams` throws again after all streams have been disposed. -/
inductive Failure where
  | thrown (message : String)
  | disposal (message : String)
  | unfinished
deriving DecidableEq

/-- A step that touches no state. -/
def call {σ α : Type} (x : Except String α) : EStateM Failure σ α := check (x.mapError .thrown)

theorem ensures_call {σ α : Type} {x : Except String α} {s : σ} {Q : α → σ → Prop} {E : Failure → σ → Prop}
    (hok : ∀ a, x = .ok a → Q a s) (herror : ∀ message, x = .error message → E (.thrown message) s) :
    Ensures (call x) s Q E := by
  cases x with
  | ok a => exact hok a rfl
  | error message => exact herror message rfl

/-- `[string]::IsNullOrWhiteSpace`, for a text that is not null. -/
def isNullOrWhiteSpace (text : String) : Bool := text.toList.all isWhitespace

/-! ## Platform -/

/-- The path functions of the platform and the text comparison of PowerShell. `foldChar` is the case
    mapping of the comparison that `Get-LeasePathComparison` and `Get-LeasePathComparer` choose: the
    identity for `Ordinal`, upper case for `OrdinalIgnoreCase`. -/
structure Host where
  foldChar : Char → Char
  /-- The operator `-eq` on texts. -/
  equalText : String → String → Bool
  directorySeparator : Char
  altDirectorySeparator : Char
  /-- `[System.IO.Path]::GetFullPath`. -/
  getFullPath : String → String
  /-- `Split-Path -Parent`. -/
  splitParent : String → String
  /-- `Split-Path -Leaf`. -/
  splitLeaf : String → String
  joinPath : String → String → String
  /-- `$PSCommandPath` of the module. -/
  commandPath : String
  /-- The parent of a full path is a shorter path. -/
  splitParent_lt (text : String) :
    isNullOrWhiteSpace (splitParent (getFullPath text)) = false →
      (getFullPath (splitParent (getFullPath text))).length < (getFullPath text).length

variable (host : Host)

/-- A text as the path comparison sees it. -/
def Host.fold (text : String) : List Char := text.toList.map host.foldChar

/-- What `GetFullPath` returns. -/
structure FullPath where
  text : String
  full : ∃ source, host.getFullPath source = text

/-- `[System.IO.Path]::GetFullPath`, with its source. -/
def Host.fullPath (text : String) : FullPath host := ⟨host.getFullPath text, text, rfl⟩

/-- `TrimEnd` with both separators. -/
def Host.trimEnd (text : String) : String :=
  String.ofList (text.toList.rdropWhile fun c =>
    c = host.directorySeparator ∨ c = host.altDirectorySeparator)

/-- `Test-LeaseRootEquality` (lines 39–43), and every other `[string]::Equals` of the module. -/
def testLeaseRootEquality (left right : String) : Bool := decide (host.fold left = host.fold right)

/-- `Test-LeasePathWithinRoot` (lines 45–52). -/
def testLeasePathWithinRoot (path root : String) : Bool :=
  testLeaseRootEquality host path root ||
    (host.fold (host.trimEnd root ++ String.singleton host.directorySeparator)).isPrefixOf (host.fold path)

/-- `Get-LeaseContainingRoot` (lines 54–61). -/
def getLeaseContainingRoot (path : String) : List String → Except String String
  | [] => .error ("Execution lease path is outside its canonical runner and target roots: " ++ path)
  | root :: roots =>
    if testLeasePathWithinRoot host path root then .ok root else getLeaseContainingRoot path roots

/-! ## File trees -/

/-- What the module reads of the result of `Get-Item`. -/
structure Item where
  fullName : String
  isContainer : Bool
  isReparsePoint : Bool
deriving DecidableEq

/-- Items that the path comparison does not tell apart. -/
structure Item.Same (first second : Item) : Prop where
  fullName : host.fold first.fullName = host.fold second.fullName
  isContainer : first.isContainer = second.isContainer
  isReparsePoint : first.isReparsePoint = second.isReparsePoint

/-- A file tree: `Get-Item -LiteralPath $path -Force -ErrorAction Stop`, and the entries that
    `EnumerateFileSystemEntries` lists up to the error that ends it. Full names are full paths, an item is
    found again under its full name, and names that the path comparison does not tell apart are names of
    one item. -/
structure FileTree where
  getItem : String → Except String Item
  entries : String → List String × Option String
  fullName_full : ∀ {path item}, getItem path = .ok item → host.getFullPath item.fullName = item.fullName
  getItem_fullName : ∀ {path item}, getItem path = .ok item →
    ∃ found, getItem item.fullName = .ok found ∧ found.Same host item
  getItem_congr : ∀ {path path' item}, host.fold path = host.fold path' → getItem path = .ok item →
    ∃ found, getItem path' = .ok found ∧ found.Same host item
  entries_congr : ∀ {path path'}, host.fold path = host.fold path' →
    List.Forall₂ (fun entry entry' => host.fold entry = host.fold entry') (entries path).1 (entries path').1

/-- The places where the module asks `Assert-LeaseTrustedPath` (lines 139–156). -/
inductive TrustSite where
  | runnerRoot
  | targetRoot
  | file
  | directory

/-- What one call finds outside the module. The faults are chosen freely for every path and stream. -/
structure Environment where
  /-- `ScriptName` of the frames of `Get-PSCallStack`, the innermost first. -/
  callStack : List String
  tree : FileTree host
  /-- `[System.IO.FileStream]::new` on a path. -/
  openFile : String → Except String Unit
  /-- `Get-Item` on a path whose stream is open. -/
  lockedItem : String → Except String Item
  /-- The checks of `Assert-LeaseTrustedPath` on owners and access rules. -/
  trusted : TrustSite → String → Except String Unit
  /-- The error that `Dispose` throws behind the release of a stream. -/
  disposeFault : ℕ → Option String
  /-- `ConditionalWeakTable.Add` in `New-LeaseHandle`. -/
  addMembership : Except String Unit
  /-- `List.Add` on the active owners. -/
  addActiveOwner : Except String Unit

variable {host} (env : Environment host)

/-- `Get-CanonicalLeaseRoot` (lines 29–37). -/
def getCanonicalLeaseRoot (path : String) : Except String String := do
  let item ← env.tree.getItem path
  failIf (item.isContainer = false) ("Execution lease root is not a directory: " ++ path)
  failIf (item.isReparsePoint = true) ("Execution lease root is a reparse point: " ++ path)
  return host.trimEnd (host.getFullPath item.fullName)

/-- `Assert-LeaseNoReparseChain` (lines 63–79) from the path `current` on. -/
def assertLeaseNoReparseChain (path root : String) (current : FullPath host) : Except String Unit := do
  let item ← env.tree.getItem current.text
  failIf (item.isReparsePoint = true)
    ("Privileged code closure contains a reparse-point item: " ++ current.text)
  if testLeaseRootEquality host current.text root then return ()
  if _hparent : isNullOrWhiteSpace (host.splitParent current.text) then
    .error ("Execution lease path escaped its canonical root: " ++ path)
  else
    assertLeaseNoReparseChain path root (host.fullPath (host.splitParent current.text))
termination_by current.text.length
decreasing_by
  obtain ⟨text, source, rfl⟩ := current
  exact host.splitParent_lt source (by simpa using _hparent)

/-- A call of `Assert-LeaseTrustedPath` (lines 139–156), whose parameter `Path` is mandatory. -/
def assertLeaseTrustedPath (site : TrustSite) (path : String) : Except String Unit := do
  failIf (path = "") "Cannot bind argument to parameter 'Path' because it is an empty string."
  env.trusted site path

/-! ## Callers -/

/-- `Get-LeaseCallerFrames` (lines 81–83). -/
def getLeaseCallerFrames : List String :=
  env.callStack.filter fun scriptName =>
    !isNullOrWhiteSpace scriptName &&
      !testLeaseRootEquality host (host.getFullPath scriptName) (host.getFullPath host.commandPath)

/-- The full path of the calling script. -/
def callerPath : Option String := (getLeaseCallerFrames env).head?.map host.getFullPath

/-- `Assert-LeaseCaller` (lines 85–91) for the calling frame. -/
def assertLeaseCaller (frame : String) : Except String String := do
  let leaf := host.splitLeaf frame
  failIf (host.equalText leaf "00-Run-Profile.ps1" = false ∧ host.equalText leaf "00-Run-Local.ps1" = false)
    ("Execution lease caller is not an approved runner: " ++ leaf)
  return leaf

/-- `Assert-LeaseCallerPath` (lines 93–102). -/
def assertLeaseCallerPath (caller frame runnerRoot : String) : Except String Unit :=
  let expected := host.getFullPath (host.joinPath (host.joinPath runnerRoot "scripts") caller)
  let actual := host.getFullPath frame
  failIf (testLeaseRootEquality host actual expected = false)
    ("Execution lease caller path is outside the canonical runner control plane: " ++ actual)

/-! ## A sample host -/

/-- The parent of a path with the separator `/`. -/
def pathParent (chars : List Char) : List Char :=
  let rest := chars.rdropWhile (· ≠ '/')
  if rest = ['/'] ∧ chars ≠ ['/'] then ['/'] else rest.dropLast

theorem length_pathParent {chars : List Char} (h : pathParent chars ≠ []) :
    (pathParent chars).length < chars.length := by
  have hpre : chars.rdropWhile (· ≠ '/') <+: chars := List.rdropWhile_prefix _ _
  have hle := hpre.length_le
  unfold pathParent at *
  dsimp only at *
  split_ifs at * with hroot
  · rcases hle.lt_or_eq with hlt | heq
    · rw [hroot.1] at hlt
      exact hlt
    · exact absurd ((hpre.eq_of_length heq).symm.trans hroot.1) hroot.2
  · have hne : chars.rdropWhile (· ≠ '/') ≠ [] := by
      intro hnil
      rw [hnil] at h
      exact h rfl
    have hpos := List.length_pos_iff.mpr hne
    rw [List.length_dropLast]
    omega

/-- A host with ordinal path comparison, on whose paths `GetFullPath` changes nothing. -/
def sampleHost : Host where
  foldChar c := c
  equalText a b := decide (a.toList.map Char.toLower = b.toList.map Char.toLower)
  directorySeparator := '/'
  altDirectorySeparator := '/'
  getFullPath text := text
  splitParent text := String.ofList (pathParent text.toList)
  splitLeaf text := String.ofList (text.toList.rtakeWhile (· ≠ '/'))
  joinPath parent child := parent ++ "/" ++ child
  commandPath := "/run/lib/ProfileExecutionLease.psm1"
  splitParent_lt text h := by
    have hne : pathParent text.toList ≠ [] := by
      intro hnil
      rw [hnil] at h
      simp [isNullOrWhiteSpace] at h
    rw [← String.length_toList, ← String.length_toList, String.toList_ofList]
    exact length_pathParent hne

theorem sampleHost_fold_inj {path path' : String} (h : sampleHost.fold path = sampleHost.fold path') :
    path = path' := by
  unfold Host.fold at h
  rw [show sampleHost.foldChar = id from rfl, List.map_id, List.map_id] at h
  exact String.toList_inj.mp h

/-- A runner root with both runners, and a target root with one script. -/
def sampleItems : List Item :=
  [⟨"/run", true, false⟩, ⟨"/run/scripts", true, false⟩,
    ⟨"/run/scripts/00-Run-Profile.ps1", false, false⟩, ⟨"/run/scripts/00-Run-Local.ps1", false, false⟩,
    ⟨"/target", true, false⟩, ⟨"/target/40-A.ps1", false, false⟩]

/-- `Get-Item` on those items. -/
def sampleGetItem (path : String) : Except String Item :=
  match sampleItems.find? fun item => decide (item.fullName = path) with
  | some item => .ok item
  | none => .error ("Cannot find path '" ++ path ++ "' because it does not exist.")

theorem sampleGetItem_fullName {path : String} {item : Item} (h : sampleGetItem path = .ok item) :
    item.fullName = path := by
  unfold sampleGetItem at h
  cases hfind : sampleItems.find? (fun item => decide (item.fullName = path)) with
  | none =>
    rw [hfind] at h
    cases h
  | some found =>
    rw [hfind] at h
    cases h
    simpa using List.find?_some hfind

/-- The tree of those items. -/
def sampleTree : FileTree sampleHost where
  getItem := sampleGetItem
  entries path :=
    ((sampleItems.filter fun item => decide (sampleHost.splitParent item.fullName = path)).map Item.fullName,
      none)
  fullName_full _ := rfl
  getItem_fullName {path item} h := by
    obtain rfl := sampleGetItem_fullName h
    exact ⟨item, h, rfl, rfl, rfl⟩
  getItem_congr {path path' item} hfold h := by
    rw [← sampleHost_fold_inj hfold]
    exact ⟨item, h, rfl, rfl, rfl⟩
  entries_congr {path path'} hfold := by
    rw [sampleHost_fold_inj hfold]
    exact List.forall₂_refl _

/-- A call from these frames, for which some files cannot be opened. -/
def sampleEnvironment (callStack locked : List String) : Environment sampleHost where
  callStack := callStack
  tree := sampleTree
  openFile path := if path ∈ locked then .error "The process cannot access the file." else .ok ()
  lockedItem := sampleGetItem
  trusted _ _ := .ok ()
  disposeFault _ := none
  addMembership := .ok ()
  addActiveOwner := .ok ()

end BaselineOps.ExecutionLease
