import Mathlib
import BaselineOps.Domain.Validate
import BaselineOps.Lib.EState
import BaselineOps.Lib.OsPath
import BaselineOps.Lib.Split
import BaselineOps.SafePath.Resolve

/-!
# The inventory of a package

Model of the two verifiers of a package: `verify_inventory` of an extracted archive
(`crates/baselineops-engine/src/package.rs`) and `validate_inventory` of an installed package
(`installed_package.rs`), with `validate_manifest`, which both run first.

A tree is the list of its regular files, in the order in which the verifier meets them; a file is
known by its names below the root, as `Path` compares paths by their components. The file system
looks names up by a key: names with one key are one directory entry. On a file system that tells all
names apart the key is the name.

* `validateManifest_paths`: the paths of an accepted manifest are safe and differ in more than case.
* `existingFile_ok_iff`: `existing_file` of a safe path finds the file with the keys of its names.
* `normalNames_relative`, `relative_eq_of_names`: the path of a file and its names.
-/

namespace BaselineOps.Package

open BaselineOps.Domain BaselineOps.Lib BaselineOps.Lib.OsPath BaselineOps.SafePath

/-! ## The manifest -/

/-- The cases of `PackageError` that the inventory runs into. -/
inductive PackageError where
  | platform (error : PathError)
  | invalidManifest (reason : String)
  | inventoryMismatch (reason : String)

/-- `ManifestFile` (`package.rs`, lines 18–28). -/
structure ManifestFile where
  path : String
  sizeBytes : ℕ
  sha256 : Sha256Digest

/-- `PackageManifestV1` (lines 30–46). -/
structure PackageManifestV1 where
  schemaVersion : String
  product : String
  packageVersion : String
  target : String
  signerSubject : String
  files : List ManifestFile

/-- `MANIFEST_PATH` (line 10). -/
def manifestPath : String := "manifest.json"

/-- `MANIFEST_SIGNATURE_PATH` (line 11). -/
def manifestSignaturePath : String := "manifest.json.p7"

/-- `REQUIRED_EXECUTABLES` (lines 12–16). -/
def requiredExecutables : List String :=
  ["bin/baselineops.exe", "bin/baselineops-gui.exe", "bin/baselineops-worker.exe"]

/-- `.trim().is_empty()`. -/
def isBlank (text : String) : Bool := text.toList.all isWhitespace

/-- `invalid_manifest_identity` (lines 318–322). -/
def invalidManifestIdentity : PackageError :=
  .invalidManifest "manifest identity, target, version, or signer is invalid"

/-- `validate_manifest_identity` (lines 299–316). -/
def validateManifestIdentity (manifest : PackageManifestV1) : Except PackageError Unit := do
  failIf (manifest.schemaVersion ≠ "1.0") invalidManifestIdentity
  failIf (manifest.product ≠ "BaselineOps for Windows") invalidManifestIdentity
  failIf (isBlank manifest.packageVersion) invalidManifestIdentity
  failIf (manifest.target ≠ "x86_64-pc-windows-msvc") invalidManifestIdentity
  failIf (isBlank manifest.signerSubject) invalidManifestIdentity

section Manifest

variable (platform : Platform)

/-- `is_safe_manifest_path` (lines 337–353). -/
def isSafeManifestPath (value : String) : Bool :=
  let path := ofText value
  value.toList ≠ [] && '\\' ∉ value.toList && ':' ∉ value.toList &&
    !isAbsolute platform path &&
    (value.toList.splitOn '/').all (fun segment =>
      segment ≠ [] && segment ≠ ['.'] && segment ≠ ['.', '.']) &&
    (components platform path).all fun located =>
      match located.component with
      | .normal _ => true
      | _ => false

/-- The loop of `validate_manifest_paths` (lines 324–335) behind the paths `seen`. -/
def validateManifestPathsFrom : List String → List ManifestFile → Except PackageError Unit
  | _, [] => .ok ()
  | seen, file :: rest =>
    if isSafeManifestPath platform file.path = false ∨ file.path.toLower ∈ seen then
      .error (.invalidManifest ("manifest path is unsafe or ambiguous: " ++ file.path))
    else validateManifestPathsFrom (file.path.toLower :: seen) rest

/-- `validate_manifest_paths`. -/
def validateManifestPaths (files : List ManifestFile) : Except PackageError Unit :=
  validateManifestPathsFrom platform [] files

/-- `validate_required_executables` (lines 355–364). -/
def validateRequiredExecutables (files : List ManifestFile) : Except PackageError Unit :=
  requiredExecutables.forM fun required =>
    failIf (∀ file ∈ files, file.path ≠ required)
      (.invalidManifest ("manifest omits required executable: " ++ required))

/-- `validate_manifest` (lines 293–297). -/
def validateManifest (manifest : PackageManifestV1) : Except PackageError Unit := do
  validateManifestIdentity manifest
  validateManifestPaths platform manifest.files
  validateRequiredExecutables manifest.files

end Manifest

/-! ## The tree -/

/-- The name of a file or directory: Unicode text without separators, neither `.` nor `..`. -/
structure TreeName (name : OsStr) : Prop where
  ne_nil : name ≠ []
  ne_cur : name ≠ ofText "."
  ne_parent : name ≠ ofText ".."
  unicode : ∀ unit ∈ name, ∃ c, unit = .char c ∧ c ≠ '/' ∧ c ≠ '\\'

/-- A regular file below the root: its names and what reading it returns. -/
structure PackageFile where
  names : List OsStr
  content : List UInt8
  valid : ∀ name ∈ names, TreeName name
  nonempty : names ≠ []

/-- `path.strip_prefix(root).to_string_lossy().replace('\\', "/")`. -/
def PackageFile.relative (platform : Platform) (file : PackageFile) : String :=
  String.ofList ((toStringLossy (joinWith (mainSep platform) file.names)).map fun c =>
    if c = '\\' then '/' else c)

/-- `metadata().len()`. -/
def PackageFile.size (file : PackageFile) : ℕ := file.content.length

/-! ## The extracted package -/

section Extracted

variable (sha256 : List UInt8 → Sha256Digest) (platform : Platform)

/-- `BTreeMap<String, (PathBuf, u64)>`; the path of a file stands for the file. -/
abbrev ExtractedInventory := Std.TreeMap String (PackageFile × ℕ)

/-- `extracted_inventory` and `extracted_member` (lines 149–170). -/
def extractedInventory (paths : List PackageFile) : ExtractedInventory :=
  Std.TreeMap.ofList (paths.map fun path => (path.relative platform, path, path.size))

/-- `verify_inventory_count` (lines 232–244). -/
def verifyInventoryCount (actual : ExtractedInventory) (manifest : PackageManifestV1) :
    Except PackageError Unit :=
  failIf (actual.size ≠ manifest.files.length)
    (.inventoryMismatch ("manifest lists " ++ toString manifest.files.length ++
      " files but package contains " ++ toString actual.size))

/-- `verify_inventory_file` (lines 245–259). -/
def verifyInventoryFile (actual : ExtractedInventory) (expected : ManifestFile) :
    Except PackageError Unit :=
  match actual[expected.path]? with
  | none => .error (.inventoryMismatch ("manifest file is absent: " ++ expected.path))
  | some (path, size) =>
    failIf (size ≠ expected.sizeBytes ∨ sha256 path.content ≠ expected.sha256)
      (.inventoryMismatch ("size or digest mismatch: " ++ expected.path))

/-- `verify_inventory` (lines 219–230). -/
def verifyInventory (manifest : PackageManifestV1) (actual : ExtractedInventory) :
    Except PackageError ExtractedInventory := do
  let actual := (actual.erase manifestPath).erase manifestSignaturePath
  verifyInventoryCount actual manifest
  manifest.files.forM (verifyInventoryFile sha256 actual)
  pure actual

end Extracted

/-! ## The installed package -/

/-- `MAX_PAYLOAD_BYTES` (`installed_package.rs`, line 17). -/
def maxPayloadBytes : ℕ := 1024 * 1024 * 1024

section Installed

variable (sha256 : List UInt8 → Sha256Digest) (platform : Platform) (key : OsStr → OsStr)

/-- `BTreeMap<String, PathBuf>`. -/
abbrev InstalledInventory := Std.TreeMap String PackageFile

/-- `insert_payload` (lines 190–206). -/
def insertPayload (files : InstalledInventory) (path : PackageFile) :
    Except PackageError InstalledInventory :=
  let relative := (path.relative platform).toLower
  match files[relative]? with
  | some _ =>
    .error (.inventoryMismatch "installed package has case-ambiguous payload paths")
  | none => .ok (files.insert relative path)

/-- `collect_regular_payloads` (lines 152–188): the walk meets every file of the tree once. -/
def collectRegularPayloads (walk : List PackageFile) : Except PackageError InstalledInventory :=
  walk.foldlM (insertPayload platform) ∅

/-- `reject_unexpected_payloads` (lines 243–257). -/
def rejectUnexpectedPayloads (actual : InstalledInventory) (special : List String)
    (expected : Std.TreeMap String ManifestFile) : Except PackageError Unit :=
  match actual.keys.find? fun relative =>
    !special.contains relative && !expected.contains relative with
  | some relative => .error (.inventoryMismatch ("unexpected regular payload file: " ++ relative))
  | none => .ok ()

/-- `PathPolicy::existing_file` of a relative path in a tree without links: the file system finds the
    entry by the keys of its names, and the canonical path spells the entry's own names. -/
def existingFile (tree : List PackageFile) (candidate : String) : Except PackageError PackageFile :=
  let path := ofText candidate
  let names := (normalNames platform path).map key
  match rejectLexicalEscape platform path, rejectUnc path false with
  | .error error, _ | .ok (), .error error => .error (.platform error)
  | .ok (), .ok () =>
    match tree.find? fun file => file.names.map key = names with
    | some file => .ok file
    | none =>
      if tree.any fun file => names.isPrefixOf (file.names.map key) then
        .error (.platform (.untrustedPath path "expected a regular file"))
      else .error (.platform (.io ⟨true, "No such file or directory"⟩))

/-- `verify_payload_path` (lines 284–295). -/
def verifyPayloadPath (verified path : PackageFile) (file : ManifestFile) :
    Except PackageError Unit :=
  failIf (verified.names ≠ path.names)
    (.inventoryMismatch ("payload path changed while being verified: " ++ file.path))

/-- `verify_payload_digest` (lines 297–309). -/
def verifyPayloadDigest (path : PackageFile) (file : ManifestFile) : Except PackageError Unit :=
  failIf (path.size ≠ file.sizeBytes ∨ maxPayloadBytes < path.size ∨
      sha256 path.content ≠ file.sha256)
    (.inventoryMismatch ("size or digest mismatch: " ++ file.path))

/-- `verify_expected_payload` (lines 270–282). -/
def verifyExpectedPayload (tree : List PackageFile) (path : Option PackageFile)
    (file : ManifestFile) : Except PackageError Unit :=
  match path with
  | none => .error (.inventoryMismatch ("manifest file is absent: " ++ file.path))
  | some path => do
    let verified ← existingFile platform key tree file.path
    verifyPayloadPath verified path file
    verifyPayloadDigest sha256 verified file

/-- `validate_inventory` (lines 219–241) of the installed tree. -/
def validateInventory (tree : List PackageFile) (manifest : PackageManifestV1)
    (actual : InstalledInventory) : Except PackageError Unit := do
  let special := [manifestPath.toLower, manifestSignaturePath.toLower]
  let expected : Std.TreeMap String ManifestFile :=
    Std.TreeMap.ofList (manifest.files.map fun file => (file.path.toLower, file))
  rejectUnexpectedPayloads actual special expected
  expected.toList.forM fun entry =>
    verifyExpectedPayload sha256 platform key tree actual[entry.1]? entry.2
  failIf (actual.size ≠ manifest.files.length + special.length)
    (.inventoryMismatch "installed package inventory has duplicate or non-regular manifest members")

/-- The inventory of an installed package, from the walk through its tree to the verdict. -/
def validateInstalled (walk : List PackageFile) (manifest : PackageManifestV1) :
    Except PackageError Unit := do
  let actual ← collectRegularPayloads platform walk
  validateInventory sha256 platform key walk manifest actual

end Installed

/-! ## Accepted manifests -/

section Accepted

variable {platform : Platform} {manifest : PackageManifestV1}

theorem validateManifestPathsFrom_ok_iff {seen : List String} {files : List ManifestFile} :
    validateManifestPathsFrom platform seen files = .ok () ↔
      (∀ file ∈ files, isSafeManifestPath platform file.path = true ∧ file.path.toLower ∉ seen) ∧
        (files.map fun file => file.path.toLower).Nodup := by
  induction files generalizing seen with
  | nil => simp [validateManifestPathsFrom]
  | cons file rest ih =>
    rw [validateManifestPathsFrom, except_guard_ok_iff, ih, not_or, Bool.not_eq_false,
      List.forall_mem_cons, List.map_cons, List.nodup_cons]
    simp only [List.mem_cons, not_or, List.mem_map, not_exists, not_and]
    constructor
    · rintro ⟨hfile, hrest, hnodup⟩
      exact ⟨⟨hfile, fun other hother => ⟨(hrest other hother).1, (hrest other hother).2.2⟩⟩,
        fun other hother => (hrest other hother).2.1, hnodup⟩
    · rintro ⟨⟨hfile, hrest⟩, hne, hnodup⟩
      exact ⟨hfile, fun other hother =>
        ⟨(hrest other hother).1, hne other hother, (hrest other hother).2⟩, hnodup⟩

/-- An accepted manifest lists safe paths that differ in more than letter case. -/
theorem validateManifest_paths (h : validateManifest platform manifest = .ok ()) :
    (∀ file ∈ manifest.files, isSafeManifestPath platform file.path = true) ∧
      (manifest.files.map fun file => file.path.toLower).Nodup := by
  simp only [validateManifest, except_bind_ok_iff] at h
  obtain ⟨_, -, _, hpaths, -⟩ := h
  obtain ⟨hsafe, hnodup⟩ := validateManifestPathsFrom_ok_iff.mp hpaths
  exact ⟨fun file hfile => (hsafe file hfile).1, hnodup⟩

/-- Listed files with the same path are the same entry. -/
theorem nodup_paths (h : (manifest.files.map fun file => file.path.toLower).Nodup) :
    (manifest.files.map ManifestFile.path).Nodup := by
  have hmap : (manifest.files.map fun file => file.path.toLower) =
      (manifest.files.map ManifestFile.path).map String.toLower := by
    rw [List.map_map]
    rfl
  rw [hmap] at h
  exact h.of_map _

end Accepted

/-! ## Paths of the tree -/

section Paths

variable {platform : Platform}

theorem TreeName.plain {name : OsStr} (h : TreeName name) (hcolon : .char ':' ∉ name) :
    PlainName platform name := by
  refine ⟨h.ne_nil, h.ne_cur, h.ne_parent, ?_, hcolon⟩
  intro unit hunit
  obtain ⟨c, rfl, hslash, hbackslash⟩ := h.unicode unit hunit
  cases platform <;> simp [isSep, hslash, hbackslash]

/-- Replacing the separators of joined names joins them by slashes. -/
theorem lossy_joinWith {names : List OsStr} (h : ∀ name ∈ names, TreeName name) :
    ((toStringLossy (joinWith (mainSep platform) names)).map fun c =>
        if c = '\\' then '/' else c).map OsUnit.char = joinWith (.char '/') names := by
  have hname : ∀ name ∈ names, ((toStringLossy name).map fun c =>
      if c = '\\' then '/' else c).map OsUnit.char = name := by
    intro name hmem
    simp only [toStringLossy, List.map_map]
    conv_rhs => rw [← List.map_id name]
    apply List.map_congr_left
    intro unit hunit
    obtain ⟨c, rfl, -, hbackslash⟩ := (h name hmem).unicode unit hunit
    simp [OsUnit.lossy, hbackslash]
  have hsep : OsUnit.char (if (mainSep platform).lossy = '\\' then '/' else (mainSep platform).lossy)
      = .char '/' := by cases platform <;> rfl
  induction names with
  | nil => rfl
  | cons name rest ih =>
    have hrestName := ih (fun other hother => h other (List.mem_cons_of_mem _ hother))
      fun other hother => hname other (List.mem_cons_of_mem _ hother)
    by_cases hrest : rest = []
    · subst hrest
      exact hname name List.mem_cons_self
    · rw [joinWith_cons hrest, joinWith_cons hrest, toStringLossy, List.map_append, List.map_append,
        List.map_append, List.map_cons, List.map_cons, List.map_cons, hsep]
      exact congrArg₂ (· ++ OsUnit.char '/' :: ·) (hname name List.mem_cons_self) hrestName

/-- The relative path of a file is its names joined by slashes. -/
theorem PackageFile.ofText_relative (file : PackageFile) :
    ofText (file.relative platform) = joinWith (.char '/') file.names := by
  rw [ofText, PackageFile.relative, String.toList_ofList, lossy_joinWith file.valid]

theorem joinWith_map_char (segments : List (List Char)) :
    joinWith (.char '/') (segments.map (List.map .char)) =
      (['/'].intercalate segments).map OsUnit.char := by
  induction segments with
  | nil => rfl
  | cons segment rest ih =>
    by_cases hrest : rest = []
    · subst hrest
      simp [joinWith]
    · rw [List.map_cons, joinWith_cons (by simpa using hrest), ih,
        List.intercalate_cons_of_ne_nil hrest]
      simp

/-- A safe path is joined from plain names, and each of its components is one of them. -/
theorem isSafeManifestPath_names {value : String} (h : isSafeManifestPath platform value = true) :
    ∃ names : List OsStr, (∀ name ∈ names, PlainName platform name) ∧ names ≠ [] ∧
      ofText value = joinWith (.char '/') names := by
  simp only [isSafeManifestPath, Bool.and_eq_true, decide_eq_true_eq, List.all_eq_true, ne_eq,
    Bool.not_eq_true'] at h
  obtain ⟨⟨⟨⟨⟨-, hbackslash⟩, hcolon⟩, -⟩, hsegments⟩, -⟩ := h
  refine ⟨(value.toList.splitOn '/').map (List.map .char), ?_, ?_, ?_⟩
  · intro name hname
    obtain ⟨segment, hsegment, rfl⟩ := List.mem_map.mp hname
    obtain ⟨⟨hnil, hcur⟩, hparent⟩ := hsegments segment hsegment
    have hinj := List.map_injective_iff.mpr fun a b (h : OsUnit.char a = .char b) => OsUnit.char.inj h
    refine ⟨by simpa using hnil, fun heq => hcur (hinj heq), fun heq => hparent (hinj heq), ?_, ?_⟩
    · intro unit hunit
      obtain ⟨c, hc, rfl⟩ := List.mem_map.mp hunit
      obtain ⟨hmem, hslash⟩ := mem_of_mem_splitOn hsegment hc
      have hne : c ≠ '\\' := fun heq => hbackslash (heq ▸ hmem)
      cases platform <;> simp [isSep, hslash, hne]
    · intro hmem
      obtain ⟨c, hc, heq⟩ := List.mem_map.mp hmem
      cases heq
      exact hcolon (mem_of_mem_splitOn hsegment hc).1
  · simp [List.splitOn_ne_nil]
  · rw [joinWith_map_char, List.intercalate_splitOn, ofText]

/-- Safe paths pass the lexical checks of `existing_file`. -/
theorem lexical_checks_of_safe {value : String} (h : isSafeManifestPath platform value = true) :
    rejectLexicalEscape platform (ofText value) = .ok () ∧ rejectUnc (ofText value) false = .ok () := by
  obtain ⟨names, hplain, hne, hvalue⟩ := isSafeManifestPath_names h
  have hsep := isSep_slash platform
  constructor
  · rw [rejectLexicalEscape, failIf_ok_iff, hvalue, components_joinWith hsep hplain, component_locate]
    simp
  · have hbackslash : '\\' ∉ value.toList := by
      simp only [isSafeManifestPath, Bool.and_eq_true, decide_eq_true_eq] at h
      exact h.1.1.1.1.2
    have hlossy : toStringLossy (ofText value) = value.toList := by
      rw [toStringLossy, ofText, List.map_map]
      exact List.map_id _
    rw [rejectUnc, failIf_ok_iff]
    simp only [true_and, hlossy, not_or]
    constructor
    · intro hstart
      exact hbackslash (hstart.subset (by decide))
    · -- A leading slash would be a separator in front of the first name.
      rintro ⟨rest, hrest⟩
      obtain ⟨name, more, rfl⟩ := List.exists_cons_of_ne_nil hne
      have hname := hplain name List.mem_cons_self
      obtain ⟨unit, tail, after, rfl, hjoin, -⟩ :=
        @joinWith_eq_cons platform (.char '/') name more hname
      rw [hjoin, ofText, ← hrest] at hvalue
      have hunit : unit = .char '/' := (List.cons.inj hvalue).1.symm
      have := hname.no_sep unit List.mem_cons_self
      rw [hunit, hsep] at this
      cases this

/-- Among files with distinct keys, the first with a key is the one with it. -/
theorem find?_eq_some_iff_of_nodup {α κ : Type} [DecidableEq κ] {l : List α} {f : α → κ}
    (h : (l.map f).Nodup) {k : κ} {x : α} :
    (l.find? fun y => f y = k) = some x ↔ x ∈ l ∧ f x = k := by
  constructor
  · intro hfind
    exact ⟨List.mem_of_find?_eq_some hfind, by simpa using List.find?_some hfind⟩
  · rintro ⟨hmem, rfl⟩
    obtain ⟨y, hy⟩ : ∃ y, (l.find? fun y => f y = f x) = some y := by
      apply Option.isSome_iff_exists.mp
      rw [List.find?_isSome]
      exact ⟨x, hmem, by simp⟩
    have heq : f y = f x := by simpa using List.find?_some hy
    rw [hy, List.inj_on_of_nodup_map h (List.mem_of_find?_eq_some hy) hmem heq]

/-- `existing_file` of a safe path finds the file whose names have the keys of the path. -/
theorem existingFile_ok_iff {key : OsStr → OsStr} {tree : List PackageFile} {candidate : String}
    (hsafe : isSafeManifestPath platform candidate = true)
    (hkeys : (tree.map fun file => file.names.map key).Nodup) {file : PackageFile} :
    existingFile platform key tree candidate = .ok file ↔
      file ∈ tree ∧ file.names.map key = (normalNames platform (ofText candidate)).map key := by
  obtain ⟨hescape, hunc⟩ := lexical_checks_of_safe hsafe
  rw [← find?_eq_some_iff_of_nodup hkeys]
  simp only [existingFile, hescape, hunc]
  cases tree.find? fun file => file.names.map key = (normalNames platform (ofText candidate)).map key with
  | some found => simp
  | none =>
    simp only [reduceCtorEq, iff_false]
    split_ifs <;> simp

/-- The path of a file names it by its own names. -/
theorem normalNames_relative {file : PackageFile}
    (hsafe : isSafeManifestPath platform (file.relative platform) = true) :
    normalNames platform (ofText (file.relative platform)) = file.names := by
  have hcolon : ':' ∉ (file.relative platform).toList := by
    simp only [isSafeManifestPath, Bool.and_eq_true, decide_eq_true_eq] at hsafe
    exact hsafe.1.1.1.2
  have htext : ofText (file.relative platform) = joinWith (.char '/') file.names :=
    file.ofText_relative
  rw [htext]
  apply normalNames_joinWith (isSep_slash platform)
  intro name hname
  apply (file.valid name hname).plain
  intro hmem
  have hjoined : .char ':' ∈ joinWith (.char '/') file.names := mem_joinWith hname hmem
  rw [← htext, ofText, List.mem_map] at hjoined
  obtain ⟨c, hc, heq⟩ := hjoined
  cases heq
  exact hcolon hc

theorem ofText_injective {left right : String} (h : ofText left = ofText right) : left = right := by
  apply String.toList_injective
  exact List.map_injective_iff.mpr (fun _ _ heq => OsUnit.char.inj heq) h

/-- A safe path with the names of a file is the path of the file. -/
theorem relative_eq_of_names {file : PackageFile} {candidate : String}
    (hsafe : isSafeManifestPath platform candidate = true)
    (h : file.names = normalNames platform (ofText candidate)) :
    file.relative platform = candidate := by
  obtain ⟨names, hplain, -, hcandidate⟩ := isSafeManifestPath_names hsafe
  apply ofText_injective
  rw [file.ofText_relative, h, hcandidate, normalNames_joinWith (isSep_slash platform) hplain]

end Paths

end BaselineOps.Package
