import Mathlib
import BaselineOps.Lib.EState
import BaselineOps.Lib.OsPath
import BaselineOps.Domain.PlanDocument

/-!
# Resolving untrusted paths

Model of `PathPolicy` (`crates/baselineops-windows/src/safe_path.rs` and `safe_path/resolve.rs`), of
the two commands that hand a resolved profile path to each other (`plan.rs`, `apply/input.rs` and
`resources.rs` of the CLI), and of the entries that `newest_bundle` resolves.

The file system enters as `FileSystem`; what its documentation promises of `fs::canonicalize` is
`FileSystem.Lawful`: on Windows a canonical path is spelled with the verbatim prefix, on Unix it is
the root followed by names.

* `existing_eq_error_of_verbatim`: a path in the verbatim spelling is refused as a UNC path.
* `existingFile_rooted`: a canonical Unix path below its parent is accepted as it is.
* `resolution_idempotent_iff`: resolved paths can be resolved again exactly off Windows.
* `newestBundle_ok_iff`: exactly there the support bundles under the root of a policy can be opened.
-/

namespace BaselineOps.SafePath

open BaselineOps.Lib BaselineOps.Lib.OsPath BaselineOps.Domain

/-! ## The file system -/

/-- An `io::Error`, as far as it is looked at. -/
structure IoError where
  notFound : Bool
  description : String
  deriving DecidableEq

/-- `fs::Metadata` of `symlink_metadata`. -/
structure Metadata where
  isSymlink : Bool
  reparseAttribute : Bool
  deriving DecidableEq

/-- One state of the file system. -/
structure FileSystem where
  canonicalize : OsStr → Except IoError OsStr
  symlinkMetadata : OsStr → Except IoError Metadata
  isFile : OsStr → Bool
  isDir : OsStr → Bool
  currentDir : Except IoError OsStr
  readDir : OsStr → Except IoError (List OsStr)
  modified : OsStr → Except IoError ℕ

/-- The errors of path resolution: three cases of `PlatformError`. -/
inductive PathError where
  | untrustedPath (path : OsStr) (reason : String)
  | trustFailure (reason : String)
  | io (error : IoError)
  deriving DecidableEq

/-- The `?` on an `io::Result`. -/
def ofIo {α : Type} (result : Except IoError α) : Except PathError α := result.mapError .io

/-! ## `resolve.rs` -/

section Resolve

variable (platform : Platform) (fs : FileSystem)

/-- `reject_lexical_escape` (lines 113–124). -/
def rejectLexicalEscape (path : OsStr) : Except PathError Unit :=
  failIf (.parentDir ∈ (components platform path).map Located.component)
    (.untrustedPath path "parent traversal is forbidden")

/-- `reject_unc` (lines 126–135). -/
def rejectUnc (path : OsStr) (allowUnc : Bool) : Except PathError Unit :=
  let text := toStringLossy path
  failIf (allowUnc = false ∧ ("\\\\".toList <+: text ∨ "//".toList <+: text))
    (.untrustedPath path "UNC paths are forbidden")

/-- `joined_candidate` (lines 48–54). -/
def joinedCandidate (root candidate : OsStr) : OsStr :=
  if isAbsolute platform candidate then candidate else push platform root candidate

/-- `has_windows_reparse_attribute` (lines 165–176). -/
def hasWindowsReparseAttribute (metadata : Metadata) : Bool :=
  match platform with
  | .windows => metadata.reparseAttribute
  | .unix => false

/-- The loop of `reject_reparse_chain` (lines 92–111) from the path `current` on. -/
def reparseLoop : OsStr → List Located → Except PathError Unit
  | _, [] => .ok ()
  | current, component :: rest =>
    let current := push platform current component.text
    match fs.symlinkMetadata current with
    | .ok metadata =>
      if metadata.isSymlink || hasWindowsReparseAttribute platform metadata then
        .error (.untrustedPath current "reparse points and symbolic links are forbidden")
      else reparseLoop current rest
    | .error error => if error.notFound then reparseLoop current rest else .error (.io error)

/-- `reject_reparse_chain`. -/
def rejectReparseChain (path : OsStr) : Except PathError Unit :=
  reparseLoop platform fs [] (components platform path)

/-- `verify_containment` (lines 137–145). -/
def verifyContainment (root joined canonical : OsStr) : Except PathError Unit :=
  failIf (startsWith platform canonical root = false)
    (.untrustedPath joined "canonical path escaped the trusted root")

/-- `canonical_existing` (lines 31–35). -/
def canonicalExisting (root joined : OsStr) : Except PathError OsStr := do
  let canonical ← ofIo (fs.canonicalize joined)
  verifyContainment platform root joined canonical
  pure canonical

/-- `PathKind`. -/
inductive PathKind where
  | file
  | directory

/-- `verify_kind` (lines 147–163). -/
def verifyKind (path : OsStr) : PathKind → Except PathError Unit
  | .file => failIf (fs.isFile path = false) (.untrustedPath path "expected a regular file")
  | .directory => failIf (fs.isDir path = false) (.untrustedPath path "expected a directory")

/-- `existing` (lines 12–29). -/
def existing (root : OsStr) (allowUnc rejectReparsePoints : Bool) (candidate : OsStr)
    (expectedKind : PathKind) : Except PathError OsStr := do
  rejectLexicalEscape platform candidate
  rejectUnc candidate allowUnc
  let joined := joinedCandidate platform root candidate
  if rejectReparsePoints then
    rejectReparseChain platform fs joined
  let canonical ← canonicalExisting platform fs root joined
  verifyKind fs canonical expectedKind
  pure canonical

/-! ## `PathPolicy` -/

/-- `PathPolicy` (`safe_path.rs`, lines 30–34). -/
structure PathPolicy where
  root : OsStr
  allowUnc : Bool
  rejectReparsePoints : Bool

/-- `PathPolicy::new` (lines 42–55). -/
def PathPolicy.new (root : OsStr) : Except PathError PathPolicy := do
  let root ← ofIo (fs.canonicalize root)
  failIf (fs.isDir root = false) (.untrustedPath root "policy root is not a directory")
  pure ⟨root, false, true⟩

/-- `PathPolicy::existing_file` (lines 74–82). -/
def PathPolicy.existingFile (policy : PathPolicy) (candidate : OsStr) : Except PathError OsStr :=
  existing platform fs policy.root policy.allowUnc policy.rejectReparsePoints candidate .file

/-! ## Bundles -/

/-- `is_bundle_name` (`support_bundle_parser.rs`, lines 223–229). -/
def isBundleName (name : OsStr) : Bool :=
  let folded := (toStringLossy name).map Char.toLower
  "supportbundle-".toList.isPrefixOf folded && '.' ∈ folded &&
    (folded.reverse.takeWhile (· ≠ '.')).reverse = "zip".toList

/-- `bundle_candidate` (lines 212–221) for the entry `name` of `root`. -/
def bundleCandidate (root : OsStr) (policy : PathPolicy) (name : OsStr) :
    Except PathError (Option (ℕ × OsStr)) :=
  if isBundleName name = false then .ok none
  else do
    let file ← policy.existingFile platform fs (push platform root name)
    let modified ← ofIo (fs.modified file)
    pure (some (modified, file))

/-- A step of `max_by_key`: of equally new bundles the last one is taken. -/
def newer (best : Option (ℕ × OsStr)) (next : ℕ × OsStr) : Option (ℕ × OsStr) :=
  match best with
  | none => some next
  | some best => if best.1 ≤ next.1 then some next else some best

/-- `newest_bundle` (lines 200–210). -/
def newestBundle (root : OsStr) (policy : PathPolicy) : Except PathError OsStr := do
  let names ← ofIo (fs.readDir root)
  let candidates ← names.mapM (bundleCandidate platform fs root policy)
  match candidates.reduceOption.foldl newer none with
  | some (_, path) => pure path
  | none => .error (.trustFailure "no SupportBundle-*.zip was found")

/-! ## The commands -/

/-- Errors of the CLI. -/
inductive CliError where
  | message (text : String)
  | path (error : PathError)

/-- `absolute_path` (`resources.rs`, lines 273–279). -/
def absolutePath (path : OsStr) : Except PathError OsStr :=
  if isAbsolute platform path then .ok path
  else do
    let directory ← ofIo fs.currentDir
    pure (push platform directory path)

/-- `resolve_input_file` (`resources.rs`, lines 267–271). -/
def resolveInputFile (path : OsStr) : Except CliError OsStr := do
  let absolute ← (absolutePath platform fs path).mapError .path
  match parent platform absolute with
  | none => .error (.message "input file has no parent")
  | some directory =>
    (do
      let policy ← PathPolicy.new fs directory
      policy.existingFile platform fs absolute : Except PathError OsStr).mapError .path

/-- What `plan` retains of its profile (`plan.rs`, lines 14–29, 36–50 and 70–74): the resolved path
    and the source identity of the plan. Off Windows the command is unsupported and writes nothing. -/
def planSource (path : OsStr) (digest : Sha256Digest) :
    Except CliError (Option (OsStr × SourceIdentityV3)) :=
  match platform with
  | .unix => .ok none
  | .windows => do
    let path ← resolveInputFile .windows fs path
    pure (some (path, ⟨.localFile, String.ofList (toStringLossy path), digest⟩))

/-- `canonical_source_path` (`apply/input.rs`, lines 16–30). -/
def canonicalSourcePath (source : SourceIdentityV3) : Except CliError OsStr :=
  if source.kind ≠ .localFile then
    .error (.message "apply accepts only a locally validated profile source")
  else
    let path := ofText source.locator
    if isAbsolute platform path = false then
      .error (.message "profile source must use an absolute canonical path")
    else
      match parent platform path with
      | none => .error (.message "profile source has no parent directory")
      | some directory =>
        (do
          let policy ← PathPolicy.new fs directory
          policy.existingFile platform fs path : Except PathError OsStr).mapError .path

end Resolve

/-! ## What the file system promises -/

/-- A name a directory listing returns: no separator, and no colon on Windows. -/
structure EntryName (platform : Platform) (name : OsStr) : Prop where
  valid : ValidName name
  no_sep : ∀ unit ∈ name, isSep platform unit = false
  no_colon : platform = .windows → .char ':' ∉ name

/-- `name` is a regular file, not a link, directly under `root`. -/
structure ListedFile (platform : Platform) (fs : FileSystem) (root name : OsStr) : Prop where
  listed : ∃ names, fs.readDir root = .ok names ∧ name ∈ names
  regular : fs.isFile (push platform root name) = true
  noLink : ∃ metadata, fs.symlinkMetadata (push platform root name) = .ok metadata ∧
    metadata.isSymlink = false

/-- The spelling of canonical paths. -/
def CanonicalSpelling : Platform → OsStr → Prop
  | .windows, path => ofText "\\\\?\\" <+: path
  | .unix, path => ∃ names, (∀ name ∈ names, ValidName name) ∧ path = rooted names

/-- What the documentation of `fs::canonicalize`, `fs::read_dir` and `fs::metadata` promises. -/
structure FileSystem.Lawful (platform : Platform) (fs : FileSystem) : Prop where
  spelled : ∀ {path canonical}, fs.canonicalize path = .ok canonical →
    CanonicalSpelling platform canonical
  /-- A canonical path is its own canonical form, -/
  fixed : ∀ {path canonical}, fs.canonicalize path = .ok canonical →
    fs.canonicalize canonical = .ok canonical
  /-- it is not a link, -/
  noLink : ∀ {path canonical}, fs.canonicalize path = .ok canonical →
    ∃ metadata, fs.symlinkMetadata canonical = .ok metadata ∧ metadata.isSymlink = false
  /-- and its parent is a canonical directory. -/
  parentDir : ∀ {path canonical directory}, fs.canonicalize path = .ok canonical →
    parent platform canonical = some directory →
      fs.canonicalize directory = .ok directory ∧ fs.isDir directory = true
  disjoint : ∀ path, fs.isFile path = true → fs.isDir path = false
  rootDir : platform = .unix → fs.isDir (rooted []) = true
  entryName : ∀ {directory names name}, fs.readDir directory = .ok names → name ∈ names →
    EntryName platform name
  /-- A file in a canonical directory that is not a link has a canonical path. -/
  entryPath : ∀ {root name}, fs.canonicalize root = .ok root → ListedFile platform fs root name →
    fs.canonicalize (push platform root name) = .ok (push platform root name)

/-! ## Windows -/

section Windows

variable {platform : Platform} {fs : FileSystem} {root path candidate : OsStr}

theorem lossy_of_verbatim (h : ofText "\\\\?\\" <+: path) :
    "\\\\".toList <+: toStringLossy path := by
  obtain ⟨rest, rfl⟩ := h
  exact ⟨_, rfl⟩

theorem PathPolicy.new_ok_iff {policy : PathPolicy} :
    PathPolicy.new fs path = .ok policy ↔
      fs.canonicalize path = .ok policy.root ∧ fs.isDir policy.root = true ∧
        policy.allowUnc = false ∧ policy.rejectReparsePoints = true := by
  simp only [PathPolicy.new, except_bind_ok_iff, ofIo, except_mapError_ok_iff, failIf_ok_iff]
  constructor
  · rintro ⟨root, hroot, _, hdir, hpolicy⟩
    cases hpolicy
    exact ⟨hroot, by simpa using hdir, rfl, rfl⟩
  · obtain ⟨root, allowUnc, rejectReparsePoints⟩ := policy
    rintro ⟨hroot, hdir, rfl, rfl⟩
    exact ⟨root, hroot, (), by simpa using hdir, rfl⟩

/-- What `existing_file` of a policy checks. -/
theorem PathPolicy.existingFile_ok_iff {policy : PathPolicy} (hunc : policy.allowUnc = false)
    (hreparse : policy.rejectReparsePoints = true) {result : OsStr} :
    policy.existingFile platform fs candidate = .ok result ↔
      .parentDir ∉ (components platform candidate).map Located.component ∧
      ¬ ("\\\\".toList <+: toStringLossy candidate ∨ "//".toList <+: toStringLossy candidate) ∧
      rejectReparseChain platform fs (joinedCandidate platform policy.root candidate) = .ok () ∧
      fs.canonicalize (joinedCandidate platform policy.root candidate) = .ok result ∧
      startsWith platform result policy.root = true ∧ fs.isFile result = true := by
  simp only [PathPolicy.existingFile, existing, hunc, hreparse, if_true, except_bind_ok_iff,
    rejectLexicalEscape, rejectUnc, failIf_ok_iff, canonicalExisting, ofIo, except_mapError_ok_iff,
    verifyContainment, verifyKind, true_and]
  constructor
  · rintro ⟨_, hescape, _, htext, _, hchain, _, ⟨_, hcanonical, _, hstarts, hpure⟩, _, hfile, hresult⟩
    cases hpure
    cases hresult
    exact ⟨hescape, htext, hchain, hcanonical, by simpa using hstarts, by simpa using hfile⟩
  · rintro ⟨hescape, htext, hchain, hcanonical, hstarts, hfile⟩
    exact ⟨(), hescape, (), htext, (), hchain, result,
      ⟨result, hcanonical, (), by simpa using hstarts, rfl⟩, (), by simpa using hfile, rfl⟩

/-- A policy resolves nothing that begins with two backslashes. -/
theorem PathPolicy.existingFile_ne_ok {policy : PathPolicy} (hnew : PathPolicy.new fs path = .ok policy)
    (h : "\\\\".toList <+: toStringLossy candidate) (result : OsStr) :
    policy.existingFile platform fs candidate ≠ .ok result := by
  obtain ⟨-, -, hunc, hreparse⟩ := PathPolicy.new_ok_iff.mp hnew
  intro hok
  exact ((PathPolicy.existingFile_ok_iff hunc hreparse).mp hok).2.1 (.inl h)

end Windows

/-! ## Resolving again -/

/-- The path is resolved to itself by the policy of its parent directory. -/
def Reopens (platform : Platform) (fs : FileSystem) (path : OsStr) : Prop :=
  ∃ directory policy, parent platform path = some directory ∧
    PathPolicy.new fs directory = .ok policy ∧ policy.existingFile platform fs path = .ok path

theorem FileSystem.Lawful.not_reopens {fs : FileSystem} (hfs : fs.Lawful .windows) {path canonical : OsStr}
    (h : fs.canonicalize path = .ok canonical) : ¬ Reopens .windows fs canonical := by
  rintro ⟨directory, policy, -, hnew, hfile⟩
  exact PathPolicy.existingFile_ne_ok hnew (lossy_of_verbatim (hfs.spelled h)) _ hfile

section Unix

variable {fs : FileSystem} (hfs : fs.Lawful .unix)

include hfs in
/-- Every ancestor of a canonical path is canonical. -/
theorem FileSystem.Lawful.canonicalize_rooted {names more : List OsStr}
    (hvalid : ∀ name ∈ names ++ more, ValidName name)
    (h : fs.canonicalize (rooted (names ++ more)) = .ok (rooted (names ++ more))) :
    fs.canonicalize (rooted names) = .ok (rooted names) := by
  induction more using List.reverseRecOn with
  | nil => simpa using h
  | append_singleton more name ih =>
    rw [← List.append_assoc] at h hvalid
    exact ih (fun other hother => hvalid other (List.mem_append_left _ hother))
      (hfs.parentDir h (parent_rooted hvalid)).1

include hfs in
/-- No component of a canonical path is a link. -/
theorem FileSystem.Lawful.reparseLoop_rooted {names : List OsStr} (done : List OsStr) (offset : ℕ)
    (hvalid : ∀ name ∈ done ++ names, ValidName name)
    (h : fs.canonicalize (rooted (done ++ names)) = .ok (rooted (done ++ names))) :
    reparseLoop .unix fs (rooted done) (locate offset names) = .ok () := by
  induction names generalizing done offset with
  | nil => rfl
  | cons name names ih =>
    have happend : done ++ name :: names = (done ++ [name]) ++ names := by simp
    rw [happend] at h hvalid
    have hpush : push .unix (rooted done) name = rooted (done ++ [name]) :=
      push_rooted (fun other hother => hvalid other (by simp [hother])) (hvalid name (by simp))
    obtain ⟨metadata, hmetadata, hlink⟩ := hfs.noLink (hfs.canonicalize_rooted hvalid h)
    rw [locate, reparseLoop, hpush, hmetadata]
    simp only [hlink, hasWindowsReparseAttribute, Bool.or_self]
    exact ih (done ++ [name]) _ hvalid h

include hfs in
theorem FileSystem.Lawful.rejectReparseChain_rooted {names : List OsStr}
    (hvalid : ∀ name ∈ names, ValidName name)
    (h : fs.canonicalize (rooted names) = .ok (rooted names)) :
    rejectReparseChain .unix fs (rooted names) = .ok () := by
  obtain ⟨metadata, hmetadata, hlink⟩ :=
    hfs.noLink (@FileSystem.Lawful.canonicalize_rooted fs hfs [] names hvalid h)
  have hroot : push .unix [] [.char '/'] = rooted [] := rfl
  rw [rejectReparseChain, components_rooted hvalid, reparseLoop, hroot, hmetadata]
  simp only [hlink, hasWindowsReparseAttribute, Bool.or_self]
  exact hfs.reparseLoop_rooted [] 1 hvalid h

theorem lossy_ne_slash {unit : OsUnit} (h : isSep .unix unit = false) : unit.lossy ≠ '/' := by
  cases unit with
  | char c =>
    rintro rfl
    cases h
  | ill value =>
    show Char.ofNat 0xfffd ≠ '/'
    decide

theorem lossy_rooted {names : List OsStr} (hvalid : ∀ name ∈ names, ValidName name) :
    ¬ ("\\\\".toList <+: toStringLossy (rooted names) ∨
      "//".toList <+: toStringLossy (rooted names)) := by
  rintro (⟨rest, hrest⟩ | ⟨rest, hrest⟩)
  · exact absurd (List.cons.inj hrest).1 (by decide)
  · -- the unit behind the root belongs to a name
    have htail : '/' :: rest = (joinNames names).map OsUnit.lossy := (List.cons.inj hrest).2
    cases names with
    | nil => cases htail
    | cons name names =>
      have hname := hvalid name List.mem_cons_self
      obtain ⟨unit, start, rfl⟩ := List.exists_cons_of_ne_nil hname.ne_nil
      have hjoin : ∃ tail, joinNames ((unit :: start) :: names) = unit :: tail := by
        cases names with
        | nil => exact ⟨start, rfl⟩
        | cons next names => exact ⟨_, rfl⟩
      obtain ⟨tail, hjoin⟩ := hjoin
      rw [hjoin] at htail
      exact lossy_ne_slash (hname.no_sep unit List.mem_cons_self) (List.cons.inj htail).1.symm

include hfs in
/-- A policy accepts a canonical file directly under its root as it is. -/
theorem FileSystem.Lawful.existingFile_rooted {names : List OsStr} {name : OsStr} {policy : PathPolicy}
    (hvalid : ∀ other ∈ names ++ [name], ValidName other)
    (h : fs.canonicalize (rooted (names ++ [name])) = .ok (rooted (names ++ [name])))
    (hfile : fs.isFile (rooted (names ++ [name])) = true) (hroot : policy.root = rooted names)
    (hunc : policy.allowUnc = false) (hreparse : policy.rejectReparsePoints = true) :
    policy.existingFile .unix fs (rooted (names ++ [name])) = .ok (rooted (names ++ [name])) := by
  rw [PathPolicy.existingFile_ok_iff hunc hreparse]
  have hjoined : joinedCandidate .unix policy.root (rooted (names ++ [name])) =
      rooted (names ++ [name]) := by
    rw [joinedCandidate, if_pos (isAbsolute_rooted _)]
  rw [hjoined, hroot]
  refine ⟨?_, lossy_rooted hvalid, hfs.rejectReparseChain_rooted hvalid h, h,
    startsWith_rooted hvalid, hfile⟩
  rw [components_rooted hvalid, List.map_cons, component_locate]
  simp

include hfs in
/-- A file that was resolved is resolved to itself below its parent. -/
theorem FileSystem.Lawful.reopens {path canonical : OsStr}
    (h : fs.canonicalize path = .ok canonical) (hfile : fs.isFile canonical = true) :
    Reopens .unix fs canonical := by
  obtain ⟨names, hvalid, rfl⟩ := hfs.spelled h
  have hfixed := hfs.fixed h
  rcases List.eq_nil_or_concat names with rfl | ⟨init, last, rfl⟩
  · -- the root is a directory
    have hdir := hfs.rootDir rfl
    rw [hfs.disjoint _ hfile] at hdir
    cases hdir
  · rw [List.concat_eq_append] at *
    have hparent := parent_rooted hvalid
    obtain ⟨hcanonical, hdir⟩ := hfs.parentDir h hparent
    exact ⟨rooted init, ⟨rooted init, false, true⟩, hparent,
      PathPolicy.new_ok_iff.mpr ⟨hcanonical, hdir, rfl, rfl⟩,
      hfs.existingFile_rooted hvalid hfixed hfile rfl rfl rfl⟩

end Unix

/-! ## Entries of a canonical directory on Windows -/

section Entries

/-- A verbatim path has a verbatim prefix that covers its first four units. -/
theorem parsePrefix_verbatim {root : OsStr} (h : ofText "\\\\?\\" <+: root) :
    ∃ parsed, parsePrefix .windows root = some parsed ∧ parsed.isVerbatim = true ∧ 4 ≤ parsed.len := by
  obtain ⟨rest, rfl⟩ := h
  have hslashes : stripStart "\\\\" (ofText "\\\\?\\" ++ rest) = some (ofText "?\\" ++ rest) := by
    simp [stripStart, ofText]
  have hverbatim : stripStart "?\\" (ofText "?\\" ++ rest) = some rest := by
    simp [stripStart, ofText]
  have hfour : .char '/' ∉ (ofText "\\\\?\\" ++ rest).take 4 := by
    simp [ofText]
  rw [parsePrefix]
  simp only [hslashes, hverbatim, if_neg hfour]
  split
  · exact ⟨_, rfl, rfl, by simp only [PathPrefix.len]; omega⟩
  · split
    · exact ⟨_, rfl, rfl, by simp [PathPrefix.len]⟩
    · exact ⟨_, rfl, rfl, by simp [PathPrefix.len]⟩

/-- An entry name is neither absolute nor does it have a prefix. -/
theorem EntryName.relative {name : OsStr} (h : EntryName .windows name) :
    isAbsolute .windows name = false ∧ (parsePrefix .windows name).isSome = false := by
  obtain ⟨first, rest, rfl⟩ := List.exists_cons_of_ne_nil h.valid.ne_nil
  have hfirst := h.no_sep first List.mem_cons_self
  have hslash : first ≠ .char '/' ∧ first ≠ .char '\\' := by simpa [isSep] using hfirst
  have hstrip : stripStart "\\\\" (first :: rest) = none := by
    simp [stripStart, ofText, hslash]
  have hdrive : parseDrive (first :: rest) = none := by
    unfold parseDrive
    split
    · next drive tail heq =>
      have hcolon : OsUnit.char ':' ∈ first :: rest := by simp [heq]
      exact absurd hcolon (h.no_colon rfl)
    · rfl
  have hnone : parsePrefix .windows (first :: rest) = none := by
    rw [parsePrefix, hstrip]
    simp [hdrive]
  rw [isAbsolute, hnone]
  simp

/-- Pushing components behind a prefix keeps the prefix. -/
theorem head?_pushComponent {buffer : List Located} {first next : Located} {parsed : PathPrefix}
    (hfirst : first.component = .pathPrefix parsed) (h : buffer.head? = some first) :
    (pushComponent buffer next).head? = some first := by
  obtain ⟨tail, rfl⟩ := List.head?_eq_some_iff.mp h
  unfold pushComponent
  split
  · rfl
  · rfl
  · split
    · next name hlast =>
      cases tail with
      | nil =>
        rw [List.getLast?_singleton, Option.map_some, hfirst] at hlast
        cases hlast
      | cons second tail => rfl
    · rfl
  · rfl
  · rfl

theorem head?_foldl_pushComponent {buffer added : List Located} {first : Located}
    {parsed : PathPrefix} (hfirst : first.component = .pathPrefix parsed)
    (h : buffer.head? = some first) : (added.foldl pushComponent buffer).head? = some first := by
  induction added generalizing buffer with
  | nil => exact h
  | cons next added ih => exact ih (head?_pushComponent hfirst h)

/-- The path of an entry of a verbatim directory is verbatim. -/
theorem push_verbatim {root name : OsStr} (hroot : ofText "\\\\?\\" <+: root)
    (hname : EntryName .windows name) : ofText "\\\\?\\" <+: push .windows root name := by
  obtain ⟨parsed, hparsed, hverbatim, hlen⟩ := parsePrefix_verbatim hroot
  obtain ⟨habsolute, hprefixed⟩ := hname.relative
  have hhead : (components .windows root).head? =
      some ⟨.pathPrefix parsed, root.take parsed.len, parsed.len⟩ := by
    simp [components, hparsed, prefixLen]
  have hbase : isVerbatim .windows root = true := by
    simp [isVerbatim, hparsed, hverbatim]
  have hpush : push .windows root name = joinComponents .windows false
      ((components .windows name).foldl pushComponent (components .windows root)) := by
    simp [push, habsolute, hprefixed, hbase, hname.valid.ne_nil]
  obtain ⟨tail, htail⟩ := List.head?_eq_some_iff.mp
    (@head?_foldl_pushComponent _ (components .windows name) _ _ rfl hhead)
  rw [hpush, htail, joinComponents]
  refine List.IsPrefix.trans ?_ (List.prefix_append _ _)
  show ofText "\\\\?\\" <+: root.take parsed.len
  exact List.prefix_take_iff.mpr ⟨hroot, hlen⟩

end Entries

/-! ## Idempotence -/

section Idempotence

variable {platform : Platform} {fs : FileSystem}

theorem resolveInputFile_ok {profile path : OsStr}
    (h : resolveInputFile platform fs profile = .ok path) :
    ∃ joined, fs.canonicalize joined = .ok path := by
  rw [resolveInputFile, except_bind_ok_iff] at h
  obtain ⟨absolute, -, h⟩ := h
  split at h
  · cases h
  · rw [except_mapError_ok_iff, except_bind_ok_iff] at h
    obtain ⟨policy, hnew, hfile⟩ := h
    obtain ⟨-, -, hunc, hreparse⟩ := PathPolicy.new_ok_iff.mp hnew
    exact ⟨_, ((PathPolicy.existingFile_ok_iff hunc hreparse).mp hfile).2.2.2.1⟩

/-- `apply` refuses a locator that begins with two backslashes. -/
theorem canonicalSourcePath_ne_ok {source : SourceIdentityV3} {text : List Char}
    (hlocator : source.locator = String.ofList text) (h : "\\\\".toList <+: text) (path : OsStr) :
    canonicalSourcePath platform fs source ≠ .ok path := by
  intro hok
  have htext : toStringLossy (ofText source.locator) = text := by
    rw [toStringLossy, ofText, hlocator, String.toList_ofList, List.map_map]
    exact List.map_id _
  simp only [canonicalSourcePath] at hok
  split_ifs at hok
  split at hok
  · cases hok
  · rw [except_mapError_ok_iff, except_bind_ok_iff] at hok
    obtain ⟨policy, hnew, hfile⟩ := hok
    exact PathPolicy.existingFile_ne_ok hnew (htext ▸ h) _ hfile

/-- Off Windows a policy resolves a file listed under its root to itself. -/
theorem existingFile_listed (hfs : fs.Lawful .unix) {directory name : OsStr} {policy : PathPolicy}
    (hnew : PathPolicy.new fs directory = .ok policy) (hlisted : ListedFile .unix fs policy.root name) :
    policy.existingFile .unix fs (push .unix policy.root name) = .ok (push .unix policy.root name) := by
  obtain ⟨hcanonical, -, hunc, hreparse⟩ := PathPolicy.new_ok_iff.mp hnew
  obtain ⟨names, hvalid, hroot⟩ := hfs.spelled hcanonical
  obtain ⟨listed, hread, hmem⟩ := hlisted.listed
  have hname := (hfs.entryName hread hmem).valid
  have hpush : push .unix policy.root name = rooted (names ++ [name]) := by
    rw [hroot]
    exact push_rooted hvalid hname
  have hentry := hfs.entryPath (hfs.fixed hcanonical) hlisted
  have hregular := hlisted.regular
  rw [hpush] at hentry hregular ⊢
  refine hfs.existingFile_rooted ?_ hentry hregular hroot hunc hreparse
  intro other hother
  rcases List.mem_append.mp hother with hother | hother
  · exact hvalid other hother
  · rw [List.mem_singleton.mp hother]
    exact hname

/-- On Windows a policy refuses whatever is listed under its root. -/
theorem existingFile_listed_ne_ok (hfs : fs.Lawful .windows) {directory name : OsStr}
    {names : List OsStr} {policy : PathPolicy} (hnew : PathPolicy.new fs directory = .ok policy)
    (hread : fs.readDir policy.root = .ok names) (hmem : name ∈ names) (path : OsStr) :
    policy.existingFile .windows fs (push .windows policy.root name) ≠ .ok path := by
  obtain ⟨hcanonical, -⟩ := PathPolicy.new_ok_iff.mp hnew
  have hverbatim := push_verbatim (hfs.spelled hcanonical) (hfs.entryName hread hmem)
  exact PathPolicy.existingFile_ne_ok hnew (lossy_of_verbatim hverbatim) path

/-- Resolved paths are resolved to themselves, the locators of plans are accepted by `apply`, and
    the files listed under a policy's root are accepted by the policy, exactly off Windows: there
    every canonical path is spelled with the verbatim prefix, which the policies take for UNC. -/
theorem resolution_idempotent_iff (hfs : fs.Lawful platform) :
    (∀ directory candidate policy path, PathPolicy.new fs directory = .ok policy →
      policy.existingFile platform fs candidate = .ok path →
      (Reopens platform fs path ↔ platform ≠ .windows)) ∧
    (∀ profile digest path source, planSource platform fs profile digest = .ok (some (path, source)) →
      (canonicalSourcePath platform fs source = .ok path ↔ platform ≠ .windows)) ∧
    (∀ directory policy name, PathPolicy.new fs directory = .ok policy →
      ListedFile platform fs policy.root name →
      ((∃ path, policy.existingFile platform fs (push platform policy.root name) = .ok path) ↔
        platform ≠ .windows)) := by
  cases platform with
  | windows =>
    refine ⟨?_, ?_, ?_⟩
    · intro directory candidate policy path hnew hfile
      obtain ⟨-, -, hunc, hreparse⟩ := PathPolicy.new_ok_iff.mp hnew
      have hcanonical := ((PathPolicy.existingFile_ok_iff hunc hreparse).mp hfile).2.2.2.1
      exact iff_of_false (hfs.not_reopens hcanonical) (by simp)
    · intro profile digest path source hplan
      rw [planSource, except_bind_ok_iff] at hplan
      obtain ⟨resolved, hresolved, hpure⟩ := hplan
      cases hpure
      obtain ⟨joined, hcanonical⟩ := resolveInputFile_ok hresolved
      exact iff_of_false
        (canonicalSourcePath_ne_ok rfl (lossy_of_verbatim (hfs.spelled hcanonical)) _) (by simp)
    · intro directory policy name hnew hlisted
      obtain ⟨names, hread, hmem⟩ := hlisted.listed
      refine iff_of_false ?_ (by simp)
      rintro ⟨path, hfile⟩
      exact existingFile_listed_ne_ok hfs hnew hread hmem path hfile
  | unix =>
    refine ⟨?_, ?_, ?_⟩
    · intro directory candidate policy path hnew hfile
      obtain ⟨-, -, hunc, hreparse⟩ := PathPolicy.new_ok_iff.mp hnew
      obtain ⟨-, -, -, hcanonical, -, hregular⟩ :=
        (PathPolicy.existingFile_ok_iff hunc hreparse).mp hfile
      exact iff_of_true (hfs.reopens hcanonical hregular) (by simp)
    · intro profile digest path source hplan
      cases hplan
    · intro directory policy name hnew hlisted
      exact iff_of_true ⟨_, existingFile_listed hfs hnew hlisted⟩ (by simp)

/-- What stands under `root` where support bundles are kept: each of them a regular file with a time. -/
structure ListedBundles (platform : Platform) (fs : FileSystem) (root : OsStr) (names : List OsStr) :
    Prop where
  listed : fs.readDir root = .ok names
  found : ∃ name ∈ names, isBundleName name = true
  regular : ∀ name ∈ names, isBundleName name = true → ListedFile platform fs root name
  dated : ∀ name ∈ names, isBundleName name = true →
    ∃ time, fs.modified (push platform root name) = .ok time

/-- Of one bundle or more there is a newest one. -/
theorem foldl_newer_exists {bundles : List (ℕ × OsStr)} (hne : bundles ≠ [])
    (best : Option (ℕ × OsStr)) : ∃ newest, bundles.foldl newer best = some newest := by
  rw [← List.dropLast_append_getLast hne, List.foldl_append, List.foldl_cons, List.foldl_nil]
  unfold newer
  split
  · exact ⟨_, rfl⟩
  · split
    · exact ⟨_, rfl⟩
    · exact ⟨_, rfl⟩

/-- `newest_bundle` finds a bundle among those listed under the root of its policy exactly off Windows. -/
theorem newestBundle_ok_iff (hfs : fs.Lawful platform) {directory : OsStr} {names : List OsStr}
    {policy : PathPolicy} (hnew : PathPolicy.new fs directory = .ok policy)
    (hbundles : ListedBundles platform fs policy.root names) :
    (∃ path, newestBundle platform fs policy.root policy = .ok path) ↔ platform ≠ .windows := by
  obtain ⟨name, hmem, hbundle⟩ := hbundles.found
  cases platform with
  | windows =>
    refine iff_of_false ?_ (by simp)
    rintro ⟨path, hpath⟩
    simp only [newestBundle, except_bind_ok_iff, ofIo, except_mapError_ok_iff] at hpath
    obtain ⟨listed, hread, candidates, hcandidates, -⟩ := hpath
    cases hbundles.listed.symm.trans hread
    obtain ⟨candidate, -, hcandidate⟩ := except_mapM_round hcandidates hmem
    rw [bundleCandidate, if_neg (by simp [hbundle]), except_bind_ok_iff] at hcandidate
    obtain ⟨file, hfile, -⟩ := hcandidate
    exact existingFile_listed_ne_ok hfs hnew hread hmem file hfile
  | unix =>
    have hround : ∀ name ∈ names, isBundleName name = true → ∃ time,
        bundleCandidate .unix fs policy.root policy name =
          .ok (some (time, push .unix policy.root name)) := by
      intro name hmem hbundle
      obtain ⟨time, htime⟩ := hbundles.dated name hmem hbundle
      have hfile := existingFile_listed hfs hnew (hbundles.regular name hmem hbundle)
      refine ⟨time, ?_⟩
      rw [bundleCandidate, if_neg (by simp [hbundle])]
      simp only [except_bind_ok_iff, ofIo, except_mapError_ok_iff]
      exact ⟨_, hfile, time, htime, rfl⟩
    obtain ⟨candidates, hcandidates⟩ : ∃ candidates,
        names.mapM (bundleCandidate .unix fs policy.root policy) = .ok candidates := by
      apply except_mapM_exists
      intro name hmem
      cases hname : isBundleName name with
      | false => exact ⟨none, by rw [bundleCandidate, if_pos hname]⟩
      | true =>
        obtain ⟨time, htime⟩ := hround name hmem hname
        exact ⟨_, htime⟩
    -- One of the rounds finds a bundle, so the maximum is one of them.
    have hne : candidates.reduceOption ≠ [] := by
      obtain ⟨candidate, hcandidate, hresult⟩ := except_mapM_round hcandidates hmem
      obtain ⟨time, htime⟩ := hround name hmem hbundle
      cases htime.symm.trans hresult
      exact List.ne_nil_of_mem (List.reduceOption_mem_iff.mpr hcandidate)
    refine iff_of_true ?_ (by simp)
    simp only [newestBundle, except_bind_ok_iff, ofIo, except_mapError_ok_iff]
    obtain ⟨newest, hnewest⟩ := foldl_newer_exists hne none
    refine ⟨newest.2, names, hbundles.listed, candidates, hcandidates, ?_⟩
    rw [hnewest]
    rfl

end Idempotence

/-! ## Two file systems with one profile -/

/-- A file system by its directories and files, each with the other spellings of it. -/
def tableFileSystem (dirs files : List (OsStr × List OsStr)) (listed : OsStr × List OsStr) :
    FileSystem where
  canonicalize path :=
    match (dirs ++ files).find? fun entry => path ∈ entry.1 :: entry.2 with
    | some entry => .ok entry.1
    | none => .error ⟨true, "The system cannot find the path specified."⟩
  symlinkMetadata path :=
    match (dirs ++ files).find? fun entry => path ∈ entry.1 :: entry.2 with
    | some _ => .ok ⟨false, false⟩
    | none => .error ⟨true, "The system cannot find the path specified."⟩
  isFile path := files.any fun entry => path ∈ entry.1 :: entry.2
  isDir path := dirs.any fun entry => path ∈ entry.1 :: entry.2
  currentDir := .error ⟨false, "The current directory is not used."⟩
  readDir path :=
    if path = listed.1 then .ok listed.2
    else .error ⟨false, "The directory is not listed."⟩
  modified _ := .ok 0

section Table

variable {platform : Platform} {dirs files : List (OsStr × List OsStr)} {listed : OsStr × List OsStr}

theorem tableFileSystem_canonicalize {path canonical : OsStr}
    (h : (tableFileSystem dirs files listed).canonicalize path = .ok canonical) :
    canonical ∈ (dirs ++ files).map Prod.fst := by
  simp only [tableFileSystem] at h
  split at h
  · next entry hentry =>
    cases h
    exact List.mem_map_of_mem (List.mem_of_find?_eq_some hentry)
  · cases h

theorem tableFileSystem_symlinkMetadata {path canonical : OsStr}
    (h : (tableFileSystem dirs files listed).canonicalize path = .ok canonical) :
    (tableFileSystem dirs files listed).symlinkMetadata path = .ok ⟨false, false⟩ := by
  simp only [tableFileSystem] at h ⊢
  split at h
  · rfl
  · cases h

/-- What makes a table lawful. -/
theorem tableFileSystem_lawful
    (hspelled : ∀ path ∈ (dirs ++ files).map Prod.fst, CanonicalSpelling platform path)
    (hfixed : ∀ path ∈ (dirs ++ files).map Prod.fst,
      (tableFileSystem dirs files listed).canonicalize path = .ok path)
    (hparent : ∀ path ∈ (dirs ++ files).map Prod.fst, ∀ directory ∈ parent platform path,
      (tableFileSystem dirs files listed).canonicalize directory = .ok directory ∧
        (tableFileSystem dirs files listed).isDir directory = true)
    (hdisjoint : ∀ entry ∈ files, ∀ path ∈ entry.1 :: entry.2,
      (tableFileSystem dirs files listed).isDir path = false)
    (hroot : platform = .unix → (tableFileSystem dirs files listed).isDir (rooted []) = true)
    (hnames : ∀ name ∈ listed.2, EntryName platform name)
    (hentry : ∀ name ∈ listed.2, (tableFileSystem dirs files listed).canonicalize
      (push platform listed.1 name) = .ok (push platform listed.1 name)) :
    (tableFileSystem dirs files listed).Lawful platform := by
  have hread : ∀ {path names}, (tableFileSystem dirs files listed).readDir path = .ok names →
      path = listed.1 ∧ names = listed.2 := by
    intro path names h
    simp only [tableFileSystem] at h
    split_ifs at h with hpath
    cases h
    exact ⟨hpath, rfl⟩
  refine ⟨?_, ?_, ?_, ?_, ?_, hroot, ?_, ?_⟩
  · exact fun h => hspelled _ (tableFileSystem_canonicalize h)
  · exact fun h => hfixed _ (tableFileSystem_canonicalize h)
  · intro path canonical h
    exact ⟨_, tableFileSystem_symlinkMetadata (hfixed _ (tableFileSystem_canonicalize h)), rfl⟩
  · exact fun h hdirectory => hparent _ (tableFileSystem_canonicalize h) _ hdirectory
  · intro path hfile
    simp only [tableFileSystem, List.any_eq_true, decide_eq_true_iff] at hfile
    obtain ⟨entry, hmem, hpath⟩ := hfile
    exact hdisjoint entry hmem path hpath
  · intro directory names name hnames' hname
    obtain ⟨-, rfl⟩ := hread hnames'
    exact hnames name hname
  · intro root name _ hlisted
    obtain ⟨names, hnames', hname⟩ := hlisted.listed
    obtain ⟨rfl, rfl⟩ := hread hnames'
    exact hentry name hname

theorem entryName_profile (platform : Platform) : EntryName platform (ofText "profile.json") := by
  refine ⟨⟨by decide, by decide, by decide, by decide⟩, ?_, fun _ => by decide⟩
  cases platform <;> decide

end Table

/-- `/data/profile.json`. -/
def unixSample : FileSystem :=
  tableFileSystem [(ofText "/", []), (ofText "/data", [])] [(ofText "/data/profile.json", [])]
    (ofText "/data", [ofText "profile.json"])

/-- `C:\data\profile.json`. -/
def windowsSample : FileSystem :=
  tableFileSystem
    [(ofText "\\\\?\\C:\\", [ofText "C:\\"]), (ofText "\\\\?\\C:\\data", [ofText "C:\\data"])]
    [(ofText "\\\\?\\C:\\data\\profile.json", [ofText "C:\\data\\profile.json"])]
    (ofText "\\\\?\\C:\\data", [ofText "profile.json"])

theorem unixSample_lawful : unixSample.Lawful .unix := by
  apply tableFileSystem_lawful
  · have hdata : ValidName (ofText "data") := ⟨by decide, by decide, by decide, by decide⟩
    have hprofile := (entryName_profile .unix).valid
    intro path hpath
    simp only [List.cons_append, List.nil_append, List.map_cons, List.map_nil, List.mem_cons,
      List.not_mem_nil, or_false] at hpath
    rcases hpath with rfl | rfl | rfl
    · exact ⟨[], by simp, by decide⟩
    · exact ⟨[ofText "data"], by simpa using hdata, by decide⟩
    · exact ⟨[ofText "data", ofText "profile.json"], by simpa using ⟨hdata, hprofile⟩, by decide⟩
  · decide +kernel
  · decide +kernel
  · decide +kernel
  · decide +kernel
  · intro name hname
    rw [List.mem_singleton.mp hname]
    exact entryName_profile .unix
  · decide +kernel

theorem windowsSample_lawful : windowsSample.Lawful .windows := by
  apply tableFileSystem_lawful
  · intro path hpath
    show ofText "\\\\?\\" <+: path
    revert path
    decide +kernel
  · decide +kernel
  · decide +kernel
  · decide +kernel
  · intro h
    cases h
  · intro name hname
    rw [List.mem_singleton.mp hname]
    exact entryName_profile .windows
  · decide +kernel

theorem resolution_idempotent_iff_sample :
    (do
      let policy ← PathPolicy.new unixSample (ofText "/data")
      policy.existingFile .unix unixSample (ofText "profile.json") : Except PathError OsStr) =
        .ok (ofText "/data/profile.json") ∧
    Reopens .unix unixSample (ofText "/data/profile.json") := by
  have hnew : PathPolicy.new unixSample (ofText "/data") = .ok ⟨ofText "/data", false, true⟩ := by
    rfl
  have hfile : PathPolicy.existingFile .unix unixSample ⟨ofText "/data", false, true⟩
      (ofText "profile.json") = .ok (ofText "/data/profile.json") := by
    rfl
  refine ⟨by rw [hnew]; exact hfile, ?_⟩
  exact ((resolution_idempotent_iff unixSample_lawful).1 _ _ _ _ hnew hfile).mpr (by simp)

/-- On Windows the resolved path of a profile is refused by the policy of its own directory. -/
theorem resolved_path_not_reopened :
    windowsSample.Lawful .windows ∧
    (do
      let policy ← PathPolicy.new windowsSample (ofText "C:\\data")
      policy.existingFile .windows windowsSample (ofText "C:\\data\\profile.json") :
        Except PathError OsStr) = .ok (ofText "\\\\?\\C:\\data\\profile.json") ∧
    (do
      let policy ← PathPolicy.new windowsSample (ofText "\\\\?\\C:\\data")
      policy.existingFile .windows windowsSample (ofText "\\\\?\\C:\\data\\profile.json") :
        Except PathError OsStr) =
      .error (.untrustedPath (ofText "\\\\?\\C:\\data\\profile.json") "UNC paths are forbidden") ∧
    ¬ Reopens .windows windowsSample (ofText "\\\\?\\C:\\data\\profile.json") := by
  have hcanonical : windowsSample.canonicalize (ofText "C:\\data\\profile.json") =
      .ok (ofText "\\\\?\\C:\\data\\profile.json") := by
    decide +kernel
  exact ⟨windowsSample_lawful, by decide +kernel, by decide +kernel,
    windowsSample_lawful.not_reopens hcanonical⟩

end BaselineOps.SafePath
