import Mathlib
import BaselineOps.Lib.Bytes
import BaselineOps.Lib.EState
import BaselineOps.Lib.OsPath
import BaselineOps.Lib.Split
import BaselineOps.SafePath.Resolve

/-!
# The directory chain of a protected installation

Model of `verify_path_controls` (`crates/baselineops-windows/src/trust/windows.rs`, lines 103–136)
and of the walks it makes (`trust/windows/handle_path.rs` and `trust.rs`). A final path is a path on a
local drive in the extended form, `\\?\C:\…`; `Path::parent` and its like are functions of its names.
What Windows answers to an open or an ACL check is left free; a handle reports one final path.

A slice of a string inside a character panics, and the loop over the ancestors continues from the
path that the opened handle reports, so it is run with fuel: `Halt.loops` is a loop that has not
ended.

Results:
* `FinalPath.components_text`: the components of a final path as the path grammar reads its text.
* `verifyDescendantDirectories_covers`, `verifyAncestors_covers`: the directories of the two walks.
* `ancestorsFrom_ne_loops`: the walk to the volume root ends, whatever the handles report.
* `verifyPathControls_covers`: no level of the chain is left out.
-/

namespace BaselineOps.Trust

open BaselineOps.Lib BaselineOps.Lib.OsPath BaselineOps.SafePath

/-! ## Final paths -/

/-- A name in a final path. -/
structure FinalName (name : List Char) : Prop where
  ne_nil : name ≠ []
  ne_cur : name ≠ ['.']
  ne_parent : name ≠ ['.', '.']
  no_backslash : '\\' ∉ name
  no_slash : '/' ∉ name

/-- A drive-local path in the extended form. -/
structure FinalPath where
  drive : Char
  names : List (List Char)
  alpha : drive.isAlpha = true
  valid : ∀ name ∈ names, FinalName name

namespace FinalPath

/-- The text of a path: `\\?\C:\` and the names. -/
def text (path : FinalPath) : List Char :=
  ['\\', '\\', '?', '\\', path.drive, ':', '\\'] ++ ['\\'].intercalate path.names

/-- The first names of a path. -/
def upTo (path : FinalPath) (count : ℕ) : FinalPath :=
  ⟨path.drive, path.names.take count, path.alpha,
    fun name hname => path.valid name (List.mem_of_mem_take hname)⟩

/-- `Path::parent`. -/
def parent (path : FinalPath) : Option FinalPath :=
  if path.names = [] then none else some (path.upTo (path.names.length - 1))

/-- `path.components().count()`: the prefix, the root and the names. -/
def componentCount (path : FinalPath) : ℕ := 2 + path.names.length

/-- `Path::strip_prefix`: the names below `root`. Drive letters are compared in upper case. -/
def stripRoot (path root : FinalPath) : Option (List (List Char)) :=
  if path.drive.toUpper = root.drive.toUpper ∧ root.names <+: path.names then
    some (path.names.drop root.names.length)
  else none

end FinalPath

/-- `eq_ignore_ascii_case`. -/
def eqIgnoreAsciiCase (left right : List Char) : Bool := left.map Char.toLower = right.map Char.toLower

/-- `text[..length]` and what follows it: `none` is a cut inside a character. -/
def splitAtByte : ℕ → List Char → Option (List Char × List Char)
  | 0, text => some ([], text)
  | _ + 1, [] => none
  | length + 1, c :: text =>
    if c.utf8Size ≤ length + 1 then
      (splitAtByte (length + 1 - c.utf8Size) text).map fun parts => (c :: parts.1, parts.2)
    else none

/-! ## Opening -/

/-- How a run ends without a result. -/
inductive Halt where
  | error (error : PathError)
  | panic
  | loops

/-- `?` on a `PlatformError`. -/
def orHalt {α : Type} (result : Except PathError α) : Except Halt α := result.mapError .error

/-- The fields of `BY_HANDLE_FILE_INFORMATION` that are read. -/
structure FileInformation where
  attributes : UInt32
  numberOfLinks : UInt32

/-- `FILE_ATTRIBUTE_DIRECTORY`. -/
def fileAttributeDirectory : UInt32 := 0x10

/-- `FILE_ATTRIBUTE_REPARSE_POINT`. -/
def fileAttributeReparsePoint : UInt32 := 0x400

/-- What Windows answers: for handles of type `H`. -/
structure Environment (H : Type) where
  createFile : FinalPath → Bool → Except String H
  fileInformation : H → Except String FileInformation
  finalPath : H → Except String FinalPath
  trustedSids : Except PathError Unit
  verifyHandleAcl : H → Bool → Except PathError Unit

variable {H : Type}

/-- `OpenedPath` (`handle_path.rs`, lines 15–19): the answers for one handle. -/
structure OpenedPath (env : Environment H) where
  handle : H
  finalPath : FinalPath
  information : FileInformation
  reported : env.finalPath handle = .ok finalPath
  informed : env.fileInformation handle = .ok information
  noReparse : information.attributes &&& fileAttributeReparsePoint = 0

/-- `untrusted` (lines 317–322). -/
def untrusted (path : FinalPath) (reason : String) : PathError :=
  .untrustedPath (path.text.map .char) reason

/-- A failing Win32 call. -/
def trustFailure {α : Type} (reason : String) : Except String α → Except PathError α
  | .ok a => .ok a
  | .error error => .error (.trustFailure (reason ++ error))

/-- `is_forbidden_protected_path_namespace` (`trust.rs`, lines 399–416). -/
def isForbiddenProtectedPathNamespace (path : FinalPath) : Bool :=
  match path.text with
  | '/' :: '/' :: _ => true
  | '\\' :: '\\' :: rest =>
    match rest with
    | '?' :: '\\' :: drive :: ':' :: sep :: _ => !(drive.isAlpha && (sep = '\\' || sep = '/'))
    | _ => true
  | _ => false

section Open

variable (env : Environment H)

/-- `wide_path` (lines 302–309): the text without its terminator. -/
def widePath (path : FinalPath) : Except PathError (List Char) :=
  if path.text = [] ∨ '\x00' ∈ path.text then
    .error (untrusted path "path contains an interior NUL or is empty")
  else .ok path.text

local instance lawfulBEqChars : LawfulBEq (List Char) := List.instLawfulBEq

/-- `open_no_reparse` (lines 177–189), with the calls of `open_handle`, `file_information`,
    `reject_reparse_path` and `final_path`. -/
def openNoReparse (path : FinalPath) (directory : Bool) : Except PathError (OpenedPath env) :=
  if ['.', '.'] ∈ path.names then .error (untrusted path "parent traversal is forbidden")
  else if isForbiddenProtectedPathNamespace path then
    .error (untrusted path "UNC and device protected-install paths are forbidden")
  else do
    let _ ← widePath path
    let handle ← trustFailure "could not open protected path: " (env.createFile path directory)
    match hinformation : env.fileInformation handle with
    | .error error => .error (.trustFailure ("could not read file identity: " ++ error))
    | .ok information =>
      if hreparse : information.attributes &&& fileAttributeReparsePoint = 0 then
        match hfinal : env.finalPath handle with
        | .error error => .error (.trustFailure error)
        | .ok finalPath => .ok ⟨handle, finalPath, information, hfinal, hinformation, hreparse⟩
      else .error (untrusted path "reparse points are forbidden")

/-- `open_directory` (lines 43–49). -/
def openDirectory (path : FinalPath) : Except PathError (OpenedPath env) := do
  let opened ← openNoReparse env path true
  failIf (opened.information.attributes &&& fileAttributeDirectory = 0)
    (untrusted path "protected root is not a directory")
  pure opened

/-! ## Comparing paths -/

/-- `path_is_within` (lines 263–270): `none` is a panic. -/
def pathIsWithin (candidate root : List Char) : Option Bool :=
  if utf8Length candidate ≤ utf8Length root then some false
  else
    (splitAtByte (utf8Length root) candidate).map fun parts =>
      eqIgnoreAsciiCase parts.1 root && (parts.2.head? = some '\\' || parts.2.head? = some '/')

/-- A slice inside a character ends the run. -/
def orPanic {α : Type} : Option α → Except Halt α
  | some a => .ok a
  | none => .error .panic

/-- `paths_equal` (lines 272–276). -/
def pathsEqual (left right : FinalPath) : Bool := eqIgnoreAsciiCase left.text right.text

/-- `is_volume_root` (lines 278–280). -/
def isVolumeRoot (path : FinalPath) : Bool := path.parent.isNone || path.componentCount ≤ 2

/-! ## The walks -/

/-- `verify_containment` (lines 60–71). -/
def verifyContainment (root executable : OpenedPath env) : Except Halt Unit := do
  let within ← orPanic (pathIsWithin executable.finalPath.text root.finalPath.text)
  orHalt (failIf (within = false) (untrusted executable.finalPath
    "executable final handle path escaped the protected root"))

/-- `verify_single_link` (lines 73–81). -/
def verifySingleLink (executable : OpenedPath env) : Except PathError Unit :=
  failIf (executable.information.numberOfLinks ≠ 1)
    (untrusted executable.finalPath "protected executable must have exactly one hard link")

/-- `verify_object_acl` (`acl.rs`, lines 103–109). -/
def verifyObjectAcl (object : OpenedPath env) (requireProtectedDacl : Bool) : Except PathError Unit :=
  env.verifyHandleAcl object.handle requireProtectedDacl

/-- The condition of `verify_ancestors` on an opened ancestor (line 95). -/
def containsChild (child path : FinalPath) (opened : OpenedPath env) : Except Halt Bool :=
  if pathsEqual opened.finalPath path then orPanic (pathIsWithin child.text opened.finalPath.text)
  else .ok false

/-- The loop of `verify_ancestors` (lines 83–108) behind the child path `child`. -/
def ancestorsFrom : ℕ → FinalPath → Except Halt (List (OpenedPath env))
  | 0, _ => .error .loops
  | fuel + 1, child =>
    match child.parent with
    | none => .ok []
    | some path =>
      if isVolumeRoot path then .ok []
      else do
        let opened ← orHalt (openDirectory env path)
        let contained ← containsChild env child path opened
        orHalt (failIf (contained = false) (untrusted path
          "ancestor handle identity does not contain the protected child"))
        orHalt (verifyObjectAcl env opened false)
        let retained ← ancestorsFrom fuel opened.finalPath
        pure (opened :: retained)

/-- `verify_ancestors`. -/
def verifyAncestors (fuel : ℕ) (root : OpenedPath env) : Except Halt (List (OpenedPath env)) :=
  ancestorsFrom env fuel root.finalPath

end Open

/-- `root` with the first `count` of the names `relative` pushed. -/
def FinalPath.extend (root : FinalPath) (relative : List (List Char))
    (hvalid : ∀ name ∈ relative, FinalName name) (count : ℕ) : FinalPath :=
  ⟨root.drive, root.names ++ relative.take count, root.alpha, fun name hname =>
    (List.mem_append.mp hname).elim (root.valid name) fun h => hvalid name (List.mem_of_mem_take h)⟩

/-- `protected_descendant_directories` (`trust.rs`, lines 419–431): the components of the parent of
    what follows `root` are names. -/
def protectedDescendantDirectories (root executable : FinalPath) : Option (List FinalPath) :=
  match h : executable.stripRoot root with
  | none => none
  | some relative =>
    if relative = [] then none
    else
      have hvalid : ∀ name ∈ relative, FinalName name := by
        intro name hname
        unfold FinalPath.stripRoot at h
        split_ifs at h
        cases h
        exact executable.valid name (List.mem_of_mem_drop hname)
      some ((List.range' 1 (relative.length - 1)).map (root.extend relative hvalid))

section Walks

variable (env : Environment H)

/-- `verified_descendant_directory` (lines 140–158). -/
def verifiedDescendantDirectory (path expectedParent : FinalPath) :
    Except PathError (OpenedPath env) := do
  let opened ← openDirectory env path
  match opened.finalPath.parent with
  | none => .error (untrusted opened.finalPath "protected directory has no parent")
  | some openedParent =>
    failIf (pathsEqual opened.finalPath path = false ∨ pathsEqual openedParent expectedParent = false)
      (untrusted path "protected directory handle identity differs from its expected parent chain")
    verifyObjectAcl env opened false
    pure opened

/-- The loop of `verify_descendant_directories` (lines 110–126): the opened directories, and the
    path behind the last of them. -/
def descendantsFrom : FinalPath → List FinalPath →
    Except PathError (List (OpenedPath env) × FinalPath)
  | parent, [] => .ok ([], parent)
  | parent, path :: paths => do
    let opened ← verifiedDescendantDirectory env path parent
    let rest ← descendantsFrom opened.finalPath paths
    pure (opened :: rest.1, rest.2)

/-- `verify_executable_parent` (lines 160–175). -/
def verifyExecutableParent (executable : OpenedPath env) (expectedParent : FinalPath) :
    Except PathError Unit :=
  failIf (executable.finalPath.parent.any (pathsEqual · expectedParent) = false)
    (untrusted executable.finalPath
      "protected executable is not a direct child of its verified directory chain")

/-- `verify_descendant_directories`. -/
def verifyDescendantDirectories (root executable : OpenedPath env) :
    Except PathError (List (OpenedPath env)) :=
  match protectedDescendantDirectories root.finalPath executable.finalPath with
  | none => .error (untrusted executable.finalPath
      "could not derive protected executable directory chain")
  | some paths => do
    let walked ← descendantsFrom env root.finalPath paths
    verifyExecutableParent env executable walked.2
    pure walked.1

/-- `verify_path_controls` (`windows.rs`, lines 103–118), with `verify_handle_invariants` and
    `verify_acls`. -/
def verifyPathControls (fuel : ℕ) (root executable : OpenedPath env)
    (requireProtectedRootDacl validateAncestors : Bool) :
    Except Halt (List (OpenedPath env)) := do
  verifyContainment env root executable
  orHalt (verifySingleLink env executable)
  orHalt env.trustedSids
  orHalt (verifyObjectAcl env root requireProtectedRootDacl)
  orHalt (verifyObjectAcl env executable false)
  let directories ← orHalt (verifyDescendantDirectories env root executable)
  if validateAncestors then
    let ancestors ← verifyAncestors env fuel root
    pure (directories ++ ancestors)
  else pure directories

end Walks

/-! ## Components -/

/-- The pieces of the names behind the root of an extended path. -/
theorem pieces_names {names : List (List Char)} (h : ∀ name ∈ names, FinalName name) (offset : ℕ) :
    ((pieces (isVerbatimSep .windows) [] ((['\\'].intercalate names).map .char) offset).filterMap
      (parseSingleComponent true)).map Located.component =
      names.map fun name => Component.normal (name.map .char) := by
  have hinj := List.map_injective_iff.mpr fun a b (h : OsUnit.char a = .char b) => OsUnit.char.inj h
  induction names generalizing offset with
  | nil => rfl
  | cons name rest ih =>
    have hname := h name List.mem_cons_self
    have hsep : ∀ unit ∈ name.map OsUnit.char, isVerbatimSep .windows unit = false := by
      intro unit hunit
      obtain ⟨c, hc, rfl⟩ := List.mem_map.mp hunit
      have hne : c ≠ '\\' := fun heq => hname.no_backslash (heq ▸ hc)
      simp [isVerbatimSep, hne]
    have hcomponent : ∀ stop, parseSingleComponent true (name.map .char, stop) =
        some ⟨.normal (name.map .char), name.map .char, stop⟩ := by
      intro stop
      have hcur : name.map OsUnit.char ≠ ofText "." := fun heq => hname.ne_cur (hinj heq)
      have hparent : name.map OsUnit.char ≠ ofText ".." := fun heq => hname.ne_parent (hinj heq)
      simp [parseSingleComponent, hname.ne_nil, hcur, hparent]
    cases rest with
    | nil =>
      have hpieces := pieces_append hsep [] [] offset
      rw [List.append_nil, List.nil_append] at hpieces
      simp [hpieces, pieces, hcomponent]
    | cons next rest =>
      have hrest := ih (fun other hother => h other (List.mem_cons_of_mem _ hother))
      rw [List.intercalate_cons_cons, List.map_append, List.map_append, List.append_assoc,
        pieces_append hsep, List.nil_append, List.map_cons, List.map_nil, List.cons_append,
        List.nil_append, pieces, if_pos (by rfl), List.filterMap_cons, hcomponent, List.map_cons, hrest]
      rfl

/-- The components of a final path: its drive, the root, and its names. -/
theorem FinalPath.components_text (path : FinalPath) :
    (components .windows (path.text.map .char)).map Located.component =
      .pathPrefix (.verbatimDisk path.drive.toUpper) :: .rootDir ::
        path.names.map fun name => .normal (name.map .char) := by
  have hprefix : parsePrefix .windows (path.text.map .char) =
      some (.verbatimDisk path.drive.toUpper) := by
    simp [FinalPath.text, parsePrefix, stripStart, ofText, parseDriveExact, parseDrive, isSep,
      path.alpha]
  have hverbatim : OsPath.isVerbatim .windows (path.text.map .char) = true := by
    simp [OsPath.isVerbatim, hprefix, PathPrefix.isVerbatim]
  have hroot : hasPhysicalRoot .windows (path.text.map .char) = true := by
    rw [hasPhysicalRoot, prefixLen, hprefix]
    rfl
  have hbody : (path.text.map OsUnit.char).drop 7 =
      (['\\'].intercalate path.names).map .char := by simp [FinalPath.text]
  simp only [components, hprefix, hroot, bodySep, hverbatim, prefixLen, PathPrefix.len,
    Option.map_some, Option.getD_some, if_true, hbody, List.cons_append, List.nil_append,
    List.map_cons, pieces_names path.valid]
/-! ## Paths up to ASCII case -/

/-- Two paths are the same up to ASCII case. -/
def SamePath (left right : FinalPath) : Prop :=
  left.text.map Char.toLower = right.text.map Char.toLower

theorem pathsEqual_iff {left right : FinalPath} :
    pathsEqual left right = true ↔ SamePath left right := by
  simp [pathsEqual, eqIgnoreAsciiCase, SamePath]

theorem SamePath.trans {left middle right : FinalPath} (h : SamePath left middle)
    (h' : SamePath middle right) : SamePath left right := Eq.trans h h'

/-- Only a backslash is a backslash in lower case. -/
theorem toLower_eq_backslash {c : Char} (h : c.toLower = '\\') : c = '\\' := by
  rw [Char.toLower] at h
  split_ifs at h with hupper
  · exfalso
    have hvalue := congrArg (fun c : Char => c.val.toNat) h
    simp only [UInt32.toNat_add] at hvalue
    have hle := UInt32.le_iff_toNat_le.mp hupper.1
    have hge := UInt32.le_iff_toNat_le.mp hupper.2
    simp at hvalue hle hge
    omega
  · exact h

/-- Paths are the same up to case when their drives and names are. -/
theorem samePath_iff {left right : FinalPath} :
    SamePath left right ↔ left.drive.toLower = right.drive.toLower ∧
      left.names.map (List.map Char.toLower) = right.names.map (List.map Char.toLower) := by
  have hfold : ∀ path : FinalPath, path.text.map Char.toLower =
      ['\\', '\\', '?', '\\', path.drive.toLower, ':', '\\'] ++
        ['\\'].intercalate (path.names.map (List.map Char.toLower)) := by
    intro path
    rw [FinalPath.text, List.map_append, map_intercalate]
    rfl
  have hsegments : ∀ path : FinalPath, ∀ segment ∈ path.names.map (List.map Char.toLower),
      segment ≠ [] ∧ '\\' ∉ segment := by
    intro path segment hsegment
    obtain ⟨name, hname, rfl⟩ := List.mem_map.mp hsegment
    refine ⟨by simpa using (path.valid name hname).ne_nil, ?_⟩
    intro hmem
    obtain ⟨c, hc, heq⟩ := List.mem_map.mp hmem
    exact (path.valid name hname).no_backslash (toLower_eq_backslash heq ▸ hc)
  unfold SamePath
  rw [hfold left, hfold right]
  constructor
  · intro h
    simp only [List.cons_append, List.cons.injEq, List.nil_append, true_and] at h
    exact ⟨h.1, intercalate_injective (hsegments left) (hsegments right) h.2⟩
  · rintro ⟨hdrive, hnames⟩
    rw [hdrive, hnames]

theorem SamePath.length_eq {left right : FinalPath} (h : SamePath left right) :
    left.names.length = right.names.length := by
  simpa using congrArg List.length (samePath_iff.mp h).2

/-- The ancestors of the same path are the same. -/
theorem SamePath.upTo {left right : FinalPath} (h : SamePath left right) (count : ℕ) :
    SamePath (left.upTo count) (right.upTo count) := by
  obtain ⟨hdrive, hnames⟩ := samePath_iff.mp h
  exact samePath_iff.mpr ⟨hdrive, by simp only [FinalPath.upTo, List.map_take, hnames]⟩

/-! ## What the walks cover -/

section Covers

variable {env : Environment H}

/-- The handle `opened` is that of `directory`: it is no reparse point, reports the path up to ASCII
    case, and its ACL has been checked. -/
structure Covers (env : Environment H) (opened : OpenedPath env) (directory : FinalPath) : Prop where
  same : SamePath opened.finalPath directory
  acl : verifyObjectAcl env opened false = .ok ()
  isDirectory : opened.information.attributes &&& fileAttributeDirectory ≠ 0
  noReparse : opened.information.attributes &&& fileAttributeReparsePoint = 0

theorem orHalt_ok_iff {α : Type} {x : Except PathError α} {a : α} :
    orHalt x = .ok a ↔ x = .ok a := except_mapError_ok_iff

theorem openDirectory_isDirectory {path : FinalPath} {opened : OpenedPath env}
    (h : openDirectory env path = .ok opened) :
    opened.information.attributes &&& fileAttributeDirectory ≠ 0 := by
  simp only [openDirectory, except_bind_ok_iff, failIf_ok_iff] at h
  obtain ⟨opened', -, _, hdirectory, heq⟩ := h
  cases heq
  exact hdirectory

theorem upTo_upTo (path : FinalPath) {fewer count : ℕ} (h : fewer ≤ count) :
    (path.upTo count).upTo fewer = path.upTo fewer := by
  simp [FinalPath.upTo, List.take_take, h]

theorem pathsEqual_of_containsChild {child path : FinalPath} {opened : OpenedPath env}
    (h : containsChild env child path opened = .ok true) :
    pathsEqual opened.finalPath path = true := by
  by_contra hnot
  rw [containsChild, if_neg hnot] at h
  cases h

/-- One round of the walk to the volume root. -/
theorem ancestorsFrom_succ_ok {fuel : ℕ} {child : FinalPath} {retained : List (OpenedPath env)}
    (h : ancestorsFrom env (fuel + 1) child = .ok retained) :
    (child.names.length ≤ 1 ∧ retained = []) ∨
      ∃ opened rest, 1 < child.names.length ∧ retained = opened :: rest ∧
        Covers env opened (child.upTo (child.names.length - 1)) ∧
        ancestorsFrom env fuel opened.finalPath = .ok rest := by
  rw [ancestorsFrom] at h
  by_cases hnames : child.names = []
  · left
    rw [FinalPath.parent, if_pos hnames] at h
    cases h
    exact ⟨by simp [hnames], rfl⟩
  · have hpositive : 0 < child.names.length := List.length_pos_iff.mpr hnames
    have hparent : child.parent = some (child.upTo (child.names.length - 1)) := by
      rw [FinalPath.parent, if_neg hnames]
    have hlength : (child.upTo (child.names.length - 1)).names.length = child.names.length - 1 := by
      simp [FinalPath.upTo]
    rw [hparent] at h
    simp only at h
    split_ifs at h with hroot
    · left
      cases h
      refine ⟨?_, rfl⟩
      simp only [isVolumeRoot, FinalPath.parent, FinalPath.componentCount, Bool.or_eq_true,
        decide_eq_true_eq, hlength] at hroot
      rcases hroot with hnone | hcount
      · split_ifs at hnone with hempty
        · have := congrArg List.length hempty
          rw [hlength, List.length_nil] at this
          omega
        · cases hnone
      · omega
    · right
      simp only [except_bind_ok_iff, orHalt_ok_iff] at h
      obtain ⟨opened, hopened, contained, hcontained, _, hwithin, _, hacl, rest, hrest, heq⟩ := h
      cases heq
      rw [failIf_ok_iff, Bool.not_eq_false] at hwithin
      have hequal := pathsEqual_of_containsChild (hwithin ▸ hcontained)
      refine ⟨opened, rest, ?_, rfl, ?_, hrest⟩
      · by_contra hle
        apply hroot
        simp only [isVolumeRoot, FinalPath.componentCount, hlength, Bool.or_eq_true, decide_eq_true_eq]
        right
        omega
      · exact ⟨pathsEqual_iff.mp hequal, hacl, openDirectory_isDirectory hopened, opened.noReparse⟩

/-- The walk from a path covers its proper ancestors up to the volume root. -/
theorem ancestorsFrom_covers {fuel : ℕ} {child root : FinalPath} {retained : List (OpenedPath env)}
    {count : ℕ} (hcount : count ≤ root.names.length) (hsame : SamePath child (root.upTo count))
    (h : ancestorsFrom env fuel child = .ok retained) :
    List.Forall₂ (Covers env) retained ((List.range' 1 (count - 1)).reverse.map root.upTo) := by
  induction fuel generalizing child retained count with
  | zero => cases h
  | succ fuel ih =>
    have hlength : child.names.length = count := by
      rw [hsame.length_eq]
      simp [FinalPath.upTo, hcount]
    rcases ancestorsFrom_succ_ok h with ⟨hle, rfl⟩ | ⟨opened, rest, hlt, rfl, hcovers, hrest⟩
    · have hzero : count - 1 = 0 := by omega
      rw [hzero]
      exact .nil
    · -- The next path is the parent of the reported one, hence of `child` up to case.
      obtain ⟨less, rfl⟩ : ∃ less, count = less + 2 := ⟨count - 2, by omega⟩
      have hparent : SamePath (child.upTo (less + 1)) (root.upTo (less + 1)) := by
        have hup := hsame.upTo (less + 1)
        rwa [upTo_upTo root (by omega)] at hup
      rw [hlength, show less + 2 - 1 = less + 1 by omega] at hcovers
      have hnext : SamePath opened.finalPath (root.upTo (less + 1)) := hcovers.same.trans hparent
      rw [show less + 2 - 1 = less + 1 by omega, List.range'_1_concat, List.reverse_append,
        List.map_append]
      refine .cons ?_ ?_
      · rw [Nat.add_comm 1 less]
        exact ⟨hnext, hcovers.acl, hcovers.isDirectory, hcovers.noReparse⟩
      · exact ih (by omega) hnext hrest

/-- `verify_ancestors` covers every proper ancestor of the root but the volume root. -/
theorem verifyAncestors_covers {fuel : ℕ} {root : OpenedPath env} {retained : List (OpenedPath env)}
    (h : verifyAncestors env fuel root = .ok retained) :
    List.Forall₂ (Covers env) retained
      ((List.range' 1 (root.finalPath.names.length - 1)).reverse.map root.finalPath.upTo) := by
  apply ancestorsFrom_covers le_rfl _ h
  have hall : root.finalPath.upTo root.finalPath.names.length = root.finalPath := by
    simp [FinalPath.upTo]
  rw [hall]
  rfl

theorem orHalt_ne_loops {α : Type} (x : Except PathError α) : orHalt x ≠ .error .loops := by
  cases x <;> simp [orHalt, Except.mapError]

theorem orPanic_ne_loops {α : Type} (x : Option α) : orPanic x ≠ .error .loops := by
  cases x <;> simp [orPanic]

theorem except_bind_ne_error {ε α β : Type} {x : Except ε α} {f : α → Except ε β} {e : ε}
    (hx : x ≠ .error e) (hf : ∀ a, x = .ok a → f a ≠ .error e) : (x >>= f) ≠ .error e := by
  cases x with
  | error e' =>
    intro h
    cases h
    exact hx rfl
  | ok a => exact hf a rfl

/-- The walk to the volume root ends: the path a handle reports has as many names as the path that
    was opened, one fewer than the child. -/
theorem ancestorsFrom_ne_loops {fuel : ℕ} {child : FinalPath} (h : child.names.length < fuel) :
    ancestorsFrom env fuel child ≠ .error .loops := by
  induction fuel generalizing child with
  | zero => omega
  | succ fuel ih =>
    rw [ancestorsFrom]
    cases hparent : child.parent with
    | none => simp
    | some path =>
      simp only
      split_ifs with hroot
      · simp
      · apply except_bind_ne_error (orHalt_ne_loops _)
        intro opened _
        apply except_bind_ne_error
        · rw [containsChild]
          split_ifs
          · exact orPanic_ne_loops _
          · simp
        intro contained hcontained
        apply except_bind_ne_error (orHalt_ne_loops _)
        intro _ hwithin
        apply except_bind_ne_error (orHalt_ne_loops _)
        intro _ _
        apply except_bind_ne_error
        · have hequal : pathsEqual opened.finalPath path = true := by
            rw [orHalt_ok_iff, failIf_ok_iff, Bool.not_eq_false] at hwithin
            exact pathsEqual_of_containsChild (hwithin ▸ hcontained)
          have hpath : path.names.length < child.names.length := by
            rw [FinalPath.parent] at hparent
            split_ifs at hparent with hnames
            cases hparent
            have := List.length_pos_iff.mpr hnames
            simp only [FinalPath.upTo, List.length_take]
            omega
          apply ih
          rw [(pathsEqual_iff.mp hequal).length_eq]
          omega
        · intro _ _
          simp [pure, Except.pure]

/-- The walk down covers the listed directories and ends at the last of them. -/
theorem descendantsFrom_covers {parent last : FinalPath} {paths : List FinalPath}
    {opened : List (OpenedPath env)} (h : descendantsFrom env parent paths = .ok (opened, last)) :
    List.Forall₂ (Covers env) opened paths ∧
      last = ((opened.map OpenedPath.finalPath).getLast?).getD parent := by
  induction paths generalizing parent opened with
  | nil =>
    cases h
    exact ⟨.nil, rfl⟩
  | cons path paths ih =>
    simp only [descendantsFrom, except_bind_ok_iff] at h
    obtain ⟨first, hfirst, ⟨rest, last'⟩, hrest, heq⟩ := h
    cases heq
    obtain ⟨hcovers, hlast⟩ := ih hrest
    simp only [verifiedDescendantDirectory, except_bind_ok_iff] at hfirst
    obtain ⟨handle, hopened, hfirst⟩ := hfirst
    split at hfirst
    · cases hfirst
    · simp only [except_bind_ok_iff, failIf_ok_iff, not_or, Bool.not_eq_false] at hfirst
      obtain ⟨_, ⟨hequal, -⟩, _, hacl, heq⟩ := hfirst
      cases heq
      refine ⟨.cons ⟨pathsEqual_iff.mp hequal, hacl, openDirectory_isDirectory hopened,
        first.noReparse⟩ hcovers, ?_⟩
      rw [hlast]
      cases rest with
      | nil => rfl
      | cons next rest => simp [List.getLast?_cons]

/-- The directories between the root and the executable. -/
theorem protectedDescendantDirectories_eq {root executable : FinalPath} {paths : List FinalPath}
    (h : protectedDescendantDirectories root executable = some paths) :
    root.names.length < executable.names.length ∧
    SamePath root (executable.upTo root.names.length) ∧
    List.Forall₂ SamePath paths
      ((List.range' (root.names.length + 1) (executable.names.length - 1 - root.names.length)).map
        executable.upTo) := by
  unfold protectedDescendantDirectories at h
  split at h
  · cases h
  · rename_i relative hrelative
    split_ifs at h with hempty
    cases h
    have hstrip := hrelative
    unfold FinalPath.stripRoot at hstrip
    split_ifs at hstrip with hroot
    cases hstrip
    obtain ⟨hdrive, hnames⟩ := hroot
    have hlower : root.drive.toLower = executable.drive.toLower := by
      rw [← Char.toLower_toUpper_eq_toLower root.drive, ← hdrive, Char.toLower_toUpper_eq_toLower]
    have htake : executable.names.take root.names.length = root.names :=
      (List.prefix_iff_eq_take.mp hnames).symm
    have hlength : root.names.length < executable.names.length := by
      by_contra hle
      apply hempty
      rw [List.drop_eq_nil_iff]
      omega
    refine ⟨hlength, samePath_iff.mpr ⟨hlower, by simp [FinalPath.upTo, htake]⟩, ?_⟩
    have hrange : List.range' (root.names.length + 1)
        (executable.names.length - 1 - root.names.length) =
        (List.range' 1 ((executable.names.drop root.names.length).length - 1)).map
          (root.names.length + ·) := by
      rw [List.map_add_range', List.length_drop]
      congr 1
      omega
    rw [hrange, List.map_map, List.forall₂_map_left_iff, List.forall₂_map_right_iff]
    apply List.forall₂_same.mpr
    intro count _
    refine samePath_iff.mpr ⟨hlower, ?_⟩
    simp only [FinalPath.extend, FinalPath.upTo, Function.comp_apply, List.take_add, htake]

/-- What covers paths covers the same paths in another spelling. -/
theorem forall₂_covers_same {opened : List (OpenedPath env)} {paths directories : List FinalPath}
    (hcovers : List.Forall₂ (Covers env) opened paths)
    (hsame : List.Forall₂ SamePath paths directories) :
    List.Forall₂ (Covers env) opened directories := by
  induction hcovers generalizing directories with
  | nil =>
    cases hsame
    exact .nil
  | cons hfirst _ ih =>
    cases hsame with
    | cons hpath hpaths =>
      exact .cons ⟨hfirst.same.trans hpath, hfirst.acl, hfirst.isDirectory, hfirst.noReparse⟩
        (ih hpaths)

/-- `verify_descendant_directories` covers every directory strictly between the root and the
    executable, and the executable lies in the last one. -/
theorem verifyDescendantDirectories_covers {root executable : OpenedPath env}
    {opened : List (OpenedPath env)}
    (h : verifyDescendantDirectories env root executable = .ok opened) :
    root.finalPath.names.length < executable.finalPath.names.length ∧
    SamePath root.finalPath (executable.finalPath.upTo root.finalPath.names.length) ∧
    List.Forall₂ (Covers env) opened
      ((List.range' (root.finalPath.names.length + 1)
        (executable.finalPath.names.length - 1 - root.finalPath.names.length)).map
          executable.finalPath.upTo) ∧
    ∃ parent, executable.finalPath.parent = some parent ∧
      SamePath parent (((opened.map OpenedPath.finalPath).getLast?).getD root.finalPath) := by
  rw [verifyDescendantDirectories] at h
  split at h
  · cases h
  · rename_i paths hpaths
    simp only [except_bind_ok_iff, verifyExecutableParent, failIf_ok_iff, Bool.not_eq_false] at h
    obtain ⟨⟨walked, last⟩, hwalked, _, hparent, heq⟩ := h
    cases heq
    obtain ⟨hcovers, rfl⟩ := descendantsFrom_covers hwalked
    obtain ⟨hlength, hroot, hsame⟩ := protectedDescendantDirectories_eq hpaths
    refine ⟨hlength, hroot, ?_, ?_⟩
    · exact forall₂_covers_same hcovers hsame
    · rw [Option.any_eq_true] at hparent
      obtain ⟨parent, hmem, hequal⟩ := hparent
      exact ⟨parent, hmem, pathsEqual_iff.mp hequal⟩

/-! ## The whole chain -/

/-- The chain of directories that an accepted installation has been checked along. -/
structure VerifiedChain (env : Environment H) (root executable : OpenedPath env)
    (requireProtectedRootDacl : Bool) (directories : List (OpenedPath env)) : Prop where
  rootAcl : verifyObjectAcl env root requireProtectedRootDacl = .ok ()
  executableAcl : verifyObjectAcl env executable false = .ok ()
  /-- The root is a proper ancestor of the executable. -/
  below : root.finalPath.names.length < executable.finalPath.names.length ∧
    SamePath root.finalPath (executable.finalPath.upTo root.finalPath.names.length)
  /-- The retained handles: the directories between the root and the executable, from the root down,
      then the ancestors of the root, from the root up. -/
  retained : ∃ between ancestors, directories = between ++ ancestors ∧
    List.Forall₂ (Covers env) between
      ((List.range' (root.finalPath.names.length + 1)
        (executable.finalPath.names.length - 1 - root.finalPath.names.length)).map
          executable.finalPath.upTo) ∧
    List.Forall₂ (Covers env) ancestors
      ((List.range' 1 (root.finalPath.names.length - 1)).reverse.map root.finalPath.upTo) ∧
    ∃ parent, executable.finalPath.parent = some parent ∧
      SamePath parent (((between.map OpenedPath.finalPath).getLast?).getD root.finalPath)

/-- Every level of the chain is covered when the verification succeeds, and the verification ends
    with as many rounds as the root has names. -/
theorem verifyPathControls_covers (env : Environment H) (root executable : OpenedPath env)
    (requireProtectedRootDacl : Bool) :
    (∀ fuel, root.finalPath.names.length < fuel →
      verifyPathControls env fuel root executable requireProtectedRootDacl true ≠ .error .loops) ∧
    ∀ fuel directories,
      verifyPathControls env fuel root executable requireProtectedRootDacl true = .ok directories →
        VerifiedChain env root executable requireProtectedRootDacl directories := by
  constructor
  · intro fuel hfuel
    apply except_bind_ne_error
    · apply except_bind_ne_error (orPanic_ne_loops _)
      intro within _
      exact orHalt_ne_loops _
    intro _ _
    apply except_bind_ne_error (orHalt_ne_loops _)
    intro _ _
    apply except_bind_ne_error (orHalt_ne_loops _)
    intro _ _
    apply except_bind_ne_error (orHalt_ne_loops _)
    intro _ _
    apply except_bind_ne_error (orHalt_ne_loops _)
    intro _ _
    apply except_bind_ne_error (orHalt_ne_loops _)
    intro between _
    apply except_bind_ne_error (ancestorsFrom_ne_loops hfuel)
    intro ancestors _
    simp [pure, Except.pure]
  · intro fuel directories h
    simp only [verifyPathControls, if_true, except_bind_ok_iff, orHalt_ok_iff] at h
    obtain ⟨_, -, _, -, _, -, _, hroot, _, hexecutable, between, hbetween, ancestors, hancestors,
      heq⟩ := h
    cases heq
    obtain ⟨hlength, hsame, hcovers, hparent⟩ := verifyDescendantDirectories_covers hbetween
    exact ⟨hroot, hexecutable, ⟨hlength, hsame⟩, between, ancestors, rfl, hcovers,
      verifyAncestors_covers hancestors, hparent⟩

/-- An executable two levels below the root of its installation. -/
def toolPath : FinalPath where
  drive := 'C'
  names := ["Program Files".toList, "App".toList, "bin".toList, "tool.exe".toList]
  alpha := by decide
  valid := by
    intro name hname
    simp only [List.mem_cons, List.not_mem_nil, or_false] at hname
    rcases hname with rfl | rfl | rfl | rfl <;>
      exact ⟨by decide, by decide, by decide, by decide, by decide⟩

/-- A host on which every path opens, under its own spelling, with an accepted ACL. -/
def openHost : Environment FinalPath where
  createFile path _ := .ok path
  fileInformation path := .ok ⟨if path.names.length < 4 then fileAttributeDirectory else 0, 1⟩
  finalPath := .ok
  trustedSids := .ok ()
  verifyHandleAcl _ _ := .ok ()

/-- The handle of one of the first names of `toolPath`. -/
def openTool (count : ℕ) : OpenedPath openHost where
  handle := toolPath.upTo count
  finalPath := toolPath.upTo count
  information := ⟨if (toolPath.upTo count).names.length < 4 then fileAttributeDirectory else 0, 1⟩
  reported := rfl
  informed := rfl
  noReparse := by split_ifs <;> decide

theorem verifyPathControls_tool :
    verifyPathControls openHost 3 (openTool 2) (openTool 4) true true =
      .ok [openTool 3, openTool 1] ∧
    VerifiedChain openHost (openTool 2) (openTool 4) true [openTool 3, openTool 1] := by
  have hok : verifyPathControls openHost 3 (openTool 2) (openTool 4) true true =
      .ok [openTool 3, openTool 1] := rfl
  exact ⟨hok, (verifyPathControls_covers openHost (openTool 2) (openTool 4) true).2 3 _ hok⟩

end Covers

end BaselineOps.Trust
