import BaselineOps.Domain.Canonical
import BaselineOps.Domain.Ids
import BaselineOps.Domain.Reference
import BaselineOps.Lib.DirectoryTree
import BaselineOps.Lib.Hoare
import BaselineOps.Lib.OsPath
import BaselineOps.Lib.Split

/-!
# Binding a resource directory

Model of `bind_directory` (`baselineops-cli/src/resources.rs`, lines 166–265) on a tree that does not change
and that can be read. A path is the list of its components; names are text without `\`, so that
`to_string_lossy` loses nothing.

* `bindDirectory_ok_iff`: which trees are bound, and to what, in terms of their files.
* `bindDirectory_content`: the binding depends on the map from paths to bytes, and determines it.
-/

namespace BaselineOps.Resources

open BaselineOps.Domain BaselineOps.Lib BaselineOps.Lib.DirectoryTree

/-! ## Model -/

/-- `MAX_RESOURCE_FILES` (line 11). -/
def maxResourceFiles : ℕ := 1024

/-- `MAX_RESOURCE_BYTES` (line 12). -/
def maxResourceBytes : ℕ := 256 * 1024 * 1024

/-- The name of a directory entry: text without separators. -/
@[ext]
structure EntryName where
  text : String
  ne_empty : text.toList ≠ []
  no_slash : '/' ∉ text.toList
  no_backslash : '\\' ∉ text.toList

instance : DecidableEq EntryName := fun a b =>
  decidable_of_iff (a.text = b.text) EntryName.ext_iff.symm

/-- The entries of a directory, as `fs::read_dir` enumerates them. -/
abbrev Children := List (EntryName × Entry EntryName (List UInt8))

/-- The components of a `PathBuf`. -/
abbrev PathBuf := List String

/-- The errors of these functions. -/
inductive BindError where
  | reparsePoint
  | unsupported
  | tooLarge
  | overflow
  | byteLimit
  | stripPrefix
  | outOfFuel

/-- `ManifestEntry` (lines 166–171). -/
structure ManifestEntry where
  path : String
  digest : Sha256Digest
  sizeBytes : ℕ

/-- The local variables of `bind_directory`. The top of the stack comes first; each directory is kept with
    its entries. -/
structure BindState where
  pending : List (PathBuf × Children)
  entries : List ManifestEntry
  total : ℕ

section Model

variable (d : Deps) (platform : OsPath.Platform) (root : PathBuf)

/-- `MAIN_SEPARATOR`. -/
def mainSeparator : OsPath.Platform → Char
  | .windows => '\\'
  | .unix => '/'

/-- The text of a relative path, with `\` replaced. -/
def slashed (names : List String) : String :=
  String.ofList (([mainSeparator platform].intercalate (names.map String.toList)).map fun c =>
    if c = '\\' then '/' else c)

/-- `relative_path` (lines 260–265). -/
def relativePath (path : PathBuf) : Except BindError String :=
  if root <+: path then .ok (slashed platform (path.drop root.length)) else .error .stripPrefix

/-- `hash_bounded_file_no_follow` of a regular file. -/
def hashBoundedFile (bytes : List UInt8) (limit : ℕ) : Except BindError (Sha256Digest × ℕ) :=
  if bytes.length ≤ limit then .ok (d.sha256 bytes, bytes.length) else .error .tooLarge

/-- `manifest_entry` (lines 250–258). -/
def manifestEntry (path : PathBuf) (bytes : List UInt8) (limit : ℕ) : Except BindError ManifestEntry := do
  let hash ← hashBoundedFile d bytes limit
  let relative ← relativePath platform root path
  return ⟨relative, hash.1, hash.2⟩

/-- `add_resource_bytes` (lines 240–248). -/
def addResourceBytes (total size : ℕ) : Except BindError ℕ := do
  failIf (2 ^ 64 ≤ total + size) .overflow
  failIf (maxResourceBytes < total + size) .byteLimit
  return total + size

/-- `bind_directory_file` (lines 218–231) with `validate_directory_file` (lines 233–238). The file is
    `none` where the entry is no regular file. -/
def bindDirectoryFile (path : PathBuf) (file : Option (List UInt8)) (state : BindState) :
    Except BindError BindState :=
  match file with
  | none => .error .unsupported
  | some bytes => do
    failIf (maxResourceFiles ≤ state.entries.length) .unsupported
    let remaining := maxResourceBytes - state.total
    let entry ← manifestEntry d platform root path bytes remaining
    let total ← addResourceBytes state.total entry.sizeBytes
    return { state with entries := state.entries ++ [entry], total := total }

/-- `bind_child` (lines 199–216). -/
def bindChild (directory : PathBuf) (state : BindState)
    (child : EntryName × Entry EntryName (List UInt8)) : Except BindError BindState :=
  let path := directory ++ [child.1.text]
  match child.2 with
  | .link => .error .reparsePoint
  | .directory children => .ok { state with pending := (path, children) :: state.pending }
  | .file bytes => bindDirectoryFile d platform root path (some bytes) state
  | .other => bindDirectoryFile d platform root path none state

/-- `sorted_children` (lines 193–197). -/
def sortedChildren (children : Children) : Children :=
  children.mergeSort fun left right => decide (left.1.text ≤ right.1.text)

/-- The loop of `bind_directory` (lines 177–181), with the number of directories that are left. -/
def bindPending : ℕ → BindState → Except BindError BindState
  | fuel, state =>
    match state.pending, fuel with
    | [], _ => .ok state
    | _ :: _, 0 => .error .outOfFuel
    | (directory, children) :: rest, fuel + 1 => do
      let state ← (sortedChildren children).foldlM (bindChild d platform root directory)
        { state with pending := rest }
      bindPending fuel state

/-- `Serialize` of the entries. -/
def ManifestEntry.toValue (entry : ManifestEntry) : Value := .object
  [("path", .string entry.path), ("digest", .string entry.digest.toHex),
   ("size_bytes", .number (.posInt (UInt64.ofNat entry.sizeBytes)))]

/-- The entries by ascending path (line 182). -/
def sortedEntries (entries : List ManifestEntry) : List ManifestEntry :=
  entries.mergeSort fun left right => decide (left.path ≤ right.path)

/-- `bind_directory` (lines 173–185). -/
def bindDirectory (children : Children) : Except BindError (Sha256Digest × ℕ) := do
  let state ← bindPending d platform root (1 + childDirectories children)
    ⟨[(root, children)], [], 0⟩
  return (canonicalJsonDigest d (.array ((sortedEntries state.entries).map ManifestEntry.toValue)),
    state.total)

end Model

/-! ## The traversal -/

/-- The limits on the entries of a manifest. -/
def Fits (entries : List ManifestEntry) : Prop :=
  entries.length ≤ maxResourceFiles ∧ (entries.map ManifestEntry.sizeBytes).sum ≤ maxResourceBytes

theorem Fits.left {entries others : List ManifestEntry} (h : Fits (entries ++ others)) :
    Fits entries := by
  unfold Fits at h ⊢
  rw [List.length_append, List.map_append, List.sum_append] at h
  exact ⟨le_of_add_le_left h.1, le_of_add_le_left h.2⟩

theorem fits_perm {entries others : List ManifestEntry} (h : entries.Perm others) :
    Fits entries ↔ Fits others := by
  rw [Fits, Fits, h.length_eq, (h.map _).sum_eq]

section Traversal

variable {d : Deps} {platform : OsPath.Platform} {root : PathBuf}

/-- The entry of a file below a directory. -/
def entryOf (d : Deps) (platform : OsPath.Platform) (directory : List String)
    (file : List EntryName × List UInt8) : ManifestEntry :=
  ⟨slashed platform (directory ++ file.1.map EntryName.text), d.sha256 file.2, file.2.length⟩

/-- The entries of all files below a directory. -/
def entriesBelow (d : Deps) (platform : OsPath.Platform) (root : PathBuf) (directory : PathBuf)
    (children : Children) : List ManifestEntry :=
  (childFiles children).map (entryOf d platform (directory.drop root.length))

/-- The entries that were made or are still to be made. -/
def BindState.todo (d : Deps) (platform : OsPath.Platform) (root : PathBuf) (state : BindState) :
    List ManifestEntry :=
  state.entries ++ state.pending.flatMap fun item => entriesBelow d platform root item.1 item.2

/-- The directories that are left. -/
def BindState.left (state : BindState) : ℕ :=
  (state.pending.map fun item => 1 + childDirectories item.2).sum

/-- The invariant of the traversal. -/
structure BindState.Sound (root : PathBuf) (state : BindState) : Prop where
  total : state.total = (state.entries.map ManifestEntry.sizeBytes).sum
  fits : Fits state.entries
  below : ∀ item ∈ state.pending, root <+: item.1
  plain : ∀ item ∈ state.pending, ChildrenPlain item.2

theorem drop_append_of_prefix {directory : PathBuf} (h : root <+: directory) (name : String) :
    (directory ++ [name]).drop root.length = directory.drop root.length ++ [name] :=
  List.drop_append_of_le_length h.length_le

/-- One file: it is within the limits of what is left just when it fits. -/
theorem bindDirectoryFile_concludes {state : BindState} (hsound : state.Sound root) {path : PathBuf}
    (hpath : root <+: path) (bytes : List UInt8) :
    Concludes (bindDirectoryFile d platform root path (some bytes) state)
      (fun next => next.pending = state.pending ∧
        next.entries = state.entries ++
          [⟨slashed platform (path.drop root.length), d.sha256 bytes, bytes.length⟩] ∧
        next.total = state.total + bytes.length ∧ Fits next.entries)
      (¬ Fits (state.entries ++
        [⟨slashed platform (path.drop root.length), d.sha256 bytes, bytes.length⟩])) := by
  have hfits : Fits (state.entries ++
      [⟨slashed platform (path.drop root.length), d.sha256 bytes, bytes.length⟩]) ↔
      state.entries.length < maxResourceFiles ∧ state.total + bytes.length ≤ maxResourceBytes := by
    simp [Fits, hsound.total]
  have hbound : state.total ≤ maxResourceBytes := hsound.total ▸ hsound.fits.2
  have hword : maxResourceBytes < 2 ^ 64 := by decide
  rw [bindDirectoryFile]
  apply concludes_bind
  refine concludes_failIf (fun hcount => ?_) fun hcount h => absurd (hfits.mp h).1 (not_lt.mpr hcount)
  dsimp only
  apply concludes_bind
  rw [manifestEntry, hashBoundedFile, relativePath, if_pos hpath]
  by_cases hsize : bytes.length ≤ maxResourceBytes - state.total
  · have htotal : state.total + bytes.length ≤ maxResourceBytes := by omega
    rw [if_pos hsize]
    show Concludes (addResourceBytes state.total bytes.length >>= _) _ _
    apply concludes_bind
    rw [addResourceBytes]
    apply concludes_bind
    refine concludes_failIf (fun _ => ?_) fun hoverflow => by omega
    apply concludes_bind
    refine concludes_failIf (fun _ => ?_) fun hlimit => absurd htotal (not_le.mpr hlimit)
    exact ⟨rfl, rfl, rfl, hfits.mpr ⟨not_le.mp hcount, htotal⟩⟩
  · rw [if_neg hsize]
    intro h
    have hfile := (hfits.mp h).2
    omega

/-- One entry of a directory: what is made or left to make grows by its files. -/
theorem bindChild_concludes {state : BindState} (hsound : state.Sound root) {directory : PathBuf}
    (hbelow : root <+: directory) {child : EntryName × Entry EntryName (List UInt8)}
    (hplain : child.2.Plain) :
    Concludes (bindChild d platform root directory state child)
      (fun next => next.Sound root ∧
        (next.todo d platform root).Perm
          (state.todo d platform root ++ entriesBelow d platform root directory [child]) ∧
        next.left = state.left + child.2.directories)
      (¬ Fits (state.todo d platform root ++ entriesBelow d platform root directory [child])) := by
  obtain ⟨name, entry⟩ := child
  have hpath : root <+: directory ++ [name.text] := hbelow.trans (List.prefix_append _ _)
  have hdrop := drop_append_of_prefix hbelow name.text
  cases entry with
  | link => rw [Entry.Plain] at hplain; cases hplain
  | other => rw [Entry.Plain] at hplain; cases hplain
  | directory children =>
    have hentries : entriesBelow d platform root directory [(name, .directory children)] =
        entriesBelow d platform root (directory ++ [name.text]) children := by
      simp only [entriesBelow, childFiles, Entry.files, List.append_nil, List.map_map, hdrop]
      refine List.map_congr_left fun file _ => ?_
      simp [entryOf]
    refine ⟨⟨hsound.total, hsound.fits, ?_, ?_⟩, ?_, ?_⟩
    · exact List.forall_mem_cons.mpr ⟨hpath, hsound.below⟩
    · rw [Entry.Plain] at hplain
      exact List.forall_mem_cons.mpr ⟨hplain.2, hsound.plain⟩
    · rw [hentries]
      simp only [BindState.todo, List.flatMap_cons, List.append_assoc]
      exact List.perm_append_comm.append_left _
    · simp only [BindState.left, List.map_cons, List.sum_cons, Entry.directories]
      omega
  | file bytes =>
    have hentries : entriesBelow d platform root directory [(name, .file bytes)] =
        [⟨slashed platform ((directory ++ [name.text]).drop root.length), d.sha256 bytes,
          bytes.length⟩] := by
      simp [entriesBelow, childFiles, Entry.files, entryOf, hdrop]
    have hperm : (state.entries ++ entriesBelow d platform root directory [(name, .file bytes)] ++
        state.pending.flatMap fun item => entriesBelow d platform root item.1 item.2).Perm
        (state.todo d platform root ++
          entriesBelow d platform root directory [(name, .file bytes)]) := by
      simp only [BindState.todo, List.append_assoc]
      exact List.perm_append_comm.append_left _
    refine (bindDirectoryFile_concludes hsound hpath bytes).mono ?_ ?_
    · rintro next ⟨hpending, hnext, htotal, hfits⟩
      rw [← hentries] at hnext
      refine ⟨⟨?_, hfits, ?_, ?_⟩, ?_, ?_⟩
      · rw [htotal, hnext, hsound.total, hentries]
        simp
      · rw [hpending]
        exact hsound.below
      · rw [hpending]
        exact hsound.plain
      · rw [BindState.todo, hpending, hnext]
        exact hperm
      · rw [BindState.left, hpending, Entry.directories]
        rfl
    · intro hnot hfits
      rw [← hentries] at hnot
      exact hnot ((fits_perm hperm).mpr hfits).left

/-- All entries of a directory. -/
theorem bindChildren_concludes {state : BindState} (hsound : state.Sound root) {directory : PathBuf}
    (hbelow : root <+: directory) {children : Children} (hplain : ChildrenPlain children) :
    Concludes (children.foldlM (bindChild d platform root directory) state)
      (fun next => next.Sound root ∧
        (next.todo d platform root).Perm
          (state.todo d platform root ++ entriesBelow d platform root directory children) ∧
        next.left = state.left + childDirectories children)
      (¬ Fits (state.todo d platform root ++ entriesBelow d platform root directory children)) := by
  induction children generalizing state with
  | nil =>
    refine ⟨hsound, ?_, ?_⟩
    · simp [entriesBelow, childFiles]
    · simp [childDirectories]
  | cons child rest ih =>
    rw [ChildrenPlain] at hplain
    have hsplit : entriesBelow d platform root directory (child :: rest) =
        entriesBelow d platform root directory [child] ++ entriesBelow d platform root directory rest := by
      simp [entriesBelow, childFiles]
    rw [List.foldlM_cons, hsplit, ← List.append_assoc]
    apply concludes_bind
    refine (bindChild_concludes hsound hbelow hplain.1).mono ?_ ?_
    · rintro next ⟨hnext, hperm, hleft⟩
      refine (ih hnext hplain.2).mono ?_ ?_
      · rintro final ⟨hfinal, hfinalPerm, hfinalLeft⟩
        refine ⟨hfinal, hfinalPerm.trans (hperm.append_right _), ?_⟩
        rw [hfinalLeft, hleft, childDirectories, Nat.add_assoc]
      · exact fun hnot hfits => hnot ((fits_perm (hperm.append_right _)).mpr hfits)
    · exact fun hnot hfits => hnot hfits.left

/-- The whole loop, with fuel for the directories that are left. -/
theorem bindPending_concludes {state : BindState} (hsound : state.Sound root) {fuel : ℕ}
    (hfuel : state.left ≤ fuel) :
    Concludes (bindPending d platform root fuel state)
      (fun final => final.Sound root ∧ final.entries.Perm (state.todo d platform root))
      (¬ Fits (state.todo d platform root)) := by
  induction fuel generalizing state with
  | zero =>
    obtain ⟨pending, entries, total⟩ := state
    cases pending with
    | nil => exact ⟨hsound, by simp [BindState.todo]⟩
    | cons item rest => simp [BindState.left] at hfuel
  | succ fuel ih =>
    obtain ⟨pending, entries, total⟩ := state
    cases pending with
    | nil => exact ⟨hsound, by simp [BindState.todo]⟩
    | cons item rest =>
      obtain ⟨directory, children⟩ := item
      have hitem := List.forall_mem_cons.mp hsound.below
      have hplain := List.forall_mem_cons.mp hsound.plain
      have hpopped : BindState.Sound root ⟨rest, entries, total⟩ :=
        ⟨hsound.total, hsound.fits, hitem.2, hplain.2⟩
      -- The order of the entries does not matter.
      have hsorted : (sortedChildren children).Perm children := List.mergeSort_perm _ _
      have hsortedPlain : ChildrenPlain (sortedChildren children) :=
        childrenPlain_iff.mpr fun child hchild => childrenPlain_iff.mp hplain.1 child
          (hsorted.subset hchild)
      have hsortedEntries : (entriesBelow d platform root directory (sortedChildren children)).Perm
          (entriesBelow d platform root directory children) :=
        (childFiles_perm hsorted).map _
      have htodo : (BindState.todo d platform root ⟨rest, entries, total⟩ ++
          entriesBelow d platform root directory (sortedChildren children)).Perm
          (BindState.todo d platform root ⟨(directory, children) :: rest, entries, total⟩) := by
        simp only [BindState.todo, List.flatMap_cons, List.append_assoc]
        exact (List.perm_append_comm.trans (hsortedEntries.append_right _)).append_left _
      unfold bindPending
      apply concludes_bind
      refine (bindChildren_concludes hpopped hitem.1 hsortedPlain).mono ?_ ?_
      · rintro next ⟨hnext, hperm, hleft⟩
        have hnextLeft : next.left ≤ fuel := by
          rw [childDirectories_eq_sum, (hsorted.map _).sum_eq, ← childDirectories_eq_sum] at hleft
          simp only [BindState.left, List.map_cons, List.sum_cons] at hfuel hleft ⊢
          omega
        refine (ih hnext hnextLeft).mono ?_ ?_
        · rintro final ⟨hfinal, hfinalPerm⟩
          exact ⟨hfinal, (hfinalPerm.trans hperm).trans htodo⟩
        · exact fun hnot hfits => hnot ((fits_perm (hperm.trans htodo)).mpr hfits)
      · exact fun hnot hfits => hnot ((fits_perm htodo).mpr hfits)

end Traversal

/-! ## What is bound -/

variable {d : Deps}

theorem slashed_eq (platform : OsPath.Platform) (names : List EntryName) :
    slashed platform (names.map EntryName.text) =
      String.ofList (['/'].intercalate (names.map fun name => name.text.toList)) := by
  have hsep : (if mainSeparator platform = '\\' then '/' else mainSeparator platform) = '/' := by
    cases platform <;> rfl
  have hnames : (names.map fun name => name.text.toList).map
      (List.map fun c => if c = '\\' then '/' else c) = names.map fun name => name.text.toList := by
    rw [List.map_map]
    refine List.map_congr_left fun name _ => ?_
    have hid : ∀ c ∈ name.text.toList, (if c = '\\' then '/' else c) = c :=
      fun c hc => if_neg fun heq : c = '\\' => name.no_backslash (heq ▸ hc)
    exact (List.map_congr_left hid).trans (List.map_id' _)
  rw [slashed, List.map_map, map_intercalate, hsep]
  exact congrArg (fun segments => String.ofList (['/'].intercalate segments)) hnames

/-- The path in the manifest determines the names, whatever the platform. -/
theorem slashed_injective {platform platform' : OsPath.Platform} {names names' : List EntryName}
    (h : slashed platform (names.map EntryName.text) = slashed platform' (names'.map EntryName.text)) :
    names = names' := by
  have hsegments : ∀ (names : List EntryName), ∀ segment ∈ names.map fun name => name.text.toList,
      segment ≠ [] ∧ '/' ∉ segment := by
    intro names segment hsegment
    obtain ⟨name, -, rfl⟩ := List.mem_map.mp hsegment
    exact ⟨name.ne_empty, name.no_slash⟩
  rw [slashed_eq, slashed_eq, String.ofList_inj] at h
  have hlists := intercalate_injective (hsegments names) (hsegments names') h
  have hinjective : Function.Injective fun name : EntryName => name.text.toList :=
    fun _ _ heq => EntryName.ext (String.toList_inj.mp heq)
  exact List.map_injective_iff.mpr hinjective hlists

/-- The entries of all files of a tree. -/
def manifestOf (d : Deps) (platform : OsPath.Platform) (children : Children) : List ManifestEntry :=
  (childFiles children).map (entryOf d platform [])

/-- A file has one manifest entry on all platforms. -/
theorem entryOf_eq (platform platform' : OsPath.Platform) :
    entryOf d platform [] = entryOf d platform' [] := by
  funext file
  rw [entryOf, entryOf, List.nil_append, slashed_eq, slashed_eq]

/-- Trees with the same files have the same entries. -/
theorem manifestOf_perm (platform platform' : OsPath.Platform) {children children' : Children}
    (h : (childFiles children).Perm (childFiles children')) :
    (manifestOf d platform children).Perm (manifestOf d platform' children') := by
  rw [manifestOf, manifestOf, entryOf_eq platform' platform]
  exact h.map _

theorem manifestOf_paths_nodup (platform : OsPath.Platform) {children : Children}
    (h : PlainTree children) : ((manifestOf d platform children).map ManifestEntry.path).Nodup := by
  have hfiles := nodup_childFiles children h.names h.plain
  have hpath : ManifestEntry.path ∘ entryOf d platform [] =
      (fun names => slashed platform (names.map EntryName.text)) ∘ Prod.fst := rfl
  rw [manifestOf, List.map_map, hpath, ← List.map_map]
  exact hfiles.map fun _ _ heq => slashed_injective heq

/-- The sorted manifest does not depend on the order in which the files were met. -/
theorem sortedEntries_eq {entries entries' : List ManifestEntry} (h : entries.Perm entries')
    (hnodup : (entries.map ManifestEntry.path).Nodup) :
    sortedEntries entries = sortedEntries entries' := by
  have hsorted : ∀ entries : List ManifestEntry, (sortedEntries entries).Pairwise
      fun left right => left.path ≤ right.path := by
    intro entries
    refine (List.pairwise_mergeSort ?_ ?_ entries).imp of_decide_eq_true
    · intro a b c hab hbc
      exact decide_eq_true ((of_decide_eq_true hab).trans (of_decide_eq_true hbc))
    · intro a b
      simpa using le_total a.path b.path
  have hmem : ∀ entries : List ManifestEntry, (sortedEntries entries).Perm entries :=
    fun entries => List.mergeSort_perm _ _
  refine List.Perm.eq_of_pairwise ?_ (hsorted entries) (hsorted entries')
    ((hmem entries).trans (h.trans (hmem entries').symm))
  intro a b ha hb hab hba
  exact List.inj_on_of_nodup_map hnodup ((hmem entries).subset ha)
    (h.symm.subset ((hmem entries').subset hb)) (le_antisymm hab hba)

/-- What a manifest is bound to. -/
def bindingOf (d : Deps) (entries : List ManifestEntry) : Sha256Digest × ℕ :=
  (canonicalJsonDigest d (.array ((sortedEntries entries).map ManifestEntry.toValue)),
    (entries.map ManifestEntry.sizeBytes).sum)

/-- A tree is bound just when its files are within the limits. -/
theorem bindDirectory_ok_iff (platform : OsPath.Platform) (root : PathBuf) {children : Children}
    (h : PlainTree children) {binding : Sha256Digest × ℕ} :
    bindDirectory d platform root children = .ok binding ↔
      Fits (manifestOf d platform children) ∧ binding = bindingOf d (manifestOf d platform children) := by
  have hsound : BindState.Sound root ⟨[(root, children)], [], 0⟩ := by
    refine ⟨rfl, ⟨Nat.zero_le _, Nat.zero_le _⟩, ?_, ?_⟩
    · exact List.forall_mem_singleton.mpr (List.prefix_refl root)
    · exact List.forall_mem_singleton.mpr h.plain
  have htodo : BindState.todo d platform root ⟨[(root, children)], [], 0⟩ =
      manifestOf d platform children := by
    simp [BindState.todo, entriesBelow, manifestOf]
  have hleft : BindState.left ⟨[(root, children)], [], 0⟩ ≤ 1 + childDirectories children := by
    simp [BindState.left]
  have hloop := @bindPending_concludes d platform root _ hsound _ hleft
  rw [htodo] at hloop
  rw [bindDirectory, except_bind_ok_iff]
  cases hrun : bindPending d platform root (1 + childDirectories children) ⟨[(root, children)], [], 0⟩ with
  | ok final =>
    rw [hrun] at hloop
    obtain ⟨hfinal, hperm⟩ := hloop
    have hsame : bindingOf d (manifestOf d platform children) =
        (canonicalJsonDigest d (.array ((sortedEntries final.entries).map ManifestEntry.toValue)),
          final.total) := by
      rw [bindingOf, sortedEntries_eq hperm.symm (manifestOf_paths_nodup platform h), hfinal.total,
        (hperm.map _).sum_eq]
    rw [hsame]
    constructor
    · rintro ⟨state, hstate, hbinding⟩
      cases hstate
      exact ⟨(fits_perm hperm).mp hfinal.fits, (Except.ok.inj hbinding).symm⟩
    · rintro ⟨-, rfl⟩
      exact ⟨final, rfl, rfl⟩
  | error e =>
    rw [hrun] at hloop
    constructor
    · rintro ⟨state, hstate, -⟩
      cases hstate
    · rintro ⟨hfits, -⟩
      exact absurd hfits hloop

/-- The JSON of an entry determines its path and its digest. -/
theorem ManifestEntry.toValue_inj {a b : ManifestEntry} (h : sortKeys a.toValue = sortKeys b.toValue) :
    a.path = b.path ∧ a.digest = b.digest := by
  simp [ManifestEntry.toValue, sortKeys, sortKeysMembers, sortKeysMember, sortByKey,
    List.insertionSort, List.orderedInsert] at h
  obtain ⟨hdigest, hpath, -⟩ := h
  exact ⟨hpath, Sha256Digest.toHex_injective hdigest⟩

/-- The bytes that are hashed when a tree is bound. -/
def hashedBytes (d : Deps) (platform : OsPath.Platform) (children : Children) : List (List UInt8) :=
  canonicalJsonBytes d
    (.array ((sortedEntries (manifestOf d platform children)).map ManifestEntry.toValue)) ::
    (childFiles children).map Prod.snd

/-- Trees with the same files have the same bytes hashed. -/
theorem hashedBytes_perm {platform platform' : OsPath.Platform} {children children' : Children}
    (h : PlainTree children) (hfiles : (childFiles children).Perm (childFiles children')) :
    (hashedBytes d platform children).Perm (hashedBytes d platform' children') := by
  rw [hashedBytes, hashedBytes, sortedEntries_eq (manifestOf_perm platform platform' hfiles)
    (manifestOf_paths_nodup platform h)]
  exact (hfiles.map _).cons _

/-- Equal digests, without a collision: the files of one tree are files of the other. -/
theorem mem_childFiles_of_digest_eq (hd : d.LawfulText) {platform platform' : OsPath.Platform}
    {children children' : Children}
    (hfree : Set.InjOn d.sha256
      {bytes | bytes ∈ hashedBytes d platform children ++ hashedBytes d platform' children'})
    (hdigest : (bindingOf d (manifestOf d platform children)).1 =
      (bindingOf d (manifestOf d platform' children')).1)
    {file : List EntryName × List UInt8} (hfile : file ∈ childFiles children) :
    file ∈ childFiles children' := by
  have hbytes : ∀ bytes, bytes ∈ hashedBytes d platform children →
      ∀ bytes', bytes' ∈ hashedBytes d platform' children' → d.sha256 bytes = d.sha256 bytes' →
        bytes = bytes' := fun bytes hmem bytes' hmem' heq =>
    hfree (List.mem_append_left _ hmem) (List.mem_append_right _ hmem') heq
  -- The manifests are the same JSON.
  have hvalues : ((sortedEntries (manifestOf d platform children)).map ManifestEntry.toValue).map
      sortKeys = ((sortedEntries (manifestOf d platform' children')).map
        ManifestEntry.toValue).map sortKeys := by
    rw [bindingOf, bindingOf, canonicalJsonDigest_eq, canonicalJsonDigest_eq] at hdigest
    have hsame := canonicalJsonBytes_inj hd (hbytes _ List.mem_cons_self _ List.mem_cons_self hdigest)
    rw [sortKeys, sortKeys, sortKeysItems_eq_map, sortKeysItems_eq_map] at hsame
    exact Value.array.inj hsame
  have hmem : ∀ {entries : List ManifestEntry} {entry}, entry ∈ sortedEntries entries ↔ entry ∈ entries :=
    (List.mergeSort_perm _ _).mem_iff
  have hentry : sortKeys (entryOf d platform [] file).toValue ∈
      ((sortedEntries (manifestOf d platform' children')).map ManifestEntry.toValue).map sortKeys := by
    rw [← hvalues]
    exact List.mem_map_of_mem (List.mem_map_of_mem (hmem.mpr (List.mem_map_of_mem hfile)))
  obtain ⟨_, hvalue, hsorted⟩ := List.mem_map.mp hentry
  obtain ⟨_, hentry', rfl⟩ := List.mem_map.mp hvalue
  obtain ⟨file', hfile', rfl⟩ := List.mem_map.mp (hmem.mp hentry')
  obtain ⟨hpath, hhash⟩ := ManifestEntry.toValue_inj hsorted
  have hnames : file'.1 = file.1 := slashed_injective hpath
  have hcontent : file.2 = file'.2 := hbytes _ (List.mem_cons_of_mem _ (List.mem_map_of_mem hfile)) _
    (List.mem_cons_of_mem _ (List.mem_map_of_mem hfile')) hhash.symm
  have heq : file = file' := Prod.ext hnames.symm hcontent
  rw [heq]
  exact hfile'

/-- Binding a directory depends on the map from paths to bytes only, stays within the limits, and
    tells different maps apart. -/
theorem bindDirectory_content (d : Deps) (hd : d.LawfulText) (platform platform' : OsPath.Platform)
    (root root' : PathBuf) (children children' : Children) (h : PlainTree children)
    (h' : PlainTree children')
    (hfree : Set.InjOn d.sha256
      {bytes | bytes ∈ hashedBytes d platform children ++ hashedBytes d platform' children'}) :
    ((∀ path, find path children = find path children') →
      ∀ binding, bindDirectory d platform root children = .ok binding ↔
        bindDirectory d platform' root' children' = .ok binding) ∧
    (∀ digest size, bindDirectory d platform root children = .ok (digest, size) →
      size = ((childFiles children).map fun file => file.2.length).sum ∧ size ≤ maxResourceBytes ∧
        (childFiles children).length ≤ maxResourceFiles) ∧
    (∀ binding binding', bindDirectory d platform root children = .ok binding →
      bindDirectory d platform' root' children' = .ok binding' → binding.1 = binding'.1 →
        ∀ path, find path children = find path children') := by
  refine ⟨?_, ?_, ?_⟩
  · intro hfind binding
    have hperm : (manifestOf d platform children).Perm (manifestOf d platform' children') :=
      manifestOf_perm platform platform' (childFiles_perm_of_find h h' hfind)
    have hsame : bindingOf d (manifestOf d platform children) =
        bindingOf d (manifestOf d platform' children') := by
      rw [bindingOf, bindingOf, sortedEntries_eq hperm (manifestOf_paths_nodup platform h),
        (hperm.map _).sum_eq]
    rw [bindDirectory_ok_iff platform root h, bindDirectory_ok_iff platform' root' h', hsame,
      fits_perm hperm]
  · intro digest size hbound
    obtain ⟨hfits, hbinding⟩ := (bindDirectory_ok_iff platform root h).mp hbound
    have hsizes : (manifestOf d platform children).map ManifestEntry.sizeBytes =
        (childFiles children).map fun file => file.2.length := by
      rw [manifestOf, List.map_map]
      rfl
    have hlength : (manifestOf d platform children).length = (childFiles children).length :=
      List.length_map _
    rw [Fits, hsizes, hlength] at hfits
    rw [bindingOf, hsizes] at hbinding
    rw [(Prod.mk.inj hbinding).2]
    exact ⟨rfl, hfits.2, hfits.1⟩
  · intro binding binding' hbound hbound' hdigest
    obtain ⟨-, rfl⟩ := (bindDirectory_ok_iff platform root h).mp hbound
    obtain ⟨-, rfl⟩ := (bindDirectory_ok_iff platform' root' h').mp hbound'
    refine find_eq_of_mem_iff h h' fun file => ⟨?_, ?_⟩
    · exact mem_childFiles_of_digest_eq hd hfree hdigest
    · refine mem_childFiles_of_digest_eq hd (hfree.mono ?_) hdigest.symm
      intro bytes hmem
      exact List.mem_append.mpr (List.mem_append.mp hmem).symm

/-! ## A sample -/

/-- The names of the sample. -/
def sampleFile : EntryName := ⟨"b.txt", by decide, by decide, by decide⟩

/-- The directory with a file. -/
def sampleSub : EntryName := ⟨"sub", by decide, by decide, by decide⟩

/-- The file in it. -/
def sampleNested : EntryName := ⟨"a.txt", by decide, by decide, by decide⟩

/-- The directory without entries. -/
def sampleEmpty : EntryName := ⟨"empty", by decide, by decide, by decide⟩

/-- A directory with two files and an empty directory. -/
def sampleRules (content : String) : Children :=
  [(sampleFile, .file (utf8 content)), (sampleSub, .directory [(sampleNested, .file (utf8 "alpha"))]),
   (sampleEmpty, .directory [])]

/-- Its files in another enumeration, without the empty directory. -/
def sampleCopy : Children :=
  [(sampleSub, .directory [(sampleNested, .file (utf8 "alpha"))]), (sampleFile, .file (utf8 "beta"))]

theorem sampleRules_plain (content : String) : PlainTree (sampleRules content) :=
  ⟨show [sampleFile, sampleSub, sampleEmpty].Nodup by decide,
    trivial, ⟨List.nodup_singleton _, trivial, trivial⟩, ⟨List.nodup_nil, trivial⟩, trivial⟩

theorem sampleCopy_plain : PlainTree sampleCopy :=
  ⟨show [sampleSub, sampleFile].Nodup by decide, ⟨List.nodup_singleton _, trivial, trivial⟩, trivial, trivial⟩

theorem sampleCopy_files : (childFiles (sampleRules "beta")).Perm (childFiles sampleCopy) := List.Perm.swap _ _ _

/-- The bytes that are hashed for the contents `beta` and `gamma`. -/
def sampleHashed : List (List UInt8) :=
  ["alpha", "beta", "gamma"].map utf8 ++ ["beta", "gamma"].map fun content =>
    canonicalJsonBytes referenceDeps
      (.array ((manifestOf referenceDeps .unix (sampleRules content)).map ManifestEntry.toValue))

theorem sampleHashed_free : Set.InjOn referenceDeps.sha256 {bytes | bytes ∈ sampleHashed} := by
  have hnodup : (sampleHashed.map referenceDeps.sha256).Nodup := by decide +kernel
  exact List.inj_on_of_nodup_map hnodup

/-- The manifest is sorted as it stands. -/
theorem sampleHashed_of_mem {content : String} (hcontent : content ∈ ["beta", "gamma"]) {bytes : List UInt8}
    (hbytes : bytes ∈ hashedBytes referenceDeps .unix (sampleRules content)) : bytes ∈ sampleHashed := by
  have hsorted : sortedEntries (manifestOf referenceDeps .unix (sampleRules content)) =
      manifestOf referenceDeps .unix (sampleRules content) :=
    List.mergeSort_of_pairwise (List.pairwise_pair.mpr
      (show decide (slashed .unix [sampleFile.text] ≤ slashed .unix [sampleSub.text, sampleNested.text]) = true by
        decide +kernel))
  rw [hashedBytes, hsorted, List.mem_cons] at hbytes
  rw [sampleHashed, List.mem_append]
  rcases hbytes with rfl | hfile
  · exact .inr (List.mem_map_of_mem hcontent)
  · left
    change bytes ∈ [utf8 content, utf8 "alpha"] at hfile
    rw [List.mem_cons, List.mem_cons] at hcontent
    rw [List.mem_cons, List.mem_singleton] at hfile
    rcases hfile with rfl | rfl
    · exact List.mem_map_of_mem (List.mem_cons_of_mem _ (by simpa using hcontent))
    · exact List.mem_map_of_mem List.mem_cons_self

theorem sampleRules_find {path : List EntryName} : find path (sampleRules "beta") = find path sampleCopy :=
  find_eq_of_mem_iff (sampleRules_plain _) sampleCopy_plain (fun _ => sampleCopy_files.mem_iff) path

/-- The two enumerations are bound alike on both platforms, and another content of `b.txt` is bound to another
    digest. -/
theorem bindDirectory_content_sample :
    (∃ digest, bindDirectory referenceDeps .unix ["srv", "rules"] (sampleRules "beta") = .ok (digest, 9) ∧
      bindDirectory referenceDeps .windows ["C:", "rules"] sampleCopy = .ok (digest, 9)) ∧
    ∀ binding binding', bindDirectory referenceDeps .unix ["srv", "rules"] (sampleRules "beta") = .ok binding →
      bindDirectory referenceDeps .unix ["rules"] (sampleRules "gamma") = .ok binding' → binding.1 ≠ binding'.1 := by
  have hcopy := bindDirectory_content referenceDeps referenceDeps_lawful .unix .windows ["srv", "rules"]
    ["C:", "rules"] (sampleRules "beta") sampleCopy (sampleRules_plain _) sampleCopy_plain ?_
  have hother := bindDirectory_content referenceDeps referenceDeps_lawful .unix .unix ["srv", "rules"]
    ["rules"] (sampleRules "beta") (sampleRules "gamma") (sampleRules_plain _) (sampleRules_plain _) ?_
  · refine ⟨?_, ?_⟩
    · have hbound := (bindDirectory_ok_iff (d := referenceDeps) .unix ["srv", "rules"] (sampleRules_plain "beta")).mpr
        ⟨⟨by decide, by decide⟩, rfl⟩
      exact ⟨_, hbound, (hcopy.1 (fun _ => sampleRules_find) _).mp hbound⟩
    · intro binding binding' hbound hbound' hdigest
      have hfind := hother.2.2 binding binding' hbound hbound' hdigest [sampleFile]
      exact absurd (Option.some.inj hfind) (by decide)
  · refine sampleHashed_free.mono fun bytes hbytes => ?_
    rcases List.mem_append.mp hbytes with hbytes | hbytes
    · exact sampleHashed_of_mem (by decide) hbytes
    · exact sampleHashed_of_mem (by decide) hbytes
  · refine sampleHashed_free.mono fun bytes hbytes => ?_
    rcases List.mem_append.mp hbytes with hbytes | hbytes
    · exact sampleHashed_of_mem (by decide) hbytes
    · exact sampleHashed_of_mem (by decide)
        ((hashedBytes_perm (sampleRules_plain "beta") sampleCopy_files).mem_iff.mpr hbytes)

end BaselineOps.Resources
