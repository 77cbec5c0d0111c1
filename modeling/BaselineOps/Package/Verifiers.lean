import Mathlib
import BaselineOps.Lib.OrderedMap
import BaselineOps.Lib.Sha256
import BaselineOps.Package.Inventory

/-!
# The two verifiers of a package

What `verify_inventory` and `validate_inventory` accept, and how they are related. Both infer that
nothing is left over from a count: the extracted verifier removes the special members and compares
the number of files, the installed one keeps them and looks paths up by their ASCII-folded spelling.

* `verifyInventory_isOk_iff`: the extracted verifier accepts exactly the listed inventories.
* `validateInstalled_ok_iff`: the installed verifier accepts what is listed up to letter case.
* `inventory_verifiers`: exactness, the special members, and how the two verifiers are related.
-/

namespace BaselineOps.Package

open BaselineOps.Domain BaselineOps.Lib BaselineOps.Lib.OrderedMap BaselineOps.Lib.OsPath
  BaselineOps.SafePath

/-! ## The extracted verifier -/

section ExtractedSpec

variable {sha256 : List UInt8 → Sha256Digest} {platform : Platform} {manifest : PackageManifestV1}
  {tree : List PackageFile}

/-- The manifest lists the files of the tree, the special members apart, as they are. -/
structure ExactInventory (sha256 : List UInt8 → Sha256Digest) (platform : Platform)
    (manifest : PackageManifestV1) (tree : List PackageFile) : Prop where
  paths : ∀ path, path ∈ manifest.files.map ManifestFile.path ↔
    path ∈ tree.map (PackageFile.relative platform) ∧
      path ≠ manifestPath ∧ path ≠ manifestSignaturePath
  files : ∀ expected ∈ manifest.files, ∀ file ∈ tree, file.relative platform = expected.path →
    file.size = expected.sizeBytes ∧ sha256 file.content = expected.sha256

theorem verifyInventoryFile_ok_iff {actual : ExtractedInventory} {expected : ManifestFile} :
    verifyInventoryFile sha256 actual expected = .ok () ↔
      ∃ path size, actual[expected.path]? = some (path, size) ∧
        size = expected.sizeBytes ∧ sha256 path.content = expected.sha256 := by
  rw [verifyInventoryFile]
  cases actual[expected.path]? with
  | none => simp
  | some entry =>
    obtain ⟨path, size⟩ := entry
    simp only [failIf_ok_iff, not_or, not_not, Option.some.injEq, Prod.mk.injEq]
    constructor
    · intro h
      exact ⟨path, size, ⟨rfl, rfl⟩, h⟩
    · rintro ⟨_, _, ⟨rfl, rfl⟩, h⟩
      exact h

/-- What is left of the inventory without the special members. -/
theorem getElem?_payload (h : (tree.map (PackageFile.relative platform)).Nodup) {path : String}
    {entry : PackageFile × ℕ} :
    (((extractedInventory platform tree).erase manifestPath).erase
        manifestSignaturePath)[path]? = some entry ↔
      (path ≠ manifestPath ∧ path ≠ manifestSignaturePath) ∧
        entry.1 ∈ tree ∧ entry.1.relative platform = path ∧ entry.2 = entry.1.size := by
  have hnodup : ((tree.map fun path => (path.relative platform, path, path.size)).map
      Prod.fst).Nodup := by
    rw [List.map_map]
    exact h
  have hlookup : (extractedInventory platform tree)[path]? = some entry ↔
      entry.1 ∈ tree ∧ entry.1.relative platform = path ∧ entry.2 = entry.1.size := by
    rw [extractedInventory, getElem?_ofList_iff hnodup, List.mem_map]
    constructor
    · rintro ⟨file, hfile, heq⟩
      cases heq
      exact ⟨hfile, rfl, rfl⟩
    · rintro ⟨hfile, rfl, hsize⟩
      exact ⟨entry.1, hfile, Prod.ext rfl (Prod.ext rfl hsize.symm)⟩
  rw [getElem?_erase_eq, getElem?_erase_eq, ← hlookup]
  split_ifs with hsignature hmanifest
  · simp [hsignature]
  · simp [hmanifest]
  · exact (and_iff_right ⟨Ne.symm hmanifest, Ne.symm hsignature⟩).symm

/-- The keys of the inventory without the special members. -/
theorem keySet_payload (h : (tree.map (PackageFile.relative platform)).Nodup) {path : String} :
    path ∈ keySet (((extractedInventory platform tree).erase manifestPath).erase
        manifestSignaturePath) ↔
      path ∈ tree.map (PackageFile.relative platform) ∧
        path ≠ manifestPath ∧ path ≠ manifestSignaturePath := by
  rw [mem_keySet]
  constructor
  · rintro ⟨entry, hentry⟩
    obtain ⟨hspecial, hfile, hpath, -⟩ := (getElem?_payload h).mp hentry
    exact ⟨List.mem_map.mpr ⟨entry.1, hfile, hpath⟩, hspecial⟩
  · rintro ⟨hpath, hspecial⟩
    obtain ⟨file, hfile, hrelative⟩ := List.mem_map.mp hpath
    exact ⟨(file, file.size), (getElem?_payload h).mpr ⟨hspecial, hfile, hrelative, rfl⟩⟩

/-- The extracted verifier accepts exactly the listed inventories: the count leaves no room for a
    file that is not listed. -/
theorem verifyInventory_isOk_iff (htree : (tree.map (PackageFile.relative platform)).Nodup)
    (hmanifest : (manifest.files.map ManifestFile.path).Nodup) :
    (∃ actual, verifyInventory sha256 manifest (extractedInventory platform tree) = .ok actual) ↔
      ExactInventory sha256 platform manifest tree := by
  set payload := ((extractedInventory platform tree).erase manifestPath).erase
    manifestSignaturePath with hpayload
  have hcard : (manifest.files.map ManifestFile.path).toFinset.card = manifest.files.length := by
    rw [List.toFinset_card_of_nodup hmanifest, List.length_map]
  have hok : (∃ actual, verifyInventory sha256 manifest (extractedInventory platform tree) =
      .ok actual) ↔ payload.size = manifest.files.length ∧
        ∀ expected ∈ manifest.files, verifyInventoryFile sha256 payload expected = .ok () := by
    simp only [verifyInventory, except_bind_ok_iff, verifyInventoryCount, failIf_ok_iff,
      ← hpayload, not_not, pure, Except.pure, Except.ok.injEq]
    constructor
    · rintro ⟨_, _, hcount, _, hfiles, -⟩
      exact ⟨hcount, except_forM_ok_iff.mp hfiles⟩
    · rintro ⟨hcount, hfiles⟩
      exact ⟨payload, (), hcount, (), except_forM_ok_iff.mpr hfiles, rfl⟩
  rw [hok, size_eq_card]
  constructor
  · rintro ⟨hcount, hfiles⟩
    have hsubset : (manifest.files.map ManifestFile.path).toFinset ⊆ keySet payload := by
      intro path hpath
      rw [List.mem_toFinset, List.mem_map] at hpath
      obtain ⟨expected, hexpected, rfl⟩ := hpath
      obtain ⟨file, size, hget, -⟩ := verifyInventoryFile_ok_iff.mp (hfiles expected hexpected)
      exact mem_keySet.mpr ⟨_, hget⟩
    have hkeys := Finset.eq_of_subset_of_card_le hsubset (by rw [hcount, hcard])
    refine ⟨?_, ?_⟩
    · intro path
      rw [← keySet_payload htree, ← hpayload, ← hkeys, List.mem_toFinset]
    · intro expected hexpected file hfile hrelative
      obtain ⟨path, size, hget, hsize, hdigest⟩ :=
        verifyInventoryFile_ok_iff.mp (hfiles expected hexpected)
      obtain ⟨-, hpath, hpathRelative, hlength⟩ := (getElem?_payload htree).mp hget
      have heq : path = file :=
        List.inj_on_of_nodup_map htree hpath hfile (hpathRelative.trans hrelative.symm)
      subst heq
      exact ⟨hlength.symm.trans hsize, hdigest⟩
  · intro hexact
    refine ⟨?_, ?_⟩
    · rw [← hcard]
      congr 1
      ext path
      rw [keySet_payload htree, List.mem_toFinset, hexact.paths path]
    · intro expected hexpected
      obtain ⟨hmem, hspecial⟩ :=
        (hexact.paths expected.path).mp (List.mem_map_of_mem hexpected)
      obtain ⟨file, hfile, hrelative⟩ := List.mem_map.mp hmem
      obtain ⟨hsize, hdigest⟩ := hexact.files expected hexpected file hfile hrelative
      exact verifyInventoryFile_ok_iff.mpr ⟨file, file.size,
        (getElem?_payload htree).mpr ⟨hspecial, hfile, hrelative, rfl⟩, hsize, hdigest⟩

end ExtractedSpec

/-! ## The installed verifier -/

section InstalledSpec

variable {sha256 : List UInt8 → Sha256Digest} {platform : Platform} {key : OsStr → OsStr}
  {manifest : PackageManifestV1} {walk : List PackageFile}

/-- The ASCII-folded path of a file. -/
def PackageFile.folded (platform : Platform) (file : PackageFile) : String :=
  (file.relative platform).toLower

/-- A directory tree of a package: its folded paths differ, as do the keys by which the file system
    looks its names up, and it holds the two special members. -/
structure PackageTree (platform : Platform) (key : OsStr → OsStr) (walk : List PackageFile) :
    Prop where
  folded : (walk.map (PackageFile.folded platform)).Nodup
  keys : (walk.map fun file => file.names.map key).Nodup
  manifest : ∃ file ∈ walk, file.relative platform = manifestPath
  signature : ∃ file ∈ walk, file.relative platform = manifestSignaturePath

/-- The listed file `expected` is `file`, up to letter case and with the listed content. -/
structure FoldedMatch (sha256 : List UInt8 → Sha256Digest) (platform : Platform)
    (key : OsStr → OsStr) (expected : ManifestFile) (file : PackageFile) : Prop where
  path : file.folded platform = expected.path.toLower
  located : file.names.map key = (normalNames platform (ofText expected.path)).map key
  size : file.size = expected.sizeBytes
  bounded : file.size ≤ maxPayloadBytes
  digest : sha256 file.content = expected.sha256

/-- The manifest lists the files of the tree up to letter case. -/
structure FoldedInventory (sha256 : List UInt8 → Sha256Digest) (platform : Platform)
    (key : OsStr → OsStr) (manifest : PackageManifestV1) (walk : List PackageFile) : Prop where
  expected : ∀ file ∈ walk,
    file.folded platform ∈ [manifestPath.toLower, manifestSignaturePath.toLower] ∨
      ∃ expected ∈ manifest.files, expected.path.toLower = file.folded platform
  listed : ∀ expected ∈ manifest.files, ∃ file ∈ walk,
    FoldedMatch sha256 platform key expected file
  count : walk.length = manifest.files.length + 2

/-- Collecting files with distinct folded paths into a map that holds none of these paths. -/
theorem foldlM_insertPayload {actual : InstalledInventory}
    (hnew : ∀ file ∈ walk, actual[file.folded platform]? = none)
    (hnodup : (walk.map (PackageFile.folded platform)).Nodup) :
    ∃ result, walk.foldlM (insertPayload platform) actual = .ok result ∧
      ∀ path file, result[path]? = some file ↔
        actual[path]? = some file ∨ (file ∈ walk ∧ file.folded platform = path) := by
  induction walk generalizing actual with
  | nil => exact ⟨actual, rfl, by simp⟩
  | cons first rest ih =>
    rw [List.map_cons, List.nodup_cons] at hnodup
    obtain ⟨hfirst, hrest⟩ := hnodup
    have hne : ∀ file ∈ rest, first.folded platform ≠ file.folded platform := by
      intro file hfile heq
      exact hfirst (List.mem_map.mpr ⟨file, hfile, heq.symm⟩)
    have hinsert : insertPayload platform actual first =
        .ok (actual.insert (first.folded platform) first) := by
      have hnone := hnew first List.mem_cons_self
      rw [PackageFile.folded] at hnone
      simp only [insertPayload, hnone, PackageFile.folded]
    obtain ⟨result, hresult, hentries⟩ := @ih (actual.insert (first.folded platform) first)
      (by
        intro file hfile
        rw [getElem?_insert_eq, if_neg (hne file hfile)]
        exact hnew file (List.mem_cons_of_mem first hfile)) hrest
    refine ⟨result, ?_, ?_⟩
    · rw [List.foldlM_cons, hinsert]
      exact hresult
    · intro path file
      rw [hentries, getElem?_insert_eq]
      split_ifs with hpath
      · subst hpath
        have hnone := hnew first List.mem_cons_self
        simp only [hnone, Option.some.injEq, List.mem_cons, reduceCtorEq, false_or]
        constructor
        · rintro (rfl | ⟨hfile, heq⟩)
          · exact ⟨.inl rfl, rfl⟩
          · exact ⟨.inr hfile, heq⟩
        · rintro ⟨rfl | hfile, heq⟩
          · exact .inl rfl
          · exact .inr ⟨hfile, heq⟩
      · simp only [List.mem_cons]
        constructor
        · rintro (h | ⟨hfile, heq⟩)
          · exact .inl h
          · exact .inr ⟨.inr hfile, heq⟩
        · rintro (h | ⟨rfl | hfile, heq⟩)
          · exact .inl h
          · exact absurd heq hpath
          · exact .inr ⟨hfile, heq⟩

/-- The walk through a package tree collects its files by their folded paths. -/
theorem collectRegularPayloads_ok (hnodup : (walk.map (PackageFile.folded platform)).Nodup) :
    ∃ actual, collectRegularPayloads platform walk = .ok actual ∧ actual.size = walk.length ∧
      ∀ path file, actual[path]? = some file ↔ file ∈ walk ∧ file.folded platform = path := by
  obtain ⟨actual, hactual, hentries⟩ :=
    @foldlM_insertPayload platform walk ∅ (by simp) hnodup
  refine ⟨actual, hactual, ?_, by simpa using hentries⟩
  have hkeys : keySet actual = (walk.map (PackageFile.folded platform)).toFinset := by
    ext path
    simp [mem_keySet, hentries]
  rw [size_eq_card, hkeys, List.toFinset_card_of_nodup hnodup, List.length_map]

theorem rejectUnexpectedPayloads_ok_iff {actual : InstalledInventory} {special : List String}
    {expected : Std.TreeMap String ManifestFile} :
    rejectUnexpectedPayloads actual special expected = .ok () ↔
      ∀ path file, actual[path]? = some file →
        path ∈ special ∨ ∃ entry, expected[path]? = some entry := by
  have hfind : rejectUnexpectedPayloads actual special expected = .ok () ↔
      actual.keys.find? (fun relative =>
        !special.contains relative && !expected.contains relative) = none := by
    rw [rejectUnexpectedPayloads]
    split <;> simp_all
  rw [hfind, List.find?_eq_none]
  simp only [Std.TreeMap.mem_keys, Bool.and_eq_true, Bool.not_eq_true', not_and,
    Std.TreeMap.mem_iff_isSome_getElem?, Option.isSome_iff_exists]
  have hcontains : ∀ path, expected.contains path ≠ false ↔ ∃ entry, expected[path]? = some entry := by
    intro path
    rw [ne_eq, Bool.not_eq_false, Std.TreeMap.contains_iff_mem, Std.TreeMap.mem_iff_isSome_getElem?,
      Option.isSome_iff_exists]
  constructor
  · intro h path file hfile
    by_cases hspecial : path ∈ special
    · exact .inl hspecial
    · exact .inr ((hcontains path).mp (h path ⟨file, hfile⟩ (by simpa using hspecial)))
  · rintro h path ⟨file, hfile⟩ hspecial
    apply (hcontains path).mpr
    exact (h path file hfile).resolve_left (by simpa using hspecial)

/-- One listed file: what is found under its folded path is the file that its path names, with the
    listed content. -/
theorem verifyExpectedPayload_ok_iff (htree : PackageTree platform key walk)
    {actual : InstalledInventory} (hactual : ∀ path file, actual[path]? = some file ↔
      file ∈ walk ∧ file.folded platform = path)
    {expected : ManifestFile} (hsafe : isSafeManifestPath platform expected.path = true) :
    verifyExpectedPayload sha256 platform key walk actual[expected.path.toLower]? expected = .ok () ↔
      ∃ file ∈ walk, FoldedMatch sha256 platform key expected file := by
  cases hget : actual[expected.path.toLower]? with
  | none =>
    simp only [verifyExpectedPayload, reduceCtorEq, false_iff, not_exists, not_and]
    intro file hfile hmatch
    have hsome := (hactual expected.path.toLower file).mpr ⟨hfile, hmatch.path⟩
    rw [hget] at hsome
    cases hsome
  | some path =>
    obtain ⟨hpath, hfolded⟩ := (hactual _ _).mp hget
    simp only [verifyExpectedPayload, except_bind_ok_iff, existingFile_ok_iff hsafe htree.keys,
      verifyPayloadPath, verifyPayloadDigest, failIf_ok_iff, not_or, not_not, not_lt]
    constructor
    · rintro ⟨verified, ⟨hverified, hlocated⟩, _, hnames, hsize, hbound, hdigest⟩
      have heq : verified = path := by
        apply List.inj_on_of_nodup_map htree.keys hverified hpath
        simp only [hnames]
      subst heq
      exact ⟨verified, hverified, hfolded, hlocated, hsize, hbound, hdigest⟩
    · rintro ⟨file, hfile, hmatch⟩
      have heq : file = path :=
        List.inj_on_of_nodup_map htree.folded hfile hpath (hmatch.path.trans hfolded.symm)
      subst heq
      exact ⟨file, ⟨hfile, hmatch.located⟩, (), rfl, hmatch.size, hmatch.bounded, hmatch.digest⟩

/-- The installed verifier accepts the inventories that are listed up to letter case. -/
theorem validateInstalled_ok_iff (htree : PackageTree platform key walk)
    (hmanifest : validateManifest platform manifest = .ok ()) :
    validateInstalled sha256 platform key walk manifest = .ok () ↔
      FoldedInventory sha256 platform key manifest walk := by
  obtain ⟨hsafe, hnodup⟩ := validateManifest_paths hmanifest
  obtain ⟨actual, hcollect, hsize, hactual⟩ :=
    @collectRegularPayloads_ok platform walk htree.folded
  have hpairs : ((manifest.files.map fun file => (file.path.toLower, file)).map Prod.fst).Nodup := by
    rw [List.map_map]
    exact hnodup
  have hexpected : ∀ path entry,
      (Std.TreeMap.ofList (manifest.files.map fun file => (file.path.toLower, file)) :
        Std.TreeMap String ManifestFile)[path]? = some entry ↔
      entry ∈ manifest.files ∧ entry.path.toLower = path := by
    intro path entry
    rw [getElem?_ofList_iff hpairs, List.mem_map]
    constructor
    · rintro ⟨file, hfile, heq⟩
      cases heq
      exact ⟨hfile, rfl⟩
    · rintro ⟨hentry, rfl⟩
      exact ⟨entry, hentry, rfl⟩
  simp only [validateInstalled, hcollect, validateInventory, except_bind_ok_iff, Except.ok.injEq,
    exists_eq_left', failIf_ok_iff, not_not, hsize, List.length_cons,
    List.length_nil]
  constructor
  · rintro ⟨_, hunexpected, _, hlisted, hcount⟩
    refine ⟨?_, ?_, hcount⟩
    · intro file hfile
      have hkey := rejectUnexpectedPayloads_ok_iff.mp hunexpected _ file
        ((hactual _ file).mpr ⟨hfile, rfl⟩)
      refine hkey.imp id ?_
      rintro ⟨entry, hentry⟩
      exact ⟨entry, (hexpected _ entry).mp hentry⟩
    · intro expected hmem
      rw [except_forM_ok_iff] at hlisted
      have hentry := Std.TreeMap.mem_toList_iff_getElem?_eq_some.mpr
        ((hexpected expected.path.toLower expected).mpr ⟨hmem, rfl⟩)
      exact (verifyExpectedPayload_ok_iff htree hactual (hsafe expected hmem)).mp
        (hlisted _ hentry)
  · rintro ⟨hunexpected, hlisted, hcount⟩
    refine ⟨(), ?_, (), ?_, hcount⟩
    · rw [rejectUnexpectedPayloads_ok_iff]
      intro path file hfile
      obtain ⟨hmem, rfl⟩ := (hactual path file).mp hfile
      refine (hunexpected file hmem).imp id ?_
      rintro ⟨entry, hentry, hpath⟩
      exact ⟨entry, (hexpected _ entry).mpr ⟨hentry, hpath⟩⟩
    · rw [except_forM_ok_iff]
      rintro ⟨path, entry⟩ hentry
      obtain ⟨hmem, rfl⟩ :=
        (hexpected path entry).mp (Std.TreeMap.mem_toList_iff_getElem?_eq_some.mp hentry)
      exact (verifyExpectedPayload_ok_iff htree hactual (hsafe entry hmem)).mpr (hlisted entry hmem)

/-! ## The two verifiers -/

theorem toLower_manifestPath : manifestPath.toLower = manifestPath := by decide +kernel

theorem toLower_manifestSignaturePath :
    manifestSignaturePath.toLower = manifestSignaturePath := by decide +kernel

theorem PackageTree.nodup_relative (h : PackageTree platform key walk) :
    (walk.map (PackageFile.relative platform)).Nodup := by
  have hmap : walk.map (PackageFile.folded platform) =
      (walk.map (PackageFile.relative platform)).map String.toLower := by
    rw [List.map_map]
    rfl
  have hfolded := h.folded
  rw [hmap] at hfolded
  exact hfolded.of_map _

/-- A file whose folded path is that of a special member is the special member. -/
theorem PackageTree.relative_eq_of_folded (h : PackageTree platform key walk) {file : PackageFile}
    (hfile : file ∈ walk) {special : String} (hspecial : special.toLower = special)
    (hmember : ∃ member ∈ walk, member.relative platform = special)
    (hfolded : file.folded platform = special) : file.relative platform = special := by
  obtain ⟨member, hmem, rfl⟩ := hmember
  have heq : file = member := by
    apply List.inj_on_of_nodup_map h.folded hfile hmem
    rw [hfolded]
    exact hspecial.symm
  rw [heq]

/-- The tree of an exact inventory has two files more than the manifest lists. -/
theorem ExactInventory.length_eq (htree : PackageTree platform key walk)
    (hpaths : (manifest.files.map ManifestFile.path).Nodup)
    (h : ExactInventory sha256 platform manifest walk) :
    walk.length = manifest.files.length + 2 := by
  set relatives := (walk.map (PackageFile.relative platform)).toFinset with hrelatives
  have hlisted : (manifest.files.map ManifestFile.path).toFinset =
      (relatives.erase manifestPath).erase manifestSignaturePath := by
    ext path
    rw [List.mem_toFinset, h.paths path, Finset.mem_erase, Finset.mem_erase, hrelatives,
      List.mem_toFinset]
    tauto
  have hmanifest : manifestPath ∈ relatives := by
    obtain ⟨file, hfile, heq⟩ := htree.manifest
    exact List.mem_toFinset.mpr (List.mem_map.mpr ⟨file, hfile, heq⟩)
  have hsignature : manifestSignaturePath ∈ relatives.erase manifestPath := by
    obtain ⟨file, hfile, heq⟩ := htree.signature
    exact Finset.mem_erase.mpr ⟨by decide,
      List.mem_toFinset.mpr (List.mem_map.mpr ⟨file, hfile, heq⟩)⟩
  have hcard := congrArg Finset.card hlisted
  have hfirst := Finset.card_erase_add_one hmanifest
  have hsecond := Finset.card_erase_add_one hsignature
  rw [List.toFinset_card_of_nodup hpaths, List.length_map] at hcard
  have hwalk : relatives.card = walk.length := by
    rw [hrelatives, List.toFinset_card_of_nodup htree.nodup_relative, List.length_map]
  omega

/-- No path of an exact inventory is a special member up to letter case. -/
theorem ExactInventory.not_special (htree : PackageTree platform key walk)
    (h : ExactInventory sha256 platform manifest walk) {expected : ManifestFile}
    (hexpected : expected ∈ manifest.files) :
    expected.path.toLower ≠ manifestPath ∧ expected.path.toLower ≠ manifestSignaturePath := by
  obtain ⟨hmem, hmanifest, hsignature⟩ :=
    (h.paths expected.path).mp (List.mem_map_of_mem hexpected)
  obtain ⟨file, hfile, hrelative⟩ := List.mem_map.mp hmem
  rw [← hrelative] at hmanifest hsignature ⊢
  exact ⟨fun hfolded => hmanifest
      (htree.relative_eq_of_folded hfile toLower_manifestPath htree.manifest hfolded),
    fun hfolded => hsignature
      (htree.relative_eq_of_folded hfile toLower_manifestSignaturePath htree.signature hfolded)⟩

/-- No path that the installed verifier accepts is a special member up to letter case: the count
    would be one too small. -/
theorem FoldedInventory.not_special (htree : PackageTree platform key walk)
    (hnodup : (manifest.files.map fun file => file.path.toLower).Nodup)
    (h : FoldedInventory sha256 platform key manifest walk) {expected : ManifestFile}
    (hexpected : expected ∈ manifest.files) :
    expected.path.toLower ≠ manifestPath ∧ expected.path.toLower ≠ manifestSignaturePath := by
  set listed := (manifest.files.map fun file => file.path.toLower).toFinset with hlisted
  have hcard : listed.card = manifest.files.length := by
    rw [hlisted, List.toFinset_card_of_nodup hnodup, List.length_map]
  have hsubset : (walk.map (PackageFile.folded platform)).toFinset ⊆
      insert manifestPath (insert manifestSignaturePath listed) := by
    intro path hpath
    rw [List.mem_toFinset, List.mem_map] at hpath
    obtain ⟨file, hfile, rfl⟩ := hpath
    rw [Finset.mem_insert, Finset.mem_insert]
    rcases h.expected file hfile with hspecial | ⟨entry, hentry, heq⟩
    · rw [toLower_manifestPath, toLower_manifestSignaturePath] at hspecial
      rcases List.mem_cons.mp hspecial with heq | hmem
      · exact .inl heq
      · exact .inr (.inl (List.mem_singleton.mp hmem))
    · exact .inr (.inr (List.mem_toFinset.mpr (List.mem_map.mpr ⟨entry, hentry, heq⟩)))
  have hcount := Finset.card_le_card hsubset
  rw [List.toFinset_card_of_nodup htree.folded, List.length_map, h.count] at hcount
  have hmem : expected.path.toLower ∈ listed :=
    List.mem_toFinset.mpr (List.mem_map.mpr ⟨expected, hexpected, rfl⟩)
  have hsignature := Finset.card_insert_le manifestSignaturePath listed
  have hmanifest := Finset.card_insert_le manifestPath (insert manifestSignaturePath listed)
  constructor
  · intro heq
    rw [heq] at hmem
    rw [Finset.insert_eq_of_mem (Finset.mem_insert_of_mem hmem)] at hcount
    omega
  · intro heq
    rw [heq] at hmem
    rw [Finset.insert_eq_of_mem hmem] at hcount hmanifest
    omega

/-- An exact inventory is listed up to letter case. -/
theorem ExactInventory.toFolded (htree : PackageTree platform key walk)
    (hsafe : ∀ file ∈ manifest.files, isSafeManifestPath platform file.path = true)
    (hpaths : (manifest.files.map ManifestFile.path).Nodup)
    (hbound : ∀ file ∈ walk, file.size ≤ maxPayloadBytes)
    (h : ExactInventory sha256 platform manifest walk) :
    FoldedInventory sha256 platform key manifest walk := by
  refine ⟨?_, ?_, h.length_eq htree hpaths⟩
  · intro file hfile
    rw [toLower_manifestPath, toLower_manifestSignaturePath]
    by_cases hspecial : file.relative platform = manifestPath ∨
        file.relative platform = manifestSignaturePath
    · left
      rw [PackageFile.folded]
      rcases hspecial with heq | heq
      · simp [heq, toLower_manifestPath]
      · simp [heq, toLower_manifestSignaturePath]
    · right
      rw [not_or] at hspecial
      have hlisted := (h.paths (file.relative platform)).mpr
        ⟨List.mem_map_of_mem hfile, hspecial⟩
      obtain ⟨expected, hexpected, heq⟩ := List.mem_map.mp hlisted
      exact ⟨expected, hexpected, by rw [heq, PackageFile.folded]⟩
  · intro expected hexpected
    obtain ⟨hmem, -⟩ := (h.paths expected.path).mp (List.mem_map_of_mem hexpected)
    obtain ⟨file, hfile, hrelative⟩ := List.mem_map.mp hmem
    obtain ⟨hsize, hdigest⟩ := h.files expected hexpected file hfile hrelative
    have hsafePath := hsafe expected hexpected
    rw [← hrelative] at hsafePath
    refine ⟨file, hfile, ?_, ?_, hsize, hbound file hfile, hdigest⟩
    · rw [PackageFile.folded, hrelative]
    · rw [← hrelative, normalNames_relative hsafePath]

/-- An inventory that is listed up to letter case is exact when every listed path is spelled like
    its file. -/
theorem FoldedInventory.toExact (htree : PackageTree platform key walk)
    (hnodup : (manifest.files.map fun file => file.path.toLower).Nodup)
    (h : FoldedInventory sha256 platform key manifest walk)
    (hspelled : ∀ expected ∈ manifest.files, ∃ file ∈ walk, file.relative platform = expected.path) :
    ExactInventory sha256 platform manifest walk := by
  -- The file under the folded path of a listed file is the one spelled like it.
  have hunique : ∀ expected ∈ manifest.files, ∀ file ∈ walk,
      file.folded platform = expected.path.toLower → file.relative platform = expected.path := by
    intro expected hexpected file hfile hfolded
    obtain ⟨spelled, hmem, hrelative⟩ := hspelled expected hexpected
    have heq : file = spelled := by
      apply List.inj_on_of_nodup_map htree.folded hfile hmem
      rw [hfolded, PackageFile.folded, hrelative]
    rw [heq, hrelative]
  refine ⟨?_, ?_⟩
  · intro path
    constructor
    · intro hpath
      obtain ⟨expected, hexpected, rfl⟩ := List.mem_map.mp hpath
      obtain ⟨file, hfile, hrelative⟩ := hspelled expected hexpected
      obtain ⟨hmanifest, hsignature⟩ := h.not_special htree hnodup hexpected
      refine ⟨List.mem_map.mpr ⟨file, hfile, hrelative⟩, ?_, ?_⟩
      · intro heq
        rw [heq, toLower_manifestPath] at hmanifest
        exact hmanifest rfl
      · intro heq
        rw [heq, toLower_manifestSignaturePath] at hsignature
        exact hsignature rfl
    · rintro ⟨hpath, hmanifest, hsignature⟩
      obtain ⟨file, hfile, rfl⟩ := List.mem_map.mp hpath
      rcases h.expected file hfile with hspecial | ⟨expected, hexpected, heq⟩
      · rw [toLower_manifestPath, toLower_manifestSignaturePath] at hspecial
        rcases List.mem_cons.mp hspecial with heq | hmem
        · exact absurd
            (htree.relative_eq_of_folded hfile toLower_manifestPath htree.manifest heq) hmanifest
        · exact absurd (htree.relative_eq_of_folded hfile toLower_manifestSignaturePath
            htree.signature (List.mem_singleton.mp hmem)) hsignature
      · rw [hunique expected hexpected file hfile heq.symm]
        exact List.mem_map_of_mem hexpected
  · intro expected hexpected file hfile hrelative
    obtain ⟨listed, hlisted, hmatch⟩ := h.listed expected hexpected
    have heq : file = listed := by
      apply List.inj_on_of_nodup_map htree.folded hfile hlisted
      rw [hmatch.path, PackageFile.folded, hrelative]
    rw [heq]
    exact ⟨hmatch.size, hmatch.digest⟩

theorem ExactInventory.perm {tree : List PackageFile} (hperm : tree.Perm walk) :
    ExactInventory sha256 platform manifest tree ↔ ExactInventory sha256 platform manifest walk := by
  have hpaths : ∀ path, path ∈ tree.map (PackageFile.relative platform) ↔
      path ∈ walk.map (PackageFile.relative platform) := fun path => (hperm.map _).mem_iff
  constructor
  · rintro ⟨hlisted, hfiles⟩
    exact ⟨fun path => by rw [hlisted path, hpaths path],
      fun expected hexpected file hfile => hfiles expected hexpected file (hperm.mem_iff.mpr hfile)⟩
  · rintro ⟨hlisted, hfiles⟩
    exact ⟨fun path => by rw [hlisted path, hpaths path],
      fun expected hexpected file hfile => hfiles expected hexpected file (hperm.mem_iff.mp hfile)⟩

/-- The verifiers of the extracted package and of the installed one, on the same tree in any two
    orders. The extracted verifier is exact; neither accepts a manifest that lists a special member;
    the installed verifier accepts what the extracted one does, and the other way round when every
    listed path is spelled like a file of the tree, as it is wherever names differ by letter case. -/
theorem inventory_verifiers {extracted : List PackageFile}
    (hmanifest : validateManifest platform manifest = .ok ())
    (htree : PackageTree platform key walk) (hperm : extracted.Perm walk) :
    let accepted :=
      ∃ actual, verifyInventory sha256 manifest (extractedInventory platform extracted) = .ok actual
    let installed := validateInstalled sha256 platform key walk manifest = .ok ()
    (accepted ↔ ExactInventory sha256 platform manifest walk) ∧
    (accepted ∨ installed → ∀ expected ∈ manifest.files,
      expected.path.toLower ≠ manifestPath ∧ expected.path.toLower ≠ manifestSignaturePath) ∧
    ((∀ file ∈ walk, file.size ≤ maxPayloadBytes) →
      (accepted ↔ installed ∧
        ∀ expected ∈ manifest.files, ∃ file ∈ walk, file.relative platform = expected.path) ∧
      (Function.Injective key → (installed ↔ accepted))) := by
  intro accepted installed
  obtain ⟨hsafe, hnodup⟩ := validateManifest_paths hmanifest
  have hpaths := nodup_paths hnodup
  have hexact : accepted ↔ ExactInventory sha256 platform manifest walk := by
    have hextracted : (extracted.map (PackageFile.relative platform)).Nodup :=
      (hperm.map _).nodup_iff.mpr htree.nodup_relative
    exact (verifyInventory_isOk_iff hextracted hpaths).trans (ExactInventory.perm hperm)
  have hfolded : installed ↔ FoldedInventory sha256 platform key manifest walk :=
    validateInstalled_ok_iff htree hmanifest
  refine ⟨hexact, ?_, ?_⟩
  · rintro (h | h) expected hexpected
    · exact (hexact.mp h).not_special htree hexpected
    · exact (hfolded.mp h).not_special htree hnodup hexpected
  · intro hbound
    have hiff : accepted ↔ installed ∧
        ∀ expected ∈ manifest.files, ∃ file ∈ walk, file.relative platform = expected.path := by
      rw [hexact, hfolded]
      constructor
      · intro h
        refine ⟨h.toFolded htree hsafe hpaths hbound, ?_⟩
        intro expected hexpected
        obtain ⟨hmem, -⟩ := (h.paths expected.path).mp (List.mem_map_of_mem hexpected)
        exact List.mem_map.mp hmem
      · rintro ⟨h, hspelled⟩
        exact h.toExact htree hnodup hspelled
    refine ⟨hiff, ?_⟩
    intro hkey
    rw [hiff, iff_self_and]
    intro h expected hexpected
    obtain ⟨file, hfile, hmatch⟩ := (hfolded.mp h).listed expected hexpected
    exact ⟨file, hfile, relative_eq_of_names (hsafe expected hexpected)
      (List.map_injective_iff.mpr hkey hmatch.located)⟩

end InstalledSpec

/-! ## A package -/

/-- A name as the manifest may spell it. -/
def isTreeName (name : String) : Bool :=
  name.toList ≠ [] && name.toList ≠ ['.'] && name.toList ≠ ['.', '.'] &&
    name.toList.all fun c => c ≠ '/' && c ≠ '\\'

theorem treeName_ofText {name : String} (h : isTreeName name = true) : TreeName (ofText name) := by
  simp only [isTreeName, Bool.and_eq_true, decide_eq_true_eq, List.all_eq_true] at h
  obtain ⟨⟨⟨hnil, hcur⟩, hparent⟩, hunits⟩ := h
  have hinj := List.map_injective_iff.mpr fun a b (h : OsUnit.char a = .char b) => OsUnit.char.inj h
  refine ⟨by simpa [ofText] using hnil, fun heq => hcur (hinj heq), fun heq => hparent (hinj heq), ?_⟩
  intro unit hunit
  obtain ⟨c, hc, rfl⟩ := List.mem_map.mp hunit
  exact ⟨c, rfl, hunits c hc⟩

/-- A file with one byte. -/
def payloadFile (names : List String) (h : names.all isTreeName = true) (hne : names ≠ []) :
    PackageFile where
  names := names.map ofText
  content := [1]
  valid := by
    intro name hname
    obtain ⟨text, htext, rfl⟩ := List.mem_map.mp hname
    exact treeName_ofText (List.all_eq_true.mp h text htext)
  nonempty := by simpa using hne

/-- `Sha256Digest::of_bytes`. -/
def digestOf (bytes : List UInt8) : Sha256Digest := ⟨Lib.Sha256.sha256 bytes⟩

/-- A manifest of the required executables. -/
def executablesManifest : PackageManifestV1 where
  schemaVersion := "1.0"
  product := "BaselineOps for Windows"
  packageVersion := "3.0.0"
  target := "x86_64-pc-windows-msvc"
  signerSubject := "CN=BaselineOps"
  files := requiredExecutables.map fun path => ⟨path, 1, digestOf [1]⟩

/-- A tree of the required executables, the first of which has the given name. -/
def executablesTree (first : String) (h : isTreeName first = true) : List PackageFile :=
  [payloadFile ["bin", first] (by simp [h]; decide) (by simp),
   payloadFile ["bin", "baselineops-gui.exe"] (by decide) (by simp),
   payloadFile ["bin", "baselineops-worker.exe"] (by decide) (by simp),
   payloadFile ["manifest.json"] (by decide) (by simp),
   payloadFile ["manifest.json.p7"] (by decide) (by simp)]

/-- Names are looked up without regard to ASCII case. -/
def foldKey (name : OsStr) : OsStr :=
  name.map fun
    | .char c => .char c.toLower
    | .ill unit => .ill unit

theorem validateManifest_executables :
    validateManifest .windows executablesManifest = .ok () := by
  simp only [validateManifest, except_bind_ok_iff]
  refine ⟨(), ?_, (), ?_, ?_⟩
  · simp only [validateManifestIdentity, except_bind_ok_iff, failIf_ok_iff]
    refine ⟨(), by decide, (), by decide, (), by decide, (), by decide, by decide⟩
  · exact validateManifestPathsFrom_ok_iff.mpr ⟨by decide +kernel, by decide +kernel⟩
  · rw [validateRequiredExecutables, except_forM_ok_iff]
    intro required hrequired
    rw [failIf_ok_iff]
    intro hall
    exact hall ⟨required, 1, digestOf [1]⟩ (List.mem_map.mpr ⟨required, hrequired, rfl⟩) rfl

/-- The executables under the names the manifest lists. -/
def listedTree : List PackageFile := executablesTree "baselineops.exe" (by decide)

/-- The executables, the first in another spelling. -/
def respelledTree : List PackageFile := executablesTree "BaselineOps.exe" (by decide)

theorem packageTree_listedTree : PackageTree .windows id listedTree :=
  ⟨by decide +kernel, by decide +kernel, by decide +kernel, by decide +kernel⟩

theorem packageTree_respelledTree : PackageTree .windows foldKey respelledTree :=
  ⟨by decide +kernel, by decide +kernel, by decide +kernel, by decide +kernel⟩

theorem inventory_verifiers_listedTree :
    validateInstalled digestOf .windows id listedTree executablesManifest = .ok () ↔
      ∃ actual, verifyInventory digestOf executablesManifest
        (extractedInventory .windows listedTree.reverse) = .ok actual := by
  have h := @inventory_verifiers digestOf .windows id executablesManifest listedTree
    listedTree.reverse validateManifest_executables packageTree_listedTree (List.reverse_perm _)
  exact (h.2.2 (by decide)).2 Function.injective_id

theorem folded_respelledTree : respelledTree.map (PackageFile.folded .windows) =
    requiredExecutables ++ [manifestPath, manifestSignaturePath] := by decide +kernel

theorem toLower_requiredExecutables {path : String} (h : path ∈ requiredExecutables) :
    path.toLower = path := by
  have hall : ∀ path ∈ requiredExecutables, path.toLower = path := by decide +kernel
  exact hall path h

/-- The respelled tree is listed up to letter case. -/
theorem foldedInventory_respelledTree :
    FoldedInventory digestOf .windows foldKey executablesManifest respelledTree := by
  refine ⟨?_, ?_, rfl⟩
  · intro file hfile
    have hfolded : file.folded .windows ∈ respelledTree.map (PackageFile.folded .windows) :=
      List.mem_map_of_mem hfile
    rw [folded_respelledTree, List.mem_append] at hfolded
    rw [toLower_manifestPath, toLower_manifestSignaturePath]
    rcases hfolded with hrequired | hspecial
    · exact .inr ⟨⟨file.folded .windows, 1, digestOf [1]⟩,
        List.mem_map.mpr ⟨_, hrequired, rfl⟩, toLower_requiredExecutables hrequired⟩
    · exact .inl hspecial
  · intro expected hexpected
    obtain ⟨path, hpath, rfl⟩ := List.mem_map.mp hexpected
    have hlower := toLower_requiredExecutables hpath
    simp only [requiredExecutables, List.mem_cons, List.not_mem_nil, or_false] at hpath
    rcases hpath with rfl | rfl | rfl
    · refine ⟨respelledTree[0], List.getElem_mem _, ?_, by decide +kernel, rfl, by decide,
        congrArg digestOf rfl⟩
      rw [hlower]
      decide +kernel
    · refine ⟨respelledTree[1], List.getElem_mem _, ?_, by decide +kernel, rfl, by decide,
        congrArg digestOf rfl⟩
      rw [hlower]
      decide +kernel
    · refine ⟨respelledTree[2], List.getElem_mem _, ?_, by decide +kernel, rfl, by decide,
        congrArg digestOf rfl⟩
      rw [hlower]
      decide +kernel

/-- The installed verifier accepts a package with a file in another spelling than the manifest's,
    which the extracted verifier refuses. -/
theorem inventory_verifiers_respelledTree :
    validateManifest .windows executablesManifest = .ok () ∧
    PackageTree .windows foldKey respelledTree ∧
    (∀ file ∈ respelledTree, file.size ≤ maxPayloadBytes) ∧
    validateInstalled digestOf .windows foldKey respelledTree executablesManifest = .ok () ∧
    ¬ ∃ actual, verifyInventory digestOf executablesManifest
      (extractedInventory .windows respelledTree) = .ok actual := by
  have hmanifest := validateManifest_executables
  have htree := packageTree_respelledTree
  refine ⟨hmanifest, htree, by decide, ?_, ?_⟩
  · exact (validateInstalled_ok_iff htree hmanifest).mpr foldedInventory_respelledTree
  · rw [verifyInventory_isOk_iff htree.nodup_relative
      (nodup_paths (validateManifest_paths hmanifest).2)]
    intro hexact
    have hpath : "bin/baselineops.exe" ∈ executablesManifest.files.map ManifestFile.path := by
      simp [executablesManifest, requiredExecutables]
    have hlisted := ((hexact.paths "bin/baselineops.exe").mp hpath).1
    exact absurd hlisted (by decide +kernel)

end BaselineOps.Package
