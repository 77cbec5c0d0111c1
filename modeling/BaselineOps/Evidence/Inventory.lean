import BaselineOps.Evidence.Outcome
import BaselineOps.Evidence.Reopen

/-!
# The inventory of an opened store

`EvidenceStore::open` (lines 158–176) takes the order of the manifest and the spellings of its locators
as they are on disk; `insert_artifact_sorted` (lines 306–310) relies on the order.

* `inventory_iff`: behind `open` and any writes the inventory is ordered and free of aliases just when
  the manifest file on disk is (`OrderedOnDisk`).
* `storeRun_ordered`: the manifests of this writer are.
-/

namespace BaselineOps.Engine

open BaselineOps.Domain BaselineOps.Lib

variable {K : Type} [DecidableEq K] {p : Platform K} {limits : EvidenceLimits}

/-! ## The invariant -/

/-- The locators ascend, and no two of them name one file. -/
structure Ordered (p : Platform K) (artifacts : List ArtifactV3) : Prop where
  ascending : artifacts.Pairwise fun a b => a.locator < b.locator
  aliasFree : artifacts.Pairwise fun a b => p.resolve a.locator ≠ p.resolve b.locator

/-- The inventory is ordered, and its files are there. -/
structure Inventoried (p : Platform K) (m : Machine K) : Prop where
  ordered : Ordered p m.manifest.artifacts
  present : ∀ a ∈ m.manifest.artifacts, (m.disk (p.resolve a.locator)).isSome = true

omit [DecidableEq K] in
/-- An artifact with a file of its own can be inserted. -/
theorem Ordered.insert {manifest : EvidenceManifest} (h : Ordered p manifest.artifacts)
    {artifact : ArtifactV3} (total : UInt64)
    (hnew : ∀ a ∈ manifest.artifacts, p.resolve a.locator ≠ p.resolve artifact.locator) :
    Ordered p (manifest.insert artifact total).artifacts where
  ascending := sorted_insert total h.ascending fun a ha heq => hnew a ha (congrArg p.resolve heq)
  aliasFree := by
    have hcons : (artifact :: manifest.artifacts).Pairwise fun a b =>
        p.resolve a.locator ≠ p.resolve b.locator :=
      List.pairwise_cons.mpr ⟨fun a ha => (hnew a ha).symm, h.aliasFree⟩
    exact (perm_insert manifest artifact total).symm.pairwise hcons fun hne => hne.symm

/-- One write keeps the invariant, whatever fails; a result is one more artifact. -/
theorem write_inventoried {m : Machine K} (h : Inventoried p m) (request : EvidenceWrite)
    (bytes : List UInt8) (faults : WriteFaults) :
    Ensures (EvidenceStore.write p limits request bytes faults) m
      (fun artifact m' => Inventoried p m' ∧
        m'.manifest.artifacts.Perm (artifact :: m.manifest.artifacts))
      (fun _ m' => Inventoried p m' ∧ m'.manifest.artifacts = m.manifest.artifacts) := by
  refine (write_outcome request bytes faults).mono ?_ ?_
  · intro artifact m' hwritten
    obtain ⟨total, hmanifest⟩ := hwritten.manifest
    obtain ⟨content, hdisk⟩ := hwritten.disk
    have hperm : m'.manifest.artifacts.Perm (artifact :: m.manifest.artifacts) := by
      rw [hmanifest]
      exact perm_insert m.manifest artifact total
    -- The new file was not there, the listed ones were.
    have hnew : ∀ a ∈ m.manifest.artifacts, p.resolve a.locator ≠ p.resolve artifact.locator := by
      intro a ha heq
      have hpresent := h.present a ha
      rw [heq, hwritten.locator, hwritten.admissible.absent] at hpresent
      cases hpresent
    refine ⟨⟨?_, ?_⟩, hperm⟩
    · rw [hmanifest]
      exact h.ordered.insert total hnew
    · intro a ha
      rw [hdisk]
      refine isSome_update ?_ p.manifestFile content
      rcases List.mem_cons.mp (hperm.subset ha) with rfl | ha
      · rw [hwritten.locator, Function.update_self]
        rfl
      · exact isSome_update (h.present a ha) _ bytes
  · rintro e m' (⟨rfl, -⟩ | ⟨-, hbegun, -⟩ | ⟨hadmissible, -, hmanifest, hkept, -⟩)
    · exact ⟨h, rfl⟩
    · obtain ⟨content, hdisk⟩ := hbegun.content
      refine ⟨⟨?_, ?_⟩, by rw [hbegun.manifest]⟩
      · rw [hbegun.manifest]
        exact h.ordered
      · intro a ha
        rw [hbegun.manifest] at ha
        rw [hdisk]
        exact isSome_update (h.present a ha) _ content
    · refine ⟨⟨?_, ?_⟩, by rw [hmanifest]⟩
      · rw [hmanifest]
        exact h.ordered
      · intro a ha
        rw [hmanifest] at ha
        refine hkept _ ?_ (h.present a ha)
        intro heq
        have hpresent := h.present a ha
        rw [heq, hadmissible.absent] at hpresent
        cases hpresent

/-! ## Runs -/

/-- The artifacts that the writes of a run returned. -/
def writtenArtifacts (p : Platform K) (limits : EvidenceLimits) :
    Machine K → List WriteCall → List ArtifactV3
  | _, [] => []
  | m, call :: calls =>
    match EvidenceStore.write p limits call.request call.bytes call.faults m with
    | .ok artifact m' => artifact :: writtenArtifacts p limits m' calls
    | .error _ m' => writtenArtifacts p limits m' calls

/-- Every run keeps the invariant, and lists what it wrote besides what was listed. -/
theorem runWrites_inventoried {m : Machine K} (h : Inventoried p m) (calls : List WriteCall) :
    Inventoried p (runWrites p limits m calls) ∧
      (runWrites p limits m calls).manifest.artifacts.Perm
        (writtenArtifacts p limits m calls ++ m.manifest.artifacts) := by
  induction calls generalizing m with
  | nil => exact ⟨h, List.Perm.refl _⟩
  | cons call calls ih =>
    have hwrite := @write_inventoried _ _ p limits _ h call.request call.bytes call.faults
    rw [runWrites, List.foldl_cons, ← runWrites, writtenArtifacts]
    cases hrun : EvidenceStore.write p limits call.request call.bytes call.faults m with
    | ok artifact m' =>
      obtain ⟨hinventoried, hperm⟩ := hwrite.ok hrun
      obtain ⟨hfinal, hfinalPerm⟩ := ih hinventoried
      refine ⟨hfinal, hfinalPerm.trans ?_⟩
      exact (hperm.append_left _).trans List.perm_middle
    | error e m' =>
      obtain ⟨hinventoried, hsame⟩ := hwrite.error hrun
      obtain ⟨hfinal, hfinalPerm⟩ := ih hinventoried
      refine ⟨hfinal, ?_⟩
      rw [← hsame]
      exact hfinalPerm

/-- The store behind `open`. -/
def openedMachine (disk : Disk K) (manifest : EvidenceManifest) : Machine K := ⟨manifest, true, disk, []⟩

/-- What an opened store is to promise after any writes: an ordered inventory without aliases, in which
    each retained file is listed once. -/
structure Promises (p : Platform K) (limits : EvidenceLimits) (opened : Machine K)
    (calls : List WriteCall) : Prop where
  ordered : Ordered p (runWrites p limits opened calls).manifest.artifacts
  listedOnce : ∀ a ∈ writtenArtifacts p limits opened calls ++ opened.manifest.artifacts,
    ∃! b, b ∈ (runWrites p limits opened calls).manifest.artifacts ∧
      p.resolve b.locator = p.resolve a.locator

theorem Inventoried.promises {opened : Machine K} (h : Inventoried p opened) (calls : List WriteCall) :
    Promises p limits opened calls := by
  obtain ⟨hfinal, hperm⟩ := @runWrites_inventoried _ _ p limits _ h calls
  refine ⟨hfinal.ordered, fun a ha => ⟨a, ⟨hperm.symm.subset ha, rfl⟩, ?_⟩⟩
  rintro b ⟨hb, hsame⟩
  have hnodup : ((runWrites p limits opened calls).manifest.artifacts.map
      fun a => p.resolve a.locator).Nodup :=
    List.pairwise_map.mpr hfinal.ordered.aliasFree
  exact List.inj_on_of_nodup_map hnodup hb (hperm.symm.subset ha) hsame

/-! ## Opening -/

omit [DecidableEq K] in
/-- The loop of `validate_manifest` reads every file. -/
theorem validateManifestRounds_present {disk : Disk K} {artifacts : List ArtifactV3}
    {state final : List String × UInt64}
    (h : artifacts.foldlM (validateManifestRound p limits disk) state = .ok final) :
    ∀ a ∈ artifacts, (disk (p.resolve a.locator)).isSome = true := by
  induction artifacts generalizing state with
  | nil => simp
  | cons a artifacts ih =>
    rw [List.foldlM_cons, except_bind_ok_iff] at h
    obtain ⟨next, hround, hrest⟩ := h
    rw [List.forall_mem_cons]
    refine ⟨?_, ih hrest⟩
    unfold validateManifestRound validateManifestArtifact at hround
    simp only [except_bind_ok_iff] at hround
    obtain ⟨_, ⟨path, hpath, _, -, bytes, hread, -⟩, -⟩ := hround
    obtain rfl := safeRelativePath_ok hpath
    rw [readVerifiedArtifact] at hread
    cases hdisk : disk (p.resolve a.locator) with
    | none =>
      rw [hdisk] at hread
      cases hread
    | some content => rfl

omit [DecidableEq K] in
/-- The manifest of an opened store is the one on disk. -/
theorem openStore_reads {disk : Disk K} {verify : Except EvidenceError Unit}
    {manifest : EvidenceManifest} (h : openStore p limits disk verify = .ok manifest) :
    readManifest p disk = .ok manifest := by
  unfold openStore at h
  simp only [except_bind_ok_iff] at h
  obtain ⟨_, -, _, -, read, hread, _, -, heq⟩ := h
  cases heq
  exact hread

omit [DecidableEq K] in
theorem openStore_present {disk : Disk K} {verify : Except EvidenceError Unit}
    {manifest : EvidenceManifest} (h : openStore p limits disk verify = .ok manifest) :
    ∀ a ∈ manifest.artifacts, (disk (p.resolve a.locator)).isSome = true := by
  unfold openStore at h
  simp only [except_bind_ok_iff] at h
  obtain ⟨_, -, _, -, read, -, _, hvalidate, heq⟩ := h
  cases heq
  unfold validateManifest at hvalidate
  simp only [except_bind_ok_iff] at hvalidate
  obtain ⟨_, -, final, hfold, -⟩ := hvalidate
  exact validateManifestRounds_present hfold

/-- The manifests of this writer are ordered and without aliases. -/
theorem storeRun_ordered (disk : Disk K) (faults : CreateFaults) (calls : List WriteCall) :
    Ordered p (storeRun p limits disk faults calls).manifest.artifacts := by
  have hempty : ∀ {m : Machine K}, m.manifest = EvidenceManifest.empty → Inventoried p m := by
    intro m hm
    refine ⟨?_, ?_⟩
    · rw [hm]
      exact ⟨List.Pairwise.nil, List.Pairwise.nil⟩
    · rw [hm]
      intro a ha
      cases ha
  have hcreate : Ensures (EvidenceStore.create p limits faults) (initialMachine disk)
      (fun _ m => Inventoried p m) (fun _ m => Inventoried p m) := by
    have hinitial : Inventoried p (initialMachine disk) := hempty rfl
    unfold EvidenceStore.create
    apply ensures_bind
    refine ensures_check (fun _ _ => ?_) fun _ _ => hinitial
    apply ensures_bind
    refine ensures_check (fun _ _ => ?_) fun _ _ => hinitial
    apply ensures_bind
    refine ensures_check (fun _ _ => ?_) fun _ _ => hinitial
    apply ensures_bind
    refine ensures_check (fun _ _ => ?_) fun _ _ => hinitial
    apply ensures_bind
    apply ensures_get
    apply ensures_bind
    refine ensures_check (fun _ _ => ?_) fun _ _ => hinitial
    refine (persistManifest_outcome faults.persist).mono ?_ ?_
    · rintro _ m rfl
      exact hempty rfl
    · rintro _ m ⟨-, rfl | rfl⟩
      · exact hinitial
      · exact hempty rfl
  rw [storeRun]
  cases hrun : EvidenceStore.create p limits faults (initialMachine disk) with
  | ok u m => exact (runWrites_inventoried (hcreate.ok hrun) calls).1.ordered
  | error e m => exact (hcreate.error hrun).ordered

/-- The manifest file lists its artifacts in ascending order, and no two of them in one file. -/
def OrderedOnDisk (p : Platform K) (disk : Disk K) : Prop :=
  ∃ stored, readManifest p disk = .ok stored ∧ Ordered p stored.artifacts

/-- An opened store keeps its promises in every run just when the manifest on disk lists its artifacts
    in ascending order and no two of them in one file. -/
theorem inventory_iff (p : Platform K) (limits : EvidenceLimits) (disk : Disk K)
    (verify : Except EvidenceError Unit) (manifest : EvidenceManifest)
    (h : openStore p limits disk verify = .ok manifest) :
    (∀ calls, Promises p limits (openedMachine disk manifest) calls) ↔ OrderedOnDisk p disk := by
  have hreads := openStore_reads h
  constructor
  · intro hpromises
    exact ⟨manifest, hreads, (hpromises []).ordered⟩
  · rintro ⟨stored, hstored, hordered⟩
    cases hreads.symm.trans hstored
    exact Inventoried.promises ⟨hordered, openStore_present h⟩

/-! ## Manifests of empty files -/

/-- An empty artifact. -/
noncomputable def emptyArtifact (locator : String) : ArtifactV3 :=
  artifactFrom referencePlatform ⟨⟨Vector.replicate 16 0⟩⟩
    ⟨locator, .evidence, "text/plain", epoch, JsonMap.empty⟩ [] 0

/-- A manifest of empty artifacts, in the given order. -/
noncomputable def emptyArtifacts (locators : List String) : EvidenceManifest :=
  ⟨"1.0", locators.map emptyArtifact, 0⟩

/-- The disk with this manifest and the files. -/
noncomputable def emptyFiles (locators : List String) : Disk String := fun file =>
  if file = manifestName then some ((emptyArtifacts locators).bytes referenceDeps)
  else if file ∈ locators then some [] else none

theorem openStore_emptyFiles {locators : List String} (hcount : locators.length ≤ 2)
    (hdistinct : locators.Nodup)
    (hsafe : ∀ locator ∈ locators, safeRelativePath locator = .ok locator ∧ locator ≠ manifestName) :
    openStore referencePlatform ⟨1, 1, 2⟩ (emptyFiles locators) (.ok ()) =
      .ok (emptyArtifacts locators) := by
  have hreadable : Readable referenceDeps (fun _ => none) JsonMap.empty :=
    ⟨Value.all_object_zero.mpr ⟨List.Pairwise.nil, fun _ h => nomatch h⟩,
      Value.all_object_zero.mpr ⟨trivial, fun _ h => nomatch h⟩, by decide⟩
  have hsize : totalSize (emptyArtifacts locators).artifacts = 0 := by
    rw [totalSize, emptyArtifacts, List.map_map, List.sum_eq_zero]
    intro size hsize
    obtain ⟨locator, -, rfl⟩ := List.mem_map.mp hsize
    rfl
  refine Openable.openStore ⟨?_, rfl, ?_, ?_, ?_, ?_, hsize.symm, UInt64.le_iff_toNat_le.mpr (Nat.zero_le _), ?_⟩
    rfl (referencePlatform_reads _ ?_)
  · exact if_pos rfl
  · exact List.pairwise_map.mpr hdistinct
  · intro a ha
    obtain ⟨locator, hlocator, rfl⟩ := List.mem_map.mp ha
    exact (hsafe locator hlocator).1
  · intro a ha
    obtain ⟨locator, -, rfl⟩ := List.mem_map.mp ha
    exact UInt64.le_iff_toNat_le.mpr (Nat.zero_le _)
  · intro a ha
    obtain ⟨locator, hlocator, rfl⟩ := List.mem_map.mp ha
    have hne : locator ≠ manifestName := (hsafe locator hlocator).2
    refine ⟨hne, [], ?_, rfl, rfl⟩
    exact (if_neg hne).trans (if_pos hlocator)
  · simpa [emptyArtifacts] using hcount
  · intro a ha
    obtain ⟨locator, -, rfl⟩ := List.mem_map.mp ha
    exact hreadable

/-- Two files in order. -/
theorem inventory_ab :
    (∀ calls, Promises referencePlatform ⟨1, 1, 2⟩
      (openedMachine (emptyFiles ["a", "b"]) (emptyArtifacts ["a", "b"])) calls) ↔
      OrderedOnDisk referencePlatform (emptyFiles ["a", "b"]) :=
  inventory_iff _ _ _ (.ok ()) _ (openStore_emptyFiles (by decide) (by decide)
    (List.forall_mem_cons.mpr ⟨⟨rfl, by decide⟩, List.forall_mem_singleton.mpr ⟨rfl, by decide⟩⟩))

/-- `open` accepts a manifest that is not in order. -/
theorem inventory_ba :
    ¬ ∀ limits disk verify manifest, openStore referencePlatform limits disk verify = .ok manifest →
      ∀ calls, Promises referencePlatform limits (openedMachine disk manifest) calls := by
  intro h
  have hopened := @openStore_emptyFiles ["b", "a"] (by decide) (by decide)
    (List.forall_mem_cons.mpr ⟨⟨rfl, by decide⟩, List.forall_mem_singleton.mpr ⟨rfl, by decide⟩⟩)
  have hpromises := h ⟨1, 1, 2⟩ (emptyFiles ["b", "a"]) (.ok ()) _ hopened []
  have hlt : "b" < "a" := List.rel_of_pairwise_cons hpromises.ordered.ascending List.mem_cons_self
  exact absurd hlt (by decide)

end BaselineOps.Engine
