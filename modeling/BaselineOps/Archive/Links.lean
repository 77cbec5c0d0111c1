import Mathlib
import BaselineOps.Archive.Bounds

/-!
# Links below the destination

The check for links is made on the last directory of an entry only, when `create_dir_all` has already
walked its whole path. Where no link leads to a directory in front of that last one, an extraction makes
nothing outside the destination and accepts no entry behind a link (`extractZipSafely_inside`).
Elsewhere it follows the link (`extractZipSafely_outside`). An entry that `entry_path` refuses makes
nothing, whatever its path.
-/

namespace BaselineOps.Archive

open BaselineOps.Lib BaselineOps.Lib.OsPath BaselineOps.Lib.FileTree BaselineOps.SafePath

/-- What the extraction has made lies below `base`. Locations are resolved paths. -/
structure Inside (base : List OsStr) (before : NodeTree OsStr) (disk : Disk) : Prop where
  kept : ∀ {location}, before.node location ≠ none → disk.tree.node location = before.node location
  inside : ∀ {location}, before.node location = none → disk.tree.node location ≠ none →
    base <+: location
  logged : ∀ file ∈ disk.files, disk.tree.node file.1 ≠ none

/-- At every moment so far. -/
structure AlwaysInside (base : List OsStr) (before : NodeTree OsStr) (s : Extraction) : Prop where
  disk : Inside base before s.disk
  moments : ∀ disk ∈ s.moments, Inside base before disk

section Conditions

variable (platform : Platform) (fault : ℕ → Option (ℕ × IoError)) (lower : List Char → List Char)
  (key : OsStr → OsStr) (base : List OsStr)

/-- No path of an entry passes through a link. -/
def NoLinks (maxDepth : ℕ) (tree : NodeTree OsStr) (archive : Slots) : Prop :=
  ∀ entry relative, .ok entry ∈ archive → validateEntryName platform entry.name maxDepth = .ok relative →
    ∀ count target, tree.node (base ++ (location platform key relative).take count) ≠
      some (.link target)

/-- In front of the last directory of an accepted entry, every part of its path that leads to a directory
    leads where it is spelled. -/
def Direct (slot : Except String Entry) (s : Extraction) : Prop :=
  ∀ entry after relative, slot = .ok entry →
    entryPath platform lower s.validation entry = .ok (after, relative) →
      NodeTree.Straight s.disk.tree base (entry.dirs (location platform key relative)).dropLast

/-- Each entry that the loop reaches is direct on the disk before it. -/
def DirectRun : Slots → Extraction → Prop
  | [], _ => True
  | slot :: rest, s => Direct platform lower key base slot s ∧
    ∀ s', extractOne platform fault lower key base slot s = .ok () s' → DirectRun rest s'

/-- An extraction makes nothing outside the destination, and fails when an entry passes through a link. -/
structure NeverFollows (archive : Except String Slots) (destination : List OsStr)
    (policy : ArchivePolicy) (tree : NodeTree OsStr) : Prop where
  ensures : Ensures (extractZipSafely platform fault lower key archive destination policy) (.start tree)
    (fun _ s' => AlwaysInside base tree s' ∧
      ∀ slots, archive = .ok slots → NoLinks platform key base policy.maxDepth tree slots)
    fun _ s' => AlwaysInside base tree s'

end Conditions

variable {platform : Platform} {fault : ℕ → Option (ℕ × IoError)} {lower : List Char → List Char}
  {key : OsStr → OsStr} {base : List OsStr} {before : NodeTree OsStr} {disk middle : Disk}

theorem inside_start (tree : NodeTree OsStr) : Inside base tree ⟨tree, []⟩ :=
  ⟨fun _ => rfl, fun hnone hsome => absurd hnone hsome, by simp⟩

theorem Inside.made {dirs : List OsStr} (h : Inside base before disk) (hmade : Made base dirs disk middle) :
    Inside base before middle := by
  refine ⟨?_, ?_, hmade.logged h.logged⟩
  · intro location hlocation
    rw [hmade.kept (by rwa [h.kept hlocation]), h.kept hlocation]
  · intro location hnone hsome
    by_cases hdisk : disk.tree.node location = none
    · obtain ⟨-, names, -, -, rfl⟩ := hmade.made hdisk hsome
      exact List.prefix_append base names
    · exact h.inside hnone hdisk

theorem Inside.holds {names : List OsStr} {content : List UInt8} (h : Inside base before middle)
    (hholds : Holds middle (base ++ names) content disk) : Inside base before disk := by
  have hkept : ∀ {location}, middle.tree.node location ≠ none →
      disk.tree.node location = middle.tree.node location := hholds.adds.node_eq
  refine ⟨?_, ?_, ?_⟩
  · intro location hlocation
    rw [hkept (by rwa [h.kept hlocation]), h.kept hlocation]
  · intro location hnone hsome
    by_cases heq : location = base ++ names
    · exact heq ▸ List.prefix_append base names
    · rw [hholds.adds.other heq] at hsome
      exact h.inside hnone hsome
  · rw [hholds.files]
    intro file hfile
    rcases List.mem_append.mp hfile with hfile | hfile
    · rw [hkept (h.logged file hfile)]
      exact h.logged file hfile
    · rw [List.mem_singleton.mp hfile, hholds.adds.present]
      simp

theorem Inside.moment {names : List OsStr} {entry : Entry} {limit : ℕ} (h : Inside base before disk)
    (hmoment : Moment base names entry limit disk middle) : Inside base before middle := by
  cases hmoment with
  | made hmade => exact h.made hmade
  | written hfile hmade hlength hholds => exact (h.made hmade).holds hholds

/-- Behind an accepted entry, its path is no link, nor is any part of it. -/
theorem Outcome.not_link {names : List OsStr} {entry : Entry} {relative : OsStr} {maxFileBytes : ℕ}
    {s s' : Extraction} (h : Outcome base names entry relative maxFileBytes s s') (count : ℕ)
    (target : Option (List OsStr)) : s'.disk.tree.node (base ++ names.take count) ≠ some (.link target) := by
  have hlast : s'.disk.tree.node (base ++ names) ≠ none ∧
      ∀ target, s'.disk.tree.node (base ++ names) ≠ some (.link target) := by
    cases h with
    | directory hdir hmade hnode hextracted =>
      rw [hnode]
      simp
    | file hfile hmade hnode hholds hsize hbound hextracted =>
      rw [hholds.adds.present]
      simp
  rcases Nat.lt_or_ge count names.length with hlt | hge
  · rw [NodeTree.node_take hlast.1 hlt]
    simp
  · rw [List.take_of_length_le hge]
    exact hlast.2 target

/-- One direct entry. -/
theorem ensures_extractOne_inside {slot : Except String Entry} {s : Extraction}
    (hbase : before.node base = some .directory) (h : AlwaysInside base before s)
    (hdirect : Direct platform lower key base slot s) :
    Ensures (extractOne platform fault lower key base slot) s
      (fun _ s' => AlwaysInside base before s' ∧ s'.validation.policy = s.validation.policy ∧
        NoLinks platform key base s.validation.policy.maxDepth before [slot])
      fun _ s' => AlwaysInside base before s' := by
  have hvisits : ∀ {names entry limit s'}, Visits (Moment base names entry limit s.disk) s s' →
      AlwaysInside base before s' := by
    intro names entry limit s' hvisits
    have hinside := hvisits.mono fun disk => h.disk.moment
    exact ⟨hinside.disk, hinside.forall_moments h.moments⟩
  have hnode : s.disk.tree.node base = some .directory := by
    rw [h.disk.kept (by rw [hbase]; simp), hbase]
  refine (ensures_extractOne hnode h.disk.logged hdirect).mono ?_ ?_
  · rintro _ s' ⟨entry, relative, rfl, haccepted, houtcome, hmoments⟩
    refine ⟨hvisits hmoments, haccepted.policy, ?_⟩
    intro other relative' hmem hname count target hlink
    cases List.mem_singleton.mp hmem
    cases haccepted.name.symm.trans hname
    apply houtcome.not_link count target
    rw [(hvisits hmoments).disk.kept (by rw [hlink]; simp), hlink]
  · rintro _ s' (⟨hdisk, hmoments⟩ | ⟨entry, relative, after, -, -, hmoments⟩)
    · exact ⟨hdisk ▸ h.disk, hmoments ▸ h.moments⟩
    · exact hvisits hmoments

/-- A run of direct entries. -/
theorem ensures_forM_inside {slots : Slots} {s : Extraction}
    (hbase : before.node base = some .directory) (h : AlwaysInside base before s)
    (hdirect : DirectRun platform fault lower key base slots s) :
    Ensures (slots.forM (extractOne platform fault lower key base)) s
      (fun _ s' => AlwaysInside base before s' ∧
        NoLinks platform key base s.validation.policy.maxDepth before slots)
      fun _ s' => AlwaysInside base before s' := by
  induction slots generalizing s with
  | nil => exact ensures_pure ⟨h, fun _ _ hmem => absurd hmem (List.not_mem_nil)⟩
  | cons slot rest ih =>
    obtain ⟨hslot, hrest⟩ := hdirect
    have hcons : (slot :: rest).forM (extractOne platform fault lower key base) =
        extractOne platform fault lower key base slot >>= fun _ =>
          rest.forM (extractOne platform fault lower key base) := rfl
    have hone := @ensures_extractOne_inside platform fault lower key base before slot s hbase h hslot
    rw [hcons]
    apply ensures_bind_run _ fun error s' hrun => hone.error hrun
    intro _ s' hrun
    obtain ⟨hinside, hpolicy, hnolinks⟩ := hone.ok hrun
    have hmore := ih hinside (hrest s' hrun)
    rw [hpolicy] at hmore
    refine hmore.mono ?_ fun _ _ h => h
    rintro _ s'' ⟨hinside', hnolinks'⟩
    refine ⟨hinside', ?_⟩
    intro entry relative hmem
    rcases List.mem_cons.mp hmem with hmem | hmem
    · exact hnolinks entry relative (List.mem_singleton.mpr hmem)
    · exact hnolinks' entry relative hmem

/-- Where each entry that is reached is direct, an extraction follows no link. -/
theorem extractZipSafely_inside (platform : Platform) (fault : ℕ → Option (ℕ × IoError))
    (lower : List Char → List Char) (key : OsStr → OsStr) (archive : Except String Slots)
    (policy : ArchivePolicy) (tree : NodeTree OsStr) (destination base : List OsStr)
    (hwalk : tree.walk [] destination = .ok base)
    (hdirect : ∀ slots s, archive = .ok slots →
      createDirAll platform fault [] destination (.start tree) = .ok () s →
        DirectRun platform fault lower key base slots { s with validation := .new policy, extracted := [] }) :
    NeverFollows platform fault lower key base archive destination policy tree := by
  have hstart : ∀ {s : Extraction}, Through (· = (Extraction.start tree).disk) (.start tree) s →
      AlwaysInside base tree s := by
    intro s h
    have hinside := h.toVisits.mono fun disk (hdisk : disk = ⟨tree, []⟩) =>
      hdisk ▸ @inside_start base tree
    exact ⟨hinside.disk, hinside.forall_moments (by simp [Extraction.start])⟩
  refine ⟨ensures_extractZipSafely hwalk (fun s h => hstart h) ?_⟩
  intro slots s hslots hrun hsame
  apply ensures_bind
  apply ensures_modify
  apply ensures_bind
  have hinside := hstart hsame
  refine (@ensures_forM_inside platform fault lower key base tree slots
    { s with validation := .new policy, extracted := [] } (NodeTree.node_of_walk tree.root hwalk)
    ⟨hinside.disk, hinside.moments⟩ (hdirect slots s hslots hrun)).mono ?_ fun _ _ h => h
  rintro _ s' ⟨halways, hnolinks⟩
  apply ensures_bind
  apply ensures_get
  refine ensures_pure ⟨halways, ?_⟩
  intro other hother
  cases hslots.symm.trans hother
  exact hnolinks

/-- The accepted path of an entry does not depend on the permitted depth. -/
theorem validateEntryName_normalized {name : String} {maxDepth : ℕ} {relative : OsStr}
    (h : validateEntryName platform name maxDepth = .ok relative) :
    ∃ depth, normalizedComponents platform name = .ok (relative, depth) := by
  simp only [validateEntryName, except_bind_ok_iff] at h
  obtain ⟨_, -, cleaned, hcleaned, _, -, heq⟩ := h
  cases heq
  exact ⟨cleaned.2, hcleaned⟩

/-- An entry with at most one directory is direct on every disk. -/
theorem direct_of_shallow {entry : Entry} {relative : OsStr} {depth : ℕ} {s : Extraction}
    (hname : normalizedComponents platform entry.name = .ok (relative, depth))
    (hshallow : (entry.dirs (location platform key relative)).length ≤ 1) :
    Direct platform lower key base (.ok entry) s := by
  intro other after relative' hslot hentry
  cases hslot
  obtain ⟨depth', hname'⟩ := validateEntryName_normalized (entryPath_ok hentry).name
  rw [hname] at hname'
  cases hname'
  have hnil : (entry.dirs (location platform key relative)).dropLast = [] := by
    rw [← List.length_eq_zero_iff, List.length_dropLast]
    omega
  rw [hnil]
  intro count location hwalk
  rw [List.take_nil] at hwalk ⊢
  cases hwalk
  rw [List.append_nil]

/-- A destination with a link to a directory outside it. -/
def linkedDestination : NodeTree OsStr where
  node location :=
    if location = [] ∨ location = [ofText "out"] ∨ location = [ofText "away"] then some .directory
    else if location = [ofText "out", ofText "link"] then some (.link (some [ofText "away"]))
    else none
  root := rfl
  parent := by
    intro location name h
    match location with
    | [] => rfl
    | [first] =>
      by_cases hfirst : first = ofText "out"
      · rw [hfirst]
        simp
      · simp [hfirst] at h
    | first :: second :: rest => simp at h
  target := by
    intro location target inner h
    split_ifs at h
    · cases h
    · cases h
      simp

theorem walk_linkedDestination : linkedDestination.walk [] [ofText "out"] = .ok [ofText "out"] :=
  NodeTree.walk_of_directory (by simp [linkedDestination])

theorem extractZipSafely_inside_linked :
    NeverFollows .windows (fun _ => none) id id [ofText "out"] (.ok smallArchive) [ofText "out"]
      ⟨2, 3, 3, 2⟩ linkedDestination := by
  apply extractZipSafely_inside _ _ _ _ _ _ _ _ _ walk_linkedDestination
  intro slots s hslots _
  cases hslots
  refine ⟨@direct_of_shallow .windows id id _ _ (ofText "A") 1 _ rfl (by decide), fun _ _ => ⟨?_, ?_⟩⟩
  · exact @direct_of_shallow .windows id id _ _ (ofText "A\\b.txt") 2 _ rfl (by decide)
  · exact fun _ _ => trivial

/-- A file two directories deep, the first of them the link. -/
def throughLink : Slots := [.ok ⟨"link/sub/file", false, 1, none, [[7]], none⟩]

/-- What stands at a location behind a run. -/
def nodeAfter {α : Type} (run : EStateM.Result ArchiveError Extraction α) (location : List OsStr) :
    Option (Node OsStr) :=
  (stateAfter run).disk.tree.node location

/-- Where something stands behind a run that follows no link. -/
theorem NeverFollows.inside {archive : Except String Slots} {destination location : List OsStr}
    {policy : ArchivePolicy} {tree : NodeTree OsStr}
    (h : NeverFollows platform fault lower key base archive destination policy tree)
    (hbefore : tree.node location = none)
    (hafter : nodeAfter (extractZipSafely platform fault lower key archive destination policy (.start tree))
      location ≠ none) : base <+: location :=
  (Ensures.stateAfter (h.ensures.mono (fun _ _ h => h.1) fun _ _ h => h)).disk.inside hbefore hafter

/-- The file is made outside the destination. -/
theorem extractZipSafely_outside :
    ¬ NeverFollows .unix (fun _ => none) id id [ofText "out"] (.ok throughLink) [ofText "out"]
      ⟨1, 1, 1, 3⟩ linkedDestination := by
  have houtside : (nodeAfter (extractZipSafely .unix (fun _ => none) id id (.ok throughLink)
      [ofText "out"] ⟨1, 1, 1, 3⟩ (.start linkedDestination))
      [ofText "away", ofText "sub", ofText "file"]).isSome = true := by
    decide +kernel
  have hbefore : linkedDestination.node [ofText "away", ofText "sub", ofText "file"] = none := by
    decide +kernel
  intro h
  have hprefix := h.inside hbefore (Option.isSome_iff_ne_none.mp houtside)
  revert hprefix
  decide +kernel

end BaselineOps.Archive
