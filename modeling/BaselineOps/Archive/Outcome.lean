import Mathlib
import BaselineOps.Archive.Steps

/-!
# What one entry does

The step lemma of the loop in `entries`: along a straight path, one entry makes directories with the
names of its path, then its file, and nothing else. `Moment` describes the disk at any time in between,
and `Outcome` the state behind an accepted entry.
-/

namespace BaselineOps.Archive

open BaselineOps.Lib BaselineOps.Lib.OsPath BaselineOps.Lib.FileTree BaselineOps.SafePath

/-- `disk` has directories more than `before`, each with names at the start of `dirs`. -/
structure Made (base dirs : List OsStr) (before disk : Disk) : Prop where
  files : disk.files = before.files
  kept : ∀ {location}, before.tree.node location ≠ none →
    disk.tree.node location = before.tree.node location
  made : ∀ {location}, before.tree.node location = none → disk.tree.node location ≠ none →
    disk.tree.node location = some .directory ∧
      ∃ names, names ≠ [] ∧ names <+: dirs ∧ location = base ++ names

/-- The directories of an entry: its own path, or the one above its file. -/
def Entry.dirs (entry : Entry) (names : List OsStr) : List OsStr :=
  if entry.isDir then names else names.dropLast

/-- The disk while an entry is extracted. -/
inductive Moment (base names : List OsStr) (entry : Entry) (limit : ℕ) (before disk : Disk) : Prop where
  | made (h : Made base (entry.dirs names) before disk)
  | written {middle : Disk} {content : List UInt8} (hfile : entry.isDir = false)
      (hmade : Made base names.dropLast before middle) (hlength : content.length ≤ limit)
      (hholds : Holds middle (base ++ names) content disk)

/-- The state behind an accepted entry. -/
inductive Outcome (base names : List OsStr) (entry : Entry) (relative : OsStr) (maxFileBytes : ℕ)
    (s s' : Extraction) : Prop where
  | directory (hdir : entry.isDir = true) (hmade : Made base names s.disk s'.disk)
      (hnode : s'.disk.tree.node (base ++ names) = some .directory)
      (hextracted : s'.extracted = s.extracted)
  | file {middle : Disk} (hfile : entry.isDir = false) (hmade : Made base names.dropLast s.disk middle)
      (hnode : middle.tree.node (base ++ names.dropLast) = some .directory)
      (hholds : Holds middle (base ++ names)
        (entry.stream.take ((maxFileBytes + 1) % 2 ^ 64)) s'.disk)
      (hsize : (entry.stream.take ((maxFileBytes + 1) % 2 ^ 64)).length = entry.size)
      (hbound : entry.size ≤ maxFileBytes) (hextracted : s'.extracted = s.extracted ++ [relative])

variable {platform : Platform} {fault : ℕ → Option (ℕ × IoError)} {lower : List Char → List Char}
  {key : OsStr → OsStr} {base dirs : List OsStr} {s : Extraction}

theorem Made.refl (base dirs : List OsStr) (disk : Disk) : Made base dirs disk disk :=
  ⟨rfl, fun _ => rfl, fun hnone hsome => absurd hnone hsome⟩

theorem Made.adds {before disk disk' : Disk} {made : List OsStr} (h : Made base dirs before disk)
    (hnil : made ≠ []) (hpre : made <+: dirs)
    (hadds : NodeTree.Adds disk.tree disk'.tree (base ++ made) .directory)
    (hfiles : disk'.files = disk.files) : Made base dirs before disk' := by
  refine ⟨hfiles.trans h.files, ?_, ?_⟩
  · intro location hlocation
    have hkept := h.kept hlocation
    rw [hadds.node_eq (by rwa [hkept]), hkept]
  · intro location hnone hsome
    by_cases heq : location = base ++ made
    · exact ⟨by rw [heq, hadds.present], made, hnil, hpre, heq⟩
    · rw [hadds.other heq] at hsome ⊢
      exact h.made hnone hsome

/-- Along a path that is straight up to its last name, `create_directory` makes its directories. -/
theorem ensures_createDirectory_made (hbase : s.disk.tree.node base = some .directory)
    (hstraight : NodeTree.Straight s.disk.tree base dirs.dropLast) :
    Ensures (createDirectory platform fault base dirs) s
      (fun _ s' => Through (Made base dirs s.disk) s s' ∧
        s'.disk.tree.node (base ++ dirs) = some .directory)
      fun _ s' => Through (Made base dirs s.disk) s s' := by
  let I : Disk → Prop := fun disk =>
    Made base dirs s.disk disk ∧ NodeTree.Straight disk.tree base dirs.dropLast
  have hweaken : ∀ disk, I disk → Made base dirs s.disk disk := fun _ h => h.1
  have hall := @ensures_createDirectory platform fault I s base dirs
    ⟨.refl base dirs s.disk, hstraight⟩
    (fun disk hdisk => by rw [hdisk.1.kept (by rw [hbase]; simp), hbase])
    (fun disk hdisk => hdisk.2) ?_
  · exact hall.mono (fun _ _ h => ⟨h.1.mono hweaken, h.2⟩) fun _ _ h => h.mono hweaken
  · intro disk disk' made hnil hpre hdisk hadds hfiles
    exact ⟨hdisk.1.adds hnil hpre hadds hfiles,
      hadds.straight (List.prefix_or_prefix_of_prefix (List.dropLast_prefix dirs) hpre)⟩

theorem Made.logged {before disk : Disk} (h : Made base dirs before disk)
    (hlogged : ∀ file ∈ before.files, before.tree.node file.1 ≠ none) :
    ∀ file ∈ disk.files, disk.tree.node file.1 ≠ none := by
  intro file hfile
  rw [h.files] at hfile
  rw [h.kept (hlogged file hfile)]
  exact hlogged file hfile

/-- The part of `extract_one` behind the validation. -/
theorem ensures_entry {entry : Entry} {names : List OsStr} {relative : OsStr} {maxFileBytes : ℕ}
    (hnames : names ≠ []) (hbase : s.disk.tree.node base = some .directory)
    (hlogged : ∀ file ∈ s.disk.files, s.disk.tree.node file.1 ≠ none)
    (hstraight : NodeTree.Straight s.disk.tree base (entry.dirs names).dropLast) :
    Ensures (if entry.isDir then createDirectory platform fault base names
      else do
        createFileParent platform fault base names
        writeEntry platform fault entry base names maxFileBytes relative
        modify fun state => { state with extracted := state.extracted ++ [relative] }) s
      (fun _ s' => s'.validation = s.validation ∧
        Outcome base names entry relative maxFileBytes s s' ∧
        Visits (Moment base names entry ((maxFileBytes + 1) % 2 ^ 64) s.disk) s s')
      fun _ s' => Visits (Moment base names entry ((maxFileBytes + 1) % 2 ^ 64) s.disk) s s' := by
  have hmoment : ∀ disk, Made base (entry.dirs names) s.disk disk →
      Moment base names entry ((maxFileBytes + 1) % 2 ^ 64) s.disk disk := fun _ h => .made h
  cases hdir : entry.isDir with
  | true =>
    have hdirs : entry.dirs names = names := by rw [Entry.dirs, hdir, if_pos rfl]
    rw [hdirs] at hstraight hmoment
    rw [if_pos rfl]
    refine (ensures_createDirectory_made hbase hstraight).mono ?_ fun _ _ h => (h.mono hmoment).toVisits
    rintro _ s' ⟨hthrough, hnode⟩
    exact ⟨hthrough.validation, .directory hdir hthrough.disk hnode hthrough.extracted,
      (hthrough.mono hmoment).toVisits⟩
  | false =>
    have hdirs : entry.dirs names = names.dropLast := by rw [Entry.dirs, hdir, if_neg (by simp)]
    rw [hdirs] at hstraight hmoment
    rw [if_neg (by simp)]
    apply ensures_bind
    refine (ensures_createDirectory_made hbase hstraight).mono ?_ fun _ _ h => (h.mono hmoment).toVisits
    rintro _ s₁ ⟨hparent, hnode⟩
    apply ensures_bind
    refine (ensures_writeEntry (hmoment _ hparent.disk) hnames hnode (hparent.disk.logged hlogged)
      fun disk content hlength hholds => .written hdir hparent.disk hlength hholds).mono ?_
      fun _ _ h => ((hparent.mono hmoment).trans h).toVisits
    rintro _ s₂ ⟨hwrite, hholds, hsize, hbound⟩
    apply ensures_modify
    have hthrough := (hparent.mono hmoment).trans hwrite
    refine ⟨hthrough.validation, ?_, hthrough.disk, hthrough.moments⟩
    refine .file hdir hparent.disk hnode hholds hsize hbound ?_
    rw [hthrough.extracted]

/-- One entry, along a path that is straight up to its last directory. -/
theorem ensures_extractOne {slot : Except String Entry}
    (hbase : s.disk.tree.node base = some .directory)
    (hlogged : ∀ file ∈ s.disk.files, s.disk.tree.node file.1 ≠ none)
    (hstraight : ∀ entry after relative, slot = .ok entry →
      entryPath platform lower s.validation entry = .ok (after, relative) →
        NodeTree.Straight s.disk.tree base (entry.dirs (location platform key relative)).dropLast) :
    Ensures (extractOne platform fault lower key base slot) s
      (fun _ s' => ∃ entry relative, slot = .ok entry ∧
        Accepted platform lower s.validation s'.validation entry relative ∧
        Outcome base (location platform key relative) entry relative
          s.validation.policy.maxFileBytes s s' ∧
        Visits (Moment base (location platform key relative) entry
          ((s.validation.policy.maxFileBytes + 1) % 2 ^ 64) s.disk) s s')
      fun _ s' => (s'.disk = s.disk ∧ s'.moments = s.moments) ∨
        ∃ entry relative after, slot = .ok entry ∧
          Accepted platform lower s.validation after entry relative ∧
          Visits (Moment base (location platform key relative) entry
            ((s.validation.policy.maxFileBytes + 1) % 2 ^ 64) s.disk) s s' := by
  apply ensures_bind
  apply ensures_check _ fun _ _ => .inl ⟨rfl, rfl⟩
  intro entry hslot
  rw [except_mapError_ok_iff] at hslot
  apply ensures_bind
  apply ensures_get
  apply ensures_bind
  apply ensures_check _ fun _ _ => .inl ⟨rfl, rfl⟩
  rintro ⟨after, relative⟩ hentry
  have haccepted := entryPath_ok hentry
  have hstraight := hstraight entry after relative hslot hentry
  have hnames : location platform key relative ≠ [] := by
    obtain ⟨names, hnil, -, -, -, hnormal⟩ := validateEntryName_ok haccepted.name
    rw [location, hnormal]
    simpa using hnil
  apply ensures_bind
  apply ensures_modify
  refine (@ensures_entry platform fault base { s with validation := after } entry _ relative _ hnames hbase
    hlogged hstraight).mono ?_ ?_
  · rintro _ s' ⟨hvalidation, houtcome, hvisits⟩
    refine ⟨entry, relative, hslot, ?_, ?_, hvisits.disk, hvisits.moments⟩
    · rwa [hvalidation]
    · cases houtcome with
      | directory hdir hmade hnode hextracted => exact .directory hdir hmade hnode hextracted
      | file hfile hmade hnode hholds hsize hbound hextracted =>
        exact .file hfile hmade hnode hholds hsize hbound hextracted
  · intro _ s' hvisits
    exact .inr ⟨entry, relative, after, hslot, haccepted, hvisits.disk, hvisits.moments⟩

/-- The extraction into an existing directory is the loop, on an unchanged disk. -/
theorem ensures_extractZipSafely {archive : Except String Slots} {policy : ArchivePolicy}
    {tree : NodeTree OsStr} {destination : List OsStr} {Q : List OsStr → Extraction → Prop}
    {E : Extraction → Prop} (hwalk : tree.walk [] destination = .ok base)
    (hidle : ∀ s, Through (· = (Extraction.start tree).disk) (.start tree) s → E s)
    (hentries : ∀ slots s, archive = .ok slots →
      createDirAll platform fault [] destination (.start tree) = .ok () s →
      Through (· = (Extraction.start tree).disk) (.start tree) s →
        Ensures (entries platform fault lower key base slots policy) s Q fun _ s' => E s') :
    Ensures (extractZipSafely platform fault lower key archive destination policy) (.start tree) Q
      fun _ s' => E s' := by
  have hexisting := @ensures_createDirAll_existing platform fault (.start tree) [] destination base hwalk
  apply ensures_bind_run _ fun error s herror => hidle s (hexisting.error herror)
  intro _ s hrun
  have hsame := hexisting.ok hrun
  have hdisk : s.disk = ⟨tree, []⟩ := hsame.disk
  apply ensures_bind
  apply ensures_get
  apply ensures_bind
  apply ensures_check _ fun _ _ => hidle s hsame
  intro canonical hcanonical
  rw [except_mapError_ok_iff, except_mapError_ok_iff, hdisk] at hcanonical
  cases hwalk.symm.trans hcanonical
  apply ensures_bind
  apply ensures_check _ fun _ _ => hidle s hsame
  intro _ _
  apply ensures_bind
  apply ensures_check _ fun _ _ => hidle s hsame
  intro slots hslots
  rw [except_mapError_ok_iff] at hslots
  apply ensures_bind
  apply ensures_check _ fun _ _ => hidle s hsame
  intro _ _
  exact hentries slots s hslots hrun hsame

end BaselineOps.Archive
