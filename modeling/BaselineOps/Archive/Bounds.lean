import Mathlib
import BaselineOps.Archive.Outcome

/-!
# Bounded extraction

Into an empty directory, an archive makes only safe paths and a bounded number of bytes, at every moment
and also when it fails: `Bounded` is what holds of the disk at every moment. Before and behind each
entry the bytes written are those that the validation has counted, and `Progress` keeps this along the
entries; while a file is written, at most `max_file_bytes + 1` bytes come on top.
-/

namespace BaselineOps.Archive

open BaselineOps.Lib BaselineOps.Lib.OsPath BaselineOps.Lib.FileTree BaselineOps.SafePath

/-- A location below `base` with safe names, at most `maxDepth`. -/
def SafeLocation (platform : Platform) (key : OsStr → OsStr) (maxDepth : ℕ)
    (base location : List OsStr) : Prop :=
  ∃ names, names ≠ [] ∧ names.length ≤ maxDepth ∧ (∀ name ∈ names, SafeName platform name) ∧
    location = base ++ names.map key

/-- The bytes that the extraction has written. -/
def Disk.written (disk : Disk) : ℕ := (disk.files.map (·.2.length)).sum

/-- The disk at any moment: every node of before stands unchanged, the others are directories and the
    files that were opened, which did not exist before. -/
structure Bounded (platform : Platform) (key : OsStr → OsStr) (policy : ArchivePolicy)
    (base : List OsStr) (before : NodeTree OsStr) (disk : Disk) : Prop where
  kept : ∀ {location}, before.node location ≠ none → disk.tree.node location = before.node location
  placed : ∀ {location}, before.node location = none → disk.tree.node location ≠ none →
    SafeLocation platform key policy.maxDepth base location
  created : ∀ {location node}, before.node location = none → disk.tree.node location = some node →
    node = .directory ∨ ∃ content, node = .file content ∧ (location, content) ∈ disk.files
  opened : ∀ file ∈ disk.files,
    before.node file.1 = none ∧ disk.tree.node file.1 = some (.file file.2)
  once : (disk.files.map (·.1)).Nodup
  fileBytes : ∀ file ∈ disk.files, file.2.length ≤ policy.maxFileBytes + 1
  totalBytes : disk.written ≤ policy.maxTotalBytes + policy.maxFileBytes + 1

/-- The entries that are no directories. -/
def regularFiles (items : List (Entry × OsStr)) : List (Entry × OsStr) :=
  items.filter fun item => !item.1.isDir

/-- The entries `items`, each with its path, are extracted, and `result` are the paths of the files. -/
structure Complete (platform : Platform) (lower : List Char → List Char) (key : OsStr → OsStr)
    (policy : ArchivePolicy) (base : List OsStr) (items : List (Entry × OsStr)) (result : List OsStr)
    (disk : Disk) : Prop where
  paths : ∀ item ∈ items, validateEntryName platform item.1.name policy.maxDepth = .ok item.2
  regular : ∀ item ∈ items, isLinkOrSpecial item.1.unixMode = false
  distinct : (items.map fun item => normalizedName lower item.2).Nodup
  result : result = (regularFiles items).map (·.2)
  files : disk.files = (regularFiles items).map fun item =>
    (base ++ location platform key item.2, item.1.stream)
  sizes : ∀ item ∈ regularFiles items, item.1.stream.length = item.1.size
  fileBytes : ∀ item ∈ regularFiles items, item.1.size ≤ policy.maxFileBytes
  fileCount : (regularFiles items).length ≤ policy.maxFiles
  totalBytes : ((regularFiles items).map (·.1.size)).sum ≤ policy.maxTotalBytes

section Moments

variable {platform : Platform} {key : OsStr → OsStr} {policy : ArchivePolicy} {base : List OsStr}
  {before : NodeTree OsStr} {disk middle : Disk}

/-- A location above a safe one is safe. -/
theorem SafeLocation.of_made {names made : List OsStr} {maxDepth : ℕ} (hdepth : names.length ≤ maxDepth)
    (hsafe : ∀ name ∈ names, SafeName platform name) (hnil : made ≠ []) (hpre : made <+: names.map key) :
    SafeLocation platform key maxDepth base (base ++ made) := by
  have hmade := List.prefix_iff_eq_take.mp hpre
  rw [← List.map_take] at hmade
  refine ⟨names.take made.length, ?_, (List.length_take_le' _ _).trans hdepth,
    fun name hname => hsafe name (List.mem_of_mem_take hname), congrArg (base ++ ·) hmade⟩
  intro htake
  rw [htake] at hmade
  exact hnil hmade

theorem bounded_start (tree : NodeTree OsStr) :
    Bounded platform key policy base tree ⟨tree, []⟩ := by
  refine ⟨fun _ => rfl, fun hnone hsome => absurd hnone hsome, ?_, by simp, by simp, by simp, ?_⟩
  · intro location node hnone hsome
    rw [hnone] at hsome
    cases hsome
  · simp [Disk.written]

/-- New directories at safe locations. -/
theorem Bounded.made {dirs : List OsStr} (h : Bounded platform key policy base before disk)
    (hmade : Made base dirs disk middle)
    (hsafe : ∀ made, made ≠ [] → made <+: dirs →
      SafeLocation platform key policy.maxDepth base (base ++ made)) :
    Bounded platform key policy base before middle := by
  have hkept : ∀ {location}, before.node location ≠ none →
      middle.tree.node location = before.node location := by
    intro location hlocation
    rw [hmade.kept (by rwa [h.kept hlocation]), h.kept hlocation]
  refine ⟨hkept, ?_, ?_, ?_, ?_, ?_, ?_⟩
  · intro location hnone hsome
    by_cases hdisk : disk.tree.node location = none
    · obtain ⟨-, names, hnil, hpre, rfl⟩ := hmade.made hdisk hsome
      exact hsafe names hnil hpre
    · exact h.placed hnone hdisk
  · intro location node hnone hsome
    by_cases hdisk : disk.tree.node location = none
    · obtain ⟨hdirectory, -⟩ := hmade.made hdisk (by rw [hsome]; simp)
      rw [hdirectory] at hsome
      exact .inl (Option.some.inj hsome).symm
    · rw [hmade.kept hdisk] at hsome
      rw [hmade.files]
      exact h.created hnone hsome
  · rw [hmade.files]
    intro file hfile
    obtain ⟨hnone, hnode⟩ := h.opened file hfile
    exact ⟨hnone, by rw [hmade.kept (by rw [hnode]; simp), hnode]⟩
  · rw [hmade.files]
    exact h.once
  · rw [hmade.files]
    exact h.fileBytes
  · rw [Disk.written, hmade.files]
    exact h.totalBytes

theorem Holds.written {location : List OsStr} {content : List UInt8} (h : Holds middle location content disk) :
    disk.written = middle.written + content.length := by
  simp [Disk.written, h.files]

/-- A new file at a safe location. -/
theorem Bounded.holds {location : List OsStr} {content : List UInt8}
    (h : Bounded platform key policy base before middle) (hwritten : middle.written ≤ policy.maxTotalBytes)
    (hholds : Holds middle location content disk)
    (hsafe : SafeLocation platform key policy.maxDepth base location)
    (hlength : content.length ≤ policy.maxFileBytes + 1) :
    Bounded platform key policy base before disk := by
  have hbefore : before.node location = none := by
    by_contra hsome
    exact hsome (by rw [← h.kept hsome, hholds.adds.absent])
  have hfresh : ∀ file ∈ middle.files, file.1 ≠ location := by
    intro file hfile heq
    have hnode := (h.opened file hfile).2
    rw [heq, hholds.adds.absent] at hnode
    cases hnode
  refine ⟨?_, ?_, ?_, ?_, ?_, ?_, ?_⟩
  · intro other hother
    have hne : other ≠ location := by
      rintro rfl
      exact hother hbefore
    rw [hholds.adds.other hne, h.kept hother]
  · intro other hnone hsome
    by_cases heq : other = location
    · exact heq ▸ hsafe
    · rw [hholds.adds.other heq] at hsome
      exact h.placed hnone hsome
  · intro other node hnone hsome
    by_cases heq : other = location
    · rw [heq, hholds.adds.present] at hsome
      cases hsome
      exact .inr ⟨content, rfl, by rw [hholds.files, heq]; simp⟩
    · rw [hholds.adds.other heq] at hsome
      rcases h.created hnone hsome with hdirectory | ⟨old, hfile, hmem⟩
      · exact .inl hdirectory
      · exact .inr ⟨old, hfile, by rw [hholds.files]; exact List.mem_append_left _ hmem⟩
  · rw [hholds.files]
    intro file hfile
    rcases List.mem_append.mp hfile with hfile | hfile
    · obtain ⟨hnone, hnode⟩ := h.opened file hfile
      exact ⟨hnone, by rw [hholds.adds.other (hfresh file hfile), hnode]⟩
    · rw [List.mem_singleton.mp hfile]
      exact ⟨hbefore, hholds.adds.present⟩
  · rw [hholds.files, List.map_append, List.map_singleton, List.nodup_append]
    refine ⟨h.once, List.nodup_singleton _, ?_⟩
    intro other hother last hlast
    obtain ⟨file, hfile, rfl⟩ := List.mem_map.mp hother
    rw [List.mem_singleton.mp hlast]
    exact hfresh file hfile
  · rw [hholds.files]
    intro file hfile
    rcases List.mem_append.mp hfile with hfile | hfile
    · exact h.fileBytes file hfile
    · rw [List.mem_singleton.mp hfile]
      exact hlength
  · rw [hholds.written]
    omega

/-- The disk at every moment while an entry is extracted. -/
theorem Bounded.moment {names : List OsStr} {entry : Entry}
    (h : Bounded platform key policy base before disk) (hwritten : disk.written ≤ policy.maxTotalBytes)
    (hnil : names ≠ []) (hdepth : names.length ≤ policy.maxDepth)
    (hsafe : ∀ name ∈ names, SafeName platform name)
    (hmoment : Moment base (names.map key) entry (policy.maxFileBytes + 1) disk middle) :
    Bounded platform key policy base before middle := by
  have hlocation : ∀ made, made ≠ [] → made <+: names.map key →
      SafeLocation platform key policy.maxDepth base (base ++ made) :=
    fun made hnil hpre => .of_made hdepth hsafe hnil hpre
  cases hmoment with
  | made hmade =>
    refine h.made hmade fun made hnil hpre => hlocation made hnil (hpre.trans ?_)
    rw [Entry.dirs]
    split
    · exact List.prefix_refl _
    · exact List.dropLast_prefix _
  | written hfile hmade hlength hholds =>
    have hmiddle := h.made hmade fun made hnil hpre =>
      hlocation made hnil (hpre.trans (List.dropLast_prefix _))
    refine hmiddle.holds ?_ hholds (hlocation _ (by simpa using hnil) (List.prefix_refl _)) hlength
    rwa [Disk.written, hmade.files]

/-- Below an empty directory there are never links. -/
theorem Bounded.straight (h : Bounded platform key policy base before disk)
    (hbase : before.node base = some .directory) (hempty : ∀ name, before.node (base ++ [name]) = none)
    (names : List OsStr) : NodeTree.Straight disk.tree base names := by
  apply NodeTree.straight_of_no_links
  intro names target hlink
  cases names with
  | nil =>
    rw [List.append_nil, h.kept (by rw [hbase]; simp), hbase] at hlink
    cases hlink
  | cons name rest =>
    have hnone : before.node (base ++ name :: rest) = none := by
      rw [← List.singleton_append, ← List.append_assoc]
      exact NodeTree.node_append_none (hempty name) rest
    rcases h.created hnone hlink with hdirectory | ⟨content, hfile, -⟩
    · cases hdirectory
    · cases hfile

end Moments

/-! ## The loop -/

section Loop

variable {platform : Platform} {fault : ℕ → Option (ℕ × IoError)} {lower : List Char → List Char}
  {key : OsStr → OsStr} {policy : ArchivePolicy} {base : List OsStr} {before : NodeTree OsStr}

/-- At every moment so far the disk is bounded. -/
structure AlwaysBounded (platform : Platform) (key : OsStr → OsStr) (policy : ArchivePolicy)
    (base : List OsStr) (before : NodeTree OsStr) (s : Extraction) : Prop where
  disk : Bounded platform key policy base before s.disk
  moments : ∀ disk ∈ s.moments, Bounded platform key policy base before disk

/-- Behind the entries `done`, the counters are those of the entries. -/
structure Progress (platform : Platform) (lower : List Char → List Char) (key : OsStr → OsStr)
    (policy : ArchivePolicy) (base : List OsStr) (before : NodeTree OsStr) (done : Slots)
    (s : Extraction) : Prop extends AlwaysBounded platform key policy base before s where
  limits : s.validation.policy = policy
  items : ∃ items, done = items.map (fun item => .ok item.1) ∧
    Complete platform lower key policy base items s.extracted s.disk ∧
    s.validation.normalizedNames = (items.map fun item => normalizedName lower item.2).reverse ∧
    s.validation.fileCount = (regularFiles items).length ∧
    s.validation.totalBytes = ((regularFiles items).map (·.1.size)).sum

theorem regularFiles_concat_directory {items : List (Entry × OsStr)} {item : Entry × OsStr}
    (h : item.1.isDir = true) : regularFiles (items ++ [item]) = regularFiles items := by
  simp [regularFiles, List.filter_append, h]

theorem regularFiles_concat_file {items : List (Entry × OsStr)} {item : Entry × OsStr}
    (h : item.1.isDir = false) : regularFiles (items ++ [item]) = regularFiles items ++ [item] := by
  simp [regularFiles, List.filter_append, h]

/-- The bytes written are the sizes of the entries. -/
theorem Complete.written {items : List (Entry × OsStr)} {result : List OsStr} {disk : Disk}
    (h : Complete platform lower key policy base items result disk) :
    disk.written = ((regularFiles items).map (·.1.size)).sum := by
  rw [Disk.written, h.files, List.map_map]
  congr 1
  exact List.map_congr_left fun item hitem => h.sizes item hitem

/-- A directory more. -/
theorem Complete.directory {items : List (Entry × OsStr)} {result : List OsStr} {disk disk' : Disk}
    {entry : Entry} {relative : OsStr} (h : Complete platform lower key policy base items result disk)
    (hdir : entry.isDir = true) (hfiles : disk'.files = disk.files)
    (hname : validateEntryName platform entry.name policy.maxDepth = .ok relative)
    (hregular : isLinkOrSpecial entry.unixMode = false)
    (hfresh : normalizedName lower relative ∉ items.map fun item => normalizedName lower item.2) :
    Complete platform lower key policy base (items ++ [(entry, relative)]) result disk' := by
  have hall := @regularFiles_concat_directory items (entry, relative) hdir
  refine ⟨?_, ?_, ?_, hall ▸ h.result, hall ▸ hfiles ▸ h.files, hall ▸ h.sizes, hall ▸ h.fileBytes,
    hall ▸ h.fileCount, hall ▸ h.totalBytes⟩
  · exact List.forall_mem_append.mpr ⟨h.paths, List.forall_mem_singleton.mpr hname⟩
  · exact List.forall_mem_append.mpr ⟨h.regular, List.forall_mem_singleton.mpr hregular⟩
  · rw [List.map_append, List.map_singleton, ← List.concat_eq_append, List.nodup_concat]
    exact ⟨hfresh, h.distinct⟩

/-- A file more. -/
theorem Complete.file {items : List (Entry × OsStr)} {result : List OsStr} {disk disk' : Disk}
    {entry : Entry} {relative : OsStr} (h : Complete platform lower key policy base items result disk)
    (hfile : entry.isDir = false)
    (hfiles : disk'.files = disk.files ++ [(base ++ location platform key relative, entry.stream)])
    (hname : validateEntryName platform entry.name policy.maxDepth = .ok relative)
    (hregular : isLinkOrSpecial entry.unixMode = false)
    (hfresh : normalizedName lower relative ∉ items.map fun item => normalizedName lower item.2)
    (hsize : entry.stream.length = entry.size) (hbound : entry.size ≤ policy.maxFileBytes)
    (hcount : (regularFiles items).length + 1 ≤ policy.maxFiles)
    (htotal : ((regularFiles items).map (·.1.size)).sum + entry.size ≤ policy.maxTotalBytes) :
    Complete platform lower key policy base (items ++ [(entry, relative)]) (result ++ [relative])
      disk' := by
  have hall := @regularFiles_concat_file items (entry, relative) hfile
  refine ⟨?_, ?_, ?_, ?_, ?_, ?_, ?_, ?_, ?_⟩
  · exact List.forall_mem_append.mpr ⟨h.paths, List.forall_mem_singleton.mpr hname⟩
  · exact List.forall_mem_append.mpr ⟨h.regular, List.forall_mem_singleton.mpr hregular⟩
  · rw [List.map_append, List.map_singleton, ← List.concat_eq_append, List.nodup_concat]
    exact ⟨hfresh, h.distinct⟩
  · rw [hall, List.map_append, List.map_singleton, ← h.result]
  · rw [hall, List.map_append, List.map_singleton, hfiles, h.files]
  · rw [hall]
    exact List.forall_mem_append.mpr ⟨h.sizes, List.forall_mem_singleton.mpr hsize⟩
  · rw [hall]
    exact List.forall_mem_append.mpr ⟨h.fileBytes, List.forall_mem_singleton.mpr hbound⟩
  · rwa [hall, List.length_append, List.length_singleton]
  · rwa [hall, List.map_append, List.map_singleton, List.sum_append, List.sum_singleton]

/-- Behind an accepted entry the counters are again those of the entries. -/
theorem Progress.step {done : Slots} {s s' : Extraction} {entry : Entry} {relative : OsStr}
    (hmax : policy.maxFileBytes < 2 ^ 64 - 1)
    (h : Progress platform lower key policy base before done s)
    (hbounded : AlwaysBounded platform key policy base before s')
    (haccepted : Accepted platform lower s.validation s'.validation entry relative)
    (houtcome : Outcome base (location platform key relative) entry relative policy.maxFileBytes s s') :
    Progress platform lower key policy base before (done ++ [.ok entry]) s' := by
  obtain ⟨items, hdone, hcomplete, hnames, hcount, htotal⟩ := h.items
  have hname := haccepted.name
  have hquotas := haccepted.quotas
  have hfresh := haccepted.fresh
  rw [h.limits] at hname hquotas
  rw [hnames, List.mem_reverse] at hfresh
  refine ⟨hbounded, haccepted.policy.trans h.limits, items ++ [(entry, relative)], ?_, ?_, ?_, ?_⟩
  · rw [List.map_append, List.map_singleton, ← hdone]
  · cases houtcome with
    | directory hdir hmade hnode hextracted =>
      rw [hextracted]
      exact hcomplete.directory hdir hmade.files hname haccepted.regular hfresh
    | file hfile hmade hnode hholds hsize hbound hextracted =>
      obtain ⟨hfiles, hbytes, hsum⟩ := hquotas hfile
      rw [(haccepted.file hfile).1, hcount] at hfiles
      rw [(haccepted.file hfile).2, htotal] at hsum
      -- The stream is shorter than what the copy would have read.
      have hlimit : (policy.maxFileBytes + 1) % 2 ^ 64 = policy.maxFileBytes + 1 :=
        Nat.mod_eq_of_lt (by omega)
      have hstream : entry.stream.take ((policy.maxFileBytes + 1) % 2 ^ 64) = entry.stream := by
        rw [List.length_take, hlimit] at hsize
        exact List.take_of_length_le (by omega)
      rw [hstream] at hholds hsize
      rw [hextracted]
      refine hcomplete.file hfile ?_ hname haccepted.regular hfresh hsize hbound hfiles hsum
      rw [hholds.files, hmade.files]
  · rw [haccepted.names, hnames, List.map_append, List.map_singleton, List.reverse_append,
      List.reverse_singleton, List.singleton_append]
  · cases hdir : entry.isDir with
    | true =>
      rw [regularFiles_concat_directory hdir, (haccepted.directory hdir).1,
        (haccepted.directory hdir).2]
      exact ⟨hcount, htotal⟩
    | false =>
      rw [regularFiles_concat_file hdir, (haccepted.file hdir).1, (haccepted.file hdir).2, hcount, htotal,
        List.length_append, List.map_append, List.sum_append]
      exact ⟨rfl, rfl⟩

/-- One round of the loop. -/
theorem ensures_extractOne_bounded {done : Slots} {slot : Except String Entry} {s : Extraction}
    (hmax : policy.maxFileBytes < 2 ^ 64 - 1) (hbase : before.node base = some .directory)
    (hempty : ∀ name, before.node (base ++ [name]) = none)
    (h : Progress platform lower key policy base before done s) :
    Ensures (extractOne platform fault lower key base slot) s
      (fun _ s' => Progress platform lower key policy base before (done ++ [slot]) s')
      fun _ s' => AlwaysBounded platform key policy base before s' := by
  have hlimit : (policy.maxFileBytes + 1) % 2 ^ 64 = policy.maxFileBytes + 1 :=
    Nat.mod_eq_of_lt (by omega)
  have hwritten : s.disk.written ≤ policy.maxTotalBytes := by
    obtain ⟨items, -, hcomplete, -⟩ := h.items
    rw [hcomplete.written]
    exact hcomplete.totalBytes
  have hvisits : ∀ {entry relative s'},
      validateEntryName platform entry.name policy.maxDepth = .ok relative →
      Visits (Moment base (location platform key relative) entry (policy.maxFileBytes + 1) s.disk) s s' →
        AlwaysBounded platform key policy base before s' := by
    intro entry relative s' hname hvisits
    obtain ⟨names, hnil, hdepth, hsafe, -, hnormal⟩ := validateEntryName_ok hname
    rw [location, hnormal] at hvisits
    have hbounded := hvisits.mono fun disk => h.disk.moment hwritten hnil hdepth hsafe
    exact ⟨hbounded.disk, hbounded.forall_moments h.moments⟩
  refine (ensures_extractOne ?_ ?_ ?_).mono ?_ ?_
  · rw [h.disk.kept (by rw [hbase]; simp), hbase]
  · intro file hfile
    rw [(h.disk.opened file hfile).2]
    simp
  · intro entry after relative _ _
    exact h.disk.straight hbase hempty _
  · rintro _ s' ⟨entry, relative, rfl, haccepted, houtcome, hmoments⟩
    have hname := haccepted.name
    rw [h.limits] at hname houtcome hmoments
    rw [hlimit] at hmoments
    exact h.step hmax (hvisits hname hmoments) haccepted houtcome
  · rintro _ s' (⟨hdisk, hmoments⟩ | ⟨entry, relative, after, -, haccepted, hmoments⟩)
    · exact ⟨hdisk ▸ h.disk, hmoments ▸ h.moments⟩
    · have hname := haccepted.name
      rw [h.limits] at hname hmoments
      rw [hlimit] at hmoments
      exact hvisits hname hmoments

/-- The loop, on a disk that has not been changed. -/
theorem ensures_entries_bounded {archive : Slots} {s : Extraction}
    (hmax : policy.maxFileBytes < 2 ^ 64 - 1) (hbase : before.node base = some .directory)
    (hempty : ∀ name, before.node (base ++ [name]) = none)
    (hdisk : s.disk = ⟨before, []⟩) (hmoments : ∀ disk ∈ s.moments, disk = ⟨before, []⟩) :
    Ensures (entries platform fault lower key base archive policy) s
      (fun result s' => AlwaysBounded platform key policy base before s' ∧
        ∃ items, archive = items.map (fun item => .ok item.1) ∧
          Complete platform lower key policy base items result s'.disk)
      fun _ s' => AlwaysBounded platform key policy base before s' := by
  apply ensures_bind
  apply ensures_modify
  apply ensures_bind
  refine (@ensures_forM_done _ _ _ _ _ archive _
    (Progress platform lower key policy base before) [] ?_ fun done slot _ s hs =>
      ensures_extractOne_bounded hmax hbase hempty hs).mono ?_ fun _ _ h => h
  · refine ⟨⟨?_, ?_⟩, rfl, [], rfl, ?_, rfl, rfl, rfl⟩
    · rw [hdisk]
      exact bounded_start before
    · intro disk hmem
      rw [hmoments disk hmem]
      exact bounded_start before
    · refine ⟨by simp, by simp, by simp, rfl, ?_, ?_, ?_, ?_, ?_⟩
      · rw [hdisk]
        rfl
      all_goals simp [regularFiles]
  · rintro _ s' hprogress
    apply ensures_bind
    apply ensures_get
    obtain ⟨items, hitems, hcomplete, -⟩ := hprogress.items
    exact ensures_pure ⟨hprogress.toAlwaysBounded, items, hitems, hcomplete⟩

end Loop

/-- Into an empty directory, an extraction makes only safe paths and a bounded number of bytes, at every
    moment and also when it fails. When it succeeds, every entry is extracted as it was declared. -/
theorem extractZipSafely_bounded (platform : Platform) (fault : ℕ → Option (ℕ × IoError))
    (lower : List Char → List Char) (key : OsStr → OsStr) (archive : Except String Slots)
    (policy : ArchivePolicy) (tree : NodeTree OsStr) (destination base : List OsStr)
    (hmax : policy.maxFileBytes < 2 ^ 64 - 1) (hwalk : tree.walk [] destination = .ok base)
    (hempty : ∀ name, tree.node (base ++ [name]) = none) :
    Ensures (extractZipSafely platform fault lower key archive destination policy) (.start tree)
      (fun result s' => AlwaysBounded platform key policy base tree s' ∧
        ∃ items, archive = .ok (items.map fun item => .ok item.1) ∧
          Complete platform lower key policy base items result s'.disk)
      fun _ s' => AlwaysBounded platform key policy base tree s' := by
  have hstart : ∀ {s' : Extraction}, Through (· = (Extraction.start tree).disk) (.start tree) s' →
      AlwaysBounded platform key policy base tree s' := by
    intro s' h
    have hbounded := h.toVisits.mono fun disk (hdisk : disk = ⟨tree, []⟩) =>
      hdisk ▸ @bounded_start platform key policy base tree
    exact ⟨hbounded.disk, hbounded.forall_moments (by simp [Extraction.start])⟩
  apply ensures_extractZipSafely hwalk fun s' h => hstart h
  intro slots s hslots _ hsame
  refine (ensures_entries_bounded hmax (NodeTree.node_of_walk tree.root hwalk) hempty hsame.disk
    (hsame.forall_moments (by simp [Extraction.start]))).mono ?_ fun _ _ h => h
  rintro result s' ⟨hbounded, items, rfl, hcomplete⟩
  exact ⟨hbounded, items, hslots, hcomplete⟩

/-- A root with one empty directory. -/
def emptyDestination : NodeTree OsStr where
  node location := if location = [] ∨ location = [ofText "out"] then some .directory else none
  root := rfl
  parent := by
    intro location name h
    cases location with
    | nil => rfl
    | cons first rest => simp at h
  target := by
    intro location target inner h
    split_ifs at h
    cases h

theorem walk_emptyDestination : emptyDestination.walk [] [ofText "out"] = .ok [ofText "out"] :=
  NodeTree.walk_of_directory (by simp [emptyDestination])

/-- A directory and a file in it, read in two parts. -/
def smallArchive : Slots :=
  [.ok ⟨"A/", true, 0, none, [], none⟩,
    .ok ⟨"A/b.txt", false, 3, some 0o100644, [[1, 2], [3], []], none⟩]

/-- The result of a run. -/
def resultOf {ε σ α : Type} : EStateM.Result ε σ α → Option α
  | .ok a _ => some a
  | .error _ _ => none

theorem extractZipSafely_bounded_smallArchive :
    ∃ s', extractZipSafely .windows (fun _ => none) id id (.ok smallArchive) [ofText "out"] ⟨2, 3, 3, 2⟩
        (.start emptyDestination) = .ok [ofText "A\\b.txt"] s' ∧
      AlwaysBounded .windows id ⟨2, 3, 3, 2⟩ [ofText "out"] emptyDestination s' := by
  have hbounded := fun (archive : Slots) (tree : NodeTree OsStr)
      (hwalk : tree.walk [] [ofText "out"] = .ok [ofText "out"])
      (hempty : ∀ name, tree.node ([ofText "out"] ++ [name]) = none) result s'
      (hrun : extractZipSafely .windows (fun _ => none) id id (.ok archive) [ofText "out"] ⟨2, 3, 3, 2⟩
        (.start tree) = .ok result s') =>
    ((extractZipSafely_bounded .windows (fun _ => none) id id (.ok archive) ⟨2, 3, 3, 2⟩ tree
      [ofText "out"] [ofText "out"] (by decide) hwalk hempty).ok hrun).1
  have hresult : resultOf (extractZipSafely .windows (fun _ => none) id id (.ok smallArchive)
      [ofText "out"] ⟨2, 3, 3, 2⟩ (.start emptyDestination)) = some [ofText "A\\b.txt"] := by
    decide +kernel
  cases hrun : extractZipSafely .windows (fun _ => none) id id (.ok smallArchive) [ofText "out"]
      ⟨2, 3, 3, 2⟩ (.start emptyDestination) with
  | error error s' =>
    rw [hrun] at hresult
    cases hresult
  | ok result s' =>
    rw [hrun] at hresult
    rw [show result = [ofText "A\\b.txt"] from Option.some.inj hresult]
    exact ⟨s', rfl, hbounded smallArchive emptyDestination walk_emptyDestination
      (by simp [emptyDestination]) _ s' hrun⟩

end BaselineOps.Archive
