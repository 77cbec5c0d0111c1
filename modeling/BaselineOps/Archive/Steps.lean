import Mathlib
import BaselineOps.Archive.Extract

/-!
# What the steps of an extraction do

One lemma for each function of `Archive/Extract.lean`: what an accepted name looks like, what the
validation keeps, and what the file operations change. The later modules use these and do not unfold
the functions.

* `validateEntryName_ok`: the names of an accepted path.
* `entryPath_ok`: the quotas behind an accepted entry.
* `ensures_createDirAll`: along a straight path, directories are made where they are spelled.
* `ensures_writeEntry`: a file is made, and it holds the stream when the entry is accepted.
-/

namespace BaselineOps.Archive

open BaselineOps.Lib BaselineOps.Lib.OsPath BaselineOps.Lib.FileTree BaselineOps.SafePath

/-! ## Names -/

/-- A component of an extracted path. -/
structure SafeName (platform : Platform) (name : OsStr) : Prop extends PlainName platform name where
  no_nul : .char '\x00' ∉ name
  no_space : (toStringLossy name).getLast? ≠ some ' '
  no_dot : (toStringLossy name).getLast? ≠ some '.'
  not_reserved : isReserved (stem (toStringLossy name)) = false

section Names

variable {platform : Platform}

theorem validateWindowsComponent_ok_iff {component : List Char} :
    validateWindowsComponent component = .ok () ↔
      (component.getLast? ≠ some ' ' ∧ component.getLast? ≠ some '.') ∧
        isReserved (stem component) = false := by
  simp only [validateWindowsComponent, except_bind_ok_iff, failIf_ok_iff, not_or]
  constructor
  · rintro ⟨_, hsuffix, hreserved⟩
    exact ⟨hsuffix, by simpa using hreserved⟩
  · rintro ⟨hsuffix, hreserved⟩
    exact ⟨(), hsuffix, by simpa using hreserved⟩

/-- The components of an accepted name are names that pass the checks, and `.`. -/
theorem normalizedComponentsFrom_components {clean : OsStr} {depth : ℕ} {located : List Located}
    {result : OsStr × ℕ} (h : normalizedComponentsFrom platform clean depth located = .ok result) :
    ∀ one ∈ located, one.component = .curDir ∨
      ∃ name, one.component = .normal name ∧ validateWindowsComponent (toStringLossy name) = .ok () := by
  induction located generalizing clean depth with
  | nil => simp
  | cons first rest ih =>
    rw [normalizedComponentsFrom] at h
    split at h
    · rename_i part hpart
      rw [except_bind_ok_iff] at h
      obtain ⟨_, hvalid, hrest⟩ := h
      intro one hone
      rcases List.mem_cons.mp hone with rfl | hone
      · exact .inr ⟨part, hpart, hvalid⟩
      · exact ih hrest one hone
    · rename_i hcur
      intro one hone
      rcases List.mem_cons.mp hone with rfl | hone
      · exact .inl hcur
      · exact ih h one hone
    · cases h
    · cases h
    · cases h

/-- The loop pushes the normal components one after another. -/
theorem normalizedComponentsFrom_eq {done : List OsStr} {depth : ℕ} {located : List Located}
    {result : OsStr × ℕ} (hdone : ∀ name ∈ done, PlainName platform name)
    (hplain : ∀ name ∈ located.filterMap Located.normal?, PlainName platform name)
    (h : normalizedComponentsFrom platform (joinWith (mainSep platform) done) depth located =
      .ok result) :
    result = (joinWith (mainSep platform) (done ++ located.filterMap Located.normal?),
      depth + (located.filterMap Located.normal?).length) := by
  induction located generalizing done depth with
  | nil =>
    cases h
    simp
  | cons first rest ih =>
    rw [normalizedComponentsFrom] at h
    split at h
    · rename_i part hpart
      have hfirst : first.normal? = some part := by rw [Located.normal?, hpart]
      rw [List.filterMap_cons, hfirst] at hplain ⊢
      rw [except_bind_ok_iff] at h
      obtain ⟨_, -, hrest⟩ := h
      have hname := hplain part List.mem_cons_self
      rw [push_joinWith hdone hname] at hrest
      rw [ih (by
          intro name hmem
          rcases List.mem_append.mp hmem with hmem | hmem
          · exact hdone name hmem
          · rw [List.mem_singleton.mp hmem]
            exact hname)
        (fun name hmem => hplain name (List.mem_cons_of_mem part hmem)) hrest]
      simp only [List.append_assoc, List.singleton_append, List.length_cons, Prod.mk.injEq, true_and]
      omega
    · rename_i hcur
      have hfirst : first.normal? = none := by rw [Located.normal?, hcur]
      rw [List.filterMap_cons, hfirst] at hplain ⊢
      exact ih hdone hplain h
    · cases h
    · cases h
    · cases h

/-- An accepted name is a path of at most `maxDepth` safe components. -/
theorem validateEntryName_ok {name : String} {maxDepth : ℕ} {relative : OsStr}
    (h : validateEntryName platform name maxDepth = .ok relative) :
    ∃ names, names ≠ [] ∧ names.length ≤ maxDepth ∧ (∀ one ∈ names, SafeName platform one) ∧
      relative = joinWith (mainSep platform) names ∧ normalNames platform relative = names := by
  simp only [validateEntryName, except_bind_ok_iff, rejectInvalidName, failIf_ok_iff, not_or,
    not_lt] at h
  obtain ⟨_, ⟨-, hnul, hcolon⟩, cleaned, hcleaned, _, ⟨hempty, hdepth⟩, heq⟩ := h
  cases heq
  have hcomponents := normalizedComponentsFrom_components hcleaned
  -- A prefix would be the first component.
  have hprefix : parsePrefix platform (ofText name) = none := by
    cases hparsed : parsePrefix platform (ofText name) with
    | none => rfl
    | some parsed =>
      have hfirst : ∃ one ∈ components platform (ofText name),
          one.component = .pathPrefix parsed := by
        refine ⟨⟨.pathPrefix parsed, (ofText name).take (prefixLen platform (ofText name)),
          prefixLen platform (ofText name)⟩, ?_, rfl⟩
        simp only [components, hparsed]
        exact List.mem_cons_self
      obtain ⟨one, hone, hcomponent⟩ := hfirst
      rcases hcomponents one hone with hcur | ⟨part, hpart, -⟩
      · rw [hcomponent] at hcur
        cases hcur
      · rw [hcomponent] at hpart
        cases hpart
  have hunits : ∀ {c : Char}, OsUnit.char c ∈ ofText name → c ∈ name.toList := by
    intro c hc
    obtain ⟨c', hc', heq⟩ := List.mem_map.mp hc
    cases heq
    exact hc'
  have hsafe : ∀ one ∈ normalNames platform (ofText name), SafeName platform one := by
    intro one hone
    obtain ⟨hnil, hcur, hparent, hmem⟩ := mem_normalNames hprefix hone
    obtain ⟨located, hlocated, hnormal⟩ := List.mem_filterMap.mp hone
    have hvalid : validateWindowsComponent (toStringLossy one) = .ok () := by
      rcases hcomponents located hlocated with hcurDir | ⟨part, hpart, hvalid⟩
      · rw [Located.normal?, hcurDir] at hnormal
        cases hnormal
      · rw [Located.normal?, hpart] at hnormal
        cases hnormal
        exact hvalid
    obtain ⟨⟨hspace, hdot⟩, hreserved⟩ := validateWindowsComponent_ok_iff.mp hvalid
    exact ⟨⟨hnil, hcur, hparent, fun unit hunit => (hmem unit hunit).2,
      fun hmemColon => hcolon (hunits (hmem _ hmemColon).1)⟩,
      fun hmemNul => hnul (hunits (hmem _ hmemNul).1), hspace, hdot, hreserved⟩
  have hresult := @normalizedComponentsFrom_eq platform [] 0 _ cleaned (by simp)
    (fun one hone => (hsafe one hone).toPlainName) hcleaned
  rw [List.nil_append, Nat.zero_add] at hresult
  rw [hresult] at hempty hdepth ⊢
  refine ⟨normalNames platform (ofText name), ?_, hdepth, hsafe, rfl, ?_⟩
  · intro hnil
    apply hempty
    change joinWith _ (normalNames platform (ofText name)) = []
    rw [hnil]
    rfl
  · exact normalNames_joinWith (isSep_mainSep platform) fun one hone => (hsafe one hone).toPlainName

end Names

/-! ## Validation -/

/-- What the validation has checked behind an accepted entry, and what it then counts. -/
structure Accepted (platform : Platform) (lower : List Char → List Char) (before after : ArchiveValidation)
    (entry : Entry) (relative : OsStr) : Prop where
  name : validateEntryName platform entry.name before.policy.maxDepth = .ok relative
  regular : isLinkOrSpecial entry.unixMode = false
  policy : after.policy = before.policy
  fresh : normalizedName lower relative ∉ before.normalizedNames
  names : after.normalizedNames = normalizedName lower relative :: before.normalizedNames
  directory : entry.isDir = true →
    after.fileCount = before.fileCount ∧ after.totalBytes = before.totalBytes
  file : entry.isDir = false →
    after.fileCount = before.fileCount + 1 ∧ after.totalBytes = before.totalBytes + entry.size
  quotas : entry.isDir = false → after.fileCount ≤ before.policy.maxFiles ∧
    entry.size ≤ before.policy.maxFileBytes ∧ after.totalBytes ≤ before.policy.maxTotalBytes

theorem enforceFileQuotas_ok {before after : ArchiveValidation} {size : ℕ} {relative : OsStr}
    (h : enforceFileQuotas before size relative = .ok after) :
    after = { before with fileCount := before.fileCount + 1, totalBytes := before.totalBytes + size } ∧
      after.fileCount ≤ before.policy.maxFiles ∧ size ≤ before.policy.maxFileBytes ∧
        after.totalBytes ≤ before.policy.maxTotalBytes := by
  simp only [enforceFileQuotas, except_bind_ok_iff, failIf_ok_iff, not_lt] at h
  obtain ⟨_, hcount, _, hsize, _, -, _, htotal, hafter⟩ := h
  cases hafter
  exact ⟨rfl, hcount, hsize, htotal⟩

theorem entryPath_ok {platform : Platform} {lower : List Char → List Char}
    {before after : ArchiveValidation} {entry : Entry} {relative : OsStr}
    (h : entryPath platform lower before entry = .ok (after, relative)) :
    Accepted platform lower before after entry relative := by
  simp only [entryPath, rejectDuplicateOrSpecial, except_bind_ok_iff, failIf_ok_iff] at h
  obtain ⟨path, hpath, named, ⟨_, hfresh, _, hregular, hnamed⟩, h⟩ := h
  rw [Bool.not_eq_true] at hregular
  cases hnamed
  cases hdir : entry.isDir with
  | true =>
    rw [hdir] at h
    cases h
    exact ⟨hpath, hregular, rfl, hfresh, rfl, fun _ => ⟨rfl, rfl⟩, by simp [hdir], by simp [hdir]⟩
  | false =>
    rw [hdir] at h
    simp only [Bool.false_eq_true, if_false, except_bind_ok_iff] at h
    obtain ⟨counted, hcounted, h⟩ := h
    cases h
    obtain ⟨rfl, hquotas⟩ := enforceFileQuotas_ok hcounted
    exact ⟨hpath, hregular, rfl, hfresh, rfl, by simp [hdir], fun _ => ⟨rfl, rfl⟩, fun _ => hquotas⟩

/-! ## Operations -/

/-- From `s` to `s'` the disk has changed only to disks that satisfy `I`. -/
structure Visits (I : Disk → Prop) (s s' : Extraction) : Prop where
  disk : I s'.disk
  moments : ∃ later, s'.moments = s.moments ++ later ∧ ∀ disk ∈ later, I disk

/-- The variables of `entries` have not changed either. -/
structure Through (I : Disk → Prop) (s s' : Extraction) : Prop extends Visits I s s' where
  validation : s'.validation = s.validation
  extracted : s'.extracted = s.extracted

section Through

variable {I J : Disk → Prop} {s s' s'' : Extraction}

theorem Visits.trans (h : Visits I s s') (h' : Visits I s' s'') : Visits I s s'' := by
  obtain ⟨later, hmoments, hlater⟩ := h.moments
  obtain ⟨later', hmoments', hlater'⟩ := h'.moments
  refine ⟨h'.disk, later ++ later', ?_, ?_⟩
  · rw [hmoments', hmoments, List.append_assoc]
  · intro disk hdisk
    rcases List.mem_append.mp hdisk with hdisk | hdisk
    · exact hlater disk hdisk
    · exact hlater' disk hdisk

theorem Visits.mono (h : Visits I s s') (hJ : ∀ disk, I disk → J disk) : Visits J s s' := by
  obtain ⟨later, hmoments, hlater⟩ := h.moments
  exact ⟨hJ _ h.disk, later, hmoments, fun disk hdisk => hJ disk (hlater disk hdisk)⟩

/-- What held of every moment before holds of every moment after. -/
theorem Visits.forall_moments (h : Visits I s s') (hs : ∀ disk ∈ s.moments, I disk) :
    ∀ disk ∈ s'.moments, I disk := by
  obtain ⟨later, hmoments, hlater⟩ := h.moments
  rw [hmoments]
  intro disk hdisk
  rcases List.mem_append.mp hdisk with hdisk | hdisk
  · exact hs disk hdisk
  · exact hlater disk hdisk

theorem Through.refl (h : I s.disk) : Through I s s := ⟨⟨h, ⟨[], by simp⟩⟩, rfl, rfl⟩

/-- An operation that leaves the disk alone. -/
theorem Through.idle (h : I s.disk) : Through I s { s with operations := s.operations + 1 } :=
  ⟨⟨h, ⟨[], by simp⟩⟩, rfl, rfl⟩

theorem Through.trans (h : Through I s s') (h' : Through I s' s'') : Through I s s'' :=
  ⟨h.toVisits.trans h'.toVisits, h'.validation.trans h.validation, h'.extracted.trans h.extracted⟩

theorem Through.mono (h : Through I s s') (hJ : ∀ disk, I disk → J disk) : Through J s s' :=
  ⟨h.toVisits.mono hJ, h.validation, h.extracted⟩

end Through

section Operations

variable {platform : Platform} {fault : ℕ → Option (ℕ × IoError)} {I : Disk → Prop} {s : Extraction}
  {base : List OsStr}

theorem ensures_nextFault : Ensures (nextFault fault) s
    (fun _ s' => s' = { s with operations := s.operations + 1 }) fun _ _ => False := rfl

theorem ensures_operation (h : I s.disk) :
    Ensures (operation fault) s (fun _ s' => Through I s s' ∧ s'.disk = s.disk)
      fun _ s' => Through I s s' := by
  apply ensures_bind
  refine ensures_nextFault.mono ?_ fun _ _ hfalse => hfalse.elim
  rintro failure s' rfl
  match failure with
  | none => exact ensures_pure ⟨.idle h, rfl⟩
  | some (_, error) => exact ensures_throw (.idle h)

theorem ensures_setDisk {disk : Disk} (h : I disk) :
    Ensures (setDisk disk) s (fun _ s' => Through I s s' ∧ s'.disk = disk) fun _ _ => False :=
  ⟨⟨⟨h, ⟨[disk], rfl, by simpa using h⟩⟩, rfl, rfl⟩, rfl⟩

/-! ## Directories -/

theorem addNode_ok {disk : Disk} {above : List OsStr} {name : OsStr} {node : Node OsStr}
    {hnode : ∀ target, node ≠ .link target} {added : List OsStr × NodeTree OsStr}
    (h : disk.addNode platform base above name node hnode = .ok added) :
    ∃ location, disk.tree.walk base above = .ok location ∧ added.1 = location ++ [name] ∧
      NodeTree.Adds disk.tree added.2 (location ++ [name]) node := by
  rw [Disk.addNode] at h
  split at h
  · cases h
  · rename_i location hwalk
    split_ifs at h with hdirectory habsent
    cases h
    exact ⟨location, hwalk, rfl, NodeTree.add_adds hdirectory habsent hnode⟩

/-- `mkdir` makes one directory, behind the path in front of it. -/
theorem makeDirectory_ok {disk disk' : Disk} {above : List OsStr} {name : OsStr}
    (h : disk.makeDirectory platform base above name = .ok disk') :
    ∃ location, disk.tree.walk base above = .ok location ∧
      NodeTree.Adds disk.tree disk'.tree (location ++ [name]) .directory ∧ disk'.files = disk.files := by
  rw [Disk.makeDirectory] at h
  cases hadd : disk.addNode platform base above name .directory (by simp) with
  | error error =>
    rw [hadd] at h
    cases h
  | ok added =>
    rw [hadd] at h
    cases h
    obtain ⟨location, hwalk, -, hadds⟩ := addNode_ok hadd
    exact ⟨location, hwalk, hadds, rfl⟩

/-- The path to a new directory leads to it. -/
theorem makeDirectory_walk {disk disk' : Disk} {above : List OsStr} {name : OsStr}
    (h : disk.makeDirectory platform base above name = .ok disk') :
    (disk'.tree.walk base (above ++ [name])).isOk := by
  obtain ⟨location, hwalk, hadds, -⟩ := makeDirectory_ok h
  rw [NodeTree.walk_concat, hadds.walk_eq hwalk]
  simp only
  rw [NodeTree.enter_of_directory hadds.present]
  rfl

theorem ensures_makeDirectory {above : List OsStr} {name : OsStr} (hs : I s.disk)
    (hI : ∀ disk, s.disk.makeDirectory platform base above name = .ok disk → I disk) :
    Ensures (makeDirectory platform fault base above name) s
      (fun _ s' => Through I s s' ∧ (s'.disk.tree.walk base (above ++ [name])).isOk)
      fun _ s' => Through I s s' := by
  apply ensures_bind
  refine (ensures_operation hs).mono ?_ fun _ _ h => h
  rintro _ s₁ ⟨hthrough, hdisk⟩
  apply ensures_bind
  apply ensures_get
  apply ensures_bind
  apply ensures_check
  · intro disk hmade
    rw [except_mapError_ok_iff, hdisk] at hmade
    refine (ensures_setDisk (hI disk hmade)).mono ?_ fun _ _ hfalse => hfalse.elim
    rintro _ s₂ ⟨hthrough', rfl⟩
    exact ⟨hthrough.trans hthrough', makeDirectory_walk hmade⟩
  · intro error _
    exact hthrough

theorem ensures_unlessDirectory {names : List OsStr} {error : ArchiveError} (hs : I s.disk) :
    Ensures (unlessDirectory base names error) s
      (fun _ s' => Through I s s' ∧ (s'.disk.tree.walk base names).isOk) fun _ s' => Through I s s' := by
  have hidle : Through I s s := .refl hs
  apply ensures_bind
  apply ensures_get
  split_ifs with hdirectory
  · exact ensures_pure ⟨hidle, hdirectory⟩
  · exact ensures_throw hidle

/-- `create_dir_all` makes directories with the names of its path only, and on success the path leads to
    a directory. -/
theorem ensures_createDirAllFrom {reversed : List OsStr} (hs : I s.disk)
    (hI : ∀ {disk disk' above name}, above ++ [name] <+: reversed.reverse → I disk →
      disk.makeDirectory platform base above name = .ok disk' → I disk') :
    Ensures (createDirAllFrom platform fault base reversed) s
      (fun _ s' => Through I s s' ∧ (s'.disk.tree.walk base reversed.reverse).isOk)
      fun _ s' => Through I s s' := by
  induction reversed generalizing s with
  | nil => exact ensures_pure ⟨.refl hs, rfl⟩
  | cons name above ih =>
    rw [List.reverse_cons] at hI ⊢
    have hmake : ∀ {s : Extraction}, I s.disk →
        Ensures (makeDirectory platform fault base above.reverse name) s
          (fun _ s' => Through I s s' ∧ (s'.disk.tree.walk base (above.reverse ++ [name])).isOk)
          fun _ s' => Through I s s' :=
      fun hs => ensures_makeDirectory hs fun disk => hI (List.prefix_refl _) hs
    rw [createDirAllFrom]
    apply ensures_bind
    apply ensures_attempt
    refine (hmake hs).mono (fun _ s₁ h => ensures_pure h) ?_
    intro error s₁ hfirst
    simp only
    split_ifs with hmissing
    · apply ensures_bind
      refine (ih hfirst.disk fun hpre => hI (hpre.trans (List.prefix_append _ _))).mono ?_
        fun _ s₂ h => hfirst.trans h
      rintro _ s₂ ⟨habove, -⟩
      apply ensures_bind
      apply ensures_attempt
      refine (hmake habove.disk).mono
        (fun _ s₃ h => ensures_pure ⟨(hfirst.trans habove).trans h.1, h.2⟩) ?_
      intro error s₃ hsecond
      refine (ensures_unlessDirectory hsecond.disk).mono ?_ ?_
      · rintro _ s₄ ⟨hlast, hwalk⟩
        exact ⟨((hfirst.trans habove).trans hsecond).trans hlast, hwalk⟩
      · intro _ s₄ hlast
        exact ((hfirst.trans habove).trans hsecond).trans hlast
    · refine (ensures_unlessDirectory hfirst.disk).mono ?_ fun _ s₂ h => hfirst.trans h
      rintro _ s₂ ⟨hlast, hwalk⟩
      exact ⟨hfirst.trans hlast, hwalk⟩

/-- An existing directory is left as it is, links on its path or not. -/
theorem ensures_createDirAll_existing {names location : List OsStr}
    (hwalk : s.disk.tree.walk base names = .ok location) :
    Ensures (createDirAll platform fault base names) s (fun _ s' => Through (· = s.disk) s s')
      fun _ s' => Through (· = s.disk) s s' := by
  refine (@ensures_createDirAllFrom platform fault (· = s.disk) s base names.reverse rfl ?_).mono
    (fun _ _ h => h.1) fun _ _ h => h
  rintro disk disk' above name hpre rfl hmade
  exfalso
  obtain ⟨middle, habove, hadds, -⟩ := makeDirectory_ok hmade
  rw [List.reverse_reverse] at hpre
  obtain ⟨more, rfl⟩ := hpre
  -- The whole path can be walked, so its next name stands there.
  rw [NodeTree.walk_append, NodeTree.walk_concat, habove] at hwalk
  simp only [NodeTree.enter_of_none hadds.absent] at hwalk
  cases hwalk

theorem ensures_rejectExistingLink {names : List OsStr} (hs : I s.disk) :
    Ensures (rejectExistingLink platform fault base names) s
      (fun _ s' => Through I s s' ∧ s'.disk = s.disk ∧
        ∃ node, s.disk.symlinkMetadata platform base names = .ok node ∧ ∀ target, node ≠ .link target)
      fun _ s' => Through I s s' := by
  apply ensures_bind
  refine (ensures_operation hs).mono ?_ fun _ _ h => h
  rintro _ s₁ ⟨hthrough, hdisk⟩
  apply ensures_bind
  apply ensures_get
  apply ensures_bind
  apply ensures_check
  · intro node hnode
    rw [except_mapError_ok_iff, hdisk] at hnode
    cases node with
    | directory => exact ensures_pure ⟨hthrough, hdisk, _, hnode, by simp⟩
    | file content => exact ensures_pure ⟨hthrough, hdisk, _, hnode, by simp⟩
    | link target => exact ensures_throw hthrough
  · intro error _
    exact hthrough

/-- A straight path that leads to a directory and does not end in a link. -/
theorem node_of_symlinkMetadata {disk : Disk} {dirs : List OsStr} {node : Node OsStr}
    (hbase : disk.tree.node base = some .directory)
    (hstraight : NodeTree.Straight disk.tree base dirs.dropLast)
    (hwalk : (disk.tree.walk base dirs).isOk)
    (hmetadata : disk.symlinkMetadata platform base dirs = .ok node)
    (hnode : ∀ target, node ≠ .link target) : disk.tree.node (base ++ dirs) = some .directory := by
  rcases List.eq_nil_or_concat dirs with rfl | ⟨above, name, rfl⟩
  · rwa [List.append_nil]
  · rw [List.concat_eq_append] at *
    rw [List.dropLast_concat] at hstraight
    cases hdirs : disk.tree.walk base (above ++ [name]) with
    | error error =>
      rw [hdirs] at hwalk
      cases hwalk
    | ok location =>
      rw [Disk.symlinkMetadata, List.getLast?_concat, List.dropLast_concat] at hmetadata
      cases habove : disk.tree.walk base above with
      | error error =>
        rw [NodeTree.walk_concat, habove] at hdirs
        cases hdirs
      | ok middle =>
        cases hstraight.walk_eq habove
        simp only [habove] at hmetadata
        have hlink : ∀ target, disk.tree.node (base ++ above ++ [name]) ≠ some (.link target) := by
          intro target htarget
          rw [htarget] at hmetadata
          cases hmetadata
          exact hnode target rfl
        rw [← (hstraight.concat hlink).walk_eq hdirs]
        exact NodeTree.node_of_walk hbase hdirs

/-- Along a path that is straight up to its last name, directories are made where they are spelled, and
    on success the path has no link. -/
theorem ensures_createDirectory {dirs : List OsStr} (hs : I s.disk)
    (hbase : ∀ disk, I disk → disk.tree.node base = some .directory)
    (hstraight : ∀ disk, I disk → NodeTree.Straight disk.tree base dirs.dropLast)
    (hI : ∀ {disk disk' made}, made ≠ [] → made <+: dirs → I disk →
      NodeTree.Adds disk.tree disk'.tree (base ++ made) .directory → disk'.files = disk.files → I disk') :
    Ensures (createDirectory platform fault base dirs) s
      (fun _ s' => Through I s s' ∧ s'.disk.tree.node (base ++ dirs) = some .directory)
      fun _ s' => Through I s s' := by
  apply ensures_bind
  refine (ensures_createDirAllFrom hs ?_).mono ?_ fun _ _ h => h
  · intro disk disk' above name hpre hdisk hmade
    obtain ⟨location, hwalk, hadds, hfiles⟩ := makeDirectory_ok hmade
    rw [List.reverse_reverse] at hpre
    obtain ⟨more, hdirs⟩ := hpre
    have habove : dirs.dropLast.take above.length = above := by
      rw [← hdirs, List.append_assoc, List.dropLast_append_of_ne_nil (by simp), List.take_left]
    have hspelled := (hstraight disk hdisk).take above.length
    rw [habove] at hspelled
    rw [hspelled.walk_eq hwalk, List.append_assoc] at hadds
    exact hI (by simp) ⟨more, hdirs⟩ hdisk hadds hfiles
  · rintro _ s₁ ⟨hmade, hwalk⟩
    rw [List.reverse_reverse] at hwalk
    refine (ensures_rejectExistingLink hmade.disk).mono ?_ fun _ _ h => hmade.trans h
    rintro _ s₂ ⟨hthrough, hdisk, node, hmetadata, hnode⟩
    refine ⟨hmade.trans hthrough, ?_⟩
    rw [hdisk]
    exact node_of_symlinkMetadata (hbase _ hmade.disk) (hstraight _ hmade.disk) hwalk hmetadata hnode

/-! ## Files -/

/-- `disk` has one file more than `before`, with this content. -/
structure Holds (before : Disk) (location : List OsStr) (content : List UInt8) (disk : Disk) : Prop where
  adds : NodeTree.Adds before.tree disk.tree location (.file content)
  files : disk.files = before.files ++ [(location, content)]

theorem append_eq {disk : Disk} {location : List OsStr} {content : List UInt8} (bytes : List UInt8)
    (h : disk.tree.node location = some (.file content)) :
    disk.append location bytes = ⟨disk.tree.setContent location (content ++ bytes) ⟨content, h⟩,
      disk.files.map fun file => if file.1 = location then (location, content ++ bytes) else file⟩ := by
  rw [Disk.append]
  split
  · rename_i content' h'
    rw [h] at h'
    cases h'
    rfl
  · rename_i hnone
    exact absurd h (hnone content)

theorem Holds.append {before disk : Disk} {location : List OsStr} {content : List UInt8}
    (h : Holds before location content disk) (hfresh : ∀ file ∈ before.files, file.1 ≠ location)
    (bytes : List UInt8) : Holds before location (content ++ bytes) (disk.append location bytes) := by
  rw [append_eq bytes h.adds.present]
  have hsets := @NodeTree.setContent_sets OsStr disk.tree location _ (content ++ bytes)
    ⟨content, h.adds.present⟩
  refine ⟨⟨h.adds.absent, hsets.present, fun hne => (hsets.other hne).trans (h.adds.other hne)⟩, ?_⟩
  have hother : before.files.map
      (fun file => if file.1 = location then (location, content ++ bytes) else file) = before.files := by
    conv_rhs => rw [← List.map_id before.files]
    exact List.map_congr_left fun file hfile => if_neg (hfresh file hfile)
  simp only [h.files, List.map_append, List.map_singleton, if_true, hother]

/-- A write adds its bytes to the file, or a part of them. -/
theorem ensures_writeAll {before : Disk} {location : List OsStr} {content bytes : List UInt8}
    (hholds : Holds before location content s.disk) (hfresh : ∀ file ∈ before.files, file.1 ≠ location)
    (hI : ∀ disk part, part <+: bytes → Holds before location (content ++ part) disk → I disk) :
    Ensures (writeAll fault location bytes) s
      (fun _ s' => Through I s s' ∧ Holds before location (content ++ bytes) s'.disk)
      fun _ s' => Through I s s' := by
  have hidle : Through I s { s with operations := s.operations + 1 } :=
    .idle (hI _ [] List.nil_prefix (by rwa [List.append_nil]))
  apply ensures_bind
  refine ensures_nextFault.mono ?_ fun _ _ hfalse => hfalse.elim
  rintro failure s₁ rfl
  match failure with
  | none =>
    apply ensures_bind
    apply ensures_get
    have hall := hholds.append hfresh bytes
    refine (ensures_setDisk (hI _ bytes (List.prefix_refl _) hall)).mono ?_
      fun _ _ hfalse => hfalse.elim
    rintro _ s₂ ⟨hthrough, hdisk⟩
    rw [hdisk]
    exact ⟨hidle.trans hthrough, hall⟩
  | some (written, error) =>
    apply ensures_bind
    apply ensures_get
    apply ensures_bind
    have hpart := hholds.append hfresh (bytes.take written)
    refine (ensures_setDisk (hI _ _ (List.take_prefix _ _) hpart)).mono ?_
      fun _ _ hfalse => hfalse.elim
    rintro _ s₂ ⟨hthrough, -⟩
    exact ensures_throw (hidle.trans hthrough)

/-- The copy loop adds the stream up to the limit, and less when it fails. -/
theorem ensures_copyTake {before : Disk} {location : List OsStr} {content : List UInt8} {limit : ℕ}
    {failure : Option IoError} {reads : List (List UInt8)}
    (hholds : Holds before location content s.disk) (hfresh : ∀ file ∈ before.files, file.1 ≠ location)
    (hI : ∀ disk part, part.length ≤ limit → Holds before location (content ++ part) disk → I disk) :
    Ensures (copyTake fault location failure limit reads) s
      (fun copied s' => Through I s s' ∧ copied = ((streamOf reads).take limit).length ∧
        Holds before location (content ++ (streamOf reads).take limit) s'.disk)
      fun _ s' => Through I s s' := by
  have hidle : Through I s s := .refl (hI _ [] (by simp) (by rwa [List.append_nil]))
  induction reads generalizing s content limit with
  | nil =>
    cases limit with
    | zero => exact ensures_pure ⟨hidle, by simp, by simpa using hholds⟩
    | succ limit =>
      cases failure with
      | none => exact ensures_pure ⟨hidle, by simp [streamOf], by simpa [streamOf] using hholds⟩
      | some error => exact ensures_throw hidle
  | cons chunk rest ih =>
    cases limit with
    | zero => exact ensures_pure ⟨hidle, by simp, by simpa using hholds⟩
    | succ limit =>
      rw [copyTake]
      by_cases hchunk : chunk = []
      · subst hchunk
        rw [if_pos List.take_nil]
        exact ensures_pure ⟨hidle, by simp [streamOf], by simpa [streamOf] using hholds⟩
      · have hbytes : chunk.take (limit + 1) ≠ [] := by simpa [List.take_eq_nil_iff] using hchunk
        have hstream : (streamOf (chunk :: rest)).take (limit + 1) =
            chunk.take (limit + 1) ++
              (streamOf rest).take (limit + 1 - (chunk.take (limit + 1)).length) := by
          have hcons : streamOf (chunk :: rest) = chunk ++ streamOf rest := by
            simp [streamOf, hchunk]
          rw [hcons, List.take_append, List.length_take]
          congr 2
          omega
        rw [if_neg hbytes, hstream]
        apply ensures_bind
        refine (ensures_writeAll hholds hfresh ?_).mono ?_ fun _ _ h => h
        · intro disk part hpart
          apply hI
          have hlength := hpart.length_le
          rw [List.length_take] at hlength
          omega
        · rintro _ s₁ ⟨hwrite, hholds'⟩
          apply ensures_bind
          have hI' : ∀ disk part, part.length ≤ limit + 1 - (chunk.take (limit + 1)).length →
              Holds before location (content ++ chunk.take (limit + 1) ++ part) disk → I disk := by
            intro disk part hpart
            rw [List.append_assoc]
            apply hI
            rw [List.length_append]
            have hlength := List.length_take_le (limit + 1) chunk
            omega
          refine (ih hholds' hI' (.refl hwrite.disk)).mono ?_
            fun _ _ h => hwrite.trans h
          rintro copied s₂ ⟨hthrough, rfl, hrest⟩
          refine ensures_pure ⟨hwrite.trans hthrough, ?_, ?_⟩
          · rw [List.length_append]
          · rwa [← List.append_assoc]

/-- `create_new` behind a directory makes a file that did not exist. -/
theorem createNew_ok {disk : Disk} {above : List OsStr} {name : OsStr}
    {created : List OsStr × Disk} (habove : disk.tree.node (base ++ above) = some .directory)
    (h : disk.createNew platform base above name = .ok created) :
    created.1 = base ++ (above ++ [name]) ∧ Holds disk (base ++ (above ++ [name])) [] created.2 := by
  rw [Disk.createNew] at h
  cases hadd : disk.addNode platform base above name (.file []) (by simp) with
  | error error =>
    rw [hadd] at h
    cases h
  | ok added =>
    rw [hadd] at h
    cases h
    obtain ⟨location, hwalk, hlocation, hadds⟩ := addNode_ok hadd
    rw [NodeTree.walk_of_directory habove] at hwalk
    cases hwalk
    rw [List.append_assoc] at hlocation hadds
    exact ⟨hlocation, ⟨hadds, hlocation ▸ rfl⟩⟩

/-- `write_entry` makes one file, in a directory that exists, with the stream up to the limit. -/
theorem ensures_writeEntry {entry : Entry} {names : List OsStr} {maxFileBytes : ℕ} {relative : OsStr}
    (hs : I s.disk) (hnames : names ≠ [])
    (habove : s.disk.tree.node (base ++ names.dropLast) = some .directory)
    (hlogged : ∀ file ∈ s.disk.files, s.disk.tree.node file.1 ≠ none)
    (hI : ∀ disk content, content.length ≤ (maxFileBytes + 1) % 2 ^ 64 →
      Holds s.disk (base ++ names) content disk → I disk) :
    Ensures (writeEntry platform fault entry base names maxFileBytes relative) s
      (fun _ s' => Through I s s' ∧
        Holds s.disk (base ++ names) (entry.stream.take ((maxFileBytes + 1) % 2 ^ 64)) s'.disk ∧
        (entry.stream.take ((maxFileBytes + 1) % 2 ^ 64)).length = entry.size ∧
        entry.size ≤ maxFileBytes)
      fun _ s' => Through I s s' := by
  obtain ⟨above, name, rfl⟩ : ∃ above name, names = above ++ [name] :=
    ⟨names.dropLast, names.getLast hnames, (List.dropLast_append_getLast hnames).symm⟩
  rw [List.dropLast_concat] at habove
  apply ensures_bind
  refine (ensures_operation hs).mono ?_ fun _ _ h => h
  rintro _ s₁ ⟨hopen, hdisk⟩
  apply ensures_bind
  apply ensures_get
  apply ensures_bind
  apply ensures_check _ fun _ _ => hopen
  intro created hcreated
  rw [except_mapError_ok_iff, hdisk, List.dropLast_concat, List.getLast?_concat] at hcreated
  obtain ⟨hlocation, hholds⟩ := createNew_ok habove hcreated
  have hfresh : ∀ file ∈ s.disk.files, file.1 ≠ base ++ (above ++ [name]) := by
    intro file hfile heq
    apply hlogged file hfile
    rw [heq]
    exact hholds.adds.absent
  apply ensures_bind
  refine (ensures_setDisk (hI _ [] (by simp) hholds)).mono ?_ fun _ _ hfalse => hfalse.elim
  rintro _ s₂ ⟨hcreate, hdisk₂⟩
  apply ensures_bind
  rw [hlocation]
  rw [← hdisk₂] at hholds
  refine (ensures_copyTake hholds hfresh hI).mono ?_ fun _ _ h => (hopen.trans hcreate).trans h
  rintro copied s₃ ⟨hcopy, rfl, hcopied⟩
  have hthrough := (hopen.trans hcreate).trans hcopy
  apply ensures_bind
  apply ensures_check _ fun _ _ => hthrough
  intro _ hchecked
  simp only [failIf_ok_iff, not_or, not_not, not_lt] at hchecked
  obtain ⟨hsize, hbound⟩ := hchecked
  -- Flushing and closing leave the disk as it is.
  apply ensures_bind
  refine (ensures_operation hcopy.disk).mono ?_ fun _ _ h => hthrough.trans h
  rintro _ s₄ ⟨hflush, hdisk₄⟩
  refine (ensures_operation hflush.disk).mono ?_ fun _ _ h => (hthrough.trans hflush).trans h
  rintro _ s₅ ⟨hclose, hdisk₅⟩
  refine ⟨(hthrough.trans hflush).trans hclose, ?_, hsize, hsize ▸ hbound⟩
  rw [hdisk₅, hdisk₄]
  exact hcopied

end Operations

end BaselineOps.Archive
