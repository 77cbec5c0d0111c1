import Mathlib
import BaselineOps.ExecutionLease.Host

/-!
# The closure walk of an execution lease

`Add-LeaseRequestedPaths` and the functions below it (`ProfileExecutionLease.psm1`, lines 168–254 and
337–346): every control file and every file below a closure root is opened once, and every file and
every directory is counted against a limit.

* `addLeaseRequestedPaths_spec`: on success the streams are those of the requested files, one for each,
  and the count is within the limit; on failure the streams that are still open are those of the state.
  The loop over pending directories is never cut off.
-/

namespace BaselineOps.ExecutionLease

open BaselineOps.Lib

variable {host : Host}

/-! ## State -/

/-- An open file. -/
structure Stream where
  id : ℕ
  path : String
deriving DecidableEq

/-- The streams of the process: the number of the next one, and those that are not disposed. -/
structure Streams where
  next : ℕ
  live : List Stream
deriving DecidableEq

/-- The state that `New-LeaseState` (lines 241–254) makes, and the streams of the process. -/
structure WalkState where
  pending : List String
  seenDirectories : List String
  seenFiles : List String
  streams : List Stream
  itemCount : ℕ
  maximumItems : ℕ
  allowedRoots : List String
  process : Streams

/-- `New-LeaseState` (lines 241–254). -/
def newLeaseState (maximumItems : ℕ) (allowedRoots : List String) (process : Streams) : WalkState :=
  { pending := []
    seenDirectories := []
    seenFiles := []
    streams := []
    itemCount := 0
    maximumItems := maximumItems
    allowedRoots := allowedRoots
    process := process }

/-- `HashSet.Contains` under the path comparer. -/
def seen (host : Host) (paths : List String) (path : String) : Prop :=
  host.fold path ∈ paths.map host.fold

instance (paths : List String) (path : String) : Decidable (seen host paths path) :=
  inferInstanceAs (Decidable (_ ∈ _))

/-- The release of a stream. -/
def Streams.dispose (process : Streams) (stream : Stream) : Streams :=
  { process with live := process.live.filter fun other => other.id ≠ stream.id }

/-! ## Steps of the walk -/

/-- A program over the state of a walk. -/
abbrev Walk := EStateM Failure WalkState

variable (env : Environment host)

/-- `Add-LeaseItemCount` (lines 168–172). -/
def addLeaseItemCount : Walk Unit := do
  modify fun s => { s with itemCount := s.itemCount + 1 }
  let s ← get
  call (failIf (s.maximumItems < s.itemCount)
    ("Privileged code closure exceeds the " ++ toString s.maximumItems ++ "-item safety limit."))

/-- `[System.IO.FileStream]::new` on an existing file. -/
def openStream (path : String) : Walk Stream := do
  call (env.openFile path)
  let s ← get
  let stream : Stream := ⟨s.process.next, path⟩
  set { s with process := ⟨s.process.next + 1, s.process.live ++ [stream]⟩ }
  return stream

/-- `$stream.Dispose()` behind the error `failure`: its own error takes the place of that error. -/
def disposeStream (stream : Stream) (failure : Failure) : Walk Unit := do
  modify fun s => { s with process := s.process.dispose stream }
  match env.disposeFault stream.id with
  | none => throw failure
  | some message => throw (.thrown message)

/-- The checks on a path that is held open (lines 189–191). -/
def checkLockedItem (path : String) : Except String Unit := do
  let lockedItem ← env.lockedItem path
  failIf (lockedItem.isReparsePoint = true)
    ("Privileged code closure contains a reparse-point item: " ++ path)
  assertLeaseTrustedPath env .file lockedItem.fullName

/-- Lines 188–196: a stream that passes the checks is kept, and any other is disposed. -/
def keepStream (stream : Stream) : Walk Unit := do
  match ← attempt (call (checkLockedItem env stream.path)) with
  | .ok _ => modify fun s => { s with streams := s.streams ++ [stream] }
  | .error failure => disposeStream env stream failure

/-- The part of `Add-LeaseFileStream` (lines 174–197) behind the set of seen files. -/
def lockFile (path : String) : Walk Unit := do
  modify fun s => { s with seenFiles := s.seenFiles ++ [path] }
  addLeaseItemCount
  let stream ← openStream env path
  keepStream env stream

/-- The checks on a path before it is looked up in a set of seen paths (lines 178–179 and 204–205). -/
def checkContained (canonical : FullPath host) (allowedRoots : List String) : Except String Unit := do
  let containingRoot ← getLeaseContainingRoot host canonical.text allowedRoots
  assertLeaseNoReparseChain env canonical.text containingRoot canonical

/-- `Add-LeaseFileStream` (lines 174–197). -/
def addLeaseFileStream (path : String) : Walk Unit := do
  let s ← get
  let item ← call (env.tree.getItem path)
  let canonical := host.fullPath item.fullName
  call (checkContained env canonical s.allowedRoots)
  if seen host s.seenFiles canonical.text then return ()
  lockFile env canonical.text

/-- The part of `Add-LeaseDirectory` (lines 199–212) behind the set of seen directories. -/
def enqueueDirectory (fullName : String) : Walk Unit := do
  modify fun s => { s with seenDirectories := s.seenDirectories ++ [fullName] }
  addLeaseItemCount
  modify fun s => { s with pending := s.pending ++ [fullName] }

/-- `Add-LeaseDirectory` (lines 199–212). -/
def addLeaseDirectory (path : String) : Walk Unit := do
  let s ← get
  let item ← call (env.tree.getItem path)
  call (checkContained env (host.fullPath item.fullName) s.allowedRoots)
  call (failIf (item.isContainer = false) ("Privileged code closure root is not a directory: " ++ path))
  call (failIf (item.isReparsePoint = true)
    ("Privileged code closure contains a reparse-point directory: " ++ path))
  if seen host s.seenDirectories item.fullName then return ()
  enqueueDirectory item.fullName

/-- `Add-LeaseClosureEntry` (lines 214–219). -/
def addLeaseClosureEntry (path : String) : Walk Unit := do
  let item ← call (env.tree.getItem path)
  call (failIf (item.isReparsePoint = true)
    ("Privileged code closure contains a reparse-point item: " ++ item.fullName))
  if item.isContainer then addLeaseDirectory env item.fullName
  else addLeaseFileStream env item.fullName

/-- The body of the loop of `Add-LeaseClosureRoot` (lines 227–237) for the directory taken from the
    queue. -/
def expandDirectory (directory : String) : Walk Unit := do
  let item ← call (env.tree.getItem directory)
  call (failIf (item.isReparsePoint = true)
    ("Privileged code closure contains a reparse-point directory: " ++ directory))
  call (assertLeaseTrustedPath env .directory item.fullName)
  (env.tree.entries item.fullName).1.forM (addLeaseClosureEntry env)
  match (env.tree.entries item.fullName).2 with
  | none => return ()
  | some message => throw (.thrown message)

/-- The loop of `Add-LeaseClosureRoot` (lines 225–238), with at most `rounds` rounds. -/
def drainPending : ℕ → Walk Unit
  | 0 => do
    let s ← get
    if s.pending = [] then return () else throw .unfinished
  | rounds + 1 => do
    let s ← get
    match s.pending with
    | [] => return ()
    | directory :: rest =>
      set { s with pending := rest }
      expandDirectory env directory
      drainPending rounds

/-- `Add-LeaseClosureRoot` (lines 221–239). Every directory of the queue has been counted, so that the
    limit bounds the rounds. -/
def addLeaseClosureRoot (path : String) : Walk Unit := do
  addLeaseDirectory env path
  let s ← get
  drainPending env s.maximumItems

/-- `Add-LeaseRequestedPaths` (lines 337–346). -/
def addLeaseRequestedPaths (controlFiles closureRoots : List String) : Walk Unit := do
  controlFiles.forM (addLeaseFileStream env)
  closureRoots.forM (addLeaseClosureRoot env)

/-! ## What one step can do -/

/-- The state behind a file that has been opened and kept. -/
def WalkState.withFile (s : WalkState) (path : String) : WalkState :=
  { s with
    seenFiles := s.seenFiles ++ [path]
    itemCount := s.itemCount + 1
    streams := s.streams ++ [⟨s.process.next, path⟩]
    process := ⟨s.process.next + 1, s.process.live ++ [⟨s.process.next, path⟩]⟩ }

/-- The state behind a directory that has been put into the queue. -/
def WalkState.withDirectory (s : WalkState) (fullName : String) : WalkState :=
  { s with
    seenDirectories := s.seenDirectories ++ [fullName]
    itemCount := s.itemCount + 1
    pending := s.pending ++ [fullName] }

/-- The numbers of the live streams have been used. -/
def Streams.Fresh (process : Streams) : Prop := ∀ stream ∈ process.live, stream.id < process.next

/-- A step that fails keeps the streams, and no other stream stays open. -/
structure StepFailed (s : WalkState) (failure : Failure) (s' : WalkState) : Prop where
  failure : failure ≠ .unfinished
  streams : s'.streams = s.streams
  live : s'.process.live = s.process.live
  next : s.process.next ≤ s'.process.next

variable {env} {s s' : WalkState} {path : String}

theorem stepFailed_refl (message : String) : StepFailed s (.thrown message) s :=
  ⟨Failure.noConfusion, rfl, rfl, le_rfl⟩

theorem addLeaseItemCount_spec {E : Failure → WalkState → Prop} {Q : Unit → WalkState → Prop}
    (hok : s.itemCount < s.maximumItems → Q () { s with itemCount := s.itemCount + 1 })
    (herror : ∀ message, E (.thrown message) { s with itemCount := s.itemCount + 1 }) :
    Ensures addLeaseItemCount s Q E := by
  unfold addLeaseItemCount
  apply ensures_bind
  apply ensures_modify
  apply ensures_bind
  apply ensures_get
  refine ensures_call ?_ ?_
  · intro u h
    rw [failIf_ok_iff] at h
    exact hok (by simpa using h)
  · intro message _
    exact herror message

/-- A stream that has just been opened is the last one, and its release takes only it away. -/
theorem dispose_new (hfresh : s.process.Fresh) (path : String) :
    (s.process.live ++ [(⟨s.process.next, path⟩ : Stream)]).filter
      (fun other => other.id ≠ s.process.next) = s.process.live := by
  rw [List.filter_append]
  have hkept : s.process.live.filter (fun other => other.id ≠ s.process.next) = s.process.live := by
    rw [List.filter_eq_self]
    intro stream hstream
    simpa using (hfresh stream hstream).ne
  rw [hkept]
  simp

theorem lockFile_spec (hfresh : s.process.Fresh) :
    Ensures (lockFile env path) s
      (fun _ s' => s.itemCount < s.maximumItems ∧ s' = s.withFile path) (StepFailed s) := by
  unfold lockFile
  apply ensures_bind
  apply ensures_modify
  apply ensures_bind
  refine addLeaseItemCount_spec ?_ fun message => ⟨Failure.noConfusion, rfl, rfl, le_rfl⟩
  intro hcount
  apply ensures_bind
  unfold openStream
  apply ensures_bind
  refine ensures_call ?_ fun message _ => ⟨Failure.noConfusion, rfl, rfl, le_rfl⟩
  intro _ _
  apply ensures_bind
  apply ensures_get
  apply ensures_bind
  apply ensures_modify
  apply ensures_pure
  unfold keepStream
  apply ensures_bind
  apply ensures_attempt
  refine ensures_call ?_ ?_
  · intro _ _
    apply ensures_modify
    exact ⟨hcount, rfl⟩
  · intro message _
    unfold disposeStream
    apply ensures_bind
    apply ensures_modify
    have hdisposed := dispose_new hfresh path
    cases env.disposeFault s.process.next with
    | none => exact ensures_throw ⟨Failure.noConfusion, rfl, hdisposed, Nat.le_succ _⟩
    | some message => exact ensures_throw ⟨Failure.noConfusion, rfl, hdisposed, Nat.le_succ _⟩

theorem enqueueDirectory_spec {fullName : String} :
    Ensures (enqueueDirectory fullName) s
      (fun _ s' => s.itemCount < s.maximumItems ∧ s' = s.withDirectory fullName) (StepFailed s) := by
  unfold enqueueDirectory
  apply ensures_bind
  apply ensures_modify
  apply ensures_bind
  refine addLeaseItemCount_spec ?_ fun message => ⟨Failure.noConfusion, rfl, rfl, le_rfl⟩
  intro hcount
  apply ensures_modify
  exact ⟨hcount, rfl⟩

/-! ## Requested files -/

/-- An item at a closure root, or an entry of a directory below one. -/
inductive Below (tree : FileTree host) (closureRoots : List String) : Item → Prop where
  | root {path : String} {item : Item} (hpath : path ∈ closureRoots) (hitem : tree.getItem path = .ok item) :
      Below tree closureRoots item
  | entry {directory item : Item} {path : String} (hdirectory : Below tree closureRoots directory)
      (hcontainer : directory.isContainer = true) (hpath : path ∈ (tree.entries directory.fullName).1)
      (hitem : tree.getItem path = .ok item) : Below tree closureRoots item

/-- The control files, and the files below the closure roots. -/
inductive Requested (tree : FileTree host) (controlFiles closureRoots : List String) : Item → Prop where
  | control {path : String} {item : Item} (hpath : path ∈ controlFiles) (hitem : tree.getItem path = .ok item) :
      Requested tree controlFiles closureRoots item
  | below {item : Item} (hbelow : Below tree closureRoots item) (hfile : item.isContainer = false) :
      Requested tree controlFiles closureRoots item

theorem Item.Same.symm {first second : Item} (h : first.Same host second) : second.Same host first :=
  ⟨h.fullName.symm, h.isContainer.symm, h.isReparsePoint.symm⟩

theorem Item.Same.trans {first second third : Item} (h : first.Same host second)
    (h' : second.Same host third) : first.Same host third :=
  ⟨h.fullName.trans h'.fullName, h.isContainer.trans h'.isContainer,
    h.isReparsePoint.trans h'.isReparsePoint⟩

/-- An entry of a directory is an entry under each of its names. -/
theorem FileTree.exists_entry (tree : FileTree host) {directory directory' : String}
    (hdirectory : host.fold directory = host.fold directory') (hpath : path ∈ (tree.entries directory).1) :
    ∃ path' ∈ (tree.entries directory').1, host.fold path = host.fold path' := by
  have hentries := tree.entries_congr hdirectory
  generalize (tree.entries directory).1 = entries at hpath hentries
  generalize (tree.entries directory').1 = entries' at hentries
  induction hentries with
  | nil => cases hpath
  | @cons entry entry' entries entries' hentry _ ih =>
    rcases List.mem_cons.mp hpath with rfl | hpath
    · exact ⟨entry', List.mem_cons_self, hentry⟩
    · obtain ⟨path', hmem, heq⟩ := ih hpath
      exact ⟨path', List.mem_cons_of_mem entry' hmem, heq⟩

/-- The entries of a directory that is not told apart from one below a root are below that root. -/
theorem Below.exists_entry {tree : FileTree host} {closureRoots : List String} {dir found : Item}
    {directory : String} (hdir : Below tree closureRoots dir) (hcontainer : dir.isContainer = true)
    (hname : host.fold dir.fullName = host.fold directory) (hpath : path ∈ (tree.entries directory).1)
    (hfound : tree.getItem path = .ok found) :
    ∃ wanted, Below tree closureRoots wanted ∧ wanted.Same host found := by
  obtain ⟨path', hpath', hfold⟩ := tree.exists_entry hname.symm hpath
  obtain ⟨wanted, hwanted, hsame⟩ := tree.getItem_congr hfold hfound
  exact ⟨wanted, .entry hdir hcontainer hpath' hwanted, hsame⟩

/-- The set of seen paths that an item belongs to has it. -/
def WalkState.has (host : Host) (s : WalkState) (item : Item) : Prop :=
  seen host (if item.isContainer then s.seenDirectories else s.seenFiles) item.fullName

theorem WalkState.has_congr {item item' : Item} (h : s.has host item) (hsame : item.Same host item') :
    s.has host item' := by
  unfold WalkState.has seen at *
  rwa [← hsame.isContainer, ← hsame.fullName]

/-- The item at a path has been seen. -/
def Entered (env : Environment host) (s : WalkState) (path : String) : Prop :=
  ∃ item, env.tree.getItem path = .ok item ∧ s.has host item

theorem Entered.congr {path' : String} (h : Entered env s path) (hfold : host.fold path = host.fold path') :
    Entered env s path' := by
  obtain ⟨item, hitem, hseen⟩ := h
  obtain ⟨found, hfound, hsame⟩ := env.tree.getItem_congr hfold hitem
  exact ⟨found, hfound, WalkState.has_congr hseen hsame.symm⟩

/-- Every entry of a directory has been seen. -/
def Expanded (env : Environment host) (s : WalkState) (directory : String) : Prop :=
  ∀ path ∈ (env.tree.entries directory).1, Entered env s path

/-! ## Invariant of the walk -/

/-- What holds of a state of the walk that began with the streams `base`. -/
structure WalkInv (env : Environment host) (controlFiles closureRoots : List String) (limit : ℕ)
    (base : Streams) (s : WalkState) : Prop where
  maximumItems : s.maximumItems = limit
  itemCount : s.itemCount = s.seenFiles.length + s.seenDirectories.length
  within : s.itemCount ≤ limit
  paths : s.streams.map Stream.path = s.seenFiles
  ids : s.streams.map Stream.id = List.range' base.next s.streams.length
  next : s.process.next = base.next + s.streams.length
  live : s.process.live = base.live ++ s.streams
  files_nodup : (s.seenFiles.map host.fold).Nodup
  directories_nodup : (s.seenDirectories.map host.fold).Nodup
  files_requested : ∀ file ∈ s.seenFiles, ∃ wanted, Requested env.tree controlFiles closureRoots wanted ∧
    host.fold wanted.fullName = host.fold file
  directories_below : ∀ directory ∈ s.seenDirectories, ∃ wanted, Below env.tree closureRoots wanted ∧
    wanted.isContainer = true ∧ host.fold wanted.fullName = host.fold directory
  directories_found : ∀ directory ∈ s.seenDirectories, ∃ path item, env.tree.getItem path = .ok item ∧
    item.fullName = directory
  pending : ∀ directory ∈ s.pending, directory ∈ s.seenDirectories
  queued : s.pending.length ≤ s.seenDirectories.length

/-- A walk that failed: what is still open are the streams from before it and those of its state. -/
structure WalkFailed (base : Streams) (failure : Failure) (s : WalkState) : Prop where
  failure : failure ≠ .unfinished
  ids : s.streams.map Stream.id = List.range' base.next s.streams.length
  next : base.next + s.streams.length ≤ s.process.next
  live : s.process.live = base.live ++ s.streams

/-- The sets of seen paths only grow. -/
structure Grows (s s' : WalkState) : Prop where
  directories : s.seenDirectories <+: s'.seenDirectories
  files : s.seenFiles <+: s'.seenFiles

theorem Grows.refl (s : WalkState) : Grows s s := ⟨List.prefix_rfl, List.prefix_rfl⟩

theorem Grows.trans {s'' : WalkState} (h : Grows s s') (h' : Grows s' s'') : Grows s s'' :=
  ⟨h.directories.trans h'.directories, h.files.trans h'.files⟩

/-- What happens to the sets and the queue while a directory is expanded. -/
structure Extends (s s' : WalkState) : Prop where
  directories : ∃ added, s'.seenDirectories = s.seenDirectories ++ added ∧ s'.pending = s.pending ++ added
  files : ∃ added, s'.seenFiles = s.seenFiles ++ added

theorem Extends.grows (h : Extends s s') : Grows s s' := by
  obtain ⟨⟨directories, hdirectories, -⟩, files, hfiles⟩ := h
  exact ⟨⟨directories, hdirectories.symm⟩, ⟨files, hfiles.symm⟩⟩

theorem Extends.refl (s : WalkState) : Extends s s := ⟨⟨[], by simp⟩, ⟨[], by simp⟩⟩

theorem Extends.trans {s'' : WalkState} (h : Extends s s') (h' : Extends s' s'') : Extends s s'' := by
  obtain ⟨⟨directories, hdirectories, hpending⟩, files, hfiles⟩ := h
  obtain ⟨⟨directories', hdirectories', hpending'⟩, files', hfiles'⟩ := h'
  refine ⟨⟨directories ++ directories', ?_, ?_⟩, files ++ files', ?_⟩
  · rw [hdirectories', hdirectories, List.append_assoc]
  · rw [hpending', hpending, List.append_assoc]
  · rw [hfiles', hfiles, List.append_assoc]

theorem extends_withFile (s : WalkState) (path : String) : Extends s (s.withFile path) :=
  ⟨⟨[], (List.append_nil _).symm, (List.append_nil _).symm⟩, [path], rfl⟩

theorem extends_withDirectory (s : WalkState) (fullName : String) :
    Extends s (s.withDirectory fullName) :=
  ⟨⟨[fullName], rfl, rfl⟩, [], (List.append_nil _).symm⟩

theorem seen_mono {paths paths' : List String} (h : seen host paths path) (hsub : paths <+: paths') :
    seen host paths' path :=
  List.map_subset _ hsub.subset h

theorem seen_self {paths : List String} (h : path ∈ paths) : seen host paths path :=
  List.mem_map_of_mem h

theorem seen_concat (paths : List String) (path : String) : seen host (paths ++ [path]) path :=
  seen_self (by simp)

theorem forall_concat {done : List String} {P : String → Prop} (hdone : ∀ path ∈ done, P path)
    (h : P path) : ∀ path' ∈ done ++ [path], P path' := by
  intro path' hpath'
  rcases List.mem_append.mp hpath' with hpath' | hpath'
  · exact hdone path' hpath'
  · rwa [List.mem_singleton.mp hpath']

/-- A path that has not been seen is a new one. -/
theorem nodup_concat {paths : List String} (h : (paths.map host.fold).Nodup)
    (hnew : ¬ seen host paths path) : ((paths ++ [path]).map host.fold).Nodup := by
  rw [List.map_append, List.nodup_append]
  refine ⟨h, List.nodup_singleton _, ?_⟩
  intro key hkey key' hkey' heq
  have hpath : key' = host.fold path := List.mem_singleton.mp hkey'
  rw [heq, hpath] at hkey
  exact hnew hkey

section

variable {controlFiles closureRoots : List String} {limit : ℕ} {base : Streams} {item : Item}

theorem WalkInv.fresh (h : WalkInv env controlFiles closureRoots limit base s) (hbase : base.Fresh) :
    s.process.Fresh := by
  intro stream hstream
  rw [h.next]
  rw [h.live] at hstream
  rcases List.mem_append.mp hstream with hstream | hstream
  · have hlt := hbase stream hstream
    omega
  · have hid : stream.id ∈ s.streams.map Stream.id := List.mem_map_of_mem hstream
    rw [h.ids, List.mem_range'_1] at hid
    exact hid.2

theorem WalkInv.failed (h : WalkInv env controlFiles closureRoots limit base s) {failure : Failure}
    (hstep : StepFailed s failure s') : WalkFailed base failure s' := by
  refine ⟨hstep.failure, ?_, ?_, ?_⟩
  · rw [hstep.streams, h.ids]
  · rw [hstep.streams, ← h.next]
    exact hstep.next
  · rw [hstep.live, hstep.streams, h.live]

theorem WalkInv.thrown (h : WalkInv env controlFiles closureRoots limit base s) (message : String) :
    WalkFailed base (.thrown message) s :=
  h.failed (stepFailed_refl message)

theorem WalkInv.withFile (h : WalkInv env controlFiles closureRoots limit base s)
    (hcount : s.itemCount < s.maximumItems) (hnew : ¬ seen host s.seenFiles path) {wanted : Item}
    (hwanted : Requested env.tree controlFiles closureRoots wanted)
    (hname : host.fold wanted.fullName = host.fold path) :
    WalkInv env controlFiles closureRoots limit base (s.withFile path) where
  maximumItems := h.maximumItems
  itemCount := by
    have hitems := h.itemCount
    simp only [WalkState.withFile, List.length_append, List.length_singleton]
    omega
  within := by
    rw [← h.maximumItems]
    exact hcount
  paths := by simp [WalkState.withFile, h.paths]
  ids := by
    simp only [WalkState.withFile, List.map_append, List.map_cons, List.map_nil, List.length_append,
      List.length_singleton]
    rw [h.ids, h.next, List.range'_concat, one_mul]
  next := by
    simp only [WalkState.withFile, List.length_append, List.length_singleton, h.next]
    omega
  live := by simp only [WalkState.withFile, h.live, List.append_assoc]
  files_nodup := nodup_concat h.files_nodup hnew
  directories_nodup := h.directories_nodup
  files_requested := by
    intro file hfile
    rcases List.mem_append.mp hfile with hfile | hfile
    · exact h.files_requested file hfile
    · rw [List.mem_singleton.mp hfile]
      exact ⟨wanted, hwanted, hname⟩
  directories_below := h.directories_below
  directories_found := h.directories_found
  pending := h.pending
  queued := h.queued

theorem WalkInv.withDirectory (h : WalkInv env controlFiles closureRoots limit base s)
    (hcount : s.itemCount < s.maximumItems) (hitem : env.tree.getItem path = .ok item)
    (hnew : ¬ seen host s.seenDirectories item.fullName) {wanted : Item}
    (hwanted : Below env.tree closureRoots wanted) (hcontainer : wanted.isContainer = true)
    (hname : host.fold wanted.fullName = host.fold item.fullName) :
    WalkInv env controlFiles closureRoots limit base (s.withDirectory item.fullName) where
  maximumItems := h.maximumItems
  itemCount := by
    have hitems := h.itemCount
    simp only [WalkState.withDirectory, List.length_append, List.length_singleton]
    omega
  within := by
    rw [← h.maximumItems]
    exact hcount
  paths := h.paths
  ids := h.ids
  next := h.next
  live := h.live
  files_nodup := h.files_nodup
  directories_nodup := nodup_concat h.directories_nodup hnew
  files_requested := h.files_requested
  directories_below := by
    intro directory hdirectory
    rcases List.mem_append.mp hdirectory with hdirectory | hdirectory
    · exact h.directories_below directory hdirectory
    · rw [List.mem_singleton.mp hdirectory]
      exact ⟨wanted, hwanted, hcontainer, hname⟩
  directories_found := by
    intro directory hdirectory
    rcases List.mem_append.mp hdirectory with hdirectory | hdirectory
    · exact h.directories_found directory hdirectory
    · rw [List.mem_singleton.mp hdirectory]
      exact ⟨path, item, hitem, rfl⟩
  pending := by
    intro directory hdirectory
    rcases List.mem_append.mp hdirectory with hdirectory | hdirectory
    · exact List.mem_append_left _ (h.pending directory hdirectory)
    · exact List.mem_append_right _ hdirectory
  queued := by
    have hqueued := h.queued
    simp only [WalkState.withDirectory, List.length_append, List.length_singleton]
    omega

/-! ## Files and directories -/

theorem addLeaseFileStream_spec (hbase : base.Fresh)
    (h : WalkInv env controlFiles closureRoots limit base s)
    (hrequested : ∀ item, env.tree.getItem path = .ok item →
      ∃ wanted, Requested env.tree controlFiles closureRoots wanted ∧
        host.fold wanted.fullName = host.fold item.fullName) :
    Ensures (addLeaseFileStream env path) s
      (fun _ s' => WalkInv env controlFiles closureRoots limit base s' ∧ Extends s s' ∧
        s'.pending = s.pending ∧
        ∃ item, env.tree.getItem path = .ok item ∧ seen host s'.seenFiles item.fullName)
      (WalkFailed base) := by
  unfold addLeaseFileStream
  apply ensures_bind
  apply ensures_get
  apply ensures_bind
  refine ensures_call ?_ fun message _ => h.thrown message
  intro item hitem
  have hcanonical : (host.fullPath item.fullName).text = item.fullName := env.tree.fullName_full hitem
  apply ensures_bind
  refine ensures_call ?_ fun message _ => h.thrown message
  intro _ _
  rw [hcanonical]
  split_ifs with hseen
  · exact ensures_pure ⟨h, Extends.refl s, rfl, item, hitem, hseen⟩
  · obtain ⟨wanted, hwanted, hname⟩ := hrequested item hitem
    refine (lockFile_spec (h.fresh hbase)).mono ?_ fun _ _ hfailed => h.failed hfailed
    rintro _ s' ⟨hcount, rfl⟩
    exact ⟨h.withFile hcount hseen hwanted hname, extends_withFile s _, rfl, item, hitem,
      seen_concat s.seenFiles item.fullName⟩

theorem addLeaseDirectory_spec (h : WalkInv env controlFiles closureRoots limit base s)
    (hbelow : ∀ item, env.tree.getItem path = .ok item →
      ∃ wanted, Below env.tree closureRoots wanted ∧ wanted.Same host item) :
    Ensures (addLeaseDirectory env path) s
      (fun _ s' => WalkInv env controlFiles closureRoots limit base s' ∧ Extends s s' ∧
        ∃ item, env.tree.getItem path = .ok item ∧ item.isContainer = true ∧
          seen host s'.seenDirectories item.fullName)
      (WalkFailed base) := by
  unfold addLeaseDirectory
  apply ensures_bind
  apply ensures_get
  apply ensures_bind
  refine ensures_call ?_ fun message _ => h.thrown message
  intro item hitem
  apply ensures_bind
  refine ensures_call ?_ fun message _ => h.thrown message
  intro _ _
  apply ensures_bind
  refine ensures_call ?_ fun message _ => h.thrown message
  intro _ hdirectory
  rw [failIf_ok_iff, Bool.not_eq_false] at hdirectory
  apply ensures_bind
  refine ensures_call ?_ fun message _ => h.thrown message
  intro _ _
  split_ifs with hseen
  · exact ensures_pure ⟨h, Extends.refl s, item, hitem, hdirectory, hseen⟩
  · obtain ⟨wanted, hwanted, hsame⟩ := hbelow item hitem
    refine enqueueDirectory_spec.mono ?_ fun _ _ hfailed => h.failed hfailed
    rintro _ s' ⟨hcount, rfl⟩
    have hcontainer : wanted.isContainer = true := by rw [hsame.isContainer, hdirectory]
    exact ⟨h.withDirectory hcount hitem hseen hwanted hcontainer hsame.fullName,
      extends_withDirectory s _, item, hitem, hdirectory, seen_concat s.seenDirectories item.fullName⟩

theorem addLeaseClosureEntry_spec (hbase : base.Fresh)
    (h : WalkInv env controlFiles closureRoots limit base s)
    (hbelow : ∀ item, env.tree.getItem path = .ok item →
      ∃ wanted, Below env.tree closureRoots wanted ∧ wanted.Same host item) :
    Ensures (addLeaseClosureEntry env path) s
      (fun _ s' => WalkInv env controlFiles closureRoots limit base s' ∧ Extends s s' ∧ Entered env s' path)
      (WalkFailed base) := by
  unfold addLeaseClosureEntry
  apply ensures_bind
  refine ensures_call ?_ fun message _ => h.thrown message
  intro item hitem
  apply ensures_bind
  refine ensures_call ?_ fun message _ => h.thrown message
  intro _ _
  obtain ⟨wanted, hwanted, hsame⟩ := hbelow item hitem
  -- the item is looked up once more, under its full name
  have hagain : ∀ found, env.tree.getItem item.fullName = .ok found → found.Same host item := by
    intro found hfound
    obtain ⟨found', hfound', hsame'⟩ := env.tree.getItem_fullName hitem
    rw [hfound] at hfound'
    rwa [Except.ok.inj hfound']
  split_ifs with hcontainer
  · have hbelow' : ∀ found, env.tree.getItem item.fullName = .ok found →
        ∃ wanted, Below env.tree closureRoots wanted ∧ wanted.Same host found :=
      fun found hfound => ⟨wanted, hwanted, hsame.trans (hagain found hfound).symm⟩
    refine (addLeaseDirectory_spec h hbelow').mono ?_ fun _ _ hfailed => hfailed
    rintro _ s' ⟨hinv, hextends, found, hfound, hdirectory, hseen⟩
    refine ⟨hinv, hextends, item, hitem, WalkState.has_congr ?_ (hagain found hfound)⟩
    rwa [WalkState.has, if_pos hdirectory]
  · have hfile : wanted.isContainer = false := by
      rw [hsame.isContainer]
      simpa using hcontainer
    have hrequested : ∀ found, env.tree.getItem item.fullName = .ok found →
        ∃ wanted, Requested env.tree controlFiles closureRoots wanted ∧
          host.fold wanted.fullName = host.fold found.fullName :=
      fun found hfound =>
        ⟨wanted, .below hwanted hfile, (hsame.trans (hagain found hfound).symm).fullName⟩
    refine (addLeaseFileStream_spec hbase h hrequested).mono ?_ fun _ _ hfailed => hfailed
    rintro _ s' ⟨hinv, hextends, -, found, hfound, hseen⟩
    refine ⟨hinv, hextends, item, hitem, WalkState.has_congr ?_ (hagain found hfound)⟩
    have hnot : ¬ found.isContainer = true := by rwa [(hagain found hfound).isContainer]
    rwa [WalkState.has, if_neg hnot]

/-! ## Directories of the queue -/

/-- Every seen directory waits in the queue, is the one at hand or has been expanded. -/
def Covered (env : Environment host) (current : Option String) (s : WalkState) : Prop :=
  ∀ directory ∈ s.seenDirectories,
    directory ∈ s.pending ∨ current = some directory ∨ Expanded env s directory

theorem WalkState.has_grows (h : s.has host item) (hgrows : Grows s s') : s'.has host item := by
  unfold WalkState.has at *
  split_ifs with hcontainer
  · rw [if_pos hcontainer] at h
    exact seen_mono h hgrows.directories
  · rw [if_neg hcontainer] at h
    exact seen_mono h hgrows.files

theorem Entered.grows (h : Entered env s path) (hgrows : Grows s s') : Entered env s' path := by
  obtain ⟨item, hitem, hseen⟩ := h
  exact ⟨item, hitem, WalkState.has_grows hseen hgrows⟩

theorem Covered.extends {current : Option String} (h : Covered env current s) (hextends : Extends s s') :
    Covered env current s' := by
  intro directory hdirectory
  obtain ⟨added, hdirectories, hpending⟩ := hextends.directories
  rw [hdirectories] at hdirectory
  rcases List.mem_append.mp hdirectory with hdirectory | hdirectory
  · rcases h directory hdirectory with hwaits | hcurrent | hexpanded
    · exact .inl (hpending ▸ List.mem_append_left added hwaits)
    · exact .inr (.inl hcurrent)
    · exact .inr (.inr fun path hpath => (hexpanded path hpath).grows hextends.grows)
  · exact .inl (hpending ▸ List.mem_append_right s.pending hdirectory)

theorem expandDirectory_spec {directory : String} (hbase : base.Fresh)
    (h : WalkInv env controlFiles closureRoots limit base s) (hmem : directory ∈ s.seenDirectories)
    (hcovered : Covered env (some directory) s) :
    Ensures (expandDirectory env directory) s
      (fun _ s' => WalkInv env controlFiles closureRoots limit base s' ∧ Extends s s' ∧ Covered env none s')
      (WalkFailed base) := by
  unfold expandDirectory
  apply ensures_bind
  refine ensures_call ?_ fun message _ => h.thrown message
  intro item hitem
  apply ensures_bind
  refine ensures_call ?_ fun message _ => h.thrown message
  intro _ _
  apply ensures_bind
  refine ensures_call ?_ fun message _ => h.thrown message
  intro _ _
  -- the item is the directory under another name
  have hname : host.fold item.fullName = host.fold directory := by
    obtain ⟨path, first, hfirst, rfl⟩ := h.directories_found directory hmem
    obtain ⟨found, hfound, hsame⟩ := env.tree.getItem_fullName hfirst
    rw [hitem] at hfound
    rw [Except.ok.inj hfound]
    exact hsame.fullName
  obtain ⟨dir, hdir, hcontainer, hdirname⟩ := h.directories_below directory hmem
  let I : List String → WalkState → Prop := fun done s' =>
    WalkInv env controlFiles closureRoots limit base s' ∧ Extends s s' ∧
      ∀ path ∈ done, Entered env s' path
  have hstart : I [] s := ⟨h, Extends.refl s, by simp⟩
  have hround : ∀ done, ∀ path ∈ (env.tree.entries item.fullName).1, ∀ s', I done s' →
      Ensures (addLeaseClosureEntry env path) s' (fun _ s'' => I (done ++ [path]) s'') (WalkFailed base) := by
    rintro done path hpath s' ⟨hinv, hextends, hdone⟩
    have hbelow : ∀ found, env.tree.getItem path = .ok found →
        ∃ wanted, Below env.tree closureRoots wanted ∧ wanted.Same host found :=
      fun found hfound => hdir.exists_entry hcontainer (hdirname.trans hname.symm) hpath hfound
    refine (addLeaseClosureEntry_spec hbase hinv hbelow).mono ?_ fun _ _ hfailed => hfailed
    rintro _ s'' ⟨hinv', hextends', hentered⟩
    exact ⟨hinv', hextends.trans hextends',
      forall_concat (fun path' hpath' => (hdone path' hpath').grows hextends'.grows) hentered⟩
  apply ensures_bind
  refine (ensures_forM_done hstart hround).mono ?_ fun _ _ hfailed => hfailed
  rintro _ s' ⟨hinv, hextends, hentered⟩
  rw [List.nil_append] at hentered
  cases (env.tree.entries item.fullName).2 with
  | some message => exact ensures_throw (hinv.thrown message)
  | none =>
    refine ensures_pure ⟨hinv, hextends, ?_⟩
    intro other hother
    rcases hcovered.extends hextends other hother with hwaits | hcurrent | hexpanded
    · exact .inl hwaits
    · obtain rfl := Option.some.inj hcurrent
      refine .inr (.inr ?_)
      intro path hpath
      obtain ⟨path', hpath', hfold⟩ := env.tree.exists_entry hname.symm hpath
      exact (hentered path' hpath').congr hfold.symm
    · exact .inr (.inr hexpanded)

/-! ## The whole walk -/

/-- Every directory that is put into the queue is counted. -/
theorem Extends.weight_le (hextends : Extends s s')
    (h : WalkInv env controlFiles closureRoots limit base s)
    (h' : WalkInv env controlFiles closureRoots limit base s') :
    s'.pending.length + (limit - s'.itemCount) ≤ s.pending.length + (limit - s.itemCount) := by
  obtain ⟨⟨directories, hdirectories, hpending⟩, files, hfiles⟩ := hextends
  have hcount := h.itemCount
  have hcount' := h'.itemCount
  have hwithin := h'.within
  rw [hdirectories, hfiles, List.length_append, List.length_append] at hcount'
  rw [hpending, List.length_append]
  omega

theorem drainPending_spec (hbase : base.Fresh) {rounds : ℕ}
    (h : WalkInv env controlFiles closureRoots limit base s) (hcovered : Covered env none s)
    (hrounds : s.pending.length + (limit - s.itemCount) ≤ rounds) :
    Ensures (drainPending env rounds) s
      (fun _ s' => WalkInv env controlFiles closureRoots limit base s' ∧ Grows s s' ∧
        Covered env none s' ∧ s'.pending = [])
      (WalkFailed base) := by
  induction rounds generalizing s with
  | zero =>
    have hempty : s.pending = [] := List.length_eq_zero_iff.mp (by omega)
    unfold drainPending
    apply ensures_bind
    apply ensures_get
    rw [if_pos hempty]
    exact ensures_pure ⟨h, Grows.refl s, hcovered, hempty⟩
  | succ rounds ih =>
    unfold drainPending
    apply ensures_bind
    apply ensures_get
    cases hpending : s.pending with
    | nil => exact ensures_pure ⟨h, Grows.refl s, hcovered, hpending⟩
    | cons directory rest =>
      have hmem : directory ∈ s.seenDirectories := h.pending directory (by simp [hpending])
      have hqueued := h.queued
      rw [hpending, List.length_cons] at hqueued hrounds
      have htaken : WalkInv env controlFiles closureRoots limit base { s with pending := rest } :=
        { h with
          pending := fun other hother => h.pending other (by simp [hpending, hother])
          queued := by
            simp only
            omega }
      have hcovered' : Covered env (some directory) { s with pending := rest } := by
        intro other hother
        rcases hcovered other hother with hwaits | hcurrent | hexpanded
        · rw [hpending] at hwaits
          rcases List.mem_cons.mp hwaits with rfl | hwaits
          · exact .inr (.inl rfl)
          · exact .inl hwaits
        · cases hcurrent
        · exact .inr (.inr hexpanded)
      apply ensures_bind
      apply ensures_modify
      apply ensures_bind
      refine (expandDirectory_spec hbase htaken hmem hcovered').mono ?_ fun _ _ hfailed => hfailed
      rintro _ s' ⟨hinv, hextends, hcovered''⟩
      have hweight := hextends.weight_le htaken hinv
      simp only at hweight
      refine (ih hinv hcovered'' (by omega)).mono ?_ fun _ _ hfailed => hfailed
      rintro _ s'' ⟨hinv', hgrows, hend⟩
      exact ⟨hinv', Grows.trans ⟨hextends.grows.directories, hextends.grows.files⟩ hgrows, hend⟩

/-- The item at a closure root is a directory that has been seen. -/
def Rooted (env : Environment host) (s : WalkState) (path : String) : Prop :=
  ∃ item, env.tree.getItem path = .ok item ∧ item.isContainer = true ∧
    seen host s.seenDirectories item.fullName

theorem addLeaseClosureRoot_spec (hbase : base.Fresh)
    (h : WalkInv env controlFiles closureRoots limit base s) (hcovered : Covered env none s)
    (hpath : path ∈ closureRoots) :
    Ensures (addLeaseClosureRoot env path) s
      (fun _ s' => WalkInv env controlFiles closureRoots limit base s' ∧ Grows s s' ∧
        Covered env none s' ∧ s'.pending = [] ∧ Rooted env s' path)
      (WalkFailed base) := by
  unfold addLeaseClosureRoot
  apply ensures_bind
  have hbelow : ∀ item, env.tree.getItem path = .ok item →
      ∃ wanted, Below env.tree closureRoots wanted ∧ wanted.Same host item :=
    fun item hitem => ⟨item, .root hpath hitem, rfl, rfl, rfl⟩
  refine (addLeaseDirectory_spec h hbelow).mono ?_ fun _ _ hfailed => hfailed
  rintro _ s' ⟨hinv, hextends, item, hitem, hcontainer, hseen⟩
  apply ensures_bind
  apply ensures_get
  have hrounds : s'.pending.length + (limit - s'.itemCount) ≤ s'.maximumItems := by
    have hqueued := hinv.queued
    have hcount := hinv.itemCount
    have hwithin := hinv.within
    rw [hinv.maximumItems]
    omega
  refine (drainPending_spec hbase hinv (hcovered.extends hextends) hrounds).mono ?_
    fun _ _ hfailed => hfailed
  rintro _ s'' ⟨hinv', hgrows, hcovered', hempty⟩
  exact ⟨hinv', hextends.grows.trans hgrows, hcovered', hempty, item, hitem, hcontainer,
    seen_mono hseen hgrows.directories⟩

/-- The control file at a path has been seen. -/
def Controlled (env : Environment host) (s : WalkState) (path : String) : Prop :=
  ∃ item, env.tree.getItem path = .ok item ∧ seen host s.seenFiles item.fullName

/-- What holds when the walk has gone through all its arguments. -/
structure Walked (env : Environment host) (controlFiles closureRoots : List String) (limit : ℕ)
    (base : Streams) (s : WalkState) : Prop where
  inv : WalkInv env controlFiles closureRoots limit base s
  covered : Covered env none s
  pending : s.pending = []
  controlled : ∀ path ∈ controlFiles, Controlled env s path
  rooted : ∀ path ∈ closureRoots, Rooted env s path

theorem Controlled.grows (h : Controlled env s path) (hgrows : Grows s s') : Controlled env s' path := by
  obtain ⟨item, hitem, hseen⟩ := h
  exact ⟨item, hitem, seen_mono hseen hgrows.files⟩

theorem Rooted.grows (h : Rooted env s path) (hgrows : Grows s s') : Rooted env s' path := by
  obtain ⟨item, hitem, hcontainer, hseen⟩ := h
  exact ⟨item, hitem, hcontainer, seen_mono hseen hgrows.directories⟩

theorem newLeaseState_inv {allowedRoots : List String} :
    WalkInv env controlFiles closureRoots limit base (newLeaseState limit allowedRoots base) := by
  constructor <;> simp [newLeaseState]

theorem addLeaseRequestedPaths_spec {allowedRoots : List String} (hbase : base.Fresh) :
    Ensures (addLeaseRequestedPaths env controlFiles closureRoots) (newLeaseState limit allowedRoots base)
      (fun _ s' => Walked env controlFiles closureRoots limit base s') (WalkFailed base) := by
  unfold addLeaseRequestedPaths
  -- the control files
  let I : List String → WalkState → Prop := fun done s =>
    WalkInv env controlFiles closureRoots limit base s ∧ s.pending = [] ∧ Covered env none s ∧
      ∀ path ∈ done, Controlled env s path
  have hstart : I [] (newLeaseState limit allowedRoots base) :=
    ⟨newLeaseState_inv, rfl, by simp [Covered, newLeaseState], by simp⟩
  have hround : ∀ done, ∀ path ∈ controlFiles, ∀ s, I done s →
      Ensures (addLeaseFileStream env path) s (fun _ s' => I (done ++ [path]) s') (WalkFailed base) := by
    rintro done path hpath s ⟨hinv, hempty, hcovered, hdone⟩
    have hrequested : ∀ item, env.tree.getItem path = .ok item →
        ∃ wanted, Requested env.tree controlFiles closureRoots wanted ∧
          host.fold wanted.fullName = host.fold item.fullName :=
      fun item hitem => ⟨item, .control hpath hitem, rfl⟩
    refine (addLeaseFileStream_spec hbase hinv hrequested).mono ?_ fun _ _ hfailed => hfailed
    rintro _ s' ⟨hinv', hextends, hpending, hcontrolled⟩
    refine ⟨hinv', hpending.trans hempty, hcovered.extends hextends, ?_⟩
    exact forall_concat (fun path' hpath' => (hdone path' hpath').grows hextends.grows) hcontrolled
  apply ensures_bind
  refine (ensures_forM_done hstart hround).mono ?_ fun _ _ hfailed => hfailed
  rintro _ s ⟨hinv, hempty, hcovered, hcontrolled⟩
  rw [List.nil_append] at hcontrolled
  -- the closure roots
  let J : List String → WalkState → Prop := fun done s =>
    WalkInv env controlFiles closureRoots limit base s ∧ s.pending = [] ∧ Covered env none s ∧
      (∀ path ∈ controlFiles, Controlled env s path) ∧ ∀ path ∈ done, Rooted env s path
  have hstart' : J [] s := ⟨hinv, hempty, hcovered, hcontrolled, by simp⟩
  have hround' : ∀ done, ∀ path ∈ closureRoots, ∀ s, J done s →
      Ensures (addLeaseClosureRoot env path) s (fun _ s' => J (done ++ [path]) s') (WalkFailed base) := by
    rintro done path hpath s ⟨hinv, -, hcovered, hcontrolled, hdone⟩
    refine (addLeaseClosureRoot_spec hbase hinv hcovered hpath).mono ?_ fun _ _ hfailed => hfailed
    rintro _ s' ⟨hinv', hgrows, hcovered', hempty', hrooted⟩
    refine ⟨hinv', hempty', hcovered', fun path' hpath' => (hcontrolled path' hpath').grows hgrows, ?_⟩
    exact forall_concat (fun path' hpath' => (hdone path' hpath').grows hgrows) hrooted
  refine (ensures_forM_done hstart' hround').mono ?_ fun _ _ hfailed => hfailed
  rintro _ s' ⟨hinv', hempty', hcovered', hcontrolled', hrooted⟩
  exact ⟨hinv', hcovered', hempty', hcontrolled', hrooted⟩

/-! ## The files that are open -/

/-- Every item below the closure roots has been seen. -/
theorem Walked.has_below (h : Walked env controlFiles closureRoots limit base s)
    (hbelow : Below env.tree closureRoots item) : s.has host item := by
  induction hbelow with
  | @root path item hpath hitem =>
    obtain ⟨found, hfound, hcontainer, hseen⟩ := h.rooted path hpath
    rw [hitem] at hfound
    obtain rfl := Except.ok.inj hfound
    rwa [WalkState.has, if_pos hcontainer]
  | @entry dir item path _ hcontainer hpath hitem ih =>
    rw [WalkState.has, if_pos hcontainer] at ih
    obtain ⟨directory, hdirectory, hname⟩ := List.mem_map.mp ih
    obtain ⟨path', hpath', hfold⟩ := env.tree.exists_entry hname.symm hpath
    rcases h.covered directory hdirectory with hwaits | hcurrent | hexpanded
    · rw [h.pending] at hwaits
      cases hwaits
    · cases hcurrent
    · obtain ⟨found, hfound, hseen⟩ := (hexpanded path' hpath').congr hfold.symm
      rw [hitem] at hfound
      rwa [Except.ok.inj hfound]

/-- The names of the seen directories are those of the directories below the closure roots. -/
theorem Walked.mem_directories_iff (h : Walked env controlFiles closureRoots limit base s) {name : List Char} :
    name ∈ s.seenDirectories.map host.fold ↔
      ∃ item, Below env.tree closureRoots item ∧ item.isContainer = true ∧ host.fold item.fullName = name := by
  constructor
  · intro hname
    obtain ⟨directory, hdirectory, rfl⟩ := List.mem_map.mp hname
    exact h.inv.directories_below directory hdirectory
  · rintro ⟨item, hbelow, hcontainer, rfl⟩
    have hseen := h.has_below hbelow
    rwa [WalkState.has, if_pos hcontainer] at hseen

/-- The names of the open files are those of the requested files. -/
theorem Walked.mem_names_iff (h : Walked env controlFiles closureRoots limit base s) {name : List Char} :
    name ∈ s.streams.map (fun stream => host.fold stream.path) ↔
      ∃ item, Requested env.tree controlFiles closureRoots item ∧ host.fold item.fullName = name := by
  have hnames : s.streams.map (fun stream => host.fold stream.path) = s.seenFiles.map host.fold := by
    rw [← h.inv.paths, List.map_map]
    rfl
  rw [hnames]
  constructor
  · intro hname
    obtain ⟨file, hfile, rfl⟩ := List.mem_map.mp hname
    exact h.inv.files_requested file hfile
  · rintro ⟨item, hrequested, rfl⟩
    cases hrequested with
    | control hpath hitem =>
      obtain ⟨found, hfound, hseen⟩ := h.controlled _ hpath
      rw [hitem] at hfound
      rwa [Except.ok.inj hfound]
    | below hbelow hfile =>
      have hseen := h.has_below hbelow
      rwa [WalkState.has, if_neg (by simp [hfile])] at hseen

end

end BaselineOps.ExecutionLease
