import Mathlib
import BaselineOps.ExecutionLease.Walk

/-!
# Opening and closing execution leases

The tables of `ProfileExecutionLease.psm1` and its three exported functions (lines 256–464). A lease is
known by the number of its handle, and the record that belongs to it has the same number.

* `openProfileExecutionLease_spec`: an open either adds one lease or leaves all tables and all open
  streams as they were.
* `closeProfileExecutionLease_spec`: the four ways in which a close can end.
-/

namespace BaselineOps.ExecutionLease

open BaselineOps.Domain BaselineOps.Lib

variable {host : Host}

/-! ## Tables -/

/-- The number of a lease handle. -/
abbrev Handle := ℕ

/-- `Kind`, with the members that only records of this kind have. -/
inductive Kind where
  | profileOwner (itemCount : ℕ)
  | directOwner (itemCount : ℕ)
  | borrower (owner : Handle)
deriving DecidableEq

/-- A record of a lease. -/
structure Record where
  kind : Kind
  runnerRoot : String
  targetRoot : String
  ownerScriptPath : String
  streams : List Stream
  disposed : Bool

/-- The variables of the module (lines 15–17), with the records behind the handles and the streams of
    the process. -/
structure Leases where
  nextHandle : Handle
  records : Handle → Option Record
  leaseMembership : List Handle
  closedMembership : List Handle
  activeProfileOwners : List Handle
  process : Streams

/-- A module that has just been loaded. -/
def Leases.initial : Leases :=
  { nextHandle := 0
    records := fun _ => none
    leaseMembership := []
    closedMembership := []
    activeProfileOwners := []
    process := ⟨0, []⟩ }

/-- A program over the tables. -/
abbrev Session := EStateM Failure Leases

/-- `$script:LeaseMembership.TryGetValue`. -/
def Leases.tryGetValue (s : Leases) (lease : Handle) : Option Record :=
  if lease ∈ s.leaseMembership then s.records lease else none

/-- `$record.Kind -eq 'Borrower' -and $record.Owner.Disposed`. -/
def Leases.ownerDisposed (s : Leases) (record : Record) : Bool :=
  match record.kind with
  | .borrower owner => (s.records owner).any Record.disposed
  | _ => false

/-- `Get-LeaseRecord` (lines 271–281). -/
def getLeaseRecord (lease : Handle) : Session Record := do
  let s ← get
  match s.tryGetValue lease with
  | none => throw (.thrown "Execution lease identity is not registered or is no longer live.")
  | some record =>
    if record.disposed || s.ownerDisposed record then
      throw (.thrown "Execution lease is disposed or its owner is no longer live.")
    else return record

/-- What `Get-ProfileExecutionLeaseInfo` returns. -/
structure Info where
  kind : Kind
  runnerRoot : String
  targetRoot : String
  streamCount : ℕ
  itemCount : ℕ
deriving DecidableEq

/-- `ItemCount`, which the record of a borrower does not have. -/
def Record.itemCount (record : Record) : ℕ :=
  match record.kind with
  | .profileOwner itemCount | .directOwner itemCount => itemCount
  | .borrower _ => 0

/-- `Get-ProfileExecutionLeaseInfo` (lines 451–464). -/
def getProfileExecutionLeaseInfo (lease : Handle) : Session Info := do
  let record ← getLeaseRecord lease
  return {
    kind := record.kind
    runnerRoot := record.runnerRoot
    targetRoot := record.targetRoot
    streamCount := record.streams.length
    itemCount := record.itemCount }

/-! ## Opening -/

variable (env : Environment host)

/-- What `Find-ProfileOwnerRecord` (lines 283–296) compares. -/
def ownerMatches (s : Leases) (runnerRoot targetRoot parentPath : String) (owner : Handle) : Bool :=
  match s.records owner with
  | none => false
  | some record =>
    !record.disposed && testLeaseRootEquality host record.runnerRoot runnerRoot &&
      testLeaseRootEquality host record.targetRoot targetRoot &&
      testLeaseRootEquality host record.ownerScriptPath parentPath

/-- `Find-ProfileOwnerRecord` (lines 283–296), with the frame that called the caller. -/
def findProfileOwnerRecord (host : Host) (s : Leases) (runnerRoot targetRoot : String) :
    Option String → Option Handle
  | none => none
  | some parent =>
    s.activeProfileOwners.find? (@ownerMatches host s runnerRoot targetRoot (host.getFullPath parent))

/-- A record and its handle are made. -/
def Leases.allocate (s : Leases) (record : Record) : Leases :=
  { s with
    nextHandle := s.nextHandle + 1
    records := Function.update s.records s.nextHandle (some record) }

/-- `New-LeaseHandle` (lines 298–308). -/
def newLeaseHandle (record : Record) : Session Handle := do
  let s ← get
  set (s.allocate record)
  call env.addMembership
  modify fun s' => { s' with leaseMembership := s'.leaseMembership ++ [s.nextHandle] }
  return s.nextHandle

/-- The script that calls from a profile run (lines 313–314). -/
def directParent (host : Host) (caller : String) (parent : Option String) : Bool :=
  host.equalText caller "00-Run-Local.ps1" &&
    parent.any fun parent => host.equalText (host.splitLeaf parent) "00-Run-Profile.ps1"

/-- `Open-LeaseBorrower` (lines 310–335) for a caller in `frame` that was called from `parent`. -/
def openLeaseBorrower (caller frame : String) (parent : Option String) (runnerRoot targetRoot : String) :
    Session (Option Handle) := do
  if directParent host caller parent = false then return none
  let s ← get
  match findProfileOwnerRecord host s runnerRoot targetRoot parent with
  | none =>
    throw (.thrown
      "RunLocal profile lease reuse failed because the owner is disposed or its canonical roots do not match.")
  | some owner =>
    let handle ← newLeaseHandle env
      { kind := .borrower owner
        runnerRoot := runnerRoot
        targetRoot := targetRoot
        ownerScriptPath := host.getFullPath frame
        streams := []
        disposed := false }
    return some handle

/-- `$script:ActiveProfileOwners.Add` in `Register-LeaseOwner`, with the `catch` (lines 356–362). An
    error of `New-LeaseHandle` leaves nothing to take back. -/
def addActiveProfileOwner (handle : Handle) : Session Unit :=
  match env.addActiveOwner with
  | .ok _ => modify fun s => { s with activeProfileOwners := s.activeProfileOwners ++ [handle] }
  | .error message => do
    modify fun s =>
      { s with
        leaseMembership := s.leaseMembership.filter fun other => other ≠ handle
        activeProfileOwners := s.activeProfileOwners.filter fun other => other ≠ handle }
    throw (.thrown message)

/-- `Register-LeaseOwner` (lines 348–366). -/
def registerLeaseOwner (record : Record) : Session Handle := do
  let handle ← newLeaseHandle env record
  match record.kind with
  | .profileOwner _ => addActiveProfileOwner env handle
  | _ => pure ()
  return handle

/-- `Dispose` on every stream of a list. -/
def Streams.disposeAll (process : Streams) (streams : List Stream) : Streams :=
  streams.foldl Streams.dispose process

/-- The arguments of `Open-ProfileExecutionLease`. -/
structure OpenArguments where
  runnerRoot : String
  targetRoot : String
  controlFiles : List String
  closureRoots : List String
  maximumItems : ℤ

/-- Lines 381–383: the part of `New-LeaseOwner` that works on the state of the walk. -/
def walkOwner (arguments : OpenArguments) (runnerRoot targetRoot : String) : Walk Unit := do
  call (assertLeaseTrustedPath env .runnerRoot runnerRoot)
  call (assertLeaseTrustedPath env .targetRoot targetRoot)
  addLeaseRequestedPaths env arguments.controlFiles arguments.closureRoots

/-- The record of an owner (lines 384–393). -/
def ownerRecord (host : Host) (caller frame runnerRoot targetRoot : String) (state : WalkState) : Record :=
  { kind := if host.equalText caller "00-Run-Profile.ps1" then .profileOwner state.itemCount
      else .directOwner state.itemCount
    runnerRoot := runnerRoot
    targetRoot := targetRoot
    ownerScriptPath := host.getFullPath frame
    streams := state.streams
    disposed := false }

/-- `New-LeaseOwner` (lines 368–405). -/
def newLeaseOwner (arguments : OpenArguments) (caller frame runnerRoot targetRoot : String) :
    Session Handle := do
  let s ← get
  let start := newLeaseState arguments.maximumItems.toNat [runnerRoot, targetRoot] s.process
  match walkOwner env arguments runnerRoot targetRoot start with
  | .error failure state =>
    set { s with process := state.process.disposeAll state.streams }
    throw failure
  | .ok _ state =>
    set { s with process := state.process }
    match ← attempt (registerLeaseOwner env (ownerRecord host caller frame runnerRoot targetRoot state)) with
    | .ok handle => return handle
    | .error failure =>
      modify fun s => { s with process := s.process.disposeAll state.streams }
      throw failure

/-- The binding of a mandatory text. -/
def bindText (parameter value : String) : Except String Unit :=
  failIf (value = "") ("Cannot bind argument to parameter '" ++ parameter ++ "' because it is an empty string.")

/-- The binding of a mandatory list of texts. -/
def bindTexts (parameter : String) (values : List String) : Except String Unit := do
  failIf (values = []) ("Cannot bind argument to parameter '" ++ parameter ++ "' because it is an empty array.")
  values.forM (bindText parameter)

/-- The binding of the parameters of `Open-ProfileExecutionLease` (lines 409–415). -/
def bindArguments (arguments : OpenArguments) : Except String Unit := do
  bindText "RunnerRoot" arguments.runnerRoot
  bindText "TargetRoot" arguments.targetRoot
  bindTexts "ControlFiles" arguments.controlFiles
  bindTexts "ClosureRoots" arguments.closureRoots
  failIf (arguments.maximumItems < 1 ∨ 8192 < arguments.maximumItems)
    ("Cannot validate argument on parameter 'MaximumItems'. The " ++ toString arguments.maximumItems ++
      " argument is out of the allowed range 1 to 8192.")

/-- `Open-ProfileExecutionLease` (lines 407–425). The parameter `Frames` of `Assert-LeaseCaller` is
    mandatory, so that its binding refuses a caller without frames. -/
def openProfileExecutionLease (arguments : OpenArguments) : Session Handle := do
  call (bindArguments arguments)
  match getLeaseCallerFrames env with
  | [] => throw (.thrown "Cannot bind argument to parameter 'Frames' because it is an empty array.")
  | frame :: callers =>
    let caller ← call (@assertLeaseCaller host frame)
    let canonicalRunner ← call (getCanonicalLeaseRoot env arguments.runnerRoot)
    let canonicalTarget ← call (getCanonicalLeaseRoot env arguments.targetRoot)
    call (@assertLeaseCallerPath host caller frame canonicalRunner)
    match ← openLeaseBorrower env caller frame callers.head? canonicalRunner canonicalTarget with
    | some borrower => return borrower
    | none => newLeaseOwner env arguments caller frame canonicalRunner canonicalTarget

/-! ## Closing -/

/-- The tables behind the checks of a close (lines 443–446). -/
def Leases.retire (s : Leases) (lease : Handle) (record : Record) : Leases :=
  { s with
    leaseMembership := s.leaseMembership.filter fun other => other ≠ lease
    closedMembership := s.closedMembership ++ [lease]
    records := Function.update s.records lease (some { record with disposed := true })
    activeProfileOwners := match record.kind with
      | .profileOwner _ => s.activeProfileOwners.filter fun other => other ≠ lease
      | _ => s.activeProfileOwners }

/-- The record of a closed lease gives its streams up. -/
def Leases.release (s : Leases) (lease : Handle) (record : Record) : Leases :=
  { s with
    process := s.process.disposeAll record.streams
    records := Function.update s.records lease (some { record with streams := [], disposed := true }) }

/-- `Close-LeaseStreams` (lines 256–269) on the record of `lease`. -/
def closeLeaseStreams (lease : Handle) (record : Record) : Session Unit := do
  modify fun s => s.release lease record
  match (record.streams.filterMap fun stream => env.disposeFault stream.id).head? with
  | none => return ()
  | some message => throw (.disposal message)

/-- `Close-ProfileExecutionLease` (lines 427–449). -/
def closeProfileExecutionLease (lease : Handle) : Session Unit := do
  let s ← get
  if lease ∈ s.closedMembership then return ()
  match s.tryGetValue lease with
  | none => throw (.thrown "Execution lease identity is not registered.")
  | some record =>
    match callerPath env with
    | none => throw (.thrown "Execution lease disposal caller identity is unavailable.")
    | some path =>
      call (failIf (testLeaseRootEquality host path record.ownerScriptPath = false)
        "Only the registered lease owner or borrower invocation may dispose this lease identity.")
      set (s.retire lease record)
      match record.kind with
      | .borrower _ => return ()
      | _ => closeLeaseStreams env lease record

/-! ## What an open can do -/

/-- The numbers in use are below the next ones. -/
structure Leases.Fresh (s : Leases) : Prop where
  process : s.process.Fresh
  membership : ∀ lease ∈ s.leaseMembership, lease < s.nextHandle
  active : ∀ lease ∈ s.activeProfileOwners, lease < s.nextHandle

/-- The tables behind an open that fails: no lease is added, and every stream that is open was open
    before. -/
structure Unregistered (s s' : Leases) : Prop where
  nextHandle : s.nextHandle ≤ s'.nextHandle
  records : ∀ lease < s.nextHandle, s'.records lease = s.records lease
  leaseMembership : s'.leaseMembership = s.leaseMembership
  closedMembership : s'.closedMembership = s.closedMembership
  activeProfileOwners : s'.activeProfileOwners = s.activeProfileOwners
  live : s'.process.live = s.process.live
  next : s.process.next ≤ s'.process.next

/-- The tables behind the registration of a record. -/
def Leases.register (s : Leases) (record : Record) : Leases :=
  { s.allocate record with leaseMembership := s.leaseMembership ++ [s.nextHandle] }

/-- The tables behind the registration of an owner. -/
def Leases.registerOwner (s : Leases) (record : Record) : Leases :=
  { s.register record with
    activeProfileOwners := match record.kind with
      | .profileOwner _ => s.activeProfileOwners ++ [s.nextHandle]
      | _ => s.activeProfileOwners }

variable {env} {s s' : Leases} {record : Record}

theorem unregistered_refl (s : Leases) : Unregistered s s := ⟨le_rfl, fun _ _ => rfl, rfl, rfl, rfl, rfl, le_rfl⟩

theorem unregistered_allocate (s : Leases) (record : Record) : Unregistered s (s.allocate record) where
  nextHandle := Nat.le_succ _
  records _ hlt := Function.update_of_ne hlt.ne _ _
  leaseMembership := rfl
  closedMembership := rfl
  activeProfileOwners := rfl
  live := rfl
  next := le_rfl

/-- What a call that fails has thrown: the walk was not cut off. -/
def OpenFailed (s : Leases) (failure : Failure) (s' : Leases) : Prop :=
  failure ≠ .unfinished ∧ Unregistered s s'

theorem openFailed_refl (message : String) : OpenFailed s (.thrown message) s :=
  ⟨Failure.noConfusion, unregistered_refl s⟩

theorem newLeaseHandle_spec :
    Ensures (newLeaseHandle env record) s
      (fun handle s' => handle = s.nextHandle ∧ s' = s.register record) (OpenFailed s) := by
  unfold newLeaseHandle
  apply ensures_bind
  apply ensures_get
  apply ensures_bind
  apply ensures_modify
  apply ensures_bind
  refine ensures_call ?_ fun message _ => ⟨Failure.noConfusion, unregistered_allocate s record⟩
  intro _ _
  apply ensures_bind
  apply ensures_modify
  exact ensures_pure ⟨rfl, rfl⟩

theorem filter_ne_self {handles : List Handle} {handle : Handle} (h : ∀ other ∈ handles, other < handle) :
    (handles.filter fun other => other ≠ handle) = handles := by
  rw [List.filter_eq_self]
  intro other hother
  simpa using (h other hother).ne

/-- A registration that fails is taken back. -/
theorem registerLeaseOwner_spec (h : s.Fresh) :
    Ensures (registerLeaseOwner env record) s
      (fun handle s' => handle = s.nextHandle ∧ s' = s.registerOwner record) (OpenFailed s) := by
  unfold registerLeaseOwner
  apply ensures_bind
  refine newLeaseHandle_spec.mono ?_ fun _ _ hfailed => hfailed
  rintro _ _ ⟨rfl, rfl⟩
  cases hkind : record.kind with
  | profileOwner itemCount =>
    simp only
    apply ensures_bind
    unfold addActiveProfileOwner
    cases env.addActiveOwner with
    | ok _ =>
      apply ensures_modify
      refine ensures_pure ⟨rfl, ?_⟩
      simp only [Leases.registerOwner, hkind]
      rfl
    | error message =>
      apply ensures_bind
      apply ensures_modify
      refine ensures_throw ⟨Failure.noConfusion, ?_⟩
      have hunregistered := unregistered_allocate s record
      refine { hunregistered with leaseMembership := ?_, activeProfileOwners := ?_ }
      · change (s.leaseMembership ++ [s.nextHandle]).filter _ = s.leaseMembership
        rw [List.filter_append, filter_ne_self h.membership]
        simp
      · exact filter_ne_self h.active
  | directOwner itemCount =>
    simp only
    refine ensures_pure ⟨rfl, ?_⟩
    simp only [Leases.registerOwner, hkind]
    rfl
  | borrower owner =>
    simp only
    refine ensures_pure ⟨rfl, ?_⟩
    simp only [Leases.registerOwner, hkind]
    rfl

/-! ## Streams that are released -/

theorem mem_disposeAll_live {process : Streams} {streams : List Stream} {stream : Stream} :
    stream ∈ (process.disposeAll streams).live ↔
      stream ∈ process.live ∧ ∀ other ∈ streams, stream.id ≠ other.id := by
  unfold Streams.disposeAll
  induction streams generalizing process with
  | nil => simp
  | cons other streams ih =>
    rw [List.foldl_cons, ih, List.forall_mem_cons]
    simp only [Streams.dispose, List.mem_filter, decide_eq_true_eq]
    tauto

theorem disposeAll_next {process : Streams} {streams : List Stream} :
    (process.disposeAll streams).next = process.next := by
  unfold Streams.disposeAll
  induction streams generalizing process with
  | nil => rfl
  | cons other streams ih =>
    rw [List.foldl_cons, ih]
    rfl

theorem disposeAll_live {process : Streams} {streams : List Stream} :
    (process.disposeAll streams).live =
      process.live.filter fun stream => ∀ other ∈ streams, stream.id ≠ other.id := by
  unfold Streams.disposeAll
  induction streams generalizing process with
  | nil => simp
  | cons other streams ih =>
    rw [List.foldl_cons, ih]
    simp only [Streams.dispose, List.filter_filter, List.forall_mem_cons]
    congr 1
    funext stream
    simp [Bool.and_comm]

/-- The streams of a walk are the ones that have been opened since. -/
theorem disposeAll_walk {base process : Streams} {streams : List Stream} (hbase : base.Fresh)
    (hids : streams.map Stream.id = List.range' base.next streams.length)
    (hlive : process.live = base.live ++ streams) : (process.disposeAll streams).live = base.live := by
  rw [disposeAll_live, hlive, List.filter_append]
  have hkept : (base.live.filter fun stream => ∀ other ∈ streams, stream.id ≠ other.id) = base.live := by
    rw [List.filter_eq_self]
    intro stream hstream
    simp only [decide_eq_true_eq]
    intro other hother
    have hid : other.id ∈ streams.map Stream.id := List.mem_map_of_mem hother
    rw [hids, List.mem_range'_1] at hid
    have hlt := hbase stream hstream
    omega
  have hgone : (streams.filter fun stream => ∀ other ∈ streams, stream.id ≠ other.id) = [] := by
    rw [List.filter_eq_nil_iff]
    intro stream hstream hall
    exact of_decide_eq_true hall stream hstream rfl
  rw [hkept, hgone, List.append_nil]

/-! ## Owners -/

/-- What an open adds, with the handle that it returns. -/
inductive Opened (env : Environment host) (arguments : OpenArguments) (s : Leases) : Handle → Leases → Prop where
  | borrower {owner : Handle} {found record : Record} {parent : String} (hactive : owner ∈ s.activeProfileOwners)
      (hfound : s.records owner = some found) (hlive : found.disposed = false)
      (hparent : host.fold found.ownerScriptPath = host.fold (host.getFullPath parent))
      (hkind : record.kind = .borrower owner)
      (hrunner : host.fold found.runnerRoot = host.fold record.runnerRoot)
      (htarget : host.fold found.targetRoot = host.fold record.targetRoot)
      (hpath : callerPath env = some record.ownerScriptPath)
      (hstreams : record.streams = []) (hdisposed : record.disposed = false) :
      Opened env arguments s s.nextHandle (s.register record)
  | owner {state : WalkState} {record : Record}
      (hlimit : 1 ≤ arguments.maximumItems ∧ arguments.maximumItems ≤ 8192)
      (hwalked : Walked env arguments.controlFiles arguments.closureRoots arguments.maximumItems.toNat
        s.process state)
      (hkind : record.kind = .profileOwner state.itemCount ∨ record.kind = .directOwner state.itemCount)
      (hpath : callerPath env = some record.ownerScriptPath)
      (hstreams : record.streams = state.streams) (hdisposed : record.disposed = false) :
      Opened env arguments s s.nextHandle ({ s with process := state.process }.registerOwner record)

theorem walkOwner_spec {arguments : OpenArguments} {runnerRoot targetRoot : String} {base : Streams}
    {allowedRoots : List String} {limit : ℕ} (hbase : base.Fresh) :
    Ensures (walkOwner env arguments runnerRoot targetRoot) (newLeaseState limit allowedRoots base)
      (fun _ s' => Walked env arguments.controlFiles arguments.closureRoots limit base s')
      (WalkFailed base) := by
  have hstart : WalkInv env arguments.controlFiles arguments.closureRoots limit base
    (newLeaseState limit allowedRoots base) := newLeaseState_inv
  unfold walkOwner
  apply ensures_bind
  refine ensures_call ?_ fun message _ => hstart.thrown message
  intro _ _
  apply ensures_bind
  refine ensures_call ?_ fun message _ => hstart.thrown message
  intro _ _
  exact addLeaseRequestedPaths_spec hbase

theorem newLeaseOwner_spec (h : s.Fresh) {arguments : OpenArguments} {caller frame runnerRoot targetRoot : String}
    (hlimit : 1 ≤ arguments.maximumItems ∧ arguments.maximumItems ≤ 8192)
    (hpath : callerPath env = some (host.getFullPath frame)) :
    Ensures (newLeaseOwner env arguments caller frame runnerRoot targetRoot) s
      (Opened env arguments s) (OpenFailed s) := by
  unfold newLeaseOwner
  apply ensures_bind
  apply ensures_get
  simp only
  have hwalk := @walkOwner_spec host env arguments runnerRoot targetRoot s.process
    [runnerRoot, targetRoot] arguments.maximumItems.toNat h.process
  cases hrun : walkOwner env arguments runnerRoot targetRoot
      (newLeaseState arguments.maximumItems.toNat [runnerRoot, targetRoot] s.process) with
  | error failure state =>
    have hfailed := hwalk.error hrun
    simp only
    apply ensures_bind
    apply ensures_modify
    refine ensures_throw ⟨hfailed.failure, ?_⟩
    refine { unregistered_refl s with live := ?_, next := ?_ }
    · exact disposeAll_walk h.process hfailed.ids hfailed.live
    · have hnext := hfailed.next
      simp only [disposeAll_next]
      omega
  | ok _ state =>
    have hwalked := hwalk.ok hrun
    have hnext : s.process.next ≤ state.process.next := by
      rw [hwalked.inv.next]
      omega
    have hfresh : { s with process := state.process }.Fresh :=
      ⟨hwalked.inv.fresh h.process, h.membership, h.active⟩
    simp only
    apply ensures_bind
    apply ensures_modify
    apply ensures_bind
    apply ensures_attempt
    refine (registerLeaseOwner_spec hfresh).mono ?_ ?_
    · rintro _ _ ⟨rfl, rfl⟩
      refine ensures_pure (.owner hlimit hwalked ?_ hpath rfl rfl)
      unfold ownerRecord
      split_ifs
      · exact .inl rfl
      · exact .inr rfl
    · rintro failure s' ⟨hfailure, hunregistered⟩
      apply ensures_bind
      apply ensures_modify
      refine ensures_throw ⟨hfailure, { hunregistered with live := ?_, next := ?_ }⟩
      · have hlive : s'.process.live = s.process.live ++ state.streams := by
          rw [hunregistered.live]
          exact hwalked.inv.live
        exact disposeAll_walk h.process hwalked.inv.ids hlive
      · have hkept : state.process.next ≤ s'.process.next := hunregistered.next
        simp only [disposeAll_next]
        omega

theorem testLeaseRootEquality_iff {left right : String} :
    testLeaseRootEquality host left right = true ↔ host.fold left = host.fold right :=
  decide_eq_true_iff

theorem openLeaseBorrower_spec (arguments : OpenArguments) {caller frame runnerRoot targetRoot : String}
    {parent : Option String} (hpath : callerPath env = some (host.getFullPath frame)) :
    Ensures (openLeaseBorrower env caller frame parent runnerRoot targetRoot) s
      (fun result s' => (result = none ∧ s' = s) ∨
        ∃ handle, result = some handle ∧ Opened env arguments s handle s')
      (OpenFailed s) := by
  unfold openLeaseBorrower
  split_ifs with hdirect
  · exact ensures_pure (.inl ⟨rfl, rfl⟩)
  · apply ensures_bind
    apply ensures_get
    cases parent with
    | none => exact ensures_throw (openFailed_refl _)
    | some parent =>
      cases hfind : findProfileOwnerRecord host s runnerRoot targetRoot (some parent) with
      | none => exact ensures_throw (openFailed_refl _)
      | some owner =>
        simp only [findProfileOwnerRecord] at hfind
        have hactive := List.mem_of_find?_eq_some hfind
        have hmatches := List.find?_some hfind
        unfold ownerMatches at hmatches
        cases hfound : s.records owner with
        | none => simp [hfound] at hmatches
        | some found =>
          simp only [hfound, Bool.and_eq_true, Bool.not_eq_true', testLeaseRootEquality_iff] at hmatches
          obtain ⟨⟨⟨hlive, hrunner⟩, htarget⟩, hparent⟩ := hmatches
          simp only
          apply ensures_bind
          refine newLeaseHandle_spec.mono ?_ fun _ _ hfailed => hfailed
          rintro _ _ ⟨rfl, rfl⟩
          exact ensures_pure (.inr ⟨_, rfl,
            .borrower hactive hfound hlive hparent rfl hrunner htarget hpath rfl rfl⟩)

theorem bindArguments_ok {arguments : OpenArguments} {u : Unit} (h : bindArguments arguments = .ok u) :
    1 ≤ arguments.maximumItems ∧ arguments.maximumItems ≤ 8192 := by
  unfold bindArguments at h
  simp only [except_bind_ok_iff, failIf_ok_iff] at h
  obtain ⟨-, -, -, -, -, -, -, -, hrange⟩ := h
  omega

/-- An open adds a lease, or leaves the tables and the open streams as they were. -/
theorem openProfileExecutionLease_spec (h : s.Fresh) {arguments : OpenArguments} :
    Ensures (openProfileExecutionLease env arguments) s (Opened env arguments s) (OpenFailed s) := by
  unfold openProfileExecutionLease
  apply ensures_bind
  refine ensures_call ?_ fun message _ => openFailed_refl message
  intro _ hbind
  have hlimit := bindArguments_ok hbind
  cases hframes : getLeaseCallerFrames env with
  | nil => exact ensures_throw (openFailed_refl _)
  | cons frame callers =>
    have hpath : callerPath env = some (host.getFullPath frame) := by
      rw [callerPath, hframes]
      rfl
    simp only
    apply ensures_bind
    refine ensures_call ?_ fun message _ => openFailed_refl message
    intro caller _
    apply ensures_bind
    refine ensures_call ?_ fun message _ => openFailed_refl message
    intro canonicalRunner _
    apply ensures_bind
    refine ensures_call ?_ fun message _ => openFailed_refl message
    intro canonicalTarget _
    apply ensures_bind
    refine ensures_call ?_ fun message _ => openFailed_refl message
    intro _ _
    apply ensures_bind
    refine (openLeaseBorrower_spec arguments hpath).mono ?_ fun _ _ hfailed => hfailed
    rintro result s' (⟨rfl, rfl⟩ | ⟨handle, rfl, hopened⟩)
    · exact newLeaseOwner_spec h hlimit hpath
    · exact ensures_pure hopened

/-! ## What a close can do -/

/-- The tables behind a close that was allowed. -/
def Leases.afterClose (s : Leases) (lease : Handle) (record : Record) : Leases :=
  match record.kind with
  | .borrower _ => s.retire lease record
  | _ => (s.retire lease record).release lease record

/-- The caller of a close is the script that opened the lease. -/
def ClosesFrom (env : Environment host) (record : Record) : Prop :=
  ∃ path, callerPath env = some path ∧ host.fold path = host.fold record.ownerScriptPath

/-- How a close ends: the error that it throws, and the tables. -/
inductive CloseResult (env : Environment host) (lease : Handle) (s : Leases) : Option Failure → Leases → Prop where
  | again (hclosed : lease ∈ s.closedMembership) : CloseResult env lease s none s
  | refused {message : String} (hopen : lease ∉ s.closedMembership)
      (hrefused : ∀ record, s.tryGetValue lease = some record → ¬ ClosesFrom env record) :
      CloseResult env lease s (some (.thrown message)) s
  | closed {record : Record} {failure : Option Failure} (hopen : lease ∉ s.closedMembership)
      (hrecord : s.tryGetValue lease = some record) (hcaller : ClosesFrom env record)
      (hfailure : ∀ f, failure = some f → ∃ message, f = .disposal message) :
      CloseResult env lease s failure (s.afterClose lease record)

theorem closeLeaseStreams_spec {lease : Handle} :
    Ensures (closeLeaseStreams env lease record) s (fun _ s' => s' = s.release lease record)
      (fun failure s' => (∃ message, failure = .disposal message) ∧ s' = s.release lease record) := by
  unfold closeLeaseStreams
  apply ensures_bind
  apply ensures_modify
  cases (record.streams.filterMap fun stream => env.disposeFault stream.id).head? with
  | none => exact ensures_pure rfl
  | some message => exact ensures_throw ⟨⟨message, rfl⟩, rfl⟩

theorem closeProfileExecutionLease_spec {lease : Handle} :
    Ensures (closeProfileExecutionLease env lease) s
      (fun _ s' => CloseResult env lease s none s')
      (fun failure s' => CloseResult env lease s (some failure) s') := by
  unfold closeProfileExecutionLease
  apply ensures_bind
  apply ensures_get
  split_ifs with hclosed
  · exact ensures_pure (.again hclosed)
  · cases hrecord : s.tryGetValue lease with
    | none =>
      refine ensures_throw (.refused hclosed ?_)
      intro record hsome
      rw [hrecord] at hsome
      cases hsome
    | some record =>
      have hrefused : ¬ ClosesFrom env record →
          ∀ other, s.tryGetValue lease = some other → ¬ ClosesFrom env other := by
        intro hnot other hother
        rw [hrecord] at hother
        rwa [← Option.some.inj hother]
      simp only
      cases hpath : callerPath env with
      | none =>
        refine ensures_throw (.refused hclosed (hrefused ?_))
        rintro ⟨path, hsome, -⟩
        rw [hpath] at hsome
        cases hsome
      | some path =>
        simp only
        apply ensures_bind
        refine ensures_call ?_ ?_
        · intro _ hsame
          rw [failIf_ok_iff, Bool.not_eq_false, testLeaseRootEquality_iff] at hsame
          have hcaller : ClosesFrom env record := ⟨path, hpath, hsame⟩
          have hdone : ∀ failure : Option Failure, (∀ f, failure = some f → ∃ message, f = .disposal message) →
              CloseResult env lease s failure (s.afterClose lease record) :=
            fun failure hfailure => .closed hclosed hrecord hcaller hfailure
          have hstreams : s.afterClose lease record = (s.retire lease record).release lease record →
              Ensures (closeLeaseStreams env lease record) (s.retire lease record)
                (fun _ s' => CloseResult env lease s none s')
                (fun failure s' => CloseResult env lease s (some failure) s') := by
            intro hafter
            refine closeLeaseStreams_spec.mono ?_ ?_
            · rintro _ _ rfl
              rw [← hafter]
              exact hdone none (by simp)
            · rintro _ _ ⟨⟨message, rfl⟩, rfl⟩
              rw [← hafter]
              exact hdone _ (by simp)
          apply ensures_bind
          apply ensures_modify
          cases hkind : record.kind with
          | borrower owner =>
            refine ensures_pure ?_
            have hafter : s.retire lease record = s.afterClose lease record := by
              rw [Leases.afterClose, hkind]
            rw [hafter]
            exact hdone none (by simp)
          | profileOwner itemCount => exact hstreams (by rw [Leases.afterClose, hkind])
          | directOwner itemCount => exact hstreams (by rw [Leases.afterClose, hkind])
        · intro message hfails
          rw [failIf_error_iff] at hfails
          refine .refused hclosed (hrefused ?_)
          rintro ⟨path', hsome, hsame⟩
          rw [hpath] at hsome
          obtain rfl := Option.some.inj hsome
          rw [← testLeaseRootEquality_iff, hfails.1] at hsame
          cases hsame

/-! ## What the information about a lease says -/

/-- The record is usable. -/
def Leases.Usable (s : Leases) (record : Record) : Prop := record.disposed = false ∧ s.ownerDisposed record = false

theorem getProfileExecutionLeaseInfo_spec {lease : Handle} :
    Ensures (getProfileExecutionLeaseInfo lease) s
      (fun _ s' => s' = s ∧ ∃ record, s.tryGetValue lease = some record ∧ s.Usable record)
      (fun _ s' => s' = s ∧ ∀ record, s.tryGetValue lease = some record → ¬ s.Usable record) := by
  unfold getProfileExecutionLeaseInfo getLeaseRecord
  apply ensures_bind
  apply ensures_bind
  apply ensures_get
  cases hrecord : s.tryGetValue lease with
  | none => exact ensures_throw ⟨rfl, by simp⟩
  | some record =>
    simp only
    split_ifs with hgone
    · refine ensures_throw ⟨rfl, ?_⟩
      rintro other hother ⟨hlive, howner⟩
      obtain rfl := Option.some.inj hother
      simp [hlive, howner] at hgone
    · simp only [Bool.or_eq_true, not_or, Bool.not_eq_true] at hgone
      exact ensures_pure (ensures_pure ⟨rfl, record, rfl, hgone⟩)

end BaselineOps.ExecutionLease
