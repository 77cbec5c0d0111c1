import Mathlib
import BaselineOps.ExecutionLease.Registry

/-!
# Runs of the lease module

Any sequence of calls of the three exported functions of `ProfileExecutionLease.psm1`, each with its own
caller, file tree and faults.

* `consistent_afterCalls`: the tables say which leases were returned and closed, and the open streams are
  those of the owners among them.
* `executionLease_laws`: when the information about a lease is given, what a close does, and what an
  open leaves behind.
-/

namespace BaselineOps.ExecutionLease

open BaselineOps.Lib

variable {host : Host}

/-! ## Calls and their history -/

/-- A call of an exported function. -/
inductive Call (host : Host) where
  | open (env : Environment host) (arguments : OpenArguments)
  | close (env : Environment host) (lease : Handle)
  | info (lease : Handle)

/-- What a call returns or throws. -/
inductive Outcome where
  | lease (lease : Handle)
  | closed
  | info (info : Info)
  | failed (failure : Failure)
deriving DecidableEq

/-- The outcome of a program whose result becomes `outcome`. -/
def outcomeOf {α : Type} (outcome : α → Outcome) : EStateM.Result Failure Leases α → Outcome × Leases
  | .ok a s => (outcome a, s)
  | .error failure s => (.failed failure, s)

/-- A call on the tables as they are. -/
def perform (s : Leases) : Call host → Outcome × Leases
  | .open env arguments => outcomeOf .lease (openProfileExecutionLease env arguments s)
  | .close env lease => outcomeOf (fun _ => .closed) (closeProfileExecutionLease env lease s)
  | .info lease => outcomeOf .info (getProfileExecutionLeaseInfo lease s)

/-- A call with its outcome. -/
abbrev Event (host : Host) := Call host × Outcome

/-- What a sequence of calls leaves behind after the loading of the module: its history and the tables. -/
def afterCalls (calls : List (Call host)) : List (Event host) × Leases :=
  calls.foldl (fun run call => (run.1 ++ [(call, (perform run.2 call).1)], (perform run.2 call).2))
    ([], Leases.initial)

/-- The close of a lease was allowed. The error of a stream is thrown behind it. -/
def Outcome.Closes (outcome : Outcome) : Prop :=
  outcome = .closed ∨ ∃ message, outcome = .failed (.disposal message)

/-- The lease was returned by an open. -/
def Returned (events : List (Event host)) (lease : Handle) : Prop :=
  ∃ env arguments, (Call.open env arguments, Outcome.lease lease) ∈ events

/-- The lease has been closed. -/
def Closed (events : List (Event host)) (lease : Handle) : Prop :=
  ∃ env outcome, (Call.close env lease, outcome) ∈ events ∧ outcome.Closes

/-- The lease is the one of a borrower, with this owner. -/
def BorrowsFrom (s : Leases) (lease owner : Handle) : Prop :=
  ∃ record, s.records lease = some record ∧ record.kind = .borrower owner

variable {events events' : List (Event host)} {s s' : Leases} {lease : Handle} {record : Record}

theorem returned_concat {event : Event host} :
    Returned (events ++ [event]) lease ↔
      Returned events lease ∨ ∃ env arguments, event = (.open env arguments, .lease lease) := by
  simp only [Returned, List.mem_append, List.mem_singleton]
  constructor
  · rintro ⟨env, arguments, hmem | hevent⟩
    · exact .inl ⟨env, arguments, hmem⟩
    · exact .inr ⟨env, arguments, hevent.symm⟩
  · rintro (⟨env, arguments, hmem⟩ | ⟨env, arguments, hevent⟩)
    · exact ⟨env, arguments, .inl hmem⟩
    · exact ⟨env, arguments, .inr hevent.symm⟩

theorem closed_concat {event : Event host} :
    Closed (events ++ [event]) lease ↔
      Closed events lease ∨ ∃ env outcome, event = (.close env lease, outcome) ∧ outcome.Closes := by
  simp only [Closed, List.mem_append, List.mem_singleton]
  constructor
  · rintro ⟨env, outcome, hmem | hevent, hcloses⟩
    · exact .inl ⟨env, outcome, hmem, hcloses⟩
    · exact .inr ⟨env, outcome, hevent.symm, hcloses⟩
  · rintro (⟨env, outcome, hmem, hcloses⟩ | ⟨env, outcome, hevent, hcloses⟩)
    · exact ⟨env, outcome, .inl hmem, hcloses⟩
    · exact ⟨env, outcome, .inr hevent.symm, hcloses⟩

/-! ## Invariant -/

/-- The tables tell the history. -/
structure Consistent (events : List (Event host)) (s : Leases) : Prop where
  fresh : s.Fresh
  returned_lt : ∀ {lease}, Returned events lease → lease < s.nextHandle
  member_iff : ∀ {lease}, lease ∈ s.leaseMembership ↔ Returned events lease ∧ ¬ Closed events lease
  closed_iff : ∀ {lease}, lease ∈ s.closedMembership ↔ Closed events lease
  closed_returned : ∀ {lease}, Closed events lease → Returned events lease
  exists_record : ∀ {lease}, Returned events lease → ∃ record, s.records lease = some record
  disposed_iff : ∀ {lease record}, Returned events lease → s.records lease = some record →
    (record.disposed = true ↔ Closed events lease)
  path : ∀ {env arguments lease record}, (Call.open env arguments, Outcome.lease lease) ∈ events →
    s.records lease = some record → callerPath env = some record.ownerScriptPath
  active_iff : ∀ {lease}, lease ∈ s.activeProfileOwners ↔ Returned events lease ∧ ¬ Closed events lease ∧
    ∃ record itemCount, s.records lease = some record ∧ record.kind = .profileOwner itemCount
  borrower : ∀ {lease record owner}, Returned events lease → s.records lease = some record →
    record.kind = .borrower owner → Returned events owner ∧ record.streams = [] ∧
      ∃ found itemCount, s.records owner = some found ∧ found.kind = .profileOwner itemCount
  closed_streams : ∀ {lease record}, Closed events lease → s.records lease = some record → record.streams = []
  live_iff : ∀ {stream}, stream ∈ s.process.live ↔
    ∃ lease ∈ s.leaseMembership, ∃ record, s.records lease = some record ∧ stream ∈ record.streams
  disjoint : ∀ {lease record lease' record' stream stream'}, Returned events lease →
    s.records lease = some record → Returned events lease' → s.records lease' = some record' →
    stream ∈ record.streams → stream' ∈ record'.streams → stream.id = stream'.id → lease = lease'

theorem consistent_initial : Consistent ([] : List (Event host)) Leases.initial where
  fresh := ⟨by simp [Streams.Fresh, Leases.initial], by simp [Leases.initial], by simp [Leases.initial]⟩
  returned_lt := by simp [Returned]
  member_iff := by simp [Returned, Leases.initial]
  closed_iff := by simp [Closed, Leases.initial]
  closed_returned := by simp [Closed]
  exists_record := by simp [Returned]
  disposed_iff := by simp [Returned]
  path := by simp
  active_iff := by simp [Returned, Leases.initial]
  borrower := by simp [Returned]
  closed_streams := by simp [Closed]
  live_iff := by simp [Leases.initial]
  disjoint := by simp [Returned]

/-! ## Calls that leave the leases as they are -/

/-- An event that neither returns a lease nor closes one that was not closed. -/
structure SameHistory (events events' : List (Event host)) : Prop where
  opened : ∀ env arguments lease, (Call.open env arguments, Outcome.lease lease) ∈ events' ↔
    (Call.open env arguments, Outcome.lease lease) ∈ events
  closed : ∀ lease, Closed events' lease ↔ Closed events lease

theorem SameHistory.returned (h : SameHistory events events') (lease : Handle) :
    Returned events' lease ↔ Returned events lease := by
  simp only [Returned, h.opened]

theorem Consistent.unregistered (h : Consistent events s) (hsame : SameHistory events events')
    (hs' : Unregistered s s') : Consistent events' s' := by
  have hrecords : ∀ {lease}, Returned events lease → s'.records lease = s.records lease :=
    fun hreturned => hs'.records _ (h.returned_lt hreturned)
  refine
    { fresh := ⟨?fresh_process, ?fresh_membership, ?fresh_active⟩
      returned_lt := ?returned_lt
      member_iff := ?member_iff
      closed_iff := ?closed_iff
      closed_returned := ?closed_returned
      exists_record := ?exists_record
      disposed_iff := ?disposed_iff
      path := ?path
      active_iff := ?active_iff
      borrower := ?borrower
      closed_streams := ?closed_streams
      live_iff := ?live_iff
      disjoint := ?disjoint }
  case fresh_process =>
    intro stream hstream
    rw [hs'.live] at hstream
    exact (h.fresh.process stream hstream).trans_le hs'.next
  case fresh_membership =>
    intro lease hlease
    rw [hs'.leaseMembership] at hlease
    exact (h.fresh.membership lease hlease).trans_le hs'.nextHandle
  case fresh_active =>
    intro lease hlease
    rw [hs'.activeProfileOwners] at hlease
    exact (h.fresh.active lease hlease).trans_le hs'.nextHandle
  case returned_lt =>
    intro lease hreturned
    rw [hsame.returned] at hreturned
    exact (h.returned_lt hreturned).trans_le hs'.nextHandle
  case member_iff =>
    intro lease
    rw [hs'.leaseMembership, hsame.returned, hsame.closed, h.member_iff]
  case closed_iff =>
    intro lease
    rw [hs'.closedMembership, hsame.closed, h.closed_iff]
  case closed_returned =>
    intro lease hclosed
    rw [hsame.closed] at hclosed
    rw [hsame.returned]
    exact h.closed_returned hclosed
  case exists_record =>
    intro lease hreturned
    rw [hsame.returned] at hreturned
    rw [hrecords hreturned]
    exact h.exists_record hreturned
  case disposed_iff =>
    intro lease record hreturned hrecord
    rw [hsame.returned] at hreturned
    rw [hrecords hreturned] at hrecord
    rw [hsame.closed]
    exact h.disposed_iff hreturned hrecord
  case path =>
    intro env arguments lease record hopened hrecord
    rw [hsame.opened] at hopened
    rw [hrecords ⟨env, arguments, hopened⟩] at hrecord
    exact h.path hopened hrecord
  case active_iff =>
    intro lease
    rw [hs'.activeProfileOwners, hsame.returned, hsame.closed, h.active_iff]
    constructor
    · rintro ⟨hreturned, hopen, hrecord⟩
      exact ⟨hreturned, hopen, by rwa [hrecords hreturned]⟩
    · rintro ⟨hreturned, hopen, hrecord⟩
      exact ⟨hreturned, hopen, by rwa [hrecords hreturned] at hrecord⟩
  case borrower =>
    intro lease record owner hreturned hrecord hkind
    rw [hsame.returned] at hreturned
    rw [hrecords hreturned] at hrecord
    rw [hsame.returned]
    obtain ⟨howner, hstreams, hfound⟩ := h.borrower hreturned hrecord hkind
    exact ⟨howner, hstreams, by rwa [hrecords howner]⟩
  case closed_streams =>
    intro lease record hclosed hrecord
    rw [hsame.closed] at hclosed
    rw [hrecords (h.closed_returned hclosed)] at hrecord
    exact h.closed_streams hclosed hrecord
  case live_iff =>
    intro stream
    rw [hs'.live, h.live_iff, hs'.leaseMembership]
    constructor
    · rintro ⟨lease, hmem, record, hrecord, hstream⟩
      exact ⟨lease, hmem, record, by rwa [hrecords (h.member_iff.mp hmem).1], hstream⟩
    · rintro ⟨lease, hmem, record, hrecord, hstream⟩
      exact ⟨lease, hmem, record, by rwa [hrecords (h.member_iff.mp hmem).1] at hrecord, hstream⟩
  case disjoint =>
    intro lease record lease' record' stream stream' hreturned hrecord hreturned' hrecord'
    rw [hsame.returned] at hreturned hreturned'
    rw [hrecords hreturned] at hrecord
    rw [hrecords hreturned'] at hrecord'
    exact h.disjoint hreturned hrecord hreturned' hrecord'

/-! ## Calls that add a lease -/

/-- What both kinds of open do to the tables. -/
structure Added (env : Environment host) (s : Leases) (record : Record) (s' : Leases) : Prop where
  nextHandle : s'.nextHandle = s.nextHandle + 1
  records : s'.records = Function.update s.records s.nextHandle (some record)
  leaseMembership : s'.leaseMembership = s.leaseMembership ++ [s.nextHandle]
  closedMembership : s'.closedMembership = s.closedMembership
  active : ∀ lease, lease ∈ s'.activeProfileOwners ↔ lease ∈ s.activeProfileOwners ∨
    lease = s.nextHandle ∧ ∃ itemCount, record.kind = .profileOwner itemCount
  live : s'.process.live = s.process.live ++ record.streams
  ids : record.streams.map Stream.id = List.range' s.process.next record.streams.length
  next : s'.process.next = s.process.next + record.streams.length
  path : callerPath env = some record.ownerScriptPath
  disposed : record.disposed = false
  borrower : ∀ owner, record.kind = .borrower owner → owner ∈ s.activeProfileOwners ∧ record.streams = []

theorem Opened.added {env : Environment host} {arguments : OpenArguments}
    (h : Opened env arguments s lease s') : lease = s.nextHandle ∧ ∃ record, Added env s record s' := by
  cases h with
  | @borrower owner found record parent hactive hfound hlive hparent hkind hrunner htarget hpath hstreams
      hdisposed =>
    refine ⟨rfl, record, rfl, rfl, rfl, rfl, ?_, ?_, ?_, ?_, hpath, hdisposed, ?_⟩
    · intro lease
      simp [Leases.register, Leases.allocate, hkind]
    · simp [Leases.register, Leases.allocate, hstreams]
    · simp [hstreams]
    · simp [Leases.register, Leases.allocate, hstreams]
    · intro owner' hkind'
      rw [hkind] at hkind'
      exact ⟨Kind.borrower.inj hkind' ▸ hactive, hstreams⟩
  | @owner state record hlimit hwalked hkind hpath hstreams hdisposed =>
    refine ⟨rfl, record, rfl, rfl, rfl, rfl, ?_, ?_, ?_, ?_, hpath, hdisposed, ?_⟩
    · intro lease
      rcases hkind with hkind | hkind
      · simp [Leases.registerOwner, hkind]
      · simp [Leases.registerOwner, hkind]
    · rw [hstreams]
      exact hwalked.inv.live
    · rw [hstreams]
      exact hwalked.inv.ids
    · rw [hstreams]
      exact hwalked.inv.next
    · intro owner hborrower
      rcases hkind with hkind | hkind
      · rw [hkind] at hborrower
        cases hborrower
      · rw [hkind] at hborrower
        cases hborrower

/-- Streams with numbers from `next` on, against streams with numbers below it. -/
theorem Added.id_ge {env : Environment host} (h : Added env s record s') {stream : Stream}
    (hstream : stream ∈ record.streams) :
    s.process.next ≤ stream.id ∧ stream.id < s.process.next + record.streams.length := by
  have hid : stream.id ∈ record.streams.map Stream.id := List.mem_map_of_mem hstream
  rwa [h.ids, List.mem_range'_1] at hid

/-- The streams of a returned lease are live unless the lease is closed. -/
theorem Consistent.stream_lt (h : Consistent events s) (hreturned : Returned events lease)
    (hrecord : s.records lease = some record) {stream : Stream} (hstream : stream ∈ record.streams) :
    stream.id < s.process.next := by
  by_cases hclosed : Closed events lease
  · rw [h.closed_streams hclosed hrecord] at hstream
    cases hstream
  · have hlive : stream ∈ s.process.live :=
      h.live_iff.mpr ⟨lease, h.member_iff.mpr ⟨hreturned, hclosed⟩, record, hrecord, hstream⟩
    exact h.fresh.process stream hlive

theorem Consistent.added (h : Consistent events s) {env : Environment host} {arguments : OpenArguments}
    (hs' : Added env s record s') :
    Consistent (events ++ [(.open env arguments, .lease s.nextHandle)]) s' := by
  have hnew : ¬ Returned events s.nextHandle := fun hreturned => (h.returned_lt hreturned).false
  have hreturned_iff : ∀ {lease}, Returned (events ++ [(.open env arguments, .lease s.nextHandle)]) lease ↔
      Returned events lease ∨ lease = s.nextHandle := by
    intro lease
    rw [returned_concat]
    constructor
    · rintro (hreturned | ⟨env', arguments', hevent⟩)
      · exact .inl hreturned
      · cases hevent
        exact .inr rfl
    · rintro (hreturned | rfl)
      · exact .inl hreturned
      · exact .inr ⟨env, arguments, rfl⟩
  have hclosed_iff : ∀ {lease}, Closed (events ++ [(.open env arguments, .lease s.nextHandle)]) lease ↔
      Closed events lease := by
    intro lease
    rw [closed_concat]
    constructor
    · rintro (hclosed | ⟨env', outcome, hevent, -⟩)
      · exact hclosed
      · cases hevent
    · exact .inl
  have hclosed_new : ¬ Closed events s.nextHandle := fun hclosed => hnew (h.closed_returned hclosed)
  have hold : ∀ {lease}, Returned events lease → s'.records lease = s.records lease := by
    intro lease hreturned
    rw [hs'.records]
    exact Function.update_of_ne (h.returned_lt hreturned).ne _ _
  have hrecord : s'.records s.nextHandle = some record := by
    rw [hs'.records]
    exact Function.update_self ..
  refine
    { fresh := ⟨?fresh_process, ?fresh_membership, ?fresh_active⟩
      returned_lt := ?returned_lt
      member_iff := ?member_iff
      closed_iff := ?closed_iff
      closed_returned := ?closed_returned
      exists_record := ?exists_record
      disposed_iff := ?disposed_iff
      path := ?path
      active_iff := ?active_iff
      borrower := ?borrower
      closed_streams := ?closed_streams
      live_iff := ?live_iff
      disjoint := ?disjoint }
  case fresh_process =>
    intro stream hstream
    rw [hs'.live] at hstream
    rw [hs'.next]
    rcases List.mem_append.mp hstream with hstream | hstream
    · have hlt := h.fresh.process stream hstream
      omega
    · exact (hs'.id_ge hstream).2
  case fresh_membership =>
    intro lease hlease
    rw [hs'.leaseMembership] at hlease
    rw [hs'.nextHandle]
    rcases List.mem_append.mp hlease with hlease | hlease
    · exact (h.fresh.membership lease hlease).trans (Nat.lt_succ_self _)
    · rw [List.mem_singleton.mp hlease]
      exact Nat.lt_succ_self _
  case fresh_active =>
    intro lease hlease
    rw [hs'.nextHandle]
    rcases (hs'.active lease).mp hlease with hlease | ⟨rfl, -⟩
    · exact (h.fresh.active lease hlease).trans (Nat.lt_succ_self _)
    · exact Nat.lt_succ_self _
  case returned_lt =>
    intro lease hreturned
    rw [hs'.nextHandle]
    rcases hreturned_iff.mp hreturned with hreturned | rfl
    · exact (h.returned_lt hreturned).trans (Nat.lt_succ_self _)
    · exact Nat.lt_succ_self _
  case member_iff =>
    intro lease
    rw [hs'.leaseMembership, List.mem_append, List.mem_singleton, h.member_iff, hreturned_iff, hclosed_iff]
    constructor
    · rintro (⟨hreturned, hopen⟩ | rfl)
      · exact ⟨.inl hreturned, hopen⟩
      · exact ⟨.inr rfl, hclosed_new⟩
    · rintro ⟨hreturned | rfl, hopen⟩
      · exact .inl ⟨hreturned, hopen⟩
      · exact .inr rfl
  case closed_iff =>
    intro lease
    rw [hs'.closedMembership, hclosed_iff, h.closed_iff]
  case closed_returned =>
    intro lease hclosed
    exact hreturned_iff.mpr (.inl (h.closed_returned (hclosed_iff.mp hclosed)))
  case exists_record =>
    intro lease hreturned
    rcases hreturned_iff.mp hreturned with hreturned | rfl
    · rw [hold hreturned]
      exact h.exists_record hreturned
    · exact ⟨record, hrecord⟩
  case disposed_iff =>
    intro lease record' hreturned hrecord'
    rw [hclosed_iff]
    rcases hreturned_iff.mp hreturned with hreturned | rfl
    · rw [hold hreturned] at hrecord'
      exact h.disposed_iff hreturned hrecord'
    · rw [hrecord] at hrecord'
      rw [← Option.some.inj hrecord', hs'.disposed]
      simp [hclosed_new]
  case path =>
    intro env' arguments' lease record' hopened hrecord'
    rcases List.mem_append.mp hopened with hopened | hopened
    · rw [hold ⟨env', arguments', hopened⟩] at hrecord'
      exact h.path hopened hrecord'
    · cases List.mem_singleton.mp hopened
      rw [hrecord] at hrecord'
      rw [← Option.some.inj hrecord']
      exact hs'.path
  case active_iff =>
    intro lease
    rw [hs'.active, h.active_iff, hreturned_iff, hclosed_iff]
    constructor
    · rintro (⟨hreturned, hopen, hkind⟩ | ⟨rfl, itemCount, hkind⟩)
      · exact ⟨.inl hreturned, hopen, by rwa [hold hreturned]⟩
      · exact ⟨.inr rfl, hclosed_new, record, itemCount, hrecord, hkind⟩
    · rintro ⟨hreturned | rfl, hopen, hkind⟩
      · exact .inl ⟨hreturned, hopen, by rwa [hold hreturned] at hkind⟩
      · obtain ⟨record', itemCount, hrecord', hkind⟩ := hkind
        rw [hrecord] at hrecord'
        exact .inr ⟨rfl, itemCount, by rwa [Option.some.inj hrecord']⟩
  case borrower =>
    intro lease record' owner hreturned hrecord' hkind
    rcases hreturned_iff.mp hreturned with hreturned | rfl
    · rw [hold hreturned] at hrecord'
      obtain ⟨howner, hstreams, hfound⟩ := h.borrower hreturned hrecord' hkind
      exact ⟨hreturned_iff.mpr (.inl howner), hstreams, by rwa [hold howner]⟩
    · rw [hrecord] at hrecord'
      obtain rfl := Option.some.inj hrecord'
      obtain ⟨hactive, hstreams⟩ := hs'.borrower owner hkind
      obtain ⟨howner, -, hfound⟩ := h.active_iff.mp hactive
      exact ⟨hreturned_iff.mpr (.inl howner), hstreams, by rwa [hold howner]⟩
  case closed_streams =>
    intro lease record' hclosed hrecord'
    rw [hclosed_iff] at hclosed
    rw [hold (h.closed_returned hclosed)] at hrecord'
    exact h.closed_streams hclosed hrecord'
  case live_iff =>
    intro stream
    rw [hs'.live, List.mem_append, h.live_iff, hs'.leaseMembership]
    constructor
    · rintro (⟨lease, hmem, record', hrecord', hstream⟩ | hstream)
      · exact ⟨lease, List.mem_append_left _ hmem, record',
          by rwa [hold (h.member_iff.mp hmem).1], hstream⟩
      · exact ⟨s.nextHandle, by simp, record, hrecord, hstream⟩
    · rintro ⟨lease, hmem, record', hrecord', hstream⟩
      rcases List.mem_append.mp hmem with hmem | hmem
      · exact .inl ⟨lease, hmem, record', by rwa [hold (h.member_iff.mp hmem).1] at hrecord', hstream⟩
      · rw [List.mem_singleton.mp hmem, hrecord] at hrecord'
        exact .inr (by rwa [Option.some.inj hrecord'])
  case disjoint =>
    intro lease record₁ lease' record₂ stream stream' hreturned hrecord₁ hreturned' hrecord₂ hstream
      hstream' hid
    rcases hreturned_iff.mp hreturned with hold₁ | rfl
    · rw [hold hold₁] at hrecord₁
      rcases hreturned_iff.mp hreturned' with hold₂ | rfl
      · rw [hold hold₂] at hrecord₂
        exact h.disjoint hold₁ hrecord₁ hold₂ hrecord₂ hstream hstream' hid
      · have hlt := h.stream_lt hold₁ hrecord₁ hstream
        rw [hrecord] at hrecord₂
        rw [← Option.some.inj hrecord₂] at hstream'
        have hge := (hs'.id_ge hstream').1
        omega
    · rcases hreturned_iff.mp hreturned' with hold₂ | rfl
      · rw [hold hold₂] at hrecord₂
        have hlt := h.stream_lt hold₂ hrecord₂ hstream'
        rw [hrecord] at hrecord₁
        rw [← Option.some.inj hrecord₁] at hstream
        have hge := (hs'.id_ge hstream).1
        omega
      · rfl

/-! ## Calls that close a lease -/

/-- What a close does to the tables. -/
structure Retired (s : Leases) (lease : Handle) (record : Record) (s' : Leases) : Prop where
  nextHandle : s'.nextHandle = s.nextHandle
  records : s'.records = Function.update s.records lease
    (some { record with streams := [], disposed := true })
  leaseMembership : ∀ other, other ∈ s'.leaseMembership ↔ other ∈ s.leaseMembership ∧ other ≠ lease
  closedMembership : s'.closedMembership = s.closedMembership ++ [lease]
  active : ∀ other, other ∈ s'.activeProfileOwners ↔ other ∈ s.activeProfileOwners ∧ other ≠ lease
  live : ∀ stream, stream ∈ s'.process.live ↔
    stream ∈ s.process.live ∧ ∀ other ∈ record.streams, stream.id ≠ other.id
  next : s'.process.next = s.process.next

theorem tryGetValue_some_iff :
    s.tryGetValue lease = some record ↔ lease ∈ s.leaseMembership ∧ s.records lease = some record := by
  unfold Leases.tryGetValue
  split_ifs with hmem
  · simp [hmem]
  · simp [hmem]

theorem mem_filter_ne {handles : List Handle} {other : Handle} :
    (other ∈ handles.filter fun other => other ≠ lease) ↔ other ∈ handles ∧ other ≠ lease := by
  simp

theorem Consistent.retired (h : Consistent events s) (hrecord : s.tryGetValue lease = some record) :
    Retired s lease record (s.afterClose lease record) := by
  obtain ⟨hmem, hfound⟩ := tryGetValue_some_iff.mp hrecord
  obtain ⟨hreturned, hopen⟩ := h.member_iff.mp hmem
  -- only an active owner is taken from the list
  have hactive : (∀ itemCount, record.kind ≠ .profileOwner itemCount) →
      ∀ other, other ∈ s.activeProfileOwners ↔ other ∈ s.activeProfileOwners ∧ other ≠ lease := by
    intro hkind other
    refine ⟨fun hother => ⟨hother, ?_⟩, And.left⟩
    rintro rfl
    obtain ⟨-, -, record', itemCount, hrecord', hprofile⟩ := h.active_iff.mp hother
    rw [hfound] at hrecord'
    obtain rfl := Option.some.inj hrecord'
    exact hkind itemCount hprofile
  unfold Leases.afterClose
  cases hkind : record.kind with
  | borrower owner =>
    obtain ⟨-, hstreams, -⟩ := h.borrower hreturned hfound hkind
    refine ⟨rfl, ?_, fun _ => mem_filter_ne, rfl, ?_, ?_, rfl⟩
    · simp [Leases.retire, ← hstreams]
    · simpa only [Leases.retire, hkind] using hactive (by simp [hkind])
    · simp [Leases.retire, hstreams]
  | profileOwner itemCount =>
    refine ⟨rfl, ?_, fun _ => mem_filter_ne, rfl, ?_, fun _ => mem_disposeAll_live, disposeAll_next⟩
    · simp only [Leases.release, Leases.retire, Function.update_idem]
    · intro other
      simp only [Leases.release, Leases.retire, hkind]
      exact mem_filter_ne
  | directOwner itemCount =>
    refine ⟨rfl, ?_, fun _ => mem_filter_ne, rfl, ?_, fun _ => mem_disposeAll_live, disposeAll_next⟩
    · simp only [Leases.release, Leases.retire, Function.update_idem]
    · simpa only [Leases.release, Leases.retire, hkind] using hactive (by simp [hkind])

theorem Consistent.close (h : Consistent events s) {env : Environment host} {outcome : Outcome}
    (hcloses : outcome.Closes) (hrecord : s.tryGetValue lease = some record)
    (hs' : Retired s lease record s') :
    Consistent (events ++ [(.close env lease, outcome)]) s' := by
  obtain ⟨hmem, hfound⟩ := tryGetValue_some_iff.mp hrecord
  obtain ⟨hreturned, hopen⟩ := h.member_iff.mp hmem
  have hopened_iff : ∀ {env' arguments other},
      (Call.open env' arguments, Outcome.lease other) ∈ events ++ [(.close env lease, outcome)] ↔
        (Call.open env' arguments, Outcome.lease other) ∈ events := by
    intro env' arguments other
    simp
  have hreturned_iff : ∀ {other}, Returned (events ++ [(.close env lease, outcome)]) other ↔
      Returned events other := by
    intro other
    simp only [Returned, hopened_iff]
  have hclosed_iff : ∀ {other}, Closed (events ++ [(.close env lease, outcome)]) other ↔
      Closed events other ∨ other = lease := by
    intro other
    rw [closed_concat]
    constructor
    · rintro (hclosed | ⟨env', outcome', hevent, -⟩)
      · exact .inl hclosed
      · cases hevent
        exact .inr rfl
    · rintro (hclosed | rfl)
      · exact .inl hclosed
      · exact .inr ⟨env, outcome, rfl, hcloses⟩
  have hold : ∀ {other}, other ≠ lease → s'.records other = s.records other := by
    intro other hne
    rw [hs'.records]
    exact Function.update_of_ne hne _ _
  have hnew : s'.records lease = some { record with streams := [], disposed := true } := by
    rw [hs'.records]
    exact Function.update_self ..
  -- a record behind the close is the one before, but for its streams and its flag
  have hbefore : ∀ {other record'}, s'.records other = some record' → ∃ before, s.records other = some before ∧
      before.kind = record'.kind ∧ before.ownerScriptPath = record'.ownerScriptPath ∧
      (other ≠ lease → before = record') ∧ ∀ stream ∈ record'.streams, stream ∈ before.streams := by
    intro other record' hrecord'
    by_cases hne : other = lease
    · subst hne
      rw [hnew] at hrecord'
      obtain rfl := Option.some.inj hrecord'
      exact ⟨record, hfound, rfl, rfl, fun h => absurd rfl h, by simp⟩
    · rw [hold hne] at hrecord'
      exact ⟨record', hrecord', rfl, rfl, fun _ => rfl, fun _ hstream => hstream⟩
  refine
    { fresh := ⟨?fresh_process, ?fresh_membership, ?fresh_active⟩
      returned_lt := ?returned_lt
      member_iff := ?member_iff
      closed_iff := ?closed_iff
      closed_returned := ?closed_returned
      exists_record := ?exists_record
      disposed_iff := ?disposed_iff
      path := ?path
      active_iff := ?active_iff
      borrower := ?borrower
      closed_streams := ?closed_streams
      live_iff := ?live_iff
      disjoint := ?disjoint }
  case fresh_process =>
    intro stream hstream
    rw [hs'.next]
    exact h.fresh.process stream ((hs'.live stream).mp hstream).1
  case fresh_membership =>
    intro other hother
    rw [hs'.nextHandle]
    exact h.fresh.membership other ((hs'.leaseMembership other).mp hother).1
  case fresh_active =>
    intro other hother
    rw [hs'.nextHandle]
    exact h.fresh.active other ((hs'.active other).mp hother).1
  case returned_lt =>
    intro other hother
    rw [hs'.nextHandle]
    exact h.returned_lt (hreturned_iff.mp hother)
  case member_iff =>
    intro other
    rw [hs'.leaseMembership, h.member_iff, hreturned_iff, hclosed_iff]
    tauto
  case closed_iff =>
    intro other
    rw [hs'.closedMembership, List.mem_append, List.mem_singleton, h.closed_iff, hclosed_iff]
  case closed_returned =>
    intro other hclosed
    rw [hreturned_iff]
    rcases hclosed_iff.mp hclosed with hclosed | rfl
    · exact h.closed_returned hclosed
    · exact hreturned
  case exists_record =>
    intro other hother
    rw [hreturned_iff] at hother
    by_cases hne : other = lease
    · exact ⟨_, hne ▸ hnew⟩
    · rw [hold hne]
      exact h.exists_record hother
  case disposed_iff =>
    intro other record' hother hrecord'
    rw [hreturned_iff] at hother
    rw [hclosed_iff]
    by_cases hne : other = lease
    · subst hne
      rw [hnew] at hrecord'
      rw [← Option.some.inj hrecord']
      simp
    · rw [hold hne] at hrecord'
      rw [h.disposed_iff hother hrecord']
      simp [hne]
  case path =>
    intro env' arguments other record' hopened hrecord'
    rw [hopened_iff] at hopened
    obtain ⟨before, hbefore', -, hpath, -⟩ := hbefore hrecord'
    rw [← hpath]
    exact h.path hopened hbefore'
  case active_iff =>
    intro other
    rw [hs'.active, h.active_iff, hreturned_iff, hclosed_iff]
    constructor
    · rintro ⟨⟨hother, hnot, hkind⟩, hne⟩
      exact ⟨hother, by tauto, by rwa [hold hne]⟩
    · rintro ⟨hother, hnot, hkind⟩
      have hne : other ≠ lease := fun heq => hnot (.inr heq)
      rw [hold hne] at hkind
      exact ⟨⟨hother, fun hclosed => hnot (.inl hclosed), hkind⟩, hne⟩
  case borrower =>
    intro other record' owner hother hrecord' hkind
    rw [hreturned_iff] at hother
    obtain ⟨before, hbefore', hkind', -, -, hsub⟩ := hbefore hrecord'
    rw [hkind] at hkind'
    obtain ⟨howner, hstreams, found, itemCount, hfound', hprofile⟩ := h.borrower hother hbefore' hkind'
    refine ⟨hreturned_iff.mpr howner, List.eq_nil_iff_forall_not_mem.mpr ?_, ?_⟩
    · intro stream hstream
      have hmem' := hsub stream hstream
      rw [hstreams] at hmem'
      cases hmem'
    · by_cases hne : owner = lease
      · subst hne
        rw [hfound] at hfound'
        obtain rfl := Option.some.inj hfound'
        exact ⟨_, itemCount, hnew, hprofile⟩
      · exact ⟨found, itemCount, by rwa [hold hne], hprofile⟩
  case closed_streams =>
    intro other record' hclosed hrecord'
    by_cases hne : other = lease
    · subst hne
      rw [hnew] at hrecord'
      rw [← Option.some.inj hrecord']
    · rw [hold hne] at hrecord'
      have hclosed' : Closed events other := (hclosed_iff.mp hclosed).resolve_right hne
      exact h.closed_streams hclosed' hrecord'
  case live_iff =>
    intro stream
    rw [hs'.live, h.live_iff]
    constructor
    · rintro ⟨⟨other, hother, record', hrecord', hstream⟩, hkept⟩
      have hne : other ≠ lease := by
        rintro rfl
        rw [hfound] at hrecord'
        obtain rfl := Option.some.inj hrecord'
        exact hkept stream hstream rfl
      exact ⟨other, (hs'.leaseMembership other).mpr ⟨hother, hne⟩, record', by rwa [hold hne], hstream⟩
    · rintro ⟨other, hother, record', hrecord', hstream⟩
      obtain ⟨hother, hne⟩ := (hs'.leaseMembership other).mp hother
      rw [hold hne] at hrecord'
      refine ⟨⟨other, hother, record', hrecord', hstream⟩, ?_⟩
      intro stream' hstream' hid
      exact hne (h.disjoint (h.member_iff.mp hother).1 hrecord' hreturned hfound hstream hstream' hid)
  case disjoint =>
    intro lease₁ record₁ lease₂ record₂ stream₁ stream₂ hreturned₁ hrecord₁ hreturned₂ hrecord₂ hstream₁
      hstream₂ hid
    obtain ⟨before₁, hbefore₁, -, -, -, hsub₁⟩ := hbefore hrecord₁
    obtain ⟨before₂, hbefore₂, -, -, -, hsub₂⟩ := hbefore hrecord₂
    exact h.disjoint (hreturned_iff.mp hreturned₁) hbefore₁ (hreturned_iff.mp hreturned₂) hbefore₂
      (hsub₁ stream₁ hstream₁) (hsub₂ stream₂ hstream₂) hid

/-! ## Every call -/

theorem sameHistory_concat {event : Event host}
    (hopen : ∀ env arguments lease, event ≠ (.open env arguments, .lease lease))
    (hclose : ∀ env lease outcome, event = (.close env lease, outcome) → outcome.Closes → Closed events lease) :
    SameHistory events (events ++ [event]) := by
  constructor
  · intro env arguments lease
    rw [List.mem_append, List.mem_singleton]
    constructor
    · rintro (hmem | hevent)
      · exact hmem
      · exact absurd hevent.symm (hopen env arguments lease)
    · exact .inl
  · intro lease
    rw [closed_concat]
    constructor
    · rintro (hclosed | ⟨env, outcome, hevent, hcloses⟩)
      · exact hclosed
      · exact hclose env lease outcome hevent hcloses
    · exact .inl

theorem Consistent.performed (h : Consistent events s) {call : Call host} {outcome : Outcome}
    (hperform : perform s call = (outcome, s')) : Consistent (events ++ [(call, outcome)]) s' := by
  cases call with
  | «open» env arguments =>
    have hspec := @openProfileExecutionLease_spec host env s h.fresh arguments
    simp only [perform] at hperform
    cases hrun : openProfileExecutionLease env arguments s with
    | ok lease s'' =>
      obtain ⟨rfl, record, hadded⟩ := (hspec.ok hrun).added
      rw [hrun] at hperform
      cases hperform
      exact h.added hadded
    | error failure s'' =>
      have hfailed := hspec.error hrun
      rw [hrun] at hperform
      cases hperform
      exact h.unregistered (sameHistory_concat (by simp) (by simp)) hfailed.2
  | close env lease =>
    have hspec := @closeProfileExecutionLease_spec host env s lease
    simp only [perform] at hperform
    cases hrun : closeProfileExecutionLease env lease s with
    | ok _ s'' =>
      have hresult := hspec.ok hrun
      rw [hrun] at hperform
      cases hperform
      cases hresult with
      | again hclosed =>
        refine h.unregistered (sameHistory_concat (by simp) ?_) (unregistered_refl s)
        rintro _ _ _ ⟨⟩ -
        exact h.closed_iff.mp hclosed
      | closed _ hrecord => exact h.close (.inl rfl) hrecord (h.retired hrecord)
    | error failure s'' =>
      have hresult := hspec.error hrun
      rw [hrun] at hperform
      cases hperform
      cases hresult with
      | refused =>
        refine h.unregistered (sameHistory_concat (by simp) ?_) (unregistered_refl s)
        rintro _ _ _ ⟨⟩ (hcloses | ⟨_, hcloses⟩)
        · cases hcloses
        · cases hcloses
      | closed _ hrecord _ hfailure =>
        obtain ⟨message, rfl⟩ := hfailure failure rfl
        exact h.close (.inr ⟨message, rfl⟩) hrecord (h.retired hrecord)
  | info lease =>
    have hspec := @getProfileExecutionLeaseInfo_spec s lease
    simp only [perform] at hperform
    cases hrun : getProfileExecutionLeaseInfo lease s with
    | ok info s'' =>
      obtain ⟨rfl, -⟩ := hspec.ok hrun
      rw [hrun] at hperform
      cases hperform
      exact h.unregistered (sameHistory_concat (by simp) (by simp)) (unregistered_refl _)
    | error failure s'' =>
      obtain ⟨rfl, -⟩ := hspec.error hrun
      rw [hrun] at hperform
      cases hperform
      exact h.unregistered (sameHistory_concat (by simp) (by simp)) (unregistered_refl _)

/-- The tables tell the history of every sequence of calls. -/
theorem consistent_afterCalls (calls : List (Call host)) :
    Consistent (afterCalls calls).1 (afterCalls calls).2 := by
  induction calls using List.reverseRecOn with
  | nil => exact consistent_initial
  | append_singleton calls call ih =>
    unfold afterCalls at *
    rw [List.foldl_append, List.foldl_cons, List.foldl_nil]
    exact ih.performed rfl

/-! ## Information about leases -/

/-- The outcome of `Get-ProfileExecutionLeaseInfo`. -/
def infoOf (s : Leases) (lease : Handle) : Outcome :=
  (outcomeOf .info (getProfileExecutionLeaseInfo lease s)).1

theorem infoOf_congr (hrecord : s'.tryGetValue lease = s.tryGetValue lease)
    (howner : ∀ record, s.tryGetValue lease = some record → s'.ownerDisposed record = s.ownerDisposed record) :
    infoOf s' lease = infoOf s lease := by
  simp only [infoOf, getProfileExecutionLeaseInfo, getLeaseRecord, run_bind, run_get, hrecord]
  cases hfound : s.tryGetValue lease with
  | none => rfl
  | some record =>
    simp only [howner record hfound]
    split_ifs with hgone
    · rfl
    · rfl

theorem Consistent.info_iff (h : Consistent events s) :
    (∃ info, infoOf s lease = .info info) ↔
      Returned events lease ∧ ¬ Closed events lease ∧ ∀ owner, BorrowsFrom s lease owner → ¬ Closed events owner := by
  have husable : ∀ {record}, s.tryGetValue lease = some record →
      (s.Usable record ↔ ∀ owner, BorrowsFrom s lease owner → ¬ Closed events owner) := by
    intro record hrecord
    obtain ⟨hmem, hfound⟩ := tryGetValue_some_iff.mp hrecord
    obtain ⟨hreturned, hopen⟩ := h.member_iff.mp hmem
    have hlive : record.disposed = false := by
      rw [← Bool.not_eq_true, h.disposed_iff hreturned hfound]
      exact hopen
    have hborrows : ∀ owner, BorrowsFrom s lease owner ↔ record.kind = .borrower owner := by
      intro owner
      simp [BorrowsFrom, hfound]
    simp only [Leases.Usable, hlive, true_and, hborrows, Leases.ownerDisposed]
    cases hkind : record.kind with
    | profileOwner itemCount => simp
    | directOwner itemCount => simp
    | borrower owner =>
      obtain ⟨howner, -, found, itemCount, hownerRecord, -⟩ := h.borrower hreturned hfound hkind
      have hdisposed := h.disposed_iff howner hownerRecord
      simp [hownerRecord, ← hdisposed]
  have hspec := @getProfileExecutionLeaseInfo_spec s lease
  unfold infoOf
  cases hrun : getProfileExecutionLeaseInfo lease s with
  | ok info s'' =>
    obtain ⟨-, record, hrecord, huse⟩ := hspec.ok hrun
    obtain ⟨hreturned, hopen⟩ := h.member_iff.mp (tryGetValue_some_iff.mp hrecord).1
    exact iff_of_true ⟨info, rfl⟩ ⟨hreturned, hopen, (husable hrecord).mp huse⟩
  | error failure s'' =>
    obtain ⟨-, hnot⟩ := hspec.error hrun
    refine iff_of_false ?_ ?_
    · rintro ⟨info, hinfo⟩
      cases hinfo
    · rintro ⟨hreturned, hopen, howner⟩
      obtain ⟨record, hfound⟩ := h.exists_record hreturned
      have hrecord := tryGetValue_some_iff.mpr ⟨h.member_iff.mpr ⟨hreturned, hopen⟩, hfound⟩
      exact hnot record hrecord ((husable hrecord).mpr howner)

/-! ## Laws -/

theorem Consistent.live_owner_iff (h : Consistent events s) {stream : Stream} :
    stream ∈ s.process.live ↔ ∃ owner record, Returned events owner ∧ ¬ Closed events owner ∧
      s.records owner = some record ∧ (∀ other, record.kind ≠ .borrower other) ∧ stream ∈ record.streams := by
  rw [h.live_iff]
  constructor
  · rintro ⟨owner, hmem, record, hrecord, hstream⟩
    obtain ⟨hreturned, hopen⟩ := h.member_iff.mp hmem
    refine ⟨owner, record, hreturned, hopen, hrecord, ?_, hstream⟩
    intro other hkind
    rw [(h.borrower hreturned hrecord hkind).2.1] at hstream
    cases hstream
  · rintro ⟨owner, record, hreturned, hopen, hrecord, -, hstream⟩
    exact ⟨owner, h.member_iff.mpr ⟨hreturned, hopen⟩, record, hrecord, hstream⟩

theorem closes_outcomeOf {env : Environment host} {outcome : Outcome}
    (hperform : perform s (.close env lease) = (outcome, s')) :
    ∃ failure, CloseResult env lease s failure s' ∧
      outcome = failure.elim .closed .failed := by
  have hspec := @closeProfileExecutionLease_spec host env s lease
  simp only [perform] at hperform
  cases hrun : closeProfileExecutionLease env lease s with
  | ok _ s'' =>
    have hresult := hspec.ok hrun
    rw [hrun] at hperform
    cases hperform
    exact ⟨none, hresult, rfl⟩
  | error failure s'' =>
    have hresult := hspec.error hrun
    rw [hrun] at hperform
    cases hperform
    exact ⟨some failure, hresult, rfl⟩

/-- A second close does nothing, whoever calls it. -/
theorem Consistent.close_again (h : Consistent events s) (hclosed : Closed events lease)
    (env : Environment host) : perform s (.close env lease) = (.closed, s) := by
  have hmem := h.closed_iff.mpr hclosed
  simp only [perform, closeProfileExecutionLease, run_bind, run_get, if_pos hmem, run_pure, outcomeOf]

/-- A caller is the script that opened a lease. -/
def OpenedFrom (events : List (Event host)) (lease : Handle) (env : Environment host) : Prop :=
  ∃ opener arguments path opened, (Call.open opener arguments, Outcome.lease lease) ∈ events ∧
    callerPath env = some path ∧ callerPath opener = some opened ∧ host.fold path = host.fold opened

/-- A first close is allowed from the script that opened the lease, and is refused elsewhere. -/
theorem Consistent.close_iff (h : Consistent events s) (hopen : ¬ Closed events lease)
    {env : Environment host} {outcome : Outcome}
    (hperform : perform s (.close env lease) = (outcome, s')) :
    (outcome.Closes ↔ OpenedFrom events lease env) ∧ (¬ outcome.Closes → s' = s) := by
  have hmem : lease ∉ s.closedMembership := fun hmem => hopen (h.closed_iff.mp hmem)
  have hfrom : OpenedFrom events lease env ↔
      ∃ record, s.tryGetValue lease = some record ∧ ClosesFrom env record := by
    constructor
    · rintro ⟨opener, arguments, path, opened, hevent, hpath, hopened, hfold⟩
      have hreturned : Returned events lease := ⟨opener, arguments, hevent⟩
      obtain ⟨record, hrecord⟩ := h.exists_record hreturned
      have hrecorded := h.path hevent hrecord
      rw [hopened] at hrecorded
      obtain rfl := Option.some.inj hrecorded
      exact ⟨record, tryGetValue_some_iff.mpr ⟨h.member_iff.mpr ⟨hreturned, hopen⟩, hrecord⟩, path, hpath,
        hfold⟩
    · rintro ⟨record, hrecord, path, hpath, hfold⟩
      obtain ⟨hmember, hfound⟩ := tryGetValue_some_iff.mp hrecord
      obtain ⟨opener, arguments, hevent⟩ := (h.member_iff.mp hmember).1
      exact ⟨opener, arguments, path, _, hevent, hpath, h.path hevent hfound, hfold⟩
  rw [hfrom]
  obtain ⟨failure, hresult, rfl⟩ := closes_outcomeOf hperform
  cases hresult with
  | again hclosed => exact absurd hclosed hmem
  | @refused message _ hrefused =>
    refine ⟨iff_of_false ?_ ?_, fun _ => rfl⟩
    · rintro (hcloses | ⟨_, hcloses⟩)
      · cases hcloses
      · cases hcloses
    · rintro ⟨record, hrecord, hcaller⟩
      exact hrefused record hrecord hcaller
  | @closed record _ _ hrecord hcaller hfailure =>
    have hcloses : Outcome.Closes (failure.elim .closed .failed) := by
      cases failure with
      | none => exact .inl rfl
      | some failure =>
        obtain ⟨message, rfl⟩ := hfailure failure rfl
        exact .inr ⟨message, rfl⟩
    exact ⟨iff_of_true hcloses ⟨record, hrecord, hcaller⟩, fun hnot => absurd hcloses hnot⟩

/-- A first close that was allowed. -/
theorem Consistent.closed_retired (h : Consistent events s) (hopen : ¬ Closed events lease)
    {env : Environment host} {outcome : Outcome} (hcloses : outcome.Closes)
    (hperform : perform s (.close env lease) = (outcome, s')) :
    ∃ record, s.tryGetValue lease = some record ∧ s' = s.afterClose lease record ∧
      Retired s lease record s' := by
  obtain ⟨failure, hresult, rfl⟩ := closes_outcomeOf hperform
  cases hresult with
  | again hclosed => exact absurd (h.closed_iff.mp hclosed) hopen
  | refused =>
    rcases hcloses with hcloses | ⟨_, hcloses⟩
    · cases hcloses
    · cases hcloses
  | closed _ hrecord => exact ⟨_, hrecord, rfl, h.retired hrecord⟩

/-- The information about a lease stays when another one is closed that is not its owner. -/
theorem Consistent.infoOf_retired (h : Consistent events s) (hs' : Retired s lease record s') {other : Handle}
    (hne : other ≠ lease) (howner : Returned events other → ¬ BorrowsFrom s other lease) : infoOf s' other = infoOf s other := by
  have hrecords : ∀ {handle}, handle ≠ lease → s'.records handle = s.records handle := by
    intro handle hhandle
    rw [hs'.records]
    exact Function.update_of_ne hhandle _ _
  refine infoOf_congr ?_ ?_
  · simp only [Leases.tryGetValue, hs'.leaseMembership, hne, ne_eq, not_false_eq_true, and_true, hrecords hne]
  · intro record' hrecord'
    obtain ⟨hmem, hfound⟩ := tryGetValue_some_iff.mp hrecord'
    unfold Leases.ownerDisposed
    cases hkind : record'.kind with
    | borrower owner =>
      have hdistinct : owner ≠ lease := by
        rintro rfl
        exact howner (h.member_iff.mp hmem).1 ⟨record', hfound, hkind⟩
      simp only [hrecords hdistinct]
    | profileOwner itemCount => rfl
    | directOwner itemCount => rfl

theorem Consistent.infoOf_unregistered (h : Consistent events s) (hs' : Unregistered s s') (lease : Handle) :
    infoOf s' lease = infoOf s lease := by
  have hrecord : s'.tryGetValue lease = s.tryGetValue lease := by
    unfold Leases.tryGetValue
    rw [hs'.leaseMembership]
    split_ifs with hmem
    · exact hs'.records lease (h.fresh.membership lease hmem)
    · rfl
  refine infoOf_congr hrecord ?_
  intro record hfound
  obtain ⟨hmem, hfound⟩ := tryGetValue_some_iff.mp hfound
  unfold Leases.ownerDisposed
  cases hkind : record.kind with
  | borrower owner =>
    have howner := (h.borrower (h.member_iff.mp hmem).1 hfound hkind).1
    simp only [hs'.records owner (h.returned_lt howner)]
  | profileOwner itemCount => rfl
  | directOwner itemCount => rfl

/-- The streams of an owner are those of the requested files, one for each, and every file and every
    directory is counted. -/
structure HoldsRequested (env : Environment host) (arguments : OpenArguments) (record : Record) : Prop where
  names_nodup : (record.streams.map fun stream => host.fold stream.path).Nodup
  mem_names_iff : ∀ name, name ∈ (record.streams.map fun stream => host.fold stream.path) ↔
    ∃ item, Requested env.tree arguments.controlFiles arguments.closureRoots item ∧
      host.fold item.fullName = name
  itemCount : ∃ directories : List (List Char), directories.Nodup ∧
    (∀ name, name ∈ directories ↔ ∃ item, Below env.tree arguments.closureRoots item ∧
      item.isContainer = true ∧ host.fold item.fullName = name) ∧
    record.itemCount = record.streams.length + directories.length
  within : (record.itemCount : ℤ) ≤ arguments.maximumItems

theorem Walked.holdsRequested {env : Environment host} {arguments : OpenArguments} {base : Streams}
    {state : WalkState}
    (h : Walked env arguments.controlFiles arguments.closureRoots arguments.maximumItems.toNat base state)
    (hlimit : 1 ≤ arguments.maximumItems)
    (hkind : record.kind = .profileOwner state.itemCount ∨ record.kind = .directOwner state.itemCount)
    (hstreams : record.streams = state.streams) : HoldsRequested env arguments record := by
  have hcount : record.itemCount = state.itemCount := by
    unfold Record.itemCount
    rcases hkind with hkind | hkind
    · rw [hkind]
    · rw [hkind]
  have hnames : (state.streams.map fun stream => host.fold stream.path) = state.seenFiles.map host.fold := by
    rw [← h.inv.paths, List.map_map]
    rfl
  have hlength : state.streams.length = state.seenFiles.length := by
    rw [← h.inv.paths, List.length_map]
  constructor
  · rw [hstreams, hnames]
    exact h.inv.files_nodup
  · intro name
    rw [hstreams]
    exact h.mem_names_iff
  · refine ⟨state.seenDirectories.map host.fold, h.inv.directories_nodup, fun _ => h.mem_directories_iff, ?_⟩
    rw [hcount, hstreams, hlength, List.length_map]
    exact h.inv.itemCount
  · have hwithin := h.inv.within
    rw [hcount]
    omega

/-- What a sequence of calls and its next call have to do with each other. -/
structure LeaseLaws (events : List (Event host)) (s : Leases) : Prop where
  /-- The open streams are those of the owners that are not closed. -/
  live : ∀ stream, stream ∈ s.process.live ↔ ∃ owner record, Returned events owner ∧ ¬ Closed events owner ∧
    s.records owner = some record ∧ (∀ other, record.kind ≠ .borrower other) ∧ stream ∈ record.streams
  info : ∀ lease, (∃ info, infoOf s lease = .info info) ↔ Returned events lease ∧ ¬ Closed events lease ∧
    ∀ owner, BorrowsFrom s lease owner → ¬ Closed events owner
  close_again : ∀ (env : Environment host) lease, Closed events lease →
    perform s (.close env lease) = (.closed, s)
  close : ∀ (env : Environment host) lease outcome s', ¬ Closed events lease →
    perform s (.close env lease) = (outcome, s') →
    (outcome.Closes ↔ OpenedFrom events lease env) ∧ (¬ outcome.Closes → s' = s)
  close_borrower : ∀ (env : Environment host) lease owner outcome s', BorrowsFrom s lease owner →
    perform s (.close env lease) = (outcome, s') →
    s'.process = s.process ∧ ∀ other ≠ lease, infoOf s' other = infoOf s other
  close_owner : ∀ (env : Environment host) lease record outcome s', Returned events lease →
    ¬ Closed events lease → s.records lease = some record → (∀ owner, record.kind ≠ .borrower owner) →
    outcome.Closes → perform s (.close env lease) = (outcome, s') →
    (∀ stream, stream ∈ s'.process.live ↔ stream ∈ s.process.live ∧ stream ∉ record.streams) ∧
    (∀ borrower, Returned events borrower → BorrowsFrom s borrower lease →
      ∀ info, infoOf s' borrower ≠ .info info) ∧
    ∀ other ≠ lease, ¬ BorrowsFrom s other lease → infoOf s' other = infoOf s other
  open_failed : ∀ (env : Environment host) arguments failure s',
    perform s (.open env arguments) = (.failed failure, s') →
    failure ≠ .unfinished ∧ Unregistered s s' ∧ ∀ lease, infoOf s' lease = infoOf s lease
  /-- A borrower has a usable owner and no stream, and an owner holds the requested files, for which no
      other stream has been opened. -/
  open_lease : ∀ (env : Environment host) arguments lease s',
    perform s (.open env arguments) = (.lease lease, s') →
    ¬ Returned events lease ∧ ∃ record, s'.records lease = some record ∧
      ((∃ owner, record.kind = .borrower owner ∧ Returned events owner ∧ ¬ Closed events owner ∧
          s'.process = s.process) ∨
        ((∀ owner, record.kind ≠ .borrower owner) ∧ HoldsRequested env arguments record ∧
          s'.process.live = s.process.live ++ record.streams ∧
          s'.process.next = s.process.next + record.streams.length))

theorem Consistent.close_borrower (h : Consistent events s) {env : Environment host} {owner : Handle}
    {outcome : Outcome} (hborrows : BorrowsFrom s lease owner)
    (hperform : perform s (.close env lease) = (outcome, s')) :
    s'.process = s.process ∧ ∀ other ≠ lease, infoOf s' other = infoOf s other := by
  obtain ⟨record, hrecord, hkind⟩ := hborrows
  by_cases hclosed : Closed events lease
  · rw [h.close_again hclosed env] at hperform
    cases hperform
    exact ⟨rfl, fun _ _ => rfl⟩
  by_cases hcloses : outcome.Closes
  · obtain ⟨record', hfound, rfl, hretired⟩ := h.closed_retired hclosed hcloses hperform
    have hsame := (tryGetValue_some_iff.mp hfound).2
    rw [hrecord] at hsame
    obtain rfl := Option.some.inj hsame
    refine ⟨by simp [Leases.afterClose, hkind, Leases.retire], ?_⟩
    intro other hne
    refine h.infoOf_retired hretired hne ?_
    -- an owner is no borrower
    rintro hother ⟨record', hrecord', hkind'⟩
    obtain ⟨-, -, found, itemCount, hfound', hprofile⟩ := h.borrower hother hrecord' hkind'
    rw [hrecord] at hfound'
    rw [← Option.some.inj hfound', hkind] at hprofile
    cases hprofile
  · obtain rfl := (h.close_iff hclosed hperform).2 hcloses
    exact ⟨rfl, fun _ _ => rfl⟩

theorem Consistent.close_owner (h : Consistent events s) {env : Environment host} {outcome : Outcome}
    (hreturned : Returned events lease) (hopen : ¬ Closed events lease)
    (hrecord : s.records lease = some record) (hcloses : outcome.Closes)
    (hperform : perform s (.close env lease) = (outcome, s')) :
    (∀ stream, stream ∈ s'.process.live ↔ stream ∈ s.process.live ∧ stream ∉ record.streams) ∧
      (∀ borrower, Returned events borrower → BorrowsFrom s borrower lease →
        ∀ info, infoOf s' borrower ≠ .info info) ∧
      ∀ other ≠ lease, ¬ BorrowsFrom s other lease → infoOf s' other = infoOf s other := by
  have hafter := h.performed hperform
  obtain ⟨record', hfound, -, hretired⟩ := h.closed_retired hopen hcloses hperform
  have hsame := (tryGetValue_some_iff.mp hfound).2
  rw [hrecord] at hsame
  obtain rfl := Option.some.inj hsame
  refine ⟨?_, ?_, fun other hne howner => h.infoOf_retired hretired hne fun _ => howner⟩
  · intro stream
    rw [hretired.live]
    refine and_congr_right fun hlive => ?_
    constructor
    · intro hne hstream
      exact hne stream hstream rfl
    · intro hnot other hother hid
      -- a live stream with the number of one of this lease is that one
      obtain ⟨holder, hmem, held, hheld, hstream⟩ := h.live_iff.mp hlive
      have heq := h.disjoint (h.member_iff.mp hmem).1 hheld hreturned hrecord hstream hother hid
      subst heq
      rw [hrecord] at hheld
      obtain rfl := Option.some.inj hheld
      exact hnot hstream
  · intro borrower hborrower hborrows info hinfo
    obtain ⟨-, -, howner⟩ := hafter.info_iff.mp ⟨info, hinfo⟩
    have hborrows' : BorrowsFrom s' borrower lease := by
      obtain ⟨record', hrecord', hkind⟩ := hborrows
      by_cases hne : borrower = lease
      · subst hne
        rw [hrecord] at hrecord'
        obtain rfl := Option.some.inj hrecord'
        exact ⟨{ record with streams := [], disposed := true },
          by rw [hretired.records, Function.update_self], hkind⟩
      · exact ⟨record', by rw [hretired.records, Function.update_of_ne hne, hrecord'], hkind⟩
    exact howner lease hborrows' (closed_concat.mpr (.inr ⟨env, outcome, rfl, hcloses⟩))

theorem Consistent.open_failed (h : Consistent events s) {env : Environment host} {arguments : OpenArguments}
    {failure : Failure} (hperform : perform s (.open env arguments) = (.failed failure, s')) :
    failure ≠ .unfinished ∧ Unregistered s s' ∧ ∀ lease, infoOf s' lease = infoOf s lease := by
  have hspec := @openProfileExecutionLease_spec host env s h.fresh arguments
  simp only [perform] at hperform
  cases hrun : openProfileExecutionLease env arguments s with
  | ok lease s'' =>
    rw [hrun] at hperform
    cases hperform
  | error failure s'' =>
    obtain ⟨hfailure, hunregistered⟩ := hspec.error hrun
    rw [hrun] at hperform
    cases hperform
    exact ⟨hfailure, hunregistered, h.infoOf_unregistered hunregistered⟩

theorem Consistent.open_lease (h : Consistent events s) {env : Environment host} {arguments : OpenArguments}
    (hperform : perform s (.open env arguments) = (.lease lease, s')) :
    ¬ Returned events lease ∧ ∃ record, s'.records lease = some record ∧
      ((∃ owner, record.kind = .borrower owner ∧ Returned events owner ∧ ¬ Closed events owner ∧
          s'.process = s.process) ∨
        ((∀ owner, record.kind ≠ .borrower owner) ∧ HoldsRequested env arguments record ∧
          s'.process.live = s.process.live ++ record.streams ∧
          s'.process.next = s.process.next + record.streams.length)) := by
  have hspec := @openProfileExecutionLease_spec host env s h.fresh arguments
  simp only [perform] at hperform
  cases hrun : openProfileExecutionLease env arguments s with
  | error failure s'' =>
    rw [hrun] at hperform
    cases hperform
  | ok lease s'' =>
    have hopened := hspec.ok hrun
    rw [hrun] at hperform
    cases hperform
    have hnew : ¬ Returned events s.nextHandle := fun hreturned => (h.returned_lt hreturned).false
    cases hopened with
    | @borrower owner found record parent hactive _ _ _ hkind =>
      obtain ⟨howner, hopen, -⟩ := h.active_iff.mp hactive
      exact ⟨hnew, record, Function.update_self .., .inl ⟨owner, hkind, howner, hopen, rfl⟩⟩
    | @owner state record hlimit hwalked hkind hpath hstreams =>
      refine ⟨hnew, record, Function.update_self .., .inr ⟨?_, ?_, ?_, ?_⟩⟩
      · intro owner hborrower
        rcases hkind with hkind | hkind
        · rw [hkind] at hborrower
          cases hborrower
        · rw [hkind] at hborrower
          cases hborrower
      · exact hwalked.holdsRequested hlimit.1 hkind hstreams
      · rw [hstreams]
        exact hwalked.inv.live
      · rw [hstreams]
        exact hwalked.inv.next

/-- The laws hold behind every sequence of calls. -/
theorem executionLease_laws (calls : List (Call host)) : LeaseLaws (afterCalls calls).1 (afterCalls calls).2 := by
  have h := consistent_afterCalls calls
  exact
    { live := fun _ => h.live_owner_iff
      info := fun _ => h.info_iff
      close_again := fun env _ hclosed => h.close_again hclosed env
      close := fun _ _ _ _ hopen hperform => h.close_iff hopen hperform
      close_borrower := fun _ _ _ _ _ hborrows hperform => h.close_borrower hborrows hperform
      close_owner := fun _ _ _ _ _ hreturned hopen hrecord _ hcloses hperform =>
        h.close_owner hreturned hopen hrecord hcloses hperform
      open_failed := fun _ _ _ _ hperform => h.open_failed hperform
      open_lease := fun _ _ _ _ hperform => h.open_lease hperform }

/-- The arguments of an open that asks for the runner script and for the directories below both roots. -/
def sampleArguments : OpenArguments :=
  { runnerRoot := "/run"
    targetRoot := "/target"
    controlFiles := ["/run/scripts/00-Run-Profile.ps1"]
    closureRoots := ["/run/scripts", "/target"]
    maximumItems := 100 }

/-- An open by a profile run, the open of its local child, the information about that borrower, a close that
    is refused to the child, the close of the owner, the information again, and an open that finds one file
    in use. -/
def sampleCalls : List (Call sampleHost) :=
  let profile := "/run/scripts/00-Run-Profile.ps1"
  let child := "/run/scripts/00-Run-Local.ps1"
  [.open (sampleEnvironment [profile] []) sampleArguments,
    .open (sampleEnvironment [child, profile] []) sampleArguments,
    .info 1,
    .close (sampleEnvironment [child] []) 0,
    .close (sampleEnvironment [profile] []) 0,
    .info 1,
    .open (sampleEnvironment [child] ["/target/40-A.ps1"]) sampleArguments]

theorem executionLease_laws_sample :
    (afterCalls sampleCalls).1.map Prod.snd =
        [.lease 0, .lease 1, .info ⟨.borrower 0, "/run", "/target", 0, 0⟩,
          .failed (.thrown ("Only the registered lease owner or borrower invocation may dispose this " ++
            "lease identity.")),
          .closed, .failed (.thrown "Execution lease is disposed or its owner is no longer live."),
          .failed (.thrown "The process cannot access the file.")] ∧
      (afterCalls (sampleCalls.take 2)).2.process.live.map Stream.path =
        ["/run/scripts/00-Run-Profile.ps1", "/run/scripts/00-Run-Local.ps1", "/target/40-A.ps1"] ∧
      (afterCalls sampleCalls).2.process = ⟨5, []⟩ ∧
      LeaseLaws (afterCalls (sampleCalls.take 2)).1 (afterCalls (sampleCalls.take 2)).2 ∧
      LeaseLaws (afterCalls sampleCalls).1 (afterCalls sampleCalls).2 :=
  ⟨by decide +kernel, by decide +kernel, by decide +kernel, executionLease_laws (sampleCalls.take 2),
    executionLease_laws sampleCalls⟩

end BaselineOps.ExecutionLease
