import Mathlib
import BaselineOps.Capabilities.SecurityOptions
import BaselineOps.Capabilities.SidText
import BaselineOps.Lib.Bisect
import BaselineOps.Lib.Split

/-!
# Local administrators audit

Model of `evaluate_local_admins` (`local_admins_policy.rs`, lines 90–307): the evidence that the members
give, and its comparison with the allow-list by binary search in sorted lists.

* `evaluateLocalAdmins_drift`: the three lists are the differences of the set of observed SIDs and the
  allow-list, in ascending order, and the drift findings stand for the two lists that are not empty.
* `isBuiltinAdministratorSid_iff`: the test of prefix and suffix, in terms of the components.
-/

namespace BaselineOps.Capabilities

open BaselineOps.Domain BaselineOps.Lib

/-! ## Evidence -/

/-- `Observation` (`wef_time_policy.rs`, lines 63–83). -/
inductive Observation (α : Type) where
  | present (value : α)
  | missing
  | accessDenied
  | timedOut
  | truncated
  | failed (exitCode : Int32)
  | notRun
  | unparsed

/-- `LocalAdministratorMember` (lines 53–60). -/
structure LocalAdministratorMember where
  sid : Observation String
  accountName : Observation String
  sidUse : UInt32

/-- `LocalAdminsObservation` (lines 65–72). -/
structure LocalAdminsObservation where
  groupName : Observation String
  members : Observation (List LocalAdministratorMember)
  enumerationComplete : Bool

/-- `LocalAdminsAudit` (lines 77–88). -/
structure LocalAdminsAudit where
  observation : LocalAdminsObservation
  missingAllowedSids : List String
  unexpectedMemberSids : List String
  protectedBuiltinAdministratorSids : List String
  findings : List PolicyFinding

/-- `MembershipEvaluation` (lines 121–126). -/
structure MembershipEvaluation where
  missingAllowed : List String := []
  unexpected : List String := []
  protectedBuiltin : List String := []

/-- `MemberEvidence` (lines 145–149). -/
structure MemberEvidence where
  observed : List String := []
  protectedBuiltin : List String := []

/-- `observation_state` (lines 281–292). -/
def Observation.state {α : Type} : Observation α → String
  | .present _ => "present"
  | .missing => "missing"
  | .accessDenied => "access_denied"
  | .timedOut => "timed_out"
  | .truncated => "truncated"
  | .failed _ => "failed"
  | .notRun => "not_run"
  | .unparsed => "unparsed"

/-- The finding for evidence that is not complete (lines 269–278). -/
def incompleteFinding (code state : String) : PolicyFinding where
  code := code
  status := .warning
  severity := .medium
  message := "Required local Administrators evidence is incomplete: " ++ state ++ "."
  evidence := ⟨[("observation_status", .string state)], List.pairwise_singleton _ _⟩

/-- `incomplete` (lines 265–279). -/
def incomplete {α : Type} (code : String) (value : Observation α) (findings : List PolicyFinding) :
    List PolicyFinding :=
  match value with
  | .present _ => findings
  | value => findings ++ [incompleteFinding code value.state]

/-- `finding` (lines 294–307). -/
def localAdminsFinding (code : String) (status : FindingStatus) (severity : Severity)
    (message : String) : PolicyFinding where
  code := code
  status := status
  severity := severity
  message := message
  evidence := ⟨[("read_only", .bool true)], List.pairwise_singleton _ _⟩

/-- `is_builtin_administrator_sid` (lines 261–263). -/
def isBuiltinAdministratorSid (sid : String) : Bool :=
  "S-1-5-21-".toList.isPrefixOf sid.toList && "-500".toList.isSuffixOf sid.toList

/-! ## Evaluation -/

/-- `collect_member_sid` (lines 170–183). -/
def collectMemberSid (member : LocalAdministratorMember)
    (state : MemberEvidence × List PolicyFinding) : MemberEvidence × List PolicyFinding :=
  match member.sid with
  | .present sid =>
    ({ observed := state.1.observed ++ [sid]
       protectedBuiltin :=
        if isBuiltinAdministratorSid sid then state.1.protectedBuiltin ++ [sid]
        else state.1.protectedBuiltin }, state.2)
  | value => (state.1, incomplete "LOCALADM-MemberSidIncomplete" value state.2)

/-- The body of the loop in `collect_member_evidence`. -/
def collectMember (state : MemberEvidence × List PolicyFinding) (member : LocalAdministratorMember) :
    MemberEvidence × List PolicyFinding :=
  let state := collectMemberSid member state
  (state.1, incomplete "LOCALADM-MemberNameIncomplete" member.accountName state.2)

/-- `collect_member_evidence` (lines 151–168). -/
def collectMemberEvidence (members : List LocalAdministratorMember) (findings : List PolicyFinding) :
    MemberEvidence × List PolicyFinding :=
  members.foldl collectMember ({}, findings)

/-- The finding for allowed SIDs that are no members (lines 229–234). -/
def allowedMemberMissing : PolicyFinding :=
  localAdminsFinding "LOCALADM-AllowedMemberMissing" .fail .high
    "Configured allowed SID values are absent from direct Administrators-group membership."

/-- The finding for members outside the allow-list (lines 237–242). -/
def unexpectedMember : PolicyFinding :=
  localAdminsFinding "LOCALADM-UnexpectedMember" .fail .high
    "Direct Administrators-group membership includes SID values outside the typed allow-list."

/-- `append_drift_findings` (lines 223–244). -/
def appendDriftFindings (missingAllowed unexpected : List String) (findings : List PolicyFinding) :
    List PolicyFinding :=
  let findings := if missingAllowed = [] then findings else findings ++ [allowedMemberMissing]
  if unexpected = [] then findings else findings ++ [unexpectedMember]

/-- `compare_allow_list` (lines 185–221). -/
def compareAllowList (evidence : MemberEvidence) (parameters : LocalAdminsParameters)
    (findings : List PolicyFinding) : MembershipEvaluation × List PolicyFinding :=
  if parameters.allowedSids = [] then
    ({ protectedBuiltin := evidence.protectedBuiltin },
      findings ++ [localAdminsFinding "LOCALADM-AllowListNotConfigured" .warning .high
        "No typed SID allow-list was supplied; member drift is intentionally not inferred."])
  else
    let allowed := sortUnstable parameters.allowedSids
    let missingAllowed := allowed.filter fun sid => binarySearch evidence.observed sid = false
    let unexpected := evidence.observed.filter fun sid =>
      isBuiltinAdministratorSid sid = false && binarySearch allowed sid = false
    (⟨missingAllowed, unexpected, evidence.protectedBuiltin⟩,
      appendDriftFindings missingAllowed unexpected findings)

/-- `evaluate_members` (lines 128–143). -/
def evaluateMembers (observation : Observation (List LocalAdministratorMember))
    (parameters : LocalAdminsParameters) (findings : List PolicyFinding) :
    MembershipEvaluation × List PolicyFinding :=
  match observation with
  | .present members =>
    let (evidence, findings) := collectMemberEvidence members findings
    compareAllowList
      { observed := sortDedup evidence.observed
        protectedBuiltin := sortDedup evidence.protectedBuiltin } parameters findings
  | observation => ({}, incomplete "LOCALADM-MembersIncomplete" observation findings)

/-- `evaluate_local_admins` (lines 92–119). -/
def evaluateLocalAdmins (observation : LocalAdminsObservation) (parameters : LocalAdminsParameters) :
    LocalAdminsAudit :=
  let findings := incomplete "LOCALADM-GroupNameIncomplete" observation.groupName []
  let findings := if observation.enumerationComplete then findings else
    findings ++ [localAdminsFinding "LOCALADM-EnumerationIncomplete" .warning .medium
      "Direct local Administrators-group enumeration exceeded its fixed record bound."]
  let (membership, findings) := evaluateMembers observation.members parameters findings
  { observation := observation
    missingAllowedSids := membership.missingAllowed
    unexpectedMemberSids := membership.unexpected
    protectedBuiltinAdministratorSids := membership.protectedBuiltin
    findings := findings }

/-! ## What the members show -/

/-- The SID is that of a member. -/
def Observed (members : List LocalAdministratorMember) (sid : String) : Prop :=
  ∃ member ∈ members, member.sid = .present sid

theorem observed_cons {member : LocalAdministratorMember} {members : List LocalAdministratorMember}
    {sid : String} : Observed (member :: members) sid ↔
      member.sid = .present sid ∨ Observed members sid := by
  simp [Observed]

theorem collectMember_evidence (state : MemberEvidence × List PolicyFinding)
    (member : LocalAdministratorMember) (sid : String) :
    (sid ∈ (collectMember state member).1.observed ↔
      sid ∈ state.1.observed ∨ member.sid = .present sid) ∧
    (sid ∈ (collectMember state member).1.protectedBuiltin ↔
      sid ∈ state.1.protectedBuiltin ∨
        member.sid = .present sid ∧ isBuiltinAdministratorSid sid = true) := by
  unfold collectMember collectMemberSid
  cases hsid : member.sid with
  | present value =>
    have hvalue : sid = value ↔ value = sid := eq_comm
    by_cases hbuiltin : isBuiltinAdministratorSid value = true
    · simp only [hbuiltin, if_true, List.mem_append, List.mem_singleton, hvalue,
        Observation.present.injEq, true_and]
      constructor
      · rintro (h | rfl)
        · exact .inl h
        · exact .inr ⟨rfl, hbuiltin⟩
      · rintro (h | ⟨rfl, -⟩)
        · exact .inl h
        · exact .inr rfl
    · simp only [hbuiltin, List.mem_append, List.mem_singleton, hvalue,
        Observation.present.injEq, true_and]
      constructor
      · exact .inl
      · rintro (h | ⟨rfl, h⟩)
        · exact h
        · exact absurd h hbuiltin
  | _ => simp

theorem collectMemberEvidence_evidence (members : List LocalAdministratorMember)
    (findings : List PolicyFinding) (sid : String) :
    (sid ∈ (collectMemberEvidence members findings).1.observed ↔ Observed members sid) ∧
    (sid ∈ (collectMemberEvidence members findings).1.protectedBuiltin ↔
      Observed members sid ∧ isBuiltinAdministratorSid sid = true) := by
  have hrun : ∀ (members : List LocalAdministratorMember) state,
      (sid ∈ (members.foldl collectMember state).1.observed ↔
        sid ∈ state.1.observed ∨ Observed members sid) ∧
      (sid ∈ (members.foldl collectMember state).1.protectedBuiltin ↔
        sid ∈ state.1.protectedBuiltin ∨
          Observed members sid ∧ isBuiltinAdministratorSid sid = true) := by
    intro members
    induction members with
    | nil =>
      intro state
      simp [Observed]
    | cons member members ih =>
      intro state
      obtain ⟨hobserved, hbuiltin⟩ := ih (collectMember state member)
      obtain ⟨hobserved', hbuiltin'⟩ := collectMember_evidence state member sid
      rw [List.foldl_cons, hobserved, hobserved', hbuiltin, hbuiltin', observed_cons, or_assoc,
        or_assoc, or_and_right]
      exact ⟨Iff.rfl, Iff.rfl⟩
  obtain ⟨hobserved, hbuiltin⟩ := hrun members ({}, findings)
  unfold collectMemberEvidence
  rw [hobserved, hbuiltin]
  simp

/-! ## The built-in Administrator -/

/-- The SID of an account with the relative identifier 500 in a domain. -/
def IsRid500 (sid : String) : Prop :=
  ∃ domain, sid.toList.splitOn '-' = [['S'], ['1'], ['5'], ['2', '1']] ++ domain ++ [['5', '0', '0']]

theorem isBuiltinAdministratorSid_iff {sid : String} :
    isBuiltinAdministratorSid sid = true ↔ IsRid500 sid := by
  unfold isBuiltinAdministratorSid IsRid500
  rw [Bool.and_eq_true, List.isPrefixOf_iff_prefix, List.isSuffixOf_iff_suffix]
  generalize sid.toList = text
  have hhead : "S-1-5-21-".toList = ['-'].intercalate [['S'], ['1'], ['5'], ['2', '1']] ++ ['-'] := by
    decide
  have hlast : "-500".toList = '-' :: ['5', '0', '0'] := by decide
  rw [hhead, hlast]
  constructor
  · rintro ⟨⟨rest, rfl⟩, ⟨front, hfront⟩⟩
    have hsplit : (['-'].intercalate [['S'], ['1'], ['5'], ['2', '1']] ++ ['-'] ++ rest).splitOn '-' =
        [['S'], ['1'], ['5'], ['2', '1']] ++ rest.splitOn '-' := by
      rw [List.append_assoc, List.singleton_append, List.splitOn_append_cons_self]
      rfl
    have hsplit' : (front ++ '-' :: ['5', '0', '0']).splitOn '-' =
        front.splitOn '-' ++ [['5', '0', '0']] := by
      rw [List.splitOn_append_cons_self]
      rfl
    have hne : rest.splitOn '-' ≠ [] := List.splitOn_ne_nil '-' rest
    rw [← List.dropLast_append_getLast hne, ← List.append_assoc] at hsplit
    rw [hfront, hsplit] at hsplit'
    refine ⟨(rest.splitOn '-').dropLast, ?_⟩
    rw [hsplit, List.append_inj_right' hsplit' rfl]
  · rintro ⟨domain, hsplit⟩
    have htext : text = ['-'].intercalate
        ([['S'], ['1'], ['5'], ['2', '1']] ++ domain ++ [['5', '0', '0']]) := by
      rw [← hsplit, List.intercalate_splitOn]
    constructor
    · rw [htext, List.append_assoc, intercalate_append (by simp) (by simp)]
      exact ⟨['-'].intercalate (domain ++ [['5', '0', '0']]), by simp⟩
    · rw [htext, intercalate_append (by simp) (by simp)]
      exact ⟨_, rfl⟩

/-! ## Drift -/

/-- The codes of the drift findings. -/
def driftCodes : List String := [allowedMemberMissing.code, unexpectedMember.code]

theorem incomplete_codes {α : Type} {code : String} {value : Observation α}
    {findings : List PolicyFinding} (hcode : code ∉ driftCodes)
    (h : ∀ finding ∈ findings, finding.code ∉ driftCodes) :
    ∀ finding ∈ incomplete code value findings, finding.code ∉ driftCodes := by
  cases value with
  | present _ => exact h
  | _ =>
    intro finding hfinding
    rcases List.mem_append.mp hfinding with hfinding | hfinding
    · exact h finding hfinding
    · rw [List.mem_singleton.mp hfinding]
      exact hcode

theorem collectMemberEvidence_codes {members : List LocalAdministratorMember}
    {findings : List PolicyFinding} (h : ∀ finding ∈ findings, finding.code ∉ driftCodes) :
    ∀ finding ∈ (collectMemberEvidence members findings).2, finding.code ∉ driftCodes := by
  have hrun : ∀ (members : List LocalAdministratorMember) (state : MemberEvidence × List PolicyFinding),
      (∀ finding ∈ state.2, finding.code ∉ driftCodes) →
      ∀ finding ∈ (members.foldl collectMember state).2, finding.code ∉ driftCodes := by
    intro members
    induction members with
    | nil => exact fun state h => h
    | cons member members ih =>
      intro state h
      refine ih _ (incomplete_codes (by decide) ?_)
      unfold collectMemberSid
      split
      · exact h
      · exact incomplete_codes (by decide) h
  exact hrun members _ h

/-- The findings of an audit before its comparison. -/
def evidenceFindings (observation : LocalAdminsObservation) : List PolicyFinding :=
  let findings := incomplete "LOCALADM-GroupNameIncomplete" observation.groupName []
  if observation.enumerationComplete then findings else
    findings ++ [localAdminsFinding "LOCALADM-EnumerationIncomplete" .warning .medium
      "Direct local Administrators-group enumeration exceeded its fixed record bound."]

theorem evidenceFindings_codes (observation : LocalAdminsObservation) :
    ∀ finding ∈ evidenceFindings observation, finding.code ∉ driftCodes := by
  have hgroup : ∀ finding ∈ incomplete "LOCALADM-GroupNameIncomplete" observation.groupName [],
      finding.code ∉ driftCodes := incomplete_codes (by decide) (by simp)
  unfold evidenceFindings
  split_ifs
  · exact hgroup
  · intro finding hfinding
    rcases List.mem_append.mp hfinding with hfinding | hfinding
    · exact hgroup finding hfinding
    · rw [List.mem_singleton.mp hfinding]
      exact (by decide : "LOCALADM-EnumerationIncomplete" ∉ driftCodes)

theorem exists_code_append_iff {condition : Prop} [Decidable condition] {findings : List PolicyFinding}
    {finding : PolicyFinding} {code : String} :
    (∃ f ∈ if condition then findings else findings ++ [finding], f.code = code) ↔
      (∃ f ∈ findings, f.code = code) ∨ ¬ condition ∧ finding.code = code := by
  split_ifs with h
  · simp [h]
  · simp [h, or_and_right, exists_or]

/-- The drift findings behind others are those of the lists that are not empty. -/
theorem appendDriftFindings_iff {missingAllowed unexpected : List String} {findings : List PolicyFinding}
    (h : ∀ finding ∈ findings, finding.code ∉ driftCodes) :
    ((∃ finding ∈ appendDriftFindings missingAllowed unexpected findings,
      finding.code = allowedMemberMissing.code) ↔ missingAllowed ≠ []) ∧
    ((∃ finding ∈ appendDriftFindings missingAllowed unexpected findings,
      finding.code = unexpectedMember.code) ↔ unexpected ≠ []) := by
  have hne : allowedMemberMissing.code ≠ unexpectedMember.code := by decide
  have hnone : ∀ code ∈ driftCodes, ¬ ∃ finding ∈ findings, finding.code = code := by
    rintro code hcode ⟨finding, hfinding, rfl⟩
    exact h finding hfinding hcode
  unfold appendDriftFindings
  constructor
  · rw [exists_code_append_iff, exists_code_append_iff]
    simp [hnone allowedMemberMissing.code (by decide), hne.symm]
  · rw [exists_code_append_iff, exists_code_append_iff]
    simp [hnone unexpectedMember.code (by decide), hne]

/-- What an audit says about the drift of a group with these members from an allow-list. -/
structure Drift (members : List LocalAdministratorMember) (allowed : List String)
    (audit : LocalAdminsAudit) : Prop where
  missing : ∀ sid, sid ∈ audit.missingAllowedSids ↔ sid ∈ allowed ∧ ¬ Observed members sid
  unexpected : ∀ sid, sid ∈ audit.unexpectedMemberSids ↔
    (Observed members sid ∧ sid ∉ allowed) ∧ ¬ IsRid500 sid
  protectedBuiltin : ∀ sid, sid ∈ audit.protectedBuiltinAdministratorSids ↔
    Observed members sid ∧ IsRid500 sid
  missing_sorted : audit.missingAllowedSids.SortedLT
  unexpected_sorted : audit.unexpectedMemberSids.SortedLT
  protectedBuiltin_sorted : audit.protectedBuiltinAdministratorSids.SortedLT
  missing_finding : (∃ finding ∈ audit.findings, finding.code = allowedMemberMissing.code) ↔
    audit.missingAllowedSids ≠ []
  unexpected_finding : (∃ finding ∈ audit.findings, finding.code = unexpectedMember.code) ↔
    audit.unexpectedMemberSids ≠ []

theorem evaluateLocalAdmins_spec {observation : LocalAdminsObservation}
    {parameters : LocalAdminsParameters} {members : List LocalAdministratorMember}
    (hmembers : observation.members = .present members) (hvalid : parameters.validate = .ok ())
    (hne : parameters.allowedSids ≠ []) :
    Drift members parameters.allowedSids (evaluateLocalAdmins observation parameters) := by
  obtain ⟨-, -, hnodup⟩ := validate_ok_iff.mp hvalid
  have hevidence := collectMemberEvidence_evidence members (evidenceFindings observation)
  have hcodes := @collectMemberEvidence_codes members _ (evidenceFindings_codes observation)
  -- the lists of the audit, with the two searches as membership
  have hobserved : ∀ sid, binarySearch
      (sortDedup (collectMemberEvidence members (evidenceFindings observation)).1.observed) sid = true ↔
      Observed members sid := fun sid => by
    rw [binarySearch_iff (sortedLT_sortDedup _).sortedLE, mem_sortDedup, (hevidence sid).1]
  have hallowed : ∀ sid, binarySearch (sortUnstable parameters.allowedSids) sid = true ↔
      sid ∈ parameters.allowedSids := fun sid => by
    rw [binarySearch_iff (sortedLE_sortUnstable _), mem_sortUnstable]
  have haudit : evaluateLocalAdmins observation parameters =
      let evidence := collectMemberEvidence members (evidenceFindings observation)
      let missingAllowed := (sortUnstable parameters.allowedSids).filter fun sid =>
        binarySearch (sortDedup evidence.1.observed) sid = false
      let unexpected := (sortDedup evidence.1.observed).filter fun sid =>
        isBuiltinAdministratorSid sid = false &&
          binarySearch (sortUnstable parameters.allowedSids) sid = false
      ⟨observation, missingAllowed, unexpected, sortDedup evidence.1.protectedBuiltin,
        appendDriftFindings missingAllowed unexpected evidence.2⟩ := by
    unfold evaluateLocalAdmins evaluateMembers
    rw [hmembers]
    simp only [compareAllowList, if_neg hne]
    rfl
  have hsorted : (sortUnstable parameters.allowedSids).SortedLT := by
    rw [List.sortedLT_iff_nodup_and_sortedLE]
    exact ⟨(List.perm_insertionSort _ _).nodup_iff.mpr hnodup, sortedLE_sortUnstable _⟩
  rw [haudit]
  refine ⟨fun sid => ?_, fun sid => ?_, fun sid => ?_, (hsorted.pairwise.filter _).sortedLT,
    ((sortedLT_sortDedup _).pairwise.filter _).sortedLT, sortedLT_sortDedup _,
    (appendDriftFindings_iff hcodes).1, (appendDriftFindings_iff hcodes).2⟩
  · rw [List.mem_filter, mem_sortUnstable, decide_eq_true_iff, Bool.eq_false_iff, ne_eq, hobserved]
  · rw [List.mem_filter, mem_sortDedup, (hevidence sid).1, Bool.and_eq_true, decide_eq_true_iff,
      decide_eq_true_iff, Bool.eq_false_iff, Bool.eq_false_iff, ne_eq, ne_eq, hallowed,
      isBuiltinAdministratorSid_iff]
    tauto
  · rw [mem_sortDedup, (hevidence sid).2, isBuiltinAdministratorSid_iff]

/-- The drift of a group from an accepted allow-list is set algebra: neither the order nor the number of
    the members counts, nor the order of the list. -/
theorem evaluateLocalAdmins_drift {observation : LocalAdminsObservation}
    {parameters : LocalAdminsParameters} {members : List LocalAdministratorMember}
    (hmembers : observation.members = .present members) (hvalid : parameters.validate = .ok ())
    (hne : parameters.allowedSids ≠ []) :
    Drift members parameters.allowedSids (evaluateLocalAdmins observation parameters) ∧
    ∀ (observation' : LocalAdminsObservation) (members' : List LocalAdministratorMember)
      (parameters' : LocalAdminsParameters), observation'.members = .present members' →
      (∀ member, member ∈ members' ↔ member ∈ members) →
      parameters'.allowedSids.Perm parameters.allowedSids →
      let audit := evaluateLocalAdmins observation parameters
      let audit' := evaluateLocalAdmins observation' parameters'
      audit'.missingAllowedSids = audit.missingAllowedSids ∧
        audit'.unexpectedMemberSids = audit.unexpectedMemberSids ∧
        audit'.protectedBuiltinAdministratorSids = audit.protectedBuiltinAdministratorSids := by
  have hdrift := evaluateLocalAdmins_spec hmembers hvalid hne
  refine ⟨hdrift, fun observation' members' parameters' hmembers' hsame hperm => ?_⟩
  have hvalid' : parameters'.validate = .ok () := by
    rw [validate_ok_iff] at hvalid ⊢
    obtain ⟨hlength, hcanonical, hnodup⟩ := hvalid
    exact ⟨by rwa [hperm.length_eq], fun value hvalue => hcanonical value (hperm.mem_iff.mp hvalue),
      hperm.nodup_iff.mpr hnodup⟩
  have hne' : parameters'.allowedSids ≠ [] := fun hnil => hne (by rwa [hnil, List.nil_perm] at hperm)
  have hdrift' := evaluateLocalAdmins_spec hmembers' hvalid' hne'
  have hobserved : ∀ sid, Observed members' sid ↔ Observed members sid := fun sid => by
    simp only [Observed, hsame]
  refine ⟨hdrift'.missing_sorted.eq_of_mem_iff hdrift.missing_sorted fun sid => ?_,
    hdrift'.unexpected_sorted.eq_of_mem_iff hdrift.unexpected_sorted fun sid => ?_,
    hdrift'.protectedBuiltin_sorted.eq_of_mem_iff hdrift.protectedBuiltin_sorted fun sid => ?_⟩
  · rw [hdrift'.missing, hdrift.missing, hperm.mem_iff, hobserved]
  · rw [hdrift'.unexpected, hdrift.unexpected, hperm.mem_iff, hobserved]
  · rw [hdrift'.protectedBuiltin, hdrift.protectedBuiltin, hobserved]

/-- A group of the built-in Administrator, listed twice, against a list with another account. -/
theorem evaluateLocalAdmins_drift_sample :
    let member : LocalAdministratorMember := ⟨.present "S-1-5-21-1-2-3-500", .missing, 1⟩
    let audit := evaluateLocalAdmins ⟨.present "Administrators", .present [member, member], true⟩
      ⟨["S-1-5-21-1-2-3-1001"]⟩
    Drift [member, member] ["S-1-5-21-1-2-3-1001"] audit ∧
      audit.protectedBuiltinAdministratorSids ≠ [] := by
  intro member audit
  have hdrift := (@evaluateLocalAdmins_drift
    ⟨.present "Administrators", .present [member, member], true⟩ ⟨["S-1-5-21-1-2-3-1001"]⟩
    [member, member] rfl (by decide +kernel) (by decide)).1
  refine ⟨hdrift, List.ne_nil_of_mem ((hdrift.protectedBuiltin "S-1-5-21-1-2-3-500").mpr ?_)⟩
  exact ⟨⟨member, List.mem_cons_self, rfl⟩, isBuiltinAdministratorSid_iff.mp (by decide +kernel)⟩

end BaselineOps.Capabilities
