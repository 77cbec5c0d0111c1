import Mathlib
import BaselineOps.Domain.KeyOrder
import BaselineOps.Planner.Derive

/-!
# Rebuilding a reviewed plan

Model of `baselineops-engine/src/planner.rs`, lines 254–330. The worker rebuilds a reviewed plan from
its own observations and compares the two. The plan it returns is put together from fields of both;
`rebuildReviewedApplyPlan_authority` says that it is the reviewed plan.
-/

namespace BaselineOps.Engine

open BaselineOps.Domain BaselineOps.Lib

/-! ## The model -/

/-- `same_reviewed_bindings` (lines 306–330). -/
def SameReviewedBindings (reviewed fresh : PlanV3) : Prop :=
  reviewed.profileId = fresh.profileId ∧ reviewed.profileDigest = fresh.profileDigest ∧
  reviewed.host = fresh.host ∧ reviewed.tool = fresh.tool ∧
  reviewed.packageDigest = fresh.packageDigest ∧ reviewed.source = fresh.source ∧
  reviewed.input = fresh.input ∧ reviewed.resources = fresh.resources ∧
  reviewed.observedState.digest = fresh.observedState.digest ∧ reviewed.actions = fresh.actions

instance (reviewed fresh : PlanV3) : Decidable (SameReviewedBindings reviewed fresh) :=
  inferInstanceAs (Decidable (_ ∧ _))

/-- `validate_reviewed_authority` (lines 299–304). -/
def validateReviewedAuthority (reviewed fresh : PlanV3) : Except PlanningError Unit :=
  failIf (fresh.expiresAt < reviewed.expiresAt ∨ ¬ SameReviewedBindings reviewed fresh)
    .reviewedEnvelopeMismatch

/-- The plan that is put together (lines 273–291). -/
def stitchedPlan (reviewed fresh : PlanV3) : PlanV3 where
  schemaVersion := fresh.schemaVersion
  id := reviewed.id
  runId := reviewed.runId
  intent := fresh.intent
  profileId := fresh.profileId
  profileDigest := fresh.profileDigest
  host := fresh.host
  tool := fresh.tool
  packageDigest := fresh.packageDigest
  source := fresh.source
  input := fresh.input
  resources := fresh.resources
  observedState := reviewed.observedState
  issuedAt := reviewed.issuedAt
  expiresAt := reviewed.expiresAt
  actions := fresh.actions
  metadata := reviewed.metadata

/-- `rebuild_reviewed_apply_plan` (lines 260–297). -/
def rebuildReviewedApplyPlan (d : Deps) (planId : PlanId) (runId : RunId) (reviewed : PlanV3)
    (profile : ProfileV3) (context : PlanBuildContext) (deriver : TrustedActionDeriver)
    (now : DateTime) : Panicking PlanningError WorkerPlan := do
  fromExcept (failIf (reviewed.intent ≠ .apply) .reviewedEnvelopeMismatch)
  let _ ← wrapError PlanningError.domain (reviewed.validateAt d now)
  let fresh ← buildPlan d planId runId profile context deriver now
  fromExcept (validateReviewedAuthority reviewed fresh.plan)
  let plan := stitchedPlan reviewed fresh.plan
  let _ ← wrapError PlanningError.domain (plan.validateStructure d)
  return ⟨plan, canonicalJsonDigest d (plan.toValue d)⟩

/-! ## Times -/

theorem dateTime?_eq_some {secs frac : ℤ} {t : DateTime} (h : dateTime? secs frac = some t) :
    t.secs = secs ∧ (t.frac.val : ℤ) = frac := by
  unfold dateTime? at h
  split at h
  · rename_i hrange
    cases Option.some.inj h
    refine ⟨rfl, ?_⟩
    show ((frac.toNat : ℕ) : ℤ) = frac
    omega
  · cases h

/-- Adding a second or more: the sum in nanoseconds, with a leap second counted as the second before
    it. The sum is not in a leap second. -/
theorem checkedAddSigned_eq_some {t e : DateTime} {duration : Duration}
    (hduration : (Duration.seconds 1).nanos ≤ duration.nanos)
    (h : checkedAddSigned t duration = some e) :
    e.secs * 1000000000 + e.frac.val =
        t.secs * 1000000000 + (t.frac.val : ℤ) % 1000000000 + duration.nanos ∧
      (e.frac.val : ℤ) < 1000000000 := by
  have hone : 1000000000 ≤ duration.nanos := hduration
  have hsum := Int.mul_tdiv_add_tmod duration.nanos 1000000000
  have hfrac := Int.tmod_nonneg 1000000000 (show 0 ≤ duration.nanos by omega)
  have hfracLt := Int.tmod_lt_of_pos duration.nanos (show (0 : ℤ) < 1000000000 by decide)
  have ht := t.frac.isLt
  unfold checkedAddSigned addBase at h
  dsimp only at h
  generalize duration.nanos.tdiv 1000000000 = secsToAdd at hsum h
  generalize duration.nanos.tmod 1000000000 = fracToAdd at hsum hfrac hfracLt h
  have hsecs : 0 < secsToAdd := by omega
  rw [if_neg (by omega)] at h
  rw [if_pos (Or.inl hsecs : 0 < secsToAdd ∨ _)] at h
  split_ifs at h
  all_goals
    obtain ⟨hesecs, hefrac⟩ := dateTime?_eq_some h
    dsimp only at hesecs hefrac
    omega

/-- A longer duration does not end earlier. -/
theorem checkedAddSigned_mono {t e e' : DateTime} {duration duration' : Duration}
    (hduration : (Duration.seconds 1).nanos ≤ duration.nanos)
    (hle : duration.nanos ≤ duration'.nanos) (h : checkedAddSigned t duration = some e)
    (h' : checkedAddSigned t duration' = some e') : ¬ e' < e := by
  obtain ⟨hsum, hfrac⟩ := checkedAddSigned_eq_some hduration h
  obtain ⟨hsum', hfrac'⟩ := checkedAddSigned_eq_some (hduration.trans hle) h'
  intro hlt
  have hlt' : e'.secs < e.secs ∨ e'.secs = e.secs ∧ e'.frac.val < e.frac.val := hlt
  omega

/-! ## Observed facts -/

/-- What was observed for every step: capability, digest of the parameters and facts, these without
    the order of object members. -/
def observedFacts (state : ObservedStateV3) : List (ActionId × CapabilityId × Sha256Digest × Value) :=
  state.values.entries.map fun entry => (entry.1, entry.2.capability, entry.2.parametersDigest,
    sortKeys (.object entry.2.facts.entries))

/-- The member that stands for an observation in the hashed value. -/
def factsMember (fact : ActionId × CapabilityId × Sha256Digest × Value) : String × Value :=
  (fact.1.uuid.toText, .array [.string fact.2.1.asStr, .string fact.2.2.1.toHex, fact.2.2.2])

theorem factsMember_injective : Function.Injective factsMember := by
  rintro ⟨step, capability, digest, facts⟩ ⟨step', capability', digest', facts'⟩ h
  simp only [factsMember, Prod.mk.injEq, Value.array.injEq, List.cons.injEq, Value.string.injEq,
    and_true] at h
  obtain ⟨hstep, hcapability, hdigest, rfl⟩ := h
  rw [ActionId.ext (Uuid.toText_injective hstep), CapabilityId.ext hcapability,
    Sha256Digest.toHex_injective hdigest]

theorem ActionId.Lt.asymm {a b : ActionId} (h : a.Lt b) : ¬ b.Lt a := by
  unfold ActionId.Lt at *
  exact (List.Lex.asymm (α := UInt8) (· < ·)).asymm _ _ h

/-- Equal hashed values are equal facts, step by step. -/
theorem observedFacts_eq {state state' : ObservedStateV3}
    (h : sortKeys state.factsValue = sortKeys state'.factsValue) :
    observedFacts state = observedFacts state' := by
  have hmembers : ∀ s : ObservedStateV3, ∃ members, sortKeys s.factsValue = .object members ∧
      members.Perm ((observedFacts s).map factsMember) := by
    intro s
    refine ⟨_, by rw [ObservedStateV3.factsValue, sortKeys], ?_⟩
    refine (sortKeys_object_perm _).trans (List.Perm.of_eq ?_)
    rw [List.map_map, observedFacts, List.map_map]
    rfl
  obtain ⟨members, hvalue, hperm⟩ := hmembers state
  obtain ⟨members', hvalue', hperm'⟩ := hmembers state'
  rw [hvalue, hvalue', Value.object.injEq] at h
  subst h
  have hfacts := (List.map_perm_map_iff factsMember_injective).mp (hperm.symm.trans hperm')
  have hsorted : ∀ s : ObservedStateV3, (observedFacts s).Pairwise fun a b => a.1.Lt b.1 := by
    intro s
    rw [observedFacts, List.pairwise_map]
    exact s.values.sorted
  apply hfacts.eq_of_pairwise _ (hsorted state) (hsorted state')
  intro a b _ _ hab hba
  exact absurd hba (ActionId.Lt.asymm hab)

/-- The facts of two states are equal as they are when their objects are maps in key order. -/
theorem facts_eq_of_observedFacts {state state' : ObservedStateV3}
    (h : observedFacts state = observedFacts state')
    (hsorted : ∀ entry ∈ state.values.entries, (Value.object entry.2.facts.entries).KeysSorted)
    (hsorted' : ∀ entry ∈ state'.values.entries, (Value.object entry.2.facts.entries).KeysSorted) :
    List.Forall₂ (fun entry entry' => entry.1 = entry'.1 ∧ entry.2.capability = entry'.2.capability ∧
      entry.2.parametersDigest = entry'.2.parametersDigest ∧
      entry.2.facts.entries = entry'.2.facts.entries) state.values.entries state'.values.entries := by
  unfold observedFacts at h
  rw [map_eq_map_iff_forall₂, forall₂_congr_mem] at h
  · exact h
  · intro entry hentry entry' hentry'
    rw [sortKeys_of_keysSorted (hsorted entry hentry),
      sortKeys_of_keysSorted (hsorted' entry' hentry')]
    simp only [Prod.mk.injEq, Value.object.injEq]

/-! ## The rebuilt plan -/

/-- The inversion of `rebuild_reviewed_apply_plan`. -/
theorem rebuildReviewedApplyPlan_ok {d : Deps} {planId : PlanId} {runId : RunId} {reviewed : PlanV3}
    {profile : ProfileV3} {context : PlanBuildContext} {deriver : TrustedActionDeriver}
    {now : DateTime} {worker : WorkerPlan}
    (h : rebuildReviewedApplyPlan d planId runId reviewed profile context deriver now =
      some (.ok worker)) :
    reviewed.intent = .apply ∧ (∃ order, reviewed.validateAt d now = some (.ok order)) ∧
      ∃ fresh, buildPlan d planId runId profile context deriver now = some (.ok fresh) ∧
        ¬ fresh.plan.expiresAt < reviewed.expiresAt ∧ SameReviewedBindings reviewed fresh.plan ∧
        worker.plan = stitchedPlan reviewed fresh.plan ∧
        worker.digest = canonicalJsonDigest d (worker.plan.toValue d) := by
  unfold rebuildReviewedApplyPlan validateReviewedAuthority at h
  simp only [panicking_bind_ok_iff, wrapError_ok_iff, fromExcept_ok_iff, failIf_ok_iff, not_or,
    not_not] at h
  obtain ⟨_, hintent, order, hvalid, fresh, hfresh, _, ⟨hexpires, hsame⟩, _, _, h⟩ := h
  cases Except.ok.inj (Option.some.inj h)
  exact ⟨hintent, ⟨order, hvalid⟩, fresh, hfresh, hexpires, hsame, rfl, rfl⟩

/-- The plan that is put together from equal bindings is the reviewed plan. -/
theorem stitchedPlan_eq {reviewed fresh : PlanV3} (hintent : reviewed.intent = fresh.intent)
    (hsame : SameReviewedBindings reviewed fresh) : stitchedPlan reviewed fresh = reviewed := by
  obtain ⟨hprofile, hprofileDigest, hhost, htool, hpackage, hsource, hinput, hresources, -,
    hactions⟩ := hsame
  unfold stitchedPlan
  rw [← hintent, ← hprofile, ← hprofileDigest, ← hhost, ← htool, ← hpackage, ← hsource, ← hinput,
    ← hresources, ← hactions]

/-- A rebuilt plan is the reviewed plan. -/
theorem rebuildReviewedApplyPlan_eq {d : Deps} {planId : PlanId} {runId : RunId} {reviewed : PlanV3}
    {profile : ProfileV3} {context : PlanBuildContext} {deriver : TrustedActionDeriver}
    {now : DateTime} {worker : WorkerPlan} (hintent : context.intent = .apply)
    (h : rebuildReviewedApplyPlan d planId runId reviewed profile context deriver now =
      some (.ok worker)) :
    worker = ⟨reviewed, canonicalJsonDigest d (reviewed.toValue d)⟩ := by
  obtain ⟨hreviewed, -, fresh, hfresh, -, hsame, hplan, hdigest⟩ := rebuildReviewedApplyPlan_ok h
  obtain ⟨_, _, _, _, _, _, hproposed, _⟩ := buildPlan_ok hfresh
  have hfreshIntent : fresh.plan.intent = .apply := by
    rw [hproposed]
    exact hintent
  rw [stitchedPlan_eq (hreviewed.trans hfreshIntent.symm) hsame] at hplan
  rw [hplan] at hdigest
  cases worker
  dsimp only at hplan hdigest
  rw [hplan, hdigest]

/-- The two observed states have the same digest, hence the same bytes, hence the same facts. -/
theorem rebuildReviewedApplyPlan_facts {d : Deps} {planId : PlanId} {runId : RunId}
    {reviewed : PlanV3} {profile : ProfileV3} {context : PlanBuildContext}
    {deriver : TrustedActionDeriver} {now : DateTime} {worker : WorkerPlan} (hd : d.LawfulText)
    (hfree : Set.InjOn d.sha256 {canonicalJsonBytes d reviewed.observedState.factsValue,
      canonicalJsonBytes d context.observedState.factsValue})
    (h : rebuildReviewedApplyPlan d planId runId reviewed profile context deriver now =
      some (.ok worker)) :
    observedFacts reviewed.observedState = observedFacts context.observedState := by
  obtain ⟨-, ⟨order, hvalidAt⟩, fresh, hfresh, -, hsame, -, -⟩ := rebuildReviewedApplyPlan_ok h
  obtain ⟨hvalid, -⟩ := PlanV3.validateAt_ok hvalidAt
  obtain ⟨order', limit, actions, listed, hinputs, -, hproposed, -, -⟩ := buildPlan_ok hfresh
  obtain ⟨-, hobserved, -⟩ := validateBuildInputs_ok hinputs
  have hdigest : d.sha256 (canonicalJsonBytes d reviewed.observedState.factsValue) =
      d.sha256 (canonicalJsonBytes d context.observedState.factsValue) := by
    have hfreshDigest : fresh.plan.observedState.digest = context.observedState.digest := by
      rw [hproposed, proposedPlan]
    rw [← canonicalJsonDigest_eq, ← canonicalJsonDigest_eq]
    calc reviewed.observedState.calculatedDigest d = reviewed.observedState.digest := hvalid.observed
      _ = fresh.plan.observedState.digest := hsame.2.2.2.2.2.2.2.2.1
      _ = context.observedState.digest := hfreshDigest
      _ = context.observedState.calculatedDigest d := (ObservedStateV3.validate_ok hobserved).symm
  exact observedFacts_eq (canonicalJsonBytes_inj hd (hfree (by simp) (by simp) hdigest))

/-- Rebuilding a reviewed plan neither changes nor extends its authority. SHA-256 is assumed to have
    no collision between the two observed states. -/
theorem rebuildReviewedApplyPlan_authority {d : Deps} {planId : PlanId} {runId : RunId}
    {reviewed : PlanV3} {profile : ProfileV3} {context : PlanBuildContext}
    {deriver : TrustedActionDeriver} {now : DateTime} {worker : WorkerPlan} (hd : d.LawfulText)
    (hfree : Set.InjOn d.sha256 {canonicalJsonBytes d reviewed.observedState.factsValue,
      canonicalJsonBytes d context.observedState.factsValue})
    (hintent : context.intent = .apply)
    (h : rebuildReviewedApplyPlan d planId runId reviewed profile context deriver now =
      some (.ok worker)) :
    worker.plan = reviewed ∧
      worker.digest = canonicalJsonDigest d (reviewed.toValue d) ∧
      observedFacts worker.plan.observedState = observedFacts context.observedState ∧
      ((∀ entry ∈ worker.plan.observedState.values.entries,
          (Value.object entry.2.facts.entries).KeysSorted) →
        (∀ entry ∈ context.observedState.values.entries,
          (Value.object entry.2.facts.entries).KeysSorted) →
        List.Forall₂ (fun entry entry' => entry.1 = entry'.1 ∧
            entry.2.capability = entry'.2.capability ∧
            entry.2.parametersDigest = entry'.2.parametersDigest ∧
            entry.2.facts.entries = entry'.2.facts.entries)
          worker.plan.observedState.values.entries context.observedState.values.entries) ∧
      now < worker.plan.expiresAt ∧
      (∃ limit, checkedAddSigned now context.lifetime = some limit ∧
        ¬ limit < worker.plan.expiresAt ∧
        context.lifetime.nanos ≤ (Duration.hours 24).nanos ∧
        ∀ day, checkedAddSigned now (Duration.hours 24) = some day → ¬ day < limit) ∧
      (∀ expiry ∈ profile.expiresAt, now < expiry) ∧
      ∀ (planId' : PlanId) (runId' : RunId) (profile' : ProfileV3) (context' : PlanBuildContext)
        (deriver' : TrustedActionDeriver) (now' : DateTime) (worker' : WorkerPlan),
        context'.intent = .apply →
        rebuildReviewedApplyPlan d planId' runId' reviewed profile' context' deriver' now' =
          some (.ok worker') → worker' = worker := by
  have hworker := rebuildReviewedApplyPlan_eq hintent h
  obtain ⟨-, ⟨order, hvalidAt⟩, fresh, hfresh, hexpires, hsame, -, -⟩ := rebuildReviewedApplyPlan_ok h
  obtain ⟨-, hnow⟩ := PlanV3.validateAt_ok hvalidAt
  obtain ⟨order', limit, actions, listed, hinputs, -, hproposed, -, -⟩ := buildPlan_ok hfresh
  obtain ⟨-, -, hprofile, hmin, hmax, hlimit⟩ := validateBuildInputs_ok hinputs
  have hfacts := rebuildReviewedApplyPlan_facts hd hfree h
  have hfreshExpiry : fresh.plan.expiresAt = limit := by rw [hproposed, proposedPlan]
  rw [hworker]
  refine ⟨rfl, rfl, hfacts, facts_eq_of_observedFacts hfacts, hnow, ⟨limit, hlimit, ?_, hmax, ?_⟩,
    hprofile, ?_⟩
  · rw [← hfreshExpiry]
    exact hexpires
  · intro day hday
    exact checkedAddSigned_mono hmin hmax hlimit hday
  · intro planId' runId' profile' context' deriver' now' worker' hintent' h'
    exact rebuildReviewedApplyPlan_eq hintent' h'

theorem sample_rebuild : rebuildReviewedApplyPlan referenceDeps ⟨⟨Vector.replicate 16 0⟩⟩
    ⟨⟨Vector.replicate 16 1⟩⟩ (samplePlan referenceDeps) sampleProfile (sampleContext referenceDeps)
    (registryActionDeriver referenceDeps sampleRegistry) ⟨0, 0, by decide, by decide⟩ =
      some (.ok ⟨samplePlan referenceDeps,
        canonicalJsonDigest referenceDeps ((samplePlan referenceDeps).toValue referenceDeps)⟩) := by
  have hsame : SameReviewedBindings (samplePlan referenceDeps) (samplePlan referenceDeps) :=
    ⟨rfl, rfl, rfl, rfl, rfl, rfl, rfl, rfl, rfl, rfl⟩
  unfold rebuildReviewedApplyPlan validateReviewedAuthority PlanV3.validateAt
  simp only [panicking_bind_ok_iff, wrapError_ok_iff, fromExcept_ok_iff, failIf_ok_iff,
    refuseIf_ok_iff]
  refine ⟨(), fun h => h rfl, _, ⟨_, samplePlan_validate, (), ?_, rfl⟩, _, sample_buildPlan, (), ?_,
    ⟨[sampleActionId 1, sampleActionId 2]⟩, ?_, ?_⟩
  · exact fun h => h (show (⟨0, 0, by decide, by decide⟩ : DateTime) <
      ⟨3600, 0, by decide, by decide⟩ by decide)
  · rintro (h | h)
    · exact absurd h (show ¬ (⟨3600, 0, by decide, by decide⟩ : DateTime) <
        ⟨3600, 0, by decide, by decide⟩ by decide)
    · exact h hsame
  · rw [stitchedPlan_eq rfl hsame]
    exact samplePlan_validate
  · rw [stitchedPlan_eq rfl hsame]
    rfl

theorem rebuildReviewedApplyPlan_authority_sample : ∃ worker,
    rebuildReviewedApplyPlan referenceDeps ⟨⟨Vector.replicate 16 0⟩⟩ ⟨⟨Vector.replicate 16 1⟩⟩
      (samplePlan referenceDeps) sampleProfile (sampleContext referenceDeps)
      (registryActionDeriver referenceDeps sampleRegistry) ⟨0, 0, by decide, by decide⟩ =
        some (.ok worker) ∧
    worker.plan = samplePlan referenceDeps := by
  refine ⟨_, sample_rebuild, ?_⟩
  exact (rebuildReviewedApplyPlan_authority referenceDeps_lawful (by simp [samplePlan, proposedPlan])
    rfl sample_rebuild).1

end BaselineOps.Engine
