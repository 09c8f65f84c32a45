import TraigentSchema.EvaluatorQuality.Aggregation

/-!
# The verdicts of an evaluator-quality bundle

No verdict over all axes is better than that of the weakest instrument-adequacy claim, a claim
passes only under an independent reference and without a selection bias, and the code of the result
follows from the four claims.
-/

namespace TraigentSchema.EvaluatorQuality

open TraigentSchema.Certification
open TraigentSchema.Traverse

/-! ## Results -/

inductive ResultCode where
  | evaluatorQualityVerified
  | evaluatorQualityClaimsPartial
  deriving DecidableEq

/-- `EvaluatorQualityVerificationResult`, but for the evidence on the trust status. -/
structure EvaluatorQualityVerificationResult where
  code : ResultCode
  instrumentAdequacy : Verdict
  calibrationVerdict : Verdict
  agreementVerdict : Verdict
  sensitivityVerdict : Verdict
  reliabilityVerdict : Verdict
  overallVerdict : Verdict
  referenceIndependence : ReferenceIndependence
  heldOutStatus : HeldOutStatus
  overallQualityPpm : Option ℤ

/-- The three conditions on the code. -/
def fullySupported (adequacy : Verdict) (independence : ReferenceIndependence)
    (status : HeldOutStatus) : Bool :=
  adequacy == .passed && independence == .evaluatorIndependent &&
    (status == .noSelectionPerformed || status == .heldOutDisjoint)

/-- `__post_init__`, which refuses two combinations with a `ValueError`. -/
def EvaluatorQualityVerificationResult.make (result : EvaluatorQualityVerificationResult) :
    Checked EvaluatorQualityVerificationResult :=
  if result.code = .evaluatorQualityVerified ∧
      fullySupported result.instrumentAdequacy result.referenceIndependence
        result.heldOutStatus = false then .error .other
  else if result.code = .evaluatorQualityClaimsPartial ∧ result.instrumentAdequacy = .passed then
    .error .other
  else .ok result

/-- The result of a bundle, as `_verify_evaluator_quality_public` fills it in. -/
def resultOf (bundle : AggregatedBundle) : EvaluatorQualityVerificationResult where
  code :=
    if fullySupported bundle.overall.instrumentAdequacyVerdict bundle.referenceIndependence
      bundle.heldOutStatus then .evaluatorQualityVerified else .evaluatorQualityClaimsPartial
  instrumentAdequacy := bundle.overall.instrumentAdequacyVerdict
  calibrationVerdict := bundle.verdictOf .evq3
  agreementVerdict := bundle.verdictOf .evq2
  sensitivityVerdict := bundle.verdictOf .evq4
  reliabilityVerdict := bundle.verdictOf .evq5
  overallVerdict := bundle.overall.verdict
  referenceIndependence := bundle.referenceIndependence
  heldOutStatus := bundle.heldOutStatus
  overallQualityPpm := bundle.overall.overallQualityPpm

/-- The checks that lead to the aggregate, and the result. -/
def verifyAggregate (bundle : AggregatedBundle) : Checked EvaluatorQualityVerificationResult := do
  checkAggregate bundle
  (resultOf bundle).make

/-! ## The weakest claim -/

section Accepted

variable {bundle : AggregatedBundle} {u : Unit}

theorem worstRank_le {claimId : ClaimId} (hclaim : claimId ∈ instrumentClaimIds) :
    worstRank bundle ≤ (bundle.verdictOf claimId).rank := by
  simp only [instrumentClaimIds, List.mem_cons, List.not_mem_nil, or_false] at hclaim
  rcases hclaim with rfl | rfl | rfl | rfl <;> simp [worstRank, instrumentClaimIds]

theorem Verdict.eq_passed_of_rank {verdict : Verdict} (hrank : Verdict.passed.rank ≤ verdict.rank) :
    verdict = .passed := by
  cases verdict <;> simp_all [Verdict.rank]

/-- The worst rank is that of `passed` only when every claim has passed. -/
theorem worstRank_eq_passed_iff :
    worstRank bundle = Verdict.passed.rank ↔
      ∀ claimId ∈ instrumentClaimIds, bundle.verdictOf claimId = .passed := by
  constructor
  · intro hworst claimId hclaim
    exact Verdict.eq_passed_of_rank (hworst ▸ worstRank_le hclaim)
  · intro hall
    simp only [instrumentClaimIds, List.forall_mem_cons] at hall
    obtain ⟨h₂, h₃, h₄, h₅, _⟩ := hall
    simp [worstRank, instrumentClaimIds, h₂, h₃, h₄, h₅]

/-- The stated adequacy has the rank of the worst claim. -/
theorem adequacy_rank (haggregated : Aggregated bundle) :
    bundle.overall.instrumentAdequacyVerdict.rank = worstRank bundle := by
  have hadequacy := haggregated.adequacy
  rw [checkInstrumentAdequacy, ensure_eq_ok_iff, beq_iff_eq] at hadequacy
  simpa using List.find?_some hadequacy.symm

theorem adequacy_eq_passed_iff (haggregated : Aggregated bundle) :
    bundle.overall.instrumentAdequacyVerdict = .passed ↔
      ∀ claimId ∈ instrumentClaimIds, bundle.verdictOf claimId = .passed := by
  calc
    bundle.overall.instrumentAdequacyVerdict = .passed ↔
        bundle.overall.instrumentAdequacyVerdict.rank = Verdict.passed.rank :=
      Verdict.rank_injective.eq_iff.symm
    _ ↔ worstRank bundle = Verdict.passed.rank := by rw [adequacy_rank haggregated]
    _ ↔ ∀ claimId ∈ instrumentClaimIds, bundle.verdictOf claimId = .passed :=
      worstRank_eq_passed_iff

/-- A claim passes only under an uncapped reference and an acceptable held-out status. -/
theorem uncapped_of_passed (haggregated : Aggregated bundle) {claimId : ClaimId}
    (hclaim : claimId ∈ instrumentClaimIds) (hpassed : bundle.verdictOf claimId = .passed) :
    bundle.referenceCapped = false ∧ bundle.heldOutAcceptable = true := by
  have hsome : noInstrumentPassed bundle = false := by
    rw [noInstrumentPassed, List.all_eq_false]
    exact ⟨claimId, hclaim, by simp [hpassed]⟩
  have hreference := haggregated.referenceCapping
  have hheldOut := haggregated.heldOutCapping
  rw [checkReferenceCapping, ensure_eq_ok_iff, hsome, Bool.or_false] at hreference
  rw [checkHeldOutCapping, ensure_eq_ok_iff, hsome, Bool.or_false] at hheldOut
  exact ⟨by simpa using hreference, hheldOut⟩

/-- A required axis whose claim is not supported makes the bundle abstain. -/
theorem abstains_of_unsupported (haggregated : Aggregated bundle) {weight : AggregationWeight}
    (hweight : weight ∈ bundle.policy.weights) (hrequired : weight.requiredAxis = true)
    {claimId : ClaimId} (haxis : weight.axis.instrumentClaim = some claimId)
    (hpassed : bundle.verdictOf claimId ≠ .passed)
    (hdirectional : bundle.verdictOf claimId ≠ .directional) :
    bundle.overall.verdict = .abstain := by
  have hcompleteness := haggregated.completeness
  rw [checkRequiredAxisCompleteness, forM_eq_ok_iff] at hcompleteness
  have hcomplete := hcompleteness weight hweight
  rw [ensure_eq_ok_iff, axisComplete, haxis, hrequired] at hcomplete
  simpa [hpassed, hdirectional] using hcomplete

/-- The conditions on the code hold exactly when the stated adequacy is `passed`. -/
theorem fullySupported_iff (haggregated : Aggregated bundle) :
    fullySupported bundle.overall.instrumentAdequacyVerdict bundle.referenceIndependence
        bundle.heldOutStatus = true ↔
      bundle.overall.instrumentAdequacyVerdict = .passed := by
  constructor
  · intro hsupported
    simp only [fullySupported, Bool.and_eq_true, beq_iff_eq] at hsupported
    exact hsupported.1.1
  · intro hpassed
    have hall := (adequacy_eq_passed_iff haggregated).mp hpassed
    obtain ⟨hreference, hheldOut⟩ :=
      uncapped_of_passed haggregated (show ClaimId.evq2 ∈ instrumentClaimIds from by decide)
        (hall _ (by simp [instrumentClaimIds]))
    simp only [AggregatedBundle.referenceCapped, Bool.or_eq_false_iff] at hreference
    simp only [AggregatedBundle.heldOutAcceptable] at hheldOut
    have hindependent : bundle.referenceIndependence = .evaluatorIndependent := by
      simpa using hreference.2
    simp [fullySupported, hpassed, hindependent, hheldOut]

/-- An accepted bundle always has a result; its code says that all four claims have passed, and
no other verdict exceeds what the claims, the reference and the selection support. -/
theorem verdicts_supported (hok : checkAggregate bundle = .ok u) :
    (∃ result, verifyAggregate bundle = .ok result ∧
      (result.code = .evaluatorQualityVerified ↔
        ∀ claimId ∈ instrumentClaimIds, bundle.verdictOf claimId = .passed)) ∧
    (∀ claimId ∈ instrumentClaimIds,
      bundle.overall.verdict.rank ≤ (bundle.verdictOf claimId).rank ∧
      (bundle.verdictOf claimId = .passed →
        bundle.referenceCapped = false ∧ bundle.heldOutAcceptable = true)) ∧
    ∀ weight ∈ bundle.policy.weights, weight.requiredAxis = true →
      ∀ claimId, weight.axis.instrumentClaim = some claimId →
        bundle.verdictOf claimId ≠ .passed → bundle.verdictOf claimId ≠ .directional →
          bundle.overall.verdict = .abstain ∧ bundle.overall.overallQualityPpm = none := by
  have haggregated := aggregated_of_ok hok
  have hsupported := fullySupported_iff haggregated
  have hadequacy := adequacy_eq_passed_iff haggregated
  refine ⟨⟨resultOf bundle, ?_, ?_⟩, ?_, ?_⟩
  · -- The two refused combinations are those on which the gates and the adequacy disagree.
    have hmake : (resultOf bundle).make = .ok (resultOf bundle) := by
      rw [EvaluatorQualityVerificationResult.make, if_neg, if_neg]
      · by_cases hpassed : bundle.overall.instrumentAdequacyVerdict = .passed
        · simp [resultOf, hsupported.mpr hpassed]
        · simp [resultOf, hpassed]
      · cases hgates : fullySupported bundle.overall.instrumentAdequacyVerdict
          bundle.referenceIndependence bundle.heldOutStatus <;> simp [resultOf, hgates]
    cases u
    rw [verifyAggregate, hok, ok_bind, hmake]
  · rw [← hadequacy, ← hsupported]
    cases hgates : fullySupported bundle.overall.instrumentAdequacyVerdict
      bundle.referenceIndependence bundle.heldOutStatus <;> simp [resultOf, hgates]
  · intro claimId hclaim
    have hcapped := haggregated.capped
    rw [checkOverallVerdictCapped, ensure_eq_ok_iff, decide_eq_true_eq,
      adequacy_rank haggregated] at hcapped
    exact ⟨hcapped.trans (worstRank_le hclaim), uncapped_of_passed haggregated hclaim⟩
  · intro weight hweight hrequired claimId haxis hpassed hdirectional
    have habstains := abstains_of_unsupported haggregated hweight hrequired haxis hpassed
      hdirectional
    exact ⟨habstains, bundle.overall.withheld.mpr (Or.inl habstains)⟩

/-- The example without support for its reliability: adequacy and quality are withheld. -/
def abstainingBundle : AggregatedBundle :=
  { exampleBundle with
    verdictOf := fun claimId => if claimId = .evq5 then .abstain else .passed
    overall := ⟨.abstain, .abstain, none, by decide⟩ }

theorem checkAggregate_abstainingBundle : checkAggregate abstainingBundle = .ok () := by
  decide +kernel

/-- One unsupported claim leaves the bundle with a result, and without an overall verdict. -/
theorem verdicts_supported_abstaining :
    (∃ result, verifyAggregate abstainingBundle = .ok result ∧
      result.code ≠ .evaluatorQualityVerified) ∧
    abstainingBundle.overall.verdict.rank ≤ (abstainingBundle.verdictOf .evq5).rank ∧
    abstainingBundle.overall.verdict = .abstain ∧
      abstainingBundle.overall.overallQualityPpm = none := by
  obtain ⟨⟨result, hresult, hcode⟩, hweakest, hrequired⟩ :=
    verdicts_supported checkAggregate_abstainingBundle
  refine ⟨⟨result, hresult, fun hverified => ?_⟩, (hweakest .evq5 (by decide)).1, ?_⟩
  · exact absurd (hcode.mp hverified .evq5 (by decide)) (by decide)
  · have hweight : ⟨.reliability, 250000, true⟩ ∈ abstainingBundle.policy.weights := by
      simp [abstainingBundle, exampleBundle, exampleWeights]
    exact hrequired _ hweight rfl .evq5 rfl (by decide) (by decide)

end Accepted

end TraigentSchema.EvaluatorQuality
