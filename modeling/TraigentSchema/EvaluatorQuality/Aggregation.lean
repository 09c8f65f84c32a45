import TraigentSchema.EvaluatorQuality.PlanContainment
import TraigentSchema.Library.HalfEven

/-!
# The aggregate of an evaluator-quality bundle

The overall verdict is capped by the worst of the four instrument-adequacy claims, and the overall
quality is the nearest integer, ties to even, to the weighted mean of the point values of four
axes.  The fifth axis, efficiency, has no weight.
-/

namespace TraigentSchema.EvaluatorQuality

open TraigentSchema.Certification
open TraigentSchema.HalfEven
open TraigentSchema.Traverse

/-! ## Bundles -/

inductive Verdict where
  | failed
  | abstain
  | directional
  | passed
  deriving DecidableEq

/-- `_VERDICT_RANK`. -/
def Verdict.rank : Verdict → ℕ
  | .failed => 0
  | .abstain => 1
  | .directional => 2
  | .passed => 3

theorem Verdict.rank_injective : Function.Injective Verdict.rank := by
  intro v w hrank
  cases v <;> cases w <;> simp_all [Verdict.rank]

inductive ClaimId where
  | evq1
  | evq2
  | evq3
  | evq4
  | evq5
  deriving DecidableEq

def instrumentClaimIds : List ClaimId :=
  [.evq2, .evq3, .evq4, .evq5]

inductive Axis where
  | calibration
  | agreement
  | sensitivity
  | reliability
  | efficiency
  deriving DecidableEq

/-- `_AXIS_INSTRUMENT_CLAIM`. -/
def Axis.instrumentClaim : Axis → Option ClaimId
  | .calibration => some .evq3
  | .agreement => some .evq2
  | .sensitivity => some .evq4
  | .reliability => some .evq5
  | .efficiency => none

structure AggregationWeight where
  axis : Axis
  weightPpm : ℕ
  requiredAxis : Bool

/-- One weight for each axis in a fixed order, and none for efficiency, as the schema has it. -/
structure AggregationPolicy where
  weights : List AggregationWeight
  axes : weights.map AggregationWeight.axis =
    [.calibration, .agreement, .sensitivity, .reliability, .efficiency]
  efficiency : ∀ w ∈ weights, w.axis = .efficiency → w.weightPpm = 0 ∧ w.requiredAxis = false

/-- The schema has a quality exactly where the verdict is neither `abstain` nor `failed`. -/
structure Overall where
  verdict : Verdict
  instrumentAdequacyVerdict : Verdict
  overallQualityPpm : Option ℤ
  withheld : overallQualityPpm = none ↔ verdict = .abstain ∨ verdict = .failed

inductive ReferenceKind where
  | verifiableExecution
  | unitTestPass
  | exactMatchGold
  | humanPanelAdjudicated
  | humanSingleRater
  | partialOrder
  | proxyEvaluator
  deriving DecidableEq

inductive ReferenceIndependence where
  | evaluatorIndependent
  | sharesModelFamily
  | sharesPromptLineage
  | sharesImplementation
  | notIndependent
  deriving DecidableEq

inductive HeldOutStatus where
  | noSelectionPerformed
  | heldOutDisjoint
  | overlapsSelectionSet
  | unknown
  deriving DecidableEq

/-- What the checks of the aggregate read of a bundle; there is one support row for each claim. -/
structure AggregatedBundle where
  plan : MeasurementPlan
  policy : AggregationPolicy
  measurements : Measurements
  agreementCeilingPpm : ℕ
  errorFloorPpm : ℕ
  referenceKind : ReferenceKind
  referenceIndependence : ReferenceIndependence
  heldOutStatus : HeldOutStatus
  verdictOf : ClaimId → Verdict
  overall : Overall

/-! ## Capping -/

/-- No instrument-adequacy row reads `passed`. -/
def noInstrumentPassed (bundle : AggregatedBundle) : Bool :=
  instrumentClaimIds.all fun claimId => bundle.verdictOf claimId != .passed

/-- `_CAPPED_REFERENCE_KINDS`, or a reference that is not independent. -/
def AggregatedBundle.referenceCapped (bundle : AggregatedBundle) : Bool :=
  bundle.referenceKind == .proxyEvaluator || bundle.referenceKind == .humanSingleRater ||
    bundle.referenceIndependence != .evaluatorIndependent

def checkReferenceCapping (bundle : AggregatedBundle) : Checked Unit :=
  ensure (!bundle.referenceCapped || noInstrumentPassed bundle) "VERDICT_NOT_SUPPORTED"
    "claim_support_rows"

def AggregatedBundle.heldOutAcceptable (bundle : AggregatedBundle) : Bool :=
  bundle.heldOutStatus == .noSelectionPerformed || bundle.heldOutStatus == .heldOutDisjoint

def checkHeldOutCapping (bundle : AggregatedBundle) : Checked Unit :=
  ensure (bundle.heldOutAcceptable || noInstrumentPassed bundle) "VERDICT_NOT_SUPPORTED"
    "claim_support_rows"

/-! ## The verdict -/

/-- Whether the block of an axis is among the measurements. -/
def Measurements.hasBlock (measurements : Measurements) : Axis → Bool
  | .calibration => measurements.calibration.isSome
  | .agreement => measurements.agreement.isSome
  | .sensitivity => measurements.sensitivity.isSome
  | .reliability => measurements.reliability.isSome
  | .efficiency => true

def checkRequiredAxisMeasurementBlock (bundle : AggregatedBundle) : Checked Unit :=
  forM bundle.policy.weights fun weight =>
    ensure (!weight.requiredAxis || bundle.measurements.hasBlock weight.axis)
      "DECLARED_PLAN_SCOPE_VIOLATION" "declared_plan.aggregation_policy"

def checkAggregationPolicyWeights (bundle : AggregatedBundle) : Checked Unit :=
  ensure ((bundle.policy.weights.map AggregationWeight.weightPpm).sum == 1000000)
    "AGGREGATION_POLICY_MISMATCH" "declared_plan.aggregation_policy"

/-- The rank of the worst verdict of the instrument-adequacy rows. -/
def worstRank (bundle : AggregatedBundle) : ℕ :=
  (instrumentClaimIds.map fun claimId => (bundle.verdictOf claimId).rank).foldr min
    Verdict.passed.rank

def checkInstrumentAdequacy (bundle : AggregatedBundle) : Checked Unit :=
  ensure (some bundle.overall.instrumentAdequacyVerdict ==
      [Verdict.failed, .abstain, .directional, .passed].find? fun verdict =>
        verdict.rank == worstRank bundle)
    "INSTRUMENT_ADEQUACY_MISMATCH" "overall"

/-- A required axis whose claim is supported, or whose lack of support is admitted. -/
def axisComplete (bundle : AggregatedBundle) (weight : AggregationWeight) : Bool :=
  !weight.requiredAxis ||
    match weight.axis.instrumentClaim with
    | none => true
    | some claimId =>
        bundle.verdictOf claimId == .passed || bundle.verdictOf claimId == .directional ||
          bundle.overall.verdict == .abstain

def checkRequiredAxisCompleteness (bundle : AggregatedBundle) : Checked Unit :=
  forM bundle.policy.weights fun weight =>
    ensure (axisComplete bundle weight) "AGGREGATION_RENORMALIZED" "overall"

def checkOverallVerdictCapped (bundle : AggregatedBundle) : Checked Unit :=
  ensure (decide (bundle.overall.verdict.rank ≤ bundle.overall.instrumentAdequacyVerdict.rank))
    "OVERALL_VERDICT_UNSUPPORTED" "overall"

/-! ## The quality -/

def requiredMeasurementRoleRow (measurements : Measurements) (role : MeasurementRole) :
    Checked Measurement := do
  let rows ← measurementRoleRows measurements
  match rowOf rows role with
  | some row => return row
  | none => Certification.fail "AGGREGATION_DERIVATION_MISMATCH" "overall"

/-- `AXIS_POINT_VALUE_ROLE`, but for reliability, whose value is a mean. -/
def Axis.pointValueRole : Axis → Option MeasurementRole
  | .calibration => some .calibrationSlope
  | .agreement => some .agreementPrimary
  | .sensitivity => some .sensitivityDiscriminatingPower
  | .reliability => none
  | .efficiency => none

/-- The mean of the measured probes. -/
def meanOfProbes (probes : List Measurement) : ℤ :=
  roundHalfEven (probes.map Measurement.pointValue).sum probes.length

def axisPointValue (measurements : Measurements) (axis : Axis) : Checked ℤ :=
  if axis = .reliability then
    if measurements.probes.isEmpty then
      Certification.fail "AGGREGATION_DERIVATION_MISMATCH" "overall"
    else .ok (meanOfProbes measurements.probes)
  else
    match axis.pointValueRole with
    | none => Certification.fail "AGGREGATION_DERIVATION_MISMATCH" "overall"
    | some role => do
        let row ← requiredMeasurementRoleRow measurements role
        return row.pointValue

/-- The weights that enter the sum. -/
def summedWeights (weights : List AggregationWeight) : List AggregationWeight :=
  weights.filter fun weight => weight.axis != .efficiency

/-- The weighted quality of some weights over the point values of a measurement set. -/
def recomputedQuality (weights : List AggregationWeight) (measurements : Measurements) :
    Checked ℤ := do
  let terms ← (summedWeights weights).mapM fun weight => do
    let value ← axisPointValue measurements weight.axis
    return value * weight.weightPpm
  return roundHalfEven terms.sum 1000000

def checkAggregationDerivation (bundle : AggregatedBundle) : Checked Unit :=
  if bundle.overall.verdict = .abstain ∨ bundle.overall.verdict = .failed then .ok ()
  else do
    let recomputed ← recomputedQuality bundle.policy.weights bundle.measurements
    ensure (bundle.overall.overallQualityPpm == some recomputed)
      "AGGREGATION_DERIVATION_MISMATCH" "overall"

/-- The checks that lead to the aggregate, in the order of `_verify_evaluator_quality_private`. -/
def checkAggregate (bundle : AggregatedBundle) : Checked Unit := do
  checkSemanticUniqueness bundle.plan
  checkPlanContainment bundle.plan bundle.measurements
  checkRequiredAxisMeasurementBlock bundle
  checkReferenceCeiling bundle.agreementCeilingPpm bundle.measurements
  checkReferenceFloor bundle.errorFloorPpm bundle.measurements
  checkReferenceCapping bundle
  checkHeldOutCapping bundle
  checkAggregationPolicyWeights bundle
  checkInstrumentAdequacy bundle
  checkRequiredAxisCompleteness bundle
  checkOverallVerdictCapped bundle
  checkAggregationDerivation bundle

/-- What the checks establish, one field for each. -/
structure Aggregated (bundle : AggregatedBundle) : Prop where
  uniqueness : checkSemanticUniqueness bundle.plan = .ok ()
  containment : checkPlanContainment bundle.plan bundle.measurements = .ok ()
  blocks : checkRequiredAxisMeasurementBlock bundle = .ok ()
  ceiling : checkReferenceCeiling bundle.agreementCeilingPpm bundle.measurements = .ok ()
  floor : checkReferenceFloor bundle.errorFloorPpm bundle.measurements = .ok ()
  referenceCapping : checkReferenceCapping bundle = .ok ()
  heldOutCapping : checkHeldOutCapping bundle = .ok ()
  weights : checkAggregationPolicyWeights bundle = .ok ()
  adequacy : checkInstrumentAdequacy bundle = .ok ()
  completeness : checkRequiredAxisCompleteness bundle = .ok ()
  capped : checkOverallVerdictCapped bundle = .ok ()
  derivation : checkAggregationDerivation bundle = .ok ()

theorem aggregated_of_ok {bundle : AggregatedBundle} {u : Unit}
    (hok : checkAggregate bundle = .ok u) : Aggregated bundle := by
  simp only [checkAggregate, unit_bind_eq_ok_iff] at hok
  obtain ⟨h₁, h₂, h₃, h₄, h₅, h₆, h₇, h₈, h₉, h₁₀, h₁₁, h₁₂⟩ := hok
  exact ⟨h₁, h₂, h₃, h₄, h₅, h₆, h₇, h₈, h₉, h₁₀, h₁₁, h₁₂⟩

/-! ## The point value of an axis -/

/-- The measurements whose point values make up the value of an axis. -/
def axisRows (measurements : Measurements) (axis : Axis) : List Measurement :=
  if axis = .reliability then measurements.probes
  else axis.pointValueRole.elim [] fun role =>
    measurements.ordered.filter fun row => row.measurementRole == role

section Values

variable {measurements : Measurements} {axis : Axis} {value low high : ℤ}

theorem mem_ordered_of_mem_axisRows {row : Measurement}
    (hrow : row ∈ axisRows measurements axis) : row ∈ measurements.ordered := by
  rw [axisRows] at hrow
  split at hrow
  · exact measurements.mem_ordered_of_mem_probes hrow
  · cases hrole : axis.pointValueRole with
    | none => simp [hrole] at hrow
    | some role =>
        rw [hrole, Option.elim_some] at hrow
        exact (List.mem_filter.mp hrow).1

theorem requiredMeasurementRoleRow_eq_ok {role : MeasurementRole} {row : Measurement}
    (hrow : requiredMeasurementRoleRow measurements role = .ok row) :
    row ∈ measurements.ordered ∧ row.measurementRole = role := by
  simp only [requiredMeasurementRoleRow, bind_eq_ok_iff, measurementRoleRows_eq_ok_iff] at hrow
  obtain ⟨rows, ⟨hnodup, rfl⟩, hrow⟩ := hrow
  split at hrow
  · next found hfound =>
      cases hrow
      exact (rowOf_eq_some_iff hnodup).mp hfound
  · exact absurd hrow (fail_ne_ok _ _ _)

/-- The mean of some probes lies between bounds of their values. -/
theorem meanOfProbes_mem {probes : List Measurement} (hne : probes ≠ [])
    (hrows : ∀ row ∈ probes, low ≤ row.pointValue ∧ row.pointValue ≤ high) :
    low ≤ meanOfProbes probes ∧ meanOfProbes probes ≤ high := by
  have hlength : 0 < (probes.length : ℤ) := by exact_mod_cast List.length_pos_iff.mpr hne
  have hlow : probes.length • low ≤ (probes.map Measurement.pointValue).sum := by
    have hsum := List.card_nsmul_le_sum (probes.map Measurement.pointValue) low
      (by simpa using fun row hrow => (hrows row hrow).1)
    simpa using hsum
  have hhigh : (probes.map Measurement.pointValue).sum ≤ probes.length • high := by
    have hsum := List.sum_le_card_nsmul (probes.map Measurement.pointValue) high
      (by simpa using fun row hrow => (hrows row hrow).2)
    simpa using hsum
  rw [nsmul_eq_mul, mul_comm] at hlow hhigh
  exact roundHalfEven_mem hlength hlow hhigh

/-- The value of an axis lies between bounds of the values it is made of. -/
theorem axisPointValue_mem (hok : axisPointValue measurements axis = .ok value)
    (hrows : ∀ row ∈ axisRows measurements axis, low ≤ row.pointValue ∧ row.pointValue ≤ high) :
    low ≤ value ∧ value ≤ high := by
  rw [axisPointValue] at hok
  split at hok
  · next haxis =>
      rw [axisRows, if_pos haxis] at hrows
      split at hok
      · exact absurd hok (fail_ne_ok _ _ _)
      · next hempty =>
          cases hok
          exact meanOfProbes_mem (by simpa using hempty) hrows
  · next haxis =>
      rw [axisRows, if_neg haxis] at hrows
      split at hok
      · exact absurd hok (fail_ne_ok _ _ _)
      · next role hrole =>
          rw [bind_eq_ok_iff] at hok
          obtain ⟨row, hrow, hvalue⟩ := hok
          cases hvalue
          obtain ⟨hmem, hrowRole⟩ := requiredMeasurementRoleRow_eq_ok hrow
          rw [hrole, Option.elim_some] at hrows
          exact hrows row (List.mem_filter.mpr ⟨hmem, by simp [hrowRole]⟩)

end Values

/-! ## The weighted mean -/

/-- The value of an axis, of one that has a value. -/
def axisValue (measurements : Measurements) (axis : Axis) : ℤ :=
  (axisPointValue measurements axis).toOption.getD 0

/-- The weighted sum of values of the axes. -/
def weightedSum (weights : List AggregationWeight) (value : Axis → ℤ) : ℤ :=
  ((summedWeights weights).map fun weight => value weight.axis * weight.weightPpm).sum

section Mean

variable {weights : List AggregationWeight} {measurements : Measurements} {quality : ℤ}

/-- The sum is monotone in the values of the axes that have a weight. -/
theorem weightedSum_mono {value value' : Axis → ℤ}
    (hle : ∀ weight ∈ summedWeights weights, 0 < weight.weightPpm →
      value weight.axis ≤ value' weight.axis) :
    weightedSum weights value ≤ weightedSum weights value' := by
  apply List.sum_le_sum
  intro weight hweight
  rcases Nat.eq_zero_or_pos weight.weightPpm with hzero | hpos
  · simp [hzero]
  · exact mul_le_mul_of_nonneg_right (hle weight hweight hpos) (Int.natCast_nonneg _)

theorem weightedSum_const (value : ℤ) :
    weightedSum weights (fun _ => value) =
      value * ((summedWeights weights).map AggregationWeight.weightPpm).sum := by
  rw [weightedSum, List.sum_map_mul_left]
  congr 1
  push_cast
  rw [List.map_map]
  rfl

/-- Leaving out an axis without weight does not change the total. -/
theorem sum_summedWeights
    (hzero : ∀ weight ∈ weights, weight.axis = .efficiency → weight.weightPpm = 0) :
    ((summedWeights weights).map AggregationWeight.weightPpm).sum =
      (weights.map AggregationWeight.weightPpm).sum := by
  induction weights with
  | nil => rfl
  | cons weight weights ih =>
      have hrest := ih fun w hw => hzero w (List.mem_cons_of_mem _ hw)
      by_cases haxis : weight.axis = .efficiency
      · have hweight := hzero weight List.mem_cons_self haxis
        simpa [summedWeights, List.filter_cons, haxis, hweight] using hrest
      · simpa [summedWeights, List.filter_cons, haxis] using hrest

/-- The quality is recomputed exactly when every axis of the sum has a value. -/
theorem recomputedQuality_eq_ok_iff :
    recomputedQuality weights measurements = .ok quality ↔
      (∀ weight ∈ summedWeights weights,
        axisPointValue measurements weight.axis = .ok (axisValue measurements weight.axis)) ∧
      roundHalfEven (weightedSum weights (axisValue measurements)) 1000000 = quality := by
  rw [recomputedQuality, bind_eq_ok_iff]
  have hvalue : ∀ {axis : Axis} {value : ℤ}, axisPointValue measurements axis = .ok value →
      axisValue measurements axis = value := by
    intro axis value hok
    simp [axisValue, hok]
  constructor
  · rintro ⟨terms, hterms, hquality⟩
    rw [mapM_eq_ok_iff] at hterms
    have hall : ∀ weight ∈ summedWeights weights,
        axisPointValue measurements weight.axis = .ok (axisValue measurements weight.axis) := by
      intro weight hweight
      obtain ⟨term, _, hterm⟩ := exists_of_mem_left hterms hweight
      obtain ⟨value, hok, _⟩ := bind_eq_ok_iff.mp hterm
      rw [hok, hvalue hok]
    have hmap : (summedWeights weights).map (fun weight =>
        axisValue measurements weight.axis * (weight.weightPpm : ℤ)) = terms.map id := by
      rw [map_eq_map_iff_forall₂]
      apply forall₂_imp_of_mem hterms
      intro weight hweight term _ hterm
      simpa [hall weight hweight] using hterm
    rw [List.map_id] at hmap
    cases hquality
    exact ⟨hall, by rw [weightedSum, hmap]⟩
  · rintro ⟨hall, rfl⟩
    refine ⟨_, mapM_eq_ok_iff.mpr (List.forall₂_map_right_iff.mpr
      (List.forall₂_same.mpr fun weight hweight => ?_)), rfl⟩
    rw [hall weight hweight]
    rfl

end Mean

/-! ## The quality of an accepted bundle -/

section Accepted

variable {bundle : AggregatedBundle} {quality : ℤ} {u : Unit}

/-- The weights of the summed axes are one million in total. -/
theorem sum_summedWeights_of_aggregated (haggregated : Aggregated bundle) :
    ((summedWeights bundle.policy.weights).map AggregationWeight.weightPpm).sum = 1000000 := by
  calc
    ((summedWeights bundle.policy.weights).map AggregationWeight.weightPpm).sum =
        (bundle.policy.weights.map AggregationWeight.weightPpm).sum :=
      sum_summedWeights fun weight hweight haxis =>
        (bundle.policy.efficiency weight hweight haxis).1
    _ = 1000000 := by simpa [checkAggregationPolicyWeights] using haggregated.weights

/-- A stated quality is the recomputed one. -/
theorem recomputedQuality_of_aggregated (haggregated : Aggregated bundle)
    (hquality : bundle.overall.overallQualityPpm = some quality) :
    recomputedQuality bundle.policy.weights bundle.measurements = .ok quality := by
  have hgiven : ¬(bundle.overall.verdict = .abstain ∨ bundle.overall.verdict = .failed) := by
    rw [← bundle.overall.withheld, hquality]
    exact Option.some_ne_none quality
  have hderivation := haggregated.derivation
  rw [checkAggregationDerivation, if_neg hgiven, bind_eq_ok_iff] at hderivation
  obtain ⟨recomputed, hok, hequal⟩ := hderivation
  rw [ensure_eq_ok_iff, hquality, beq_iff_eq, Option.some_inj] at hequal
  rw [hok, hequal]

/-- Every axis but efficiency is summed. -/
theorem exists_summedWeight {axis : Axis} (haxis : axis ≠ .efficiency) :
    ∃ weight ∈ summedWeights bundle.policy.weights, weight.axis = axis := by
  have hmem : axis ∈ bundle.policy.weights.map AggregationWeight.axis := by
    rw [bundle.policy.axes]
    cases axis <;> simp_all
  obtain ⟨weight, hweight, rfl⟩ := List.mem_map.mp hmem
  exact ⟨weight, List.mem_filter.mpr ⟨hweight, by simpa using haxis⟩, rfl⟩

/-- Bounds of the point values of every axis bound the quality. -/
theorem quality_mem_of_axisRows (haggregated : Aggregated bundle)
    (hquality : bundle.overall.overallQualityPpm = some quality) (low high : Axis → ℤ)
    (hrows : ∀ axis, ∀ row ∈ axisRows bundle.measurements axis,
      low axis ≤ row.pointValue ∧ row.pointValue ≤ high axis) :
    roundHalfEven (weightedSum bundle.policy.weights low) 1000000 ≤ quality ∧
      quality ≤ roundHalfEven (weightedSum bundle.policy.weights high) 1000000 := by
  obtain ⟨hvalues, rfl⟩ := recomputedQuality_eq_ok_iff.mp
    (recomputedQuality_of_aggregated haggregated hquality)
  have hmem := fun weight hweight =>
    axisPointValue_mem (hvalues weight hweight) (hrows weight.axis)
  exact ⟨roundHalfEven_mono (by norm_num) (weightedSum_mono fun w hw _ => (hmem w hw).1),
    roundHalfEven_mono (by norm_num) (weightedSum_mono fun w hw _ => (hmem w hw).2)⟩

/-- The quality of an accepted bundle is the nearest integer, ties to even, to the mean of the
values of the four axes by their weights.  Every one of them has a value, required or not. -/
theorem quality_is_weighted_mean (hok : checkAggregate bundle = .ok u)
    (hquality : bundle.overall.overallQualityPpm = some quality) :
    (∀ axis ≠ .efficiency,
      axisPointValue bundle.measurements axis = .ok (axisValue bundle.measurements axis)) ∧
    Nearest ((weightedSum bundle.policy.weights (axisValue bundle.measurements) : ℚ) /
      ((summedWeights bundle.policy.weights).map AggregationWeight.weightPpm).sum) quality ∧
    ∀ low high : ℤ, (∀ weight ∈ summedWeights bundle.policy.weights, 0 < weight.weightPpm →
      low ≤ axisValue bundle.measurements weight.axis ∧
        axisValue bundle.measurements weight.axis ≤ high) → low ≤ quality ∧ quality ≤ high := by
  have haggregated := aggregated_of_ok hok
  have htotal := sum_summedWeights_of_aggregated haggregated
  obtain ⟨hvalues, hround⟩ := recomputedQuality_eq_ok_iff.mp
    (recomputedQuality_of_aggregated haggregated hquality)
  refine ⟨?_, ?_, ?_⟩
  · intro axis haxis
    obtain ⟨weight, hweight, rfl⟩ := exists_summedWeight haxis
    exact hvalues weight hweight
  · rw [htotal]
    exact_mod_cast (roundHalfEven_eq_iff (by norm_num)).mp hround
  · intro low high hbounds
    have hlow : weightedSum bundle.policy.weights (fun _ => low) ≤
        weightedSum bundle.policy.weights (axisValue bundle.measurements) :=
      weightedSum_mono fun w hw hpos => (hbounds w hw hpos).1
    have hhigh : weightedSum bundle.policy.weights (axisValue bundle.measurements) ≤
        weightedSum bundle.policy.weights (fun _ => high) :=
      weightedSum_mono fun w hw hpos => (hbounds w hw hpos).2
    rw [weightedSum_const, htotal] at hlow hhigh
    rw [← hround]
    exact roundHalfEven_mem (by norm_num) (by exact_mod_cast hlow) (by exact_mod_cast hhigh)

/-- The highest value of an axis that the reference admits.  The reliability probes are not
held to its ceiling, nor are rows for which lower is better. -/
def axisCeiling (bundle : AggregatedBundle) (axis : Axis) : ℤ :=
  if axis ≠ .reliability ∧ ∀ row ∈ axisRows bundle.measurements axis,
      row.estimatorParameters.direction = .higherIsBetter then
    bundle.agreementCeilingPpm
  else 1000000

/-- The plan wants the rows of every axis to be high, and at least so high. -/
def PlanDemands (bundle : AggregatedBundle) (threshold : Axis → ℤ) : Prop :=
  ∀ axis, ∀ row ∈ axisRows bundle.measurements axis,
    ∀ planned ∈ bundle.plan.plannedMeasurements,
      planned.measurementRole = row.measurementRole →
        planned.estimatorParameters.direction = .higherIsBetter ∧
          threshold axis ≤ planned.thresholdValue

theorem mem_scopedRoles_of_mem_axisRows {axis : Axis} {row : Measurement}
    (hrow : row ∈ axisRows bundle.measurements axis) (haxis : axis ≠ .reliability) :
    row.measurementRole ∈ referenceStandardScopedRoles := by
  rw [axisRows, if_neg haxis] at hrow
  cases axis <;> simp_all [Axis.pointValueRole, referenceStandardScopedRoles]

/-- The quality is a ratio in parts per million.  What the plan demands of the values that make
up the axes, it demands of the quality, and the reference limits the quality as it limits
them. -/
theorem quality_within_plan_and_reference (hok : checkAggregate bundle = .ok u)
    (hquality : bundle.overall.overallQualityPpm = some quality) :
    (0 ≤ quality ∧ quality ≤ 1000000) ∧
    (∀ threshold, PlanDemands bundle threshold →
      roundHalfEven (weightedSum bundle.policy.weights threshold) 1000000 ≤ quality) ∧
    quality ≤ roundHalfEven (weightedSum bundle.policy.weights (axisCeiling bundle)) 1000000 := by
  have haggregated := aggregated_of_ok hok
  have hconforms := fun axis row (hrow : row ∈ axisRows bundle.measurements axis) =>
    exists_conforms haggregated.containment (mem_ordered_of_mem_axisRows hrow)
  have hunit : ∀ axis, ∀ row ∈ axisRows bundle.measurements axis,
      0 ≤ row.pointValue ∧ row.pointValue ≤ 1000000 := by
    intro axis row hrow
    obtain ⟨planned, _, hconforming⟩ := hconforms axis row hrow
    exact ⟨hconforming.nonneg.trans hconforming.low, hconforming.high.trans hconforming.atMost⟩
  refine ⟨?_, fun threshold hplan => ?_, ?_⟩
  · have hbounds := quality_mem_of_axisRows haggregated hquality (fun _ => 0)
      (fun _ => 1000000) hunit
    rw [weightedSum_const, weightedSum_const,
      sum_summedWeights_of_aggregated haggregated] at hbounds
    exact hbounds
  · refine (quality_mem_of_axisRows haggregated hquality threshold (fun _ => 1000000)
      fun axis row hrow => ⟨?_, (hunit axis row hrow).2⟩).1
    obtain ⟨planned, hplanned, hconforming⟩ := hconforms axis row hrow
    obtain ⟨hdirection, hthreshold⟩ := hplan axis row hrow planned hplanned hconforming.role.symm
    exact hthreshold.trans ((hconforming.higher hdirection).trans hconforming.low)
  · refine (quality_mem_of_axisRows haggregated hquality (fun _ => 0) _
      fun axis row hrow => ⟨(hunit axis row hrow).1, ?_⟩).2
    rw [axisCeiling]
    split_ifs with hlimited
    · obtain ⟨planned, _, hconforming⟩ := hconforms axis row hrow
      exact hconforming.high.trans (le_ceiling_of_ok haggregated.ceiling
        (mem_ordered_of_mem_axisRows hrow) (mem_scopedRoles_of_mem_axisRows hrow hlimited.1)
        (by rw [hconforming.unit]; rfl) (hlimited.2 row hrow))
    · exact (hunit axis row hrow).2

end Accepted

/-! ## A bundle -/

def higherParameters : EstimatorParameters :=
  ⟨.twoSided, .higherIsBetter, .unitInterval, .binary⟩

def lowerParameters : EstimatorParameters :=
  ⟨.twoSided, .lowerIsBetter, .unitInterval, .binary⟩

/-- A row with an interval of so many parts per million on both sides of the point. -/
def exampleRow (role : MeasurementRole) (estimatorId : EstimatorId)
    (parameters : EstimatorParameters) (interval : IntervalParams) (unit : SampleUnit)
    (point radius : ℤ) : Measurement where
  measurementRole := role
  estimatorId := estimatorId
  estimatorParameters := parameters
  valueUnit := .ppmUnsigned
  pointValue := point
  intervalLowValue := point - radius
  intervalHighValue := point + radius
  intervalParams := interval
  nominalCoveragePpm := 950000
  sampleSizeN := 400
  sampleUnit := unit

def wilsonInterval : IntervalParams := ⟨.wilsonScore, none, rfl⟩

def exampleEce : Measurement :=
  exampleRow .calibrationEce .expectedCalibrationError lowerParameters
    ⟨.bootstrapPercentile, some .evaluationItem, rfl⟩ .evaluationItem 40000 10000

def exampleSlope : Measurement :=
  exampleRow .calibrationSlope .pearsonR higherParameters ⟨.normalApproximation, none, rfl⟩
    .evaluationItem 880000 30000

def exampleAgreement : Measurement :=
  exampleRow .agreementPrimary .cohensKappa higherParameters wilsonInterval .evaluationItem
    810000 30000

def examplePower : Measurement :=
  exampleRow .sensitivityDiscriminatingPower .discriminationRate higherParameters
    wilsonInterval .itemPair 900000 20000

def exampleRate : Measurement :=
  exampleRow .sensitivityFalseDifferenceRate .falseDifferenceRate lowerParameters
    wilsonInterval .itemPair 50000 10000

def exampleProbe (role : MeasurementRole) (point : ℤ) : Measurement :=
  exampleRow role .perturbationAgreementRate higherParameters wilsonInterval .perturbationPair
    point 20000

/-- Two of the five probes are measured; their mean is a tie. -/
def exampleMeasurements : Measurements where
  calibration := some ⟨exampleEce, exampleSlope, rfl, rfl⟩
  agreement := some ⟨exampleAgreement, rfl⟩
  sensitivity := some ⟨examplePower, exampleRate, ⟨20, 20, .identicalConfiguration, []⟩, rfl, rfl⟩
  reliability := some ⟨[.measured (exampleProbe .reliabilityProbeConstantOutput 950000),
    .measured (exampleProbe .reliabilityProbeVerbosity 960001), .skipped, .skipped, .skipped],
    none, none⟩

/-- The plan a row keeps to, with a threshold. -/
def plannedAs (row : Measurement) (threshold : ℤ) : PlannedMeasurement where
  measurementRole := row.measurementRole
  estimatorId := row.estimatorId
  estimatorParameters := row.estimatorParameters
  valueUnit := row.valueUnit
  intervalKind := row.intervalParams.intervalKind
  nominalCoveragePpm := row.nominalCoveragePpm
  sampleUnit := row.sampleUnit
  minimumSampleSizeN := 100
  maximumIntervalWidthPpm := 60000
  thresholdValue := threshold
  thresholdComparison := thresholdComparisonForDirection row.estimatorParameters.direction

def exampleWeights : List AggregationWeight :=
  [⟨.calibration, 250000, true⟩, ⟨.agreement, 250000, true⟩, ⟨.sensitivity, 250000, true⟩,
    ⟨.reliability, 250000, true⟩, ⟨.efficiency, 0, false⟩]

theorem exampleWeights_efficiency : ∀ w ∈ exampleWeights, w.axis = .efficiency →
    w.weightPpm = 0 ∧ w.requiredAxis = false := by
  decide

theorem examplePassed_withheld :
    some (886250 : ℤ) = none ↔ Verdict.passed = .abstain ∨ Verdict.passed = .failed := by
  decide

/-- All claims have passed, with equal weights. -/
def exampleBundle : AggregatedBundle where
  plan := ⟨[plannedAs exampleEce 60000, plannedAs exampleSlope 800000,
    plannedAs exampleAgreement 750000, plannedAs examplePower 850000,
    plannedAs exampleRate 60000,
    plannedAs (exampleProbe .reliabilityProbeConstantOutput 0) 900000,
    plannedAs (exampleProbe .reliabilityProbeVerbosity 0) 900000],
    ⟨20, 20, .identicalConfiguration, []⟩⟩
  policy :=
    { weights := exampleWeights
      axes := rfl
      efficiency := exampleWeights_efficiency }
  measurements := exampleMeasurements
  agreementCeilingPpm := 950000
  errorFloorPpm := 20000
  referenceKind := .humanPanelAdjudicated
  referenceIndependence := .evaluatorIndependent
  heldOutStatus := .noSelectionPerformed
  verdictOf := fun _ => .passed
  overall := ⟨.passed, .passed, some 886250, examplePassed_withheld⟩

theorem checkAggregate_exampleBundle : checkAggregate exampleBundle = .ok () := by
  decide +kernel

/-- What the plan of the example demands of each axis. -/
def exampleThreshold : Axis → ℤ
  | .calibration => 800000
  | .agreement => 750000
  | .sensitivity => 850000
  | .reliability => 900000
  | .efficiency => 0

theorem quality_is_weighted_mean_example :
    Nearest ((weightedSum exampleWeights (axisValue exampleMeasurements) : ℚ) /
      ((summedWeights exampleWeights).map AggregationWeight.weightPpm).sum) 886250 :=
  (quality_is_weighted_mean checkAggregate_exampleBundle rfl).2.1

theorem planDemands_exampleBundle : PlanDemands exampleBundle exampleThreshold := by
  intro axis
  cases axis <;> decide +kernel

/-- The plan demands 825000 of the quality, and the reference limits it to 962500. -/
theorem quality_within_plan_and_reference_example :
    roundHalfEven (weightedSum exampleWeights exampleThreshold) 1000000 ≤ 886250 ∧
      886250 ≤ roundHalfEven (weightedSum exampleWeights (axisCeiling exampleBundle)) 1000000 :=
  have hwithin := quality_within_plan_and_reference checkAggregate_exampleBundle rfl
  ⟨hwithin.2.1 exampleThreshold planDemands_exampleBundle, hwithin.2.2⟩

example : roundHalfEven (weightedSum exampleWeights exampleThreshold) 1000000 = 825000 ∧
    roundHalfEven (weightedSum exampleWeights (axisCeiling exampleBundle)) 1000000 = 962500 := by
  decide +kernel

end TraigentSchema.EvaluatorQuality
