import TraigentSchema.Certification.Verification

/-!
# Measurements and the declared plan

Every measurement of an evaluator-quality bundle stands under a role, and the signed plan pins for
a role the estimator, the unit, the sample size, the width of the interval and the threshold.  The
registry says which estimators may serve which roles.
-/

namespace TraigentSchema.EvaluatorQuality

open TraigentSchema.Unicode
open TraigentSchema.Certification
open TraigentSchema.Traverse

/-! ## Measurements -/

inductive MeasurementRole where
  | calibrationEce
  | calibrationSlope
  | agreementPrimary
  | sensitivityDiscriminatingPower
  | sensitivityFalseDifferenceRate
  | reliabilityRepeat
  | reliabilityPosition
  | reliabilityProbeConstantOutput
  | reliabilityProbeVerbosity
  | reliabilityProbePosition
  | reliabilityProbeSelfPreference
  | reliabilityProbeOneTokenFool
  | efficiencyCostPerEval
  | efficiencyLatencyPerEval
  | efficiencyLatencyP95
  | frontierBaselineAgreement
  | frontierBaselineCost
  | frontierPointAgreement
  | frontierPointCost
  | frontierAgreementRetained
  deriving DecidableEq

inductive MeasurementUnit where
  | ppmSigned
  | ppmUnsigned
  | microusd
  | microsecond
  | count
  deriving DecidableEq

inductive SampleUnit where
  | evaluationItem
  | itemPair
  | raterPair
  | repeatPair
  | config
  | evaluatorPair
  | perturbationPair
  deriving DecidableEq

inductive IntervalKind where
  | bootstrapPercentile
  | bootstrapBca
  | empiricalBernsteinOneSided
  | wilsonScore
  | clopperPearson
  | normalApproximation
  | exactPermutation
  deriving DecidableEq

/-- `str(kind).startswith("bootstrap_")`. -/
def IntervalKind.isBootstrap : IntervalKind → Bool
  | .bootstrapPercentile | .bootstrapBca => true
  | _ => false

inductive Direction where
  | higherIsBetter
  | lowerIsBetter
  deriving DecidableEq

inductive IntervalSide where
  | twoSided
  | lowerOneSided
  | upperOneSided
  deriving DecidableEq

inductive ScoreScale where
  | binary
  | ordinalLikert5
  | ordinalLikert7
  | unitInterval
  | pairwisePreference
  deriving DecidableEq

inductive LabelKind where
  | binary
  | ordinal
  | nominal
  | continuous
  deriving DecidableEq

inductive EstimatorId where
  | cohensKappa
  | fleissKappa
  | krippendorffAlpha
  | scottsPi
  | gwetsAc1
  | kendallTauB
  | spearmanRho
  | pearsonR
  | pairwiseAgreementRate
  | softPairwiseAccuracy
  | expectedCalibrationError
  | adaptiveCalibrationError
  | brierScore
  | calibrationSlope
  | calibrationIntercept
  | pairedDifferenceBound
  | discriminationRate
  | falseDifferenceRate
  | mannWhitneyAuc
  | testRetestAgreementRate
  | intraclassCorrelation
  | positionSwapAgreementRate
  | perturbationAgreementRate
  | stabilityTau
  | meanCostPerEvaluation
  | meanLatencyPerEvaluation
  | p95LatencyPerEvaluation
  | pairedAgreementCostRatio
  deriving DecidableEq

structure EstimatorParameters where
  intervalSide : IntervalSide
  direction : Direction
  scoreScale : ScoreScale
  labelKind : LabelKind
  deriving DecidableEq

/-- A bootstrap interval names the unit that is resampled, and no other does. -/
structure IntervalParams where
  intervalKind : IntervalKind
  resampleUnit : Option SampleUnit
  resampled : resampleUnit.isSome = intervalKind.isBootstrap

structure Measurement where
  measurementRole : MeasurementRole
  estimatorId : EstimatorId
  estimatorParameters : EstimatorParameters
  valueUnit : MeasurementUnit
  pointValue : ℤ
  intervalLowValue : ℤ
  intervalHighValue : ℤ
  intervalParams : IntervalParams
  nominalCoveragePpm : ℕ
  sampleSizeN : ℕ
  sampleUnit : SampleUnit

inductive EquivalenceBasis where
  | identicalConfiguration
  | seedOnlyDifference
  | semanticallyEquivalentRewrite
  | declaredByReferenceStandard
  deriving DecidableEq

structure SensitivityPairSet where
  knownDifferentPairCount : ℕ
  knownEquivalentPairCount : ℕ
  equivalenceBasis : EquivalenceBasis
  pairSetDigest : Text
  deriving DecidableEq

/-- The blocks carry the roles their schemas fix. -/
structure CalibrationBlock where
  expectedCalibrationError : Measurement
  calibrationSlope : Measurement
  eceRole : expectedCalibrationError.measurementRole = .calibrationEce
  slopeRole : calibrationSlope.measurementRole = .calibrationSlope

structure AgreementBlock where
  agreement : Measurement
  role : agreement.measurementRole = .agreementPrimary

structure SensitivityBlock where
  discriminatingPower : Measurement
  falseDifferenceRate : Measurement
  pairSet : SensitivityPairSet
  powerRole : discriminatingPower.measurementRole = .sensitivityDiscriminatingPower
  rateRole : falseDifferenceRate.measurementRole = .sensitivityFalseDifferenceRate

/-- The role of a probe's measurement is not fixed by its schema. -/
inductive ProbeResult where
  | measured (measurement : Measurement)
  | skipped

structure ReliabilityBlock where
  probeResults : List ProbeResult
  repeatStability : Option Measurement
  positionStability : Option Measurement

/-- Every block is optional. -/
structure Measurements where
  calibration : Option CalibrationBlock
  agreement : Option AgreementBlock
  sensitivity : Option SensitivityBlock
  reliability : Option ReliabilityBlock

def ProbeResult.measurement : ProbeResult → Option Measurement
  | .measured measurement => some measurement
  | .skipped => none

/-- The measured probes. -/
def ReliabilityBlock.measuredProbes (block : ReliabilityBlock) : List Measurement :=
  block.probeResults.filterMap ProbeResult.measurement

namespace Measurements

variable (measurements : Measurements)

/-- The measurements in the order of their blocks. -/
def ordered : List Measurement :=
  (measurements.calibration.elim [] fun block =>
      [block.expectedCalibrationError, block.calibrationSlope]) ++
    (measurements.agreement.elim [] fun block => [block.agreement]) ++
    (measurements.sensitivity.elim [] fun block =>
      [block.discriminatingPower, block.falseDifferenceRate]) ++
    measurements.reliability.elim [] fun block =>
      block.measuredProbes ++ block.repeatStability.toList ++ block.positionStability.toList

/-- The measured probes of the reliability block. -/
def probes : List Measurement :=
  measurements.reliability.elim [] ReliabilityBlock.measuredProbes

theorem mem_ordered_of_mem_probes {row : Measurement} (hrow : row ∈ measurements.probes) :
    row ∈ measurements.ordered := by
  rw [probes] at hrow
  cases hblock : measurements.reliability with
  | none => simp [hblock] at hrow
  | some block =>
      rw [hblock, Option.elim_some] at hrow
      simp [ordered, hblock, hrow]

end Measurements

/-- `_measurement_role_rows`: the rows, each under a role of its own. -/
def measurementRoleRows (measurements : Measurements) : Checked (List Measurement) := do
  ensure (decide (measurements.ordered.map Measurement.measurementRole).Nodup)
    "MEASUREMENT_ROLE_DUPLICATE" "measurements"
  return measurements.ordered

theorem measurementRoleRows_eq_ok_iff {measurements : Measurements} {rows : List Measurement} :
    measurementRoleRows measurements = .ok rows ↔
      (measurements.ordered.map Measurement.measurementRole).Nodup ∧
        measurements.ordered = rows := by
  simp [measurementRoleRows, unit_bind_eq_ok_iff]

/-- `rows.get(role)`. -/
def rowOf (rows : List Measurement) (role : MeasurementRole) : Option Measurement :=
  rows.find? fun row => row.measurementRole == role

theorem rowOf_eq_some_iff {rows : List Measurement} {role : MeasurementRole}
    {row : Measurement} (hnodup : (rows.map Measurement.measurementRole).Nodup) :
    rowOf rows role = some row ↔ row ∈ rows ∧ row.measurementRole = role := by
  constructor
  · intro hfound
    exact ⟨List.mem_of_find?_eq_some hfound, by simpa using List.find?_some hfound⟩
  · rintro ⟨hmem, hrole⟩
    cases hfound : rowOf rows role with
    | none =>
        have hnone := List.find?_eq_none.mp hfound row hmem
        simp [hrole] at hnone
    | some other =>
        have hother : other.measurementRole = role := by simpa using List.find?_some hfound
        rw [List.inj_on_of_nodup_map hnodup (List.mem_of_find?_eq_some hfound) hmem
          (hother.trans hrole.symm)]

/-! ## The registry -/

structure RegisteredEstimator where
  estimatorId : EstimatorId
  valueUnit : MeasurementUnit
  sampleUnits : List SampleUnit
  intervalKinds : List IntervalKind
  measurementRoles : List MeasurementRole

/-- `evaluator_measurement_registry.json`. -/
def measurementRegistry : List RegisteredEstimator :=
  [⟨.cohensKappa, .ppmUnsigned, [.evaluationItem, .raterPair],
      [.wilsonScore, .bootstrapPercentile], [.agreementPrimary]⟩,
    ⟨.fleissKappa, .ppmUnsigned, [.evaluationItem], [.bootstrapPercentile],
      [.agreementPrimary]⟩,
    ⟨.krippendorffAlpha, .ppmUnsigned, [.evaluationItem], [.bootstrapPercentile],
      [.agreementPrimary]⟩,
    ⟨.scottsPi, .ppmUnsigned, [.evaluationItem], [.bootstrapPercentile],
      [.agreementPrimary]⟩,
    ⟨.gwetsAc1, .ppmUnsigned, [.evaluationItem], [.bootstrapPercentile],
      [.agreementPrimary]⟩,
    ⟨.kendallTauB, .ppmUnsigned, [.itemPair], [.bootstrapPercentile], [.calibrationSlope]⟩,
    ⟨.spearmanRho, .ppmUnsigned, [.evaluationItem], [.bootstrapPercentile],
      [.calibrationSlope]⟩,
    ⟨.pearsonR, .ppmUnsigned, [.evaluationItem], [.normalApproximation],
      [.calibrationSlope]⟩,
    ⟨.pairwiseAgreementRate, .ppmUnsigned, [.itemPair], [.wilsonScore],
      [.agreementPrimary]⟩,
    ⟨.softPairwiseAccuracy, .ppmUnsigned, [.itemPair], [.bootstrapPercentile],
      [.agreementPrimary]⟩,
    ⟨.expectedCalibrationError, .ppmUnsigned, [.evaluationItem], [.bootstrapPercentile],
      [.calibrationEce]⟩,
    ⟨.adaptiveCalibrationError, .ppmUnsigned, [.evaluationItem], [.bootstrapPercentile],
      [.calibrationEce]⟩,
    ⟨.brierScore, .ppmUnsigned, [.evaluationItem], [.bootstrapPercentile],
      [.calibrationEce]⟩,
    ⟨.calibrationSlope, .ppmUnsigned, [.evaluationItem], [.normalApproximation],
      [.calibrationSlope]⟩,
    ⟨.calibrationIntercept, .ppmUnsigned, [.evaluationItem], [.normalApproximation],
      [.calibrationSlope]⟩,
    ⟨.pairedDifferenceBound, .ppmUnsigned, [.itemPair], [.exactPermutation],
      [.sensitivityDiscriminatingPower, .sensitivityFalseDifferenceRate]⟩,
    ⟨.discriminationRate, .ppmUnsigned, [.itemPair], [.wilsonScore],
      [.sensitivityDiscriminatingPower]⟩,
    ⟨.falseDifferenceRate, .ppmUnsigned, [.itemPair], [.wilsonScore],
      [.sensitivityFalseDifferenceRate]⟩,
    ⟨.mannWhitneyAuc, .ppmUnsigned, [.itemPair], [.bootstrapPercentile],
      [.sensitivityDiscriminatingPower]⟩,
    ⟨.testRetestAgreementRate, .ppmUnsigned, [.repeatPair], [.wilsonScore],
      [.reliabilityRepeat]⟩,
    ⟨.intraclassCorrelation, .ppmUnsigned, [.repeatPair], [.bootstrapPercentile],
      [.reliabilityRepeat]⟩,
    ⟨.positionSwapAgreementRate, .ppmUnsigned, [.evaluatorPair], [.wilsonScore],
      [.reliabilityPosition]⟩,
    ⟨.perturbationAgreementRate, .ppmUnsigned, [.perturbationPair], [.wilsonScore],
      [.reliabilityProbeConstantOutput, .reliabilityProbeVerbosity,
        .reliabilityProbePosition, .reliabilityProbeSelfPreference,
        .reliabilityProbeOneTokenFool]⟩,
    ⟨.stabilityTau, .ppmUnsigned, [.repeatPair], [.bootstrapPercentile],
      [.reliabilityRepeat]⟩,
    ⟨.meanCostPerEvaluation, .microusd, [.evaluationItem], [.normalApproximation],
      [.efficiencyCostPerEval, .frontierBaselineCost, .frontierPointCost]⟩,
    ⟨.meanLatencyPerEvaluation, .microsecond, [.evaluationItem], [.normalApproximation],
      [.efficiencyLatencyPerEval]⟩,
    ⟨.p95LatencyPerEvaluation, .microsecond, [.evaluationItem], [.bootstrapPercentile],
      [.efficiencyLatencyP95]⟩,
    ⟨.pairedAgreementCostRatio, .ppmUnsigned, [.config], [.bootstrapPercentile],
      [.frontierAgreementRetained]⟩]

def registeredEstimator (estimatorId : EstimatorId) : Checked RegisteredEstimator :=
  match measurementRegistry.find? fun entry => entry.estimatorId == estimatorId with
  | some entry => .ok entry
  | none => Certification.fail "ESTIMATOR_NOT_REGISTERED" "measurements"

/-- No registered estimator measures signed parts per million. -/
theorem valueUnit_ne_ppmSigned {entry : RegisteredEstimator}
    (hentry : entry ∈ measurementRegistry) : entry.valueUnit ≠ .ppmSigned := by
  have hall : (measurementRegistry.all fun row => row.valueUnit != .ppmSigned) = true := rfl
  simpa using List.all_eq_true.mp hall entry hentry

theorem registeredEstimator_eq_ok {estimatorId : EstimatorId} {entry : RegisteredEstimator}
    (hentry : registeredEstimator estimatorId = .ok entry) :
    entry ∈ measurementRegistry ∧ entry.estimatorId = estimatorId := by
  rw [registeredEstimator] at hentry
  split at hentry
  · next found hfound =>
      cases hentry
      exact ⟨List.mem_of_find?_eq_some hfound, by simpa using List.find?_some hfound⟩
  · exact absurd hentry (fail_ne_ok _ _ _)

/-! ## The plan -/

inductive ThresholdComparison where
  | intervalLowGe
  | intervalHighLe
  deriving DecidableEq

structure PlannedMeasurement where
  measurementRole : MeasurementRole
  estimatorId : EstimatorId
  estimatorParameters : EstimatorParameters
  valueUnit : MeasurementUnit
  intervalKind : IntervalKind
  nominalCoveragePpm : ℕ
  sampleUnit : SampleUnit
  minimumSampleSizeN : ℕ
  maximumIntervalWidthPpm : ℕ
  thresholdValue : ℤ
  thresholdComparison : ThresholdComparison

/-- What the containment checks read of a declared plan. -/
structure MeasurementPlan where
  plannedMeasurements : List PlannedMeasurement
  sensitivityPairSet : SensitivityPairSet

section Containment

variable (plan : MeasurementPlan) (measurements : Measurements)

def checkSemanticUniqueness : Checked Unit :=
  ensure (decide (plan.plannedMeasurements.map PlannedMeasurement.measurementRole).Nodup)
    "MEASUREMENT_ROLE_DUPLICATE" "declared_plan"

def thresholdComparisonForDirection : Direction → ThresholdComparison
  | .higherIsBetter => .intervalLowGe
  | .lowerIsBetter => .intervalHighLe

def checkPlanDirectionCoupling : Checked Unit :=
  forM plan.plannedMeasurements fun planned =>
    ensure (planned.thresholdComparison ==
        thresholdComparisonForDirection planned.estimatorParameters.direction)
      "DECLARED_PLAN_SCOPE_VIOLATION" "declared_plan.planned_measurements"

def checkSensitivityPairSetBinding : Checked Unit :=
  match measurements.sensitivity with
  | none => .ok ()
  | some block =>
      ensure (block.pairSet == plan.sensitivityPairSet) "DECLARED_PLAN_SCOPE_VIOLATION"
        "declared_plan.planned_measurements"

def MeasurementUnit.isPpm : MeasurementUnit → Bool
  | .ppmUnsigned | .ppmSigned => true
  | _ => false

theorem MeasurementUnit.eq_ppmUnsigned {unit : MeasurementUnit} (hppm : unit.isPpm = true)
    (hne : unit ≠ .ppmSigned) : unit = .ppmUnsigned := by
  cases unit with
  | ppmUnsigned => rfl
  | ppmSigned => exact absurd rfl hne
  | microusd => cases hppm
  | microsecond => cases hppm
  | count => cases hppm

/-- The bounds of the values of a unit in parts per million. -/
def withinUnit (unit : MeasurementUnit) (value : ℤ) : Bool :=
  decide ((if unit = .ppmUnsigned then 0 else -1000000) ≤ value ∧ value ≤ 1000000)

def checkIntervalWellFormed (row : Measurement) : Checked Unit := do
  ensure (decide (row.intervalLowValue ≤ row.pointValue ∧
    row.pointValue ≤ row.intervalHighValue)) "INTERVAL_MALFORMED" "measurements.interval"
  if row.valueUnit.isPpm then
    ensure (withinUnit row.valueUnit row.intervalLowValue &&
      withinUnit row.valueUnit row.intervalHighValue) "INTERVAL_MALFORMED"
      "measurements.interval"
  else .ok ()

def checkMeasurementRegistryAdmissibility (row : Measurement) : Checked Unit := do
  let entry ← registeredEstimator row.estimatorId
  ensure (row.valueUnit == entry.valueUnit && entry.sampleUnits.contains row.sampleUnit)
    "UNIT_NOT_ADMISSIBLE" "measurements"
  ensure (entry.intervalKinds.contains row.intervalParams.intervalKind) "INTERVAL_MALFORMED"
    "measurements.interval_params"
  ensure (entry.measurementRoles.contains row.measurementRole)
    "ESTIMATOR_PARAMS_NOT_ADMISSIBLE" "measurements"

def checkResampleUnit (row : Measurement) : Checked Unit :=
  ensure (!row.intervalParams.intervalKind.isBootstrap ||
    row.intervalParams.resampleUnit == some row.sampleUnit) "RESAMPLE_UNIT_MISMATCH"
    "measurements.interval_params"

def checkIntervalWidth (row : Measurement) (planned : PlannedMeasurement) : Checked Unit := do
  ensure row.valueUnit.isPpm "UNIT_NOT_ADMISSIBLE" "measurements.interval"
  ensure (decide (row.intervalHighValue - row.intervalLowValue ≤
    planned.maximumIntervalWidthPpm)) "INTERVAL_WIDTH_EXCEEDED" "measurements.interval"

/-- The row uses what the plan pins. -/
def usesPlanned (row : Measurement) (planned : PlannedMeasurement) : Bool :=
  row.estimatorId == planned.estimatorId &&
    row.intervalParams.intervalKind == planned.intervalKind &&
    row.nominalCoveragePpm == planned.nominalCoveragePpm &&
    row.sampleUnit == planned.sampleUnit && row.valueUnit == planned.valueUnit &&
    row.estimatorParameters == planned.estimatorParameters

/-- The conservative end of the interval is on the right side of the threshold. -/
def meetsThreshold (row : Measurement) (planned : PlannedMeasurement) : Bool :=
  match planned.thresholdComparison with
  | .intervalLowGe => decide (planned.thresholdValue ≤ row.intervalLowValue)
  | .intervalHighLe => decide (row.intervalHighValue ≤ planned.thresholdValue)

/-- The checks of a measured row against the plan of its role. -/
def checkPlanned (row : Measurement) (planned : PlannedMeasurement) : Checked Unit := do
  ensure (usesPlanned row planned) "DECLARED_PLAN_SCOPE_VIOLATION"
    "declared_plan.planned_measurements"
  checkMeasurementRegistryAdmissibility row
  checkIntervalWellFormed row
  checkResampleUnit row
  ensure (decide (planned.minimumSampleSizeN ≤ row.sampleSizeN)) "SAMPLE_SIZE_INSUFFICIENT"
    "measurements.sample_size"
  checkIntervalWidth row planned
  ensure (meetsThreshold row planned) "THRESHOLD_NOT_MET" "measurements.interval"

def checkPlanContainment : Checked Unit := do
  checkPlanDirectionCoupling plan
  checkSensitivityPairSetBinding plan measurements
  let rows ← measurementRoleRows measurements
  forM rows fun row =>
    ensure ((plan.plannedMeasurements.map PlannedMeasurement.measurementRole).contains
      row.measurementRole) "DECLARED_PLAN_SCOPE_VIOLATION" "declared_plan.planned_measurements"
  forM plan.plannedMeasurements fun planned =>
    match rowOf rows planned.measurementRole with
    | none => .ok ()
    | some row => checkPlanned row planned

end Containment

/-! ## Contained measurements -/

/-- What the plan demands of a row, with the threshold in the planned direction. -/
structure Conforms (row : Measurement) (planned : PlannedMeasurement) : Prop where
  role : row.measurementRole = planned.measurementRole
  parameters : row.estimatorParameters = planned.estimatorParameters
  unit : row.valueUnit = .ppmUnsigned
  registered : ∃ entry ∈ measurementRegistry, entry.estimatorId = planned.estimatorId ∧
    row.measurementRole ∈ entry.measurementRoles
  nonneg : 0 ≤ row.intervalLowValue
  low : row.intervalLowValue ≤ row.pointValue
  high : row.pointValue ≤ row.intervalHighValue
  atMost : row.intervalHighValue ≤ 1000000
  width : row.intervalHighValue - row.intervalLowValue ≤ planned.maximumIntervalWidthPpm
  sampleSize : planned.minimumSampleSizeN ≤ row.sampleSizeN
  higher : planned.estimatorParameters.direction = .higherIsBetter →
    planned.thresholdValue ≤ row.intervalLowValue
  lower : planned.estimatorParameters.direction = .lowerIsBetter →
    row.intervalHighValue ≤ planned.thresholdValue

theorem admissible_of_ok {row : Measurement} {u : Unit}
    (hok : checkMeasurementRegistryAdmissibility row = .ok u) :
    ∃ entry ∈ measurementRegistry, entry.estimatorId = row.estimatorId ∧
      row.valueUnit = entry.valueUnit ∧ row.measurementRole ∈ entry.measurementRoles := by
  simp only [checkMeasurementRegistryAdmissibility, bind_eq_ok_iff, ensure_eq_ok_iff,
    Bool.and_eq_true, beq_iff_eq, List.contains_iff_mem] at hok
  obtain ⟨entry, hentry, _, ⟨hunit, _⟩, _, _, hrole⟩ := hok
  obtain ⟨hmem, hid⟩ := registeredEstimator_eq_ok hentry
  exact ⟨entry, hmem, hid, hunit, hrole⟩

/-- A row that passes the checks of its role conforms to the plan. -/
theorem conforms_of_ok {row : Measurement} {planned : PlannedMeasurement} {u : Unit}
    (hrole : row.measurementRole = planned.measurementRole)
    (hcoupled : planned.thresholdComparison =
      thresholdComparisonForDirection planned.estimatorParameters.direction)
    (hok : checkPlanned row planned = .ok u) : Conforms row planned := by
  simp only [checkPlanned, bind_eq_ok_iff, ensure_eq_ok_iff, decide_eq_true_eq] at hok
  obtain ⟨_, huses, _, hadmissible, _, hwell, _, _, _, hsize, _, hwidth, hthreshold⟩ := hok
  obtain ⟨entry, hentry, hid, hunit, hroles⟩ := admissible_of_ok hadmissible
  simp only [checkIntervalWidth, bind_eq_ok_iff, ensure_eq_ok_iff, decide_eq_true_eq] at hwidth
  obtain ⟨_, hppm, hwidth⟩ := hwidth
  simp only [checkIntervalWellFormed, bind_eq_ok_iff, ensure_eq_ok_iff, decide_eq_true_eq, hppm,
    if_true, Bool.and_eq_true] at hwell
  obtain ⟨_, ⟨hlow, hhigh⟩, hbounds⟩ := hwell
  simp only [usesPlanned, Bool.and_eq_true, beq_iff_eq] at huses
  obtain ⟨⟨⟨⟨⟨hestimator, _⟩, _⟩, _⟩, _⟩, hparameters⟩ := huses
  -- Of the two units in parts per million the registry has only the unsigned one.
  have hne : row.valueUnit ≠ .ppmSigned := hunit ▸ valueUnit_ne_ppmSigned hentry
  have hunsigned : row.valueUnit = .ppmUnsigned := MeasurementUnit.eq_ppmUnsigned hppm hne
  simp only [withinUnit, hunsigned, if_true, decide_eq_true_eq] at hbounds
  exact {
    role := hrole
    parameters := hparameters
    unit := hunsigned
    registered := ⟨entry, hentry, hid.trans hestimator, hroles⟩
    nonneg := hbounds.1.1
    low := hlow
    high := hhigh
    atMost := hbounds.2.2
    width := hwidth
    sampleSize := hsize
    higher := fun hdirection => by
      simpa [meetsThreshold, hcoupled, hdirection, thresholdComparisonForDirection]
        using hthreshold
    lower := fun hdirection => by
      simpa [meetsThreshold, hcoupled, hdirection, thresholdComparisonForDirection]
        using hthreshold }

/-- Every measurement of a contained set has a plan of its role and conforms to it. -/
theorem exists_conforms {plan : MeasurementPlan} {measurements : Measurements} {u : Unit}
    (hcontained : checkPlanContainment plan measurements = .ok u) {row : Measurement}
    (hrow : row ∈ measurements.ordered) :
    ∃ planned ∈ plan.plannedMeasurements, Conforms row planned := by
  simp only [checkPlanContainment, bind_eq_ok_iff, forM_eq_ok_iff, ensure_eq_ok_iff,
    measurementRoleRows_eq_ok_iff, checkPlanDirectionCoupling, beq_iff_eq,
    List.contains_iff_mem, List.mem_map] at hcontained
  obtain ⟨_, hcoupled, _, _, rows, ⟨hnodup, rfl⟩, _, hplanned, hchecked⟩ := hcontained
  obtain ⟨planned, hmem, hrole⟩ := hplanned row hrow
  have hfound : rowOf measurements.ordered planned.measurementRole = some row :=
    (rowOf_eq_some_iff hnodup).mpr ⟨hrow, hrole.symm⟩
  have hok := hchecked planned hmem
  rw [hfound] at hok
  exact ⟨planned, hmem, conforms_of_ok hrole.symm (hcoupled planned hmem) hok⟩

/-! ## The limits of the reference -/

def referenceStandardScopedRoles : List MeasurementRole :=
  [.calibrationEce, .calibrationSlope, .agreementPrimary, .sensitivityDiscriminatingPower,
    .sensitivityFalseDifferenceRate]

/-- The rows a limit of the reference is about. -/
def referenceScoped (direction : Direction) (row : Measurement) : Bool :=
  referenceStandardScopedRoles.contains row.measurementRole && row.valueUnit.isPpm &&
    row.estimatorParameters.direction == direction

def checkReferenceCeiling (agreementCeilingPpm : ℕ) (measurements : Measurements) :
    Checked Unit := do
  let rows ← measurementRoleRows measurements
  forM rows fun row =>
    ensure (!referenceScoped .higherIsBetter row ||
      decide (row.intervalHighValue ≤ agreementCeilingPpm)) "REFERENCE_CEILING_EXCEEDED"
      "reference_standard.ceiling"

def checkReferenceFloor (errorFloorPpm : ℕ) (measurements : Measurements) : Checked Unit := do
  let rows ← measurementRoleRows measurements
  forM rows fun row =>
    ensure (!referenceScoped .lowerIsBetter row ||
      decide ((errorFloorPpm : ℤ) ≤ row.intervalLowValue)) "REFERENCE_FLOOR_VIOLATED"
      "reference_standard"

/-- What is measured against the reference and should be high stays below its ceiling. -/
theorem le_ceiling_of_ok {ceiling : ℕ} {measurements : Measurements} {u : Unit}
    (hok : checkReferenceCeiling ceiling measurements = .ok u) {row : Measurement}
    (hrow : row ∈ measurements.ordered)
    (hscoped : row.measurementRole ∈ referenceStandardScopedRoles)
    (hunit : row.valueUnit.isPpm = true)
    (hdirection : row.estimatorParameters.direction = .higherIsBetter) :
    row.intervalHighValue ≤ ceiling := by
  simp only [checkReferenceCeiling, bind_eq_ok_iff, measurementRoleRows_eq_ok_iff,
    forM_eq_ok_iff] at hok
  obtain ⟨rows, ⟨_, rfl⟩, hrows⟩ := hok
  simpa [referenceScoped, hscoped, hunit, hdirection] using hrows row hrow

/-- What is measured against the reference and should be low stays above its floor. -/
theorem floor_le_of_ok {floor : ℕ} {measurements : Measurements} {u : Unit}
    (hok : checkReferenceFloor floor measurements = .ok u) {row : Measurement}
    (hrow : row ∈ measurements.ordered)
    (hscoped : row.measurementRole ∈ referenceStandardScopedRoles)
    (hunit : row.valueUnit.isPpm = true)
    (hdirection : row.estimatorParameters.direction = .lowerIsBetter) :
    (floor : ℤ) ≤ row.intervalLowValue := by
  simp only [checkReferenceFloor, bind_eq_ok_iff, measurementRoleRows_eq_ok_iff,
    forM_eq_ok_iff] at hok
  obtain ⟨rows, ⟨_, rfl⟩, hrows⟩ := hok
  simpa [referenceScoped, hscoped, hunit, hdirection] using hrows row hrow

end TraigentSchema.EvaluatorQuality
