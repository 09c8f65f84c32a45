import TraigentSchema.AgentQuality.Binding

/-!
# Stage S5: the measured claims

The certified set is the declared plan's, one claim for each objective; each claim
copies its objective's registration, carries the statistics of the one admissible
interval method and prints the interval that they recompute to.
-/

namespace TraigentSchema.AgentQuality

open TraigentSchema.Unicode
open TraigentSchema.Certification
open TraigentSchema.Python
open TraigentSchema.Traverse

/-- A value that can be an element of a set or a key of a dict. -/
def hashable : PyValue → Bool
  | .leaf _ => true
  | _ => false

/-- `hash(v)`, for its exception. -/
def hash (v : PyValue) : Checked PyValue :=
  if hashable v then .ok v else .error .other

/-- `key in keys`, over hashable values. -/
def isElement (key : PyValue) (keys : List PyValue) : Bool :=
  keys.any fun other => pyEq other key

/-- `_unique_by`, without the mapping that its callers do not use: no two rows have
one key. -/
def uniqueKeys (code field : String) : List PyValue → List PyValue → Checked Unit
  | _, [] => .ok ()
  | seen, key :: keys => do
      let key ← hash key
      ensure (!isElement key seen) code field
      uniqueKeys code field (key :: seen) keys

/-! ## One claim -/

/-- `entry["minimum_sample_size"]` and the like, against the claim's own copies. -/
def checkRegistration (entry : ObjectiveEntry) (claim : PyValue) : Checked Unit := do
  ensure (pyEq (claim.field "objective_kind") (.str entry.objectiveKind) &&
      pyEq (claim.field "direction") (.str entry.direction))
    "OBJECTIVE_KIND_MISMATCH" "measured_claims.objective"
  ensure (pyEq (claim.field "unit") (.str entry.unit))
    "OBJECTIVE_UNIT_MISMATCH" "measured_claims.objective"
  match asInt (claim.field "sample_size") with
  | some sampleSize =>
      ensure (decide (entry.minimumSampleSize ≤ sampleSize))
        "OBJECTIVE_MINIMUM_SAMPLE_NOT_MET" "measured_claims.sample_size"
  | none => fail "OBJECTIVE_MINIMUM_SAMPLE_NOT_MET" "measured_claims.sample_size"
  ensure (entry.objectiveKind != "nonnegative_mean" ||
      entry.distributionAssumption.any fun assumption =>
        distributionAssumptionValues.contains assumption)
    "DISTRIBUTION_ASSUMPTION_NOT_REGISTERED" "objective_registry"

/-- Rows 29 and 30: the interval method, emittable and the one for the kind. -/
def checkIntervalMethod (entry : ObjectiveEntry) (claim : PyValue) : Checked PyValue := do
  let params := claim.field "interval_params"
  let method := params.field "interval_method"
  let emittable ← isOneOf method emittableIntervalMethods
  ensure emittable "INTERVAL_METHOD_NOT_EMITTABLE" "measured_claims.interval_params"
  ensure ((admissibleIntervalMethod entry.objectiveKind).any fun admissible =>
      pyEq method (.str admissible))
    "INTERVAL_METHOD_NOT_ADMISSIBLE" "measured_claims.interval_params"
  return params

/-- `_fail("SUFFICIENT_STATISTICS_SHAPE", …)`. -/
def ensureStatistics (condition : Bool) : Checked Unit :=
  ensure condition "SUFFICIENT_STATISTICS_SHAPE" "measured_claims.sufficient_statistics"

/-- Row 31, for a Wilson claim: the counts, and no continuity correction, which the
recomputation does not implement. -/
def binomialStatistics (params stats : PyValue) : Checked (PyValue × Statistics) := do
  ensureStatistics (pyEq (stats.field "stat_kind") (.str "binomial_v1"))
  match asInt (stats.field "success_count"), asInt (stats.field "trial_count") with
  | some successCount, some trialCount => do
      ensureStatistics (decide (successCount ≤ trialCount))
      ensure (pyEq (params.field "continuity_correction") (.str "none"))
        "INTERVAL_METHOD_NOT_ADMISSIBLE" "measured_claims.interval_params"
      return (stats.field "trial_count", .binomial successCount trialCount)
  | _, _ => do
      ensureStatistics false
      .error .other

/-- Row 31, for a Student-t claim: the degrees of freedom and the unit are the claim's
own.  That the mean and the deviation are integers is left to the schema. -/
def meanVarianceStatistics (claim params stats : PyValue) :
    Checked (PyValue × Statistics) := do
  ensureStatistics (pyEq (stats.field "stat_kind") (.str "mean_variance_v1"))
  match asInt (stats.field "sample_count") with
  | some sampleCount => do
      ensureStatistics (pyEq (params.field "degrees_of_freedom")
        (.leaf (.int (sampleCount - 1))))
      ensureStatistics (pyEq (stats.field "unit_scale") (claim.field "unit"))
      match asInt (stats.field "mean_fixed"), asInt (stats.field "sample_stddev_fixed") with
      | some mean, some stddev =>
          return (stats.field "sample_count", .meanVariance mean stddev sampleCount)
      | _, _ => .error .other
  | none => do
      ensureStatistics false
      .error .other

/-- The count the statistics state, and their numbers. -/
def sufficientStatistics (claim params : PyValue) : Checked (PyValue × Statistics) :=
  let stats := claim.field "sufficient_statistics"
  if pyEq (params.field "interval_method") (.str "wilson_score_v1") then
    binomialStatistics params stats
  else meanVarianceStatistics claim params stats

/-- Everything S5 checks of one claim; the result is its nominal coverage. -/
def checkMeasuredClaim (package : Package) (holdoutItemCount claim : PyValue) :
    Checked PyValue := do
  let objectiveId ← get claim "objective_id"
  let objectiveId ← hash objectiveId
  match package.objectiveEntry objectiveId with
  | none => fail "OBJECTIVE_NOT_REGISTERED" "measured_claims.objective"
  | some entry => do
      checkRegistration entry claim
      let params ← checkIntervalMethod entry claim
      let (statCount, stats) ← sufficientStatistics claim params
      let coverage ← hash (claim.field "nominal_coverage_ppm")
      match nominalCoverageValues.find? fun value => pyEq coverage (.leaf (.int value)) with
      | none => fail "NOMINAL_COVERAGE_MISMATCH" "measured_claims"
      | some coveragePpm => do
          checkIntervalRows package.quantileRows entry coveragePpm stats
            (claim.field "interval_low") (claim.field "point_estimate")
            (claim.field "interval_high")
          let sampleSize := claim.field "sample_size"
          ensure (pyEq sampleSize holdoutItemCount && pyEq sampleSize statCount)
            "SAMPLE_SIZE_MISMATCH" "measured_claims.sample_size"
          ensure (pyEq (claim.field "verification_level") (.str "construction_recomputed_v1"))
            "VERIFICATION_LEVEL_MISMATCH" "measured_claims.verification_level"
          return coverage

/-! ## The certified set -/

def holdoutItemCount (evaluationSplits : PyValue) : PyValue :=
  match evaluationSplits with
  | .list records =>
      match records.find? fun record =>
          pyEq (PyValue.field record "split_id") (.str "holdout") with
      | some record => PyValue.field record "item_count"
      | none => .leaf .none
  | _ => .leaf .none

/-- The ids of the plan and of the claims; no claim is off the plan. -/
def certifiedIds (declaredPlan : PyValue) (claims : List PyValue) :
    Checked (List PyValue) := do
  let planIds ← getItems declaredPlan "objective_ids"
  let planIds ← planIds.mapM hash
  claims.mapM fun claim => do
    let objectiveId ← get claim "objective_id"
    let objectiveId ← hash objectiveId
    ensure (isElement objectiveId planIds) "OBJECTIVE_NOT_IN_DECLARED_PLAN"
      "measured_claims.objective"
    return objectiveId

def stageS5ObjectiveMeasurement (package : Package) (bundle : PyValue) :
    Checked Unit := do
  let claims ← getItems bundle "measured_claims"
  if claims = [] then .ok ()
  else do
    let declaredPlan ← envelopeMember bundle "declared_plan"
    let manifest ← index bundle "unsigned_manifest"
    let claimIds ← certifiedIds declaredPlan claims
    let manifestPrimary ← get manifest "primary_objective_id"
    let planPrimary ← get declaredPlan "primary_objective_id"
    ensure (pyEq manifestPrimary planPrimary) "PRIMARY_OBJECTIVE_MISSING"
      "measured_claims.objective"
    let planPrimary ← hash planPrimary
    ensure (isElement planPrimary claimIds) "PRIMARY_OBJECTIVE_MISSING"
      "measured_claims.objective"
    uniqueKeys "OBJECTIVE_DUPLICATE" "measured_claims" [] claimIds
    let splits ← get bundle "evaluation_splits"
    let coverages ← claims.mapM fun claim =>
      checkMeasuredClaim package (holdoutItemCount splits) claim
    ensure (decide (∀ coverage ∈ coverages, ∀ other ∈ coverages,
        pyEq coverage other = true))
      "NOMINAL_COVERAGE_MISMATCH" "measured_claims"

/-! ## What the stage establishes -/

section Established

variable {package : Package} {bundle claim : PyValue}

/-- Where a claim repeats the number of observations and what it measures them in. -/
structure StatisticsShared (claim : PyValue) : Prop where
  binomial : pyEq ((claim.field "interval_params").field "interval_method")
      (.str "wilson_score_v1") = true →
    pyEq (claim.field "sample_size")
      ((claim.field "sufficient_statistics").field "trial_count") = true
  meanVariance : pyEq ((claim.field "interval_params").field "interval_method")
      (.str "wilson_score_v1") = false →
    pyEq (claim.field "sample_size")
        ((claim.field "sufficient_statistics").field "sample_count") = true ∧
      (∃ count, asInt ((claim.field "sufficient_statistics").field "sample_count") =
          some count ∧
        pyEq ((claim.field "interval_params").field "degrees_of_freedom")
          (.leaf (.int (count - 1))) = true) ∧
      pyEq ((claim.field "sufficient_statistics").field "unit_scale")
        (claim.field "unit") = true

/-- S5, for one claim: the registration it copies, and the counts it repeats. -/
structure ClaimMeasured (package : Package) (holdoutItemCount claim : PyValue) : Prop where
  registered : ∃ entry, package.objectiveEntry (claim.field "objective_id") = some entry ∧
    claim.field "objective_kind" = .str entry.objectiveKind ∧
    claim.field "direction" = .str entry.direction ∧
    claim.field "unit" = .str entry.unit
  sampleSize : pyEq (claim.field "sample_size") holdoutItemCount = true
  shared : StatisticsShared claim

theorem hash_bind_eq_ok_iff {B : Type} {v : PyValue} {b : B} {f : PyValue → Checked B} :
    (hash v >>= f) = .ok b ↔ hashable v = true ∧ f v = .ok b := by
  unfold hash
  split <;> simp_all

theorem statistics_of_ok {params statCount : PyValue} {stats : Statistics}
    (hparams : claim.field "interval_params" = params)
    (hstats : sufficientStatistics claim params = .ok (statCount, stats))
    (hcount : pyEq (claim.field "sample_size") statCount = true) :
    StatisticsShared claim := by
  subst hparams
  rw [sufficientStatistics] at hstats
  split_ifs at hstats with hmethod
  · refine ⟨fun _ => ?_, fun hother => absurd hmethod (by simp [hother])⟩
    rw [binomialStatistics, unit_bind_eq_ok_iff] at hstats
    obtain ⟨-, hcounts⟩ := hstats
    split at hcounts
    · simp only [unit_bind_eq_ok_iff, pure_eq_ok, Except.ok.injEq, Prod.mk.injEq]
        at hcounts
      rw [hcounts.2.2.1]
      exact hcount
    · simp [unit_bind_eq_ok_iff] at hcounts
  · refine ⟨fun hwilson => absurd hwilson hmethod, fun _ => ?_⟩
    rw [meanVarianceStatistics, unit_bind_eq_ok_iff] at hstats
    obtain ⟨-, hcounts⟩ := hstats
    split at hcounts
    · rename_i count hasInt
      simp only [unit_bind_eq_ok_iff, ensureStatistics, ensure_eq_ok_iff] at hcounts
      obtain ⟨hdegrees, hscale, hnumbers⟩ := hcounts
      split at hnumbers
      · simp only [pure_eq_ok, Except.ok.injEq, Prod.mk.injEq] at hnumbers
        rw [hnumbers.1]
        exact ⟨hcount, ⟨count, hnumbers.1 ▸ hasInt, hdegrees⟩, hscale⟩
      · cases hnumbers
    · simp [unit_bind_eq_ok_iff] at hcounts

theorem claimMeasured_of_ok {holdoutItemCount coverage : PyValue}
    (hclaim : checkMeasuredClaim package holdoutItemCount claim = .ok coverage) :
    ClaimMeasured package holdoutItemCount claim ∧
      claim.field "nominal_coverage_ppm" = coverage := by
  simp only [checkMeasuredClaim, get_bind_eq_ok_iff, hash_bind_eq_ok_iff] at hclaim
  obtain ⟨-, -, hclaim⟩ := hclaim
  split at hclaim
  · exact absurd hclaim (fail_ne_ok _ _ _)
  · rename_i entry hentry
    rw [unit_bind_eq_ok_iff] at hclaim
    obtain ⟨hregistration, hclaim⟩ := hclaim
    obtain ⟨params, hparams, hclaim⟩ := bind_eq_ok_iff.mp hclaim
    obtain ⟨⟨statCount, stats⟩, hstats, hclaim⟩ := bind_eq_ok_iff.mp hclaim
    rw [hash_bind_eq_ok_iff] at hclaim
    obtain ⟨-, hclaim⟩ := hclaim
    split at hclaim
    · exact absurd hclaim (fail_ne_ok _ _ _)
    · simp only [unit_bind_eq_ok_iff, ensure_eq_ok_iff, Bool.and_eq_true, pure_eq_ok,
        Except.ok.injEq] at hclaim
      obtain ⟨-, ⟨hholdout, hcount⟩, -, rfl⟩ := hclaim
      obtain ⟨_, -, hparams⟩ := bind_eq_ok_iff.mp hparams
      simp only [unit_bind_eq_ok_iff, pure_eq_ok, Except.ok.injEq] at hparams
      obtain ⟨-, -, hparams⟩ := hparams
      simp only [checkRegistration, unit_bind_eq_ok_iff, ensure_eq_ok_iff,
        Bool.and_eq_true, PyValue.str, pyEq_str_right] at hregistration
      obtain ⟨⟨hkind, hdirection⟩, hunit, -⟩ := hregistration
      exact ⟨{
        registered := ⟨entry, hentry, hkind, hdirection, hunit⟩
        sampleSize := hholdout
        shared := statistics_of_ok hparams hstats hcount }, rfl⟩

/-- S5: the certified set. -/
structure SetMeasured (package : Package) (bundle : PyValue) (claims : List PyValue) :
    Prop where
  planned : ∃ ids, getItems (planOf bundle) "objective_ids" = .ok ids ∧
    ∀ claim ∈ claims, isElement (claim.field "objective_id") ids = true
  measured : ∀ claim ∈ claims,
    ClaimMeasured package (holdoutItemCount (bundle.field "evaluation_splits")) claim
  coverage : ∀ claim ∈ claims, ∀ other ∈ claims,
    pyEq (claim.field "nominal_coverage_ppm") (other.field "nominal_coverage_ppm") = true

/-- A certified set that passes the stage is planned, measured by claim, and of one coverage. -/
theorem setMeasured_of_stageS5 {claims : List PyValue}
    (hstage : stageS5ObjectiveMeasurement package bundle = .ok ())
    (hclaims : getItems bundle "measured_claims" = .ok claims) (hne : claims ≠ []) :
    SetMeasured package bundle claims := by
  rw [stageS5ObjectiveMeasurement, hclaims, ok_bind, if_neg hne] at hstage
  simp only [envelopeMember_bind_eq_ok_iff, index_bind_eq_ok_iff] at hstage
  obtain ⟨-, -, -, hstage⟩ := hstage
  obtain ⟨claimIds, hids, hstage⟩ := bind_eq_ok_iff.mp hstage
  simp only [get_bind_eq_ok_iff, unit_bind_eq_ok_iff, ensure_eq_ok_iff,
    hash_bind_eq_ok_iff] at hstage
  obtain ⟨-, -, -, -, -, -, -, hstage⟩ := hstage
  obtain ⟨coverages, hcoverages, hsame⟩ := bind_eq_ok_iff.mp hstage
  have hrows := mapM_eq_ok_iff.mp hcoverages
  have hsame : ∀ coverage ∈ coverages, ∀ other ∈ coverages, pyEq coverage other = true := by
    simpa using hsame
  have hcoverage : ∀ claim ∈ claims, claim.field "nominal_coverage_ppm" ∈ coverages := by
    intro claim hclaim
    obtain ⟨coverage, hmem, hok⟩ := exists_of_mem_left hrows hclaim
    rw [(claimMeasured_of_ok hok).2]
    exact hmem
  refine ⟨?_, ?_, fun claim hclaim other hother =>
    hsame _ (hcoverage claim hclaim) _ (hcoverage other hother)⟩
  · rw [certifiedIds] at hids
    obtain ⟨ids, hplan, hrest⟩ := bind_eq_ok_iff.mp hids
    obtain ⟨hashed, hhashed, hclaimIds⟩ := bind_eq_ok_iff.mp hrest
    have hequal : hashed = ids := by
      have hrows := mapM_eq_ok_iff.mp hhashed
      rw [← List.map_id ids, ← List.map_id hashed, map_eq_map_iff_forall₂]
      exact hrows.flip.imp fun id value hhash => by
        rw [hash] at hhash
        split_ifs at hhash
        exact (Except.ok.inj hhash).symm
    subst hequal
    refine ⟨hashed, hplan, fun claim hclaim => ?_⟩
    obtain ⟨id, -, hid⟩ := exists_of_mem_left (mapM_eq_ok_iff.mp hclaimIds) hclaim
    simp only [get_bind_eq_ok_iff, hash_bind_eq_ok_iff, unit_bind_eq_ok_iff,
      ensure_eq_ok_iff] at hid
    exact hid.2.2.1
  · intro claim hclaim
    obtain ⟨coverage, -, hok⟩ := exists_of_mem_left hrows hclaim
    exact (claimMeasured_of_ok hok).1

end Established

end TraigentSchema.AgentQuality
