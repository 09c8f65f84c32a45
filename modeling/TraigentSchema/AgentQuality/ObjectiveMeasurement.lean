import TraigentSchema.AgentQuality.Wilson

/-!
# Stage S5: objective registration and interval recomputation

Every certified claim names a registered objective, carries the statistics its
interval method needs, and prints the interval that exact integer arithmetic
recomputes from those statistics.
-/

namespace TraigentSchema.AgentQuality

open TraigentSchema.Unicode
open TraigentSchema.Certification
open TraigentSchema.Python
open TraigentSchema.Traverse

/-! ## The objective registry -/

structure ObjectiveEntry where
  objectiveId : String
  objectiveKind : String
  unit : String
  direction : String
  minimum : ℤ
  maximum : ℤ
  minimumSampleSize : ℤ
  distributionAssumption : Option String
  deriving DecidableEq, Repr

/-- The entries of `agent_quality_objective_registry.json`. -/
def shippedObjectiveEntries : List ObjectiveEntry :=
  [{  objectiveId := "obj.accuracy.exact_match.v1"
      objectiveKind := "binary_rate"
      unit := "ppm"
      direction := "maximize"
      minimum := 0
      maximum := 1000000
      minimumSampleSize := 30
      distributionAssumption := none },
   {  objectiveId := "obj.accuracy.evaluator_score_mean.v1"
      objectiveKind := "bounded_mean"
      unit := "ppm"
      direction := "maximize"
      minimum := 0
      maximum := 1000000
      minimumSampleSize := 30
      distributionAssumption := none },
   {  objectiveId := "obj.cost.mean_microusd_per_item.v1"
      objectiveKind := "nonnegative_mean"
      unit := "microusd"
      direction := "minimize"
      minimum := 0
      maximum := 1000000000000000
      minimumSampleSize := 200
      distributionAssumption := some "clt_adequate_n200_v1" },
   {  objectiveId := "obj.latency.mean_us.v1"
      objectiveKind := "nonnegative_mean"
      unit := "microsecond"
      direction := "minimize"
      minimum := 0
      maximum := 1000000000000000
      minimumSampleSize := 200
      distributionAssumption := some "clt_adequate_n200_v1" },
   {  objectiveId := "obj.latency.p50_us.v1"
      objectiveKind := "nonnegative_quantile"
      unit := "microsecond"
      direction := "minimize"
      minimum := 0
      maximum := 1000000000000000
      minimumSampleSize := 100
      distributionAssumption := none }]

/-- A rate is measured in ppm, from none to all. -/
theorem binaryRate_bounds {entry : ObjectiveEntry} (hentry : entry ∈ shippedObjectiveEntries)
    (hkind : entry.objectiveKind = "binary_rate") :
    entry.minimum = 0 ∧ entry.maximum = tScale := by
  have hall : ∀ entry ∈ shippedObjectiveEntries, entry.objectiveKind = "binary_rate" →
      entry.minimum = 0 ∧ entry.maximum = tScale := by decide +kernel
  exact hall entry hentry hkind

/-- `EmittableIntervalMethodV1`: the interval methods but for the two excluded. -/
def emittableIntervalMethods : List String :=
  ["wilson_score_v1", "student_t_normal_approx_v1"]

/-- `_ADMISSIBLE_INTERVAL_METHOD_BY_OBJECTIVE_KIND`. -/
def admissibleIntervalMethod : String → Option String
  | "binary_rate" => some "wilson_score_v1"
  | "bounded_mean" => some "student_t_normal_approx_v1"
  | "nonnegative_mean" => some "student_t_normal_approx_v1"
  | "nonnegative_quantile" => some "order_statistic_quantile_v1"
  | _ => none

/-- `DistributionAssumptionV1`. -/
def distributionAssumptionValues : List String :=
  ["clt_adequate_n200_v1"]

/-! ## Recomputation -/

/-- The numbers a claim's sufficient statistics state, by interval method. -/
inductive Statistics where
  | binomial (successCount trialCount : ℤ)
  | meanVariance (meanFixed sampleStddevFixed sampleCount : ℤ)
  deriving DecidableEq, Repr

def isqrtScale : ℤ := 1000000

/-- `math.isqrt(sample_count * _ISQRT_SCALE * _ISQRT_SCALE)`, for a count that is
not negative. -/
def scaledSqrt (sampleCount : ℤ) : ℤ :=
  Nat.sqrt (sampleCount * isqrtScale * isqrtScale).toNat

def studentTHalfWidth (table : List QuantileRow)
    (sampleStddevFixed sampleCount coveragePpm : ℤ) : Checked ℤ := do
  let tScaled ← lookupTScaled table coveragePpm (sampleCount - 1)
  -- `math.isqrt` of a negative number and the division by a root of zero raise.
  if sampleCount ≤ 0 then .error .other
  else
    let numerator := tScaled * sampleStddevFixed * isqrtScale
    let denominator := tScale * scaledSqrt sampleCount
    return -(-numerator / denominator)

/-- Row 32: the point estimate the statistics give. -/
def expectedPoint : Statistics → Checked ℤ
  | .binomial successCount trialCount =>
      if 2 * trialCount = 0 then .error .other
      else .ok (wilsonPoint successCount trialCount)
  | .meanVariance meanFixed _ _ => .ok meanFixed

/-- Row 33: the endpoints the statistics give. -/
def expectedEndpoints (table : List QuantileRow) (coveragePpm : ℤ) :
    Statistics → Checked (ℤ × ℤ)
  | .binomial successCount trialCount =>
      wilsonBounds table successCount trialCount coveragePpm
  | .meanVariance meanFixed sampleStddevFixed sampleCount => do
      let halfWidth ← studentTHalfWidth table sampleStddevFixed sampleCount coveragePpm
      return (meanFixed - halfWidth, meanFixed + halfWidth)

/-- Row 36, for one of the three declared values. -/
def checkUnitBounds (entry : ObjectiveEntry) (endpoint : PyValue) : Checked ℤ :=
  match asInt endpoint with
  | some e =>
      if e < entry.minimum ∨ entry.maximum < e then
        fail "INTERVAL_OUT_OF_UNIT_BOUNDS" "measured_claims.interval"
      else .ok e
  | none => fail "INTERVAL_OUT_OF_UNIT_BOUNDS" "measured_claims.interval"

/-- Rows 36, 34, 35, 32 and 33, in this order: the declared interval on its own,
then against the recomputation. -/
def checkIntervalRows (table : List QuantileRow) (entry : ObjectiveEntry)
    (coveragePpm : ℤ) (stats : Statistics) (low point high : PyValue) :
    Checked Unit := do
  let low ← checkUnitBounds entry low
  let point ← checkUnitBounds entry point
  let high ← checkUnitBounds entry high
  ensure (decide (low ≤ point ∧ point ≤ high)) "INTERVAL_ORDER" "measured_claims.interval"
  ensure (decide (low < high)) "INTERVAL_DEGENERATE" "measured_claims.interval"
  let estimate ← expectedPoint stats
  ensure (decide (point = estimate)) "POINT_ESTIMATE_RECOMPUTATION_MISMATCH"
    "measured_claims.interval"
  let expected ← expectedEndpoints table coveragePpm stats
  ensure (decide (low = expected.1 ∧ high = expected.2)) "INTERVAL_RECOMPUTATION_MISMATCH"
    "measured_claims.interval"

/-! ## What the rows accept -/

/-- The interval and the point estimate that the statistics give, in the order of
their values. -/
def recomputed (table : List QuantileRow) (coveragePpm : ℤ) (stats : Statistics) :
    Checked (ℤ × ℤ × ℤ) := do
  let point ← expectedPoint stats
  let endpoints ← expectedEndpoints table coveragePpm stats
  return (endpoints.1, point, endpoints.2)

section Rows

variable {table : List QuantileRow} {entry : ObjectiveEntry} {coveragePpm : ℤ}
  {stats : Statistics}

theorem checkUnitBounds_int_eq_ok_iff {e e' : ℤ} :
    checkUnitBounds entry (.leaf (.int e)) = .ok e' ↔
      (entry.minimum ≤ e ∧ e ≤ entry.maximum) ∧ e = e' := by
  simp only [checkUnitBounds, asInt_int]
  split_ifs with hout
  · simp only [fail_ne_ok, false_iff]
    rintro ⟨⟨hmin, hmax⟩, -⟩
    omega
  · rw [Except.ok.injEq, iff_and_self]
    intro
    omega

/-- The rows accept an ordered interval within the bounds of the entry that equals
the recomputation, and no other. -/
theorem checkIntervalRows_eq_ok_iff {low point high : ℤ} :
    checkIntervalRows table entry coveragePpm stats
        (.leaf (.int low)) (.leaf (.int point)) (.leaf (.int high)) = .ok () ↔
      recomputed table coveragePpm stats = .ok (low, point, high) ∧
        entry.minimum ≤ low ∧ low ≤ point ∧ point ≤ high ∧ high ≤ entry.maximum ∧
          low < high := by
  simp only [checkIntervalRows, recomputed, bind_eq_ok_iff, checkUnitBounds_int_eq_ok_iff,
    ensure_eq_ok_iff, decide_eq_true_eq, pure_eq_ok, Except.ok.injEq, Prod.mk.injEq]
  constructor
  · rintro ⟨_, ⟨⟨hlowMin, -⟩, rfl⟩, _, ⟨-, rfl⟩, _, ⟨⟨-, hhighMax⟩, rfl⟩, -,
      ⟨hlowPoint, hpointHigh⟩, -, hlt, estimate, hestimate, -, rfl, ends, hends, rfl, rfl⟩
    exact ⟨⟨_, hestimate, ends, hends, rfl, rfl, rfl⟩, hlowMin, hlowPoint, hpointHigh,
      hhighMax, hlt⟩
  · rintro ⟨⟨_, hestimate, ends, hends, rfl, rfl, rfl⟩, hlowMin, hlowPoint, hpointHigh,
      hhighMax, hlt⟩
    refine ⟨_, ⟨⟨hlowMin, by omega⟩, rfl⟩, _, ⟨⟨by omega, by omega⟩, rfl⟩, _,
      ⟨⟨by omega, hhighMax⟩, rfl⟩, (), ⟨hlowPoint, hpointHigh⟩, (), hlt, _, hestimate,
      (), rfl, ends, hends, rfl, rfl⟩

/-- One interval and point estimate pass the rows: the recomputed ones. -/
def Certifiable (table : List QuantileRow) (entry : ObjectiveEntry) (coveragePpm : ℤ)
    (stats : Statistics) : Prop :=
  ∃ low point high : ℤ, recomputed table coveragePpm stats = .ok (low, point, high) ∧
    ∀ l p h : ℤ, checkIntervalRows table entry coveragePpm stats
      (.leaf (.int l)) (.leaf (.int p)) (.leaf (.int h)) = .ok () ↔
        l = low ∧ p = point ∧ h = high

/-- Statistics are certifiable exactly when what they recompute to is an ordered
interval within the bounds. -/
theorem certifiable_iff_recomputed {low point high : ℤ}
    (hrecomputed : recomputed table coveragePpm stats = .ok (low, point, high)) :
    Certifiable table entry coveragePpm stats ↔
      entry.minimum ≤ low ∧ low ≤ point ∧ point ≤ high ∧ high ≤ entry.maximum ∧
        low < high := by
  constructor
  · rintro ⟨l, p, h, heq, hrows⟩
    rw [hrecomputed, Except.ok.injEq, Prod.mk.injEq, Prod.mk.injEq] at heq
    obtain ⟨rfl, rfl, rfl⟩ := heq
    exact (checkIntervalRows_eq_ok_iff.mp ((hrows _ _ _).mpr ⟨rfl, rfl, rfl⟩)).2
  · intro hordered
    refine ⟨low, point, high, hrecomputed, fun l p h => ?_⟩
    rw [checkIntervalRows_eq_ok_iff, hrecomputed, Except.ok.injEq, Prod.mk.injEq,
      Prod.mk.injEq]
    constructor
    · rintro ⟨⟨rfl, rfl, rfl⟩, -⟩
      exact ⟨rfl, rfl, rfl⟩
    · rintro ⟨rfl, rfl, rfl⟩
      exact ⟨⟨rfl, rfl, rfl⟩, hordered⟩

end Rows

/-! ## Wilson intervals are always certifiable -/

section Wilson

variable {table : List QuantileRow} {coveragePpm z k n : ℤ}

theorem recomputed_binomial (hn : 1 ≤ n)
    (hlookup : lookupTScaled table coveragePpm infinityDfBucket = .ok z) :
    recomputed table coveragePpm (.binomial k n) =
      .ok ((wilsonEndpoints z k n).1, wilsonPoint k n, (wilsonEndpoints z k n).2) := by
  have hdouble : ¬ 2 * n = 0 := by omega
  simp only [recomputed, expectedPoint, if_neg hdouble, expectedEndpoints,
    wilsonBounds_eq hn hlookup, ok_bind, pure_eq_ok]

/-- The recomputed Wilson interval is an ordered one within the unit bounds. -/
theorem certifiable_binomial {entry : ObjectiveEntry} (hmin : entry.minimum ≤ 0)
    (hmax : tScale ≤ entry.maximum) (hz : 0 < z) (hk : 0 ≤ k) (hkn : k ≤ n) (hn : 1 ≤ n)
    (hlookup : lookupTScaled table coveragePpm infinityDfBucket = .ok z) :
    Certifiable table entry coveragePpm (.binomial k n) := by
  obtain ⟨hlow, hhigh⟩ := wilsonEndpoints_mem hz hk hkn hn
  obtain ⟨hlowPoint, hpointHigh⟩ := wilsonPoint_mem hz hk hkn hn
  apply (certifiable_iff_recomputed (recomputed_binomial hn hlookup)).mpr
  exact ⟨hmin.trans hlow, hlowPoint, hpointHigh, hhigh.trans hmax,
    wilsonEndpoints_lt hz hk hkn hn⟩

/-- Wilson bounds are the roots of the Wilson equation, rounded outward; they hold
the point estimate between them within the unit, so that the rows of stage S5 accept
them; they mirror and they widen with the quantile. -/
theorem wilsonBounds_exact_outward (hz : 0 < z) (hk : 0 ≤ k) (hkn : k ≤ n) (hn : 1 ≤ n)
    (hlookup : lookupTScaled table coveragePpm infinityDfBucket = .ok z) :
    ∃ low high : ℤ, wilsonBounds table k n coveragePpm = .ok (low, high) ∧
      (∃ lower upper : ℝ, 0 ≤ lower ∧ lower < upper ∧ upper ≤ 1 ∧
        (∀ p : ℝ, wilsonPolynomial (unscaled z) k n p = 0 ↔ p = lower ∨ p = upper) ∧
        low = ⌊lower * tScale⌋ ∧ high = ⌈upper * tScale⌉) ∧
      0 ≤ low ∧ low ≤ wilsonPoint k n ∧ wilsonPoint k n ≤ high ∧ high ≤ tScale ∧
      low < high ∧
      (∀ entry ∈ shippedObjectiveEntries, entry.objectiveKind = "binary_rate" →
        checkIntervalRows table entry coveragePpm (.binomial k n) (.leaf (.int low))
          (.leaf (.int (wilsonPoint k n))) (.leaf (.int high)) = .ok ()) ∧
      wilsonBounds table (n - k) n coveragePpm = .ok (tScale - high, tScale - low) ∧
      ∀ coveragePpm' z', lookupTScaled table coveragePpm' infinityDfBucket = .ok z' →
        z ≤ z' → ∃ low' high', wilsonBounds table k n coveragePpm' = .ok (low', high') ∧
          low' ≤ low ∧ high ≤ high' := by
  have hpos := unscaled_pos hz
  have hmem := wilsonEndpoints_mem hz hk hkn hn
  have hpoint := wilsonPoint_mem hz hk hkn hn
  have hlt := wilsonEndpoints_lt hz hk hkn hn
  have heq := wilsonEndpoints_eq hz hk hkn hn
  refine ⟨(wilsonEndpoints z k n).1, (wilsonEndpoints z k n).2, wilsonBounds_eq hn hlookup,
    ?_, hmem.1, hpoint.1, hpoint.2, hmem.2, hlt, ?_, ?_, ?_⟩
  · exact ⟨lowerRoot (unscaled z) k n, upperRoot (unscaled z) k n, lowerRoot_nonneg hk hn,
      lowerRoot_lt_upperRoot hpos hk hkn hn, upperRoot_le_one hkn hn,
      fun p => wilsonPolynomial_eq_zero_iff hpos hk hkn hn,
      congrArg Prod.fst heq, congrArg Prod.snd heq⟩
  · intro entry hentry hkind
    have hbounds : entry.minimum = 0 ∧ entry.maximum = tScale :=
      binaryRate_bounds hentry hkind
    apply checkIntervalRows_eq_ok_iff.mpr
    refine ⟨recomputed_binomial hn hlookup, ?_, hpoint.1, hpoint.2, ?_, hlt⟩
    · exact hbounds.1.trans_le hmem.1
    · exact hmem.2.trans_eq hbounds.2.symm
  · rw [wilsonBounds_eq hn hlookup, wilsonEndpoints_mirror hz hk hkn hn]
  · intro coveragePpm' z' hlookup' hzz
    obtain ⟨hlow, hhigh⟩ := wilsonEndpoints_mono hz hk hkn hn hzz
    exact ⟨_, _, wilsonBounds_eq hn hlookup', hlow, hhigh⟩

/-- The interval of 27 successes in 30 trials at 95%. -/
theorem wilsonBounds_exact_outward_example :
    ∃ low high : ℤ, wilsonBounds shippedQuantileTable 27 30 950000 = .ok (low, high) ∧
      low < high := by
  have hlookup : lookupTScaled shippedQuantileTable 950000 infinityDfBucket = .ok 1959964 := by
    decide +kernel
  obtain ⟨low, high, hbounds, -, -, -, -, -, hlt, -⟩ :=
    wilsonBounds_exact_outward (k := 27) (n := 30) (by decide) (by decide) (by decide)
      (by decide) hlookup
  exact ⟨low, high, hbounds, hlt⟩

end Wilson

/-! ## Student-t intervals are certifiable where they fit -/

/-- The statistics the bundle schema admits for an entry of an emittable kind. -/
def Statistics.Admissible (entry : ObjectiveEntry) : Statistics → Prop
  | .binomial successCount trialCount =>
      entry.objectiveKind = "binary_rate" ∧ 0 ≤ successCount ∧ successCount ≤ trialCount ∧
        entry.minimumSampleSize ≤ trialCount
  | .meanVariance meanFixed sampleStddevFixed sampleCount =>
      (entry.objectiveKind = "bounded_mean" ∨ entry.objectiveKind = "nonnegative_mean") ∧
        entry.minimum ≤ meanFixed ∧ meanFixed ≤ entry.maximum ∧ 0 < sampleStddevFixed ∧
        entry.minimumSampleSize ≤ sampleCount

instance (entry : ObjectiveEntry) : DecidablePred (Statistics.Admissible entry)
  | .binomial _ _ => inferInstanceAs (Decidable (_ ∧ _))
  | .meanVariance _ _ _ => inferInstanceAs (Decidable (_ ∧ _))

/-- The quantile times the standard error reaches no farther than the nearer bound
of the entry. -/
def Statistics.FitsUnit (table : List QuantileRow) (entry : ObjectiveEntry)
    (coveragePpm : ℤ) : Statistics → Prop
  | .binomial _ _ => True
  | .meanVariance meanFixed sampleStddevFixed sampleCount =>
      ∀ t, lookupTScaled table coveragePpm (sampleCount - 1) = .ok t →
        t * sampleStddevFixed ≤
          min (meanFixed - entry.minimum) (entry.maximum - meanFixed) *
            scaledSqrt sampleCount

theorem scaledSqrt_pos {sampleCount : ℤ} (hcount : 1 ≤ sampleCount) :
    0 < scaledSqrt sampleCount := by
  have hpos : 0 < sampleCount * isqrtScale * isqrtScale := by
    unfold isqrtScale
    omega
  have hnat : 0 < (sampleCount * isqrtScale * isqrtScale).toNat := Int.lt_toNat.mpr hpos
  exact Int.natCast_pos.mpr (Nat.sqrt_pos.mpr hnat)

section StudentT

variable {table : List QuantileRow} {coveragePpm mean stddev count t : ℤ}

/-- The half-width is the scaled quantile times the standard error, rounded up. -/
theorem exists_halfWidth (hcount : 1 ≤ count)
    (hlookup : lookupTScaled table coveragePpm (count - 1) = .ok t) :
    ∃ w, studentTHalfWidth table stddev count coveragePpm = .ok w ∧
      ∀ r, w ≤ r ↔ t * stddev ≤ r * scaledSqrt count := by
  have hsqrt := scaledSqrt_pos hcount
  have hcountPos : ¬ count ≤ 0 := by omega
  refine ⟨_, by rw [studentTHalfWidth, hlookup, ok_bind, if_neg hcountPos]; rfl, fun r => ?_⟩
  have hden : 0 < tScale * scaledSqrt count := mul_pos (by decide) hsqrt
  rw [neg_le, Int.le_ediv_iff_mul_le hden, neg_mul, neg_le_neg_iff]
  have hscale : (0 : ℤ) < isqrtScale := by decide
  have hsame : r * (tScale * scaledSqrt count) = (r * scaledSqrt count) * isqrtScale := by
    rw [show tScale = isqrtScale from rfl]
    ring
  rw [hsame]
  exact mul_le_mul_iff_left₀ hscale

theorem certifiable_meanVariance_iff {entry : ObjectiveEntry} (hcount : 1 ≤ count)
    (ht : 0 < t) (hstddev : 0 < stddev)
    (hlookup : lookupTScaled table coveragePpm (count - 1) = .ok t) :
    Certifiable table entry coveragePpm (.meanVariance mean stddev count) ↔
      t * stddev ≤ min (mean - entry.minimum) (entry.maximum - mean) *
        scaledSqrt count := by
  obtain ⟨w, hwidth, hle⟩ :=
    @exists_halfWidth table coveragePpm stddev count t hcount hlookup
  have hpos : 0 < w := by
    by_contra hnonpos
    have hzero := (hle 0).mp (by omega)
    have hproduct := mul_pos ht hstddev
    omega
  have hrecomputed : recomputed table coveragePpm (.meanVariance mean stddev count) =
      .ok (mean - w, mean, mean + w) := by
    simp only [recomputed, expectedPoint, expectedEndpoints, hwidth, ok_bind, pure_eq_ok]
  rw [certifiable_iff_recomputed hrecomputed, ← hle, le_min_iff]
  omega

end StudentT

/-- Every admissible entry of the shipped registry has a first count to measure. -/
theorem one_lt_minimumSampleSize {entry : ObjectiveEntry}
    (hentry : entry ∈ shippedObjectiveEntries) : 1 < entry.minimumSampleSize := by
  have hall : ∀ entry ∈ shippedObjectiveEntries, 1 < entry.minimumSampleSize := by
    decide +kernel
  exact hall entry hentry

theorem infinity_lookup {coveragePpm : ℤ} (hcoverage : coveragePpm ∈ nominalCoverageValues) :
    ∃ z, lookupTScaled shippedQuantileTable coveragePpm infinityDfBucket = .ok z ∧ 0 < z :=
  exists_shipped_quantile hcoverage (by decide)

/-- Admissible statistics are certifiable exactly when they are counts, or when the
Student-t interval stays within the bounds of the entry. -/
theorem certifiable_iff_fitsUnit {entry : ObjectiveEntry} {coveragePpm : ℤ}
    {stats : Statistics} (hentry : entry ∈ shippedObjectiveEntries)
    (hcoverage : coveragePpm ∈ nominalCoverageValues) (hstats : stats.Admissible entry) :
    Certifiable shippedQuantileTable entry coveragePpm stats ↔
      stats.FitsUnit shippedQuantileTable entry coveragePpm := by
  have hminimum := one_lt_minimumSampleSize hentry
  cases stats with
  | binomial k n =>
      obtain ⟨hkind, hk, hkn, hn⟩ := hstats
      obtain ⟨z, hlookup, hz⟩ := infinity_lookup hcoverage
      obtain ⟨hmin, hmax⟩ := binaryRate_bounds hentry hkind
      apply iff_of_true _ trivial
      exact certifiable_binomial hmin.le hmax.ge hz hk hkn (by omega) hlookup
  | meanVariance mean stddev count =>
      obtain ⟨-, -, -, hstddev, hcount⟩ := hstats
      have hdf : 1 ≤ count - 1 := by omega
      obtain ⟨t, hlookup, ht⟩ := exists_shipped_quantile hcoverage hdf
      rw [certifiable_meanVariance_iff (by omega) ht hstddev hlookup]
      constructor
      · intro hfits t' hlookup'
        rw [hlookup, Except.ok.injEq] at hlookup'
        exact hlookup' ▸ hfits
      · intro hfits
        exact hfits t hlookup

theorem scaledSqrt_thirty : scaledSqrt 30 = 5477225 := by
  have hsqrt : Nat.sqrt 30000000000000 = 5477225 := Nat.eq_sqrt.mpr (by decide) |>.symm
  rw [scaledSqrt, show ((30 : ℤ) * isqrtScale * isqrtScale).toNat = 30000000000000 from rfl,
    hsqrt]
  rfl

theorem lookupTScaled_thirty :
    lookupTScaled shippedQuantileTable 950000 (30 - 1) = .ok 2045230 := by
  decide +kernel

/-- Over 30 items a mean score of 0.5 with a deviation of 0.05 is certifiable, and one of 0.99
is not. -/
theorem certifiable_iff_fitsUnit_thirty :
    ∃ entry ∈ shippedObjectiveEntries, entry.objectiveKind = "bounded_mean" ∧
      Certifiable shippedQuantileTable entry 950000 (.meanVariance 500000 50000 30) ∧
      ¬ Certifiable shippedQuantileTable entry 950000 (.meanVariance 990000 50000 30) := by
  refine ⟨shippedObjectiveEntries[1], by decide +kernel, by decide +kernel, ?_, ?_⟩
  · apply (certifiable_iff_fitsUnit (by decide +kernel) (by decide) (by decide +kernel)).mpr
    intro t hlookup
    obtain rfl := Except.ok.inj (lookupTScaled_thirty.symm.trans hlookup)
    rw [scaledSqrt_thirty]
    decide +kernel
  · rw [certifiable_iff_fitsUnit (by decide +kernel) (by decide) (by decide +kernel)]
    intro hfits
    have hunit := hfits _ lookupTScaled_thirty
    rw [scaledSqrt_thirty] at hunit
    revert hunit
    decide +kernel

/-- The half-width of a deviation of 0.05 over 30 items. -/
theorem studentTHalfWidth_thirty :
    studentTHalfWidth shippedQuantileTable 50000 30 950000 = .ok 18671 := by
  rw [studentTHalfWidth, lookupTScaled_thirty, ok_bind, scaledSqrt_thirty]
  decide

/-- A mean score of 0.99 with a deviation of 0.05 over 30 items is admissible, and no
interval around it passes the rows: its upper end would be 1.008671. -/
theorem meanScore_not_certifiable :
    ∃ entry ∈ shippedObjectiveEntries, ∃ stats : Statistics,
      stats = .meanVariance 990000 50000 30 ∧ stats.Admissible entry ∧
      950000 ∈ nominalCoverageValues ∧
      recomputed shippedQuantileTable 950000 stats = .ok (971329, 990000, 1008671) ∧
      ∀ low point high : ℤ, checkIntervalRows shippedQuantileTable entry 950000 stats
        (.leaf (.int low)) (.leaf (.int point)) (.leaf (.int high)) ≠ .ok () := by
  have hrecomputed : recomputed shippedQuantileTable 950000 (.meanVariance 990000 50000 30) =
      .ok (971329, 990000, 1008671) := by
    simp only [recomputed, expectedPoint, expectedEndpoints, studentTHalfWidth_thirty, ok_bind]
    decide
  refine ⟨shippedObjectiveEntries[1], by decide +kernel, _, rfl, by decide +kernel,
    by decide, hrecomputed, fun low point high hrows => ?_⟩
  obtain ⟨heq, -, -, -, hmax, -⟩ := checkIntervalRows_eq_ok_iff.mp hrows
  rw [hrecomputed, Except.ok.injEq, Prod.mk.injEq, Prod.mk.injEq] at heq
  obtain ⟨rfl, rfl, rfl⟩ := heq
  exact absurd hmax (by decide)

end TraigentSchema.AgentQuality
