import TraigentSchema.AgentQuality.Environment

/-!
# The installed registries

The four documents of the package, with the entries that the verifier reads from them.
-/

namespace TraigentSchema.AgentQuality

open TraigentSchema.Fp2
open TraigentSchema.Certification
open TraigentSchema.Python

/-- `agent_quality_aggregation_policy.json`. -/
def aggregationPolicyDocument : PyValue :=
  .object [("schema_version", .str "traigent.agent_quality.aggregation_policy_document.v1"),
    ("policy_id", .str "traigent.aggregation_policy.pillar1.v1"),
    ("policy_version", .str "1.0.0"),
    ("per_item_aggregation", .str "unweighted_mean_v1"),
    ("multi_objective_combination", .str "no_combination_v1"),
    ("objective_weighting", .str "none_v1"),
    ("tie_rule", .str "no_ranking_v1"),
    ("missing_item_rule", .str "reject_v1"),
    ("canonicalization", .str "jcs_v1")]

/-- An entry of the objective registry; only some state a distribution assumption. -/
def ObjectiveEntry.document (entry : ObjectiveEntry) : PyValue :=
  .object ([("objective_id", .str entry.objectiveId),
    ("objective_kind", .str entry.objectiveKind), ("unit", .str entry.unit),
    ("direction", .str entry.direction), ("minimum", .leaf (.int entry.minimum)),
    ("maximum", .leaf (.int entry.maximum)),
    ("minimum_sample_size", .leaf (.int entry.minimumSampleSize))] ++
    entry.distributionAssumption.toList.map fun assumption =>
      ("distribution_assumption", .str assumption))

/-- `agent_quality_objective_registry.json`. -/
def objectiveRegistryDocument : PyValue :=
  .object [("schema_version", .str "traigent.agent_quality.objective_registry_document.v1"),
    ("registry_id", .str "traigent.objective_registry.pillar1.v1"),
    ("registry_version", .str "1.0.0"),
    ("canonicalization", .str "jcs_v1"),
    ("entries", .list (shippedObjectiveEntries.map ObjectiveEntry.document))]

/-- The non-claims: id, reason template and text. -/
def nonClaimCatalog : List (String × String × String) :=
  [("NCQ_NO_GENERALIZATION", "tmpl.aq.noncert.no_generalization.v1",
      "This certificate does not establish that the result reported by the" ++
      " customer generalizes to inputs, workloads, or deployments beyond the" ++
      " declared holdout evaluation."),
    ("NCQ_NO_EXPANDED_EVALUATION", "tmpl.aq.noncert.no_expanded_evaluation.v1",
      "Passing this certificate's evaluation does not establish that the" ++
      " agent would pass a materially different or expanded evaluation."),
    ("NCQ_NO_PRODUCTION_TRAFFIC", "tmpl.aq.noncert.no_production_traffic.v1",
      "This certificate does not establish that the certified configuration" ++
      " is the best configuration for production traffic, because production" ++
      " traffic was not the evaluated population."),
    ("NCQ_NO_GENERAL_CORRECTNESS", "tmpl.aq.noncert.no_general_correctness.v1",
      "This certificate does not establish that the certified agent behaves" ++
      " correctly, or as intended, in general; only the declared objectives" ++
      " on the declared holdout were reported by the customer, and Traigent" ++
      " has not measured them."),
    ("NCQ_NO_STATISTICAL_SUPERIORITY", "tmpl.aq.noncert.no_statistical_superiority.v1",
      "This certificate does not establish that the certified configuration" ++
      " is statistically better than the alternatives it was evaluated" ++
      " against."),
    ("NCQ_NO_WINNER_REPRODUCIBILITY", "tmpl.aq.noncert.no_winner_reproducibility.v1",
      "This certificate does not establish that the certified configuration" ++
      " would win again if the evaluation were re-run."),
    ("NCQ_NO_MARGIN_MEANING", "tmpl.aq.noncert.no_margin_meaning.v1",
      "This certificate does not establish that any margin between the" ++
      " certified configuration and a runner-up is meaningful or reliable."),
    ("NCQ_NO_CRITERIA_CHANGE_VALIDITY", "tmpl.aq.noncert.no_criteria_change_validity.v1",
      "This certificate's statistical language is not established to remain" ++
      " valid if the selection criteria change; a criteria change requires a" ++
      " new certificate."),
    ("NCQ_DATASET_VALIDITY_UNASSESSED", "tmpl.aq.noncert.dataset_validity_unassessed.v1",
      "This certificate does not assess whether the evaluation dataset" ++
      " correctly measures the target task; dataset validity is out of scope" ++
      " for v1."),
    ("NCQ_EVALUATOR_VALIDITY_UNASSESSED", "tmpl.aq.noncert.evaluator_validity_unassessed.v1",
      "This certificate does not assess whether the evaluator (judge or" ++
      " scorer) used is a correct or unbiased measure of the metric it" ++
      " reports."),
    ("NCQ_NO_SAFETY_OR_HARM", "tmpl.aq.noncert.no_safety_or_harm.v1",
      "This certificate makes no assertion about safety or harm; only the" ++
      " declared quality objectives were reported by the customer, and" ++
      " Traigent has not measured them."),
    ("NCQ_NO_DISTRIBUTION_SHIFT", "tmpl.aq.noncert.no_distribution_shift.v1",
      "This certificate does not establish that the holdout population" ++
      " matches, or will continue to match, any other population the agent" ++
      " may encounter."),
    ("NCQ_NO_FITNESS_FOR_PURPOSE", "tmpl.aq.noncert.no_fitness_for_purpose.v1",
      "This certificate does not establish that the certified agent is fit" ++
      " for any particular customer purpose beyond the declared objectives" ++
      " and holdout."),
    ("NCQ_NO_UNCERTIFIED_COMPARISON", "tmpl.aq.noncert.no_uncertified_comparison.v1",
      "This certificate does not establish a comparison against any" ++
      " configuration that was not itself certified under the same protocol."),
    ("NCQ_NOMINAL_COVERAGE_ONLY", "tmpl.aq.noncert.nominal_coverage_only.v1",
      "The stated interval coverage is nominal, not measured; this" ++
      " certificate does not establish that the true coverage of any interval" ++
      " equals its nominal value."),
    ("NCQ_PLAN_ORDERING_OUT_OF_SCOPE", "tmpl.aq.noncert.plan_ordering_out_of_scope.v1",
      "Ordering evidence — that the declared plan was authored before the" ++
      " results — is out of scope for v1 and is not verified by this" ++
      " certificate."),
    ("NCQ_SELECTION_ESTIMATE_NOT_CERTIFIED", "tmpl.aq.noncert.selection_estimate_not_certified.v1",
      "Estimates computed on the selection set are outside the holdout claim" ++
      " and are not covered by it; the holdout objective is reported by the" ++
      " customer, and Traigent does not vouch for it."),
    ("NCQ_NO_COST_LATENCY_SLA", "tmpl.aq.noncert.no_cost_latency_sla.v1",
      "This certificate does not establish, and does not constitute, a cost" ++
      " or latency service-level agreement."),
    ("NCQ_NO_LONGITUDINAL_STABILITY", "tmpl.aq.noncert.no_longitudinal_stability.v1",
      "This certificate does not establish that the objectives reported by" ++
      " the customer remain stable over time; it reflects a single evaluation" ++
      " at a single point in time."),
    ("NCQ_HOLDOUT_ONE_SHOT_SCOPE", "tmpl.aq.noncert.holdout_one_shot_scope.v1",
      "This certificate covers a single, one-shot use of the holdout split;" ++
      " it does not establish anything about repeated or iterative use of the" ++
      " same holdout."),
    ("NCQ_SUFFICIENT_STATISTICS_ATTESTED", "tmpl.aq.noncert.sufficient_statistics_attested.v1",
      "The verifier recomputes each interval's endpoints from the printed" ++
      " sufficient statistics; the statistics are reported by the customer's" ++
      " SDK, and Traigent has not observed or verified the underlying" ++
      " observations."),
    ("NCQ_SPLIT_MEMBERSHIP_NOT_OPENED", "tmpl.aq.noncert.split_membership_not_opened.v1",
      "The committed selection and holdout sets were not opened by this" ++
      " certificate; that they are the declared rule's partition is reported" ++
      " by the customer; Traigent has not verified it."),
    ("NCQ_QUANTILE_ENDPOINTS_ATTESTED", "tmpl.aq.noncert.quantile_endpoints_attested.v1",
      "The interval endpoints for quantile objectives are reported by the" ++
      " customer's SDK in the printed order-statistic record; Traigent has" ++
      " not recomputed them from, or verified, the underlying observations."),
    ("NCQ_SPLIT_KEY_TIMING_NOT_PROVEN", "tmpl.aq.noncert.split_key_timing_not_proven.v1",
      "This certificate does not prove when the split key was fixed relative" ++
      " to any other event; timing of split-key derivation is not" ++
      " established."),
    ("NCQ_REFS_ARE_A_LINKABILITY_CHANNEL", "tmpl.aq.noncert.refs_are_a_linkability_channel.v1",
      "Stable references printed on this certificate can correlate" ++
      " certificates that share them, even though the references themselves" ++
      " carry no content; this is disclosed, not concealed."),
    ("NCQ_HOLDOUT_NONUSE_NOT_PROVEN", "tmpl.aq.noncert.holdout_nonuse_not_proven.v1",
      "That no holdout item informed the choice of configuration is reported" ++
      " by the customer; Traigent has not verified it and this certificate" ++
      " does not prove holdout non-use."),
    ("NCQ_REF_MINTING_IS_AN_ISSUER_OBLIGATION",
      "tmpl.aq.noncert.ref_minting_is_an_issuer_obligation.v1",
      "That each reference on this certificate was server- or issuer-minted," ++
      " rather than a passthrough of a caller-supplied name, is an issuer" ++
      " obligation this certificate's pattern does not itself enforce or" ++
      " verify."),
    ("NCQ_SCORE_SCALE_IS_THE_EVALUATORS", "tmpl.aq.noncert.score_scale_is_the_evaluators.v1",
      "For the evaluator-score objective, the reported scale is the" ++
      " evaluator's own scale; this certificate does not assess or establish" ++
      " the validity of that evaluator.")]

def nonClaimDocument (entry : String × String × String) : PyValue :=
  .object [("non_claim_id", .str entry.1), ("reason_template_id", .str entry.2.1),
    ("rendered_text", .str entry.2.2)]

/-- `agent_quality_non_claim_catalog.json`. -/
def nonClaimCatalogDocument : PyValue :=
  .object [("schema_version", .str "traigent.agent_quality.non_claim_catalog_document.v1"),
    ("catalog_id", .str "traigent.agent_quality.non_claim_catalog.v1"),
    ("catalog_version", .str "1.0.0"),
    ("canonicalization", .str "jcs_v1"),
    ("entries", .list (nonClaimCatalog.map nonClaimDocument))]

def QuantileRow.document (row : QuantileRow) : PyValue :=
  .object [("nominal_coverage_ppm", .leaf (.int row.nominalCoveragePpm)),
    ("df_bucket", .leaf (.int row.dfBucket)),
    ("quantile_x1e6", .leaf (.int row.quantileX1e6))]

/-- `agent_quality_quantile_table.json`. -/
def quantileTableDocument : PyValue :=
  .object [("schema_version", .str "traigent.agent_quality.quantile_table_document.v1"),
    ("table_id", .str "traigent.quantile_table.student_t.v1"),
    ("table_version", .str "1.0.0"),
    ("canonicalization", .str "jcs_v1"),
    ("description", .str
      ("Two-sided Student-t quantiles, scaled by 1e6 and rounded up (ceiling)," ++
       " keyed by (nominal_coverage_ppm, df_bucket). df_bucket 1000000000 is" ++
       " the sentinel for the infinite-degrees-of-freedom (normal) row.")),
    ("df_bucket_infinity_sentinel", .leaf (.int 1000000000)),
    ("rows", .list (shippedQuantileTable.map QuantileRow.document))]

/-- The package as it is installed. -/
def shippedPackage : Package where
  document
    | .aggregationPolicy => aggregationPolicyDocument
    | .objectiveRegistry => objectiveRegistryDocument
    | .nonClaimCatalog => nonClaimCatalogDocument
    | .quantileTable => quantileTableDocument
  objectiveEntries := shippedObjectiveEntries
  nonClaimIds := nonClaimCatalog.map fun entry => entry.1
  quantileRows := shippedQuantileTable

/-! ## Their canonical texts -/

section Documents

variable {depth : ℕ}

theorem document_entry {entry : ObjectiveEntry} (hentry : entry ∈ shippedObjectiveEntries) :
    Document PlainAtom 1 entry.document := by
  have hsafe : ∀ entry ∈ shippedObjectiveEntries, entry.minimum.natAbs ≤ maxSafeInteger ∧
      entry.maximum.natAbs ≤ maxSafeInteger ∧
      entry.minimumSampleSize.natAbs ≤ maxSafeInteger := by decide +kernel
  obtain ⟨hminimum, hmaximum, hsample⟩ := hsafe entry hentry
  apply document_object
  · cases entry.distributionAssumption <;> simp
  · cases entry.distributionAssumption <;>
      simp [document_str, document_int, hminimum, hmaximum, hsample]

theorem document_quantileRow {row : QuantileRow} (hrow : row ∈ shippedQuantileTable) :
    Document PlainAtom 1 row.document := by
  have hsafe : ∀ row ∈ shippedQuantileTable,
      row.nominalCoveragePpm.natAbs ≤ maxSafeInteger ∧
      row.dfBucket.natAbs ≤ maxSafeInteger ∧ row.quantileX1e6.natAbs ≤ maxSafeInteger := by
    decide +kernel
  obtain ⟨hcoverage, hbucket, hquantile⟩ := hsafe row hrow
  apply document_object
  · simp
  · simp [document_int, hcoverage, hbucket, hquantile]

theorem document_nonClaim (entry : String × String × String) :
    Document PlainAtom 1 (nonClaimDocument entry) := by
  apply document_object <;> simp [document_str]

/-- Every installed document is one of strings and safe integers. -/
theorem document_shipped (registry : Registry) :
    Document PlainAtom 3 (shippedPackage.document registry) := by
  cases registry with
  | aggregationPolicy => apply document_object <;> simp [document_str]
  | objectiveRegistry =>
      have hentries := document_list_map @document_entry
      apply document_object <;> simp [document_str, hentries]
  | nonClaimCatalog =>
      have hentries := @document_list_map _ _ _ nonClaimCatalog _ fun entry _ =>
        document_nonClaim entry
      apply document_object <;> simp [document_str, hentries]
  | quantileTable =>
      have hrows := document_list_map @document_quantileRow
      have hsentinel : Document PlainAtom 2 (.leaf (.int 1000000000)) :=
        document_int (by decide)
      apply document_object <;> simp [document_str, hrows, hsentinel]

theorem canonicalizable_shipped (registry : Registry) :
    Canonicalizable (shippedPackage.document registry) :=
  (document_shipped registry).canonicalizable_of_plain (by decide)

end Documents

end TraigentSchema.AgentQuality
