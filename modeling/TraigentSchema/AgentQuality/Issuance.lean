import TraigentSchema.AgentQuality.Registries
import TraigentSchema.AgentQuality.Verifier
import TraigentSchema.Certification.Issuer

/-!
# Issuing an agent-quality certificate

The bundle an issuer builds around one claim about the evaluator's mean score, in the
order in which its digests depend on each other.  Whatever the refs and the counts, as
long as the split is plausible and the interval is the recomputed one, the verifier
accepts it.
-/

namespace TraigentSchema.AgentQuality

open TraigentSchema.Unicode
open TraigentSchema.Fp2
open TraigentSchema.Certification
open TraigentSchema.Python
open TraigentSchema.Traverse

/-- What the certificate is about, and what it states. -/
structure Certificate where
  record : VerifiedProcessRecord
  measurementContractRef : Text
  measurementContractRecordDigest : Text
  splitDatasetCommitmentRef : Text
  splitKeyCommitment : Text
  selectionCommitment : Text
  holdoutCommitment : Text
  selectionCount : ℤ
  holdoutCount : ℤ
  holdoutFractionPpm : ℤ
  selectionArmCount : ℤ
  nominalCoveragePpm : ℤ
  mean : ℤ
  stddev : ℤ
  intervalLow : ℤ
  intervalHigh : ℤ

/-- A verification with the installed registries. -/
def installed (platform : Platform) (schema : PyValue → SchemaOutcome) : Environment where
  platform := platform
  package := shippedPackage
  schema := schema

/-! ## The documents -/

section Documents

variable {platform : Platform} (issuer : Issuer platform) (certificate : Certificate)

/-- An installed registry, as every document identifies it. -/
def identityDocument (platform : Platform) (registry : Registry) : PyValue :=
  .object (registry.identityRows
    (digestValue platform registry.domain (shippedPackage.document registry)))

namespace Certificate

abbrev splitDerivationRows : List (String × PyValue) :=
  [("schema_version", .str "traigent.agent_quality.split_derivation.v1"),
    ("split_rule_id", .str "hmac_sha256_prefix_threshold_v1"),
    ("dataset_commitment_ref", .leaf (.str certificate.splitDatasetCommitmentRef)),
    ("evaluated_universe_item_count",
      .leaf (.int (certificate.selectionCount + certificate.holdoutCount))),
    ("holdout_fraction_ppm", .leaf (.int certificate.holdoutFractionPpm)),
    ("commitment_scheme", .str "sha256_secret_blinded_v1"),
    ("canonicalization_profile", .str "jcs_v1"),
    ("split_key_commitment", .leaf (.str certificate.splitKeyCommitment))]

abbrev splitDerivation (platform : Platform) : PyValue :=
  selfDigested platform (domain "split_derivation") "split_derivation_digest"
    certificate.splitDerivationRows

def splitDigest (platform : Platform) : PyValue :=
  digestValue platform (domain "split_derivation") (.object certificate.splitDerivationRows)

abbrev splitRecord (platform : Platform) (splitId : String) (itemCount : ℤ)
    (commitment : Text) : PyValue :=
  .object [("schema_version", .str "traigent.agent_quality.evaluation_split.v1"),
    ("split_id", .str splitId),
    ("item_count", .leaf (.int itemCount)),
    ("commitment_scheme", .str "sha256_secret_blinded_v1"),
    ("canonicalization_profile", .str "jcs_v1"),
    ("split_commitment_digest", .leaf (.str commitment)),
    ("split_derivation_digest", certificate.splitDigest platform)]

abbrev selectionRecord (platform : Platform) : PyValue :=
  certificate.splitRecord platform "selection" certificate.selectionCount
    certificate.selectionCommitment

abbrev holdoutRecord (platform : Platform) : PyValue :=
  certificate.splitRecord platform "holdout" certificate.holdoutCount
    certificate.holdoutCommitment

def evaluationSplits (platform : Platform) : PyValue :=
  .list [certificate.selectionRecord platform, certificate.holdoutRecord platform]

abbrev measuredClaim (platform : Platform) : PyValue :=
  .object [("schema_version", .str "traigent.agent_quality.measured_objective.v1"),
    ("objective_id", .str "obj.accuracy.evaluator_score_mean.v1"),
    ("objective_kind", .str "bounded_mean"),
    ("unit", .str "ppm"),
    ("direction", .str "maximize"),
    ("evaluated_split_id", .str "holdout"),
    ("sample_size", .leaf (.int certificate.holdoutCount)),
    ("point_estimate", .leaf (.int certificate.mean)),
    ("interval_low", .leaf (.int certificate.intervalLow)),
    ("interval_high", .leaf (.int certificate.intervalHigh)),
    ("interval_params", .object [("interval_method", .str "student_t_normal_approx_v1"),
      ("degrees_of_freedom", .leaf (.int (certificate.holdoutCount - 1))),
      ("quantile_table", identityDocument platform .quantileTable),
      ("recomputation_profile", .str "exact_integer_rational_v1")]),
    ("sufficient_statistics", .object [("stat_kind", .str "mean_variance_v1"),
      ("sample_count", .leaf (.int certificate.holdoutCount)),
      ("mean_fixed", .leaf (.int certificate.mean)),
      ("sample_stddev_fixed", .leaf (.int certificate.stddev)),
      ("unit_scale", .str "ppm")]),
    ("verification_level", .str "construction_recomputed_v1"),
    ("nominal_coverage_ppm", .leaf (.int certificate.nominalCoveragePpm)),
    ("measurement_contract_ref", .leaf (.str certificate.measurementContractRef)),
    ("measurement_contract_record_digest",
      .leaf (.str certificate.measurementContractRecordDigest))]

def measuredClaims (platform : Platform) : PyValue :=
  .list [certificate.measuredClaim platform]

end Certificate

abbrev nonClaimRecord (entry : String × String × String) : PyValue :=
  .object [("record_type", .str "non_claim"), ("non_claim_id", .str entry.1),
    ("reason_template_id", .str entry.2.1)]

def nonClaims : PyValue := .list (nonClaimCatalog.map nonClaimRecord)

abbrev assertionRows (platform : Platform) : List (String × PyValue) :=
  [("schema_version", .str "traigent.agent_quality.assertion.v1"),
    ("claim_id", .str "AQ1"),
    ("assertion_template_id", .str "agent_quality_measured_interval_v1"),
    ("aggregation_policy", identityDocument platform .aggregationPolicy),
    ("objective_registry", identityDocument platform .objectiveRegistry),
    ("rendered_text", .str assertionText)]

abbrev assertion (platform : Platform) : PyValue :=
  selfDigested platform (domain "assertion") "assertion_digest" (assertionRows platform)

def assertionDigestValue (platform : Platform) : PyValue :=
  digestValue platform (domain "assertion") (.object (assertionRows platform))

/-- The claim material that the assertion renders to. -/
def materialDocument (platform : Platform) : PyValue :=
  .object [("claim_id", .str "AQ1"), ("tier", .leaf (.int 3)),
    ("assertion_template_id", .str "agent_quality_measured_interval_v1"),
    ("rendered_text", .str assertionText),
    ("assertion_digest", assertionDigestValue platform)]

namespace Certificate

abbrev scopeBinding : PyValue :=
  .object [("schema_version", .str "traigent.agent_quality.scope_binding.v1"),
    ("project_ref", .leaf (.str certificate.record.projectRef)),
    ("build_session_ref", .leaf (.str certificate.record.buildSessionRef))]

abbrev declaredPlanRows (platform : Platform) : List (String × PyValue) :=
  [("schema_version", .str "traigent.agent_quality.declared_plan.v1"),
    ("scope_binding_digest",
      digestValue platform (domain "scope_binding") certificate.scopeBinding),
    ("aggregation_policy", identityDocument platform .aggregationPolicy),
    ("objective_registry", identityDocument platform .objectiveRegistry),
    ("objective_ids", .list [PyValue.str "obj.accuracy.evaluator_score_mean.v1"]),
    ("primary_objective_id", .str "obj.accuracy.evaluator_score_mean.v1"),
    ("split_derivation", certificate.splitDerivation platform),
    ("selection_arm_count", .leaf (.int certificate.selectionArmCount)),
    ("holdout_scored_arm_count", .leaf (.int 1))]

abbrev declaredPlan (platform : Platform) : PyValue :=
  selfDigested platform (domain "declared_plan") "declared_plan_digest"
    (certificate.declaredPlanRows platform)

def planDigest (platform : Platform) : PyValue :=
  digestValue platform (domain "declared_plan")
    (.object (certificate.declaredPlanRows platform))

abbrev planSignature : PyValue :=
  .object [("schema_version", .str "traigent.agent_quality.declared_plan_signature.v1"),
    ("algorithm", .str issuer.algorithm),
    ("issuer_key_ref", .leaf (.str issuer.keyRef)),
    ("trust_ring_ref", .leaf (.str issuer.trustRingRef)),
    ("signed_payload", .str "agent_quality_declared_plan"),
    ("declared_plan_digest", certificate.planDigest platform),
    ("signature", issuer.signature (domain "declared_plan_signature")
      (certificate.declaredPlan platform))]

abbrev claimSupportRow (platform : Platform) : PyValue :=
  .object [("claim_id", .str "AQ1"),
    ("evidence_basis", .str "issuer_verified"),
    ("assertion_digest", assertionDigestValue platform),
    ("measured_claims_digest",
      digestValue platform (domain "measured_claims") (certificate.measuredClaims platform)),
    ("evaluation_splits_digest",
      digestValue platform (domain "evaluation_splits")
        (certificate.evaluationSplits platform)),
    ("verifier_result", .str "pass"),
    ("claim_material_digest",
      digestValue platform (domain "claim_material") (materialDocument platform)),
    ("declared_plan_digest", certificate.planDigest platform)]

def claimSupportRows (platform : Platform) : PyValue :=
  .list [certificate.claimSupportRow platform]

abbrev pillarEntry (subject conditionCode : String) (commitmentRef : Text) : PyValue :=
  .object [("support_subject", .str subject),
    ("status", .str "condition_declared_unverified"),
    ("bound_commitment_ref", .leaf (.str commitmentRef)),
    ("condition_code", .str conditionCode)]

/-- The manifest over the unsigned manifest of the process record. -/
abbrev manifest (recordManifest : PyValue) : PyValue :=
  .object [("schema_version", .str "traigent.agent_quality.unsigned_manifest.v1"),
    ("base_process_record_unsigned_manifest_digest",
      digestValue platform processRecordUnsignedManifestDomain recordManifest),
    ("scope_binding_digest",
      digestValue platform (domain "scope_binding") certificate.scopeBinding),
    ("agent_commitment_ref", .leaf (.str certificate.record.agentCommitmentRef)),
    ("dataset_commitment_ref", .leaf (.str certificate.record.datasetCommitmentRef)),
    ("evaluator_commitment_ref", .leaf (.str certificate.record.evaluatorCommitmentRef)),
    ("build_definition_commitment_ref",
      .leaf (.str certificate.record.buildDefinitionCommitmentRef)),
    ("measurement_contract_ref", .leaf (.str certificate.measurementContractRef)),
    ("measurement_contract_record_digest",
      .leaf (.str certificate.measurementContractRecordDigest)),
    ("aggregation_policy", identityDocument platform .aggregationPolicy),
    ("objective_registry", identityDocument platform .objectiveRegistry),
    ("non_claim_catalog", identityDocument platform .nonClaimCatalog),
    ("quantile_table", identityDocument platform .quantileTable),
    ("declared_plan_digest", certificate.planDigest platform),
    ("declared_plan_signature_digest",
      digestValue platform (domain "declared_plan_signature")
        (certificate.planSignature issuer)),
    ("split_derivation_digest", certificate.splitDigest platform),
    ("evaluation_splits_digest",
      digestValue platform (domain "evaluation_splits")
        (certificate.evaluationSplits platform)),
    ("measured_claims_digest",
      digestValue platform (domain "measured_claims") (certificate.measuredClaims platform)),
    ("non_certified_selection_estimates_digest",
      digestValue platform (domain "selection_estimates") (.list [])),
    ("primary_objective_id", .str "obj.accuracy.evaluator_score_mean.v1"),
    ("selection_arm_count", .leaf (.int certificate.selectionArmCount)),
    ("holdout_scored_arm_count", .leaf (.int 1)),
    ("pillar_support", .list
      [pillarEntry "dataset" "dataset_certificate_not_verified"
          certificate.record.datasetCommitmentRef,
        pillarEntry "evaluator" "evaluator_certificate_not_verified"
          certificate.record.evaluatorCommitmentRef]),
    ("assertion_digest", assertionDigestValue platform),
    ("non_claims_digest", digestValue platform (domain "non_claims") nonClaims),
    ("agent_quality_claim_support_rows_digest",
      digestValue platform (domain "claim_support_rows")
        (certificate.claimSupportRows platform)),
    ("trust_ring_ref", .leaf (.str issuer.trustRingRef)),
    ("issuer_key_ref", .leaf (.str issuer.keyRef)),
    ("issuer_signature_algorithm", .str issuer.algorithm),
    ("coverage", .list (manifestCoverage.map PyValue.str))]

abbrev signatureBlock (recordManifest : PyValue) : PyValue :=
  .object [("schema_version", .str "traigent.agent_quality.signature.v1"),
    ("algorithm", .str issuer.algorithm),
    ("issuer_key_ref", .leaf (.str issuer.keyRef)),
    ("trust_ring_ref", .leaf (.str issuer.trustRingRef)),
    ("signed_payload", .str "unsigned_agent_quality_manifest"),
    ("unsigned_manifest_digest", digestValue platform (domain "unsigned_manifest")
      (certificate.manifest issuer recordManifest)),
    ("signature", issuer.signature (domain "issuer_signature")
      (certificate.manifest issuer recordManifest))]

abbrev bundle (recordManifest : PyValue) : PyValue :=
  .object [("schema_version", bundleSchemaVersion),
    ("split_derivation", certificate.splitDerivation platform),
    ("evaluation_splits", certificate.evaluationSplits platform),
    ("measured_claims", certificate.measuredClaims platform),
    ("non_certified_selection_estimates", .list []),
    ("non_claims", nonClaims),
    ("assertion", assertion platform),
    ("declared_plan_envelope", .object
      [("schema_version", .str "traigent.agent_quality.declared_plan_envelope.v1"),
        ("declared_plan", certificate.declaredPlan platform),
        ("signature", certificate.planSignature issuer)]),
    ("claim_support_rows", certificate.claimSupportRows platform),
    ("unsigned_manifest", certificate.manifest issuer recordManifest),
    ("signature", certificate.signatureBlock issuer recordManifest)]

/-- The pins of a relying party that expects this certificate. -/
def context (verifyProcessRecord : PyValue → Checked VerifiedProcessRecord) :
    Platform → Context := fun platform =>
  { verifyProcessRecord := verifyProcessRecord
    expectedProjectRef := certificate.record.projectRef
    expectedBuildSessionRef := certificate.record.buildSessionRef
    expectedAgentCommitmentRef := certificate.record.agentCommitmentRef
    expectedDatasetCommitmentRef := certificate.record.datasetCommitmentRef
    expectedEvaluatorCommitmentRef := certificate.record.evaluatorCommitmentRef
    expectedBuildDefinitionCommitmentRef := certificate.record.buildDefinitionCommitmentRef
    expectedMeasurementContractRef := some certificate.measurementContractRef
    expectedMeasurementContractRecordDigest :=
      some certificate.measurementContractRecordDigest
    acceptAbstainedBundle := false
    expectedDeclaredPlanDigest := sha256Text platform (rolePreimage platform
      (domain "declared_plan") (.object (certificate.declaredPlanRows platform))) }

/-- What the verifier reports of the certificate. -/
def result : VerificationResult where
  code := "AGENT_QUALITY_VERIFIED"
  claimId := .str "AQ1"
  evidenceBasis := "issuer_verified"
  primaryObjectiveId := .str "obj.accuracy.evaluator_score_mean.v1"
  nominalCoveragePpm := .leaf (.int certificate.nominalCoveragePpm)
  holdoutItemCount := .leaf (.int certificate.holdoutCount)
  intervalVerificationLevel := "construction_recomputed_v1"
  splitVerificationLevel := "issuer_attested_v1"
  datasetConditionCode := .str "dataset_certificate_not_verified"
  evaluatorConditionCode := .str "evaluator_certificate_not_verified"

end Certificate

end Documents

/-! ## Plausible certificates -/

/-- The texts have an encoding, the numbers are safe, the split is one that the size
check finds plausible and the interval is the recomputed one, within the range of its
unit. -/
structure Certificate.Plausible (certificate : Certificate) : Prop where
  projectRef : Unicode.Encodable certificate.record.projectRef
  buildSessionRef : Unicode.Encodable certificate.record.buildSessionRef
  agent : Unicode.Encodable certificate.record.agentCommitmentRef
  dataset : Unicode.Encodable certificate.record.datasetCommitmentRef
  evaluator : Unicode.Encodable certificate.record.evaluatorCommitmentRef
  buildDefinition : Unicode.Encodable certificate.record.buildDefinitionCommitmentRef
  contractRef : Unicode.Encodable certificate.measurementContractRef
  contractDigest : Unicode.Encodable certificate.measurementContractRecordDigest
  splitDataset : Unicode.Encodable certificate.splitDatasetCommitmentRef
  splitKey : Unicode.Encodable certificate.splitKeyCommitment
  selectionText : Unicode.Encodable certificate.selectionCommitment
  holdoutText : Unicode.Encodable certificate.holdoutCommitment
  distinct : certificate.selectionCommitment ≠ certificate.holdoutCommitment
  selectionCount : 0 ≤ certificate.selectionCount
  holdoutCount : 30 ≤ certificate.holdoutCount
  total : certificate.selectionCount + certificate.holdoutCount ≤ maxSafeInteger
  fraction : certificate.holdoutFractionPpm.natAbs ≤ maxSafeInteger
  arms : certificate.selectionArmCount.natAbs ≤ maxSafeInteger
  stddev : certificate.stddev.natAbs ≤ maxSafeInteger
  size : ∃ roundVal tolerance,
    splitSizeBound (certificate.selectionCount + certificate.holdoutCount)
      certificate.holdoutFractionPpm = .ok (roundVal, tolerance) ∧
    |certificate.holdoutCount - roundVal| ≤ tolerance
  coverage : certificate.nominalCoveragePpm ∈ nominalCoverageValues
  interval : recomputed shippedQuantileTable certificate.nominalCoveragePpm
      (.meanVariance certificate.mean certificate.stddev certificate.holdoutCount) =
    .ok (certificate.intervalLow, certificate.mean, certificate.intervalHigh)
  low : 0 ≤ certificate.intervalLow
  ordered : certificate.intervalLow ≤ certificate.mean ∧
    certificate.mean ≤ certificate.intervalHigh ∧
    certificate.intervalLow < certificate.intervalHigh
  high : certificate.intervalHigh ≤ tScale

/-! ## Their canonical texts -/

section Plain

variable {platform : Platform} {issuer : Issuer platform} {certificate : Certificate}
  {recordManifest : PyValue} {d : ℕ}

@[simp]
theorem document_identity (registry : Registry) :
    Document PlainAtom (d + 1) (identityDocument platform registry) := by
  cases registry <;> apply document_object <;>
    simp [Registry.identityRows, document_str, document_digestValue]

@[simp]
theorem document_nonClaims : Document PlainAtom (d + 2) nonClaims := by
  apply document_list_map
  intro entry _
  apply document_object <;> simp [document_str]

theorem document_assertionRows :
    ∀ row ∈ assertionRows platform, Document PlainAtom (d + 1) row.2 := by
  simp [assertionRows, document_str]

@[simp]
theorem document_assertion : Document PlainAtom (d + 2) (assertion platform) :=
  document_selfDigested (by simp [assertionRows]) document_assertionRows

/-- The material of the claim is fixed by the package, whatever the certificate says. -/
@[simp]
theorem document_material : Document PlainAtom (d + 1) (materialDocument platform) := by
  have htier : Document PlainAtom d (.leaf (.int 3)) := document_int (by decide)
  apply document_object <;>
    simp [document_str, htier, assertionDigestValue, document_digestValue]

/-- A signature block holds texts only, so that it is a document at every depth. -/
@[simp]
theorem Issuer.document_signature (issuer : Issuer platform) (domain : String)
    (payload : PyValue) : Document PlainAtom d (issuer.signature domain payload) :=
  document_text (encodable_b64encode _)

namespace Certificate.Plausible

variable (hproper : certificate.Plausible)

include hproper in
theorem document_splitDerivationRows :
    ∀ row ∈ certificate.splitDerivationRows, Document PlainAtom d row.2 := by
  have huniverse : (certificate.selectionCount + certificate.holdoutCount).natAbs ≤
      maxSafeInteger := by
    have hselection := hproper.selectionCount
    have hholdout := hproper.holdoutCount
    have htotal := hproper.total
    omega
  simp [splitDerivationRows, document_str, document_text, document_int, huniverse,
    hproper.splitDataset, hproper.fraction, hproper.splitKey]

include hproper in
/-- The seed and the sizes of the split are the only numbers in it. -/
theorem document_splitDerivation :
    Document PlainAtom (d + 1) (certificate.splitDerivation platform) :=
  document_selfDigested (by simp [splitDerivationRows])
    hproper.document_splitDerivationRows

include hproper in
theorem document_evaluationSplits :
    Document PlainAtom (d + 2) (certificate.evaluationSplits platform) := by
  have hselection := hproper.selectionCount
  have hholdout := hproper.holdoutCount
  have htotal := hproper.total
  have hselectionSafe : certificate.selectionCount.natAbs ≤ maxSafeInteger := by omega
  have hholdoutSafe : certificate.holdoutCount.natAbs ≤ maxSafeInteger := by omega
  have hrecord : ∀ splitId itemCount commitment, itemCount.natAbs ≤ maxSafeInteger →
      Unicode.Encodable commitment → Document PlainAtom (d + 1)
        (certificate.splitRecord platform splitId itemCount commitment) := by
    intro splitId itemCount commitment hcount hcommitment
    apply document_object <;>
      simp [document_str, document_int, document_text, splitDigest, document_digestValue,
        hcount, hcommitment]
  apply document_list
  intro record hrecordMem
  simp only [List.mem_cons, List.not_mem_nil, or_false] at hrecordMem
  rcases hrecordMem with rfl | rfl
  · exact hrecord _ _ _ hselectionSafe hproper.selectionText
  · exact hrecord _ _ _ hholdoutSafe hproper.holdoutText

include hproper in
/-- The claims nest deepest: a list of objects with their interval and their statistics. -/
theorem document_measuredClaims :
    Document PlainAtom (d + 4) (certificate.measuredClaims platform) := by
  have hselection := hproper.selectionCount
  have hholdout := hproper.holdoutCount
  have htotal := hproper.total
  have hlow := hproper.low
  have hordered := hproper.ordered
  have hhigh := hproper.high
  have hcount : certificate.holdoutCount.natAbs ≤ maxSafeInteger := by omega
  have hdegrees : (certificate.holdoutCount - 1).natAbs ≤ maxSafeInteger := by omega
  have hscale : tScale ≤ maxSafeInteger := by decide
  have hlowSafe : certificate.intervalLow.natAbs ≤ maxSafeInteger := by omega
  have hmeanSafe : certificate.mean.natAbs ≤ maxSafeInteger := by omega
  have hhighSafe : certificate.intervalHigh.natAbs ≤ maxSafeInteger := by omega
  have hcoverage : certificate.nominalCoveragePpm.natAbs ≤ maxSafeInteger := by
    have hall : ∀ value ∈ nominalCoverageValues, value.natAbs ≤ maxSafeInteger := by decide
    exact hall _ hproper.coverage
  have hparams : Document PlainAtom (d + 2) (.object
      [("interval_method", .str "student_t_normal_approx_v1"),
        ("degrees_of_freedom", .leaf (.int (certificate.holdoutCount - 1))),
        ("quantile_table", identityDocument platform .quantileTable),
        ("recomputation_profile", .str "exact_integer_rational_v1")]) := by
    apply document_object <;> simp [document_str, document_int, hdegrees]
  have hstats : Document PlainAtom (d + 2) (.object
      [("stat_kind", .str "mean_variance_v1"),
        ("sample_count", .leaf (.int certificate.holdoutCount)),
        ("mean_fixed", .leaf (.int certificate.mean)),
        ("sample_stddev_fixed", .leaf (.int certificate.stddev)),
        ("unit_scale", .str "ppm")]) := by
    apply document_object <;>
      simp [document_str, document_int, hcount, hmeanSafe, hproper.stddev]
  apply document_list
  intro claim hclaim
  rw [List.mem_singleton.mp hclaim]
  apply document_object <;>
    simp [document_str, document_int, document_text, hcount, hlowSafe, hmeanSafe, hhighSafe,
      hcoverage, hparams, hstats, hproper.contractRef, hproper.contractDigest]

include hproper in
theorem document_scopeBinding :
    Document PlainAtom (d + 1) certificate.scopeBinding := by
  apply document_object <;>
    simp [document_str, document_text, hproper.projectRef, hproper.buildSessionRef]

include hproper in
theorem document_declaredPlanRows :
    ∀ row ∈ certificate.declaredPlanRows platform,
      Document PlainAtom (d + 1) row.2 := by
  have hids : Document PlainAtom (d + 1)
      (.list [PyValue.str "obj.accuracy.evaluator_score_mean.v1"]) := by
    apply document_list
    simp [document_str]
  have harm : Document PlainAtom (d + 1) (.leaf (.int 1)) := document_int (by decide)
  simp [declaredPlanRows, document_str, document_digestValue, hids, harm,
    hproper.document_splitDerivation, document_int hproper.arms]

include hproper in
/-- The plan is a document, its own digest included. -/
theorem document_declaredPlan :
    Document PlainAtom (d + 2) (certificate.declaredPlan platform) :=
  document_selfDigested (by simp [declaredPlanRows]) hproper.document_declaredPlanRows

theorem document_planSignature :
    Document PlainAtom (d + 1) (certificate.planSignature issuer) := by
  apply document_object <;>
    simp [document_str, document_text, issuer.encodable_keyRef,
      issuer.encodable_trustRingRef, planDigest, document_digestValue]

theorem document_claimSupportRows :
    Document PlainAtom (d + 2) (certificate.claimSupportRows platform) := by
  apply document_list
  intro row hrow
  rw [List.mem_singleton.mp hrow]
  apply document_object <;>
    simp [document_str, assertionDigestValue, planDigest, document_digestValue]

include hproper in
/-- The manifest holds members of the bundle beside the digests of others. -/
theorem document_manifest :
    Document PlainAtom (d + 3) (certificate.manifest issuer recordManifest) := by
  have hpillar : ∀ subject conditionCode commitmentRef, Unicode.Encodable commitmentRef →
      Document PlainAtom (d + 1) (pillarEntry subject conditionCode commitmentRef) := by
    intro subject conditionCode commitmentRef href
    apply document_object <;> simp [document_str, document_text, href]
  have hpillars : Document PlainAtom (d + 2) (.list
      [pillarEntry "dataset" "dataset_certificate_not_verified"
          certificate.record.datasetCommitmentRef,
        pillarEntry "evaluator" "evaluator_certificate_not_verified"
          certificate.record.evaluatorCommitmentRef]) := by
    apply document_list
    simp [hpillar, hproper.dataset, hproper.evaluator]
  have hcoverage : Document PlainAtom (d + 2)
      (.list (manifestCoverage.map PyValue.str)) :=
    document_list_map fun name _ => document_str name
  have harm : Document PlainAtom (d + 2) (.leaf (.int 1)) := document_int (by decide)
  apply document_object
  · simp
  · simp [document_str, document_text, document_digestValue, hpillars, hcoverage, harm,
      document_int hproper.arms, planDigest, splitDigest, assertionDigestValue,
      issuer.encodable_keyRef, issuer.encodable_trustRingRef, hproper.agent,
      hproper.dataset, hproper.evaluator, hproper.buildDefinition,
      hproper.contractRef, hproper.contractDigest]

theorem document_signatureBlock :
    Document PlainAtom (d + 1) (certificate.signatureBlock issuer recordManifest) := by
  apply document_object <;>
    simp [document_str, document_text, issuer.encodable_keyRef,
      issuer.encodable_trustRingRef, document_digestValue]

include hproper in
/-- The whole bundle stays far below the nesting the canonicalizer refuses. -/
theorem document_bundle :
    Document PlainAtom 5 (certificate.bundle issuer recordManifest) := by
  have hestimates : Document PlainAtom 4 (.list []) := document_list (by simp)
  have henvelope : Document PlainAtom 4 (.object
      [("schema_version", .str "traigent.agent_quality.declared_plan_envelope.v1"),
        ("declared_plan", certificate.declaredPlan platform),
        ("signature", certificate.planSignature issuer)]) := by
    apply document_object <;>
      simp [document_str, hproper.document_declaredPlan, document_planSignature]
  apply document_object
  · simp
  · simp [document_str, bundleSchemaVersion, hestimates, henvelope,
      hproper.document_splitDerivation, hproper.document_evaluationSplits,
      hproper.document_measuredClaims, hproper.document_manifest,
      document_claimSupportRows, document_signatureBlock]

end Certificate.Plausible

end Plain

/-! ## Acceptance -/

section Acceptance

variable {platform : Platform} {schema : PyValue → SchemaOutcome} {issuer : Issuer platform}
  {certificate : Certificate} {processRecord recordManifest : PyValue}
  {verifyProcessRecord : PyValue → Checked VerifiedProcessRecord}

/-- A process record that proves what the certificate is about, with the issuer's key in
its materials. -/
structure Certificate.ProvedBy (issuer : Issuer platform) (certificate : Certificate)
    (verifyProcessRecord : PyValue → Checked VerifiedProcessRecord)
    (processRecord recordManifest : PyValue) : Prop where
  verified : verifyProcessRecord processRecord = .ok certificate.record
  manifest : processRecord.member "unsigned_manifest" = some recordManifest
  canonicalizable : Canonicalizable recordManifest
  issuer : recordIssuer processRecord = .ok (issuer.projection issuerSpkiDomain)

/-! The parts of the bundle. -/

/-- What the verifier takes for the plan is the plan the issuer wrote. -/
theorem envelopeMember_plan :
    envelopeMember (certificate.bundle issuer recordManifest) "declared_plan" =
      .ok (certificate.declaredPlan platform) := by
  simp [envelopeMember, index, List.lookup]

theorem envelopeMember_signature :
    envelopeMember (certificate.bundle issuer recordManifest) "signature" =
      .ok (certificate.planSignature issuer) := by
  simp [envelopeMember, index, List.lookup]

theorem index_manifest :
    index (certificate.bundle issuer recordManifest) "unsigned_manifest" =
      .ok (certificate.manifest issuer recordManifest) := by
  simp [index, List.lookup]

/-- Without its digest the plan is the object the digest was taken of. -/
theorem erase_declaredPlan :
    (certificate.declaredPlan platform).erase "declared_plan_digest" =
      .object (certificate.declaredPlanRows platform) :=
  erase_selfDigested (by simp)

/-- The registry's entry for the evaluator's mean score. -/
def scoreEntry : ObjectiveEntry where
  objectiveId := "obj.accuracy.evaluator_score_mean.v1"
  objectiveKind := "bounded_mean"
  unit := "ppm"
  direction := "maximize"
  minimum := 0
  maximum := 1000000
  minimumSampleSize := 30
  distributionAssumption := none

/-- The shipped registry holds the entry of the mean score under its identifier. -/
theorem objectiveEntry_score :
    shippedPackage.objectiveEntry (.str "obj.accuracy.evaluator_score_mean.v1") =
      some scoreEntry := by
  decide +kernel

theorem getItems_measuredClaims :
    getItems (certificate.bundle issuer recordManifest) "measured_claims" =
      .ok [certificate.measuredClaim platform] :=
  getItems_of_member (by simp [List.lookup, Certificate.measuredClaims])

theorem getItems_nonClaims :
    getItems (certificate.bundle issuer recordManifest) "non_claims" =
      .ok (nonClaimCatalog.map nonClaimRecord) :=
  getItems_of_member (by simp [List.lookup, nonClaims])

theorem nonClaimIds_mapM (catalog : List (String × String × String)) :
    (catalog.map nonClaimRecord).mapM (fun entry => get entry "non_claim_id") =
      .ok ((catalog.map fun entry => entry.1).map PyValue.str) := by
  rw [mapM_eq_ok_iff, List.map_map, List.forall₂_map_left_iff, List.forall₂_map_right_iff,
    List.forall₂_same]
  intro entry _
  simp [get_eq_ok_iff, List.lookup]

/-- The identity an issuer states of a registry is that of the registry installed. -/
theorem pyEq_identity (registry : Registry) :
    pyEq (identityDocument platform registry)
      (installedIdentity (installed platform schema) registry) = true :=
  (document_identity (d := 0) registry).plain.pyEq_self

/-- Both registries the bundle names are the ones installed. -/
theorem stageS3_bundle :
    stageS3RegistryIdentity (installed platform schema)
      (certificate.bundle issuer recordManifest) = .ok () := by
  have hinstalled : ∀ registry, Canonicalizable
      ((installed platform schema).package.document registry) := canonicalizable_shipped
  have htable : checkClaimQuantileTable
      (installedIdentity (installed platform schema) .quantileTable)
      (certificate.measuredClaim platform) = .ok () := by
    have hmember : ((certificate.measuredClaim platform).field "interval_params").member
        "quantile_table" = some (identityDocument platform .quantileTable) := by
      simp [List.lookup]
    rw [checkClaimQuantileTable, hmember]
    exact ensure_eq_ok_iff.mpr (pyEq_identity .quantileTable)
  simp only [stageS3RegistryIdentity, envelopeMember_bind_eq_ok_iff, index_bind_eq_ok_iff,
    get_bind_eq_ok_iff, unit_bind_eq_ok_iff, ensure_eq_ok_iff, Bool.and_eq_true,
    registryIdentity_bind_eq_ok_iff, hinstalled]
  simp [List.lookup, pyEq_identity]
  apply bind_eq_ok_iff.mpr
  refine ⟨_, getItems_nonClaims, bind_eq_ok_iff.mpr ⟨_, nonClaimIds_mapM _, ?_⟩⟩
  simp only [unit_bind_eq_ok_iff, ensure_eq_ok_iff, registryIdentity_bind_eq_ok_iff,
    get_bind_eq_ok_iff]
  refine ⟨pyEq_list_str_iff.mpr rfl, hinstalled _, rfl, ?_, ?_⟩
  · simp [List.lookup, pyEq_identity]
  · exact bind_eq_ok_iff.mpr ⟨_, getItems_measuredClaims,
      forM_eq_ok_iff.mpr (by simpa using htable)⟩

/-- A claim over at least thirty items meets the minimum its entry demands. -/
theorem checkRegistration_claim (hcount : 30 ≤ certificate.holdoutCount) :
    checkRegistration scoreEntry (certificate.measuredClaim platform) = .ok () := by
  simp [checkRegistration, unit_bind_eq_ok_iff, List.lookup, scoreEntry, hcount]

/-- The method of the interval is the one the entry admits. -/
theorem checkIntervalMethod_claim :
    checkIntervalMethod scoreEntry (certificate.measuredClaim platform) =
      .ok ((certificate.measuredClaim platform).field "interval_params") := by
  have hone : isOneOf (.str "student_t_normal_approx_v1") emittableIntervalMethods =
      .ok true := isOneOf_eq_ok_true_iff.mpr ⟨_, by decide, rfl⟩
  simp [checkIntervalMethod, List.lookup, scoreEntry, admissibleIntervalMethod, hone, ensure]

/-- The statistics the verifier reads are the mean, the deviation and the count of the
certificate. -/
theorem sufficientStatistics_claim :
    sufficientStatistics (certificate.measuredClaim platform)
      ((certificate.measuredClaim platform).field "interval_params") =
      .ok (.leaf (.int certificate.holdoutCount),
        .meanVariance certificate.mean certificate.stddev certificate.holdoutCount) := by
  have hmethod : pyEq (.str "student_t_normal_approx_v1") (.str "wilson_score_v1") = false := by
    decide +kernel
  simp [sufficientStatistics, meanVarianceStatistics, List.lookup, hmethod, ensureStatistics,
    ensure]

/-- A plausible certificate's claim passes, and the coverage of its interval is returned. -/
theorem checkMeasuredClaim_claim (hproper : certificate.Plausible) :
    checkMeasuredClaim shippedPackage (.leaf (.int certificate.holdoutCount))
      (certificate.measuredClaim platform) =
        .ok (.leaf (.int certificate.nominalCoveragePpm)) := by
  have hid : (certificate.measuredClaim platform).field "objective_id" =
      .str "obj.accuracy.evaluator_score_mean.v1" := by simp [List.lookup]
  have hcoverage : nominalCoverageValues.find? (fun value =>
      decide (certificate.nominalCoveragePpm = value)) =
        some certificate.nominalCoveragePpm := by
    have hmem := hproper.coverage
    simp only [nominalCoverageValues, List.mem_cons, List.not_mem_nil, or_false] at hmem
    rcases hmem with hvalue | hvalue | hvalue <;> rw [hvalue] <;> decide
  have hrows : checkIntervalRows shippedQuantileTable scoreEntry
      certificate.nominalCoveragePpm
      (.meanVariance certificate.mean certificate.stddev certificate.holdoutCount)
      (.leaf (.int certificate.intervalLow)) (.leaf (.int certificate.mean))
      (.leaf (.int certificate.intervalHigh)) = .ok () :=
    checkIntervalRows_eq_ok_iff.mpr ⟨hproper.interval, hproper.low,
      hproper.ordered.1, hproper.ordered.2.1, hproper.high, hproper.ordered.2.2⟩
  simp only [checkMeasuredClaim, get_bind_eq_ok_iff, hash_bind_eq_ok_iff, hid,
    objectiveEntry_score]
  refine ⟨rfl, rfl, ?_⟩
  rw [checkRegistration_claim hproper.holdoutCount, ok_bind, checkIntervalMethod_claim,
    ok_bind, sufficientStatistics_claim, ok_bind]
  simp [hash_bind_eq_ok_iff, List.lookup, hcoverage, hrows, hashable, unit_bind_eq_ok_iff,
    shippedPackage]

namespace Certificate.Plausible

variable (hproper : certificate.Plausible)

include hproper in
/-- The structural stage asks for the schema only, which is a hypothesis here. -/
theorem stageS1 (hschema : schema (certificate.bundle issuer recordManifest) = .valid) :
    stageS1Structural (installed platform schema)
      (certificate.bundle issuer recordManifest) = .ok () := by
  have hdocument : Document PlainAtom 5 (certificate.bundle issuer recordManifest) :=
    hproper.document_bundle
  apply stageS1_eq_ok_iff.mpr
  exact {
    isDict := rfl
    schemaVersion := by simp [List.lookup]
    plain := hdocument.admits
    nesting := hdocument.nesting.trans (by decide)
    schema := hschema }

include hproper in
/-- The references of the context are those of the verified process record. -/
theorem stageS2 (hproved : certificate.ProvedBy issuer verifyProcessRecord processRecord
      recordManifest) :
    stageS2ContextBinding (installed platform schema)
      (certificate.context verifyProcessRecord platform)
      (certificate.bundle issuer recordManifest) processRecord = .ok () := by
  have hscope : Canonicalizable certificate.scopeBinding :=
    (hproper.document_scopeBinding (d := 0)).canonicalizable_of_plain (by decide)
  have hrecord : processRecord.field "unsigned_manifest" = recordManifest := by
    rw [PyValue.field, hproved.manifest, Option.getD_some]
  have hkey : processRecord.hasKey "unsigned_manifest" = true := by
    rw [PyValue.hasKey, hproved.manifest, Option.isSome_some]
  have hverified : (certificate.context verifyProcessRecord platform).verifyProcessRecord
      processRecord = .ok certificate.record := hproved.verified
  have hscopeText : scopeBindingProjection (certificate.context verifyProcessRecord platform) =
      certificate.scopeBinding := rfl
  rw [stageS2ContextBinding, hverified, ok_bind]
  simp only [envelopeMember_bind_eq_ok_iff, index_bind_eq_ok_iff, get_bind_eq_ok_iff,
    unit_bind_eq_ok_iff, ensure_eq_ok_iff, roleDigest_bind_eq_ok_iff, forM_eq_ok_iff,
    Bool.and_eq_true, decide_eq_true_eq, hrecord, hkey, hscopeText]
  simp only [context, getItems_measuredClaims, ok_bind]
  simp [declaredPlanRows, citesContract, commitmentRefs, digestValue, installed, List.lookup,
    hscope, hproved.canonicalizable, unit_bind_eq_ok_iff]

include hproper in
/-- The plan carries the digest and the signature the verifier recomputes. -/
theorem stageS4 (hproved : certificate.ProvedBy issuer verifyProcessRecord processRecord
      recordManifest) :
    stageS4DeclaredPlanSignatures (installed platform schema)
      (certificate.context verifyProcessRecord platform)
      (certificate.bundle issuer recordManifest) processRecord = .ok () := by
  have hrows : Canonicalizable (.object (certificate.declaredPlanRows platform)) :=
    (document_object (d := 1) (by simp)
      hproper.document_declaredPlanRows).canonicalizable_of_plain (by decide)
  have hplan : Canonicalizable (certificate.declaredPlan platform) :=
    (hproper.document_declaredPlan (d := 0)).canonicalizable_of_plain (by decide)
  have hkey : issuerKey (installed platform schema) processRecord =
      .ok (issuer.projection issuerSpkiDomain, issuer.key) :=
    issuerKey_eq_ok_iff.mpr ⟨hproved.issuer, rfl, issuer.materialPublicKey_projection _⟩
  rw [stageS4DeclaredPlanSignatures, index_manifest, ok_bind, envelopeMember_plan, ok_bind,
    envelopeMember_signature, ok_bind]
  simp only [get_bind_eq_ok_iff, unit_bind_eq_ok_iff, ensure_eq_ok_iff,
    roleDigest_bind_eq_ok_iff, stripSelfDigest_bind_eq_ok_iff, orFail_bind_eq_ok_iff,
    hkey, ok_bind, canonicalUtf8_bind_eq_ok_iff, orFail_eq_ok_iff, Bool.and_eq_true,
    erase_declaredPlan, PyValue.isDict_object, true_and]
  have hsigned : verifySignature platform issuer.key (.str issuer.algorithm)
      (preimage (domain "declared_plan_signature")
        (utf8 (canonicalText platform.float (certificate.declaredPlan platform))))
      (issuer.signature (domain "declared_plan_signature")
        (certificate.declaredPlan platform)) = .ok () := issuer.verifies _
  simp only [installed]
  refine ⟨hrows, ⟨?_, ?_⟩, ?_, ⟨⟨?_, ?_⟩, ?_⟩, hplan, ?_, ?_⟩
  · simp [List.lookup, digestValue]
  · simp [List.lookup, planDigest, digestValue]
  · simp [List.lookup, planDigest, digestValue]
  · simp [List.lookup]
  · simp [List.lookup]
  · simp [List.lookup]
  · simpa [List.lookup] using hsigned
  · simp [List.lookup, context, digestValue]

theorem holdoutItemCount_splits :
    holdoutItemCount (certificate.evaluationSplits platform) =
      .leaf (.int certificate.holdoutCount) := by
  have hselection : pyEq (PyValue.str "selection") (.str "holdout") = false := by decide +kernel
  simp [holdoutItemCount, evaluationSplits, List.lookup, hselection]

theorem hash_str (literal : String) : hash (.str literal) = .ok (.str literal) := rfl

theorem isElement_str (literal : String) :
    isElement (.str literal) [.str literal] = true := by
  simp [isElement]

/-- The one objective that is claimed is the one the plan has declared. -/
theorem certifiedIds_claims :
    certifiedIds (certificate.declaredPlan platform) [certificate.measuredClaim platform] =
      .ok [.str "obj.accuracy.evaluator_score_mean.v1"] := by
  have hplan : getItems (certificate.declaredPlan platform) "objective_ids" =
      .ok [.str "obj.accuracy.evaluator_score_mean.v1"] :=
    getItems_of_member (by simp [List.lookup])
  rw [certifiedIds, hplan, ok_bind]
  simp [hash_str, isElement_str, List.lookup, Certification.get, ensure]

include hproper in
/-- The statistics support the interval, and the plan covers the claim. -/
theorem stageS5 :
    stageS5ObjectiveMeasurement shippedPackage (certificate.bundle issuer recordManifest) =
      .ok () := by
  rw [stageS5ObjectiveMeasurement, getItems_measuredClaims, ok_bind, if_neg (by simp),
    envelopeMember_plan, ok_bind, index_manifest, ok_bind, certifiedIds_claims, ok_bind]
  simp [get_bind_eq_ok_iff, unit_bind_eq_ok_iff, hash_str, uniqueKeys,
    isElement, List.lookup, holdoutItemCount_splits, checkMeasuredClaim_claim hproper]

theorem minimumRequired_claims :
    minimumRequired shippedPackage [certificate.measuredClaim platform] = 30 := by
  have hid : (certificate.measuredClaim platform).field "objective_id" =
      .str "obj.accuracy.evaluator_score_mean.v1" := by
    simp [List.lookup]
  have hentry := objectiveEntry_score
  rw [PyValue.str] at hid hentry
  simp only [minimumRequired, List.filterMap_cons, List.filterMap_nil, hid, hentry]
  decide

include hproper in
/-- The derivation of the split is the planned one, and both records agree with it. -/
theorem checkSplitDerivation_records :
    checkSplitDerivation (installed platform schema) (certificate.declaredPlan platform)
      (certificate.splitDerivation platform) (certificate.selectionRecord platform)
      (certificate.holdoutRecord platform) = .ok () := by
  have hrows : Canonicalizable (.object certificate.splitDerivationRows) :=
    (document_object (d := 0) (by simp)
      hproper.document_splitDerivationRows).canonicalizable_of_plain (by decide)
  have herase : (certificate.splitDerivation platform).erase "split_derivation_digest" =
      .object certificate.splitDerivationRows := erase_selfDigested (by simp)
  have hdeclared : pyEq (certificate.splitDerivation platform)
      (certificate.splitDerivation platform) = true :=
    (hproper.document_splitDerivation (d := 0)).plain.pyEq_self
  have hfield : (certificate.declaredPlan platform).field "split_derivation" =
      certificate.splitDerivation platform := by
    simp [List.lookup]
  have hdigest : (certificate.splitDerivation platform).field "split_derivation_digest" =
      certificate.splitDigest platform := by
    simp [List.lookup, splitDigest]
  simp only [checkSplitDerivation, stripSelfDigest_bind_eq_ok_iff, roleDigest_bind_eq_ok_iff,
    get_bind_eq_ok_iff, ensure_eq_ok_iff, Bool.and_eq_true, pyEq_str_right, herase, hfield, hdigest]
  refine ⟨rfl, hrows, rfl, ⟨⟨⟨rfl, ?_⟩, ?_⟩, rfl⟩, hdeclared⟩
  · simp [List.lookup, splitDigest, digestValue, installed]
  · simp [List.lookup, splitDigest, digestValue, installed]

include hproper in
/-- The sizes of the split add up, and the held-out part is close to its planned share. -/
theorem checkSplitSizes_records :
    checkSplitSizes (certificate.splitDerivation platform)
      (certificate.selectionRecord platform) (certificate.holdoutRecord platform)
      certificate.holdoutCount = .ok () := by
  obtain ⟨roundVal, tolerance, hbound, hsize⟩ := hproper.size
  have hne : certificate.selectionCommitment ≠ certificate.holdoutCommitment :=
    hproper.distinct
  simp [checkSplitSizes, List.lookup, unit_bind_eq_ok_iff, hbound, hsize, hne]

include hproper in
/-- The split is derived as planned, and its held-out part is large enough. -/
theorem stageS6 :
    stageS6SplitsHeldOut (installed platform schema)
      (certificate.bundle issuer recordManifest) = .ok () := by
  have hsplits : get (certificate.bundle issuer recordManifest) "evaluation_splits" =
      .ok (certificate.evaluationSplits platform) := by
    simp [Certification.get, List.lookup]
  have hderivation : index (certificate.bundle issuer recordManifest) "split_derivation" =
      .ok (certificate.splitDerivation platform) := by
    simp [index, List.lookup]
  have hrecords : splitRecords (certificate.evaluationSplits platform) =
      .ok (certificate.selectionRecord platform, certificate.holdoutRecord platform) := by
    simp [splitRecords, evaluationSplits, List.lookup, ensure]
  rw [stageS6SplitsHeldOut, index_manifest, ok_bind, envelopeMember_plan, ok_bind,
    hderivation, ok_bind, hsplits, ok_bind, hrecords, ok_bind]
  simp only [recordsAgree, unit_bind_eq_ok_iff, ensure_eq_ok_iff]
  have hcount : asInt ((certificate.holdoutRecord platform).field "item_count") =
      some certificate.holdoutCount := by
    simp [List.lookup]
  refine ⟨by simp [List.lookup], by simp [List.lookup],
    by simp [List.lookup, splitDigest, digestValue], ?_⟩
  rw [getItems_measuredClaims, ok_bind, hcount]
  simp only [unit_bind_eq_ok_iff, ensure_eq_ok_iff, forM_eq_ok_iff, get_bind_eq_ok_iff]
  refine ⟨by simp [List.lookup], ?_⟩
  refine ⟨?_, hproper.checkSplitDerivation_records, hproper.checkSplitSizes_records, rfl,
    rfl, by simp [List.lookup], rfl, rfl, by simp [List.lookup], ?_⟩
  · have hpackage : (installed platform schema).package = shippedPackage := rfl
    rw [hpackage, minimumRequired_claims]
    exact decide_eq_true hproper.holdoutCount
  · have hestimates : getItems (certificate.bundle issuer recordManifest)
        "non_certified_selection_estimates" = .ok [] :=
      getItems_of_member (by simp [List.lookup])
    rw [hestimates]
    rfl

/-- The bundle has one support row, which is the one written for it. -/
theorem supportRow_bundle :
    supportRow (certificate.bundle issuer recordManifest) =
      .ok (certificate.claimSupportRow platform) := by
  have hrows : index (certificate.bundle issuer recordManifest) "claim_support_rows" =
      .ok (certificate.claimSupportRows platform) := by
    simp [index, List.lookup]
  rw [supportRow, hrows, ok_bind]
  rfl

theorem erase_assertion :
    (assertion platform).erase "assertion_digest" = .object (assertionRows platform) :=
  erase_selfDigested (by simp)

/-- The assertion is canonical before its own digest is added to it. -/
theorem canonicalizable_assertionRows :
    Canonicalizable (.object (assertionRows platform)) :=
  (document_object (d := 1) (by simp)
    document_assertionRows).canonicalizable_of_plain (by decide)

/-- An entry of the composition names its subject, its condition and the commitment. -/
theorem checkPillarEntry_entry (subject conditionCode field : String) (commitmentRef : Text) :
    checkPillarEntry subject conditionCode field (.leaf (.str commitmentRef))
      (pillarEntry subject conditionCode commitmentRef) = .ok () := by
  have hone : isOneOf (.str "condition_declared_unverified") emittablePillarStatuses =
      .ok true := isOneOf_eq_ok_true_iff.mpr ⟨_, by decide, rfl⟩
  simp [checkPillarEntry, List.lookup, unit_bind_eq_ok_iff, hone]

/-- The composition refers to both pillars, and the assertion is the fixed text. -/
theorem stageS7 :
    stageS7CompositionAbstention (installed platform schema)
      (certificate.context verifyProcessRecord platform)
      (certificate.bundle issuer recordManifest) = .ok () := by
  have hassertion : (certificate.bundle issuer recordManifest).field "assertion" =
      assertion platform := by
    simp [List.lookup]
  have hpillars : checkPillarSupport (certificate.manifest issuer recordManifest)
      ((certificate.manifest issuer recordManifest).field "pillar_support") = .ok () := by
    have hfield : (certificate.manifest issuer recordManifest).field "pillar_support" =
        .list [pillarEntry "dataset" "dataset_certificate_not_verified"
            certificate.record.datasetCommitmentRef,
          pillarEntry "evaluator" "evaluator_certificate_not_verified"
            certificate.record.evaluatorCommitmentRef] := by
      simp [List.lookup]
    rw [hfield, checkPillarSupport, unit_bind_eq_ok_iff]
    constructor
    · have href : (certificate.manifest issuer recordManifest).field
          "dataset_commitment_ref" =
            .leaf (.str certificate.record.datasetCommitmentRef) := by
        simp [List.lookup]
      rw [href]
      exact checkPillarEntry_entry _ _ _ _
    · have href : (certificate.manifest issuer recordManifest).field
          "evaluator_commitment_ref" =
            .leaf (.str certificate.record.evaluatorCommitmentRef) := by
        simp [List.lookup]
      rw [href]
      exact checkPillarEntry_entry _ _ _ _
  rw [stageS7CompositionAbstention, index_manifest, ok_bind, supportRow_bundle, ok_bind]
  simp only [get_bind_eq_ok_iff, index_bind_eq_ok_iff, unit_bind_eq_ok_iff, ensure_eq_ok_iff,
    hassertion, recomputedAssertionDigest_bind_eq_ok_iff, erase_assertion, roleDigestText,
    Bool.and_eq_true, Bool.or_eq_true]
  refine ⟨rfl, Or.inl (by simp [List.lookup]), rfl, hpillars, by simp [List.lookup], rfl,
    canonicalizable_assertionRows, rfl, ⟨?_, ?_⟩, ?_⟩
  · simp [List.lookup, digestValue, installed]
  · simp [List.lookup, assertionDigestValue, digestValue, installed]
  · simp [List.lookup]

include hproper in
/-- Each digest of the manifest is that of the member of the bundle it names. -/
theorem checkManifestDigests_bundle :
    checkManifestDigests (installed platform schema)
      (certificate.bundle issuer recordManifest)
      (certificate.manifest issuer recordManifest) = .ok () := by
  have herase : (certificate.splitDerivation platform).erase "split_derivation_digest" =
      .object certificate.splitDerivationRows := erase_selfDigested (by simp)
  have hfield : (certificate.bundle issuer recordManifest).field "split_derivation" =
      certificate.splitDerivation platform := by
    simp [List.lookup]
  have hrows : Canonicalizable (.object certificate.splitDerivationRows) :=
    (document_object (d := 0) (by simp)
      hproper.document_splitDerivationRows).canonicalizable_of_plain (by decide)
  have hsplits : Canonicalizable (certificate.evaluationSplits platform) :=
    (hproper.document_evaluationSplits (d := 0)).canonicalizable_of_plain (by decide)
  have hclaims : Canonicalizable (certificate.measuredClaims platform) :=
    (hproper.document_measuredClaims (d := 0)).canonicalizable_of_plain (by decide)
  have hestimates : Canonicalizable (.list []) := by decide
  have hnonClaims : Canonicalizable nonClaims :=
    (document_nonClaims (d := 0)).canonicalizable_of_plain (by decide)
  have hsupport : Canonicalizable (certificate.claimSupportRows platform) :=
    (document_claimSupportRows (d := 0)).canonicalizable_of_plain (by decide)
  simp only [checkManifestDigests, index_bind_eq_ok_iff, stripSelfDigest_bind_eq_ok_iff,
    unit_bind_eq_ok_iff, checkManifestDigest_eq_ok_iff, hfield, herase]
  simp [List.lookup, hrows, hsplits, hclaims, hestimates, hnonClaims, hsupport, splitDigest,
    digestValue, roleDigestText, installed]

/-- The support row repeats the digests of the assertion and of the material. -/
theorem checkSupportRow_row :
    checkSupportRow (certificate.manifest issuer recordManifest)
      (certificate.declaredPlan platform) (certificate.claimSupportRow platform)
      (assertionDigestValue platform)
      (digestValue platform (domain "claim_material") (materialDocument platform)) =
        .ok () := by
  simp [checkSupportRow, List.lookup, planDigest, assertionDigestValue, digestValue]

/-- The manifest copies the plan, its signature and the manifest of the record. -/
theorem checkManifestCopies_bundle (hcanonical : Canonicalizable recordManifest) :
    checkManifestCopies (installed platform schema)
      (certificate.manifest issuer recordManifest) (certificate.declaredPlan platform)
      (certificate.planSignature issuer) recordManifest = .ok () := by
  have hsignature : Canonicalizable (certificate.planSignature issuer) :=
    (document_planSignature (d := 0)).canonicalizable_of_plain (by decide)
  have hcoverage : getItems (certificate.manifest issuer recordManifest) "coverage" =
      .ok (manifestCoverage.map PyValue.str) :=
    getItems_of_member (by simp [List.lookup])
  have hself : pyEq (.list (manifestCoverage.map PyValue.str))
      (.list (manifestCoverage.map PyValue.str)) = true := pyEq_list_str_iff.mpr rfl
  simp only [checkManifestCopies, roleDigest_bind_eq_ok_iff]
  refine ⟨hcanonical, hsignature, bind_eq_ok_iff.mpr ⟨_, hcoverage, ?_⟩⟩
  simp [List.lookup, hself, planDigest, digestValue, installed]

include hproper in
/-- The issuer of the process record has signed the manifest. -/
theorem checkIssuerSignature_bundle
    (hissuer : recordIssuer processRecord = .ok (issuer.projection issuerSpkiDomain)) :
    checkIssuerSignature (installed platform schema)
      (certificate.manifest issuer recordManifest)
      (certificate.signatureBlock issuer recordManifest) processRecord = .ok () := by
  have hmanifest : Canonicalizable (certificate.manifest issuer recordManifest) :=
    (hproper.document_manifest (d := 0)).canonicalizable_of_plain (by decide)
  have hkey : materialPublicKey (installed platform schema).platform
      (issuer.projection issuerSpkiDomain) issuerSpkiDomain = .ok issuer.key :=
    issuer.materialPublicKey_projection _
  have hsigned : verifySignature platform issuer.key (.str issuer.algorithm)
      (preimage (domain "issuer_signature")
        (utf8 (canonicalText platform.float (certificate.manifest issuer recordManifest))))
      (issuer.signature (domain "issuer_signature")
        (certificate.manifest issuer recordManifest)) = .ok () := issuer.verifies _
  simp only [checkIssuerSignature, roleDigest_bind_eq_ok_iff, get_bind_eq_ok_iff,
    unit_bind_eq_ok_iff, ensure_eq_ok_iff, orFail_bind_eq_ok_iff, Bool.and_eq_true]
  refine ⟨hmanifest, rfl, ?_, ?_, bind_eq_ok_iff.mpr ⟨_, hissuer, ?_⟩⟩
  · simp [List.lookup, digestValue, installed]
  · simp [List.lookup]
  simp only [unit_bind_eq_ok_iff, ensure_eq_ok_iff, orFail_bind_eq_ok_iff, Bool.and_eq_true]
  refine ⟨by simp [List.lookup], bind_eq_ok_iff.mpr ⟨_, hkey, ?_⟩⟩
  simp only [canonicalUtf8_bind_eq_ok_iff, orFail_eq_ok_iff]
  exact ⟨hmanifest, by simpa [List.lookup, installed] using hsigned⟩

include hproper in
/-- Digests, copies and signature of the manifest are those recomputed. -/
theorem stageS8 (hproved : certificate.ProvedBy issuer verifyProcessRecord processRecord
      recordManifest) :
    stageS8ManifestDigestsSignature (installed platform schema)
      (certificate.bundle issuer recordManifest) processRecord = .ok () := by
  have hassertion : index (certificate.bundle issuer recordManifest) "assertion" =
      .ok (assertion platform) := by
    simp [index, List.lookup]
  have hblock : index (certificate.bundle issuer recordManifest) "signature" =
      .ok (certificate.signatureBlock issuer recordManifest) := by
    simp [index, List.lookup]
  have hkey : processRecord.hasKey "unsigned_manifest" = true := by
    rw [PyValue.hasKey, hproved.manifest, Option.isSome_some]
  have hrecord : processRecord.field "unsigned_manifest" = recordManifest := by
    rw [PyValue.field, hproved.manifest, Option.getD_some]
  have hmaterial : claimMaterial (assertion platform) (assertionDigestValue platform) =
      .ok (materialDocument platform) := by
    simp [claimMaterial, index, List.lookup, materialDocument]
  have hcanonical : Canonicalizable (materialDocument platform) :=
    (document_material (d := 0)).canonicalizable_of_plain (by decide)
  rw [stageS8ManifestDigestsSignature, index_manifest, ok_bind, hblock, ok_bind]
  simp only [unit_bind_eq_ok_iff, ensure_eq_ok_iff, hkey, true_and]
  refine ⟨hproper.checkManifestDigests_bundle, ?_⟩
  rw [hassertion, ok_bind]
  simp only [recomputedAssertionDigest_bind_eq_ok_iff, erase_assertion]
  refine ⟨rfl, canonicalizable_assertionRows, bind_eq_ok_iff.mpr ⟨_, hmaterial, ?_⟩⟩
  simp only [roleDigest_bind_eq_ok_iff]
  refine ⟨hcanonical, ?_⟩
  rw [envelopeMember_plan, ok_bind, supportRow_bundle, ok_bind, envelopeMember_signature,
    hrecord]
  simp only [unit_bind_eq_ok_iff]
  refine ⟨checkSupportRow_row, bind_eq_ok_iff.mpr ⟨_, rfl, ?_⟩⟩
  simp only [unit_bind_eq_ok_iff]
  exact ⟨checkManifestCopies_bundle hproved.canonicalizable,
    hproper.checkIssuerSignature_bundle hproved.issuer⟩

/-- The result repeats what the certificate says. -/
theorem verificationResult_bundle :
    verificationResult (certificate.bundle issuer recordManifest) = .ok certificate.result := by
  rw [verificationResult, index_manifest, ok_bind, supportRow_bundle, ok_bind]
  simp [index, at?, List.lookup, Certification.get, evaluationSplits, measuredClaims, result]

include hproper in
/-- The verifier accepts every plausible certificate that is issued over a process record
proving it. -/
theorem verify_bundle
    (hschema : schema (certificate.bundle issuer recordManifest) = .valid)
    (hproved : certificate.ProvedBy issuer verifyProcessRecord processRecord recordManifest) :
    verifyAgentQualityCertificate (installed platform schema)
      (certificate.context verifyProcessRecord platform)
      (certificate.bundle issuer recordManifest) processRecord = .ok certificate.result := by
  rw [verifyAgentQualityCertificate, contentFree_eq_ok_iff]
  simp only [runAgentQualityChecks, unit_bind_eq_ok_iff]
  exact ⟨hproper.stageS1 hschema, hproper.stageS2 hproved, stageS3_bundle,
    hproper.stageS4 hproved, hproper.stageS5, hproper.stageS6, stageS7,
    hproper.stageS8 hproved, verificationResult_bundle⟩

end Certificate.Plausible

end Acceptance

/-! ## A concrete certificate -/

/-- A process record of the issuer, with the members that the verification reads. -/
def Certificate.processRecord {platform : Platform} (issuer : Issuer platform)
    (recordManifest : PyValue) : PyValue :=
  .object [("unsigned_manifest", recordManifest),
    ("verification_materials_v0",
      .object [("issuer", issuer.projection issuerSpkiDomain)])]

def Certificate.recordManifest (certificate : Certificate) : PyValue :=
  .object [("project_ref", .leaf (.str certificate.record.projectRef)),
    ("build_session_ref", .leaf (.str certificate.record.buildSessionRef)),
    ("agent_commitment_ref", .leaf (.str certificate.record.agentCommitmentRef)),
    ("dataset_commitment_ref", .leaf (.str certificate.record.datasetCommitmentRef)),
    ("evaluator_commitment_ref", .leaf (.str certificate.record.evaluatorCommitmentRef)),
    ("build_definition_commitment_ref",
      .leaf (.str certificate.record.buildDefinitionCommitmentRef))]

def textMember (v : PyValue) (name : String) : Checked Text :=
  match v.field name with
  | .leaf (.str s) => .ok s
  | _ => .error .other

/-- What an intact process record proves: the refs that its manifest states. -/
def recordRefs (processRecord : PyValue) : Checked VerifiedProcessRecord := do
  let manifest ← index processRecord "unsigned_manifest"
  return {
    projectRef := ← textMember manifest "project_ref"
    buildSessionRef := ← textMember manifest "build_session_ref"
    agentCommitmentRef := ← textMember manifest "agent_commitment_ref"
    datasetCommitmentRef := ← textMember manifest "dataset_commitment_ref"
    evaluatorCommitmentRef := ← textMember manifest "evaluator_commitment_ref"
    buildDefinitionCommitmentRef := ← textMember manifest "build_definition_commitment_ref" }

/-- The record the issuer writes for a plausible certificate proves it. -/
theorem Certificate.Plausible.provedBy {platform : Platform} {issuer : Issuer platform}
    {certificate : Certificate} (hproper : certificate.Plausible) :
    certificate.ProvedBy issuer recordRefs
      (Certificate.processRecord issuer certificate.recordManifest)
      certificate.recordManifest where
  verified := by
    simp [recordRefs, Certificate.processRecord, Certificate.recordManifest, textMember, index,
      List.lookup]
  manifest := by simp [Certificate.processRecord, List.lookup]
  canonicalizable := by
    have hdocument : Document PlainAtom 1 certificate.recordManifest := by
      apply document_object <;>
        simp [document_text, hproper.projectRef, hproper.buildSessionRef,
          hproper.agent, hproper.dataset, hproper.evaluator,
          hproper.buildDefinition]
    exact hdocument.canonicalizable_of_plain (by decide)
  issuer := by
    simp [recordIssuer, Certificate.processRecord, index, List.lookup]

open Classical in
/-- A validator of one property. -/
noncomputable def validator (shape : PyValue → Prop) (v : PyValue) : SchemaOutcome :=
  if shape v then .valid else .invalid

theorem validator_eq_valid_iff {shape : PyValue → Prop} {v : PyValue} :
    validator shape v = .valid ↔ shape v := by
  unfold validator
  split <;> simp_all

/-- A mean score of 0.8 with a deviation of 0.05 over the half of 60 items, certified for
dataset 2 with a split of the dataset given. -/
def exampleCertificate (splitDatasetCommitmentRef : String) : Certificate where
  record := {
    projectRef := text "project_contract001"
    buildSessionRef := text "bsn:aaaaaaaaaaaaaaaaaaaaaaaaaaaaaaaaaaaaaaaaaaa"
    agentCommitmentRef := text
      "sha256:1111111111111111111111111111111111111111111111111111111111111111"
    datasetCommitmentRef := text
      "sha256:2222222222222222222222222222222222222222222222222222222222222222"
    evaluatorCommitmentRef := text
      "sha256:3333333333333333333333333333333333333333333333333333333333333333"
    buildDefinitionCommitmentRef := text
      "sha256:4444444444444444444444444444444444444444444444444444444444444444" }
  measurementContractRef := text "measurement:mmmmmmmm"
  measurementContractRecordDigest := text
    "sha256:a5a5a5a5a5a5a5a5a5a5a5a5a5a5a5a5a5a5a5a5a5a5a5a5a5a5a5a5a5a5a5a5"
  splitDatasetCommitmentRef := text splitDatasetCommitmentRef
  splitKeyCommitment := text
    "sha256:cccccccccccccccccccccccccccccccccccccccccccccccccccccccccccccccc"
  selectionCommitment := text
    "sha256:aaaaaaaaaaaaaaaaaaaaaaaaaaaaaaaaaaaaaaaaaaaaaaaaaaaaaaaaaaaaaaaa"
  holdoutCommitment := text
    "sha256:bbbbbbbbbbbbbbbbbbbbbbbbbbbbbbbbbbbbbbbbbbbbbbbbbbbbbbbbbbbbbbbb"
  selectionCount := 30
  holdoutCount := 30
  holdoutFractionPpm := 500000
  selectionArmCount := 4
  nominalCoveragePpm := 950000
  mean := 800000
  stddev := 50000
  intervalLow := 781329
  intervalHigh := 818671

/-- The numbers of the example are within their bounds. -/
theorem exampleCertificate_isPlausible (splitDatasetCommitmentRef : String) :
    (exampleCertificate splitDatasetCommitmentRef).Plausible where
  projectRef := encodable_text _
  buildSessionRef := encodable_text _
  agent := encodable_text _
  dataset := encodable_text _
  evaluator := encodable_text _
  buildDefinition := encodable_text _
  contractRef := encodable_text _
  contractDigest := encodable_text _
  splitDataset := encodable_text _
  splitKey := encodable_text _
  selectionText := encodable_text _
  holdoutText := encodable_text _
  distinct := by
    intro heq
    exact absurd (text_injective heq) (by decide)
  selectionCount := by simp only [exampleCertificate]; decide
  holdoutCount := by simp only [exampleCertificate]; decide
  total := by simp only [exampleCertificate]; decide
  fraction := by simp only [exampleCertificate]; decide
  arms := by simp only [exampleCertificate]; decide
  stddev := by simp only [exampleCertificate]; decide
  size := by
    have hroot : Nat.sqrt 15 = 3 := Nat.eq_sqrt.mpr (by decide) |>.symm
    refine ⟨30, 19, ?_, by simp [exampleCertificate]⟩
    simp [exampleCertificate, splitSizeBound, tScale, hroot]
  coverage := by simp only [exampleCertificate]; decide
  interval := by
    simp only [exampleCertificate, recomputed, expectedPoint, expectedEndpoints,
      studentTHalfWidth_thirty, ok_bind]
    decide
  low := by simp only [exampleCertificate]; decide
  ordered := by simp only [exampleCertificate]; decide
  high := by simp only [exampleCertificate]; decide

noncomputable def exampleIssuer : Issuer neutralPlatform :=
  neutralIssuer "issuerkey:bbbbbbbb" "trustring:aaaaaaaa" neutralKey (Or.inl rfl)

noncomputable def exampleBundle (splitDatasetCommitmentRef : String) : PyValue :=
  (exampleCertificate splitDatasetCommitmentRef).bundle exampleIssuer
    (exampleCertificate splitDatasetCommitmentRef).recordManifest

noncomputable def exampleProcessRecord (splitDatasetCommitmentRef : String) : PyValue :=
  Certificate.processRecord exampleIssuer
    (exampleCertificate splitDatasetCommitmentRef).recordManifest

noncomputable def exampleContext (splitDatasetCommitmentRef : String) : Context :=
  (exampleCertificate splitDatasetCommitmentRef).context recordRefs neutralPlatform

/-- The example passes all stages under any schema that accepts it. -/
theorem verify_exampleBundle {schema : PyValue → SchemaOutcome}
    {splitDatasetCommitmentRef : String}
    (hschema : schema (exampleBundle splitDatasetCommitmentRef) = .valid) :
    verifyAgentQualityCertificate (installed neutralPlatform schema)
      (exampleContext splitDatasetCommitmentRef) (exampleBundle splitDatasetCommitmentRef)
      (exampleProcessRecord splitDatasetCommitmentRef) =
        .ok (exampleCertificate splitDatasetCommitmentRef).result :=
  have hproper := exampleCertificate_isPlausible splitDatasetCommitmentRef
  hproper.verify_bundle hschema hproper.provedBy

theorem wellFormed_exampleBundle (splitDatasetCommitmentRef : String) :
    (exampleBundle splitDatasetCommitmentRef).WellFormed :=
  (exampleCertificate_isPlausible splitDatasetCommitmentRef).document_bundle.wellFormed

end TraigentSchema.AgentQuality
