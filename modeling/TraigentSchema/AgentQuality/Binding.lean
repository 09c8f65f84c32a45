import TraigentSchema.AgentQuality.Environment

/-!
# Stages S1 to S4: structure, context, registries and the declared plan

The bundle is a schema-valid document of strings and integers; its manifest and its
declared plan name the process record, the commitments and the scope of the caller;
the registries are the installed ones; the declared plan is signed by the process
record's issuer.
-/

namespace TraigentSchema.AgentQuality

open TraigentSchema.Unicode
open TraigentSchema.Fp2
open TraigentSchema.Certification
open TraigentSchema.Python
open TraigentSchema.Traverse

/-! ## S1 -/

def bundleSchemaVersion : PyValue := .str "traigent.agent_quality.certificate_bundle.v1"

/-- The walk of this verifier refuses a `bool`. -/
def walkStrict (bundle : PyValue) : Checked Unit :=
  walkStrictValues (fail "STRICT_INTEGER" "bundle") "UNSAFE_INTEGER" "STRICT_INTEGER"
    "CANONICALIZATION" bundle 1

section Stages

variable (environment : Environment)

def stageS1Structural (bundle : PyValue) : Checked Unit := do
  ensure (bundle.isDict && pyEq (bundle.field "schema_version") bundleSchemaVersion)
    "BUNDLE_SHAPE" "bundle"
  walkStrict bundle
  match environment.schema bundle with
  | .raised => fail "SCHEMA_DEPENDENCY" "bundle"
  | .invalid => fail "SCHEMA" "bundle"
  | .valid => ensure (decide (Canonicalizable bundle)) "CANONICALIZATION" "bundle"

/-! ## S2 -/

/-- The manifest's commitment refs with the caller's pin and the verified value of
each. -/
def commitmentRefs (context : Context) (verified : VerifiedProcessRecord) :
    List (String × Text × Text) :=
  [("agent_commitment_ref", context.expectedAgentCommitmentRef,
      verified.agentCommitmentRef),
    ("dataset_commitment_ref", context.expectedDatasetCommitmentRef,
      verified.datasetCommitmentRef),
    ("evaluator_commitment_ref", context.expectedEvaluatorCommitmentRef,
      verified.evaluatorCommitmentRef),
    ("build_definition_commitment_ref", context.expectedBuildDefinitionCommitmentRef,
      verified.buildDefinitionCommitmentRef)]

/-- `ScopeBindingProjectionV1`, from the caller's pins only. -/
def scopeBindingProjection (context : Context) : PyValue :=
  .object [("schema_version", .str "traigent.agent_quality.scope_binding.v1"),
    ("project_ref", .leaf (.str context.expectedProjectRef)),
    ("build_session_ref", .leaf (.str context.expectedBuildSessionRef))]

/-- A manifest or a measured claim cites the pinned measurement contract. -/
def citesContract (document : PyValue) (contractRef recordDigest : Text) :
    Checked Unit := do
  let ref ← get document "measurement_contract_ref"
  let digest ← get document "measurement_contract_record_digest"
  ensure (pyEq ref (.leaf (.str contractRef)) && pyEq digest (.leaf (.str recordDigest)))
    "MEASUREMENT_CONTRACT_MISMATCH" "measurement_contract"

/-- `bundle["declared_plan_envelope"][name]`. -/
def envelopeMember (bundle : PyValue) (name : String) : Checked PyValue := do
  let envelope ← index bundle "declared_plan_envelope"
  index envelope name

@[simp]
theorem envelopeMember_bind_eq_ok_iff {B : Type} {bundle : PyValue} {name : String} {b : B}
    {f : PyValue → Checked B} :
    (envelopeMember bundle name >>= f) = .ok b ↔
      bundle.hasKey "declared_plan_envelope" = true ∧
        (bundle.field "declared_plan_envelope").hasKey name = true ∧
        f ((bundle.field "declared_plan_envelope").field name) = .ok b := by
  rw [envelopeMember, bind_assoc, index_bind_eq_ok_iff, index_bind_eq_ok_iff]

def stageS2ContextBinding (context : Context) (bundle processRecord : PyValue) :
    Checked Unit := do
  let verified ← context.verifyProcessRecord processRecord
  let manifest ← index bundle "unsigned_manifest"
  let declaredPlan ← envelopeMember bundle "declared_plan"
  let processRecordManifest ← index processRecord "unsigned_manifest"
  let processRecordDigest ← roleDigest environment.platform
    processRecordUnsignedManifestDomain processRecordManifest
  let baseDigest ← get manifest "base_process_record_unsigned_manifest_digest"
  ensure (pyEq baseDigest processRecordDigest) "PROCESS_RECORD_BINDING_MISMATCH"
    "process_record_binding"
  forM (commitmentRefs context verified) fun row => do
    let ref ← get manifest row.1
    ensure (pyEq ref (.leaf (.str row.2.1)) && decide (row.2.2 = row.2.1))
      "COMMITMENT_REF_MISMATCH" "commitment_refs"
  ensure (decide (verified.projectRef = context.expectedProjectRef ∧
      verified.buildSessionRef = context.expectedBuildSessionRef))
    "SCOPE_MISMATCH" "scope_binding"
  let expectedScope ← roleDigest environment.platform (domain "scope_binding")
    (scopeBindingProjection context)
  let manifestScope ← get manifest "scope_binding_digest"
  let planScope ← get declaredPlan "scope_binding_digest"
  ensure (pyEq manifestScope expectedScope && pyEq planScope expectedScope)
    "SCOPE_MISMATCH" "scope_binding"
  match context.expectedMeasurementContractRef,
      context.expectedMeasurementContractRecordDigest with
  | some contractRef, some recordDigest => do
      citesContract manifest contractRef recordDigest
      let claims ← getItems bundle "measured_claims"
      forM claims fun claim => citesContract claim contractRef recordDigest
  | _, _ => fail "MEASUREMENT_CONTRACT_NOT_PINNED" "context"

/-! ## S3 -/

/-- A Student-t claim's own copy of the quantile table's identity. -/
def checkClaimQuantileTable (identity claim : PyValue) : Checked Unit :=
  match (claim.field "interval_params").member "quantile_table" with
  | none => .ok ()
  | some (.leaf .none) => .ok ()
  | some table => ensure (pyEq table identity) "QUANTILE_TABLE_MISMATCH" "quantile_table"

def stageS3RegistryIdentity (bundle : PyValue) : Checked Unit := do
  let manifest ← index bundle "unsigned_manifest"
  let declaredPlan ← envelopeMember bundle "declared_plan"
  let identity := registryIdentity environment.platform environment.package
  let policy ← identity .aggregationPolicy
  let manifestPolicy ← get manifest "aggregation_policy"
  let planPolicy ← get declaredPlan "aggregation_policy"
  ensure (pyEq manifestPolicy policy && pyEq planPolicy policy)
    "AGGREGATION_POLICY_MISMATCH" "aggregation_policy"
  let objectives ← identity .objectiveRegistry
  let manifestObjectives ← get manifest "objective_registry"
  let planObjectives ← get declaredPlan "objective_registry"
  ensure (pyEq manifestObjectives objectives && pyEq planObjectives objectives)
    "OBJECTIVE_REGISTRY_MISMATCH" "objective_registry"
  let catalog ← identity .nonClaimCatalog
  let manifestCatalog ← get manifest "non_claim_catalog"
  ensure (pyEq manifestCatalog catalog) "NON_CLAIM_SET_MISMATCH" "non_claims"
  let nonClaims ← getItems bundle "non_claims"
  let bundleIds ← nonClaims.mapM fun entry => get entry "non_claim_id"
  ensure (pyEq (.list bundleIds) (.list (environment.package.nonClaimIds.map PyValue.str)))
    "NON_CLAIM_SET_MISMATCH" "non_claims"
  let table ← identity .quantileTable
  let manifestTable ← get manifest "quantile_table"
  ensure (pyEq manifestTable table) "QUANTILE_TABLE_MISMATCH" "quantile_table"
  let claims ← getItems bundle "measured_claims"
  forM claims fun claim => checkClaimQuantileTable table claim

/-! ## S4 -/

/-- `process_record_bundle["verification_materials_v0"]["issuer"]`. -/
def recordIssuer (processRecord : PyValue) : Checked PyValue := do
  let materials ← index processRecord "verification_materials_v0"
  index materials "issuer"

/-- The issuer's projection, a mapping, and its public key. -/
def issuerKey (processRecord : PyValue) :
    Checked (PyValue × environment.platform.PublicKey) := do
  let issuer ← recordIssuer processRecord
  if issuer.isDict then do
    let key ← materialPublicKey environment.platform issuer issuerSpkiDomain
    return (issuer, key)
  else .error .other

def stageS4DeclaredPlanSignatures (context : Context) (bundle processRecord : PyValue) :
    Checked Unit := do
  let manifest ← index bundle "unsigned_manifest"
  let declaredPlan ← envelopeMember bundle "declared_plan"
  let signature ← envelopeMember bundle "signature"
  let stripped ← stripSelfDigest declaredPlan "declared_plan_digest"
  let planDigest ← roleDigest environment.platform (domain "declared_plan") stripped
  let ownDigest ← get declaredPlan "declared_plan_digest"
  let manifestDigest ← get manifest "declared_plan_digest"
  ensure (pyEq planDigest ownDigest && pyEq planDigest manifestDigest)
    "DECLARED_PLAN_DIGEST_MISMATCH" "declared_plan"
  let signedDigest ← get signature "declared_plan_digest"
  ensure (pyEq signedDigest ownDigest) "DECLARED_PLAN_SIGNATURE_DIGEST_MISMATCH"
    "declared_plan_signature"
  let (issuer, key) ← orFail (issuerKey environment processRecord)
    "DECLARED_PLAN_SIGNATURE_INVALID" "declared_plan_signature"
  ensure (pyEq (signature.field "issuer_key_ref") (issuer.field "key_ref") &&
      pyEq (signature.field "trust_ring_ref") (issuer.field "trust_ring_ref") &&
      pyEq (signature.field "algorithm") (issuer.field "algorithm"))
    "DECLARED_PLAN_SIGNATURE_INVALID" "declared_plan_signature"
  let canonical ← canonicalUtf8 environment.platform declaredPlan
  orFail (verifySignature environment.platform key (signature.field "algorithm")
      (preimage (domain "declared_plan_signature") canonical) (signature.field "signature"))
    "DECLARED_PLAN_SIGNATURE_INVALID" "declared_plan_signature"
  ensure (pyEq (.leaf (.str context.expectedDeclaredPlanDigest)) ownDigest)
    "DECLARED_PLAN_PIN_MISMATCH" "declared_plan"

end Stages

/-! ## What the stages establish -/

section Established

variable {environment : Environment} {context : Context} {bundle processRecord : PyValue}

/-- S1: a schema-valid document of strings, integers and nulls. -/
structure Structural (environment : Environment) (bundle : PyValue) : Prop where
  isDict : bundle.isDict = true
  schemaVersion : bundle.field "schema_version" = bundleSchemaVersion
  plain : Plain bundle
  nesting : bundle.nesting ≤ maxDepth
  schema : environment.schema bundle = .valid

theorem walked_and_supported_iff {x : Atom} :
    WalkedAtom (fail "STRICT_INTEGER" "bundle") "UNSAFE_INTEGER" "STRICT_INTEGER" x ∧
      SupportedAtom x ↔ PlainAtom x := by
  cases x <;> simp [WalkedAtom, walkAtom, SupportedAtom, PlainAtom, fail]

theorem stageS1_eq_ok_iff :
    stageS1Structural environment bundle = .ok () ↔ Structural environment bundle := by
  have hplain : Plain bundle ↔
      bundle.Admits (WalkedAtom (fail "STRICT_INTEGER" "bundle") "UNSAFE_INTEGER"
        "STRICT_INTEGER") PlainKey ∧ Supported bundle := by
    rw [Plain, Supported, ← Tree.admits_and]
    simp only [walked_and_supported_iff, and_self]
  constructor
  · intro hstage
    simp only [stageS1Structural, unit_bind_eq_ok_iff, ensure_eq_ok_iff, Bool.and_eq_true,
      bundleSchemaVersion, PyValue.str, pyEq_str_right, walkStrict,
      walkStrictValues_eq_ok_iff] at hstage
    obtain ⟨⟨hdict, hversion⟩, ⟨hwalked, -⟩, hrest⟩ := hstage
    split at hrest
    · exact absurd hrest (fail_ne_ok _ _ _)
    · exact absurd hrest (fail_ne_ok _ _ _)
    · rename_i hvalid
      obtain ⟨hnesting, hsupported⟩ : Canonicalizable bundle := by simpa using hrest
      exact ⟨hdict, hversion, hplain.mpr ⟨hwalked, hsupported⟩, hnesting, hvalid⟩
  · intro hstage
    have hnesting := hstage.nesting
    have hcanonical : Canonicalizable bundle :=
      ⟨hnesting, (hplain.mp hstage.plain).2⟩
    simp only [stageS1Structural, hstage.isDict, hstage.schemaVersion, hstage.schema,
      unit_bind_eq_ok_iff, walkStrict, walkStrictValues_eq_ok_iff, hcanonical, ensure_eq_ok_iff,
      bundleSchemaVersion, PyValue.str, pyEq_str_right, Bool.and_eq_true, decide_true, and_true,
      true_and]
    exact ⟨(hplain.mp hstage.plain).1, Or.inr (by omega)⟩

/-- A document cites the contract. -/
structure Cites (document : PyValue) (contractRef recordDigest : Text) : Prop where
  ref : document.field "measurement_contract_ref" = .leaf (.str contractRef)
  digest : document.field "measurement_contract_record_digest" = .leaf (.str recordDigest)

theorem cites_of_ok {document : PyValue} {contractRef recordDigest : Text} {u : Unit}
    (hcites : citesContract document contractRef recordDigest = .ok u) :
    Cites document contractRef recordDigest := by
  simp only [citesContract, get_bind_eq_ok_iff, ensure_eq_ok_iff, Bool.and_eq_true,
    pyEq_str_right] at hcites
  exact ⟨hcites.2.2.1, hcites.2.2.2⟩

/-- S2: the manifest and the plan name what the caller pinned and the process record
proved. -/
structure ContextBound (environment : Environment) (context : Context)
    (bundle processRecord : PyValue) (verified : VerifiedProcessRecord) : Prop where
  recordVerified : context.verifyProcessRecord processRecord = .ok verified
  processRecordDigest : (manifestOf bundle).field
      "base_process_record_unsigned_manifest_digest" =
    .leaf (.str (sha256Text environment.platform (rolePreimage environment.platform
      processRecordUnsignedManifestDomain (processRecord.field "unsigned_manifest"))))
  commitments : ∀ row ∈ commitmentRefs context verified,
    (manifestOf bundle).field row.1 = .leaf (.str row.2.1) ∧ row.2.2 = row.2.1
  projectRef : verified.projectRef = context.expectedProjectRef
  buildSessionRef : verified.buildSessionRef = context.expectedBuildSessionRef
  manifestScope : (manifestOf bundle).field "scope_binding_digest" =
    roleDigestText environment.platform "scope_binding" (scopeBindingProjection context)
  planScope : (planOf bundle).field "scope_binding_digest" =
    roleDigestText environment.platform "scope_binding" (scopeBindingProjection context)
  contract : ∃ contractRef recordDigest,
    context.expectedMeasurementContractRef = some contractRef ∧
    context.expectedMeasurementContractRecordDigest = some recordDigest ∧
    Cites (manifestOf bundle) contractRef recordDigest ∧
    ∃ claims, getItems bundle "measured_claims" = .ok claims ∧
      ∀ claim ∈ claims, Cites claim contractRef recordDigest

theorem contextBound_of_stageS2
    (hstage : stageS2ContextBinding environment context bundle processRecord = .ok ()) :
    ∃ verified, ContextBound environment context bundle processRecord verified := by
  obtain ⟨verified, hverified, hrest⟩ := bind_eq_ok_iff.mp hstage
  simp only [envelopeMember_bind_eq_ok_iff, index_bind_eq_ok_iff, get_bind_eq_ok_iff,
    unit_bind_eq_ok_iff, ensure_eq_ok_iff, roleDigest_bind_eq_ok_iff, forM_eq_ok_iff,
    pyEq_str_right, Bool.and_eq_true, decide_eq_true_eq] at hrest
  obtain ⟨-, -, -, -, -, -, hbase, hcommitments, ⟨hproject, hsession⟩, -, -, -,
    ⟨hmanifestScope, hplanScope⟩, hcontract⟩ := hrest
  refine ⟨verified, {
    recordVerified := hverified
    processRecordDigest := hbase
    commitments := fun row hrow => (hcommitments row hrow).2
    projectRef := hproject
    buildSessionRef := hsession
    manifestScope := hmanifestScope
    planScope := hplanScope
    contract := ?_ }⟩
  split at hcontract
  · rename_i contractRef recordDigest href hdigest
    rw [unit_bind_eq_ok_iff, bind_eq_ok_iff] at hcontract
    obtain ⟨hmanifest, claims, hclaims, hcites⟩ := hcontract
    refine ⟨contractRef, recordDigest, href, hdigest, cites_of_ok hmanifest, claims, hclaims,
      fun claim hclaim => cites_of_ok (forM_eq_ok_iff.mp hcites claim hclaim)⟩
  · exact absurd hcontract (fail_ne_ok _ _ _)

/-- The identity of an installed registry, with its recomputed digest. -/
def installedIdentity (environment : Environment) (registry : Registry) : PyValue :=
  .object (registry.identityRows (.leaf (.str (sha256Text environment.platform
    (rolePreimage environment.platform registry.domain
      (environment.package.document registry))))))

@[simp]
theorem registryIdentity_bind_eq_ok_iff {B : Type} {registry : Registry} {b : B}
    {f : PyValue → Checked B} :
    (registryIdentity environment.platform environment.package registry >>= f) = .ok b ↔
      Canonicalizable (environment.package.document registry) ∧
        f (installedIdentity environment registry) = .ok b := by
  rw [registryIdentity, bind_assoc, roleDigest_bind_eq_ok_iff]
  rfl

/-- S3: the registries are the installed ones, for the manifest, the plan and the
claims. -/
structure RegistriesInstalled (environment : Environment) (bundle : PyValue) : Prop where
  manifestPolicy : pyEq ((manifestOf bundle).field "aggregation_policy")
    (installedIdentity environment .aggregationPolicy) = true
  planPolicy : pyEq ((planOf bundle).field "aggregation_policy")
    (installedIdentity environment .aggregationPolicy) = true
  manifestObjectives : pyEq ((manifestOf bundle).field "objective_registry")
    (installedIdentity environment .objectiveRegistry) = true
  planObjectives : pyEq ((planOf bundle).field "objective_registry")
    (installedIdentity environment .objectiveRegistry) = true
  manifestCatalog : pyEq ((manifestOf bundle).field "non_claim_catalog")
    (installedIdentity environment .nonClaimCatalog) = true
  nonClaims : ∃ entries, getItems bundle "non_claims" = .ok entries ∧
    entries.map (fun entry => entry.field "non_claim_id") =
      environment.package.nonClaimIds.map PyValue.str
  manifestTable : pyEq ((manifestOf bundle).field "quantile_table")
    (installedIdentity environment .quantileTable) = true
  claimTables : ∃ claims, getItems bundle "measured_claims" = .ok claims ∧
    ∀ claim ∈ claims, ∀ table,
      (claim.field "interval_params").member "quantile_table" = some table →
        table ≠ .leaf .none →
        pyEq table (installedIdentity environment .quantileTable) = true

/-- A list that equals one of string literals holds them. -/
theorem pyEq_list_str_iff {values : List PyValue} {literals : List String} :
    pyEq (.list values) (.list (literals.map PyValue.str)) = true ↔
      values = literals.map PyValue.str := by
  rw [pyEq_list_list, itemsEq_iff]
  constructor
  · intro hvalues
    induction literals generalizing values with
    | nil => cases hvalues; rfl
    | cons literal literals ih =>
        cases hvalues with
        | cons hhead htail =>
            rw [List.map_cons, pyEq_str_right.mp hhead, ih htail]
            rfl
  · rintro rfl
    rw [List.forall₂_same]
    intro value hvalue
    obtain ⟨literal, -, rfl⟩ := List.mem_map.mp hvalue
    exact pyEq_str_right.mpr rfl

theorem claimTable_of_ok {identity claim table : PyValue}
    (hclaim : checkClaimQuantileTable identity claim = .ok ())
    (hmember : (claim.field "interval_params").member "quantile_table" = some table)
    (hne : table ≠ .leaf .none) : pyEq table identity = true := by
  unfold checkClaimQuantileTable at hclaim
  rw [hmember] at hclaim
  split at hclaim
  · rename_i hnone
    cases hnone
  · rename_i hnone
    exact absurd (Option.some.inj hnone) hne
  · rename_i hsome
    obtain rfl := Option.some.inj hsome
    exact ensure_eq_ok_iff.mp hclaim

theorem registriesInstalled_of_stageS3
    (hstage : stageS3RegistryIdentity environment bundle = .ok ()) :
    RegistriesInstalled environment bundle := by
  simp only [stageS3RegistryIdentity, envelopeMember_bind_eq_ok_iff, index_bind_eq_ok_iff,
    get_bind_eq_ok_iff, unit_bind_eq_ok_iff, ensure_eq_ok_iff, Bool.and_eq_true,
    registryIdentity_bind_eq_ok_iff] at hstage
  obtain ⟨-, -, -, -, -, -, ⟨hmanifestPolicy, hplanPolicy⟩, -, -, -,
    ⟨hmanifestObjectives, hplanObjectives⟩, -, -, hcatalog, hrest⟩ := hstage
  obtain ⟨entries, hentries, hrest⟩ := bind_eq_ok_iff.mp hrest
  obtain ⟨ids, hids, hrest⟩ := bind_eq_ok_iff.mp hrest
  simp only [get_bind_eq_ok_iff, unit_bind_eq_ok_iff, ensure_eq_ok_iff,
    registryIdentity_bind_eq_ok_iff, pyEq_list_str_iff] at hrest
  obtain ⟨hliterals, -, -, htable, hclaims⟩ := hrest
  obtain ⟨claims, hitems, hclaims⟩ := bind_eq_ok_iff.mp hclaims
  have hfields : entries.map (fun entry => entry.field "non_claim_id") = ids := by
    have hrows := mapM_eq_ok_iff.mp hids
    rw [← List.map_id ids, map_eq_map_iff_forall₂]
    exact hrows.imp fun entry id hget => (get_eq_ok_iff.mp hget).2
  exact {
    manifestPolicy := hmanifestPolicy
    planPolicy := hplanPolicy
    manifestObjectives := hmanifestObjectives
    planObjectives := hplanObjectives
    manifestCatalog := hcatalog
    nonClaims := ⟨entries, hentries, hfields.trans hliterals⟩
    manifestTable := htable
    claimTables := ⟨claims, hitems, fun claim hclaim table =>
      claimTable_of_ok (forM_eq_ok_iff.mp hclaims claim hclaim)⟩ }

/-- S4: the plan's digest, recomputed, is the one it states, the manifest's, the
caller's and the signed one, and the process record's issuer signed the plan. -/
structure PlanSigned (environment : Environment) (context : Context)
    (bundle processRecord : PyValue) : Prop where
  planDict : (planOf bundle).isDict = true
  canonicalizable : Canonicalizable ((planOf bundle).erase "declared_plan_digest")
  ownDigest : (planOf bundle).field "declared_plan_digest" =
    roleDigestText environment.platform "declared_plan"
      ((planOf bundle).erase "declared_plan_digest")
  manifestDigest : (manifestOf bundle).field "declared_plan_digest" =
    roleDigestText environment.platform "declared_plan"
      ((planOf bundle).erase "declared_plan_digest")
  signedDigest : (planSignatureOf bundle).field "declared_plan_digest" =
    roleDigestText environment.platform "declared_plan"
      ((planOf bundle).erase "declared_plan_digest")
  pin : (planOf bundle).field "declared_plan_digest" =
    .leaf (.str context.expectedDeclaredPlanDigest)
  issuer : ∃ issuer key, recordIssuer processRecord = .ok issuer ∧
    materialPublicKey environment.platform issuer issuerSpkiDomain = .ok key ∧
    pyEq ((planSignatureOf bundle).field "issuer_key_ref") (issuer.field "key_ref") = true ∧
    pyEq ((planSignatureOf bundle).field "trust_ring_ref")
      (issuer.field "trust_ring_ref") = true ∧
    pyEq ((planSignatureOf bundle).field "algorithm") (issuer.field "algorithm") = true ∧
    verifySignature environment.platform key ((planSignatureOf bundle).field "algorithm")
      (rolePreimage environment.platform (domain "declared_plan_signature") (planOf bundle))
      ((planSignatureOf bundle).field "signature") = .ok ()

theorem issuerKey_eq_ok_iff {issuer : PyValue} {key : environment.platform.PublicKey} :
    issuerKey environment processRecord = .ok (issuer, key) ↔
      recordIssuer processRecord = .ok issuer ∧ issuer.isDict = true ∧
        materialPublicKey environment.platform issuer issuerSpkiDomain = .ok key := by
  rw [issuerKey, bind_eq_ok_iff]
  constructor
  · rintro ⟨issuer', hissuer, hrest⟩
    split_ifs at hrest with hdict
    obtain ⟨key', hkey, hpair⟩ := bind_eq_ok_iff.mp hrest
    rw [pure_eq_ok, Except.ok.injEq, Prod.mk.injEq] at hpair
    obtain ⟨rfl, rfl⟩ := hpair
    exact ⟨hissuer, hdict, hkey⟩
  · rintro ⟨hissuer, hdict, hkey⟩
    refine ⟨issuer, hissuer, ?_⟩
    rw [if_pos hdict, hkey]
    rfl

theorem planSigned_of_stageS4
    (hstage : stageS4DeclaredPlanSignatures environment context bundle processRecord =
      .ok ()) :
    PlanSigned environment context bundle processRecord := by
  simp only [stageS4DeclaredPlanSignatures, envelopeMember_bind_eq_ok_iff,
    index_bind_eq_ok_iff, get_bind_eq_ok_iff, unit_bind_eq_ok_iff, ensure_eq_ok_iff,
    roleDigest_bind_eq_ok_iff, stripSelfDigest_bind_eq_ok_iff, orFail_bind_eq_ok_iff,
    pyEq_str_left, Bool.and_eq_true] at hstage
  obtain ⟨-, -, -, -, -, hdict, hcanonical, -, -, ⟨hown, hmanifest⟩, -, hsigned, hrest⟩ :=
    hstage
  obtain ⟨⟨issuer, key⟩, hkey, hrest⟩ := bind_eq_ok_iff.mp hrest
  simp only [unit_bind_eq_ok_iff, ensure_eq_ok_iff, canonicalUtf8_bind_eq_ok_iff,
    orFail_eq_ok_iff, Bool.and_eq_true, pyEq_str_left] at hrest
  obtain ⟨⟨⟨hkeyRef, hringRef⟩, halgorithm⟩, -, hverified, hpin⟩ := hrest
  obtain ⟨hissuer, -, hmaterial⟩ := issuerKey_eq_ok_iff.mp hkey
  rw [hown] at hsigned
  exact {
    planDict := hdict
    canonicalizable := hcanonical
    ownDigest := hown
    manifestDigest := hmanifest
    signedDigest := pyEq_str_right.mp hsigned
    pin := hpin
    issuer := ⟨issuer, key, hissuer, hmaterial, hkeyRef, hringRef, halgorithm, hverified⟩ }

end Established

end TraigentSchema.AgentQuality
