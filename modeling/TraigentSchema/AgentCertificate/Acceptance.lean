import TraigentSchema.AgentCertificate.Verifier
import TraigentSchema.Certification.Issuer

/-!
# What acceptance of an agent certificate establishes

Each check is stated as what it finds: which members are there and which of them are
equal.  A certificate is accepted exactly when all of it holds.
-/

namespace TraigentSchema.AgentCertificate

open TraigentSchema.Unicode
open TraigentSchema.Fp2
open TraigentSchema.Framing
open TraigentSchema.Certification
open TraigentSchema.Python
open TraigentSchema.Traverse

/-- The member of `v` under `name` is there and equals the member of `w` under `other`. -/
structure Repeats (v : PyValue) (name : String) (w : PyValue) (other : String) : Prop where
  left : v.hasKey name = true
  right : w.hasKey other = true
  equal : pyEq (v.field name) (w.field other) = true

/-- The member of `v` under `name` is there and equals a value. -/
structure States (v : PyValue) (name : String) (w : PyValue) : Prop where
  hasKey : v.hasKey name = true
  equal : pyEq (v.field name) w = true

/-- A member that states a text is that text. -/
theorem States.field_eq_str {v : PyValue} {name : String} {s : Text}
    (hstates : States v name (.leaf (.str s))) : v.field name = .leaf (.str s) :=
  pyEq_str_right.mp hstates.equal

/-- A member that repeats a text is that text. -/
theorem Repeats.field_eq_str {v w : PyValue} {name other : String} {s : Text}
    (hrepeats : Repeats v name w other) (hright : w.field other = .leaf (.str s)) :
    v.field name = .leaf (.str s) :=
  pyEq_str_right.mp (hright ▸ hrepeats.equal)

theorem indexItems_eq_ok_iff {v : PyValue} {name : String} {items : List PyValue} :
    indexItems v name = .ok items ↔
      v.hasKey name = true ∧ iterate (v.field name) = .ok items := by
  simp [indexItems]

/-- A value equals one integer only. -/
theorem pyEq_int_unique {v : PyValue} {i j : ℤ} (hi : pyEq v (.leaf (.int i)) = true)
    (hj : pyEq v (.leaf (.int j)) = true) : i = j := by
  cases v with
  | leaf x =>
      rw [pyEq_leaf_leaf] at hi hj
      cases hx : x.number with
      | none => cases x <;> simp_all [atomEq]
      | some q =>
          have hvalue : ∀ k : ℤ, atomEq x (.int k) = true → q = k := by
            intro k hk
            cases x <;> simp_all [atomEq, Atom.number]
          have hsame := (hvalue i hi).symm.trans (hvalue j hj)
          exact_mod_cast hsame
  | list items => simp at hi
  | dict members => simp at hi

/-- A selection copies the named members, all of which have to be there. -/
theorem select_eq_ok_iff {v w : PyValue} {keys : List String} :
    select v keys = .ok w ↔
      (∀ key ∈ keys, v.hasKey key = true) ∧
        PyValue.object (keys.map fun key => (key, v.field key)) = w := by
  unfold select
  simp only [bind_eq_ok_iff, mapM_eq_ok_iff, index_eq_ok_iff, pure_eq_ok, and_assoc,
    exists_and_left, exists_eq_left', Except.ok.injEq]
  constructor
  · rintro ⟨rows, hrows, rfl⟩
    constructor
    · intro key hkey
      obtain ⟨_, -, hmember, -⟩ := exists_of_mem_left hrows hkey
      exact hmember
    · congr 1
      induction hrows with
      | nil => rfl
      | cons hhead _ ih => rw [List.map_cons, ih, hhead.2]
  · rintro ⟨hkeys, rfl⟩
    refine ⟨_, ?_, rfl⟩
    rw [List.forall₂_map_right_iff, List.forall₂_same]
    exact fun key hkey => ⟨hkeys key hkey, rfl⟩

section Acceptance

variable {environment : Environment}

/-- The relying party's digest is the role digest of a canonicalizable document. -/
theorem relyingDigest_eq_ok_iff {domain : String} {document digest : PyValue} :
    relyingDigest environment domain document = .ok digest ↔
      Canonicalizable document ∧
        digestValue environment.platform domain document = digest := by
  simp [relyingDigest, roleDigest_eq_ok_iff, digestValue]

/-! ## The envelope -/

abbrev auditDigestOf (environment : Environment) (certificate : PyValue) : PyValue :=
  digestValue environment.platform auditDomain (certificate.field "audit_report")

abbrev unsignedRefOf (certificate : PyValue) : PyValue :=
  (signaturesOf certificate).field "unsigned_manifest"

/-- `_validated_document` accepts. -/
structure Validated (environment : Environment) (certificate : PyValue)
    (policy : RelyingPartyPolicy) : Prop where
  isDict : certificate.isDict = true
  schema : environment.certificateSchema certificate = true
  hasSignatures : certificate.hasKey "signatures" = true
  hasUnsignedRef : (signaturesOf certificate).hasKey "unsigned_manifest" = true
  hasDocument : (unsignedRefOf certificate).hasKey "document" = true
  manifestMembers : (unsignedOf certificate).hasMembers manifestMembers = true
  manifestSchema : environment.manifestSchema (unsignedOf certificate) = true
  canonicalizable : Canonicalizable (unsignedOf certificate)
  hasAudit : certificate.hasKey "audit_report" = true
  auditCanonicalizable : Canonicalizable (certificate.field "audit_report")
  manifestDigest : States (unsignedRefOf certificate) "manifest_digest"
    (digestValue environment.platform unsignedDomain (unsignedOf certificate))
  policy : checkPolicy certificate (unsignedOf certificate) policy = .ok ()
  coverage : ∃ items, indexItems (unsignedRefOf certificate) "coverage" = .ok items ∧
    pyEq (.list items) (.list (manifestCoverage.map PyValue.str)) = true
  hasSubject : certificate.hasKey "subject" = true
  sessionRef : Repeats (certificate.field "audit_report") "build_session_ref"
    (certificate.field "subject") "build_session_ref"
  hasSeal : certificate.hasKey "ledger_seal_projection" = true
  sealStatement : Repeats (certificate.field "audit_report") "ledger_seal_statement_digest"
    (certificate.field "ledger_seal_projection") "seal_statement_digest"
  semantics : checkSemantics certificate (unsignedOf certificate) = .ok ()
  profile : Repeats certificate "disclosure_profile" (unsignedOf certificate)
    "disclosure_profile"
  streams : checkStreams environment (certificate.field "ledger_seal_projection") = .ok ()
  projections : checkProjections certificate (unsignedOf certificate)
    (auditDigestOf environment certificate) = .ok ()
  claimsAndAudit : checkClaimsAndAudit environment certificate (unsignedOf certificate)
    (certificate.field "audit_report") (auditDigestOf environment certificate) = .ok ()

/-- The canonical bytes of the signed manifest. -/
abbrev signedBytes (environment : Environment) (certificate : PyValue) : Bytes :=
  utf8 (canonicalText environment.platform.float (unsignedOf certificate))

/-- A document is validated exactly when it is valid under the policy, and its parts are returned.
-/
theorem validatedDocument_eq_ok_iff {certificate : PyValue} {policy : RelyingPartyPolicy}
    {validated : ValidatedDocument} :
    validatedDocument environment certificate policy = .ok validated ↔
      Validated environment certificate policy ∧
        { signatures := signaturesOf certificate, unsigned := unsignedOf certificate,
          manifestBytes := signedBytes environment certificate } = validated := by
  unfold validatedDocument
  simp only [bind_eq_ok_iff, demand_eq_ok_iff, index_eq_ok_iff,
    relyingDigest_eq_ok_iff, pure_eq_ok, exists_and_left, exists_eq_left', and_assoc,
    exists_const, Except.ok.injEq, manifestBytes_eq_ok_iff, canonicalUtf8_eq_ok_iff]
  constructor
  · rintro ⟨h₁, h₂, h₃, h₄, h₅, h₆, h₇, h₈, -, h₉, h₁₀, h₁₁, h₁₂, ⟨⟩, h₁₃, items, hitems, h₁₄,
      h₁₅, h₁₆, h₁₇, h₁₈, h₁₉, h₂₀, h₂₁, h₂₂, ⟨⟩, h₂₃, h₂₄, h₂₅, h₂₆, ⟨⟩, h₂₇, ⟨⟩, h₂₈, ⟨⟩,
      h₂₉, h₃₀⟩
    exact ⟨⟨h₁, h₂, h₃, h₄, h₅, h₆, h₇, h₈, h₉, h₁₀, ⟨h₁₁, h₁₂⟩, h₁₃, ⟨items, hitems, h₁₄⟩,
      h₁₆, ⟨h₁₅, h₁₇, h₁₈⟩, h₂₀, ⟨h₁₉, h₂₁, h₂₂⟩, h₂₃, ⟨h₂₄, h₂₅, h₂₆⟩, h₂₇, h₂₈, h₂₉⟩,
      h₃₀⟩
  · rintro ⟨h, rfl⟩
    obtain ⟨items, hitems, hcoverage⟩ := h.coverage
    exact ⟨h.isDict, h.schema, h.hasSignatures, h.hasUnsignedRef, h.hasDocument,
      h.manifestMembers, h.manifestSchema, h.canonicalizable, h.canonicalizable, h.hasAudit,
      h.auditCanonicalizable, h.manifestDigest.hasKey, h.manifestDigest.equal, (), h.policy,
      items, hitems, hcoverage, h.sessionRef.left, h.hasSubject, h.sessionRef.right,
      h.sessionRef.equal, h.sealStatement.left, h.hasSeal, h.sealStatement.right,
      h.sealStatement.equal, (), h.semantics, h.profile.left, h.profile.right, h.profile.equal,
      (), h.streams, (), h.projections, (), h.claimsAndAudit, rfl⟩

/-! ## Projections and claims -/

/-- Evidence is only ever added behind what was collected. -/
theorem collectEvidence_fold {refs : List PyValue}
    {state state' : List (PyValue × PyValue) × List PyValue}
    (hfold : refs.foldlM collectEvidence state = .ok state') :
    ∃ rest, state'.2 = state.2 ++ rest := by
  induction refs generalizing state with
  | nil =>
      cases hfold
      exact ⟨[], (List.append_nil _).symm⟩
  | cons ref refs ih =>
      rw [List.foldlM_cons, bind_eq_ok_iff] at hfold
      obtain ⟨next, hnext, hrest⟩ := hfold
      obtain ⟨rest, hrest⟩ := ih hrest
      have hstep : ∃ more, next.2 = state.2 ++ more := by
        unfold collectEvidence at hnext
        simp only [bind_eq_ok_iff] at hnext
        obtain ⟨_, -, _, -, _, -, _, -, hnext⟩ := hnext
        split_ifs at hnext
        · cases hnext
          exact ⟨[], (List.append_nil _).symm⟩
        · cases hnext
          exact ⟨[ref], rfl⟩
      obtain ⟨more, hmore⟩ := hstep
      exact ⟨more ++ rest, by rw [hrest, hmore, List.append_assoc]⟩

/-- The signed manifest repeats the sections of the envelope, and the first of its
evidence digests is the audit report's. -/
structure Projected (certificate unsigned auditDigest : PyValue) : Prop where
  sections : ∀ row ∈ projections, Repeats unsigned row.1 certificate row.2.1
  evidence : ∃ rest, States unsigned "evidence_digests"
    (.list (auditEvidence auditDigest :: rest))

/-- A certificate that passes repeats its unsigned part and its audit. -/
theorem projected_of_checkProjections {certificate unsigned auditDigest : PyValue}
    (hchecked : checkProjections certificate unsigned auditDigest = .ok ()) :
    Projected certificate unsigned auditDigest := by
  unfold checkProjections at hchecked
  simp only [bind_eq_ok_iff, index_eq_ok_iff, demand_eq_ok_iff, forM_eq_ok_iff,
    exists_and_left, exists_eq_left', and_assoc, exists_const] at hchecked
  obtain ⟨hsections, -, -, -, -, -, -, -, claims, -, tiers, -, -, -, evidence, hevidence,
    hkey, hequal⟩ := hchecked
  refine ⟨fun row hrow => ?_, ?_⟩
  · obtain ⟨hleft, hright, hsame⟩ := hsections row hrow
    exact ⟨hleft, hright, hsame⟩
  · unfold expectedEvidence at hevidence
    simp only [bind_eq_ok_iff, pure_eq_ok, Except.ok.injEq] at hevidence
    obtain ⟨refs, -, state, hfold, rfl⟩ := hevidence
    obtain ⟨rest, hrest⟩ := collectEvidence_fold hfold
    rw [hrest] at hequal
    exact ⟨rest, hkey, hequal⟩

/-- A printed claim is `G1` on tier 1 or `B1` on tier 3. -/
def IsPrinted (claim : PyValue) : Prop :=
  claim.field "claim_id" = .str "G1" ∧ pyEq (claim.field "tier") (.leaf (.int 1)) = true ∨
    claim.field "claim_id" = .str "B1" ∧ pyEq (claim.field "tier") (.leaf (.int 3)) = true

/-- The printed tier depends on the claim's identifier alone. -/
theorem tier_of_checkPrintedClaim {certificate audit auditDigest claim : PyValue}
    (hchecked : checkPrintedClaim environment certificate audit auditDigest claim = .ok ()) :
    if pyEq (claim.field "claim_id") (.str "G1") = true then
      pyEq (claim.field "tier") (.leaf (.int 1)) = true
    else pyEq (claim.field "tier") (.leaf (.int 3)) = true := by
  unfold checkPrintedClaim at hchecked
  simp only [bind_eq_ok_iff, index_eq_ok_iff, demand_eq_ok_iff, exists_and_left,
    exists_eq_left', and_assoc, exists_const] at hchecked
  obtain ⟨refs, -, auditRef, -, -, -, -, -, -, -, -, -, hchecked⟩ := hchecked
  split_ifs at hchecked ⊢
  · unfold checkPrintedG1Claim at hchecked
    simp only [bind_eq_ok_iff, index_eq_ok_iff, demand_eq_ok_iff, exists_and_left,
      exists_eq_left', and_assoc, exists_const] at hchecked
    exact hchecked.2.1
  · unfold checkPrintedB1Claim at hchecked
    simp only [bind_eq_ok_iff, get_eq_ok_iff, index_eq_ok_iff, demand_eq_ok_iff,
      exists_and_left, exists_eq_left', and_assoc, exists_const] at hchecked
    exact hchecked.2.1

/-- Every claim of an accepted certificate is one that may be printed. -/
theorem printed_of_checkClaimsAndAudit {certificate unsigned audit auditDigest : PyValue}
    (hchecked : checkClaimsAndAudit environment certificate unsigned audit auditDigest =
      .ok ()) :
    ∃ claims, indexItems certificate "claims" = .ok claims ∧
      ∀ claim ∈ claims, claim.hasKey "claim_id" = true ∧ IsPrinted claim := by
  unfold checkClaimsAndAudit checkPrintedClaims checkClaimIds at hchecked
  simp only [bind_eq_ok_iff, demand_eq_ok_iff, forM_eq_ok_iff, mapM_eq_ok_iff, pure_eq_ok,
    Except.ok.injEq, exists_and_left, exists_const, Bool.and_eq_true,
    List.all_eq_true] at hchecked
  obtain ⟨_, ⟨claims, hclaims, ⟨ids, hids, -, -, hknown⟩, hprinted, -⟩, -⟩ := hchecked
  refine ⟨claims, hclaims, fun claim hclaim => ?_⟩
  obtain ⟨claimId, hmem, hindex⟩ := exists_of_mem_left hids hclaim
  obtain ⟨hkey, rfl⟩ := index_eq_ok_iff.mp hindex
  refine ⟨hkey, ?_⟩
  have htier := tier_of_checkPrintedClaim (hprinted claim hclaim)
  have hone := hknown _ hmem
  rw [Bool.or_eq_true, pyEq_literal_right, pyEq_literal_right] at hone
  split_ifs at htier with hg1
  · exact Or.inl ⟨pyEq_literal_right.mp hg1, htier⟩
  · rw [pyEq_literal_right] at hg1
    exact Or.inr ⟨hone.resolve_right hg1, htier⟩

/-- The claims that need the client are those printed as `G1`. -/
theorem IsPrinted.needsClient_iff {claim : PyValue} (hprinted : IsPrinted claim) :
    (claim.field "claim_id" = .str "G1" ∨
      pyEq (claim.field "tier") (.leaf (.int 1)) = true) ↔
      claim.field "claim_id" = .str "G1" := by
  constructor
  · rintro (hclaimId | htier)
    · exact hclaimId
    · rcases hprinted with ⟨hclaimId, -⟩ | ⟨-, htier'⟩
      · exact hclaimId
      · exact absurd (pyEq_int_unique htier htier') (by decide)
  · exact Or.inl

/-! ## Context -/

/-- The session and the key that a printed `G1` names. -/
structure G1Bound (unsigned ring claim : PyValue) : Prop where
  hasPayload : claim.hasKey "payload" = true
  hasParams : (claim.field "payload").hasKey "params" = true
  hasSubject : unsigned.hasKey "subject" = true
  sessionRef : Repeats ((claim.field "payload").field "params") "build_session_ref"
    (unsigned.field "subject") "build_session_ref"
  keyRef : Repeats ((claim.field "payload").field "params") "client_key_ref"
    ring "client_key_ref"

/-- Only the claim `G1` is bound to the ring of the project. -/
theorem checkG1Binding_eq_ok_iff {unsigned ring claim : PyValue} :
    checkG1Binding unsigned ring claim = .ok () ↔
      claim.hasKey "claim_id" = true ∧
        (claim.field "claim_id" = .str "G1" → G1Bound unsigned ring claim) := by
  unfold checkG1Binding
  rw [index_bind_eq_ok_iff, ← pyEq_literal_right]
  apply and_congr_right
  intro _
  split_ifs with hclaimId
  · simp only [bind_eq_ok_iff, demand_eq_ok_iff, index_eq_ok_iff, exists_and_left,
      exists_eq_left', and_assoc, exists_const, hclaimId, true_implies]
    constructor
    · rintro ⟨hpayload, hparams, hleft, hsubject, hright, hequal, hkeyLeft, hkeyRight,
        hkeyEqual⟩
      exact ⟨hpayload, hparams, hsubject, ⟨hleft, hright, hequal⟩,
        ⟨hkeyLeft, hkeyRight, hkeyEqual⟩⟩
    · rintro ⟨hpayload, hparams, hsubject, ⟨hleft, hright, hequal⟩,
        ⟨hkeyLeft, hkeyRight, hkeyEqual⟩⟩
      exact ⟨hpayload, hparams, hleft, hsubject, hright, hequal, hkeyLeft, hkeyRight,
        hkeyEqual⟩
  · simp [hclaimId]

theorem deriveClientKeyRef_isStr {platform : Platform} {projectRef : Text}
    {algorithm derived : PyValue} {key : platform.PublicKey}
    (hderived : deriveClientKeyRef platform projectRef algorithm key = .ok derived) :
    ∃ s, derived = .leaf (.str s) := by
  unfold deriveClientKeyRef at hderived
  simp only [bind_eq_ok_iff, pure_eq_ok, Except.ok.injEq] at hderived
  obtain ⟨-, -, -, -, -, -, -, -, -, -, -, -, -, -, rfl⟩ := hderived
  exact ⟨_, rfl⟩

/-- The key ring names the caller's client key. -/
structure ClientRingMatches (environment : Environment) (unsigned : PyValue)
    (context : VerificationContext environment.platform)
    (clientPublicKey : environment.platform.PublicKey) : Prop where
  hasKeyRef : (ringOf unsigned).hasKey "client_key_ref" = true
  hasAlgorithm : (ringOf unsigned).hasKey "client_signature_algorithm" = true
  keyRef : pyEq (optionalText context.expectedClientKeyRef)
    ((ringOf unsigned).field "client_key_ref") = true
  algorithm : pyEq (optionalText context.expectedClientAlgorithm)
    ((ringOf unsigned).field "client_signature_algorithm") = true
  derived : deriveClientKeyRef environment.platform context.expectedProjectRef
    ((ringOf unsigned).field "client_signature_algorithm") clientPublicKey =
      .ok ((ringOf unsigned).field "client_key_ref")
  g1 : ∃ claims, indexItems unsigned "claims" = .ok claims ∧
    ∀ claim ∈ claims, checkG1Binding unsigned (ringOf unsigned) claim = .ok ()

/-- The client's ring is checked against a key that the context must hold. -/
theorem checkClientRingContext_eq_ok_iff {unsigned : PyValue}
    {context : VerificationContext environment.platform} :
    checkClientRingContext environment unsigned (ringOf unsigned) context = .ok () ↔
      ∃ clientPublicKey, context.clientPublicKey = some clientPublicKey ∧
        ClientRingMatches environment unsigned context clientPublicKey := by
  unfold checkClientRingContext
  cases hkey : context.clientPublicKey with
  | none => simp [bind_eq_ok_iff]
  | some clientPublicKey =>
      simp only [bind_eq_ok_iff, demand_eq_ok_iff, index_eq_ok_iff, Bool.and_eq_true,
        Option.some.injEq, exists_and_left, exists_eq_left', and_assoc, exists_const,
        forM_eq_ok_iff]
      constructor
      · rintro ⟨hkeyRef, halgorithm, hsameRef, hsameAlgorithm, derived, hderived, hsame,
          hclaims⟩
        obtain ⟨s, rfl⟩ := deriveClientKeyRef_isStr hderived
        exact ⟨hkeyRef, halgorithm, hsameRef, hsameAlgorithm,
          (pyEq_str_left.mp hsame) ▸ hderived, hclaims⟩
      · intro h
        obtain ⟨s, hs⟩ := deriveClientKeyRef_isStr h.derived
        have hsame : pyEq ((ringOf unsigned).field "client_key_ref")
            ((ringOf unsigned).field "client_key_ref") = true := by
          rw [hs]
          exact pyEq_str_left.mpr rfl
        exact ⟨h.hasKeyRef, h.hasAlgorithm, h.keyRef, h.algorithm, _, h.derived, hsame, h.g1⟩

/-- `_check_context` accepts. -/
structure ContextMatches (environment : Environment) (unsigned signatures : PyValue)
    (context : VerificationContext environment.platform) : Prop where
  isProjectRef : isProjectRef context.expectedProjectRef = true
  hasRing : unsigned.hasKey "key_ring_identifiers" = true
  hasIssuer : signatures.hasKey "issuer_signature" = true
  hasFreshness : unsigned.hasKey "freshness" = true
  nonce : States (unsigned.field "freshness") "nonce" (.leaf (.str context.expectedNonce))
  hasSubject : unsigned.hasKey "subject" = true
  sessionRef : States (unsigned.field "subject") "build_session_ref"
    (.leaf (.str context.expectedBuildSessionRef))
  projectRef : States (unsigned.field "subject") "project_ref"
    (.leaf (.str context.expectedProjectRef))
  issuerKeyRef : States (ringOf unsigned) "issuer_key_ref"
    (.leaf (.str context.expectedIssuerKeyRef))
  issuerAlgorithm : States (ringOf unsigned) "issuer_signature_algorithm"
    (.leaf (.str context.expectedIssuerAlgorithm))
  trustRingRef : States (ringOf unsigned) "trust_ring_ref"
    (.leaf (.str context.expectedTrustRingRef))
  signatureKeyRef : Repeats (signatures.field "issuer_signature") "issuer_key_ref"
    (ringOf unsigned) "issuer_key_ref"
  signatureAlgorithm : Repeats (signatures.field "issuer_signature") "algorithm"
    (ringOf unsigned) "issuer_signature_algorithm"
  signatureTrustRingRef : Repeats (signatures.field "issuer_signature") "trust_ring_ref"
    (ringOf unsigned) "trust_ring_ref"
  bothOrNeither : (ringOf unsigned).hasKey "client_key_ref" =
    (ringOf unsigned).hasKey "client_signature_algorithm"
  client : if (ringOf unsigned).hasKey "client_key_ref" = true then
      checkClientRingContext environment unsigned (ringOf unsigned) context = .ok ()
    else context.expectedClientKeyRef = none ∧ context.expectedClientAlgorithm = none

/-- The check of the context passes exactly on the certificate the context is about. -/
theorem checkContext_eq_ok_iff {unsigned signatures : PyValue}
    {context : VerificationContext environment.platform} {u : Unit} :
    checkContext environment unsigned signatures context = .ok u ↔
      ContextMatches environment unsigned signatures context := by
  have hclient : ((if (ringOf unsigned).hasKey "client_key_ref" = true then
        checkClientRingContext environment unsigned (ringOf unsigned) context
      else demand (context.expectedClientKeyRef.isNone && context.expectedClientAlgorithm.isNone)
        "CLIENT_KEY_CONTEXT") = .ok u) ↔
      if (ringOf unsigned).hasKey "client_key_ref" = true then
        checkClientRingContext environment unsigned (ringOf unsigned) context = .ok ()
      else context.expectedClientKeyRef = none ∧ context.expectedClientAlgorithm = none := by
    split_ifs
    · exact Iff.rfl
    · simp
  unfold checkContext
  simp only [bind_eq_ok_iff, demand_eq_ok_iff, index_eq_ok_iff, exists_and_left,
    exists_eq_left', and_assoc, exists_const, hclient, pyEq_str_left, beq_iff_eq]
  constructor
  · rintro ⟨hproject, hring, hissuer, hfreshness, hnonceKey, hnonce, hsubject, hsessionKey,
      hsession, hprojectKey, hprojectRef, hkeyRefKey, hkeyRef, halgorithmKey, halgorithm,
      htrustKey, htrust, hsignatureKey, hsignature, hsignatureAlgorithmKey,
      hsignatureAlgorithm, hsignatureTrustKey, hsignatureTrust, hboth, hrest⟩
    exact ⟨hproject, hring, hissuer, hfreshness, ⟨hnonceKey, pyEq_str_right.mpr hnonce⟩,
      hsubject, ⟨hsessionKey, pyEq_str_right.mpr hsession⟩,
      ⟨hprojectKey, pyEq_str_right.mpr hprojectRef⟩,
      ⟨hkeyRefKey, pyEq_str_right.mpr hkeyRef⟩,
      ⟨halgorithmKey, pyEq_str_right.mpr halgorithm⟩,
      ⟨htrustKey, pyEq_str_right.mpr htrust⟩, ⟨hsignatureKey, hkeyRefKey, hsignature⟩,
      ⟨hsignatureAlgorithmKey, halgorithmKey, hsignatureAlgorithm⟩,
      ⟨hsignatureTrustKey, htrustKey, hsignatureTrust⟩, hboth, hrest⟩
  · intro h
    exact ⟨h.isProjectRef, h.hasRing, h.hasIssuer, h.hasFreshness, h.nonce.hasKey,
      h.nonce.field_eq_str, h.hasSubject, h.sessionRef.hasKey, h.sessionRef.field_eq_str,
      h.projectRef.hasKey, h.projectRef.field_eq_str, h.issuerKeyRef.hasKey,
      h.issuerKeyRef.field_eq_str, h.issuerAlgorithm.hasKey, h.issuerAlgorithm.field_eq_str,
      h.trustRingRef.hasKey, h.trustRingRef.field_eq_str, h.signatureKeyRef.left,
      h.signatureKeyRef.equal, h.signatureAlgorithm.left, h.signatureAlgorithm.equal,
      h.signatureTrustRingRef.left, h.signatureTrustRingRef.equal, h.bothOrNeither, h.client⟩

/-! ## Co-attestation -/

/-- The canonical bytes of the certificate without the client's block. -/
def projectionBytes (platform : Platform) (document : PyValue) : Bytes :=
  utf8 (canonicalText platform.float (clientProjection document))

/-- What the client signs. -/
def signingBytes (platform : Platform) (document : PyValue) : Bytes :=
  utf8 (text clientDomain) ++ lengthPrefixedAll [projectionBytes platform document]

def signedManifestDigest (platform : Platform) (document : PyValue) : PyValue :=
  digestValue platform clientCertificateDomain (clientProjection document)

/-- The document has a projection for the client to sign. -/
structure Projects (platform : Platform) (document : PyValue) : Prop where
  hasSignatures : document.hasKey "signatures" = true
  isDict : (signaturesOf document).isDict = true
  canonicalizable : Canonicalizable (clientProjection document)
  framable : Framable (projectionBytes platform document)

/-- The client signs the certificate without the client's own block. -/
theorem prepareClientProjection_eq_ok_iff {platform : Platform} {document : PyValue}
    {prepared : ClientCertificateProjection} :
    prepareClientProjection platform document = .ok prepared ↔
      Projects platform document ∧
        { projection := clientProjection document,
          projectionBytes := projectionBytes platform document,
          signingBytes := signingBytes platform document,
          signedManifestDigest := signedManifestDigest platform document } = prepared := by
  unfold prepareClientProjection
  simp only [bind_eq_ok_iff, demand_eq_ok_iff, index_eq_ok_iff, orRefuse_eq_ok_iff,
    canonicalUtf8_eq_ok_iff, roleDigest_eq_ok_iff, clientMaterial_eq_ok_iff, pure_eq_ok,
    exists_and_left, exists_eq_left', and_assoc, exists_const, Except.ok.injEq]
  constructor
  · rintro ⟨hsignatures, hdict, hcanonical, -, hframable, heq⟩
    exact ⟨⟨hsignatures, hdict, hcanonical, hframable⟩, heq⟩
  · rintro ⟨h, heq⟩
    exact ⟨h.hasSignatures, h.isDict, h.canonicalizable, h.canonicalizable, h.framable, heq⟩

/-- The client's block repeats the key ring and the nonce. -/
structure CoBound (environment : Environment) (co unsigned : PyValue)
    (context : VerificationContext environment.platform) : Prop where
  hasRing : unsigned.hasKey "key_ring_identifiers" = true
  keyRef : Repeats co "client_key_ref" (ringOf unsigned) "client_key_ref"
  algorithm : Repeats co "algorithm" (ringOf unsigned) "client_signature_algorithm"
  pinnedAlgorithm : pyEq (co.field "algorithm")
    (optionalText context.expectedClientAlgorithm) = true
  hasFreshness : unsigned.hasKey "freshness" = true
  nonce : Repeats co "nonce" (unsigned.field "freshness") "nonce"
  pinnedNonce : co.field "nonce" = .leaf (.str context.expectedNonce)

/-- The co-attestation is bound to the certificate it stands in. -/
theorem checkCoBindings_eq_ok_iff {co unsigned : PyValue}
    {context : VerificationContext environment.platform} {u : Unit} :
    checkCoBindings environment co unsigned context = .ok u ↔
      CoBound environment co unsigned context := by
  unfold checkCoBindings
  simp only [bind_eq_ok_iff, demand_eq_ok_iff, index_eq_ok_iff, Bool.and_eq_true,
    exists_and_left, exists_eq_left', and_assoc, exists_const, pyEq_str_right]
  constructor
  · rintro ⟨hkeyRef, hring, hringKeyRef, hsameRef, halgorithm, hringAlgorithm,
      hsameAlgorithm, hpinnedAlgorithm, hnonce, hfreshness, hsignedNonce, hsameNonce,
      hpinnedNonce⟩
    exact ⟨hring, ⟨hkeyRef, hringKeyRef, hsameRef⟩,
      ⟨halgorithm, hringAlgorithm, hsameAlgorithm⟩, hpinnedAlgorithm, hfreshness,
      ⟨hnonce, hsignedNonce, hsameNonce⟩, hpinnedNonce⟩
  · intro h
    exact ⟨h.keyRef.left, h.hasRing, h.keyRef.right, h.keyRef.equal, h.algorithm.left,
      h.algorithm.right, h.algorithm.equal, h.pinnedAlgorithm, h.nonce.left, h.hasFreshness,
      h.nonce.right, h.nonce.equal, h.pinnedNonce⟩

/-- The client's block states the projection's digest and a signature over it. -/
structure CoSigned (environment : Environment) (document co : PyValue)
    (clientPublicKey : environment.platform.PublicKey) : Prop where
  projects : Projects environment.platform document
  digest : States co "signed_manifest_digest"
    (signedManifestDigest environment.platform document)
  hasSignature : co.hasKey "signature" = true
  hasAlgorithm : co.hasKey "algorithm" = true
  verified : verifySignature environment.platform clientPublicKey (co.field "algorithm")
    (signingBytes environment.platform document) (co.field "signature") = .ok ()

/-- A verified signature decodes, and under ECDSA it has the lower scalar. -/
theorem lowScalar_of_verifySignature {platform : Platform} {key : platform.PublicKey}
    {algorithm encoded : PyValue} {material : Bytes}
    (hverified : verifySignature platform key algorithm material encoded = .ok ()) :
    ∃ raw, decodeSignature encoded = .ok raw ∧
      (!(pyEq algorithm ecdsaName &&
        decide (fromBigEndian (raw.drop 32) > ecdsaHalfOrder))) = true := by
  have hnamed := algorithm_of_verifySignature hverified
  unfold verifySignature at hverified
  obtain ⟨known, -, hrest⟩ := bind_eq_ok_iff.mp hverified
  obtain ⟨_, -, hrest⟩ := bind_eq_ok_iff.mp hrest
  obtain ⟨raw, hraw, hrest⟩ := bind_eq_ok_iff.mp hrest
  refine ⟨raw, hraw, ?_⟩
  rcases hnamed with rfl | rfl
  · have hname : pyEq ed25519Name ecdsaName = false := by decide
    simp [hname]
  · have hname : pyEq ecdsaName ed25519Name = false := by decide
    rw [hname, if_neg Bool.false_ne_true] at hrest
    simp only [bind_eq_ok_iff, demand_eq_ok_iff, decide_eq_true_eq, exists_and_left,
      exists_const] at hrest
    have hlow := hrest.2.2.1
    simp [Nat.not_lt.mpr hlow]

/-- The client's key has signed the projection of this certificate. -/
theorem checkCoSignature_eq_ok_iff {document co : PyValue}
    {clientPublicKey : environment.platform.PublicKey} {u : Unit} :
    checkCoSignature environment document co clientPublicKey = .ok u ↔
      CoSigned environment document co clientPublicKey := by
  unfold checkCoSignature
  simp only [bind_eq_ok_iff, demand_eq_ok_iff, index_eq_ok_iff,
    prepareClientProjection_eq_ok_iff, exists_and_left, exists_eq_left', and_assoc,
    exists_const]
  constructor
  · rintro ⟨hprojects, hdigestKey, hdigest, hsignature, raw, -, halgorithm, -, hverified⟩
    exact ⟨hprojects, ⟨hdigestKey, hdigest⟩, hsignature, halgorithm, hverified⟩
  · intro h
    obtain ⟨raw, hraw, hlow⟩ := lowScalar_of_verifySignature h.verified
    exact ⟨h.projects, h.digest.hasKey, h.digest.equal, h.hasSignature, raw, hraw,
      h.hasAlgorithm, hlow, h.verified⟩

/-- The claims that only a client can stand behind. -/
def NeedsClient (claim : PyValue) : Prop :=
  claim.field "claim_id" = .str "G1" ∨ pyEq (claim.field "tier") (.leaf (.int 1)) = true

theorem requiresCoAttestation_eq_ok {claim : PyValue} {requires : Bool}
    (hrequires : requiresCoAttestation claim = .ok requires) :
    requires = true ↔ NeedsClient claim := by
  unfold requiresCoAttestation at hrequires
  rw [index_bind_eq_ok_iff] at hrequires
  obtain ⟨-, hrequires⟩ := hrequires
  rw [NeedsClient, ← pyEq_literal_right]
  split_ifs at hrequires with hclaimId
  · cases hrequires
    simp [hclaimId]
  · rw [index_bind_eq_ok_iff, pure_eq_ok, Except.ok.injEq] at hrequires
    simp [hclaimId, hrequires.2]

/-- One claim that needs the client is enough. -/
theorem anyRequires_eq_ok {claims : List PyValue} {requires : Bool}
    (hrequires : anyRequires claims = .ok requires) :
    requires = true ↔ ∃ claim ∈ claims, NeedsClient claim := by
  induction claims with
  | nil =>
      cases hrequires
      simp
  | cons claim claims ih =>
      rw [anyRequires, bind_eq_ok_iff] at hrequires
      obtain ⟨first, hfirst, hrest⟩ := hrequires
      rw [List.exists_mem_cons_iff, ← requiresCoAttestation_eq_ok hfirst]
      cases first with
      | true =>
          cases hrest
          simp
      | false =>
          rw [if_neg Bool.false_ne_true] at hrest
          rw [ih hrest]
          simp

/-- `_verify_co_attestation` accepts. -/
structure CoAttestationMatches (environment : Environment) (document : PyValue)
    (context : VerificationContext environment.platform) : Prop where
  required : ∃ claims, indexItems document "claims" = .ok claims ∧
    anyRequires claims = .ok ((signaturesOf document).hasKey "co_attestation")
  attested : (signaturesOf document).hasKey "co_attestation" = true →
    ∃ clientPublicKey, context.clientPublicKey = some clientPublicKey ∧
      CoBound environment (coAttestationOf document) (unsignedOf document) context ∧
      CoSigned environment document (coAttestationOf document) clientPublicKey
  unattested : (signaturesOf document).hasKey "co_attestation" = false →
    checkNoClientKeyContext environment (unsignedOf document) context = .ok ()

/-- A co-attestation passes exactly when its bindings and its signature hold. -/
theorem verifyCoAttestation_eq_ok_iff {document : PyValue}
    {context : VerificationContext environment.platform} {u : Unit} :
    verifyCoAttestation environment document (signaturesOf document) (unsignedOf document)
        context = .ok u ↔
      CoAttestationMatches environment document context := by
  unfold verifyCoAttestation
  simp only [bind_eq_ok_iff, demand_eq_ok_iff, beq_iff_eq, exists_and_left, exists_const]
  cases hco : (signaturesOf document).hasKey "co_attestation" with
  | false =>
      rw [if_neg Bool.false_ne_true]
      constructor
      · rintro ⟨claims, hclaims, requires, hrequires, rfl, hnone⟩
        exact ⟨⟨claims, hclaims, hco.symm ▸ hrequires⟩, by simp [hco], fun _ => hnone⟩
      · intro h
        obtain ⟨claims, hclaims, hrequires⟩ := h.required
        exact ⟨claims, hclaims, false, hco ▸ hrequires, rfl, h.unattested hco⟩
  | true =>
      rw [if_pos rfl]
      cases hkey : context.clientPublicKey with
      | none =>
          simp only [bind_eq_ok_iff, refuse_ne_ok, and_false, exists_false]
          constructor
          · exact False.elim
          · intro h
            obtain ⟨clientPublicKey, hsome, -⟩ := h.attested hco
            rw [hkey] at hsome
            cases hsome
      | some clientPublicKey =>
          simp only [index_eq_ok_iff, bind_eq_ok_iff, checkCoBindings_eq_ok_iff,
            checkCoSignature_eq_ok_iff]
          constructor
          · rintro ⟨claims, hclaims, requires, hrequires, rfl, co, ⟨-, rfl⟩, ⟨⟩, hbound,
              hsigned⟩
            exact ⟨⟨claims, hclaims, hco.symm ▸ hrequires⟩,
              fun _ => ⟨clientPublicKey, hkey, hbound, hsigned⟩, by simp [hco]⟩
          · intro h
            obtain ⟨claims, hclaims, hrequires⟩ := h.required
            obtain ⟨key, hsome, hbound, hsigned⟩ := h.attested hco
            rw [hkey, Option.some.injEq] at hsome
            subst hsome
            exact ⟨claims, hclaims, true, hco ▸ hrequires, rfl, _, ⟨hco, rfl⟩, (), hbound,
              hsigned⟩

/-! ## The verification -/

/-- What the issuer signs. -/
def issuerBytes (environment : Environment) (certificate : PyValue) : Bytes :=
  utf8 (text issuerDomain) ++ lengthPrefixedAll [signedBytes environment certificate]

abbrev issuerSignatureOf (certificate : PyValue) : PyValue :=
  (signaturesOf certificate).field "issuer_signature"

/-- `_verify` accepts. -/
structure Accepted (environment : Environment) (certificate : PyValue)
    (issuerPublicKey : environment.platform.PublicKey)
    (context : VerificationContext environment.platform) (policy : RelyingPartyPolicy) :
    Prop where
  validated : Validated environment certificate policy
  bound : ContextMatches environment (unsignedOf certificate) (signaturesOf certificate)
    context
  signedPayload : States (issuerSignatureOf certificate) "signed_payload"
    (.list [PyValue.str "unsigned_manifest"])
  framable : Framable (signedBytes environment certificate)
  hasSignature : (issuerSignatureOf certificate).hasKey "signature" = true
  verified : verifySignature environment.platform issuerPublicKey
    ((issuerSignatureOf certificate).field "algorithm") (issuerBytes environment certificate)
    ((issuerSignatureOf certificate).field "signature") = .ok ()
  coAttestation : CoAttestationMatches environment certificate context

/-- The verifier accepts exactly the certificates that satisfy every one of its checks. -/
theorem verify_eq_ok_iff {certificate : PyValue}
    {issuerPublicKey : environment.platform.PublicKey}
    {context : VerificationContext environment.platform} {policy : RelyingPartyPolicy} :
    verify environment certificate issuerPublicKey context policy = .ok () ↔
      Accepted environment certificate issuerPublicKey context policy := by
  unfold verify
  simp only [bind_eq_ok_iff, validatedDocument_eq_ok_iff, demand_eq_ok_iff, index_eq_ok_iff,
    issuerMaterial_eq_ok_iff, exists_and_left, exists_eq_left', and_assoc, exists_const,
    checkContext_eq_ok_iff, verifyCoAttestation_eq_ok_iff]
  constructor
  · rintro ⟨hvalidated, hcontext, -, hpayloadKey, hpayload, -, hframable, hsignature, ⟨⟩,
      hverified, hco⟩
    exact ⟨hvalidated, hcontext, ⟨hpayloadKey, hpayload⟩, hframable, hsignature, hverified,
      hco⟩
  · intro h
    exact ⟨h.validated, h.bound, h.bound.hasIssuer, h.signedPayload.hasKey,
      h.signedPayload.equal, h.bound.signatureAlgorithm.left, h.framable, h.hasSignature,
      (), h.verified, h.coAttestation⟩

end Acceptance

end TraigentSchema.AgentCertificate
