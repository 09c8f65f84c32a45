import TraigentSchema.AgentQuality.Issuance

/-!
# Tamper evidence of agent-quality bundles

Two accepted bundles of one manifest agree on every other part, up to the signature
string of the manifest's own signature: the manifest, the declared plan and the
schema's constants determine them, as long as no two of the digested texts collide.
-/

namespace TraigentSchema.AgentQuality

open TraigentSchema.Unicode
open TraigentSchema.Fp2
open TraigentSchema.Hashing
open TraigentSchema.Certification
open TraigentSchema.Python

/-! ## The shape the schema fixes -/

/-- The members of the bundle, of the plan's envelope and of the signature block, and the
constants among them. -/
structure BundleShape (bundle : PyValue) : Prop where
  members : bundle.hasMembers
    ["schema_version", "unsigned_manifest", "signature", "declared_plan_envelope",
      "assertion", "claim_support_rows", "non_claims", "evaluation_splits",
      "measured_claims", "non_certified_selection_estimates", "split_derivation"] = true
  envelopeMembers : (bundle.field "declared_plan_envelope").hasMembers
    ["schema_version", "declared_plan", "signature"] = true
  envelopeVersion : (bundle.field "declared_plan_envelope").field "schema_version" =
    .str "traigent.agent_quality.declared_plan_envelope.v1"
  signatureMembers : (bundle.field "signature").hasMembers
    ["schema_version", "algorithm", "issuer_key_ref", "trust_ring_ref", "signed_payload",
      "unsigned_manifest_digest", "signature"] = true
  signatureVersion : (bundle.field "signature").field "schema_version" =
    .str "traigent.agent_quality.signature.v1"
  signedPayload : (bundle.field "signature").field "signed_payload" =
    .str "unsigned_agent_quality_manifest"

/-! ## One part -/

section Parts

variable {platform : Platform} {role field : String} {part part' manifest manifest' : PyValue}

/-- Every part that the manifest binds. -/
def allBoundParts : List BoundPart :=
  declaredPlanPart :: assertionPart :: boundParts

/-- The texts that are hashed for the digests of a bundle's manifest. -/
def hashedTexts (platform : Platform) (bundle : PyValue) : List Bytes :=
  allBoundParts.map fun row => rolePreimage platform (domain row.role) (row.part bundle)

/-- Manifests that agree state one digest of a part; the parts agree, or collide. -/
theorem agree_of_stated (hmanifest : HasCanonicalText manifest)
    (hmanifest' : HasCanonicalText manifest') (hagree : Agree platform.float manifest manifest')
    (hstated : manifest.field field = roleDigestText platform role part)
    (hstated' : manifest'.field field = roleDigestText platform role part') :
    Agree platform.float part part' ∨
      Collision platform.sha256 [rolePreimage platform (domain role) part]
        [rolePreimage platform (domain role) part'] := by
  have hfields : Agree platform.float (manifest.field field) (manifest'.field field) :=
    Agree.field hmanifest hmanifest' hagree
  rw [hstated, roleDigestText] at hfields
  have heq := hfields.eq_str (encodable_sha256Text _ _) hmanifest'.field
  rw [hstated', roleDigestText, Tree.leaf.injEq, Atom.str.injEq] at heq
  exact agree_or_collision platform heq.symm

/-- Documents that carry their own digest agree when they agree without it. -/
theorem agree_of_selfDigest (hpart : HasCanonicalText part) (hpart' : HasCanonicalText part')
    (hdict : part.isDict = true) (hdict' : part'.isDict = true)
    (hown : part.field field = roleDigestText platform role (part.erase field))
    (hown' : part'.field field = roleDigestText platform role (part'.erase field))
    (hrest : Agree platform.float (part.erase field) (part'.erase field)) :
    Agree platform.float part part' := by
  have htext : rolePreimage platform (domain role) (part.erase field) =
      rolePreimage platform (domain role) (part'.erase field) :=
    congrArg (fun canonical => preimage (domain role) (utf8 canonical)) hrest
  rw [roleDigestText, htext] at hown
  apply Agree.of_erase hpart hpart' hdict hdict' hrest
  rw [PyValue.member_of_field_eq_str hown, PyValue.member_of_field_eq_str hown']

end Parts

/-! ## Whole bundles -/

section Bundles

variable {environment : Environment} {context : Context}
  {bundle bundle' processRecord : PyValue}

/-- Two accepted bundles whose manifests agree, and no collision among their texts. -/
structure SameManifest (environment : Environment) (context : Context)
    (bundle bundle' processRecord : PyValue) : Prop where
  accepted : Accepted environment context bundle processRecord
  accepted' : Accepted environment context bundle' processRecord
  wellFormed : bundle.WellFormed
  wellFormed' : bundle'.WellFormed
  shape : BundleShape bundle
  shape' : BundleShape bundle'
  agree : Agree environment.platform.float (manifestOf bundle) (manifestOf bundle')
  noCollision : ¬ Collision environment.platform.sha256
    (hashedTexts environment.platform bundle) (hashedTexts environment.platform bundle')

namespace SameManifest

variable (hsame : SameManifest environment context bundle bundle' processRecord)

include hsame in
theorem document : PlainDocument bundle :=
  ⟨hsame.accepted.structural.plain, hsame.wellFormed⟩

include hsame in
theorem symm : SameManifest environment context bundle' bundle processRecord where
  accepted := hsame.accepted'
  accepted' := hsame.accepted
  wellFormed := hsame.wellFormed'
  wellFormed' := hsame.wellFormed
  shape := hsame.shape'
  shape' := hsame.shape
  agree := hsame.agree.symm
  noCollision := fun ⟨x, hx, y, hy, hne, heq⟩ =>
    hsame.noCollision ⟨y, hy, x, hx, hne.symm, heq.symm⟩

include hsame in
theorem document_manifest : HasCanonicalText (manifestOf bundle) :=
  (hsame.document.field "unsigned_manifest").hasCanonicalText

include hsame in
theorem stated {row : BoundPart} (hrow : row ∈ allBoundParts) :
    row.Stated environment bundle := by
  rcases List.mem_cons.mp hrow with rfl | hrow
  · exact hsame.accepted.planSigned.manifestDigest
  · rcases List.mem_cons.mp hrow with rfl | hrow
    · exact hsame.accepted.composed.manifestDigest
    · exact hsame.accepted.manifestBinds.parts row hrow

include hsame in
/-- Every part that the manifest binds agrees. -/
theorem agree_part {r : BoundPart} (hrow : r ∈ allBoundParts) :
    Agree environment.platform.float (r.part bundle) (r.part bundle') := by
  rcases agree_of_stated hsame.document_manifest hsame.symm.document_manifest hsame.agree
    (hsame.stated hrow) (hsame.symm.stated hrow) with hagree | hcollision
  · exact hagree
  · apply absurd _ hsame.noCollision
    apply hcollision.mono
    · exact List.cons_subset.mpr ⟨List.mem_map.mpr ⟨r, hrow, rfl⟩, List.nil_subset _⟩
    · exact List.cons_subset.mpr ⟨List.mem_map.mpr ⟨r, hrow, rfl⟩, List.nil_subset _⟩

include hsame in
theorem agree_declaredPlan :
    Agree environment.platform.float (planOf bundle) (planOf bundle') := by
  have hplan := (hsame.document.field "declared_plan_envelope").field "declared_plan"
  have hplan' := (hsame.symm.document.field "declared_plan_envelope").field "declared_plan"
  apply agree_of_selfDigest hplan.hasCanonicalText hplan'.hasCanonicalText
    hsame.accepted.planSigned.planDict hsame.accepted'.planSigned.planDict
    hsame.accepted.planSigned.ownDigest hsame.accepted'.planSigned.ownDigest
  exact hsame.agree_part (r := declaredPlanPart) (by simp [allBoundParts])

include hsame in
theorem agree_assertion :
    Agree environment.platform.float (bundle.field "assertion") (bundle'.field "assertion") := by
  have hassertion := (hsame.document.field "assertion").hasCanonicalText
  have hassertion' := (hsame.symm.document.field "assertion").hasCanonicalText
  apply agree_of_selfDigest hassertion hassertion'
    hsame.accepted.composed.assertionDict hsame.accepted'.composed.assertionDict
    hsame.accepted.composed.ownDigest hsame.accepted'.composed.ownDigest
  exact hsame.agree_part (r := assertionPart) (by simp [allBoundParts])

include hsame in
theorem agree_splitDerivation :
    Agree environment.platform.float (bundle.field "split_derivation")
      (bundle'.field "split_derivation") := by
  have hderivation := (hsame.document.field "split_derivation").hasCanonicalText
  have hderivation' := (hsame.symm.document.field "split_derivation").hasCanonicalText
  apply agree_of_selfDigest hderivation hderivation'
    hsame.accepted.splits.derivationDict hsame.accepted'.splits.derivationDict
    hsame.accepted.splits.ownDigest hsame.accepted'.splits.ownDigest
  exact hsame.agree_part (r := splitDerivationPart) (by simp [allBoundParts, boundParts])

include hsame in
theorem agree_envelope :
    Agree environment.platform.float (bundle.field "declared_plan_envelope")
      (bundle'.field "declared_plan_envelope") := by
  apply Agree.of_fields (hsame.document.field _).hasCanonicalText
    (hsame.symm.document.field _).hasCanonicalText hsame.shape.envelopeMembers
    hsame.shape'.envelopeMembers
  simp only [List.forall_mem_cons, List.not_mem_nil, false_imp_iff, implies_true, and_true]
  refine ⟨?_, hsame.agree_declaredPlan, ?_⟩
  · rw [hsame.shape.envelopeVersion, hsame.shape'.envelopeVersion]
    exact Agree.refl _
  · exact hsame.agree_part (r := planSignaturePart) (by simp [allBoundParts, boundParts])

include hsame in
/-- What the signature block repeats from the manifest agrees. -/
theorem agree_signatureRef {name : String}
    (hcopy : pyEq ((bundle.field "signature").field name) ((manifestOf bundle).field name) =
      true)
    (hcopy' : pyEq ((bundle'.field "signature").field name)
      ((manifestOf bundle').field name) = true) :
    Agree environment.platform.float ((bundle.field "signature").field name)
      ((bundle'.field "signature").field name) := by
  have hleft := PlainDocument.agree environment.platform.float
    ((hsame.document.field "signature").field name)
    ((hsame.document.field "unsigned_manifest").field name) hcopy
  have hright := PlainDocument.agree environment.platform.float
    ((hsame.symm.document.field "signature").field name)
    ((hsame.symm.document.field "unsigned_manifest").field name) hcopy'
  have hmiddle : Agree environment.platform.float ((manifestOf bundle).field name)
      ((manifestOf bundle').field name) :=
    Agree.field hsame.document_manifest hsame.symm.document_manifest hsame.agree
  exact (hleft.trans hmiddle).trans hright.symm

include hsame in
/-- Both signatures name the algorithm of the one issuer. -/
theorem signatureAlgorithm_eq :
    (bundle.field "signature").field "algorithm" =
      (bundle'.field "signature").field "algorithm" := by
  obtain ⟨issuer, key, hissuer, -, -, -, halgorithm, hverified⟩ :=
    hsame.accepted.manifestBinds.issuer
  obtain ⟨issuer', key', hissuer', -, -, -, halgorithm', hverified'⟩ :=
    hsame.accepted'.manifestBinds.issuer
  obtain rfl : issuer = issuer' := Except.ok.inj (hissuer.symm.trans hissuer')
  have hliteral : ∀ {v : PyValue} {name : String}, v = .str name →
      pyEq v (issuer.field "algorithm") = true → v = issuer.field "algorithm" := by
    rintro v name rfl heq
    exact (pyEq_str_left.mp heq).symm
  rcases algorithm_of_verifySignature hverified with hname | hname <;>
    rcases algorithm_of_verifySignature hverified' with hname' | hname' <;>
    rw [hliteral hname halgorithm, hliteral hname' halgorithm']

include hsame in
theorem agree_signature :
    Agree environment.platform.float ((bundle.field "signature").erase "signature")
      ((bundle'.field "signature").erase "signature") := by
  apply Agree.of_fields (hsame.document.field _).hasCanonicalText.erase
    (hsame.symm.document.field _).hasCanonicalText.erase
    (PyValue.hasMembers_erase _ hsame.shape.signatureMembers)
    (PyValue.hasMembers_erase _ hsame.shape'.signatureMembers)
  intro name hname
  obtain ⟨hname, hne⟩ := List.mem_filter.mp hname
  rw [PyValue.field_erase_of_ne (of_decide_eq_true hne),
    PyValue.field_erase_of_ne (of_decide_eq_true hne)]
  simp only [List.mem_cons, List.not_mem_nil, or_false] at hname
  rcases hname with rfl | rfl | rfl | rfl | rfl | rfl | rfl
  · rw [hsame.shape.signatureVersion, hsame.shape'.signatureVersion]
    exact Agree.refl _
  · rw [hsame.signatureAlgorithm_eq]
    exact Agree.refl _
  · exact hsame.agree_signatureRef hsame.accepted.manifestBinds.keyRef
      hsame.accepted'.manifestBinds.keyRef
  · exact hsame.agree_signatureRef hsame.accepted.manifestBinds.ringRef
      hsame.accepted'.manifestBinds.ringRef
  · rw [hsame.shape.signedPayload, hsame.shape'.signedPayload]
    exact Agree.refl _
  · rw [hsame.accepted.manifestBinds.signedManifest,
      hsame.accepted'.manifestBinds.signedManifest, roleDigestText, roleDigestText,
      rolePreimage, rolePreimage, hsame.agree]
    exact Agree.refl _
  · exact absurd rfl (of_decide_eq_true hne)

include hsame in
/-- Every member but the signature block agrees. -/
theorem agree_member {name : String} (hne : name ≠ "signature") :
    Agree environment.platform.float (bundle.field name) (bundle'.field name) := by
  by_cases hname : name ∈ ["schema_version", "unsigned_manifest", "signature",
      "declared_plan_envelope", "assertion", "claim_support_rows", "non_claims",
      "evaluation_splits", "measured_claims", "non_certified_selection_estimates",
      "split_derivation"]
  · simp only [List.mem_cons, List.not_mem_nil, or_false] at hname
    rcases hname with rfl | rfl | rfl | rfl | rfl | rfl | rfl | rfl | rfl | rfl | rfl
    · rw [hsame.accepted.structural.schemaVersion, hsame.accepted'.structural.schemaVersion]
      exact Agree.refl _
    · exact hsame.agree
    · exact absurd rfl hne
    · exact hsame.agree_envelope
    · exact hsame.agree_assertion
    · exact hsame.agree_part (r := claimSupportRowsPart) (by simp [allBoundParts, boundParts])
    · exact hsame.agree_part (r := nonClaimsPart) (by simp [allBoundParts, boundParts])
    · exact hsame.agree_part (r := evaluationSplitsPart) (by simp [allBoundParts, boundParts])
    · exact hsame.agree_part (r := measuredClaimsPart) (by simp [allBoundParts, boundParts])
    · exact hsame.agree_part (r := selectionEstimatesPart) (by simp [allBoundParts, boundParts])
    · exact hsame.agree_splitDerivation
  · rw [PyValue.field, PyValue.field,
      PyValue.member_eq_none_of_hasMembers hsame.shape.members hname,
      PyValue.member_eq_none_of_hasMembers hsame.shape'.members hname]
    exact Agree.refl _

end SameManifest

/-- Two accepted bundles whose manifests agree have the same canonical members, but for
the string of the manifest's signature, or two different texts of one digest among those
hashed for them. -/
theorem manifest_determines_bundle {result result' : VerificationResult}
    (hschema : ∀ v, environment.schema v = .valid → BundleShape v)
    (hwellFormed : bundle.WellFormed) (hwellFormed' : bundle'.WellFormed)
    (hverify : verifyAgentQualityCertificate environment context bundle processRecord =
      .ok result)
    (hverify' : verifyAgentQualityCertificate environment context bundle' processRecord =
      .ok result')
    (hagree : Agree environment.platform.float (manifestOf bundle) (manifestOf bundle')) :
    ((∀ name, name ≠ "signature" →
        Agree environment.platform.float (bundle.field name) (bundle'.field name)) ∧
      Agree environment.platform.float ((bundle.field "signature").erase "signature")
        ((bundle'.field "signature").erase "signature")) ∨
      Collision environment.platform.sha256 (hashedTexts environment.platform bundle)
        (hashedTexts environment.platform bundle') := by
  by_cases hcollision : Collision environment.platform.sha256
      (hashedTexts environment.platform bundle) (hashedTexts environment.platform bundle')
  · exact Or.inr hcollision
  · have haccepted := accepted_of_verify hverify
    have haccepted' := accepted_of_verify hverify'
    have hsame : SameManifest environment context bundle bundle' processRecord := {
      accepted := haccepted
      accepted' := haccepted'
      wellFormed := hwellFormed
      wellFormed' := hwellFormed'
      shape := hschema bundle haccepted.structural.schema
      shape' := hschema bundle' haccepted'.structural.schema
      agree := hagree
      noCollision := hcollision }
    exact Or.inl ⟨fun name hne => hsame.agree_member hne, hsame.agree_signature⟩

end Bundles

theorem bundleShape_bundle {platform : Platform} (issuer : Issuer platform)
    (certificate : Certificate) (recordManifest : PyValue) :
    BundleShape (certificate.bundle issuer recordManifest) where
  members := by simp [List.lookup]
  envelopeMembers := by simp [List.lookup]
  envelopeVersion := by simp [List.lookup]
  signatureMembers := by simp [List.lookup]
  signatureVersion := by simp [List.lookup]
  signedPayload := by simp [List.lookup]

/-! The bundle of dataset 2, whose manifest is signed once more. -/

/-- The issuer of the example, with another signature for manifests. -/
noncomputable def resigningIssuer : Issuer neutralPlatform :=
  { exampleIssuer with
    sign := fun material =>
      if (utf8 (text (domain "issuer_signature"))).isPrefixOf material then baseSignature
      else neutralSignature
    verifies := fun material => by
      split
      · exact verifySignature_ed25519 rfl rfl rfl
      · exact verifySignature_ed25519 rfl rfl rfl }

theorem resigningIssuer_planSignature (certificate : Certificate) :
    certificate.planSignature resigningIssuer = certificate.planSignature exampleIssuer := by
  have hdomain : ∀ rest, (utf8 (text (domain "issuer_signature"))).isPrefixOf
      (utf8 (text (domain "declared_plan_signature")) ++ rest) = false := fun rest => rfl
  have hsign : ∀ rest, resigningIssuer.sign (utf8 (text (domain "declared_plan_signature")) ++
      rest) = neutralSignature := by
    intro rest
    simp only [resigningIssuer, hdomain rest, Bool.false_eq_true, if_false]
  have hsignature : ∀ payload, resigningIssuer.signature (domain "declared_plan_signature")
      payload = exampleIssuer.signature (domain "declared_plan_signature") payload := by
    intro payload
    rw [Issuer.signature, rolePreimage, preimage, hsign]
    rfl
  simp only [Certificate.planSignature, hsignature]
  rfl

def exampleCommitment : String :=
  "sha256:2222222222222222222222222222222222222222222222222222222222222222"

noncomputable def resignedBundle : PyValue :=
  (exampleCertificate exampleCommitment).bundle resigningIssuer
    (exampleCertificate exampleCommitment).recordManifest

theorem manifestOf_resignedBundle :
    manifestOf resignedBundle = manifestOf (exampleBundle exampleCommitment) := by
  have hmanifest : (exampleCertificate exampleCommitment).manifest resigningIssuer
      (exampleCertificate exampleCommitment).recordManifest =
      (exampleCertificate exampleCommitment).manifest exampleIssuer
        (exampleCertificate exampleCommitment).recordManifest := by
    simp only [Certificate.manifest, resigningIssuer_planSignature]
    rfl
  simpa [manifestOf, resignedBundle, exampleBundle, List.lookup] using hmanifest

/-- The verifier accepts both bundles, which differ in a signature and agree elsewhere. -/
theorem manifest_determines_bundle_resigned :
    let environment := installed neutralPlatform (validator BundleShape)
    let bundle := exampleBundle exampleCommitment
    (bundle.field "signature").field "signature" ≠
      (resignedBundle.field "signature").field "signature" ∧
    (((∀ name, name ≠ "signature" →
        Agree environment.platform.float (bundle.field name) (resignedBundle.field name)) ∧
      Agree environment.platform.float ((bundle.field "signature").erase "signature")
        ((resignedBundle.field "signature").erase "signature")) ∨
      Collision environment.platform.sha256 (hashedTexts environment.platform bundle)
        (hashedTexts environment.platform resignedBundle)) := by
  intro environment bundle
  have hvalid : environment.schema bundle = .valid :=
    validator_eq_valid_iff.mpr (bundleShape_bundle _ _ _)
  have hvalid' : environment.schema resignedBundle = .valid :=
    validator_eq_valid_iff.mpr (bundleShape_bundle _ _ _)
  have hplausible := exampleCertificate_isPlausible exampleCommitment
  have hverify' : verifyAgentQualityCertificate environment (exampleContext exampleCommitment)
      resignedBundle (exampleProcessRecord exampleCommitment) =
        .ok (exampleCertificate exampleCommitment).result :=
    hplausible.verify_bundle hvalid' hplausible.provedBy
  constructor
  · have hsignature : (bundle.field "signature").field "signature" =
        .leaf (.str (Base64.b64encode neutralSignature)) := by
      simp [bundle, exampleBundle, List.lookup, Issuer.signature]
      rfl
    have hsignature' : (resignedBundle.field "signature").field "signature" =
        .leaf (.str (Base64.b64encode baseSignature)) := by
      have hsign : ∀ rest, resigningIssuer.sign (utf8 (text (domain "issuer_signature")) ++
          rest) = baseSignature := by
        intro rest
        simp [resigningIssuer]
      simp [resignedBundle, List.lookup, Issuer.signature, rolePreimage, preimage, hsign]
    have hdifferent : Base64.b64encode neutralSignature ≠ Base64.b64encode baseSignature := by
      decide +kernel
    rw [hsignature, hsignature']
    exact fun hequal => hdifferent (Atom.str.inj (Tree.leaf.inj hequal))
  · exact manifest_determines_bundle (fun v hv => validator_eq_valid_iff.mp hv)
      (wellFormed_exampleBundle _) hplausible.document_bundle.wellFormed
      (verify_exampleBundle hvalid) hverify' (manifestOf_resignedBundle ▸ Agree.refl _)

end TraigentSchema.AgentQuality
