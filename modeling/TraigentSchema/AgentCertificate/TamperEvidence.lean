import TraigentSchema.AgentCertificate.Acceptance

/-!
# Tamper evidence of agent certificates

Only the unsigned manifest is signed by the issuer.  Every section of the envelope is
tied to it: repeated in it, bound by a digest in it, or fixed by the schema.  Hence two
accepted certificates with one manifest are one certificate, but for the string of the
issuer's signature.
-/

namespace TraigentSchema.AgentCertificate

open TraigentSchema.Unicode
open TraigentSchema.Fp2
open TraigentSchema.Hashing
open TraigentSchema.Certification
open TraigentSchema.Python
open TraigentSchema.Traverse

/-! ## The closed schema -/

def envelopeMembers : List String :=
  ["schema_version", "certificate_title", "build_session_scope_line",
    "certificate_scope_line", "subject", "semantics", "disclosure_profile",
    "ledger_seal_projection", "claims", "non_claims", "signatures", "audit_report"]

/-- The members of the envelope with a `const`. -/
def envelopeConstants : List (String × String) :=
  [("schema_version", "traigent.agent_certificate.v0"),
    ("certificate_title", "Agent Certificate"),
    ("build_session_scope_line", "Build-session scope: this certificate concerns a build " ++
      "session, not the deployed agent. It makes no deployment-identity, " ++
      "deployment-binding, drift-detection, or deployed-runtime claim."),
    ("certificate_scope_line", "Scope: Certified Agent v0 verifies signatures, " ++
      "build-session binding, and an unopened client declaration. It does not certify the " ++
      "contents, quality, correctness, correspondence, possession, or completeness of the " ++
      "agent, evaluation dataset, evaluator, or build-process evidence.")]

def signatureMembers (certificate : PyValue) : List String :=
  if (signaturesOf certificate).hasKey "co_attestation" then
    ["unsigned_manifest", "issuer_signature", "co_attestation"]
  else ["unsigned_manifest", "issuer_signature"]

def issuerSignatureMembers : List String :=
  ["algorithm", "issuer_key_ref", "trust_ring_ref", "signed_payload", "signature"]

def coAttestationMembers : List String :=
  ["algorithm", "client_key_ref", "signed_manifest_digest", "nonce", "signature"]

/-- What the certificate schema asks for: closed objects with all of these members, typed
leaves, and constants. -/
structure ClosedCertificate (certificate : PyValue) : Prop where
  unmixed : Unmixed certificate
  members : certificate.hasMembers envelopeMembers = true
  constants : ∀ row ∈ envelopeConstants, certificate.field row.1 = .str row.2
  semantics : (certificate.field "semantics").hasMembers semanticsKeys = true
  signatures : (signaturesOf certificate).hasMembers (signatureMembers certificate) = true
  unsignedRef : (unsignedRefOf certificate).hasMembers
    ["manifest_digest", "coverage", "document"] = true
  coverage : ∃ items, (unsignedRefOf certificate).field "coverage" = .list items
  issuerSignature : (issuerSignatureOf certificate).hasMembers issuerSignatureMembers = true
  coAttestation : (signaturesOf certificate).hasKey "co_attestation" = true →
    (coAttestationOf certificate).hasMembers coAttestationMembers = true

/-! ## One certificate -/

/-- A well-formed certificate that the verifier accepts under the closed schema. -/
structure Genuine (environment : Environment) (certificate : PyValue)
    (issuerPublicKey : environment.platform.PublicKey)
    (context : VerificationContext environment.platform) (policy : RelyingPartyPolicy) :
    Prop where
  wellFormed : certificate.WellFormed
  closed : ClosedCertificate certificate
  accepted : Accepted environment certificate issuerPublicKey context policy

theorem typed_literals (literals : List String) :
    Typed (.list (literals.map PyValue.str)) :=
  @Document.typed 1 _ (document_list_map fun literal _ => document_str literal)

theorem typed_auditEvidence (environment : Environment) (certificate : PyValue) :
    Typed (auditEvidence (auditDigestOf environment certificate)) := by
  apply @Document.typed 1
  apply document_object (by simp)
  intro row hrow
  simp only [List.mem_cons, List.not_mem_nil, or_false] at hrow
  rcases hrow with rfl | rfl
  · exact document_str _
  · exact document_digestValue _ _

theorem Repeats.agree {float : FloatRepr} {v w : PyValue} {name other : String}
    (hrepeats : Repeats v name w other) (hv : Typed v) (hw : Typed w) :
    Agree float (v.field name) (w.field other) :=
  hv.field.agree hw.field hrepeats.equal

namespace Genuine

variable {environment : Environment} {certificate : PyValue}
variable {issuerPublicKey : environment.platform.PublicKey}
variable {context : VerificationContext environment.platform} {policy : RelyingPartyPolicy}
variable (hgenuine : Genuine environment certificate issuerPublicKey context policy)

include hgenuine

theorem typed : Typed certificate where
  unmixed := hgenuine.closed.unmixed
  wellFormed := hgenuine.wellFormed

theorem typed_unsigned : Typed (unsignedOf certificate) :=
  hgenuine.typed.field.field.field

theorem projected : Projected certificate (unsignedOf certificate)
    (auditDigestOf environment certificate) :=
  projected_of_checkProjections hgenuine.accepted.validated.projections

theorem agree_section {row : String × String × String} (hrow : row ∈ projections) :
    Agree environment.platform.float ((unsignedOf certificate).field row.1)
      (certificate.field row.2.1) :=
  (hgenuine.projected.sections row hrow).agree hgenuine.typed_unsigned hgenuine.typed

/-- The semantics are the policy's registers. -/
theorem semantics_field {key : String} (hkey : key ∈ semanticsKeys) :
    (certificate.field "semantics").field key =
      (PyValue.object policy.compilerRegisterVersions.rows.tail).field key := by
  have hpolicy := hgenuine.accepted.validated.policy
  unfold checkPolicy at hpolicy
  simp only [bind_eq_ok_iff, index_eq_ok_iff, demand_eq_ok_iff, select_eq_ok_iff,
    exists_and_left, exists_eq_left', and_assoc, exists_const] at hpolicy
  obtain ⟨-, -, -, -, hequal, -⟩ := hpolicy
  have hmember := PyValue.member_object_map (certificate.field "semantics").field hkey
  have hfield := (pyEq_field hequal (PyValue.hasKey_iff.mpr ⟨_, hmember⟩)).2
  rw [PyValue.field, hmember, Option.getD_some] at hfield
  simp only [semanticsKeys, compilerRegisterKeys, List.tail_cons, List.mem_cons,
    List.not_mem_nil, or_false] at hkey
  rcases hkey with rfl | rfl | rfl | rfl | rfl <;>
    simpa [CompilerRegisters.rows, List.lookup] using hfield

/-- The first of the evidence digests is the audit report's. -/
theorem evidence : ∃ first rest,
    (unsignedOf certificate).field "evidence_digests" = .list (first :: rest) ∧
      PyValue.field first "evidence_digest" = auditDigestOf environment certificate := by
  obtain ⟨rest, hstates⟩ := hgenuine.projected.evidence
  have hequal := hstates.equal
  cases hfield : (unsignedOf certificate).field "evidence_digests" with
  | leaf x => simp [hfield] at hequal
  | dict members => simp [hfield] at hequal
  | list items =>
      rw [hfield, pyEq_list_list, itemsEq_iff] at hequal
      cases hequal with
      | cons =>
          rename_i first rest' hfirst _
          have hfirstTyped : Typed first :=
            (hfield ▸ hgenuine.typed_unsigned.field).item (List.mem_cons_self)
          have hauditTyped := typed_auditEvidence environment certificate
          have hagree : Agree environment.platform.float
              ((auditEvidence (auditDigestOf environment certificate)).field
                "evidence_digest") (PyValue.field first "evidence_digest") :=
            (hfirstTyped.agree hauditTyped hfirst).symm.field hauditTyped.hasCanonicalText
              hfirstTyped.hasCanonicalText
          have hdigest : (auditEvidence (auditDigestOf environment certificate)).field
              "evidence_digest" = auditDigestOf environment certificate := by
            simp [auditEvidence, List.lookup]
          rw [hdigest] at hagree
          exact ⟨first, rest', rfl, Agree.eq_str (encodable_sha256Text _ _)
            hfirstTyped.field.hasCanonicalText hagree⟩

theorem agree_coverage : Agree environment.platform.float
    ((unsignedRefOf certificate).field "coverage")
    (.list (manifestCoverage.map PyValue.str)) := by
  obtain ⟨items, hitems⟩ := hgenuine.closed.coverage
  obtain ⟨items', hiterated, hequal⟩ := hgenuine.accepted.validated.coverage
  have hsame : items = items' := by
    rw [indexItems_eq_ok_iff, hitems] at hiterated
    exact Except.ok.inj hiterated.2
  subst hsame
  rw [hitems]
  have htyped : Typed (.list items) := hitems ▸ hgenuine.typed.field.field.field
  exact htyped.agree (typed_literals _) hequal

theorem manifestDigest : (unsignedRefOf certificate).field "manifest_digest" =
    digestValue environment.platform unsignedDomain (unsignedOf certificate) :=
  hgenuine.accepted.validated.manifestDigest.field_eq_str

theorem agree_signedPayload : Agree environment.platform.float
    ((issuerSignatureOf certificate).field "signed_payload")
    (.list (["unsigned_manifest"].map PyValue.str)) :=
  hgenuine.typed.field.field.field.agree (typed_literals _) hgenuine.accepted.signedPayload.equal

end Genuine

/-! ## Two certificates with one manifest -/

/-- The certificate without the string of the issuer's signature. -/
def withoutIssuerSignature (certificate : PyValue) : PyValue :=
  certificate.assign "signatures" ((signaturesOf certificate).assign "issuer_signature"
    ((issuerSignatureOf certificate).erase "signature"))

/-- Two genuine certificates with one manifest and one client's block. -/
structure SameManifest (environment : Environment) (certificate certificate' : PyValue)
    (issuerPublicKey : environment.platform.PublicKey)
    (context : VerificationContext environment.platform) (policy : RelyingPartyPolicy) :
    Prop where
  genuine : Genuine environment certificate issuerPublicKey context policy
  genuine' : Genuine environment certificate' issuerPublicKey context policy
  agree : Agree environment.platform.float (unsignedOf certificate) (unsignedOf certificate')
  sameCo : (signaturesOf certificate).member "co_attestation" =
    (signaturesOf certificate').member "co_attestation"

namespace SameManifest

variable {environment : Environment} {certificate certificate' : PyValue}
variable {issuerPublicKey : environment.platform.PublicKey}
variable {context : VerificationContext environment.platform} {policy : RelyingPartyPolicy}
variable (hsame : SameManifest environment certificate certificate' issuerPublicKey context
  policy)

include hsame

theorem agree_unsignedField (name : String) : Agree environment.platform.float
    ((unsignedOf certificate).field name) ((unsignedOf certificate').field name) :=
  hsame.agree.field hsame.genuine.typed_unsigned.hasCanonicalText
    hsame.genuine'.typed_unsigned.hasCanonicalText

theorem agree_section {name : String} (hname : name ∈ projections.map fun row => row.2.1) :
    Agree environment.platform.float (certificate.field name) (certificate'.field name) := by
  obtain ⟨row, hrow, rfl⟩ := List.mem_map.mp hname
  exact ((hsame.genuine.agree_section hrow).symm.trans (hsame.agree_unsignedField row.1)).trans
    (hsame.genuine'.agree_section hrow)

theorem agree_semantics : Agree environment.platform.float (certificate.field "semantics")
    (certificate'.field "semantics") := by
  apply Agree.of_fields hsame.genuine.typed.field.hasCanonicalText
    hsame.genuine'.typed.field.hasCanonicalText hsame.genuine.closed.semantics
    hsame.genuine'.closed.semantics
  intro key hkey
  rw [hsame.genuine.semantics_field hkey, hsame.genuine'.semantics_field hkey]
  exact Agree.refl _

/-- The manifests name one digest of the audit report. -/
theorem auditDigest_eq :
    auditDigestOf environment certificate = auditDigestOf environment certificate' := by
  obtain ⟨first, rest, hfield, hdigest⟩ := hsame.genuine.evidence
  obtain ⟨first', rest', hfield', hdigest'⟩ := hsame.genuine'.evidence
  have htyped : Typed (.list (first :: rest)) := hfield ▸ hsame.genuine.typed_unsigned.field
  have htyped' : Typed (.list (first' :: rest')) :=
    hfield' ▸ hsame.genuine'.typed_unsigned.field
  have hagree := hsame.agree_unsignedField "evidence_digests"
  rw [hfield, hfield', agree_list_iff htyped.hasCanonicalText htyped'.hasCanonicalText,
    List.forall₂_cons] at hagree
  have hfirst := htyped.item List.mem_cons_self
  have hfirst' := htyped'.item List.mem_cons_self
  have hdigests : Agree environment.platform.float (PyValue.field first "evidence_digest")
      (PyValue.field first' "evidence_digest") :=
    hagree.1.field hfirst.hasCanonicalText hfirst'.hasCanonicalText
  rw [hdigest] at hdigests
  exact (hdigest' ▸ Agree.eq_str (encodable_sha256Text _ _) hfirst'.field.hasCanonicalText
    hdigests).symm

theorem agree_audit : Agree environment.platform.float (certificate.field "audit_report")
      (certificate'.field "audit_report") ∨
    Collision environment.platform.sha256
      [rolePreimage environment.platform auditDomain (certificate.field "audit_report")]
      [rolePreimage environment.platform auditDomain (certificate'.field "audit_report")] := by
  have hdigest := hsame.auditDigest_eq
  rw [auditDigestOf, auditDigestOf, digestValue, digestValue, Tree.leaf.injEq,
    Atom.str.injEq] at hdigest
  exact agree_or_collision environment.platform hdigest

theorem agree_coverage : Agree environment.platform.float
    ((unsignedRefOf certificate).field "coverage")
    ((unsignedRefOf certificate').field "coverage") :=
  hsame.genuine.agree_coverage.trans hsame.genuine'.agree_coverage.symm

theorem agree_unsignedRef : Agree environment.platform.float (unsignedRefOf certificate)
    (unsignedRefOf certificate') := by
  apply Agree.of_fields hsame.genuine.typed.field.field.hasCanonicalText
    hsame.genuine'.typed.field.field.hasCanonicalText hsame.genuine.closed.unsignedRef
    hsame.genuine'.closed.unsignedRef
  intro name hname
  simp only [List.mem_cons, List.not_mem_nil, or_false] at hname
  rcases hname with rfl | rfl | rfl
  · rw [hsame.genuine.manifestDigest, hsame.genuine'.manifestDigest, digestValue,
      digestValue, rolePreimage, rolePreimage, hsame.agree]
    exact Agree.refl _
  · exact hsame.agree_coverage
  · exact hsame.agree

/-- What the issuer's block repeats from the key ring agrees. -/
theorem agree_ringField {name other : String}
    (hrepeats : Repeats (issuerSignatureOf certificate) name
      (ringOf (unsignedOf certificate)) other)
    (hrepeats' : Repeats (issuerSignatureOf certificate') name
      (ringOf (unsignedOf certificate')) other) :
    Agree environment.platform.float ((issuerSignatureOf certificate).field name)
      ((issuerSignatureOf certificate').field name) := by
  have hring : Agree environment.platform.float ((ringOf (unsignedOf certificate)).field other)
      ((ringOf (unsignedOf certificate')).field other) :=
    (hsame.agree_unsignedField "key_ring_identifiers").field
      hsame.genuine.typed_unsigned.field.hasCanonicalText
      hsame.genuine'.typed_unsigned.field.hasCanonicalText
  exact ((hrepeats.agree hsame.genuine.typed.field.field
    hsame.genuine.typed_unsigned.field).trans hring).trans
    (hrepeats'.agree hsame.genuine'.typed.field.field
      hsame.genuine'.typed_unsigned.field).symm

theorem agree_issuerSignature : Agree environment.platform.float
    ((issuerSignatureOf certificate).erase "signature")
    ((issuerSignatureOf certificate').erase "signature") := by
  have hbound := hsame.genuine.accepted.bound
  have hbound' := hsame.genuine'.accepted.bound
  apply Agree.of_fields hsame.genuine.typed.field.field.erase.hasCanonicalText
    hsame.genuine'.typed.field.field.erase.hasCanonicalText
    (PyValue.hasMembers_erase _ hsame.genuine.closed.issuerSignature)
    (PyValue.hasMembers_erase _ hsame.genuine'.closed.issuerSignature)
  intro name hname
  obtain ⟨hname, hne⟩ := List.mem_filter.mp hname
  rw [PyValue.field_erase_of_ne (of_decide_eq_true hne),
    PyValue.field_erase_of_ne (of_decide_eq_true hne)]
  simp only [issuerSignatureMembers, List.mem_cons, List.not_mem_nil, or_false] at hname
  rcases hname with rfl | rfl | rfl | rfl | rfl
  · exact hsame.agree_ringField hbound.signatureAlgorithm hbound'.signatureAlgorithm
  · exact hsame.agree_ringField hbound.signatureKeyRef hbound'.signatureKeyRef
  · exact hsame.agree_ringField hbound.signatureTrustRingRef hbound'.signatureTrustRingRef
  · exact hsame.genuine.agree_signedPayload.trans hsame.genuine'.agree_signedPayload.symm
  · exact absurd rfl (of_decide_eq_true hne)

/-- The signatures, once the string of the issuer's is left out. -/
theorem agree_signatures : Agree environment.platform.float
    ((signaturesOf certificate).assign "issuer_signature"
      ((issuerSignatureOf certificate).erase "signature"))
    ((signaturesOf certificate').assign "issuer_signature"
      ((issuerSignatureOf certificate').erase "signature")) := by
  have hco : (signaturesOf certificate).hasKey "co_attestation" =
      (signaturesOf certificate').hasKey "co_attestation" := by
    rw [PyValue.hasKey, PyValue.hasKey, hsame.sameCo]
  have hnames : signatureMembers certificate' = signatureMembers certificate := by
    rw [signatureMembers, signatureMembers, hco]
  have hissuer : "issuer_signature" ∈ signatureMembers certificate := by
    unfold signatureMembers
    split_ifs <;> simp
  have hdict := PyValue.isDict_of_hasMembers hsame.genuine.closed.signatures
  have hdict' := PyValue.isDict_of_hasMembers hsame.genuine'.closed.signatures
  apply Agree.of_fields
    (hsame.genuine.typed.field.assign hsame.genuine.typed.field.field.erase).hasCanonicalText
    (hsame.genuine'.typed.field.assign
      hsame.genuine'.typed.field.field.erase).hasCanonicalText
    (PyValue.hasMembers_assign hissuer hsame.genuine.closed.signatures)
    (PyValue.hasMembers_assign hissuer (hnames ▸ hsame.genuine'.closed.signatures))
  intro name hname
  have hcases : name = "unsigned_manifest" ∨ name = "issuer_signature" ∨
      name = "co_attestation" := by
    unfold signatureMembers at hname
    split_ifs at hname <;> simp at hname <;> tauto
  rcases hcases with rfl | rfl | rfl
  · rw [PyValue.field_assign_of_ne (by decide), PyValue.field_assign_of_ne (by decide)]
    exact hsame.agree_unsignedRef
  · rw [PyValue.field_assign_self hdict, PyValue.field_assign_self hdict']
    exact hsame.agree_issuerSignature
  · have hblock : coAttestationOf certificate = coAttestationOf certificate' :=
      congrArg (fun block => block.getD (.leaf .none)) hsame.sameCo
    rw [PyValue.field_assign_of_ne (by decide), PyValue.field_assign_of_ne (by decide)]
    exact congrArg (canonicalText _) hblock

/-- Every member of the envelope but the signatures agrees, once the audit reports do. -/
theorem agree_member {name : String}
    (haudit : Agree environment.platform.float (certificate.field "audit_report")
      (certificate'.field "audit_report"))
    (hname : name ∈ envelopeMembers) (hne : name ≠ "signatures") :
    Agree environment.platform.float (certificate.field name) (certificate'.field name) := by
  have hconstant : ∀ name ∈ envelopeConstants.map Prod.fst,
      Agree environment.platform.float (certificate.field name) (certificate'.field name) := by
    intro name hname
    obtain ⟨row, hrow, rfl⟩ := List.mem_map.mp hname
    rw [hsame.genuine.closed.constants row hrow, hsame.genuine'.closed.constants row hrow]
    exact Agree.refl _
  simp only [envelopeMembers, List.mem_cons, List.not_mem_nil, or_false] at hname
  rcases hname with rfl | rfl | rfl | rfl | rfl | rfl | rfl | rfl | rfl | rfl | rfl | rfl
  · exact hconstant _ (by simp [envelopeConstants])
  · exact hconstant _ (by simp [envelopeConstants])
  · exact hconstant _ (by simp [envelopeConstants])
  · exact hconstant _ (by simp [envelopeConstants])
  · exact hsame.agree_section (by simp [projections])
  · exact hsame.agree_semantics
  · exact hsame.agree_section (by simp [projections])
  · exact hsame.agree_section (by simp [projections])
  · exact hsame.agree_section (by simp [projections])
  · exact hsame.agree_section (by simp [projections])
  · exact absurd rfl hne
  · exact haudit

theorem agree_withoutIssuerSignature
    (haudit : Agree environment.platform.float (certificate.field "audit_report")
      (certificate'.field "audit_report")) :
    Agree environment.platform.float (withoutIssuerSignature certificate)
      (withoutIssuerSignature certificate') := by
  have hdict := PyValue.isDict_of_hasMembers hsame.genuine.closed.members
  have hdict' := PyValue.isDict_of_hasMembers hsame.genuine'.closed.members
  apply Agree.of_fields
    (hsame.genuine.typed.assign (hsame.genuine.typed.field.assign
      hsame.genuine.typed.field.field.erase)).hasCanonicalText
    (hsame.genuine'.typed.assign (hsame.genuine'.typed.field.assign
      hsame.genuine'.typed.field.field.erase)).hasCanonicalText
    (PyValue.hasMembers_assign (by simp [envelopeMembers]) hsame.genuine.closed.members)
    (PyValue.hasMembers_assign (by simp [envelopeMembers]) hsame.genuine'.closed.members)
  intro name hname
  by_cases hsignatures : name = "signatures"
  · rw [hsignatures, PyValue.field_assign_self hdict, PyValue.field_assign_self hdict']
    exact hsame.agree_signatures
  · rw [PyValue.field_assign_of_ne hsignatures, PyValue.field_assign_of_ne hsignatures]
    exact hsame.agree_member haudit hname hsignatures

end SameManifest

/-- Two accepted certificates with one manifest and one client's block agree on every
printed section and on the whole envelope but for the string of the issuer's signature, or
their audit reports are two texts of one digest. -/
theorem manifest_determines_certificate {environment : Environment}
    {certificate certificate' : PyValue} {issuerPublicKey : environment.platform.PublicKey}
    {context : VerificationContext environment.platform} {policy : RelyingPartyPolicy}
    (hschema : ∀ v, environment.certificateSchema v = true → ClosedCertificate v)
    (hwellFormed : certificate.WellFormed) (hwellFormed' : certificate'.WellFormed)
    (hverify : verifyCertificate environment certificate issuerPublicKey context policy =
      .ok ())
    (hverify' : verifyCertificate environment certificate' issuerPublicKey context policy =
      .ok ())
    (hco : (signaturesOf certificate).member "co_attestation" =
      (signaturesOf certificate').member "co_attestation")
    (hmanifest : Agree environment.platform.float (unsignedOf certificate)
      (unsignedOf certificate')) :
    ((∀ name ∈ ["subject", "ledger_seal_projection", "claims", "non_claims", "semantics",
          "disclosure_profile", "audit_report"],
        Agree environment.platform.float (certificate.field name) (certificate'.field name)) ∧
      Agree environment.platform.float ((unsignedRefOf certificate).field "coverage")
        ((unsignedRefOf certificate').field "coverage") ∧
      Agree environment.platform.float (withoutIssuerSignature certificate)
        (withoutIssuerSignature certificate')) ∨
      Collision environment.platform.sha256
        [rolePreimage environment.platform auditDomain (certificate.field "audit_report")]
        [rolePreimage environment.platform auditDomain
          (certificate'.field "audit_report")] := by
  rw [verifyCertificate_eq_ok_iff, verify_eq_ok_iff] at hverify hverify'
  have hsame : SameManifest environment certificate certificate' issuerPublicKey context
      policy := {
    genuine := ⟨hwellFormed, hschema _ hverify.validated.schema, hverify⟩
    genuine' := ⟨hwellFormed', hschema _ hverify'.validated.schema, hverify'⟩
    agree := hmanifest
    sameCo := hco }
  rcases hsame.agree_audit with haudit | hcollision
  · refine Or.inl ⟨?_, hsame.agree_coverage, hsame.agree_withoutIssuerSignature haudit⟩
    intro name hname
    apply hsame.agree_member haudit
    · simp only [List.mem_cons, List.not_mem_nil, or_false] at hname
      rcases hname with rfl | rfl | rfl | rfl | rfl | rfl | rfl <;> simp [envelopeMembers]
    · rintro rfl
      simp at hname
  · exact Or.inr hcollision

end TraigentSchema.AgentCertificate
