import TraigentSchema.AgentCertificate.TamperEvidence

/-!
# What the client's signature covers

The client signs the certificate without its own block, and that block repeats what is
signed.  So a co-signature covers the whole certificate but for its own string, and the
claim that rests on it is printed under the ref of the key that verified it.
-/

namespace TraigentSchema.AgentCertificate

open TraigentSchema.Unicode
open TraigentSchema.Fp2
open TraigentSchema.Framing
open TraigentSchema.Hashing
open TraigentSchema.Certification
open TraigentSchema.Python
open TraigentSchema.Traverse

/-- The certificate without the string of the client's signature. -/
def withoutCoSignature (certificate : PyValue) : PyValue :=
  certificate.assign "signatures" ((signaturesOf certificate).assign "co_attestation"
    ((coAttestationOf certificate).erase "signature"))

/-! ## The claim that rests on the client -/

/-- The certificate carries a client's block, and it verified under the key that the key
ring names. -/
structure CoVerified (environment : Environment) (certificate : PyValue)
    (context : VerificationContext environment.platform)
    (clientPublicKey : environment.platform.PublicKey) : Prop where
  carried : (signaturesOf certificate).hasKey "co_attestation" = true
  keyRing : deriveClientKeyRef environment.platform context.expectedProjectRef
    ((ringOf (unsignedOf certificate)).field "client_signature_algorithm") clientPublicKey =
      .ok ((ringOf (unsignedOf certificate)).field "client_key_ref")
  named : (coAttestationOf certificate).field "client_key_ref" =
    (ringOf (unsignedOf certificate)).field "client_key_ref"
  verified : verifySignature environment.platform clientPublicKey
    ((coAttestationOf certificate).field "algorithm")
    (signingBytes environment.platform certificate)
    ((coAttestationOf certificate).field "signature") = .ok ()

/-- A list is iterated over as it is, and so is whatever holds a dict. -/
theorem field_eq_list_of_indexItems {v item : PyValue} {name : String} {items : List PyValue}
    (hitems : indexItems v name = .ok items) (hitem : item ∈ items)
    (hdict : item.isDict = true) : v.field name = .list items := by
  rw [indexItems_eq_ok_iff] at hitems
  cases hfield : v.field name with
  | list items' =>
      rw [hfield] at hitems
      rw [Except.ok.inj hitems.2]
  | leaf x =>
      rw [hfield] at hitems
      cases x with
      | str s =>
          rw [← Except.ok.inj hitems.2] at hitem
          obtain ⟨c, -, rfl⟩ := List.mem_map.mp hitem
          cases hdict
      | _ => cases hitems.2
  | dict members =>
      rw [hfield] at hitems
      rw [← Except.ok.inj hitems.2] at hitem
      obtain ⟨m, -, rfl⟩ := List.mem_map.mp hitem
      cases hkey : m.1 <;> simp [hkey, PyValue.isDict] at hdict

theorem isDict_of_hasKey {v : PyValue} {name : String} (hkey : v.hasKey name = true) :
    v.isDict = true := by
  obtain ⟨w, hmember⟩ := PyValue.hasKey_iff.mp hkey
  exact PyValue.isDict_of_member hmember

section Attested

variable {environment : Environment} {certificate : PyValue}
variable {issuerPublicKey : environment.platform.PublicKey}
variable {context : VerificationContext environment.platform} {policy : RelyingPartyPolicy}
variable (haccepted : Accepted environment certificate issuerPublicKey context policy)

include haccepted

theorem clientRingMatches_of_hasKey
    (hkey : (ringOf (unsignedOf certificate)).hasKey "client_key_ref" = true) :
    ∃ clientPublicKey, context.clientPublicKey = some clientPublicKey ∧
      ClientRingMatches environment (unsignedOf certificate) context clientPublicKey := by
  have hclient := haccepted.bound.client
  rw [if_pos hkey] at hclient
  exact checkClientRingContext_eq_ok_iff.mp hclient

theorem coVerified_of_carried
    (hcarried : (signaturesOf certificate).hasKey "co_attestation" = true) :
    ∃ clientPublicKey, context.clientPublicKey = some clientPublicKey ∧
      CoVerified environment certificate context clientPublicKey ∧
      ClientRingMatches environment (unsignedOf certificate) context clientPublicKey := by
  obtain ⟨clientPublicKey, hclient, hbound, hsigned⟩ := haccepted.coAttestation.attested hcarried
  obtain ⟨clientPublicKey', hclient', hring⟩ :=
    clientRingMatches_of_hasKey haccepted hbound.keyRef.right
  rw [hclient, Option.some.injEq] at hclient'
  subst hclient'
  obtain ⟨s, hs⟩ := deriveClientKeyRef_isStr hring.derived
  refine ⟨clientPublicKey, hclient, ⟨hcarried, hring.derived, ?_, hsigned.verified⟩, hring⟩
  rw [hs]
  exact hbound.keyRef.field_eq_str hs

/-- A `G1` in the envelope names the ref in the key ring. -/
theorem keyRef_of_printed {clientPublicKey : environment.platform.PublicKey}
    (hring : ClientRingMatches environment (unsignedOf certificate) context clientPublicKey)
    {claims : List PyValue} {claim : PyValue}
    (hclaims : indexItems certificate "claims" = .ok claims) (hclaim : claim ∈ claims)
    (hkey : claim.hasKey "claim_id" = true) (hclaimId : claim.field "claim_id" = .str "G1") :
    ((claim.field "payload").field "params").field "client_key_ref" =
      (ringOf (unsignedOf certificate)).field "client_key_ref" := by
  have hprinted := field_eq_list_of_indexItems hclaims hclaim (isDict_of_hasKey hkey)
  have hsection := (projected_of_checkProjections
    haccepted.validated.projections).sections ("claims", "claims", "CLAIMS_BINDING")
    (by simp [projections])
  have hequal := hsection.equal
  obtain ⟨signed, hsigned, hbound⟩ := hring.g1
  rw [indexItems_eq_ok_iff] at hsigned
  rw [hprinted] at hequal
  cases hfield : (unsignedOf certificate).field "claims" with
  | leaf x => simp [hfield] at hequal
  | dict members => simp [hfield] at hequal
  | list items =>
      rw [hfield] at hequal hsigned
      rw [pyEq_list_list, itemsEq_iff] at hequal
      rw [← Except.ok.inj hsigned.2] at hbound
      obtain ⟨claim', hclaim', hsame⟩ := exists_of_mem_right hequal hclaim
      obtain ⟨hkey', hg1⟩ := checkG1Binding_eq_ok_iff.mp (hbound claim' hclaim')
      have hid := (pyEq_field hsame hkey').2
      rw [hclaimId, pyEq_literal_right] at hid
      have hnames := hg1 hid
      have hpayload := (pyEq_field hsame hnames.hasPayload).2
      have hparams := (pyEq_field hpayload hnames.hasParams).2
      have hkeyRef := (pyEq_field hparams hnames.keyRef.left).2
      obtain ⟨s, hs⟩ := deriveClientKeyRef_isStr hring.derived
      rw [hnames.keyRef.field_eq_str hs] at hkeyRef
      rw [hs]
      exact pyEq_str_left.mp hkeyRef

/-- The claims that need the client are there exactly when its block verified, and they
are printed under the ref of the key it verified under. -/
theorem needsClient_iff_coVerified :
    ∃ claims, indexItems certificate "claims" = .ok claims ∧
      ((∃ claim ∈ claims, NeedsClient claim) ↔
        ∃ clientPublicKey, context.clientPublicKey = some clientPublicKey ∧
          CoVerified environment certificate context clientPublicKey) ∧
      ∀ claim ∈ claims, NeedsClient claim →
        ∃ clientPublicKey, context.clientPublicKey = some clientPublicKey ∧
          deriveClientKeyRef environment.platform context.expectedProjectRef
            ((ringOf (unsignedOf certificate)).field "client_signature_algorithm")
            clientPublicKey =
              .ok (((claim.field "payload").field "params").field "client_key_ref") := by
  obtain ⟨claims, hclaims, hrequires⟩ := haccepted.coAttestation.required
  obtain ⟨claims', hclaims', hprinted⟩ :=
    printed_of_checkClaimsAndAudit haccepted.validated.claimsAndAudit
  have hsame : claims' = claims := Except.ok.inj (hclaims'.symm.trans hclaims)
  subst hsame
  have hcarried := anyRequires_eq_ok hrequires
  refine ⟨claims', hclaims, ⟨?_, ?_⟩, ?_⟩
  · intro hneeds
    obtain ⟨clientPublicKey, hclient, hverified, -⟩ :=
      coVerified_of_carried haccepted (hcarried.mpr hneeds)
    exact ⟨clientPublicKey, hclient, hverified⟩
  · rintro ⟨clientPublicKey, -, hverified⟩
    exact hcarried.mp hverified.carried
  · intro claim hclaim hneeds
    obtain ⟨clientPublicKey, hclient, -, hring⟩ :=
      coVerified_of_carried haccepted (hcarried.mpr ⟨claim, hclaim, hneeds⟩)
    obtain ⟨hkey, hclaimPrinted⟩ := hprinted claim hclaim
    refine ⟨clientPublicKey, hclient, ?_⟩
    rw [keyRef_of_printed haccepted hring hclaims hclaim hkey
      (hclaimPrinted.needsClient_iff.mp hneeds)]
    exact hring.derived

end Attested

/-! ## Two certificates with one co-signature -/

/-- Two genuine certificates with verified client's blocks, whose projections agree. -/
structure SameProjection (environment : Environment) (certificate certificate' : PyValue)
    (issuerPublicKey issuerPublicKey' : environment.platform.PublicKey)
    (context context' : VerificationContext environment.platform)
    (policy policy' : RelyingPartyPolicy) : Prop where
  genuine : Genuine environment certificate issuerPublicKey context policy
  genuine' : Genuine environment certificate' issuerPublicKey' context' policy'
  carried : (signaturesOf certificate).hasKey "co_attestation" = true
  carried' : (signaturesOf certificate').hasKey "co_attestation" = true
  agree : Agree environment.platform.float (clientProjection certificate)
    (clientProjection certificate')

namespace Genuine

variable {environment : Environment} {certificate : PyValue}
variable {issuerPublicKey : environment.platform.PublicKey}
variable {context : VerificationContext environment.platform} {policy : RelyingPartyPolicy}
variable (hgenuine : Genuine environment certificate issuerPublicKey context policy)

include hgenuine

theorem typed_projection : Typed (clientProjection certificate) :=
  hgenuine.typed.assign hgenuine.typed.field.erase

theorem projection_signatures : (clientProjection certificate).field "signatures" =
    (signaturesOf certificate).erase "co_attestation" :=
  PyValue.field_assign_self hgenuine.accepted.validated.isDict

theorem coBound (hcarried : (signaturesOf certificate).hasKey "co_attestation" = true) :
    CoBound environment (coAttestationOf certificate) (unsignedOf certificate) context := by
  obtain ⟨_, -, hbound, -⟩ := hgenuine.accepted.coAttestation.attested hcarried
  exact hbound

theorem coSigned (hcarried : (signaturesOf certificate).hasKey "co_attestation" = true) :
    Framable (projectionBytes environment.platform certificate) ∧
      (coAttestationOf certificate).field "signed_manifest_digest" =
        signedManifestDigest environment.platform certificate := by
  obtain ⟨_, -, -, hsigned⟩ := hgenuine.accepted.coAttestation.attested hcarried
  exact ⟨hsigned.projects.framable, hsigned.digest.field_eq_str⟩

end Genuine

namespace SameProjection

variable {environment : Environment} {certificate certificate' : PyValue}
variable {issuerPublicKey issuerPublicKey' : environment.platform.PublicKey}
variable {context context' : VerificationContext environment.platform}
variable {policy policy' : RelyingPartyPolicy}
variable (hsame : SameProjection environment certificate certificate' issuerPublicKey
  issuerPublicKey' context context' policy policy')

include hsame

theorem agree_erasedSignatures : Agree environment.platform.float
    ((signaturesOf certificate).erase "co_attestation")
    ((signaturesOf certificate').erase "co_attestation") := by
  rw [← hsame.genuine.projection_signatures, ← hsame.genuine'.projection_signatures]
  exact hsame.agree.field hsame.genuine.typed_projection.hasCanonicalText
    hsame.genuine'.typed_projection.hasCanonicalText

theorem agree_unsigned : Agree environment.platform.float (unsignedOf certificate)
    (unsignedOf certificate') := by
  have hrefs : Agree environment.platform.float
      (((signaturesOf certificate).erase "co_attestation").field "unsigned_manifest")
      (((signaturesOf certificate').erase "co_attestation").field "unsigned_manifest") :=
    hsame.agree_erasedSignatures.field hsame.genuine.typed.field.erase.hasCanonicalText
      hsame.genuine'.typed.field.erase.hasCanonicalText
  rw [PyValue.field_erase_of_ne (by decide), PyValue.field_erase_of_ne (by decide)] at hrefs
  exact hrefs.field hsame.genuine.typed.field.field.hasCanonicalText
    hsame.genuine'.typed.field.field.hasCanonicalText

/-- What the client's blocks repeat from a section of the manifest agrees. -/
theorem agree_coField {name section_ other : String}
    (hrepeats : Repeats (coAttestationOf certificate) name
      ((unsignedOf certificate).field section_) other)
    (hrepeats' : Repeats (coAttestationOf certificate') name
      ((unsignedOf certificate').field section_) other) :
    Agree environment.platform.float ((coAttestationOf certificate).field name)
      ((coAttestationOf certificate').field name) := by
  have hunsigned := hsame.genuine.typed_unsigned
  have hunsigned' := hsame.genuine'.typed_unsigned
  have hsection : Agree environment.platform.float
      (((unsignedOf certificate).field section_).field other)
      (((unsignedOf certificate').field section_).field other) :=
    (hsame.agree_unsigned.field hunsigned.hasCanonicalText hunsigned'.hasCanonicalText).field
      hunsigned.field.hasCanonicalText hunsigned'.field.hasCanonicalText
  exact ((hrepeats.agree hsame.genuine.typed.field.field hunsigned.field).trans hsection).trans
    (hrepeats'.agree hsame.genuine'.typed.field.field hunsigned'.field).symm

theorem agree_coAttestation : Agree environment.platform.float
    ((coAttestationOf certificate).erase "signature")
    ((coAttestationOf certificate').erase "signature") := by
  have hbound := hsame.genuine.coBound hsame.carried
  have hbound' := hsame.genuine'.coBound hsame.carried'
  apply Agree.of_fields hsame.genuine.typed.field.field.erase.hasCanonicalText
    hsame.genuine'.typed.field.field.erase.hasCanonicalText
    (PyValue.hasMembers_erase _ (hsame.genuine.closed.coAttestation hsame.carried))
    (PyValue.hasMembers_erase _ (hsame.genuine'.closed.coAttestation hsame.carried'))
  intro name hname
  obtain ⟨hname, hne⟩ := List.mem_filter.mp hname
  rw [PyValue.field_erase_of_ne (of_decide_eq_true hne),
    PyValue.field_erase_of_ne (of_decide_eq_true hne)]
  simp only [coAttestationMembers, List.mem_cons, List.not_mem_nil, or_false] at hname
  rcases hname with rfl | rfl | rfl | rfl | rfl
  · exact hsame.agree_coField hbound.algorithm hbound'.algorithm
  · exact hsame.agree_coField hbound.keyRef hbound'.keyRef
  · rw [(hsame.genuine.coSigned hsame.carried).2, (hsame.genuine'.coSigned hsame.carried').2,
      signedManifestDigest, signedManifestDigest, digestValue, digestValue, rolePreimage,
      rolePreimage, hsame.agree]
    exact Agree.refl _
  · exact hsame.agree_coField hbound.nonce hbound'.nonce
  · exact absurd rfl (of_decide_eq_true hne)

theorem agree_signatures : Agree environment.platform.float
    ((signaturesOf certificate).assign "co_attestation"
      ((coAttestationOf certificate).erase "signature"))
    ((signaturesOf certificate').assign "co_attestation"
      ((coAttestationOf certificate').erase "signature")) :=
  Agree.assign hsame.genuine.typed.field.hasCanonicalText
    hsame.genuine'.typed.field.hasCanonicalText
    hsame.genuine.typed.field.field.erase.hasCanonicalText
    hsame.genuine'.typed.field.field.erase.hasCanonicalText (isDict_of_hasKey hsame.carried)
    (isDict_of_hasKey hsame.carried') hsame.agree_erasedSignatures hsame.agree_coAttestation

/-- The certificates agree but for the string of the client's signature. -/
theorem agree_withoutCoSignature : Agree environment.platform.float
    (withoutCoSignature certificate) (withoutCoSignature certificate') := by
  have hrest : Agree environment.platform.float
      ((clientProjection certificate).erase "signatures")
      ((clientProjection certificate').erase "signatures") :=
    hsame.agree.erase hsame.genuine.typed_projection.hasCanonicalText
      hsame.genuine'.typed_projection.hasCanonicalText
  rw [clientProjection, clientProjection, PyValue.erase_assign, PyValue.erase_assign] at hrest
  exact Agree.assign hsame.genuine.typed.hasCanonicalText hsame.genuine'.typed.hasCanonicalText
    (hsame.genuine.typed.field.assign hsame.genuine.typed.field.field.erase).hasCanonicalText
    (hsame.genuine'.typed.field.assign
      hsame.genuine'.typed.field.field.erase).hasCanonicalText
    hsame.genuine.accepted.validated.isDict hsame.genuine'.accepted.validated.isDict hrest
    hsame.agree_signatures

end SameProjection

/-- Projections signed as the same bytes, or stated with the same digest, agree or collide. -/
theorem agree_projection_or_collision {environment : Environment}
    {certificate certificate' : PyValue}
    {issuerPublicKey issuerPublicKey' : environment.platform.PublicKey}
    {context context' : VerificationContext environment.platform}
    {policy policy' : RelyingPartyPolicy}
    (hgenuine : Genuine environment certificate issuerPublicKey context policy)
    (hgenuine' : Genuine environment certificate' issuerPublicKey' context' policy')
    (hcarried : (signaturesOf certificate).hasKey "co_attestation" = true)
    (hcarried' : (signaturesOf certificate').hasKey "co_attestation" = true)
    (hsigned : signingBytes environment.platform certificate =
        signingBytes environment.platform certificate' ∨
      (coAttestationOf certificate).field "signed_manifest_digest" =
        (coAttestationOf certificate').field "signed_manifest_digest") :
    Agree environment.platform.float (clientProjection certificate)
        (clientProjection certificate') ∨
      Collision environment.platform.sha256
        [rolePreimage environment.platform clientCertificateDomain
          (clientProjection certificate)]
        [rolePreimage environment.platform clientCertificateDomain
          (clientProjection certificate')] := by
  obtain ⟨hframable, hdigest⟩ := hgenuine.coSigned hcarried
  obtain ⟨hframable', hdigest'⟩ := hgenuine'.coSigned hcarried'
  rcases hsigned with hbytes | hdigests
  · rw [signingBytes, signingBytes, List.append_cancel_left_eq] at hbytes
    exact Or.inl (utf8_injective
      (lengthPrefixedAll_singleton_inj hframable hframable' hbytes))
  · rw [hdigest, hdigest', signedManifestDigest, signedManifestDigest, digestValue,
      digestValue, Tree.leaf.injEq, Atom.str.injEq] at hdigests
    exact agree_or_collision environment.platform hdigests

/-- In every accepted certificate the claims that need the client are printed exactly when
its block verified under the key in the key ring, and under that key's ref; and two
accepted certificates whose clients signed the same bytes, or state the same digest, agree
but for the client's string, or exhibit two texts of one digest. -/
theorem client_signature_covers {environment : Environment}
    {certificate certificate' : PyValue}
    {issuerPublicKey issuerPublicKey' : environment.platform.PublicKey}
    {context context' : VerificationContext environment.platform}
    {policy policy' : RelyingPartyPolicy}
    (hschema : ∀ v, environment.certificateSchema v = true → ClosedCertificate v)
    (hwellFormed : certificate.WellFormed) (hwellFormed' : certificate'.WellFormed)
    (hverify : verifyCertificate environment certificate issuerPublicKey context policy =
      .ok ())
    (hverify' : verifyCertificate environment certificate' issuerPublicKey' context'
      policy' = .ok ()) :
    (∃ claims, indexItems certificate "claims" = .ok claims ∧
      ((∃ claim ∈ claims, NeedsClient claim) ↔
        ∃ clientPublicKey, context.clientPublicKey = some clientPublicKey ∧
          CoVerified environment certificate context clientPublicKey) ∧
      ∀ claim ∈ claims, NeedsClient claim →
        ∃ clientPublicKey, context.clientPublicKey = some clientPublicKey ∧
          deriveClientKeyRef environment.platform context.expectedProjectRef
            ((ringOf (unsignedOf certificate)).field "client_signature_algorithm")
            clientPublicKey =
              .ok (((claim.field "payload").field "params").field "client_key_ref")) ∧
    ((signaturesOf certificate).hasKey "co_attestation" = true →
      (signaturesOf certificate').hasKey "co_attestation" = true →
      (signingBytes environment.platform certificate =
          signingBytes environment.platform certificate' ∨
        (coAttestationOf certificate).field "signed_manifest_digest" =
          (coAttestationOf certificate').field "signed_manifest_digest") →
      Agree environment.platform.float (withoutCoSignature certificate)
          (withoutCoSignature certificate') ∨
        Collision environment.platform.sha256
          [rolePreimage environment.platform clientCertificateDomain
            (clientProjection certificate)]
          [rolePreimage environment.platform clientCertificateDomain
            (clientProjection certificate')]) := by
  rw [verifyCertificate_eq_ok_iff, verify_eq_ok_iff] at hverify hverify'
  have hgenuine : Genuine environment certificate issuerPublicKey context policy :=
    ⟨hwellFormed, hschema _ hverify.validated.schema, hverify⟩
  have hgenuine' : Genuine environment certificate' issuerPublicKey' context' policy' :=
    ⟨hwellFormed', hschema _ hverify'.validated.schema, hverify'⟩
  refine ⟨needsClient_iff_coVerified hverify, ?_⟩
  intro hcarried hcarried' hsigned
  rcases agree_projection_or_collision hgenuine hgenuine' hcarried hcarried' hsigned with
    hagree | hcollision
  · exact Or.inl (SameProjection.agree_withoutCoSignature
      ⟨hgenuine, hgenuine', hcarried, hcarried', hagree⟩)
  · exact Or.inr hcollision

end TraigentSchema.AgentCertificate
