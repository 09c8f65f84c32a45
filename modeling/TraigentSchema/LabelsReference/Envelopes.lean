import TraigentSchema.LabelsReference.Agreement
import TraigentSchema.LabelsReference.Hpke
import TraigentSchema.LabelsReference.Padding

/-!
# Label envelopes

A label is padded and sealed to a project key, bound to where it belongs by the associated
data.  Under ideal encryption an envelope opens to a text exactly when it carries a sealing of
that text for the place it is opened at.  Opening fails with the module's own error unless a
member is missing or a decoded key cannot be loaded.
-/

namespace TraigentSchema.LabelsReference

open TraigentSchema.Hashing
open TraigentSchema.Python
open TraigentSchema.Traverse
open TraigentSchema.Unicode

/-! ## Envelopes and contexts -/

/-- A dictionary offered as an envelope. -/
structure Envelope where
  value : PyValue
  isDict : value.isDict = true
  wellFormed : value.WellFormed

/-- `envelope[name]`. -/
def Envelope.index (envelope : Envelope) (name : String) : Result Value :=
  match hmember : envelope.value.member name with
  | some w => .ok ⟨w, PyValue.wellFormed_member envelope.wellFormed hmember⟩
  | none => .error .other

/-- The keyword arguments of `open_label`. -/
structure OpenContext where
  tenantRef : Value
  projectRef : Value
  purpose : Value
  objectRef : Value
  revision : Value

/-- The context with the epoch an envelope claims. -/
def OpenContext.withEpoch (context : OpenContext) (epoch : Value) : LabelContext where
  tenantRef := context.tenantRef
  projectRef := context.projectRef
  purpose := context.purpose
  objectRef := context.objectRef
  keyEpoch := epoch
  revision := context.revision

def LabelContext.opening (context : LabelContext) : OpenContext where
  tenantRef := context.tenantRef
  projectRef := context.projectRef
  purpose := context.purpose
  objectRef := context.objectRef
  revision := context.revision

def hpkeInfoLabel : Bytes := utf8 (text "traigent.label.v1")

def b64Value (data : Bytes) : Value :=
  ⟨.leaf (.str (b64u data)), by simp⟩

/-- What `seal_label` returns. -/
def envelopeOf (epoch : Value) (enc ciphertext : Bytes) : Envelope where
  value := .object [("version", labelVersion), ("key_epoch", epoch),
    ("enc", b64Value enc), ("ciphertext", b64Value ciphertext)]
  isDict := rfl
  wellFormed := wellFormed_object (by simp) (by simp [labelVersion, Subtype.prop])

section Labels

variable (primitives : HpkePrimitives)

def sealLabel (pkProject : Bytes) (t : Text) (context : LabelContext) (ikmE : Bytes) :
    Result Envelope := do
  let aad ← labelAadWithin primitives.stackFull context
  let padded ← pad t
  let (enc, ciphertext) ← hpkeSeal primitives pkProject hpkeInfoLabel aad padded ikmE .aes256
  return envelopeOf context.keyEpoch enc ciphertext

def openLabel (skProject : primitives.PrivateKey) (envelope : Envelope)
    (context : OpenContext) : Result Text := do
  require (pyEq (envelope.value.field "version") labelVersion) "unsupported envelope version"
  let epoch ← envelope.index "key_epoch"
  let enc ← unb64u (← envelope.index "enc")
  let aad ← labelAadWithin primitives.stackFull (context.withEpoch epoch)
  let ciphertext ← unb64u (← envelope.index "ciphertext")
  let padded ← hpkeOpen primitives skProject enc hpkeInfoLabel aad ciphertext .aes256
  unpad padded

/-! ## What opens -/

/-- The envelope's key and ciphertext are a sealing of a text for the context and the epoch the
envelope claims. -/
def Carries (sk : primitives.PrivateKey) (envelope : Envelope) (context : OpenContext)
    (t : Text) : Prop :=
  ∃ epoch ikmE carried, envelope.index "key_epoch" = .ok epoch ∧
    sealLabel primitives (primitives.publicBytes sk) t (context.withEpoch epoch) ikmE =
      .ok carried ∧
    envelope.index "enc" = carried.index "enc" ∧
    envelope.index "ciphertext" = carried.index "ciphertext"

variable {primitives}

/-- A subscript of an envelope returns the member it has. -/
theorem Envelope.index_eq_ok_iff {envelope : Envelope} {name : String} {w : Value} :
    envelope.index name = .ok w ↔ envelope.value.member name = some w.val := by
  rw [Envelope.index]
  split
  · rename_i v hmember
    simp only [Except.ok.injEq, Subtype.ext_iff]
    rw [hmember, Option.some.injEq]
  · rename_i hmember
    simp [hmember]

theorem Envelope.index_eq_error_iff {envelope : Envelope} {name : String} {failure : Failure} :
    envelope.index name = .error failure ↔
      envelope.value.hasKey name = false ∧ failure = .other := by
  rw [Envelope.index, PyValue.hasKey]
  split
  · rename_i v hmember
    simp [hmember]
  · rename_i hmember
    simp [hmember, eq_comm]

theorem index_envelopeOf (epoch : Value) (enc ciphertext : Bytes) :
    (envelopeOf epoch enc ciphertext).index "key_epoch" = .ok epoch ∧
      (envelopeOf epoch enc ciphertext).index "enc" = .ok (b64Value enc) ∧
      (envelopeOf epoch enc ciphertext).index "ciphertext" = .ok (b64Value ciphertext) := by
  simp only [Envelope.index_eq_ok_iff, envelopeOf, PyValue.member_object]
  exact ⟨rfl, rfl, rfl⟩

theorem version_envelopeOf (epoch : Value) (enc ciphertext : Bytes) :
    pyEq ((envelopeOf epoch enc ciphertext).value.field "version") labelVersion = true := by
  have hversion : (envelopeOf epoch enc ciphertext).value.field "version" = labelVersion := by
    rw [envelopeOf, PyValue.field_object]
    rfl
  rw [hversion]
  decide

/-- A label is sealed when its context is written, its text padded and the cipher succeeds. -/
theorem sealLabel_eq_ok_iff {pk : Bytes} {t : Text} {context : LabelContext} {ikmE : Bytes}
    {envelope : Envelope} :
    sealLabel primitives pk t context ikmE = .ok envelope ↔
      ∃ aad padded enc ciphertext, labelAadWithin primitives.stackFull context = .ok aad ∧
        pad t = .ok padded ∧
        hpkeSeal primitives pk hpkeInfoLabel aad padded ikmE .aes256 = .ok (enc, ciphertext) ∧
        envelope = envelopeOf context.keyEpoch enc ciphertext := by
  simp only [sealLabel, bind_eq_ok_iff, pure_eq_ok, Except.ok.injEq, Prod.exists]
  constructor
  · rintro ⟨aad, haad, padded, hpadded, enc, ciphertext, hseal, rfl⟩
    exact ⟨aad, padded, enc, ciphertext, haad, hpadded, hseal, rfl⟩
  · rintro ⟨aad, padded, enc, ciphertext, haad, hpadded, hseal, rfl⟩
    exact ⟨aad, haad, padded, hpadded, enc, ciphertext, hseal, rfl⟩

/-- Only the unpadded text of bytes is decoded to them. -/
theorem unb64u_eq_ok_iff {v : Value} {raw : Bytes} :
    unb64u v.val = .ok raw ↔ v = b64Value raw := by
  constructor
  · intro hv
    exact Subtype.ext (b64u_of_unb64u hv)
  · rintro rfl
    exact unb64u_b64u raw

/-- Different bytes have different texts. -/
theorem b64Value_injective : Function.Injective b64Value := by
  intro left right heq
  have hraw := unb64u_eq_ok_iff.mpr heq
  exact (Except.ok.inj ((unb64u_b64u left).symm.trans hraw))

/-- A label is opened step by step: its version, its members, and what they decode to. -/
theorem openLabel_eq_ok_iff_steps {sk : primitives.PrivateKey} {envelope : Envelope}
    {context : OpenContext} {t : Text} :
    openLabel primitives sk envelope context = .ok t ↔
      pyEq (envelope.value.field "version") labelVersion = true ∧
        ∃ epoch enc aad ciphertext padded, envelope.index "key_epoch" = .ok epoch ∧
          envelope.index "enc" = .ok (b64Value enc) ∧
          labelAadWithin primitives.stackFull (context.withEpoch epoch) = .ok aad ∧
          envelope.index "ciphertext" = .ok (b64Value ciphertext) ∧
          hpkeOpen primitives sk enc hpkeInfoLabel aad ciphertext .aes256 = .ok padded ∧
          pad t = .ok padded := by
  simp only [openLabel, bind_eq_ok_iff, unb64u_eq_ok_iff, unpad_eq_ok_iff, require,
    ite_eq_left_iff, reduceCtorEq, imp_false, not_not]
  constructor
  · rintro ⟨_, hversion, epoch, hepoch, _, henc, enc, rfl, aad, haad, _, hciphertext,
      ciphertext, rfl, padded, hopen, hpad⟩
    exact ⟨hversion, epoch, enc, aad, ciphertext, padded, hepoch, henc, haad, hciphertext, hopen,
      hpad⟩
  · rintro ⟨hversion, epoch, enc, aad, ciphertext, padded, hepoch, henc, haad, hciphertext, hopen,
      hpad⟩
    exact ⟨(), hversion, epoch, hepoch, _, henc, enc, rfl, aad, haad, _, hciphertext,
      ciphertext, rfl, padded, hopen, hpad⟩

variable (hideal : Ideal primitives)
include hideal

/-- What was sealed is opened with what was sealed. -/
theorem hpkeOpen_of_hpkeSeal {sk : primitives.PrivateKey} {info aad plaintext ikmE : Bytes}
    {aeadId : AeadId} {enc ciphertext : Bytes}
    (hseal : hpkeSeal primitives (primitives.publicBytes sk) info aad plaintext ikmE aeadId =
      .ok (enc, ciphertext)) :
    hpkeOpen primitives sk enc info aad ciphertext aeadId = .ok plaintext := by
  obtain ⟨enc', ciphertext', hseal', hopen⟩ := hideal.opens sk info aad plaintext ikmE aeadId
  obtain ⟨rfl, rfl⟩ := Prod.mk.inj (Except.ok.inj (hseal.symm.trans hseal'))
  exact hopen

/-- An envelope opens to a text exactly when it carries a sealing of that text. -/
theorem openLabel_eq_ok_iff {sk : primitives.PrivateKey} {envelope : Envelope}
    {context : OpenContext} {t : Text} :
    openLabel primitives sk envelope context = .ok t ↔
      pyEq (envelope.value.field "version") labelVersion = true ∧
        Carries primitives sk envelope context t := by
  rw [openLabel_eq_ok_iff_steps]
  refine and_congr_right fun _ => ?_
  constructor
  · rintro ⟨epoch, enc, aad, ciphertext, padded, hepoch, henc, haad, hciphertext, hopen, hpad⟩
    obtain ⟨ikmE, hseal⟩ := hideal.onlySealed hopen
    obtain ⟨-, henc', hciphertext'⟩ := index_envelopeOf epoch enc ciphertext
    exact ⟨epoch, ikmE, envelopeOf epoch enc ciphertext, hepoch,
      sealLabel_eq_ok_iff.mpr ⟨aad, padded, enc, ciphertext, haad, hpad, hseal, rfl⟩,
      henc.trans henc'.symm, hciphertext.trans hciphertext'.symm⟩
  · rintro ⟨epoch, ikmE, carried, hepoch, hcarried, henc, hciphertext⟩
    obtain ⟨aad, padded, enc, ciphertext, haad, hpad, hseal, rfl⟩ :=
      sealLabel_eq_ok_iff.mp hcarried
    obtain ⟨-, henc', hciphertext'⟩ := index_envelopeOf epoch enc ciphertext
    exact ⟨epoch, enc, aad, ciphertext, padded, hepoch, henc.trans henc', haad,
      hciphertext.trans hciphertext', hpkeOpen_of_hpkeSeal hideal hseal, hpad⟩

omit hideal

/-! ## What escapes -/

/-- No exception of another class is raised: once the version is right, the epoch and the
encapsulated key are there; a key that can be decoded is opened under associated data that can
be written, with a ciphertext that is there, and one that can be decoded meets a key that can be
loaded. -/
def Contained (sk : primitives.PrivateKey) (envelope : Envelope) (context : OpenContext) :
    Prop :=
  pyEq (envelope.value.field "version") labelVersion = true →
    envelope.value.hasKey "key_epoch" = true ∧ envelope.value.hasKey "enc" = true ∧
    ∀ epoch enc, envelope.index "key_epoch" = .ok epoch →
      envelope.index "enc" = .ok (b64Value enc) →
      labelAadWithin primitives.stackFull (context.withEpoch epoch) ≠ .error .other ∧
      ∀ aad, labelAadWithin primitives.stackFull (context.withEpoch epoch) = .ok aad →
        envelope.value.hasKey "ciphertext" = true ∧
        ∀ ciphertext, envelope.index "ciphertext" = .ok (b64Value ciphertext) → Loads sk enc

theorem exists_index_of_hasKey {envelope : Envelope} {name : String}
    (hkey : envelope.value.hasKey name = true) : ∃ w, envelope.index name = .ok w := by
  cases hindex : envelope.index name with
  | ok w => exact ⟨w, rfl⟩
  | error failure =>
      rw [(Envelope.index_eq_error_iff.mp hindex).1] at hkey
      cases hkey

/-- A subscript of an envelope raises for a missing member only. -/
theorem Envelope.index_ne_other_iff {envelope : Envelope} {name : String} :
    envelope.index name ≠ .error .other ↔ envelope.value.hasKey name = true := by
  rw [ne_eq, Envelope.index_eq_error_iff]
  simp

/-- Unpadding fails with the error of the module only. -/
theorem unpad_ne_other (padded : Bytes) : unpad padded ≠ .error .other := by
  intro hother
  rcases unpad_ok_or_labelCrypto padded with ⟨t, ht⟩ | ⟨message, hmessage⟩
  · cases ht.symm.trans hother
  · cases hmessage.symm.trans hother

/-- Nothing else escapes exactly when the envelope is contained. -/
theorem openLabel_ne_other_iff {sk : primitives.PrivateKey} {envelope : Envelope}
    {context : OpenContext} :
    openLabel primitives sk envelope context ≠ .error .other ↔
      Contained sk envelope context := by
  have hrequire : ∀ {u : Unit}, require (pyEq (envelope.value.field "version") labelVersion)
      "unsupported envelope version" = .ok u ↔
        pyEq (envelope.value.field "version") labelVersion = true := by
    simp [require]
  simp only [openLabel, bind_ne_other_iff, require_ne_other, Envelope.index_ne_other_iff,
    unb64u_ne_other, hpkeOpen_ne_other_iff, unpad_ne_other, unb64u_eq_ok_iff, hrequire, ne_eq,
    not_false_eq_true, true_and, and_true, implies_true, Contained]
  constructor
  · intro h hversion
    obtain ⟨hepoch, hrest⟩ := h () hversion
    obtain ⟨epoch, hindex⟩ := exists_index_of_hasKey hepoch
    refine ⟨hepoch, (hrest epoch hindex).1, fun epoch' enc hindex' henc => ?_⟩
    obtain ⟨hwritten, hlater⟩ := (hrest epoch' hindex').2 _ henc enc rfl
    exact ⟨hwritten, fun aad haad => ⟨(hlater aad haad).1, fun ciphertext hciphertext =>
      (hlater aad haad).2 _ hciphertext ciphertext rfl⟩⟩
  · intro h _ hversion
    obtain ⟨hepoch, hkey, hrest⟩ := h hversion
    refine ⟨hepoch, fun epoch hindex => ⟨hkey, ?_⟩⟩
    rintro _ henc enc rfl
    obtain ⟨hwritten, hlater⟩ := hrest epoch enc hindex henc
    refine ⟨hwritten, fun aad haad => ⟨(hlater aad haad).1, ?_⟩⟩
    rintro _ hciphertext ciphertext rfl
    exact (hlater aad haad).2 ciphertext hciphertext

/-- A text is returned or the module's own error raised. -/
theorem openLabel_fails_closed_iff {sk : primitives.PrivateKey} {envelope : Envelope}
    {context : OpenContext} :
    (∃ t, openLabel primitives sk envelope context = .ok t) ∨
        (openLabel primitives sk envelope context).IsLabelCryptoError ↔
      Contained sk envelope context := by
  rw [← openLabel_ne_other_iff]
  cases openLabel primitives sk envelope context with
  | ok t => simp
  | error failure => cases failure <;> simp [Result.IsLabelCryptoError]

/-- A failure that is no other exception is the error of the module. -/
theorem isLabelCryptoError_iff {A : Type} {result : Result A} :
    result.IsLabelCryptoError ↔ result ≠ .error .other ∧ ∀ a, result ≠ .ok a := by
  cases result with
  | ok a => simp [Result.IsLabelCryptoError]
  | error failure => cases failure <;> simp [Result.IsLabelCryptoError]

/-! ## The envelope in its context -/

/-- The same typed values, field by field. -/
structure LabelContext.Same (context context' : LabelContext) : Prop where
  tenantRef : context.tenantRef.Same context'.tenantRef
  projectRef : context.projectRef.Same context'.projectRef
  purpose : context.purpose.Same context'.purpose
  objectRef : context.objectRef.Same context'.objectRef
  keyEpoch : context.keyEpoch.Same context'.keyEpoch
  revision : context.revision.Same context'.revision

/-- Two envelopes with one key and ciphertext. -/
def SamePair (envelope envelope' : Envelope) : Prop :=
  envelope'.index "enc" = envelope.index "enc" ∧
    envelope'.index "ciphertext" = envelope.index "ciphertext"

/-- An envelope that replaces a sealed one in its context, with other members or opened at
another place. -/
def Changed (context : LabelContext) (envelope envelope' : Envelope) (context' : OpenContext) :
    Prop :=
  ¬(SamePair envelope envelope' ∧
    ∃ epoch, envelope'.index "key_epoch" = .ok epoch ∧ context.Same (context'.withEpoch epoch))

/-- The pair of the replacement is itself a sealing for the context it is opened in; anyone with
the public key can make one. -/
def Resealed (sk : primitives.PrivateKey) (envelope' : Envelope) (context' : OpenContext) : Prop :=
  pyEq (envelope'.value.field "version") labelVersion = true ∧
    ∃ t, Carries primitives sk envelope' context' t

/-- One key and ciphertext is a sealing under two different associated data. -/
def SealedTwice (sk : primitives.PrivateKey) (envelope : Envelope) : Prop :=
  ∃ enc ciphertext aad aad', aad ≠ aad' ∧ envelope.index "enc" = .ok (b64Value enc) ∧
    envelope.index "ciphertext" = .ok (b64Value ciphertext) ∧
    ∀ data ∈ [aad, aad'], ∃ plaintext ikmE,
      hpkeSeal primitives (primitives.publicBytes sk) hpkeInfoLabel data plaintext ikmE .aes256 =
        .ok (enc, ciphertext)

/-- A pair that is left as it is and opens in another context is a sealing under two associated
data, since no two contexts have the same. -/
theorem sealedTwice_of_carries {sk : primitives.PrivateKey} {t t' : Text}
    {context : LabelContext} {ikmE : Bytes} {envelope envelope' : Envelope}
    {context' : OpenContext}
    (hseal : sealLabel primitives (primitives.publicBytes sk) t context ikmE = .ok envelope)
    (hchanged : Changed context envelope envelope' context')
    (hpair : SamePair envelope envelope') (hcarries : Carries primitives sk envelope' context' t') :
    SealedTwice sk envelope := by
  obtain ⟨aad, padded, enc, ciphertext, haad, -, hsealed, rfl⟩ := sealLabel_eq_ok_iff.mp hseal
  obtain ⟨epoch, ikmE', carried, hepoch, hcarried, henc, hciphertext⟩ := hcarries
  obtain ⟨aad', padded', enc', ciphertext', haad', -, hsealed', rfl⟩ :=
    sealLabel_eq_ok_iff.mp hcarried
  obtain ⟨-, henc₁, hciphertext₁⟩ := index_envelopeOf context.keyEpoch enc ciphertext
  obtain ⟨-, henc₂, hciphertext₂⟩ :=
    index_envelopeOf (context'.withEpoch epoch).keyEpoch enc' ciphertext'
  rw [hpair.1, henc₁, henc₂, Except.ok.injEq] at henc
  rw [hpair.2, hciphertext₁, hciphertext₂, Except.ok.injEq] at hciphertext
  obtain rfl := b64Value_injective henc
  obtain rfl := b64Value_injective hciphertext
  refine ⟨enc, ciphertext, aad, aad', ?_, henc₁, hciphertext₁, ?_⟩
  · rintro rfl
    obtain ⟨htenant, hproject, hpurpose, hobject, hkeyEpoch, hrevision⟩ :=
      labelAad_injective (labelAad_of_within haad) (labelAad_of_within haad')
    exact hchanged ⟨hpair, epoch, hepoch, htenant, hproject, hpurpose, hobject, hkeyEpoch,
      hrevision⟩
  · simp only [List.forall_mem_cons]
    exact ⟨⟨padded, ikmE, hsealed⟩, ⟨padded', ikmE', hsealed'⟩, by simp⟩

/-- Sealing and opening in one context gives the label back.  An envelope that was changed, or is
opened in another context, is refused with the module's own error exactly when nothing escapes
and it has not been sealed for that context too, which its old pair can only be as a sealing under
two associated data.  And whatever dictionary is opened, a text is returned or that error is raised
exactly when nothing escapes. -/
theorem label_envelopes_exact (hideal : Ideal primitives) :
    (∀ sk t context ikmE, (∃ padded, pad t = .ok padded) →
      (∃ aad, labelAadWithin primitives.stackFull context = .ok aad) →
      ∃ envelope, sealLabel primitives (primitives.publicBytes sk) t context ikmE =
          .ok envelope ∧
        openLabel primitives sk envelope context.opening = .ok t) ∧
      (∀ sk t context ikmE envelope envelope' context',
        sealLabel primitives (primitives.publicBytes sk) t context ikmE = .ok envelope →
        Changed context envelope envelope' context' →
        ((openLabel primitives sk envelope' context').IsLabelCryptoError ↔
          Contained sk envelope' context' ∧ ¬Resealed sk envelope' context') ∧
        (SamePair envelope envelope' → Resealed sk envelope' context' →
          SealedTwice sk envelope)) ∧
      ∀ sk envelope context, (∃ t, openLabel primitives sk envelope context = .ok t) ∨
          (openLabel primitives sk envelope context).IsLabelCryptoError ↔
        Contained sk envelope context := by
  refine ⟨?_, ?_, fun sk envelope context => openLabel_fails_closed_iff⟩
  · rintro sk t context ikmE ⟨padded, hpad⟩ ⟨aad, haad⟩
    obtain ⟨enc, ciphertext, hseal, hopen⟩ :=
      hideal.opens sk hpkeInfoLabel aad padded ikmE .aes256
    have hsealed := sealLabel_eq_ok_iff.mpr ⟨aad, padded, enc, ciphertext, haad, hpad, hseal, rfl⟩
    obtain ⟨hepoch, henc, hciphertext⟩ := index_envelopeOf context.keyEpoch enc ciphertext
    refine ⟨_, hsealed, openLabel_eq_ok_iff_steps.mpr ⟨?_, context.keyEpoch, enc, aad, ciphertext,
      padded, hepoch, henc, haad, hciphertext, hopen, hpad⟩⟩
    exact version_envelopeOf context.keyEpoch enc ciphertext
  · intro sk t context ikmE envelope envelope' context' hseal hchanged
    refine ⟨?_, fun hpair hresealed => ?_⟩
    · rw [isLabelCryptoError_iff, openLabel_ne_other_iff]
      refine and_congr_right fun _ => ⟨fun hnone ⟨hversion, t', hcarries⟩ => ?_,
        fun hresealed t' hopen => hresealed ?_⟩
      · exact hnone t' ((openLabel_eq_ok_iff hideal).mpr ⟨hversion, hcarries⟩)
      · obtain ⟨hversion, hcarries⟩ := (openLabel_eq_ok_iff hideal).mp hopen
        exact ⟨hversion, t', hcarries⟩
    · obtain ⟨-, t', hcarries⟩ := hresealed
      exact sealedTwice_of_carries hseal hchanged hpair hcarries

end Labels

/-! ## The first label of the conformance vectors

The keys, the secrets they share, the associated data and the ciphertext are those of the
published vectors.  Anything else is sealed with a tag of sixteen bytes over all of it. -/

/-- The project's key pair and the writer's. -/
inductive VectorKey where
  | project
  | writer
  deriving DecidableEq

def bytesOf (first second : String) : Bytes :=
  fromHex (text first ++ text second)

def projectIkm : Bytes :=
  bytesOf "53af3446ac86295830ae9b51107e5272" "cf8165e017952f9feb360af59b3fea1f"

def projectScalar : Bytes :=
  bytesOf "8bf64567d6bd8ef5bbf6f65b2c573f4f" "dce9a93ae50991a1a0d764321a458c0f"

def writerIkm : Bytes :=
  bytesOf "2af226acd6e96060b286be2e1ec90e87" "e32650b9ed183f36c19bb6918830bb8f"

def VectorKey.publicBytes : VectorKey → Bytes
  | .project =>
      bytesOf "5b825d7bde6206589017cb33932b5b0e" "c49888c8a81a2f73c707644582d7e525"
  | .writer =>
      bytesOf "9bdc9975895dc4a0c10fdf30fe59c53d" "a1919a99ce91260574ae9fdf5029c82e"

def VectorKey.shared : VectorKey → VectorKey → Bytes
  | .project, .project =>
      bytesOf "82c2d8b3955d8bc53926c5e0d5c983f7" "784bf03e7b97a38b9a9d90717074071e"
  | .writer, .writer =>
      bytesOf "7be79a7401bf47f91e901095bafabdbb" "96b77c64ef7c1156b5cb7da63fe1c779"
  | _, _ =>
      bytesOf "4487007463172ab2bb4d9f2b2151ae45" "05030ac5f3f061fe3a1958984b8eca16"

def vectorText : Text := text "Customer support triage agent"

def vectorPadded : Bytes := utf8 vectorText ++ [0x80, 0, 0]

def vectorContext (revision : ℤ) : LabelContext where
  tenantRef := strArgument "tenant_7c0b2f6e5d1a4f3e9a410c2d8e6b1f01"
  projectRef := strArgument "project_3a9e4d108b274c65b1f25e7a90c4d202"
  purpose := strArgument "label"
  objectRef := strArgument "agentref_1fd55a1c631df55176a0db51fd7a99d7"
  keyEpoch := leafArgument (.int 1)
  revision := leafArgument (.int revision)

def vectorAad (revision : String) : Bytes :=
  utf8 (text "\x7b\"key_epoch\":1,\"object_ref\":" ++
    text "\"agentref_1fd55a1c631df55176a0db51fd7a99d7\"," ++
    text "\"project_ref\":" ++ text "\"project_3a9e4d108b274c65b1f25e7a90c4d202\"," ++
    text "\"purpose\":\"label\",\"revision\":" ++ text revision ++
    text ",\"schema_version\":1,\"tenant_ref\":" ++
    text "\"tenant_7c0b2f6e5d1a4f3e9a410c2d8e6b1f01\"\x7d")

def vectorCiphertext : Bytes :=
  bytesOf "16f2cdcbfd00c31f95fa4ac4f21c3d17" "a5084c397edbb087cc390304e57ddc4e" ++
    bytesOf "83d76bff70c58cc2" "6f8f590ded766783"

def tagOf (aad plaintext : Bytes) : Bytes :=
  i2osp ((i2osp aad.length 8 ++ aad ++ plaintext).foldl
    (fun tag byte => (257 * tag + byte.val) % 2 ^ 128) 0) 16

/-- The plaintext and the associated data of the vector. -/
def IsVector (aad plaintext : Bytes) : Prop :=
  aad = vectorAad "1" ∧ plaintext = vectorPadded

instance (aad plaintext : Bytes) : Decidable (IsVector aad plaintext) :=
  inferInstanceAs (Decidable (_ ∧ _))

def vectorEncrypt (aad plaintext : Bytes) : Bytes :=
  if IsVector aad plaintext then vectorCiphertext else plaintext ++ tagOf aad plaintext

def vectorDecrypt (aad ciphertext : Bytes) : Option Bytes :=
  if aad = vectorAad "1" ∧ ciphertext = vectorCiphertext then some vectorPadded
  else
    let plaintext := ciphertext.take (ciphertext.length - 16)
    if ciphertext = plaintext ++ tagOf aad plaintext ∧ ¬ IsVector aad plaintext then
      some plaintext
    else none

def vectorExchange (sk : VectorKey) (pk : Bytes) : Bytes :=
  if pk = VectorKey.project.publicBytes then sk.shared .project
  else if pk = VectorKey.writer.publicBytes then sk.shared .writer
  else List.replicate 32 0

def vectorKeyOf (scalar : Bytes) : VectorKey :=
  if scalar = projectScalar then .project else .writer

def vectorPrimitives : HpkePrimitives where
  PrivateKey := VectorKey
  fromPrivateBytes := vectorKeyOf
  publicBytes := VectorKey.publicBytes
  exchange sk pk := some (vectorExchange sk pk)
  encrypt _ _ _ plaintext aad := vectorEncrypt aad plaintext
  decrypt _ _ _ ciphertext aad := vectorDecrypt aad ciphertext
  stackFull depth _ := decide (300 ≤ depth)

theorem vectorKey_sound (sk other : VectorKey) : sk.publicBytes.length = 32 ∧
    sk.shared other ≠ List.replicate 32 0 := by
  cases sk <;> cases other <;> decide

theorem publicBytes_ne : VectorKey.writer.publicBytes ≠ VectorKey.project.publicBytes := by
  decide

/-- The scalar that a key pair is derived from. -/
def scalarOf (ikm : Bytes) : Bytes :=
  labeledExpand kemSuite (labeledExtract kemSuite [] (utf8 (text "dkp_prk")) ikm)
    (utf8 (text "sk")) [] 32

theorem vectorKeyOf_projectIkm : vectorKeyOf (scalarOf projectIkm) = .project := by
  decide +kernel

theorem vectorKeyOf_writerIkm : vectorKeyOf (scalarOf writerIkm) = .writer := by
  decide +kernel

/-- The tag of the sample has the length of a real one. -/
theorem length_tagOf (aad plaintext : Bytes) : (tagOf aad plaintext).length = 16 := by
  simp [tagOf, i2osp]

/-- The ciphertext of the vector does not end in a tag for these associated data. -/
theorem tagOf_vectorCiphertext : ∀ revision ∈ ["1", "2"],
    tagOf (vectorAad revision) (vectorCiphertext.take 32) ≠ vectorCiphertext.drop 32 := by
  decide +kernel

/-- No text under another context has the ciphertext of the published vector. -/
theorem tagged_ne_vectorCiphertext {revision : String} (hrevision : revision ∈ ["1", "2"])
    (plaintext : Bytes) :
    plaintext ++ tagOf (vectorAad revision) plaintext ≠ vectorCiphertext := by
  intro heq
  have hlength : plaintext.length = 32 := by
    have hsum := congrArg List.length heq
    rw [List.length_append, length_tagOf] at hsum
    have hvector : vectorCiphertext.length = 48 := by decide
    omega
  refine tagOf_vectorCiphertext revision hrevision ?_
  rw [← heq, List.take_left' hlength, List.drop_left' hlength]

/-- The sample cipher opens exactly what it has sealed. -/
theorem vectorDecrypt_eq_some_iff {aad ciphertext plaintext : Bytes} :
    vectorDecrypt aad ciphertext = some plaintext ↔ ciphertext = vectorEncrypt aad plaintext := by
  rw [vectorDecrypt, vectorEncrypt]
  constructor
  · intro hdecrypt
    split_ifs at hdecrypt with hvector
    · rw [← Option.some.inj hdecrypt, if_pos ⟨hvector.1, Eq.refl vectorPadded⟩, hvector.2]
    · dsimp only at hdecrypt
      split_ifs at hdecrypt with htagged
      rw [← Option.some.inj hdecrypt, if_neg htagged.2]
      exact htagged.1
  · rintro rfl
    by_cases hvector : IsVector aad plaintext
    · rw [if_pos hvector, if_pos ⟨hvector.1, Eq.refl vectorCiphertext⟩, hvector.2]
    · have hother :
          ¬(aad = vectorAad "1" ∧ plaintext ++ tagOf aad plaintext = vectorCiphertext) := by
        intro hboth
        have heq := hboth.2
        rw [hboth.1] at heq
        exact tagged_ne_vectorCiphertext (by simp) plaintext heq
      have htake : (plaintext ++ tagOf aad plaintext).take
          ((plaintext ++ tagOf aad plaintext).length - 16) = plaintext := by
        rw [List.length_append, length_tagOf, Nat.add_sub_cancel, List.take_left]
      rw [if_neg hvector, if_neg hother]
      dsimp only
      rw [htake, if_pos ⟨Eq.refl (plaintext ++ tagOf aad plaintext), hvector⟩]

theorem vectorExchange_publicBytes (sk other : VectorKey) :
    vectorExchange sk other.publicBytes = sk.shared other := by
  rw [vectorExchange]
  cases other with
  | project => exact if_pos rfl
  | writer => rw [if_neg publicBytes_ne, if_pos rfl]

/-- A key that is neither of the two is of low order. -/
theorem dh_vectorPrimitives_eq (sk : VectorKey) (pk : Bytes) : dh vectorPrimitives sk pk =
    if pk.length ≠ 32 then .error .other
    else if vectorExchange sk pk = List.replicate 32 0 then
      .error (.labelCrypto "low-order point")
    else .ok (vectorExchange sk pk) := rfl

/-- The exchange of the sample succeeds with every key it knows. -/
theorem dh_vectorPrimitives (sk : VectorKey) (pk : Bytes) :
    (∃ shared, dh vectorPrimitives sk pk = .ok shared) ↔
      ∃ other : VectorKey, pk = other.publicBytes := by
  rw [dh_vectorPrimitives_eq]
  constructor
  · rintro ⟨shared, hshared⟩
    by_contra hnone
    rw [not_exists] at hnone
    have hlow : vectorExchange sk pk = List.replicate 32 0 :=
      (if_neg (hnone .project)).trans (if_neg (hnone .writer))
    rw [if_pos hlow] at hshared
    split_ifs at hshared
  · rintro ⟨other, rfl⟩
    rw [if_neg (not_not.mpr (vectorKey_sound other other).1), vectorExchange_publicBytes,
      if_neg (vectorKey_sound sk other).2]
    exact ⟨_, rfl⟩

theorem hpkeSeal_vectorPrimitives (sk : VectorKey) (info aad plaintext ikmE : Bytes)
    (aeadId : AeadId) :
    hpkeSeal vectorPrimitives sk.publicBytes info aad plaintext ikmE aeadId =
      .ok ((vectorKeyOf (scalarOf ikmE)).publicBytes, vectorEncrypt aad plaintext) := by
  have hsteps : hpkeSeal vectorPrimitives sk.publicBytes info aad plaintext ikmE aeadId =
      dh vectorPrimitives (vectorKeyOf (scalarOf ikmE)) sk.publicBytes >>= fun _ =>
        .ok ((vectorKeyOf (scalarOf ikmE)).publicBytes, vectorEncrypt aad plaintext) := rfl
  obtain ⟨shared, hshared⟩ :=
    (dh_vectorPrimitives (vectorKeyOf (scalarOf ikmE)) sk.publicBytes).mpr ⟨sk, rfl⟩
  rw [hsteps, hshared]
  rfl

/-- The sample opens exactly what was sealed under the same context. -/
theorem hpkeOpen_vectorPrimitives {sk : VectorKey} {enc info aad ciphertext plaintext : Bytes}
    {aeadId : AeadId} :
    hpkeOpen vectorPrimitives sk enc info aad ciphertext aeadId = .ok plaintext ↔
      (∃ other : VectorKey, enc = other.publicBytes) ∧
        ciphertext = vectorEncrypt aad plaintext := by
  have hsteps : hpkeOpen vectorPrimitives sk enc info aad ciphertext aeadId =
      dh vectorPrimitives sk enc >>= fun _ => (vectorDecrypt aad ciphertext).elim
        (.error (.labelCrypto "authentication failed")) .ok := by
    refine congrArg (dh vectorPrimitives sk enc >>= ·) (funext fun _ => ?_)
    have hdecrypt : ∀ key nonce, vectorPrimitives.decrypt aeadId key nonce ciphertext aad =
        vectorDecrypt aad ciphertext := fun _ _ => rfl
    simp only [hdecrypt]
    cases vectorDecrypt aad ciphertext <;> rfl
  rw [hsteps, bind_eq_ok_iff, ← dh_vectorPrimitives sk enc, ← vectorDecrypt_eq_some_iff,
    ← exists_and_right]
  refine exists_congr fun shared => and_congr_right fun _ => ?_
  cases vectorDecrypt aad ciphertext <;> simp

theorem ideal_vectorPrimitives : Ideal vectorPrimitives where
  opens sk info aad plaintext ikmE aeadId := by
    refine ⟨_, _, hpkeSeal_vectorPrimitives sk info aad plaintext ikmE aeadId, ?_⟩
    exact hpkeOpen_vectorPrimitives.mpr ⟨⟨_, rfl⟩, rfl⟩
  onlySealed := by
    intro sk enc info aad ciphertext aeadId plaintext hopen
    obtain ⟨⟨other, rfl⟩, rfl⟩ := hpkeOpen_vectorPrimitives.mp hopen
    cases other with
    | project =>
        refine ⟨projectIkm, ?_⟩
        exact (hpkeSeal_vectorPrimitives sk info aad plaintext projectIkm aeadId).trans
          (by rw [vectorKeyOf_projectIkm])
    | writer =>
        refine ⟨writerIkm, ?_⟩
        exact (hpkeSeal_vectorPrimitives sk info aad plaintext writerIkm aeadId).trans
          (by rw [vectorKeyOf_writerIkm])

/-- The envelope of the vector. -/
def vectorEnvelope : Envelope :=
  envelopeOf (vectorContext 1).keyEpoch VectorKey.writer.publicBytes vectorCiphertext

theorem labelAadWithin_vectorContext : ∀ revision ∈ [((1 : ℤ), "1"), (2, "2")],
    labelAadWithin vectorPrimitives.stackFull (vectorContext revision.1) =
      .ok (vectorAad revision.2) := by
  decide +kernel

theorem pad_vectorText : pad vectorText = .ok vectorPadded := by
  decide +kernel

/-- The sealed label is the envelope that was published. -/
theorem sealLabel_vectorText :
    sealLabel vectorPrimitives VectorKey.project.publicBytes vectorText (vectorContext 1)
      writerIkm = .ok vectorEnvelope := by
  refine sealLabel_eq_ok_iff.mpr ⟨_, _, _, _, labelAadWithin_vectorContext (1, "1") (by simp),
    pad_vectorText, ?_, rfl⟩
  rw [hpkeSeal_vectorPrimitives .project, vectorKeyOf_writerIkm, vectorEncrypt,
    if_pos ⟨Eq.refl (vectorAad "1"), Eq.refl vectorPadded⟩]

/-- The envelope is not a sealing for the next revision. -/
theorem not_resealed_vectorEnvelope :
    ¬ @Resealed vectorPrimitives VectorKey.project vectorEnvelope (vectorContext 2).opening := by
  rintro ⟨-, t, epoch, ikmE, carried, hepoch, hcarried, -, hciphertext⟩
  obtain ⟨aad, padded, enc, ciphertext, haad, -, hseal, rfl⟩ := sealLabel_eq_ok_iff.mp hcarried
  obtain ⟨hindex, -, hvector⟩ := index_envelopeOf (vectorContext 1).keyEpoch
    VectorKey.writer.publicBytes vectorCiphertext
  obtain rfl : (vectorContext 1).keyEpoch = epoch := Except.ok.inj (hindex.symm.trans hepoch)
  have hwritten := labelAadWithin_vectorContext (2, "2") (by simp)
  obtain rfl : vectorAad "2" = aad := Except.ok.inj (hwritten.symm.trans haad)
  have hsealed := hpkeSeal_vectorPrimitives .project hpkeInfoLabel (vectorAad "2") padded ikmE
    .aes256
  have hpair := Except.ok.inj (hsealed.symm.trans hseal)
  have hsame := hvector.symm.trans (hciphertext.trans
    (index_envelopeOf _ enc ciphertext).2.2)
  have hequal := b64Value_injective (Except.ok.inj hsame)
  have hother : ¬ IsVector (vectorAad "2") padded := by
    rintro ⟨haad, -⟩
    exact absurd haad (by decide +kernel)
  rw [← (Prod.mk.inj hpair).2, vectorEncrypt, if_neg hother] at hequal
  exact tagged_ne_vectorCiphertext (by simp) padded hequal.symm

theorem contained_vectorEnvelope :
    @Contained vectorPrimitives VectorKey.project vectorEnvelope (vectorContext 2).opening := by
  obtain ⟨hepoch, henc, hciphertext⟩ := index_envelopeOf (vectorContext 1).keyEpoch
    VectorKey.writer.publicBytes vectorCiphertext
  have hkey : ∀ {name : String} {w : Value}, vectorEnvelope.index name = .ok w →
      vectorEnvelope.value.hasKey name = true := fun hindex =>
    Envelope.index_ne_other_iff.mp (by simp [hindex])
  refine fun _ => ⟨hkey hepoch, hkey henc, fun epoch enc hepoch' henc' => ?_⟩
  obtain rfl : (vectorContext 1).keyEpoch = epoch := Except.ok.inj (hepoch.symm.trans hepoch')
  obtain rfl := b64Value_injective (Except.ok.inj (henc.symm.trans henc'))
  have hwritten := labelAadWithin_vectorContext (2, "2") (by simp)
  refine ⟨fun hother => ?_, fun aad _ => ⟨hkey hciphertext, fun ciphertext _ => ?_⟩⟩
  · cases hwritten.symm.trans hother
  · exact ⟨(vectorKey_sound .writer .writer).1, rfl⟩

/-- Only the revision differs between the two contexts. -/
theorem changed_vectorEnvelope :
    Changed (vectorContext 1) vectorEnvelope vectorEnvelope (vectorContext 2).opening := by
  rintro ⟨-, epoch, -, hsame⟩
  have hrevision := (Value.same_leaf (by simp) (by simp)).mp hsame.revision
  cases hrevision

/-- The published envelope opens in its context, and in the next revision it does not. -/
theorem label_envelopes_exact_vector :
    openLabel vectorPrimitives VectorKey.project vectorEnvelope (vectorContext 1).opening =
        .ok vectorText ∧
      (openLabel vectorPrimitives VectorKey.project vectorEnvelope
        (vectorContext 2).opening).IsLabelCryptoError := by
  have hexact := label_envelopes_exact ideal_vectorPrimitives
  constructor
  · obtain ⟨envelope, hseal, hopen⟩ := hexact.1 VectorKey.project vectorText (vectorContext 1)
      writerIkm ⟨_, pad_vectorText⟩ ⟨_, labelAadWithin_vectorContext (1, "1") (by simp)⟩
    obtain rfl : vectorEnvelope = envelope := Except.ok.inj (sealLabel_vectorText.symm.trans hseal)
    exact hopen
  · exact (hexact.2.1 VectorKey.project vectorText (vectorContext 1) writerIkm vectorEnvelope
      vectorEnvelope (vectorContext 2).opening sealLabel_vectorText changed_vectorEnvelope).1.mpr
      ⟨contained_vectorEnvelope, not_resealed_vectorEnvelope⟩

/-! ## A dictionary without an epoch -/

/-- No epoch, and no sealed pair either. -/
def emptyEnvelope : Envelope where
  value := .object [("version", labelVersion), ("enc", .str ""), ("ciphertext", .str "")]
  isDict := rfl
  wellFormed := wellFormed_object (by simp) (by simp [labelVersion, PyValue.str])

/-- A missing member raises `KeyError`. -/
theorem emptyEnvelope_escapes : Ideal vectorPrimitives ∧
    ¬((∃ t, openLabel vectorPrimitives VectorKey.project emptyEnvelope
        (vectorContext 1).opening = .ok t) ∨
      (openLabel vectorPrimitives VectorKey.project emptyEnvelope
        (vectorContext 1).opening).IsLabelCryptoError) := by
  refine ⟨ideal_vectorPrimitives, fun hcloses => ?_⟩
  have hversion : pyEq (emptyEnvelope.value.field "version") labelVersion = true := by
    rw [emptyEnvelope, PyValue.field_object]
    decide
  have hepoch := ((openLabel_fails_closed_iff).mp hcloses hversion).1
  rw [emptyEnvelope, PyValue.hasKey_object] at hepoch
  cases hepoch

end TraigentSchema.LabelsReference
