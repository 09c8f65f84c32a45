import TraigentSchema.BestConfigProfile.CanonicalBytes
import TraigentSchema.ExampleIdentity.FixedPoint
import TraigentSchema.Library.Sha256

/-!
# Canonical documents verify again

The decoder of the best-config profile counts the digits of an integer literal before it reads
them, and refuses a float literal only where it overflows.  A canonical document that was stored
is read back by it, as by the content-identity decoder, to a value with the same bytes and the
same digests.
-/

namespace TraigentSchema.BestConfigProfile

open TraigentSchema.Binary64
open TraigentSchema.Decimal (IsDigit le_naturalValue naturalValue)
open TraigentSchema.ExampleIdentity (AcceptsDoubles DecodeError Faithful Rereads Strict
  integerValue floatOfLiteral parseStrictJson)
open TraigentSchema.Fp2
open TraigentSchema.Hashing
open TraigentSchema.JsonNumber
open TraigentSchema.JsonText
open TraigentSchema.Python
open TraigentSchema.Traverse
open TraigentSchema.Unicode

/-! ## Digests -/

def domainTagConfig : String :=
  "traigent.best_config.config.v1"

def domainTagSpec : String :=
  "traigent.best_config.spec.v1"

section Digests

variable (sha256 : Hash) (float : FloatRepr) {A : Type} [DecidableEq A]

def domainDigest (h : Heap A) (value : Ref A) (domainTag : String) :
    Except BestConfigProfileError Text := do
  let encoded ← canonicalBytes float h value
  return text "sha256:" ++ hexdigest (sha256 (utf8 (text domainTag) ++ 0 :: encoded))

def configDigest (h : Heap A) (config : Ref A) : Except BestConfigProfileError Text :=
  domainDigest sha256 float h config domainTagConfig

def specDigest (h : Heap A) (spec : Ref A) : Except BestConfigProfileError Text :=
  domainDigest sha256 float h spec domainTagSpec

end Digests

/-! ## Decoding -/

def malformedJsonError (message : String) : BestConfigProfileError where
  code := "malformed_json"
  message := message

/-- `JSONDecodeError`, whose line and column the message gives. -/
def malformedTextError : BestConfigProfileError :=
  malformedJsonError "$: malformed JSON"

def duplicatePropertyNameError : BestConfigProfileError where
  code := "duplicate_property_name"
  message := "$: duplicate object key in a parsed object"

def safeIntegerDigitCount : ℕ :=
  (Decimal.decimalText maxSafeInteger).length

def rejectNonFiniteConstant (name : Constant) : Except BestConfigProfileError PyValue :=
  .error (malformedJsonError (match name with
    | .nan => "$: non-finite JSON constant (NaN)"
    | .infinity => "$: non-finite JSON constant (Infinity)"
    | .negativeInfinity => "$: non-finite JSON constant (-Infinity)"))

def parseFloatRejectingOverflow (literal : NumberLiteral) :
    Except BestConfigProfileError PyValue :=
  match floatOfLiteral literal with
  | .finite negative m => .ok (.leaf (.float (.finite negative m)))
  | _ => .error (malformedJsonError "$: JSON number literal overflows to a non-finite float")

def parseIntRejectingUnsafeMagnitude (literal : NumberLiteral) :
    Except BestConfigProfileError PyValue :=
  if safeIntegerDigitCount < literal.integer.length then .error (unsafeIntegralValueError [])
  else if maxSafeInteger < (integerValue literal).natAbs then
    .error (unsafeIntegralValueError [])
  else .ok (.leaf (.int (integerValue literal)))

def rejectDuplicateObjectKeys (pairs : List (Text × PyValue)) :
    Except BestConfigProfileError PyValue :=
  if (pairs.map Prod.fst).Nodup then
    .ok (.dict (pairs.map fun pair => (.str pair.1, pair.2)))
  else .error duplicatePropertyNameError

def profileHooks : DecoderHooks BestConfigProfileError where
  parseInt := parseIntRejectingUnsafeMagnitude
  parseFloat := parseFloatRejectingOverflow
  parseConstant := rejectNonFiniteConstant
  objectPairs := rejectDuplicateObjectKeys

/-- `loads_strict`, for a decoder that nests as deep as the limit. -/
def loadsStrict (limit : ℕ) (s : Text) : Except BestConfigProfileError PyValue :=
  match scan limit s with
  | .ok document => profileHooks.evaluate document
  | .error stopped => do
      let _ ← stopped.read.mapM profileHooks.evaluate
      throw (match stopped.ending with
        | .malformed => malformedTextError
        | .tooDeep => malformedJsonError "$: JSON text nests too deeply to parse")

/-! ## Reading back -/

theorem natAbs_integerValue (literal : NumberLiteral) :
    (integerValue literal).natAbs = naturalValue literal.integer := by
  rw [integerValue]
  split_ifs <;> simp

/-- A literal within the safe integers has no more digits than the largest of them. -/
theorem length_le_of_naturalValue_le {literal : NumberLiteral}
    (hle : naturalValue literal.integer ≤ maxSafeInteger) :
    literal.integer.length ≤ safeIntegerDigitCount := by
  have hcount : safeIntegerDigitCount = 16 := by
    decide +kernel
  rcases literal.integer_lead with hzero | ⟨c, tail, hsplit, hne⟩
  · rw [hzero, hcount]
    decide
  · have hc : IsDigit c := literal.integer_digits c (by simp [hsplit])
    have hpow : 10 ^ tail.length ≤ maxSafeInteger := by
      rw [hsplit] at hle
      exact (le_naturalValue hc hne).trans hle
    have hlt : 10 ^ tail.length < 10 ^ 16 := lt_of_le_of_lt hpow (by decide)
    have hshort := (Nat.pow_lt_pow_iff_right (by decide)).mp hlt
    rw [hsplit, hcount, List.length_cons]
    omega

theorem faithful_profileHooks : Faithful profileHooks where
  parseInt literal _ hle := by
    have hdigits := Nat.not_lt.mpr (length_le_of_naturalValue_le hle)
    have hsafe : ¬maxSafeInteger < (integerValue literal).natAbs := by
      rw [natAbs_integerValue]
      exact Nat.not_lt.mpr hle
    exact (if_neg hdigits).trans (if_neg hsafe)
  parseFloat literal m _ _ hnearest _ := by
    have hfloat : floatOfLiteral literal = .finite literal.negative m := by
      rw [floatOfLiteral, hnearest]
    have hparse : parseFloatRejectingOverflow literal =
        .ok (.leaf (.float (.finite literal.negative m))) := by
      rw [parseFloatRejectingOverflow, hfloat]
    exact hparse
  objectPairs _ hnodup := if_pos hnodup

theorem exists_loadsStrict {float : FloatRepr} {v : PyValue} {limit : ℕ} (hstrict : Strict v)
    (hformed : v.WellFormed) (hnesting : v.nesting ≤ limit) :
    ∃ w, loadsStrict limit (canonicalText float v) = .ok w ∧ Rereads v w := by
  obtain ⟨w, hw, hreads⟩ := @ExampleIdentity.exists_evaluate _ _ float faithful_profileHooks v
    hstrict hformed
  refine ⟨w, ?_, hreads⟩
  rw [loadsStrict, ExampleIdentity.scan_canonicalText float hstrict hnesting]
  exact hw

/-! ## Digesting again -/

/-- A tree has a place in memory, and what holds of it holds wherever it is stored. -/
def WhereverStored (w : PyValue)
    (holds : ∀ {B : Type} [DecidableEq B], Heap B → Ref B → Prop) : Prop :=
  (∃ (B : Type) (_ : DecidableEq B) (h : Heap B) (r : Ref B), Unfolds h r w) ∧
    ∀ {B : Type} [DecidableEq B] (h : Heap B) (r : Ref B), Unfolds h r w → holds h r

theorem whereverStored {w : PyValue} (hformed : w.WellFormed)
    {holds : ∀ {B : Type} [DecidableEq B], Heap B → Ref B → Prop}
    (hholds : ∀ {B : Type} [DecidableEq B] (h : Heap B) (r : Ref B), Unfolds h r w → holds h r) :
    WhereverStored w holds :=
  ⟨⟨PyValue, Classical.decEq _, freshHeap, freshRef w, unfolds_freshRef hformed⟩, hholds⟩

section Again

variable {sha256 : Hash} {float : FloatRepr} {A : Type} [DecidableEq A] {h : Heap A}
  {value : Ref A}

theorem domainDigest_eq_ok_iff {domainTag : String} {digest : Text} :
    domainDigest sha256 float h value domainTag = .ok digest ↔
      ∃ v, Unfolds h value v ∧ v.nesting ≤ maxDepth ∧ Strict v ∧
        (utf8 (canonicalText float v)).length ≤ maxCanonicalSpecBytes ∧
        text "sha256:" ++ hexdigest (sha256 (utf8 (text domainTag) ++
          0 :: utf8 (canonicalText float v))) = digest := by
  simp only [domainDigest, bind_eq_ok_iff, canonicalBytes_eq_ok_iff,
    ExampleIdentity.canonicalBytes_eq_ok_iff, pure_eq_ok, Except.ok.injEq]
  constructor
  · rintro ⟨_, ⟨⟨v, hv, hnesting, hstrict, rfl⟩, hsize⟩, hdigest⟩
    exact ⟨v, hv, hnesting, hstrict, hsize, hdigest⟩
  · rintro ⟨v, hv, hnesting, hstrict, hsize, hdigest⟩
    exact ⟨_, ⟨⟨v, hv, hnesting, hstrict, rfl⟩, hsize⟩, hdigest⟩

/-- A value that comes back has the digests of the value it comes back for. -/
theorem domainDigest_of_rereads {v w : PyValue} (hreads : Rereads v w)
    (hv : Unfolds h value v) (hnesting : v.nesting ≤ maxDepth) (hstrict : Strict v)
    {B : Type} [DecidableEq B] {h' : Heap B} {r : Ref B} (hstored : Unfolds h' r w)
    (domainTag : String) :
    domainDigest sha256 float h' r domainTag = domainDigest sha256 float h value domainTag := by
  have hbytes : ExampleIdentity.canonicalBytes float h value =
      .ok (utf8 (canonicalText float v)) :=
    ExampleIdentity.canonicalBytes_of_unfolds hv hnesting hstrict
  have hbytes' : ExampleIdentity.canonicalBytes float h' r = .ok (utf8 (canonicalText float v)) :=
    hreads.canonicalBytes_eq hstrict hv.wellFormed hnesting hstored
  rw [domainDigest, domainDigest, canonicalBytes_of_identity hbytes,
    canonicalBytes_of_identity hbytes']

end Again

/-- The canonical bytes of a value are read back by the strict parser to a value with the same
bytes, and the canonical text of a value that has a digest is read back by the profile's decoder
to a value with the same digests. -/
theorem canonical_text_fixed_point (sha256 : Hash) (float : FloatRepr)
    (decimalAccepts : NumberLiteral → Bool) (limit : ℕ) (haccepts : AcceptsDoubles decimalAccepts)
    (hlimit : maxDepth ≤ limit) :
    (∀ {A : Type} [DecidableEq A] (h : Heap A) (value : Ref A) (bytes : Bytes),
      ExampleIdentity.canonicalBytes float h value = .ok bytes →
      ∃ s w, decodeUtf8 bytes = some s ∧ parseStrictJson decimalAccepts limit s = .ok w ∧
        WhereverStored w fun h' r => ExampleIdentity.canonicalBytes float h' r = .ok bytes) ∧
    ∀ {A : Type} [DecidableEq A] (h : Heap A) (value : Ref A) (digest : Text),
      configDigest sha256 float h value = .ok digest →
      ∃ s w, canonicalize float h value = .ok s ∧ loadsStrict limit s = .ok w ∧
        WhereverStored w fun h' r => configDigest sha256 float h' r = .ok digest ∧
          specDigest sha256 float h' r = specDigest sha256 float h value := by
  constructor
  · intro A _ h value bytes hbytes
    obtain ⟨v, hv, hnesting, hstrict, rfl⟩ := ExampleIdentity.canonicalBytes_eq_ok_iff.mp hbytes
    obtain ⟨w, hparse, hreads⟩ := @ExampleIdentity.exists_parseStrictJson float v
      decimalAccepts limit haccepts hstrict hv.wellFormed (hnesting.trans hlimit)
    refine ⟨_, w, decodeUtf8_eq_some_iff.mpr ⟨encodable_canonicalText float
      (ExampleIdentity.strict_iff.mp hstrict).1, rfl⟩, hparse, ?_⟩
    exact whereverStored hreads.wellFormed fun h' r hstored =>
      hreads.canonicalBytes_eq hstrict hv.wellFormed hnesting hstored
  · intro A _ h value digest hdigest
    obtain ⟨v, hv, hnesting, hstrict, -⟩ := domainDigest_eq_ok_iff.mp hdigest
    obtain ⟨w, hloads, hreads⟩ := @exists_loadsStrict float v limit hstrict hv.wellFormed
      (hnesting.trans hlimit)
    refine ⟨_, w, canonicalize_of_unfolds hv hnesting
      (ExampleIdentity.strict_iff.mp hstrict).1, hloads, ?_⟩
    exact whereverStored hreads.wellFormed fun h' r hstored =>
      ⟨(domainDigest_of_rereads hreads hv hnesting hstrict hstored _).trans hdigest,
        domainDigest_of_rereads hreads hv hnesting hstrict hstored _⟩

/-! Negative zero, whose text is that of an `int`. -/

def negativeZero : Ref Empty :=
  .atom (.float (.finite true .zero))

theorem canonicalText_negativeZero (float : FloatRepr) :
    canonicalText float (.leaf (.float (.finite true .zero))) = text "0" := by
  rw [canonicalText_leaf, atomText, ecmascriptNumberToString, if_pos rfl]

theorem strict_negativeZero : Strict (.leaf (.float (.finite true .zero))) :=
  (Tree.admits_leaf _).mpr ⟨trivial, by simp [ExampleIdentity.SafeAtom,
    ExampleIdentity.beyondSafe, Magnitude.value_zero]⟩

theorem canonical_text_fixed_point_negativeZero :
    (∃ s w, decodeUtf8 (utf8 (text "0")) = some s ∧
      parseStrictJson (fun _ => true) 1000 s = .ok w ∧ WhereverStored w fun h' r =>
        ExampleIdentity.canonicalBytes FloatRepr.fewestDigits h' r = .ok (utf8 (text "0"))) ∧
    ∃ digest s w, canonicalize FloatRepr.fewestDigits emptyHeap negativeZero = .ok s ∧
      loadsStrict 1000 s = .ok w ∧ WhereverStored w fun h' r =>
        configDigest Sha256.sha256 FloatRepr.fewestDigits h' r = .ok digest ∧
          specDigest Sha256.sha256 FloatRepr.fewestDigits h' r =
            specDigest Sha256.sha256 FloatRepr.fewestDigits emptyHeap negativeZero := by
  have hstored : Unfolds emptyHeap negativeZero (.leaf (.float (.finite true .zero))) :=
    unfolds_atom.mpr rfl
  have hnesting : (.leaf (.float (.finite true .zero)) : PyValue).nesting ≤ maxDepth := by simp
  have hbytes : ExampleIdentity.canonicalBytes FloatRepr.fewestDigits emptyHeap negativeZero =
      .ok (utf8 (text "0")) := by
    rw [ExampleIdentity.canonicalBytes_of_unfolds hstored hnesting strict_negativeZero,
      canonicalText_negativeZero]
  have hsize : (utf8 (canonicalText FloatRepr.fewestDigits
      (.leaf (.float (.finite true .zero))))).length ≤ maxCanonicalSpecBytes := by
    rw [canonicalText_negativeZero]
    decide
  have hdigest : ∃ digest, configDigest Sha256.sha256 FloatRepr.fewestDigits emptyHeap
      negativeZero = .ok digest :=
    ⟨_, domainDigest_eq_ok_iff.mpr ⟨_, hstored, hnesting, strict_negativeZero, hsize, rfl⟩⟩
  obtain ⟨digest, hdigest⟩ := hdigest
  have hfixed := canonical_text_fixed_point Sha256.sha256 FloatRepr.fewestDigits (fun _ => true)
    1000 (fun _ _ _ _ => rfl) (by decide)
  exact ⟨hfixed.1 _ _ _ hbytes, digest, hfixed.2 _ _ _ hdigest⟩

end TraigentSchema.BestConfigProfile
