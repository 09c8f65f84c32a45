import TraigentSchema.Library.Utf8Decoding
import TraigentSchema.LabelsReference.Encodings

/-!
# Padded labels

A label is encrypted at one of four lengths, so that the length of a ciphertext does not
show the length of the label.  The padding is a byte `0x80` and zeros up to the smallest
bucket; the label may hold both of these bytes itself.
-/

namespace TraigentSchema.LabelsReference

open TraigentSchema.Unicode

def buckets : List ℕ := [32, 64, 128, 256]

def maxLabelBytes : ℕ := 255

/-- The smallest bucket that holds so many bytes and the terminator. -/
def smallestBucket (length : ℕ) : Option ℕ :=
  buckets.find? (fun bucket => length + 1 ≤ bucket)

def terminator : Byte := 0x80

def zeroByte : Byte := 0

def pad (s : Text) : Result Bytes := do
  let raw ← encodeUtf8 s
  if raw.length > maxLabelBytes then
    .error (.labelCrypto "label longer than 255 UTF-8 bytes")
  else match smallestBucket raw.length with
    | some bucket =>
        .ok (raw ++ [terminator] ++ List.replicate (bucket - raw.length - 1) zeroByte)
    | none => .error (.labelCrypto "unreachable")

/-- `padded.rstrip(b"\x00")`. -/
def rstripZeros (padded : Bytes) : Bytes :=
  padded.rdropWhile (· = zeroByte)

def unpad (padded : Bytes) : Result Text :=
  if padded.length ∉ buckets then
    .error (.labelCrypto "padded length is not a bucket")
  else if (rstripZeros padded).getLast? ≠ some terminator then
    .error (.labelCrypto "malformed padding")
  else
    let body := (rstripZeros padded).dropLast
    match smallestBucket body.length with
    | none => .error .other
    | some bucket =>
        if padded.length ≠ bucket then .error (.labelCrypto "non-minimal bucket")
        else match decodeUtf8 body with
          | some s => .ok s
          | none => .error (.labelCrypto "label is not UTF-8")

/-! ## Buckets -/

theorem smallestBucket_eq_some {length bucket : ℕ}
    (hsmallest : smallestBucket length = some bucket) :
    bucket ∈ buckets ∧ length + 1 ≤ bucket := by
  refine ⟨List.mem_of_find?_eq_some hsmallest, ?_⟩
  simpa using List.find?_some hsmallest

theorem exists_smallestBucket {length : ℕ} (hlength : length ≤ maxLabelBytes) :
    ∃ bucket, smallestBucket length = some bucket := by
  apply Option.isSome_iff_exists.mp
  rw [smallestBucket, List.find?_isSome]
  refine ⟨256, by decide, ?_⟩
  rw [maxLabelBytes] at hlength
  exact decide_eq_true (by omega)

theorem length_le_of_smallestBucket {length bucket : ℕ}
    (hsmallest : smallestBucket length = some bucket) : length ≤ maxLabelBytes := by
  obtain ⟨hmem, hfits⟩ := smallestBucket_eq_some hsmallest
  have hbound : ∀ size ∈ buckets, size ≤ 256 := by decide
  have hlargest := hbound bucket hmem
  rw [maxLabelBytes]
  omega

/-! ## What each side accepts -/

theorem pad_eq_ok_iff {s : Text} {padded : Bytes} :
    pad s = .ok padded ↔ Encodable s ∧ ∃ bucket, smallestBucket (utf8 s).length = some bucket ∧
      padded = utf8 s ++ [terminator] ++
        List.replicate (bucket - (utf8 s).length - 1) zeroByte := by
  by_cases hencodable : Encodable s
  · have hraw : encodeUtf8 s = .ok (utf8 s) := if_pos hencodable
    simp only [pad, hraw, hencodable, true_and]
    change (if _ then _ else _) = _ ↔ _
    cases hbucket : smallestBucket (utf8 s).length with
    | none =>
        split_ifs <;> simp
    | some bucket =>
        rw [if_neg (Nat.not_lt.mpr (length_le_of_smallestBucket hbucket))]
        simp [eq_comm]
  · have hraw : encodeUtf8 s = .error .other := if_neg hencodable
    constructor
    · intro hpad
      rw [pad, hraw] at hpad
      cases hpad
    · intro hpad
      exact absurd hpad.1 hencodable

theorem rstripZeros_padding (raw : Bytes) (count : ℕ) :
    rstripZeros (raw ++ [terminator] ++ List.replicate count zeroByte) =
      raw ++ [terminator] := by
  induction count with
  | zero =>
      rw [List.replicate_zero, List.append_nil]
      exact List.rdropWhile_concat_neg _ _ _ (by decide)
  | succ count ih =>
      rw [List.replicate_succ', ← List.append_assoc]
      rw [rstripZeros, List.rdropWhile_concat_pos _ _ _ (by decide)]
      exact ih

/-- What the zeros were stripped from. -/
theorem eq_rstripZeros_append (padded : Bytes) :
    padded = rstripZeros padded ++
      List.replicate (padded.length - (rstripZeros padded).length) zeroByte := by
  have hsplit : rstripZeros padded ++ padded.rtakeWhile (· = zeroByte) = padded :=
    List.rdropWhile_append_rtakeWhile
  have hzeros : padded.rtakeWhile (· = zeroByte) =
      List.replicate (padded.rtakeWhile (· = zeroByte)).length zeroByte := by
    apply List.eq_replicate_of_mem
    intro byte hbyte
    simpa using List.mem_rtakeWhile_imp hbyte
  have hcount : (padded.rtakeWhile (· = zeroByte)).length =
      padded.length - (rstripZeros padded).length := by
    have hlength := congrArg List.length hsplit
    rw [List.length_append] at hlength
    omega
  rw [← hcount, ← hzeros, hsplit]

/-- The terminator and zeros after the body, in the body's own bucket. -/
theorem unpad_eq_ok_iff_body {padded : Bytes} {s : Text} :
    unpad padded = .ok s ↔ ∃ body, rstripZeros padded = body ++ [terminator] ∧
      smallestBucket body.length = some padded.length ∧ decodeUtf8 body = some s := by
  constructor
  · intro hunpad
    unfold unpad at hunpad
    split_ifs at hunpad with hlength hlast
    rw [not_not] at hlast
    refine ⟨(rstripZeros padded).dropLast,
      (List.dropLast_append_getLast? _ hlast).symm, ?_⟩
    revert hunpad
    simp only
    cases smallestBucket (rstripZeros padded).dropLast.length with
    | none => simp
    | some bucket =>
        cases decodeUtf8 (rstripZeros padded).dropLast with
        | none =>
            simp only
            split_ifs <;> simp
        | some t =>
            simp only
            split_ifs with hbucket
            · simp
            · rw [not_not] at hbucket
              simp [hbucket]
  · rintro ⟨body, hstrip, hbucket, hdecode⟩
    have hmem : padded.length ∈ buckets := (smallestBucket_eq_some hbucket).1
    rw [unpad, if_neg (not_not.mpr hmem), hstrip, List.getLast?_concat,
      if_neg (not_not.mpr rfl)]
    simp [hbucket, hdecode]

/-- What is unpadded is what padding makes. -/
theorem unpad_eq_ok_iff {padded : Bytes} {s : Text} :
    unpad padded = .ok s ↔ pad s = .ok padded := by
  rw [unpad_eq_ok_iff_body, pad_eq_ok_iff]
  constructor
  · rintro ⟨body, hstrip, hbucket, hdecode⟩
    obtain ⟨hencodable, rfl⟩ := decodeUtf8_eq_some_iff.mp hdecode
    refine ⟨hencodable, padded.length, hbucket, ?_⟩
    nth_rewrite 1 [eq_rstripZeros_append padded]
    rw [hstrip, List.length_append, List.length_singleton, Nat.sub_sub]
  · rintro ⟨hencodable, bucket, hbucket, rfl⟩
    have hfits := (smallestBucket_eq_some hbucket).2
    refine ⟨utf8 s, rstripZeros_padding _ _, ?_,
      decodeUtf8_eq_some_iff.mpr ⟨hencodable, rfl⟩⟩
    rw [hbucket, List.length_append, List.length_append, List.length_singleton,
      List.length_replicate]
    congr 1
    omega

theorem length_mem_buckets {s : Text} {padded : Bytes} (hpad : pad s = .ok padded) :
    padded.length ∈ buckets := by
  obtain ⟨-, bucket, hbucket, rfl⟩ := pad_eq_ok_iff.mp hpad
  obtain ⟨hmem, hfits⟩ := smallestBucket_eq_some hbucket
  convert hmem
  simp only [List.length_append, List.length_singleton, List.length_replicate]
  omega

/-! ## How each side fails -/

theorem unpad_ok_or_labelCrypto (padded : Bytes) :
    (∃ s, unpad padded = .ok s) ∨ (unpad padded).IsLabelCryptoError := by
  by_cases hlength : padded.length ∈ buckets
  · by_cases hlast : (rstripZeros padded).getLast? = some terminator
    · have hfits : (rstripZeros padded).dropLast.length ≤ maxLabelBytes := by
        have hbound : ∀ size ∈ buckets, size ≤ 256 := by decide
        have hshorter : (rstripZeros padded).length ≤ padded.length :=
          (List.rdropWhile_prefix _ _).length_le
        have hlargest := hbound _ hlength
        rw [List.length_dropLast, maxLabelBytes]
        omega
      obtain ⟨bucket, hbucket⟩ := exists_smallestBucket hfits
      rw [unpad, if_neg (not_not.mpr hlength), if_neg (not_not.mpr hlast)]
      simp only [hbucket]
      split_ifs
      · exact .inr ⟨_, rfl⟩
      · cases decodeUtf8 (rstripZeros padded).dropLast with
        | none => exact .inr ⟨_, rfl⟩
        | some s => exact .inl ⟨s, rfl⟩
    · rw [unpad, if_neg (not_not.mpr hlength), if_pos hlast]
      exact .inr ⟨_, rfl⟩
  · rw [unpad, if_pos hlength]
    exact .inr ⟨_, rfl⟩

theorem pad_of_length_le {s : Text} (hencodable : Encodable s)
    (hlength : (utf8 s).length ≤ maxLabelBytes) : ∃ padded, pad s = .ok padded := by
  obtain ⟨bucket, hbucket⟩ := exists_smallestBucket hlength
  exact ⟨_, pad_eq_ok_iff.mpr ⟨hencodable, bucket, hbucket, rfl⟩⟩

theorem pad_of_length_gt {s : Text} (hencodable : Encodable s)
    (hlength : maxLabelBytes < (utf8 s).length) : (pad s).IsLabelCryptoError := by
  have hraw : encodeUtf8 s = .ok (utf8 s) := if_pos hencodable
  refine ⟨"label longer than 255 UTF-8 bytes", ?_⟩
  rw [pad, hraw]
  exact if_pos hlength

theorem pad_of_surrogate {s : Text} (hencodable : ¬ Encodable s) :
    pad s = .error .other := by
  rw [pad, encodeUtf8, if_neg hencodable]
  rfl

/-! ## The padding as a whole -/

/-- A text short enough for a label. -/
def IsLabel (s : Text) : Prop :=
  Encodable s ∧ (utf8 s).length ≤ maxLabelBytes

/-- A label is padded to a bucket and comes back; any other text is refused with the
module's error. -/
structure PadsCanonically (s : Text) : Prop where
  label : IsLabel s →
    ∃ padded, pad s = .ok padded ∧ padded.length ∈ buckets ∧ unpad padded = .ok s
  refused : ¬ IsLabel s → (pad s).IsLabelCryptoError

/-- Bytes are refused with the module's error or are the padding of what they unpad to. -/
def UnpadsStrictly (padded : Bytes) : Prop :=
  (unpad padded).IsLabelCryptoError ∨ ∃ s, unpad padded = .ok s ∧ pad s = .ok padded

/-- Unpadding is strict, and padding meets its contract on every text the encoder takes:
on the others the encoder's own exception escapes. -/
theorem padding_canonical_iff (s : Text) (padded : Bytes) :
    (PadsCanonically s ↔ Encodable s) ∧ UnpadsStrictly padded := by
  constructor
  · constructor
    · intro hcanonical
      by_contra hencodable
      have hrefused := hcanonical.refused (fun hlabel => hencodable hlabel.1)
      rw [pad_of_surrogate hencodable] at hrefused
      exact not_isLabelCryptoError_other hrefused
    · intro hencodable
      constructor
      · intro hlabel
        obtain ⟨padded, hpad⟩ := pad_of_length_le hencodable hlabel.2
        exact ⟨padded, hpad, length_mem_buckets hpad, unpad_eq_ok_iff.mpr hpad⟩
      · intro hlabel
        apply pad_of_length_gt hencodable
        by_contra hshort
        exact hlabel ⟨hencodable, Nat.not_lt.mp hshort⟩
  · cases unpad_ok_or_labelCrypto padded with
    | inl hunpad =>
        obtain ⟨s, hs⟩ := hunpad
        exact .inr ⟨s, hs, unpad_eq_ok_iff.mp hs⟩
    | inr hfailed => exact .inl hfailed

def loneSurrogate : Text := [⟨0xD800, by omega⟩]

/-- A lone surrogate is no label, and the encoder's exception is not the module's. -/
theorem pad_lone_surrogate :
    pad loneSurrogate = .error .other ∧ ¬ PadsCanonically loneSurrogate := by
  have hsurrogate : ¬ Encodable loneSurrogate := by
    intro hencodable
    apply hencodable _ (List.mem_singleton_self _)
    exact ⟨le_rfl, by norm_num⟩
  have hpad := pad_of_surrogate hsurrogate
  refine ⟨hpad, fun hcanonical => ?_⟩
  have hrefused := hcanonical.refused (fun hlabel => hsurrogate hlabel.1)
  rw [hpad] at hrefused
  exact not_isLabelCryptoError_other hrefused

end TraigentSchema.LabelsReference
