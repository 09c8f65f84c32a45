import TraigentSchema.ExampleIdentity.CanonicalBytes
import TraigentSchema.Library.MerkleTree

/-!
# Multisets of examples

A member of a multiset is one distinct pair of an example id and an example version with its
multiplicity; both tokens name the key they were made under.  Members are the leaves of a
tree of hashes with separate prefixes for leaves and interior nodes.
-/

namespace TraigentSchema.ExampleIdentity

open TraigentSchema.Fp2
open TraigentSchema.Hashing
open TraigentSchema.MerkleTree
open TraigentSchema.Python
open TraigentSchema.Unicode

/-! ## Tokens -/

/-- `_KEY_ID_RE`, `k[0-9a-f]{16}`. -/
def IsKeyId (s : Text) : Prop :=
  s.take 1 = text "k" ∧ s.length = 17 ∧ HexDigits (s.drop 1)

/-- `_HASH_HEX_RE`, `[0-9a-f]{64}`. -/
def IsHashHex (s : Text) : Prop :=
  s.length = 64 ∧ HexDigits s

instance : DecidablePred IsKeyId := fun _ =>
  inferInstanceAs (Decidable (_ ∧ _ ∧ _))

instance : DecidablePred IsHashHex := fun _ =>
  inferInstanceAs (Decidable (_ ∧ _))

theorem isHashHex_hexdigest (digest : Digest) : IsHashHex (hexdigest digest) :=
  ⟨length_hexdigest digest, hexDigits_hex digest.toList⟩

def colon : CodePoint :=
  codePoint ':'

/-- A token of three parts: what it identifies, a key id and a digest. -/
def token (tag : String) (keyId digest : Text) : Text :=
  text tag ++ colon :: (keyId ++ colon :: digest)

/-- The groups of a full match of `tag:(k[0-9a-f]{16}):([0-9a-f]{64})`. -/
def tokenMatch (tag : String) (s : Text) : Option (Text × Text) :=
  let rest := s.drop ((text tag).length + 1)
  let keyId := rest.take 17
  let digest := rest.drop 18
  if IsKeyId keyId ∧ IsHashHex digest ∧ s = token tag keyId digest then some (keyId, digest)
  else none

theorem tokenMatch_eq_some_iff {tag : String} {s keyId digest : Text} :
    tokenMatch tag s = some (keyId, digest) ↔
      IsKeyId keyId ∧ IsHashHex digest ∧ s = token tag keyId digest := by
  constructor
  · intro hmatch
    simp only [tokenMatch, Option.ite_none_right_eq_some, Option.some.injEq,
      Prod.mk.injEq] at hmatch
    obtain ⟨⟨hkey, hdigest, heq⟩, rfl, rfl⟩ := hmatch
    exact ⟨hkey, hdigest, heq⟩
  · rintro ⟨hkey, hdigest, rfl⟩
    have hrest : (token tag keyId digest).drop ((text tag).length + 1) =
        keyId ++ colon :: digest := by
      rw [token, List.drop_append]
      simp
    have htake : (keyId ++ colon :: digest).take 17 = keyId := by
      rw [← hkey.2.1, List.take_left]
    have hdrop : (keyId ++ colon :: digest).drop 18 = digest := by
      rw [List.drop_append]
      simp [hkey.2.1]
    simp only [tokenMatch, hrest, htake, hdrop]
    simp [hkey, hdigest]

/-- `s.split(":", 2)[1]`, for a text with a colon. -/
def secondPart (s : Text) : Text :=
  ((s.dropWhile (· != colon)).drop 1).takeWhile (· != colon)

theorem colon_not_mem_keyId {keyId : Text} (hkey : IsKeyId keyId) : colon ∉ keyId := by
  obtain ⟨hfirst, -, hrest⟩ := hkey
  intro hcolon
  rw [← List.take_append_drop 1 keyId, List.mem_append] at hcolon
  rcases hcolon with hcolon | hcolon
  · rw [hfirst] at hcolon
    revert hcolon
    decide
  · have hdigit := hrest colon hcolon
    revert hdigit
    decide

theorem secondPart_token {tag : String} {keyId digest : Text} (htag : colon ∉ text tag)
    (hkey : IsKeyId keyId) : secondPart (token tag keyId digest) = keyId := by
  have hbefore : ∀ {s : Text}, colon ∉ s → ∀ c ∈ s, (c != colon) = true := by
    intro s hs c hc
    exact bne_iff_ne.mpr fun heq => hs (heq ▸ hc)
  have hdrop : (token tag keyId digest).dropWhile (· != colon) =
      colon :: (keyId ++ colon :: digest) := by
    rw [token, List.dropWhile_append_of_pos (hbefore htag), List.dropWhile_cons_of_neg (by simp)]
  rw [secondPart, hdrop, List.drop_succ_cons, List.drop_zero,
    List.takeWhile_append_of_pos (hbefore (colon_not_mem_keyId hkey)),
    List.takeWhile_cons_of_neg (by simp), List.append_nil]

/-! ## Members -/

/-- The safe-integer ceiling of multiplicities. -/
def maxCount : ℕ := 2 ^ 53 - 1

/-- The id and the version are tokens under one key, and the count is in range. -/
structure MultisetMember where
  exampleId : Text
  exampleVersion : Text
  count : ℕ
  tokens : ∃ keyId idDigest versionDigest,
    tokenMatch "ex1" exampleId = some (keyId, idDigest) ∧
      tokenMatch "exv1" exampleVersion = some (keyId, versionDigest)
  countRange : 1 ≤ count ∧ count ≤ maxCount
  deriving DecidableEq

namespace MultisetMember

def keyId (member : MultisetMember) : Text :=
  secondPart member.exampleId

theorem tokenMatch_exampleId (member : MultisetMember) :
    ∃ digest, tokenMatch "ex1" member.exampleId = some (member.keyId, digest) := by
  obtain ⟨keyId, digest, -, hmatch, -⟩ := member.tokens
  obtain ⟨hkey, -, heq⟩ := tokenMatch_eq_some_iff.mp hmatch
  have hpart : member.keyId = keyId := by
    rw [MultisetMember.keyId, heq, secondPart_token (by decide) hkey]
  exact ⟨digest, hpart ▸ hmatch⟩

end MultisetMember

/-! ## Leaves -/

def domainMultisetLeaf : String :=
  "traigent.content_identity.multiset_leaf.v1"

/-- `[member.example_id, member.example_version, member.count]` in memory. -/
def leafHeap (member : MultisetMember) : Heap Unit := fun _ =>
  .list [.atom (.str member.exampleId), .atom (.str member.exampleVersion),
    .atom (.int member.count)]

/-- The payload of a leaf as a value. -/
def leafPayload (member : MultisetMember) : PyValue :=
  .list [.leaf (.str member.exampleId), .leaf (.str member.exampleVersion),
    .leaf (.int member.count)]

def framed (float : FloatRepr) {A : Type} [DecidableEq A] (domain : String) (h : Heap A)
    (payload : Ref A) : Except ContentIdentityError Bytes := do
  return utf8 (text domain) ++ 0 :: (← canonicalBytes float h payload)

def multisetLeafData (float : FloatRepr) (member : MultisetMember) :
    Except ContentIdentityError Bytes :=
  framed float domainMultisetLeaf (leafHeap member) (.node ())

theorem unfolds_leafHeap (member : MultisetMember) :
    Unfolds (leafHeap member) (.node ()) (leafPayload member) := by
  rw [unfolds_list rfl]
  exact ⟨_, rfl, by simp⟩

theorem encodable_token {tag : String} {keyId digest s : Text}
    (hmatch : tokenMatch tag s = some (keyId, digest)) : Unicode.Encodable s := by
  obtain ⟨⟨hfirst, -, hrest⟩, ⟨-, hdigest⟩, rfl⟩ := tokenMatch_eq_some_iff.mp hmatch
  have hcolon : ¬IsSurrogate colon := codePoint_not_surrogate ':'
  have hkey : Unicode.Encodable keyId := by
    rw [← List.take_append_drop 1 keyId, hfirst]
    exact (encodable_append _ _).mpr ⟨encodable_text "k", encodable_hexDigits hrest⟩
  rw [token, encodable_append, encodable_cons, encodable_append, encodable_cons]
  exact ⟨encodable_text tag, hcolon, hkey, hcolon, encodable_hexDigits hdigest⟩

theorem strict_leafPayload (member : MultisetMember) : Strict (leafPayload member) := by
  obtain ⟨keyId, idDigest, versionDigest, hid, hversion⟩ := member.tokens
  have hcount : (member.count : ℤ).natAbs ≤ maxSafeInteger := member.countRange.2
  have hatoms : ∀ x ∈ [Atom.str member.exampleId, .str member.exampleVersion,
      .int member.count], StrictAtom x := by
    simp only [List.forall_mem_cons]
    exact ⟨⟨encodable_token hid, trivial⟩, ⟨encodable_token hversion, trivial⟩,
      ⟨hcount, trivial⟩, by simp⟩
  rw [Strict, leafPayload, Tree.admits_list]
  simpa using hatoms

/-- The text of a leaf, whose bytes are framed. -/
def leafText (float : FloatRepr) (member : MultisetMember) : Text :=
  canonicalText float (leafPayload member)

/-- Every member has leaf data. -/
theorem multisetLeafData_eq (float : FloatRepr) (member : MultisetMember) :
    multisetLeafData float member =
      .ok (utf8 (text domainMultisetLeaf) ++ 0 :: utf8 (leafText float member)) := by
  have hnesting : (leafPayload member).nesting ≤ maxDepth := by
    rw [leafPayload, maxDepth, Tree.nesting_list_le_iff]
    simp
  rw [multisetLeafData, framed, canonicalBytes_of_unfolds (unfolds_leafHeap member) hnesting
    (strict_leafPayload member)]
  rfl

/-! ## The tree of hashes -/

section Tree

variable (sha256 : Hash)

def leafHash (data : Bytes) : Digest :=
  sha256 (0 :: data)

def nodeHash (left right : Digest) : Digest :=
  sha256 (1 :: (left.toList ++ right.toList))

/-- The loop of `_split`, from a power of two reached. -/
def splitLoop (n k : ℕ) (hk : 0 < k) : ℕ :=
  if k * 2 < n then splitLoop n (k * 2) (by omega) else k
termination_by n - k

def split (n : ℕ) : ℕ :=
  splitLoop n 1 Nat.one_pos

theorem splitLoop_pow {n i : ℕ} (hi : 2 ^ i ≤ n - 1) (hpos : 0 < 2 ^ i) :
    splitLoop n (2 ^ i) hpos = splitPoint n := by
  rw [splitLoop]
  have hlog : i ≤ Nat.log 2 (n - 1) := Nat.le_log_of_pow_le (by decide) hi
  split_ifs with hlt
  · simp only [← pow_succ]
    exact splitLoop_pow (by rw [pow_succ]; omega) _
  · have hnext : n - 1 < 2 ^ (i + 1) := by
      rw [pow_succ]
      omega
    rw [splitPoint, le_antisymm hlog (Nat.lt_succ_iff.mp (Nat.log_lt_of_lt_pow (by omega) hnext))]
termination_by n - 2 ^ i
decreasing_by
  rw [pow_succ]
  omega

/-- The doubling loop finds the largest power of two below `n`. -/
theorem split_eq {n : ℕ} (hn : 2 ≤ n) : split n = splitPoint n :=
  splitLoop_pow (i := 0) (by omega) _

end Tree

end TraigentSchema.ExampleIdentity
