import TraigentSchema.Library.Unicode

/-!
# Framed byte strings

A frame puts a tag before what it carries, and the length of a field before the
field.  Tags that never begin one another and lengths of a fixed width can be cut
off the front of a byte string in one way only, so that a frame determines its tag
and its fields.
-/

namespace TraigentSchema.Framing

open TraigentSchema.Unicode

/-! ## Tags -/

section Tags

variable {A : Type*} {encode : A → Bytes} {valid : A → Prop}

theorem tagged_injective (hcode : PrefixFree encode valid) {a b : A} {left right : Bytes}
    (ha : valid a) (hb : valid b) (heq : encode a ++ left = encode b ++ right) :
    a = b ∧ left = right := by
  have htag : a = b := hcode.head_unique ha hb heq
  subst htag
  exact ⟨rfl, List.append_cancel_left heq⟩

/-- A family of nonempty words none of which begins another. -/
theorem prefixFree_of_not_isPrefix (hnonempty : ∀ a, encode a ≠ [])
    (hpre : ∀ a b, encode a <+: encode b → a = b) : PrefixFree encode valid where
  ne_nil := hnonempty
  head_unique {left right restLeft restRight} _ _ heq := by
    have hleft : encode left <+: encode right ++ restRight := ⟨restLeft, heq⟩
    have hright : encode right <+: encode right ++ restRight := List.prefix_append _ _
    rcases List.prefix_or_prefix_of_prefix hleft hright with hshort | hshort
    · exact hpre left right hshort
    · exact (hpre right left hshort).symm

end Tags

/-! ## Fields behind their lengths -/

/-- The last `width` bytes of a number, the most significant first. -/
def bigEndianBytes : ℕ → ℕ → Bytes
  | 0, _ => []
  | width + 1, n => ⟨n / 256 ^ width % 256, by omega⟩ :: bigEndianBytes width n

@[simp]
theorem length_bigEndianBytes (width n : ℕ) : (bigEndianBytes width n).length = width := by
  induction width with
  | zero => rfl
  | succ width ih => rw [bigEndianBytes, List.length_cons, ih]

theorem mod_eq_of_bigEndianBytes_eq {width m n : ℕ}
    (heq : bigEndianBytes width m = bigEndianBytes width n) :
    m % 256 ^ width = n % 256 ^ width := by
  induction width with
  | zero => simp [Nat.mod_one]
  | succ width ih =>
      rw [bigEndianBytes, bigEndianBytes, List.cons.injEq, Fin.mk.injEq] at heq
      rw [pow_succ, Nat.mod_mul, Nat.mod_mul, ih heq.2, heq.1]

theorem bigEndianBytes_injOn {width m n : ℕ} (hm : m < 256 ^ width) (hn : n < 256 ^ width)
    (heq : bigEndianBytes width m = bigEndianBytes width n) : m = n := by
  have hmod := mod_eq_of_bigEndianBytes_eq heq
  rwa [Nat.mod_eq_of_lt hm, Nat.mod_eq_of_lt hn] at hmod

/-- A field behind its length in eight bytes. -/
def lengthPrefixed (field : Bytes) : Bytes :=
  bigEndianBytes 8 field.length ++ field

/-- The fields whose length eight bytes can hold. -/
def Framable (field : Bytes) : Prop :=
  field.length < 2 ^ 64

instance : DecidablePred Framable := fun field =>
  inferInstanceAs (Decidable (field.length < 2 ^ 64))

theorem lengthPrefixed_prefixFree : PrefixFree lengthPrefixed Framable where
  ne_nil field := by simp [lengthPrefixed, bigEndianBytes]
  head_unique {left right restLeft restRight} hleft hright heq := by
    rw [lengthPrefixed, lengthPrefixed, List.append_assoc, List.append_assoc] at heq
    obtain ⟨hlengths, hfields⟩ := List.append_inj heq (by simp)
    have hlength : left.length = right.length :=
      bigEndianBytes_injOn (by simpa [Framable] using hleft)
        (by simpa [Framable] using hright) hlengths
    exact (List.append_inj hfields hlength).1

/-- Fields one after the other, each behind its length. -/
def lengthPrefixedAll (fields : List Bytes) : Bytes :=
  fields.flatMap lengthPrefixed

theorem lengthPrefixedAll_injective {left right : List Bytes}
    (hleft : ∀ field ∈ left, Framable field) (hright : ∀ field ∈ right, Framable field)
    (heq : lengthPrefixedAll left = lengthPrefixedAll right) : left = right :=
  lengthPrefixed_prefixFree.flatMap_injective hleft hright heq

theorem lengthPrefixedAll_singleton_inj {left right : Bytes} (hleft : Framable left)
    (hright : Framable right)
    (heq : lengthPrefixedAll [left] = lengthPrefixedAll [right]) : left = right := by
  have hfields := lengthPrefixedAll_injective (by simpa using hleft) (by simpa using hright) heq
  simpa using hfields

end TraigentSchema.Framing
