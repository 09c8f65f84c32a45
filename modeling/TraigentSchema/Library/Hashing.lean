import TraigentSchema.Library.Decimal

/-!
# Digests and their hexadecimal text

A hash is an arbitrary function from byte strings to 32-byte digests; nothing
about it is assumed.  What security there is enters as an explicit alternative:
a result holds, or two different inputs with one digest can be pointed at in a
given transcript.  Digests travel as lower-case hexadecimal text, which loses
nothing.
-/

namespace TraigentSchema.Hashing

open TraigentSchema.Unicode
open TraigentSchema.Decimal

/-! ## Hexadecimal text -/

def hexDigit (d : ℕ) : CodePoint :=
  if d < 10 then digitChar d else ⟨87 + d % 16, by omega⟩

/-- A digit or one of the letters `a` to `f`. -/
def IsHexDigit (c : CodePoint) : Prop :=
  IsDigit c ∨ 97 ≤ c.val ∧ c.val ≤ 102

instance (c : CodePoint) : Decidable (IsHexDigit c) :=
  inferInstanceAs (Decidable (_ ∨ _))

def hexDigitValue (c : CodePoint) : ℕ :=
  if c.val ≤ 57 then c.val - 48 else c.val - 87

theorem isHexDigit_hexDigit {d : ℕ} (hd : d < 16) : IsHexDigit (hexDigit d) := by
  interval_cases d <;> decide

theorem hexDigitValue_hexDigit {d : ℕ} (hd : d < 16) :
    hexDigitValue (hexDigit d) = d := by
  interval_cases d <;> rfl

/-- A text of lower-case hexadecimal digits. -/
def HexDigits (s : Text) : Prop :=
  ∀ c ∈ s, IsHexDigit c

instance (s : Text) : Decidable (HexDigits s) :=
  inferInstanceAs (Decidable (∀ c ∈ s, IsHexDigit c))

theorem encodable_hexDigits {s : Text} (hs : HexDigits s) : Unicode.Encodable s := by
  intro c hc hsurrogate
  have hlow := hsurrogate.1
  rcases hs c hc with hdigit | hletter
  · have hhigh := hdigit.2
    omega
  · omega

def hexPair (b : Byte) : Text :=
  [hexDigit (b.val / 16), hexDigit (b.val % 16)]

def hex (bytes : Bytes) : Text :=
  bytes.flatMap hexPair

/-- `bytes.fromhex`, on pairs of lower-case digits. -/
def fromHex : Text → Bytes
  | high :: low :: rest =>
      ⟨(16 * hexDigitValue high + hexDigitValue low) % 256, by omega⟩ :: fromHex rest
  | _ => []

theorem hexDigits_hex (bytes : Bytes) : HexDigits (hex bytes) := by
  intro c hc
  obtain ⟨b, -, hc⟩ := List.mem_flatMap.mp hc
  have hb := b.isLt
  simp only [hexPair, List.mem_cons, List.not_mem_nil, or_false] at hc
  rcases hc with rfl | rfl
  · exact isHexDigit_hexDigit (by omega)
  · exact isHexDigit_hexDigit (by omega)

@[simp]
theorem length_hex (bytes : Bytes) : (hex bytes).length = 2 * bytes.length := by
  have hpair : ∀ b : Byte, (hexPair b).length = 2 := fun _ => rfl
  simp [hex, List.length_flatMap, hpair, Nat.mul_comm]

@[simp]
theorem fromHex_hex (bytes : Bytes) : fromHex (hex bytes) = bytes := by
  induction bytes with
  | nil => rfl
  | cons b bytes ih =>
      have hb := b.isLt
      have hhigh := hexDigitValue_hexDigit (d := b.val / 16) (by omega)
      have hlow := hexDigitValue_hexDigit (d := b.val % 16) (by omega)
      have hsplit : hex (b :: bytes) =
          hexDigit (b.val / 16) :: hexDigit (b.val % 16) :: hex bytes := rfl
      have hbyte : (16 * hexDigitValue (hexDigit (b.val / 16)) +
          hexDigitValue (hexDigit (b.val % 16))) % 256 = b.val := by
        rw [hhigh, hlow]
        omega
      rw [hsplit, fromHex, ih, List.cons.injEq]
      exact ⟨Fin.ext hbyte, rfl⟩

theorem hex_injective : Function.Injective hex :=
  Function.LeftInverse.injective fromHex_hex

theorem length_fromHex {n : ℕ} {s : Text} (hlength : s.length = 2 * n) :
    (fromHex s).length = n := by
  induction n generalizing s with
  | zero =>
      obtain rfl : s = [] := List.length_eq_zero_iff.mp hlength
      rfl
  | succ n ih =>
      match s, hlength with
      | high :: low :: rest, hlength =>
          simp only [List.length_cons] at hlength
          simp [fromHex, ih (s := rest) (by omega)]

/-! ## Digests -/

abbrev Digest := List.Vector Byte 32

abbrev Hash := Bytes → Digest

/-- The hexadecimal text of a digest. -/
def hexdigest (digest : Digest) : Text :=
  hex digest.toList

@[simp]
theorem length_hexdigest (digest : Digest) : (hexdigest digest).length = 64 := by
  simp [hexdigest]

theorem hexdigest_injective : Function.Injective hexdigest :=
  fun _ _ heq => List.Vector.eq _ _ (hex_injective heq)

/-- The digest a text of 64 hexadecimal digits stands for. -/
def digestOfHex (s : Text) (hlength : s.length = 64) : Digest :=
  ⟨fromHex s, length_fromHex (n := 32) hlength⟩

@[simp]
theorem digestOfHex_hexdigest (digest : Digest)
    (hlength : (hexdigest digest).length = 64) :
    digestOfHex (hexdigest digest) hlength = digest :=
  List.Vector.eq _ _ (fromHex_hex digest.toList)

/-- Two different inputs of one digest, one from each transcript. -/
def Collision {I D : Type*} (hash : I → D) (left right : List I) : Prop :=
  ∃ x ∈ left, ∃ y ∈ right, x ≠ y ∧ hash x = hash y

theorem Collision.mono {I D : Type*} {hash : I → D} {left right left' right' : List I}
    (hcollision : Collision hash left right) (hleft : left ⊆ left')
    (hright : right ⊆ right') : Collision hash left' right' := by
  obtain ⟨x, hx, y, hy, hne, heq⟩ := hcollision
  exact ⟨x, hleft hx, y, hright hy, hne, heq⟩

theorem eq_or_collision {I D : Type*} {hash : I → D} {x y : I}
    (heq : hash x = hash y) : x = y ∨ Collision hash [x] [y] := by
  by_cases hxy : x = y
  · exact Or.inl hxy
  · exact Or.inr ⟨x, by simp, y, by simp, hxy, heq⟩

end TraigentSchema.Hashing
