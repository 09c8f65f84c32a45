import TraigentSchema.Library.Binary64
import TraigentSchema.Library.Decimal

/-!
# The text of a float

`repr` of a positive float is a decimal numeral in fixed or in exponent notation.
The interpreter documents two things about it, and they are all that is assumed:
the numeral rounds back to the float, and no numeral with fewer significant
digits does.
-/

namespace TraigentSchema.Python

open TraigentSchema.Unicode
open TraigentSchema.Binary64
open TraigentSchema.Decimal

/-- The digits of an exponent and its sign, which is always written. -/
structure ReprExponent where
  negative : Bool
  digits : Text
  digits_digits : Digits digits
  digits_ne_nil : digits ≠ []

/-- A numeral of the format `repr` uses: `12.5`, `1e+16`, `1.5e-07`. -/
structure ReprText where
  integerPart : Text
  fraction : Text
  exponent : Option ReprExponent
  integer_digits : Digits integerPart
  integer_ne_nil : integerPart ≠ []
  fraction_digits : Digits fraction
  marked : fraction ≠ [] ∨ exponent ≠ none

namespace ReprExponent

def text (e : ReprExponent) : Text :=
  (if e.negative then Unicode.text "-" else Unicode.text "+") ++ e.digits

def value (e : ReprExponent) : ℤ :=
  if e.negative then -naturalValue e.digits else naturalValue e.digits

end ReprExponent

namespace ReprText

def fractionText (numeral : ReprText) : Text :=
  if numeral.fraction = [] then [] else Unicode.text "." ++ numeral.fraction

def exponentText (numeral : ReprText) : Text :=
  numeral.exponent.elim [] fun e => Unicode.text "e" ++ e.text

def text (numeral : ReprText) : Text :=
  numeral.integerPart ++ numeral.fractionText ++ numeral.exponentText

def exponentValue (numeral : ReprText) : ℤ :=
  numeral.exponent.elim 0 ReprExponent.value

def digits (numeral : ReprText) : Text :=
  numeral.integerPart ++ numeral.fraction

theorem digits_digits (numeral : ReprText) : Digits numeral.digits := by
  intro c hc
  rcases List.mem_append.mp hc with h | h
  · exact numeral.integer_digits c h
  · exact numeral.fraction_digits c h

/-- The exact number a numeral denotes. -/
def value (numeral : ReprText) : ℚ :=
  naturalValue numeral.digits *
    10 ^ (numeral.exponentValue - numeral.fraction.length)

/-- The digits that matter: no zeros at either end. -/
def significant (numeral : ReprText) : Text :=
  stripTrailing (stripLeading numeral.digits)

end ReprText

/-- The interpreter's `repr` on finite floats, up to sign. -/
structure FloatRepr where
  repr : Magnitude → ReprText
  rounds : ∀ m, nearest (repr m).value = some m
  shortest : ∀ {m : Magnitude} {c : ℕ} {t : ℤ}, m ≠ .zero →
    nearest (c * 10 ^ t) = some m →
    (repr m).significant.length ≤ (decimalText c).length

/-! ## An interpreter of this kind -/

namespace FloatRepr

/-- The significand and the exponent of a numeral written without a point. -/
def scientific (c : ℕ) (t : ℤ) : ReprText where
  integerPart := decimalText c
  fraction := []
  exponent := some
    { negative := decide (t < 0)
      digits := decimalText t.natAbs
      digits_digits := digits_decimalText _
      digits_ne_nil := decimalText_ne_nil _ }
  integer_digits := digits_decimalText _
  integer_ne_nil := decimalText_ne_nil _
  fraction_digits := digits_nil
  marked := Or.inr (by simp)

theorem scientific_value (c : ℕ) (t : ℤ) : (scientific c t).value = c * 10 ^ t := by
  have hexponent : (scientific c t).exponentValue = t := by
    by_cases ht : t < 0
    · have habs : -(t.natAbs : ℤ) = t := by omega
      simpa [scientific, ReprText.exponentValue, ReprExponent.value, ht] using habs
    · have habs : (t.natAbs : ℤ) = t := by omega
      simpa [scientific, ReprText.exponentValue, ReprExponent.value, ht] using habs
  rw [ReprText.value, hexponent]
  simp [ReprText.digits, scientific]

theorem length_significant_scientific (c : ℕ) (t : ℤ) :
    (scientific c t).significant.length ≤ (decimalText c).length := by
  have hdigits : (scientific c t).digits = decimalText c := List.append_nil _
  rw [ReprText.significant, hdigits]
  exact (List.rdropWhile_prefix _ _).length_le.trans (List.dropWhile_sublist _).length_le

/-- Every double is a decimal. -/
theorem exists_decimal (m : Magnitude) : ∃ (c : ℕ) (t : ℤ), (c : ℚ) * 10 ^ t = m.value := by
  rcases le_or_gt 0 m.exponent with hexponent | hexponent
  · refine ⟨m.significand * 2 ^ m.exponent.toNat, 0, ?_⟩
    have hcast : (2 : ℚ) ^ m.exponent = 2 ^ m.exponent.toNat := by
      rw [← zpow_natCast, Int.toNat_of_nonneg hexponent]
    rw [Magnitude.value, hcast]
    push_cast
    ring
  · refine ⟨m.significand * 5 ^ (-m.exponent).toNat, m.exponent, ?_⟩
    have hcast : (5 : ℚ) ^ (-m.exponent).toNat = 5 ^ (-m.exponent) := by
      rw [← zpow_natCast, Int.toNat_of_nonneg (by omega)]
    have hten : (10 : ℚ) ^ m.exponent = 2 ^ m.exponent * 5 ^ m.exponent := by
      rw [← mul_zpow]
      norm_num
    have hfive : (5 : ℚ) ^ (-m.exponent) * 5 ^ m.exponent = 1 := by
      rw [← zpow_add₀ (by norm_num : (5 : ℚ) ≠ 0)]
      simp
    rw [Magnitude.value, hten]
    push_cast
    rw [hcast]
    linear_combination (m.significand * 2 ^ m.exponent : ℚ) * hfive

/-- The lengths of the decimals that round to a double. -/
def RoundingLength (m : Magnitude) (k : ℕ) : Prop :=
  ∃ (c : ℕ) (t : ℤ), nearest (c * 10 ^ t) = some m ∧ (decimalText c).length = k

theorem exists_roundingLength (m : Magnitude) : ∃ k, RoundingLength m k := by
  obtain ⟨c, t, hvalue⟩ := exists_decimal m
  exact ⟨_, c, t, by rw [hvalue, nearest_value], rfl⟩

open Classical in
/-- Writes each double with as few digits as any decimal that rounds to it. -/
noncomputable def fewestDigits : FloatRepr where
  repr m := scientific (Nat.find_spec (exists_roundingLength m)).choose
    (Nat.find_spec (exists_roundingLength m)).choose_spec.choose
  rounds m := by
    rw [scientific_value]
    exact (Nat.find_spec (exists_roundingLength m)).choose_spec.choose_spec.1
  shortest {m c t} _ hc := by
    have hlength := (Nat.find_spec (exists_roundingLength m)).choose_spec.choose_spec.2
    calc
      _ ≤ (decimalText (Nat.find_spec (exists_roundingLength m)).choose).length :=
        length_significant_scientific _ _
      _ = Nat.find (exists_roundingLength m) := hlength
      _ ≤ (decimalText c).length := Nat.find_min' _ ⟨c, t, hc, rfl⟩

end FloatRepr

end TraigentSchema.Python
