import TraigentSchema.Fp2.NumberText

/-!
# ECMAScript's `Number::toString`

The specification writes a positive decimal by its shortest digits `s`, their number `k`
and the exponent `n` with `0.s × 10ⁿ`, in one of four layouts that `k` and `n` choose.
The encoder reaches the same text from whichever spelling `repr` has for the decimal.
-/

namespace TraigentSchema.Fp2

open TraigentSchema.Unicode
open TraigentSchema.Binary64
open TraigentSchema.Decimal
open TraigentSchema.JsonNumber
open TraigentSchema.Python

/-! ## The specification -/

/-- The digits of a decimal without zeros at either end, and its exponent. -/
structure ShortestDecimal (q : ℚ) (digits : Text) (n : ℤ) : Prop where
  trimmed : Trimmed digits
  ne_nil : digits ≠ []
  value : decimalValue digits n = q

/-- The layouts of ECMA-262, each with the range it is for. -/
inductive Layout (digits : Text) (n : ℤ) : Text → Prop where
  | integer (hlow : (digits.length : ℤ) ≤ n) (hhigh : n ≤ 21) :
      Layout digits n (digits ++ List.replicate (n.toNat - digits.length) zeroDigit)
  | point (hlow : 0 < n) (hhigh : n ≤ 21) (hdigits : n < digits.length) :
      Layout digits n (digits.take n.toNat ++ text "." ++ digits.drop n.toNat)
  | leadingZeros (hlow : -6 < n) (hhigh : n ≤ 0) :
      Layout digits n (text "0." ++ List.replicate (-n).toNat zeroDigit ++ digits)
  | oneDigitExponent (hrange : n ≤ -6 ∨ 21 < n) (hone : digits.length = 1) :
      Layout digits n (digits ++ text "e" ++ (if 0 < n - 1 then text "+" else text "-") ++
        decimalText (n - 1).natAbs)
  | exponent (hrange : n ≤ -6 ∨ 21 < n) (hmany : 1 < digits.length) :
      Layout digits n (digits.take 1 ++ text "." ++ digits.drop 1 ++ text "e" ++
        (if 0 < n - 1 then text "+" else text "-") ++ decimalText (n - 1).natAbs)

/-- `Number::toString` of a positive decimal. -/
def NumberToString (q : ℚ) (t : Text) : Prop :=
  ∃ digits n, ShortestDecimal q digits n ∧ Layout digits n t

/-! ## One decimal, one text -/

section Uniqueness

variable {q : ℚ} {digits digits' : Text} {n n' : ℤ}

/-- The exponent is that of the power of ten just above the decimal. -/
theorem ShortestDecimal.exponent_le (hdecimal : ShortestDecimal q digits n)
    (hdecimal' : ShortestDecimal q digits' n') : n ≤ n' := by
  obtain ⟨hlow, -⟩ := decimalValue_bounds hdecimal.trimmed hdecimal.ne_nil n
  obtain ⟨-, hhigh⟩ := decimalValue_bounds hdecimal'.trimmed hdecimal'.ne_nil n'
  rw [hdecimal.value] at hlow
  rw [hdecimal'.value] at hhigh
  have hpow : (10 : ℚ) ^ (n - 1) < 10 ^ n' := hlow.trans_lt hhigh
  have hlt := (zpow_lt_zpow_iff_right₀ (by norm_num : (1 : ℚ) < 10)).mp hpow
  exact Int.sub_one_lt_iff.mp hlt

/-- Digits without a trailing zero are no longer than others for the same number. -/
theorem length_le_of_decimalValue_eq (htrimmed : Trimmed digits) (hne : digits ≠ [])
    (heq : decimalValue digits n = decimalValue digits' n) :
    digits.length ≤ digits'.length := by
  by_contra hshort
  have hten : (10 : ℚ) ≠ 0 := by norm_num
  have hpadded : (naturalValue digits : ℚ) =
      naturalValue digits' * 10 ^ (digits.length - digits'.length) := by
    have hscale : ∀ s : Text, decimalValue s n * 10 ^ ((digits.length : ℤ) - n) =
        naturalValue s * 10 ^ ((digits.length : ℤ) - s.length) := by
      intro s
      rw [decimalValue, mul_assoc, ← zpow_add₀ hten]
      congr 2
      ring
    have hscaled := hscale digits
    rw [heq, hscale digits', sub_self, zpow_zero, mul_one] at hscaled
    rw [← hscaled, ← zpow_natCast, Nat.cast_sub (by omega)]
  have hnat : naturalValue digits =
      naturalValue digits' * 10 ^ (digits.length - digits'.length) := by
    exact_mod_cast hpadded
  apply htrimmed.not_dvd hne
  rw [hnat]
  exact Dvd.dvd.mul_left (dvd_pow_self 10 (by omega)) _

theorem ShortestDecimal.unique (hdecimal : ShortestDecimal q digits n)
    (hdecimal' : ShortestDecimal q digits' n') : digits' = digits ∧ n' = n := by
  obtain rfl : n' = n :=
    le_antisymm (hdecimal'.exponent_le hdecimal) (hdecimal.exponent_le hdecimal')
  have heq : decimalValue digits n' = decimalValue digits' n' :=
    hdecimal.value.trans hdecimal'.value.symm
  have hlength : digits.length = digits'.length :=
    le_antisymm (length_le_of_decimalValue_eq hdecimal.trimmed hdecimal.ne_nil heq)
      (length_le_of_decimalValue_eq hdecimal'.trimmed hdecimal'.ne_nil heq.symm)
  have hpow : (10 : ℚ) ^ (n' - digits'.length) ≠ 0 := zpow_ne_zero _ (by norm_num)
  rw [decimalValue, decimalValue, hlength, mul_left_inj' hpow, Nat.cast_inj] at heq
  refine ⟨?_, rfl⟩
  rw [← List.append_nil digits, ← List.append_nil digits',
    ← decimalText_naturalValue (by simpa using hdecimal.trimmed.digits)
      (hdecimal.trimmed.noLeadingZero hdecimal.ne_nil []),
    ← decimalText_naturalValue (by simpa using hdecimal'.trimmed.digits)
      (hdecimal'.trimmed.noLeadingZero hdecimal'.ne_nil []), List.append_nil,
    List.append_nil, heq]

/-- The ranges leave one layout. -/
theorem layout_iff (hne : digits ≠ []) {t : Text} :
    Layout digits n t ↔ t = layoutDigits digits n := by
  have hlength : 1 ≤ digits.length := List.length_pos_iff.mpr hne
  have hsign : n ≤ -6 ∨ 21 < n →
      (if 0 ≤ n - 1 then text "+" else text "-") =
        if 0 < n - 1 then text "+" else text "-" := by
    intro hrange
    by_cases hpos : 0 < n - 1
    · rw [if_pos hpos, if_pos hpos.le]
    · rw [if_neg hpos, if_neg (by omega)]
  constructor
  · intro hlayout
    cases hlayout with
    | integer hlow hhigh => rw [layoutDigits, if_pos ⟨hlow, hhigh⟩]
    | point hlow hhigh hdigits =>
        rw [layoutDigits, if_neg (by omega), if_pos ⟨hlow, hhigh⟩]
    | leadingZeros hlow hhigh =>
        rw [layoutDigits, if_neg (by omega), if_neg (by omega), if_pos ⟨hlow, hhigh⟩]
    | oneDigitExponent hrange hone =>
        have hinteger : ¬((digits.length : ℤ) ≤ n ∧ n ≤ 21) := by omega
        have hpoint : ¬(0 < n ∧ n ≤ 21) := by omega
        have hzeros : ¬(-6 < n ∧ n ≤ 0) := by omega
        rw [layoutDigits, if_neg hinteger, if_neg hpoint, if_neg hzeros]
        simp only [if_pos hone, hsign hrange]
    | exponent hrange hmany =>
        have hinteger : ¬((digits.length : ℤ) ≤ n ∧ n ≤ 21) := by omega
        have hpoint : ¬(0 < n ∧ n ≤ 21) := by omega
        have hzeros : ¬(-6 < n ∧ n ≤ 0) := by omega
        rw [layoutDigits, if_neg hinteger, if_neg hpoint, if_neg hzeros]
        simp only [if_neg hmany.ne', hsign hrange]
  · rintro rfl
    by_cases hinteger : (digits.length : ℤ) ≤ n ∧ n ≤ 21
    · rw [layoutDigits, if_pos hinteger]
      exact .integer hinteger.1 hinteger.2
    · by_cases hpoint : 0 < n ∧ n ≤ 21
      · rw [layoutDigits, if_neg hinteger, if_pos hpoint]
        exact .point hpoint.1 hpoint.2 (by omega)
      · by_cases hzeros : -6 < n ∧ n ≤ 0
        · rw [layoutDigits, if_neg hinteger, if_neg hpoint, if_pos hzeros]
          exact .leadingZeros hzeros.1 hzeros.2
        · have hrange : n ≤ -6 ∨ 21 < n := by omega
          rw [layoutDigits, if_neg hinteger, if_neg hpoint, if_neg hzeros]
          by_cases hone : digits.length = 1
          · simp only [if_pos hone, hsign hrange]
            exact .oneDigitExponent hrange hone
          · simp only [if_neg hone, hsign hrange]
            exact .exponent hrange (by omega)

theorem NumberToString.unique {t t' : Text} (ht : NumberToString q t)
    (ht' : NumberToString q t') : t' = t := by
  obtain ⟨digits, n, hdecimal, hlayout⟩ := ht
  obtain ⟨digits', n', hdecimal', hlayout'⟩ := ht'
  obtain ⟨rfl, rfl⟩ := hdecimal.unique hdecimal'
  rw [(layout_iff hdecimal.ne_nil).mp hlayout, (layout_iff hdecimal.ne_nil).mp hlayout']

end Uniqueness

/-! ## From the spellings of `repr` -/

/-- Whatever notation a positive numeral is in, its parts are the shortest decimal. -/
theorem shortestDecimal_decomposeRepr (numeral : ReprText) (hpos : 0 < numeral.value) :
    ShortestDecimal numeral.value (decomposeRepr numeral.text).1
      (decomposeRepr numeral.text).2 := by
  have hvalue := significant_value numeral
  have hne : numeral.significant ≠ [] := by
    intro hnil
    rw [hnil, naturalValue_nil, Nat.cast_zero, zero_mul] at hvalue
    exact hpos.ne hvalue
  rw [decomposeRepr_text, if_neg hne]
  exact {
    trimmed := trimmed_strip numeral.digits_digits
    ne_nil := hne
    value := hvalue }

theorem numberToString_decomposeRepr (numeral : ReprText) (hpos : 0 < numeral.value) :
    NumberToString numeral.value
      (layoutDigits (decomposeRepr numeral.text).1 (decomposeRepr numeral.text).2) := by
  have hdecimal := shortestDecimal_decomposeRepr numeral hpos
  exact ⟨_, _, hdecimal, (layout_iff hdecimal.ne_nil).mpr rfl⟩

theorem repr_value_pos (float : FloatRepr) {m : Magnitude} (hm : m ≠ .zero) :
    0 < (float.repr m).value := by
  by_contra hnonpos
  have hrounds := float.rounds m
  rw [nearest_of_nonpos hnonpos, Option.some.injEq] at hrounds
  exact hm hrounds.symm

/-- No zero ends the digits after a point. -/
theorem layoutLiteral_fraction {digits : Text} (hdigits : Trimmed digits)
    (hne : digits ≠ []) (negative : Bool) (n : ℤ) :
    ∀ c ∈ (layoutLiteral hdigits hne negative n).fraction.getLast?, c ≠ zeroDigit := by
  have hdrop : ∀ i : ℕ, ∀ c ∈ (digits.drop i).getLast?, c ≠ zeroDigit := by
    intro i c hc
    apply hdigits.last
    rw [List.getLast?_drop] at hc
    split_ifs at hc with hlong
    · cases hc
    · exact hc
  intro c hc
  unfold layoutLiteral at hc
  split_ifs at hc
  · cases hc
  · exact hdrop _ c hc
  · apply hdigits.last
    rwa [List.getLast?_append_of_ne_nil _ hne] at hc
  · exact hdrop _ c hc

/-- The encoder writes a float as `Number::toString` writes the decimal that `repr` spells,
in the shortest digits of any decimal that rounds to the float, as a number literal of the
same value without a trailing zero after a point; every spelling of one decimal is written
alike. -/
theorem ecmascriptNumberToString_spec (float : FloatRepr) (negative : Bool)
    (m : Magnitude) :
    ecmascriptNumberToString float negative .zero = text "0" ∧
    (m ≠ .zero → ∃ digits n body,
      ShortestDecimal (float.repr m).value digits n ∧
      (∀ (c : ℕ) (t : ℤ), nearest (c * 10 ^ t) = some m →
        digits.length ≤ (decimalText c).length) ∧
      Layout digits n body ∧ (∀ t, NumberToString (float.repr m).value t → t = body) ∧
      ecmascriptNumberToString float negative m =
        (if negative then text "-" else []) ++ body ∧
      ∃ literal : NumberLiteral,
        literal.text = ecmascriptNumberToString float negative m ∧
        literal.value = (if negative then -(float.repr m).value else (float.repr m).value) ∧
        ∀ c ∈ literal.fraction.getLast?, c ≠ zeroDigit) ∧
    (∀ numeral : ReprText, 0 < numeral.value → NumberToString numeral.value
      (layoutDigits (decomposeRepr numeral.text).1 (decomposeRepr numeral.text).2)) ∧
    ∀ (float' : FloatRepr) (m' : Magnitude), m ≠ .zero → m' ≠ .zero →
      (float'.repr m').value = (float.repr m).value →
      ecmascriptNumberToString float' negative m' =
        ecmascriptNumberToString float negative m := by
  have hwritten : ∀ (float : FloatRepr) (m : Magnitude), m ≠ .zero →
      ecmascriptNumberToString float negative m = (if negative then text "-" else []) ++
        layoutDigits (shortestDigits float m).1 (shortestDigits float m).2 := by
    intro float m hm
    rw [ecmascriptNumberToString, if_neg hm]
    cases negative <;> rfl
  refine ⟨by rw [ecmascriptNumberToString, if_pos rfl], fun hm => ?_,
    numberToString_decomposeRepr, fun float' m' hm hm' hsame => ?_⟩
  · have hdecimal := shortestDecimal_decomposeRepr (float.repr m) (repr_value_pos float hm)
    refine ⟨_, _, _, hdecimal, fun c t hc => shortestDigits_length_le float hm hc,
      (layout_iff hdecimal.ne_nil).mpr rfl, fun t ht => ?_, hwritten float m hm,
      layoutLiteral hdecimal.trimmed hdecimal.ne_nil negative
        (decomposeRepr (float.repr m).text).2, ?_, ?_,
      layoutLiteral_fraction hdecimal.trimmed hdecimal.ne_nil negative _⟩
    · exact (numberToString_decomposeRepr _ (repr_value_pos float hm)).unique ht
    · rw [layoutLiteral_text, hwritten float m hm]
      rfl
    · rw [NumberLiteral.value, layoutLiteral_negative, layoutLiteral_magnitude,
        hdecimal.value]
  · have hleft := numberToString_decomposeRepr _ (repr_value_pos float hm)
    have hright := numberToString_decomposeRepr _ (repr_value_pos float' hm')
    rw [hsame] at hright
    rw [hwritten float m hm, hwritten float' m' hm']
    exact congrArg _ (hleft.unique hright)

end TraigentSchema.Fp2
