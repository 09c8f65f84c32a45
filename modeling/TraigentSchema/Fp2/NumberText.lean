import TraigentSchema.Fp2.Scalar
import TraigentSchema.Library.JsonNumber

/-!
# Numbers written and read

The text the encoder writes for a number is a JSON number literal whose exact
value rounds to that number.  A float that is a safe integer is written as the
integer is, whatever digits `repr` chose among the shortest ones.
-/

namespace TraigentSchema.Fp2

open TraigentSchema.Unicode
open TraigentSchema.Binary64
open TraigentSchema.Decimal
open TraigentSchema.JsonNumber
open TraigentSchema.Python

/-! ## Taking a `repr` text apart -/

theorem partition_append {separator : CodePoint} {before : Text}
    (hbefore : separator ∉ before) (after : Text) :
    partition separator (before ++ separator :: after) = (before, after) := by
  have hall : ∀ c ∈ before, decide (c ≠ separator) = true := by
    intro c hc
    have hne : c ≠ separator := fun heq => hbefore (heq ▸ hc)
    simpa using hne
  rw [partition, List.takeWhile_append_of_pos hall, List.dropWhile_append_of_pos hall]
  simp

theorem partition_of_notMem {separator : CodePoint} {s : Text} (hs : separator ∉ s) :
    partition separator s = (s, []) := by
  have hall : ∀ c ∈ s, decide (c ≠ separator) = true := by
    intro c hc
    have hne : c ≠ separator := fun heq => hs (heq ▸ hc)
    simpa using hne
  rw [partition, List.takeWhile_eq_self_iff.mpr hall, List.dropWhile_eq_nil_iff.mpr hall]
  rfl

theorem notMem_digits {c : CodePoint} {s : Text} (hs : Digits s) (hc : ¬ IsDigit c) :
    c ∉ s :=
  fun hmem => hc (hs c hmem)

theorem plus_ne_minus : codePoint '+' ≠ codePoint '-' := by
  decide

theorem signedInt_text (e : ReprExponent) : signedInt e.text = e.value := by
  obtain ⟨negative, digits, hdigits, hne⟩ := e
  cases negative <;>
    simp [ReprExponent.text, ReprExponent.value, text, signedInt, plus_ne_minus]

theorem decomposeRepr_text (numeral : ReprText) :
    decomposeRepr numeral.text =
      (if numeral.significant = [] then text "0" else numeral.significant,
        numeral.integerPart.length + numeral.exponentValue -
          ((numeral.digits.length - (stripLeading numeral.digits).length : ℕ) : ℤ)) := by
  have hpointDigit : ¬ IsDigit (codePoint '.') := by decide
  have hmarkDigit : ¬ IsDigit (codePoint 'e') := by decide
  have hmark : codePoint 'e' ∉ numeral.integerPart ++ numeral.fractionText := by
    have hfraction : codePoint 'e' ∉ numeral.fractionText := by
      unfold ReprText.fractionText
      split_ifs
      · simp
      · have hne : codePoint 'e' ∉ text "." := by decide
        simp [hne, notMem_digits numeral.fraction_digits hmarkDigit]
    simp [hfraction, notMem_digits numeral.integer_digits hmarkDigit]
  have hmantissa : partition (codePoint 'e') numeral.text =
      (numeral.integerPart ++ numeral.fractionText,
        numeral.exponent.elim [] ReprExponent.text) := by
    unfold ReprText.text ReprText.exponentText
    cases numeral.exponent with
    | none => simpa using partition_of_notMem hmark
    | some e => exact partition_append hmark e.text
  have hpoint : codePoint '.' ∉ numeral.integerPart :=
    notMem_digits numeral.integer_digits hpointDigit
  have hparts : partition (codePoint '.')
      (numeral.integerPart ++ numeral.fractionText) =
        (numeral.integerPart, numeral.fraction) := by
    unfold ReprText.fractionText
    split_ifs with hfraction
    · rw [List.append_nil, partition_of_notMem hpoint, hfraction]
    · exact partition_append hpoint numeral.fraction
  have hexponent : (if numeral.exponent.elim [] ReprExponent.text = [] then 0
      else signedInt (numeral.exponent.elim [] ReprExponent.text)) =
        numeral.exponentValue := by
    unfold ReprText.exponentValue
    cases numeral.exponent with
    | none => rfl
    | some e =>
        have hne : e.text ≠ [] := by
          unfold ReprExponent.text
          split_ifs <;> simp [text]
        rw [Option.elim_some, Option.elim_some, if_neg hne, signedInt_text]
  simp only [decomposeRepr, hmantissa, hparts, hexponent]
  rfl

/-- The digits found and the exponent give the number back. -/
theorem significant_value (numeral : ReprText) :
    (naturalValue numeral.significant : ℚ) *
      10 ^ ((numeral.integerPart.length : ℤ) + numeral.exponentValue -
        ((numeral.digits.length - (stripLeading numeral.digits).length : ℕ) : ℤ) -
          numeral.significant.length) = numeral.value := by
  have hdigits : naturalValue numeral.digits = naturalValue numeral.significant *
      10 ^ ((stripLeading numeral.digits).length - numeral.significant.length) := by
    rw [← naturalValue_stripLeading]
    exact naturalValue_stripTrailing _
  have hlength : numeral.digits.length =
      numeral.integerPart.length + numeral.fraction.length :=
    List.length_append
  have hleading : (stripLeading numeral.digits).length ≤ numeral.digits.length :=
    (List.dropWhile_sublist _).length_le
  have htrailing : numeral.significant.length ≤ (stripLeading numeral.digits).length :=
    (List.rdropWhile_prefix _ _).length_le
  rw [ReprText.value, hdigits]
  push_cast
  rw [mul_assoc, ← zpow_natCast, ← zpow_add₀ (by norm_num : (10 : ℚ) ≠ 0)]
  congr 2
  omega

section Shortest

variable (float : FloatRepr) {m : Magnitude}

theorem significant_ne_nil (hm : m ≠ .zero) : (float.repr m).significant ≠ [] := by
  intro hnil
  have hvalue : (float.repr m).value = 0 := by
    rw [← significant_value, hnil]
    simp
  have hrounds := float.rounds m
  rw [hvalue, nearest_of_nonpos (lt_irrefl 0), Option.some.injEq] at hrounds
  exact hm hrounds.symm

theorem shortestDigits_fst (hm : m ≠ .zero) :
    (shortestDigits float m).1 = (float.repr m).significant := by
  rw [shortestDigits, decomposeRepr_text, if_neg (significant_ne_nil float hm)]

theorem trimmed_shortestDigits (hm : m ≠ .zero) : Trimmed (shortestDigits float m).1 := by
  rw [shortestDigits_fst float hm]
  exact trimmed_strip (float.repr m).digits_digits

theorem shortestDigits_ne_nil (hm : m ≠ .zero) : (shortestDigits float m).1 ≠ [] := by
  rw [shortestDigits_fst float hm]
  exact significant_ne_nil float hm

/-- The exact number the digits and the exponent stand for. -/
def decimalValue (digits : Text) (n : ℤ) : ℚ :=
  naturalValue digits * 10 ^ (n - digits.length)

theorem nearest_shortestDigits (hm : m ≠ .zero) :
    nearest (decimalValue (shortestDigits float m).1 (shortestDigits float m).2) =
      some m := by
  have hvalue := significant_value (float.repr m)
  rw [decimalValue, shortestDigits_fst float hm, shortestDigits, decomposeRepr_text]
  rw [hvalue]
  exact float.rounds m

end Shortest

/-! ## The four layouts -/

section Layout

variable {digits : Text} (hdigits : Trimmed digits) (hne : digits ≠ [])

include hdigits hne

theorem decimalValue_bounds (n : ℤ) :
    (10 : ℚ) ^ (n - 1) ≤ decimalValue digits n ∧ decimalValue digits n < 10 ^ n := by
  have hlength : 1 ≤ digits.length := List.length_pos_iff.mpr hne
  have hten : (10 : ℚ) ≠ 0 := by norm_num
  constructor
  · have hlow : (10 : ℚ) ^ (digits.length - 1) ≤ naturalValue digits := by
      exact_mod_cast hdigits.le_naturalValue hne
    calc
      (10 : ℚ) ^ (n - 1) =
          10 ^ (digits.length - 1) * 10 ^ (n - digits.length) := by
        rw [← zpow_natCast, ← zpow_add₀ hten]
        congr 1
        omega
      _ ≤ naturalValue digits * 10 ^ (n - digits.length) := by gcongr
  · have hhigh : (naturalValue digits : ℚ) < 10 ^ digits.length := by
      exact_mod_cast naturalValue_lt hdigits.digits
    calc
      decimalValue digits n < 10 ^ digits.length * 10 ^ (n - digits.length) := by
        unfold decimalValue
        gcongr
      _ = 10 ^ n := by
        rw [← zpow_natCast, ← zpow_add₀ hten]
        congr 1
        omega

theorem noLeadingZero_take {n : ℕ} (hn : 0 < n) : NoLeadingZero (digits.take n) := by
  cases digits with
  | nil => exact absurd rfl hne
  | cons c tail =>
      obtain ⟨n, rfl⟩ := Nat.exists_eq_succ_of_ne_zero hn.ne'
      exact Or.inr ⟨c, tail.take n, rfl, hdigits.head c (by simp)⟩

omit hne in
theorem digits_take (n : ℕ) : Digits (digits.take n) :=
  fun c hc => hdigits.digits c (List.mem_of_mem_take hc)

omit hne in
theorem digits_drop (n : ℕ) : Digits (digits.drop n) :=
  fun c hc => hdigits.digits c (List.mem_of_mem_drop hc)

/-- The literal whose text `layoutDigits` writes. -/
def layoutLiteral (negative : Bool) (n : ℤ) : NumberLiteral :=
  if (digits.length : ℤ) ≤ n ∧ n ≤ 21 then
    { negative := negative
      integer := digits ++ List.replicate (n.toNat - digits.length) zeroDigit
      fraction := []
      exponent := none
      integer_digits := digits_append hdigits.digits (digits_replicate_zero _)
      integer_lead := hdigits.noLeadingZero hne _
      fraction_digits := digits_nil }
  else if hpoint : 0 < n ∧ n ≤ 21 then
    { negative := negative
      integer := digits.take n.toNat
      fraction := digits.drop n.toNat
      exponent := none
      integer_digits := digits_take hdigits _
      integer_lead := noLeadingZero_take hdigits hne (by omega)
      fraction_digits := digits_drop hdigits _ }
  else if -6 < n ∧ n ≤ 0 then
    { negative := negative
      integer := [zeroDigit]
      fraction := List.replicate (-n).toNat zeroDigit ++ digits
      exponent := none
      integer_digits := digits_singleton isDigit_zeroDigit
      integer_lead := Or.inl rfl
      fraction_digits := digits_append (digits_replicate_zero _) hdigits.digits }
  else
    { negative := negative
      integer := digits.take 1
      fraction := digits.drop 1
      exponent := some
        { upperCase := false
          sign := some (decide (n - 1 < 0))
          digits := decimalText (n - 1).natAbs
          digits_digits := digits_decimalText _
          digits_ne_nil := decimalText_ne_nil _ }
      integer_digits := digits_take hdigits _
      integer_lead := noLeadingZero_take hdigits hne one_pos
      fraction_digits := digits_drop hdigits _ }

theorem layoutLiteral_negative (negative : Bool) (n : ℤ) :
    (layoutLiteral hdigits hne negative n).negative = negative := by
  unfold layoutLiteral
  split_ifs <;> rfl

theorem layoutLiteral_text (negative : Bool) (n : ℤ) :
    (layoutLiteral hdigits hne negative n).text =
      (if negative then text "-" else []) ++ layoutDigits digits n := by
  have hlength : 1 ≤ digits.length := List.length_pos_iff.mpr hne
  have hminus : text "-" = [minusSign] := rfl
  have hplus : text "+" = [plusSign] := rfl
  have hdot : text "." = [decimalPoint] := rfl
  have hmark : text "e" = [lowerE] := rfl
  have hzero : text "0." = [zeroDigit, decimalPoint] := rfl
  by_cases hfixed : (digits.length : ℤ) ≤ n ∧ n ≤ 21
  · simp [layoutLiteral, layoutDigits, hfixed, NumberLiteral.text,
      NumberLiteral.fractionText, NumberLiteral.exponentText, hminus]
  · by_cases hpoint : 0 < n ∧ n ≤ 21
    · have hdrop : ¬ digits.length ≤ n.toNat := by omega
      rw [layoutLiteral, layoutDigits, if_neg hfixed, dif_pos hpoint]
      simp only [if_neg hfixed, if_pos hpoint]
      simp [NumberLiteral.text, NumberLiteral.fractionText, NumberLiteral.exponentText,
        hminus, hdot, hdrop]
    · by_cases hsmall : -6 < n ∧ n ≤ 0
      · simp [layoutLiteral, layoutDigits, hfixed, hpoint, hsmall, NumberLiteral.text,
          NumberLiteral.fractionText, NumberLiteral.exponentText, hminus, hzero, hne]
      · have hsign : (if 0 ≤ n - 1 then text "+" else text "-") =
            Exponent.signText (some (decide (n - 1 < 0))) := by
          by_cases hn : 0 ≤ n - 1
          · rw [if_pos hn, decide_eq_false (by omega)]
            exact hplus
          · rw [if_neg hn, decide_eq_true (by omega)]
            exact hminus
        have hsignificand : (if digits.length = 1 then digits
            else digits.take 1 ++ text "." ++ digits.drop 1) =
              digits.take 1 ++ if digits.drop 1 = [] then []
                else decimalPoint :: digits.drop 1 := by
          by_cases hone : digits.length = 1
          · have hdrop : digits.drop 1 = [] := List.drop_eq_nil_of_le hone.le
            rw [if_pos hone, hdrop, if_pos rfl, List.append_nil,
              List.take_of_length_le hone.le]
          · have hdrop : digits.drop 1 ≠ [] := by
              rw [ne_eq, List.drop_eq_nil_iff]
              omega
            rw [if_neg hone, if_neg hdrop, hdot, List.append_assoc]
            rfl
        rw [layoutLiteral, layoutDigits, if_neg hfixed, dif_neg hpoint, if_neg hsmall]
        simp only [if_neg hfixed, if_neg hpoint, if_neg hsmall, hsign, hsignificand]
        simp [NumberLiteral.text, NumberLiteral.fractionText,
          NumberLiteral.exponentText, Exponent.text, hminus, hmark]

theorem layoutLiteral_magnitude (negative : Bool) (n : ℤ) :
    (layoutLiteral hdigits hne negative n).magnitude = decimalValue digits n := by
  have hlength : 1 ≤ digits.length := List.length_pos_iff.mpr hne
  have hten : (10 : ℚ) ≠ 0 := by norm_num
  by_cases hfixed : (digits.length : ℤ) ≤ n ∧ n ≤ 21
  · have hexponent : ((n.toNat - digits.length : ℕ) : ℤ) = n - digits.length := by omega
    simp [layoutLiteral, hfixed, NumberLiteral.magnitude, NumberLiteral.digits,
      NumberLiteral.exponentValue, naturalValue_append, decimalValue, ← hexponent]
  · by_cases hpoint : 0 < n ∧ n ≤ 21
    · have hexponent : -((digits.length - n.toNat : ℕ) : ℤ) = n - digits.length := by
        omega
      simp only [layoutLiteral, if_neg hfixed, dif_pos hpoint, NumberLiteral.magnitude,
        NumberLiteral.digits, NumberLiteral.exponentValue, List.take_append_drop,
        Option.elim_none, List.length_drop, zero_sub, hexponent, decimalValue]
    · by_cases hsmall : -6 < n ∧ n ≤ 0
      · have hexponent : (0 : ℤ) - (((-n).toNat + digits.length : ℕ) : ℤ) =
            n - digits.length := by
          omega
        have hvalue : naturalValue (zeroDigit ::
            (List.replicate (-n).toNat zeroDigit ++ digits)) = naturalValue digits := by
          rw [naturalValue_cons, naturalValue_append, naturalValue_replicate_zero]
          simp [digitValue, zeroDigit]
        simp only [layoutLiteral, if_neg hfixed, dif_neg hpoint, if_pos hsmall,
          NumberLiteral.magnitude, NumberLiteral.digits, NumberLiteral.exponentValue,
          List.singleton_append, hvalue, Option.elim_none, List.length_append,
          List.length_replicate, hexponent, decimalValue]
      · have hexponent : (if some (decide (n - 1 < 0)) = some true
            then -((n - 1).natAbs : ℤ) else ((n - 1).natAbs : ℤ)) -
              ((digits.length - 1 : ℕ) : ℤ) = n - digits.length := by
          by_cases hn : n - 1 < 0
          · rw [if_pos (by rw [decide_eq_true hn])]
            omega
          · rw [if_neg (by rw [decide_eq_false hn]; decide)]
            omega
        simp only [layoutLiteral, if_neg hfixed, dif_neg hpoint, if_neg hsmall,
          NumberLiteral.magnitude, NumberLiteral.digits, NumberLiteral.exponentValue,
          List.take_append_drop, Option.elim_some, Exponent.value,
          naturalValue_decimalText, List.length_drop, hexponent, decimalValue]

end Layout

/-! ## Floats that are safe integers -/

section Integral

variable (float : FloatRepr) {m : Magnitude} {N : ℕ}

/-- A number that rounds to a safe integer lies strictly between the
neighbours of that integer. -/
theorem between_neighbours {q : ℚ} (hq : nearest q = some m) (hm : m.value = N)
    (hpos : 0 < N) (hsafe : N ≤ maxSafeInteger) : (N : ℚ) - 1 < q ∧ q < N + 1 := by
  have hbound : N + 1 ≤ 2 ^ 53 := by
    unfold maxSafeInteger at hsafe
    omega
  constructor
  · by_contra hlow
    obtain ⟨a, ha⟩ := exists_magnitude_natCast (n := N - 1) (by omega)
    have hcast : ((N - 1 : ℕ) : ℚ) = N - 1 := by
      push_cast [Nat.cast_sub (Nat.one_le_iff_ne_zero.mpr hpos.ne')]
      rfl
    have hle := nearest_le (a := a) hq (by rw [ha, hcast]; exact not_lt.mp hlow)
    rw [ha, hm] at hle
    have : N ≤ N - 1 := by exact_mod_cast hle
    omega
  · by_contra hhigh
    obtain ⟨a, ha⟩ := exists_magnitude_natCast hbound
    have hle := le_nearest (a := a) hq (by rw [ha]; push_cast; exact not_lt.mp hhigh)
    rw [ha, hm] at hle
    have : N + 1 ≤ N := by exact_mod_cast hle
    omega

theorem shortestDigits_length_le {c : ℕ} {t : ℤ} (hm : m ≠ .zero)
    (hc : nearest (c * 10 ^ t) = some m) :
    (shortestDigits float m).1.length ≤ (decimalText c).length := by
  rw [shortestDigits_fst float hm]
  exact float.shortest hm hc

/-- A digit string of one digit that stands for less than one does not round to
one. -/
theorem nearest_ne_of_lt_one {digits : Text} (hdigits : Digits digits)
    (hone : digits.length = 1) {n : ℤ} (hn : n ≤ 0) (hvalue : m.value = 1) :
    nearest (decimalValue digits n) ≠ some m := by
  intro hnearest
  obtain ⟨a, ha⟩ := exists_magnitude (n := 15) (t := -4) (by norm_num) (by norm_num)
    (by norm_num)
  have hnine : (naturalValue digits : ℚ) ≤ 9 := by
    have := naturalValue_lt hdigits
    rw [hone] at this
    exact_mod_cast Nat.lt_succ_iff.mp this
  have hscale : (10 : ℚ) ^ (n - digits.length) ≤ 10 ^ (-1 : ℤ) := by
    apply zpow_le_zpow_right₀ (by norm_num)
    omega
  have hbelow : decimalValue digits n ≤ a.value := by
    calc
      decimalValue digits n ≤ 9 * 10 ^ (-1 : ℤ) := by
        unfold decimalValue
        gcongr
      _ ≤ 15 * 2 ^ (-4 : ℤ) := by norm_num
      _ = a.value := by rw [ha]; norm_num
  have hle := nearest_le hnearest hbelow
  rw [hvalue, ha] at hle
  norm_num at hle

variable (hm : m.value = N) (hpos : 0 < N) (hsafe : N ≤ maxSafeInteger)

include hm hpos

theorem ne_zero_of_value : m ≠ .zero := by
  rintro rfl
  rw [Magnitude.value_zero] at hm
  exact hpos.ne (by exact_mod_cast hm)

include hsafe

omit hm hsafe in
theorem pow_length_le : 10 ^ ((decimalText N).length - 1) ≤ N := by
  by_contra hlt
  rcases Nat.eq_zero_or_pos ((decimalText N).length - 1) with hzero | hlength
  · rw [hzero] at hlt
    omega
  · have := length_decimalText_le hlength (not_le.mp hlt)
    omega

/-- The shortest digits of a safe integer have no digit after the point. -/
theorem shortestDigits_length_le_exponent :
    ((shortestDigits float m).1.length : ℤ) ≤ (shortestDigits float m).2 := by
  have hne := ne_zero_of_value hm hpos
  have htrimmed := trimmed_shortestDigits float hne
  have hnil := shortestDigits_ne_nil float hne
  have hnearest := nearest_shortestDigits float hne
  have hexact : nearest ((N : ℚ) * 10 ^ (0 : ℤ)) = some m := by
    rw [zpow_zero, mul_one, ← hm, nearest_value]
  have hdigits := shortestDigits_length_le float hne hexact
  obtain ⟨hlow, -⟩ := between_neighbours hnearest hm hpos hsafe
  obtain ⟨-, hupper⟩ := decimalValue_bounds htrimmed hnil (shortestDigits float m).2
  have hlength : 1 ≤ (shortestDigits float m).1.length := List.length_pos_iff.mpr hnil
  generalize (shortestDigits float m).2 = n at hlow hupper hnearest ⊢
  by_contra hshort
  have hpow := pow_length_le hpos
  have hbelow : (N : ℚ) - 1 < 10 ^ n := hlow.trans hupper
  rcases lt_or_ge 0 n with hn | hn
  · -- `N` is the power of ten itself, which one digit writes.
    obtain ⟨e, rfl⟩ := Int.eq_ofNat_of_zero_le hn.le
    have hle : N ≤ 10 ^ e := by
      have : (N : ℚ) < ((10 ^ e + 1 : ℕ) : ℚ) := by
        push_cast
        rw [zpow_natCast] at hbelow
        linarith
      exact Nat.lt_succ_iff.mp (by exact_mod_cast this)
    have hge : 10 ^ e ≤ N :=
      (Nat.pow_le_pow_right (by norm_num) (by omega)).trans hpow
    have hone : nearest (((1 : ℕ) : ℚ) * 10 ^ (e : ℤ)) = some m := by
      have hcast : ((10 ^ e : ℕ) : ℚ) = 10 ^ e := by push_cast; rfl
      rw [Nat.cast_one, one_mul, zpow_natCast, ← hcast, le_antisymm hge hle, ← hm,
        nearest_value]
    have hshortest := shortestDigits_length_le float hne hone
    have hsingle : (decimalText 1).length = 1 := rfl
    omega
  · -- The decimal is below one, so `N` is one and has one digit.
    have hsmall : (10 : ℚ) ^ n ≤ 1 := zpow_le_one_of_nonpos₀ (by norm_num) hn
    have hN : N = 1 := by
      have : (N : ℚ) < ((2 : ℕ) : ℚ) := by
        push_cast
        linarith
      have : N < 2 := by exact_mod_cast this
      omega
    subst hN
    have hsingle : (decimalText 1).length = 1 := rfl
    exact nearest_ne_of_lt_one htrimmed.digits (by omega) hn
      (by simpa using hm) hnearest

/-- A float that is a positive safe integer is written as that integer. -/
theorem layoutDigits_shortestDigits :
    layoutDigits (shortestDigits float m).1 (shortestDigits float m).2 =
      decimalText N := by
  have hne := ne_zero_of_value hm hpos
  have htrimmed := trimmed_shortestDigits float hne
  have hnil := shortestDigits_ne_nil float hne
  have hnearest := nearest_shortestDigits float hne
  have hlength := shortestDigits_length_le_exponent float hm hpos hsafe
  obtain ⟨hlow, hhigh⟩ := between_neighbours hnearest hm hpos hsafe
  obtain ⟨hlower, -⟩ := decimalValue_bounds htrimmed hnil (shortestDigits float m).2
  generalize (shortestDigits float m).2 = n at hlow hhigh hlower hlength ⊢
  generalize (shortestDigits float m).1 = digits at *
  have hwritten : decimalValue digits n = naturalValue
      (digits ++ List.replicate (n.toNat - digits.length) zeroDigit) := by
    have hexponent : ((n.toNat - digits.length : ℕ) : ℤ) = n - digits.length := by omega
    rw [naturalValue_append, naturalValue_replicate_zero, List.length_replicate,
      decimalValue, ← hexponent, zpow_natCast]
    push_cast
    ring
  have hvalue : naturalValue
      (digits ++ List.replicate (n.toNat - digits.length) zeroDigit) = N := by
    rw [hwritten] at hlow hhigh
    have hupper : naturalValue
        (digits ++ List.replicate (n.toNat - digits.length) zeroDigit) < N + 1 := by
      exact_mod_cast hhigh
    have hlower : N < naturalValue
        (digits ++ List.replicate (n.toNat - digits.length) zeroDigit) + 1 := by
      have := sub_lt_iff_lt_add.mp hlow
      exact_mod_cast this
    omega
  have hbound : n ≤ 21 := by
    by_contra hlarge
    have hbig : (10 : ℚ) ^ (21 : ℤ) ≤ 10 ^ (n - 1) :=
      zpow_le_zpow_right₀ (by norm_num) (by omega)
    have hcast : (N : ℚ) ≤ 9007199254740991 := by exact_mod_cast hsafe
    norm_num at hbig
    linarith
  rw [layoutDigits, if_pos ⟨hlength, hbound⟩, ← hvalue]
  exact (decimalText_naturalValue (digits_append htrimmed.digits (digits_replicate_zero _))
    (htrimmed.noLeadingZero hnil _)).symm

end Integral

end TraigentSchema.Fp2
