import TraigentSchema.Library.Unicode

/-!
# Decimal digit strings

Digit strings as texts, the natural number a digit string denotes, and the
canonical digit string of a natural number.  Stripping zeros from either end
changes the number only by a known power of ten.
-/

namespace TraigentSchema.Decimal

open TraigentSchema.Unicode

/-- The code point of `0`. -/
abbrev zeroDigit : CodePoint := 48

def IsDigit (c : CodePoint) : Prop :=
  48 ≤ c.val ∧ c.val ≤ 57

instance (c : CodePoint) : Decidable (IsDigit c) :=
  inferInstanceAs (Decidable (_ ∧ _))

def digitChar (d : ℕ) : CodePoint :=
  ⟨48 + d % 10, by omega⟩

def digitValue (c : CodePoint) : ℕ :=
  c.val - 48

/-- A text made of ASCII digits. -/
def Digits (s : Text) : Prop :=
  ∀ c ∈ s, IsDigit c

theorem digits_nil : Digits [] := by
  simp [Digits]

instance (s : Text) : Decidable (Digits s) :=
  inferInstanceAs (Decidable (∀ c ∈ s, IsDigit c))

theorem isDigit_zeroDigit : IsDigit zeroDigit := by
  decide

theorem digits_singleton {c : CodePoint} (hc : IsDigit c) : Digits [c] := by
  simpa [Digits] using hc

theorem isDigit_digitChar (d : ℕ) : IsDigit (digitChar d) := by
  constructor <;> simp only [digitChar] <;> omega

/-- A digit below ten is read back from its character. -/
theorem digitValue_digitChar {d : ℕ} (hd : d < 10) :
    digitValue (digitChar d) = d := by
  simp only [digitValue, digitChar]
  omega

/-- A digit character is that of its value. -/
theorem digitChar_digitValue {c : CodePoint} (hc : IsDigit c) :
    digitChar (digitValue c) = c := by
  apply Fin.ext
  obtain ⟨hlow, hhigh⟩ := hc
  simp only [digitValue, digitChar]
  omega

theorem digitValue_lt {c : CodePoint} (hc : IsDigit c) : digitValue c < 10 := by
  obtain ⟨hlow, hhigh⟩ := hc
  simp only [digitValue]
  omega

/-- The character of zero alone has value zero. -/
theorem digitValue_eq_zero_iff {c : CodePoint} (hc : IsDigit c) :
    digitValue c = 0 ↔ c = zeroDigit := by
  obtain ⟨hlow, hhigh⟩ := hc
  rw [Fin.ext_iff, digitValue]
  change c.val - 48 = 0 ↔ c.val = 48
  omega

/-! ## The number a digit string denotes -/

def naturalValue (s : Text) : ℕ :=
  s.foldl (fun total c => 10 * total + digitValue c) 0

@[simp]
theorem naturalValue_nil : naturalValue [] = 0 := rfl

/-- The digits in front count for the length of those behind them. -/
theorem naturalValue_append (left right : Text) :
    naturalValue (left ++ right) =
      naturalValue left * 10 ^ right.length + naturalValue right := by
  induction right using List.reverseRecOn with
  | nil => simp
  | append_singleton right c ih =>
      have hstep : ∀ s : Text,
          naturalValue (s ++ [c]) = 10 * naturalValue s + digitValue c := by
        intro s
        simp [naturalValue, List.foldl_append]
      rw [← List.append_assoc, hstep, hstep, ih, List.length_append,
        List.length_singleton, pow_succ]
      ring

theorem naturalValue_cons (c : CodePoint) (s : Text) :
    naturalValue (c :: s) =
      digitValue c * 10 ^ s.length + naturalValue s := by
  have hsingle : naturalValue [c] = digitValue c := by simp [naturalValue]
  simpa [hsingle] using naturalValue_append [c] s

@[simp]
theorem naturalValue_replicate_zero (n : ℕ) :
    naturalValue (List.replicate n zeroDigit) = 0 := by
  induction n with
  | zero => rfl
  | succ n ih =>
      rw [List.replicate_succ, naturalValue_cons, ih]
      simp [digitValue, zeroDigit]

/-- The value is that of Mathlib's digit lists, whose least digit comes first. -/
theorem naturalValue_eq_ofDigits (s : Text) :
    naturalValue s = Nat.ofDigits 10 (s.reverse.map digitValue) := by
  induction s with
  | nil => rfl
  | cons c s ih =>
      rw [naturalValue_cons, List.reverse_cons, List.map_append,
        Nat.ofDigits_append, ← ih]
      simp
      ring

/-- So many digits stay below that power of ten. -/
theorem naturalValue_lt {s : Text} (hs : Digits s) :
    naturalValue s < 10 ^ s.length := by
  rw [naturalValue_eq_ofDigits]
  have hbound := Nat.ofDigits_lt_base_pow_length (b := 10)
    (l := s.reverse.map digitValue) (by norm_num) (by
      intro d hd
      obtain ⟨c, hc, rfl⟩ := List.mem_map.mp hd
      exact digitValue_lt (hs c (List.mem_reverse.mp hc)))
  simpa using hbound

/-- A leading digit other than zero fixes the magnitude. -/
theorem le_naturalValue {c : CodePoint} {s : Text} (hc : IsDigit c)
    (hzero : c ≠ zeroDigit) : 10 ^ s.length ≤ naturalValue (c :: s) := by
  have hpos : 1 ≤ digitValue c :=
    Nat.one_le_iff_ne_zero.mpr (mt (digitValue_eq_zero_iff hc).mp hzero)
  calc
    10 ^ s.length = 1 * 10 ^ s.length := (one_mul _).symm
    _ ≤ digitValue c * 10 ^ s.length := Nat.mul_le_mul_right _ hpos
    _ ≤ naturalValue (c :: s) := by
      rw [naturalValue_cons]
      exact Nat.le_add_right _ _

/-! ## The digit string of a number -/

/-- The decimal digits of a natural number without leading zeros. -/
def decimalText (n : ℕ) : Text :=
  if n = 0 then [zeroDigit] else (Nat.digits 10 n).reverse.map digitChar

theorem digits_decimalText (n : ℕ) : Digits (decimalText n) := by
  unfold decimalText
  split_ifs
  · simp only [Digits, List.mem_singleton]
    rintro c rfl
    decide
  · intro c hc
    obtain ⟨d, -, rfl⟩ := List.mem_map.mp hc
    exact isDigit_digitChar d

theorem decimalText_ne_nil (n : ℕ) : decimalText n ≠ [] := by
  unfold decimalText
  split_ifs with hn
  · simp
  · simpa using Nat.digits_ne_nil_iff_ne_zero.mpr hn

/-- A number is read back from its decimal text. -/
@[simp]
theorem naturalValue_decimalText (n : ℕ) : naturalValue (decimalText n) = n := by
  unfold decimalText
  split_ifs with hn
  · subst hn
    decide
  · have hdigits : ((Nat.digits 10 n).map digitChar).map digitValue =
        Nat.digits 10 n := by
      rw [List.map_map]
      conv_rhs => rw [← List.map_id (Nat.digits 10 n)]
      apply List.map_congr_left
      intro d hd
      exact digitValue_digitChar (Nat.digits_lt_base (by norm_num) hd)
    rw [naturalValue_eq_ofDigits, ← List.map_reverse, List.reverse_reverse,
      hdigits, Nat.ofDigits_digits]

/-- A digit string with no superfluous leading zero. -/
def NoLeadingZero (s : Text) : Prop :=
  s = [zeroDigit] ∨ ∃ c rest, s = c :: rest ∧ c ≠ zeroDigit

/-- A decimal text starts with zero only as "0". -/
theorem noLeadingZero_decimalText (n : ℕ) : NoLeadingZero (decimalText n) := by
  by_cases hn : n = 0
  · exact Or.inl (by simp [decimalText, hn])
  · right
    have hne := (Nat.digits_ne_nil_iff_ne_zero (b := 10)).mpr hn
    have hlast := Nat.getLast_digit_ne_zero 10 hn
    obtain ⟨front, hsplit⟩ : ∃ front,
        Nat.digits 10 n = front ++ [(Nat.digits 10 n).getLast hne] :=
      ⟨_, (List.dropLast_append_getLast hne).symm⟩
    have hlt : (Nat.digits 10 n).getLast hne < 10 :=
      Nat.digits_lt_base (by norm_num) (List.getLast_mem hne)
    refine ⟨digitChar ((Nat.digits 10 n).getLast hne),
      front.reverse.map digitChar, ?_, ?_⟩
    · rw [decimalText, if_neg hn]
      conv_lhs => rw [hsplit]
      simp
    · intro hzero
      apply hlast
      rw [← digitValue_digitChar hlt, hzero]
      rfl

/-- A digit string without a superfluous leading zero is the digit string of
the number it denotes. -/
theorem decimalText_naturalValue {s : Text} (hs : Digits s)
    (hlead : NoLeadingZero s) : decimalText (naturalValue s) = s := by
  rcases hlead with rfl | ⟨c, rest, rfl, hc⟩
  · rfl
  · have hpos : naturalValue (c :: rest) ≠ 0 := by
      have hle := le_naturalValue (hs c (by simp)) (s := rest) hc
      have : 0 < 10 ^ rest.length := by positivity
      omega
    have hdigits : Nat.digits 10 (naturalValue (c :: rest)) =
        (c :: rest).reverse.map digitValue := by
      rw [naturalValue_eq_ofDigits]
      apply Nat.digits_ofDigits 10 (by norm_num)
      · intro d hd
        obtain ⟨c', hc', rfl⟩ := List.mem_map.mp hd
        exact digitValue_lt (hs c' (List.mem_reverse.mp hc'))
      · intro hne
        simpa [List.map_append, List.getLast_append] using
          mt (digitValue_eq_zero_iff (hs c (by simp))).mp hc
    rw [decimalText, if_neg hpos, hdigits, ← List.map_reverse,
      List.reverse_reverse, List.map_map]
    conv_rhs => rw [← List.map_id (c :: rest)]
    apply List.map_congr_left
    intro c' hc'
    exact digitChar_digitValue (hs c' hc')

/-- Different numbers have different texts. -/
theorem decimalText_injective : Function.Injective decimalText := by
  intro left right heq
  simpa using congrArg naturalValue heq

/-- A number below a power of ten has no more digits than its exponent. -/
theorem length_decimalText_le {n k : ℕ} (hk : 0 < k) (hn : n < 10 ^ k) :
    (decimalText n).length ≤ k := by
  rcases noLeadingZero_decimalText n with hzero | ⟨c, rest, hsplit, hc⟩
  · rw [hzero]
    exact hk
  · have hdigit : IsDigit c := digits_decimalText n c (by simp [hsplit])
    have hle := le_naturalValue hdigit (s := rest) hc
    rw [← hsplit, naturalValue_decimalText] at hle
    have hlt : rest.length < k :=
      (Nat.pow_lt_pow_iff_right (by norm_num)).mp (hle.trans_lt hn)
    rw [hsplit]
    simpa using hlt

/-! ## Stripping zeros -/

def stripLeading (s : Text) : Text :=
  s.dropWhile (· = zeroDigit)

def stripTrailing (s : Text) : Text :=
  s.rdropWhile (· = zeroDigit)

/-- What is stripped in front are zeros only. -/
theorem exists_replicate_stripLeading (s : Text) :
    s = List.replicate (s.length - (stripLeading s).length) zeroDigit ++
      stripLeading s := by
  have hsplit := List.takeWhile_append_dropWhile (p := (· = zeroDigit)) (l := s)
  have hzeros : s.takeWhile (· = zeroDigit) =
      List.replicate (s.takeWhile (· = zeroDigit)).length zeroDigit := by
    apply List.eq_replicate_of_mem
    intro c hc
    simpa using List.mem_takeWhile_imp hc
  have hlength : (s.takeWhile (· = zeroDigit)).length =
      s.length - (stripLeading s).length := by
    have := congrArg List.length hsplit
    rw [List.length_append] at this
    unfold stripLeading
    omega
  conv_lhs => rw [← hsplit, hzeros, hlength]
  rfl

/-- What is stripped behind are zeros only. -/
theorem exists_replicate_stripTrailing (s : Text) :
    s = stripTrailing s ++
      List.replicate (s.length - (stripTrailing s).length) zeroDigit := by
  have hmirror := exists_replicate_stripLeading s.reverse
  have hstrip : stripTrailing s = (stripLeading s.reverse).reverse := rfl
  have := congrArg List.reverse hmirror
  simpa [hstrip] using this

/-- Zeros in front do not count. -/
theorem naturalValue_stripLeading (s : Text) :
    naturalValue (stripLeading s) = naturalValue s := by
  conv_rhs => rw [exists_replicate_stripLeading s, naturalValue_append]
  simp

/-- Each zero stripped behind was a factor of ten. -/
theorem naturalValue_stripTrailing (s : Text) :
    naturalValue s = naturalValue (stripTrailing s) *
      10 ^ (s.length - (stripTrailing s).length) := by
  conv_lhs => rw [exists_replicate_stripTrailing s, naturalValue_append]
  simp

/-- Digits with a zero at neither end. -/
structure Trimmed (s : Text) : Prop where
  digits : Digits s
  head : ∀ c ∈ s.head?, c ≠ zeroDigit
  last : ∀ c ∈ s.getLast?, c ≠ zeroDigit

theorem head_stripLeading (s : Text) : ∀ c ∈ (stripLeading s).head?, c ≠ zeroDigit := by
  intro c hc
  have hhead := List.head?_dropWhile_not (p := fun c => decide (c = zeroDigit)) (l := s)
  unfold stripLeading at hc
  rw [Option.mem_def.mp hc] at hhead
  simpa using hhead

theorem last_stripTrailing (s : Text) : ∀ c ∈ (stripTrailing s).getLast?, c ≠ zeroDigit := by
  intro c hc
  have hstrip : stripTrailing s = (stripLeading s.reverse).reverse := rfl
  rw [hstrip, List.getLast?_reverse] at hc
  exact head_stripLeading s.reverse c hc

/-- Stripped on both sides, digits start and end with one that counts. -/
theorem trimmed_strip {s : Text} (hs : Digits s) :
    Trimmed (stripTrailing (stripLeading s)) where
  digits c hc := hs c ((List.dropWhile_sublist _).subset
    ((List.rdropWhile_prefix _ _).subset hc))
  head c hc := by
    have hsplit := exists_replicate_stripTrailing (stripLeading s)
    apply head_stripLeading s c
    rw [hsplit, List.head?_append, Option.mem_def.mp hc]
    rfl
  last := last_stripTrailing _

theorem Trimmed.noLeadingZero {s : Text} (hs : Trimmed s) (hne : s ≠ [])
    (zeros : Text) : NoLeadingZero (s ++ zeros) := by
  cases s with
  | nil => exact absurd rfl hne
  | cons c s => exact Or.inr ⟨c, s ++ zeros, rfl, hs.head c (by simp)⟩

/-- Without a leading zero the first digit reaches its power of ten. -/
theorem Trimmed.le_naturalValue {s : Text} (hs : Trimmed s) (hne : s ≠ []) :
    10 ^ (s.length - 1) ≤ naturalValue s := by
  cases s with
  | nil => exact absurd rfl hne
  | cons c s =>
      exact Decimal.le_naturalValue (hs.digits c (by simp)) (hs.head c (by simp))

/-- No digits are lost by dividing by ten. -/
theorem Trimmed.not_dvd {s : Text} (hs : Trimmed s) (hne : s ≠ []) :
    ¬ 10 ∣ naturalValue s := by
  obtain ⟨front, c, rfl⟩ : ∃ front c, s = front ++ [c] :=
    ⟨s.dropLast, s.getLast hne, (List.dropLast_append_getLast hne).symm⟩
  have hdigit := hs.digits c (by simp)
  have hzero := mt (digitValue_eq_zero_iff hdigit).mp (hs.last c (by simp))
  have hlt := digitValue_lt hdigit
  have hvalue : naturalValue (front ++ [c]) = naturalValue front * 10 + digitValue c := by
    rw [naturalValue_append, naturalValue_cons]
    simp
  rw [hvalue]
  omega

theorem digits_replicate_zero (n : ℕ) : Digits (List.replicate n zeroDigit) := by
  intro c hc
  rw [List.eq_of_mem_replicate hc]
  exact isDigit_zeroDigit

theorem digits_append {left right : Text} (hleft : Digits left) (hright : Digits right) :
    Digits (left ++ right) := by
  intro c hc
  rcases List.mem_append.mp hc with h | h
  · exact hleft c h
  · exact hright c h

end TraigentSchema.Decimal
