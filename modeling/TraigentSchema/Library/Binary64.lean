import Mathlib

/-!
# IEEE-754 double precision and round to nearest

Finite doubles are signed magnitudes `significand * 2 ^ exponent` in canonical
form, so equal magnitudes have equal fields.  `nearest` rounds an exact rational
to the nearest magnitude, ties to even, and reports overflow.  The facts used of
it are exactness on doubles and monotonicity against doubles; both hold across
binades, subnormals included.
-/

namespace TraigentSchema.Binary64

/-- The magnitude of a finite double.  A significand below `2 ^ 52` is allowed
at the least exponent only (zero and the subnormals). -/
structure Magnitude where
  significand : ℕ
  exponent : ℤ
  significand_lt : significand < 2 ^ 53
  le_exponent : -1074 ≤ exponent
  exponent_le : exponent ≤ 971
  canonical : exponent = -1074 ∨ 2 ^ 52 ≤ significand
  deriving DecidableEq, Repr

inductive Double where
  | nan
  | infinity (negative : Bool)
  | finite (negative : Bool) (magnitude : Magnitude)
  deriving DecidableEq, Repr

namespace Magnitude

def zero : Magnitude :=
  ⟨0, -1074, by norm_num, by norm_num, by norm_num, Or.inl rfl⟩

/-- The exact number a magnitude stands for. -/
def value (m : Magnitude) : ℚ :=
  m.significand * 2 ^ m.exponent

theorem value_nonneg (m : Magnitude) : 0 ≤ m.value := by
  unfold value
  positivity

@[simp]
theorem value_zero : zero.value = 0 := by
  simp [zero, value]

theorem value_eq_zero_iff (m : Magnitude) : m.value = 0 ↔ m = zero := by
  constructor
  · intro hvalue
    have htwo : (2 : ℚ) ^ m.exponent ≠ 0 := by positivity
    have hsignificand : m.significand = 0 := by
      simpa [value, htwo] using hvalue
    have hexponent : m.exponent = -1074 := by
      rcases m.canonical with h | h
      · exact h
      · omega
    cases m
    simp_all [zero]
  · rintro rfl
    exact value_zero

/-- On any coarser grid a magnitude is a whole number of steps. -/
theorem value_eq_steps (m : Magnitude) {e : ℤ} (he : e ≤ m.exponent) :
    m.value =
      ((m.significand * 2 ^ (m.exponent - e).toNat : ℕ) : ℚ) * 2 ^ e := by
  have hsplit : m.exponent = ((m.exponent - e).toNat : ℤ) + e := by omega
  have htwo : (2 : ℚ) ≠ 0 := by norm_num
  rw [value]
  nth_rewrite 1 [hsplit]
  rw [zpow_add₀ htwo, zpow_natCast]
  push_cast
  ring

theorem value_lt (m : Magnitude) {e : ℤ} (he : m.exponent < e) :
    m.value < 2 ^ (e + 52) := by
  have hsignificand : (m.significand : ℚ) < 2 ^ 53 := by
    exact_mod_cast m.significand_lt
  calc
    m.value < 2 ^ 53 * 2 ^ m.exponent := by
      unfold value
      gcongr
    _ = (2 : ℚ) ^ (53 + m.exponent) := by
      rw [zpow_add₀ (by norm_num : (2 : ℚ) ≠ 0)]
      norm_num
    _ ≤ 2 ^ (e + 52) := by
      apply zpow_le_zpow_right₀ (by norm_num)
      omega

/-- A magnitude beyond the 53-bit integers is an integer. -/
theorem value_eq_floor_of_lt {m : Magnitude} (hm : ((2 ^ 53 - 1 : ℕ) : ℚ) < m.value) :
    m.value = (⌊m.value⌋ : ℚ) := by
  have hexponent : 0 ≤ m.exponent := by
    by_contra hneg
    have hsignificand : (m.significand : ℚ) ≤ (2 ^ 53 - 1 : ℕ) := by
      exact_mod_cast Nat.le_pred_of_lt m.significand_lt
    have htwo : (2 : ℚ) ^ m.exponent ≤ 1 :=
      zpow_le_one_of_nonpos₀ (by norm_num) (by omega)
    have hle : m.value ≤ (2 ^ 53 - 1 : ℕ) :=
      (mul_le_of_le_one_right (Nat.cast_nonneg _) htwo).trans hsignificand
    exact absurd hm (not_lt.mpr hle)
  have hvalue := m.value_eq_steps hexponent
  rw [zpow_zero, mul_one] at hvalue
  rw [hvalue, Int.floor_natCast]
  simp

/-- The canonical form is unique. -/
theorem value_injective : Function.Injective value := by
  have hexponent : ∀ left right : Magnitude, left.value = right.value →
      ¬ left.exponent < right.exponent := by
    intro left right heq hlt
    have hnormal : 2 ^ 52 ≤ right.significand := by
      rcases right.canonical with h | h
      · have := left.le_exponent
        omega
      · exact h
    have hlow : (2 : ℚ) ^ (right.exponent + 52) ≤ right.value := by
      have hcast : (2 : ℚ) ^ 52 ≤ right.significand := by exact_mod_cast hnormal
      calc
        (2 : ℚ) ^ (right.exponent + 52) = 2 ^ 52 * 2 ^ right.exponent := by
          rw [add_comm, zpow_add₀ (by norm_num : (2 : ℚ) ≠ 0)]
          norm_num
        _ ≤ right.value := by
          unfold value
          gcongr
    exact absurd (left.value_lt hlt) (by rw [heq]; exact not_lt.mpr hlow)
  intro left right heq
  have hexp : left.exponent = right.exponent :=
    le_antisymm (not_lt.mp (hexponent right left heq.symm))
      (not_lt.mp (hexponent left right heq))
  have hsig : left.significand = right.significand := by
    have htwo : (2 : ℚ) ^ right.exponent ≠ 0 := by positivity
    simpa [value, hexp, htwo] using heq
  cases left
  cases right
  simp_all

end Magnitude

/-- A full significand is the least one of the next binade. -/
private theorem value_carry {t : ℤ} (hlow : -1074 ≤ t) (hhigh : t < 971) :
    (⟨2 ^ 52, t + 1, by norm_num, by omega, by omega, Or.inr le_rfl⟩ :
      Magnitude).value = ((2 ^ 53 : ℕ) : ℚ) * 2 ^ t := by
  rw [Magnitude.value, zpow_add₀ (by norm_num : (2 : ℚ) ≠ 0)]
  push_cast
  ring

/-- A whole number of steps of a fine enough grid is a magnitude. -/
theorem exists_magnitude {n : ℕ} {t : ℤ} (hn : n ≤ 2 ^ 53)
    (hlow : -1074 ≤ t) (hhigh : t < 971) :
    ∃ m : Magnitude, m.value = (n : ℚ) * 2 ^ t := by
  induction hsteps : (t + 1074).toNat generalizing n t with
  | zero =>
      rcases hn.lt_or_eq with hlt | rfl
      · exact ⟨⟨n, t, hlt, hlow, hhigh.le, Or.inl (by omega)⟩, rfl⟩
      · exact ⟨_, value_carry hlow hhigh⟩
  | succ steps ih =>
      by_cases hnormal : 2 ^ 52 ≤ n
      · rcases hn.lt_or_eq with hlt | rfl
        · exact ⟨⟨n, t, hlt, hlow, hhigh.le, Or.inr hnormal⟩, rfl⟩
        · exact ⟨_, value_carry hlow hhigh⟩
      · obtain ⟨m, hm⟩ := ih (n := 2 * n) (t := t - 1) (by omega) (by omega)
          (by omega) (by omega)
        refine ⟨m, ?_⟩
        rw [hm, zpow_sub₀ (by norm_num : (2 : ℚ) ≠ 0)]
        push_cast
        ring

theorem exists_magnitude_natCast {n : ℕ} (hn : n ≤ 2 ^ 53) :
    ∃ m : Magnitude, m.value = n := by
  simpa using exists_magnitude (t := 0) hn (by norm_num) (by norm_num)

/-! ## Rounding to nearest, ties to even -/

def roundHalfEven (q : ℚ) : ℕ :=
  let below := ⌊q⌋₊
  let rest := q - below
  if rest < 1 / 2 then below
  else if 1 / 2 < rest then below + 1
  else if below % 2 = 0 then below
  else below + 1

theorem le_roundHalfEven {n : ℕ} {q : ℚ} (hn : (n : ℚ) ≤ q) :
    n ≤ roundHalfEven q := by
  have hfloor : n ≤ ⌊q⌋₊ := Nat.le_floor hn
  unfold roundHalfEven
  dsimp only
  split_ifs <;> omega

theorem roundHalfEven_le {n : ℕ} {q : ℚ} (hn : q ≤ n) :
    roundHalfEven q ≤ n := by
  have hfloor : ⌊q⌋₊ ≤ n := Nat.floor_le_of_le hn
  unfold roundHalfEven
  dsimp only
  rcases hfloor.lt_or_eq with hlt | heq
  · split_ifs <;> omega
  · have hrest : q - (⌊q⌋₊ : ℚ) < 1 / 2 := by
      rw [heq]
      linarith
    rw [if_pos hrest]
    exact hfloor

/-- The exponent of the grid of doubles around a positive number. -/
def gridExponent (q : ℚ) : ℤ :=
  max (-1074) (Int.log 2 q - 52)

def gridSignificand (q : ℚ) : ℕ :=
  roundHalfEven (q / 2 ^ gridExponent q)

theorem gridSignificand_le (q : ℚ) : gridSignificand q ≤ 2 ^ 53 := by
  have hlog : q < (2 : ℚ) ^ (Int.log 2 q + 1) := by
    exact_mod_cast Int.lt_zpow_succ_log_self (b := 2) (by norm_num) q
  have hgrid : (2 : ℚ) ^ (Int.log 2 q + 1) ≤ 2 ^ (53 + gridExponent q) := by
    apply zpow_le_zpow_right₀ (by norm_num)
    unfold gridExponent
    omega
  apply roundHalfEven_le
  rw [div_le_iff₀ (by positivity)]
  calc
    q ≤ (2 : ℚ) ^ (53 + gridExponent q) := (hlog.trans_le hgrid).le
    _ = ((2 ^ 53 : ℕ) : ℚ) * 2 ^ gridExponent q := by
      rw [zpow_add₀ (by norm_num : (2 : ℚ) ≠ 0)]
      norm_num

private theorem zpow_gridExponent_le {q : ℚ} (hq : 0 < q)
    (hgrid : gridExponent q ≠ -1074) :
    (2 : ℚ) ^ (gridExponent q + 52) ≤ q := by
  have hexponent : gridExponent q + 52 = Int.log 2 q := by
    unfold gridExponent at hgrid ⊢
    omega
  rw [hexponent]
  exact_mod_cast Int.zpow_log_le_self (b := 2) (by norm_num) hq

theorem gridSignificand_canonical {q : ℚ} (hq : 0 < q) :
    gridExponent q = -1074 ∨ 2 ^ 52 ≤ gridSignificand q := by
  by_cases hgrid : gridExponent q = -1074
  · exact Or.inl hgrid
  · right
    apply le_roundHalfEven
    rw [le_div_iff₀ (by positivity)]
    calc
      ((2 ^ 52 : ℕ) : ℚ) * 2 ^ gridExponent q =
          (2 : ℚ) ^ (gridExponent q + 52) := by
        rw [zpow_add₀ (by norm_num : (2 : ℚ) ≠ 0)]
        norm_num
        ring
      _ ≤ q := zpow_gridExponent_le hq hgrid

/-- The nearest magnitude to a number, ties to even; `none` on overflow.  A
significand rounded up to `2 ^ 53` starts the next binade. -/
def nearest (q : ℚ) : Option Magnitude :=
  if hq : 0 < q then
    if hsmall : gridSignificand q < 2 ^ 53 then
      if hexponent : gridExponent q ≤ 971 then
        some ⟨gridSignificand q, gridExponent q, hsmall, le_max_left _ _,
          hexponent, gridSignificand_canonical hq⟩
      else none
    else if hexponent : gridExponent q + 1 ≤ 971 then
      some ⟨2 ^ 52, gridExponent q + 1, by norm_num,
        (le_max_left _ _).trans (Int.le_add_one le_rfl), hexponent,
        Or.inr le_rfl⟩
    else none
  else some .zero

theorem nearest_value_eq {q : ℚ} {m : Magnitude} (hq : 0 < q)
    (hnearest : nearest q = some m) :
    m.value = gridSignificand q * 2 ^ gridExponent q := by
  unfold nearest at hnearest
  rw [dif_pos hq] at hnearest
  by_cases hsmall : gridSignificand q < 2 ^ 53
  · rw [dif_pos hsmall] at hnearest
    split_ifs at hnearest
    obtain rfl := Option.some.inj hnearest
    rfl
  · rw [dif_neg hsmall] at hnearest
    split_ifs at hnearest
    obtain rfl := Option.some.inj hnearest
    have hcarry : gridSignificand q = 2 ^ 53 :=
      le_antisymm (gridSignificand_le q) (not_lt.mp hsmall)
    rw [hcarry, Magnitude.value, zpow_add₀ (by norm_num : (2 : ℚ) ≠ 0)]
    push_cast
    ring

private theorem grid_le {q : ℚ} (hq : 0 < q) {a : Magnitude}
    (hle : q ≤ a.value) :
    (gridSignificand q : ℚ) * 2 ^ gridExponent q ≤ a.value := by
  have hgrid : gridExponent q ≤ a.exponent := by
    by_contra hfine
    have hfine := not_le.mp hfine
    have hne : gridExponent q ≠ -1074 := by
      have := a.le_exponent
      omega
    exact absurd ((zpow_gridExponent_le hq hne).trans hle)
      (not_le.mpr (a.value_lt hfine))
  rw [a.value_eq_steps hgrid] at hle ⊢
  have hsteps := roundHalfEven_le
    ((div_le_iff₀ (by positivity : (0 : ℚ) < 2 ^ gridExponent q)).mpr hle)
  gcongr
  exact hsteps

private theorem le_grid {q : ℚ} (hq : 0 < q) {a : Magnitude}
    (hle : a.value ≤ q) :
    a.value ≤ (gridSignificand q : ℚ) * 2 ^ gridExponent q := by
  rcases le_or_gt (gridExponent q) a.exponent with hgrid | hfine
  · rw [a.value_eq_steps hgrid] at hle ⊢
    have hsteps := le_roundHalfEven
      ((le_div_iff₀ (by positivity : (0 : ℚ) < 2 ^ gridExponent q)).mpr hle)
    gcongr
    exact hsteps
  · have hnormal : 2 ^ 52 ≤ gridSignificand q := by
      rcases gridSignificand_canonical hq with h | h
      · have := a.le_exponent
        omega
      · exact h
    have hcast : (2 : ℚ) ^ 52 ≤ gridSignificand q := by exact_mod_cast hnormal
    calc
      a.value ≤ (2 : ℚ) ^ (gridExponent q + 52) := (a.value_lt hfine).le
      _ = 2 ^ 52 * 2 ^ gridExponent q := by
        rw [add_comm, zpow_add₀ (by norm_num : (2 : ℚ) ≠ 0)]
        norm_num
      _ ≤ gridSignificand q * 2 ^ gridExponent q := by gcongr

theorem nearest_of_nonpos {q : ℚ} (hq : ¬ 0 < q) :
    nearest q = some .zero := by
  rw [nearest, dif_neg hq]

/-- A number below a double rounds to something no larger than it. -/
theorem nearest_le {q : ℚ} {m a : Magnitude} (hnearest : nearest q = some m)
    (hle : q ≤ a.value) : m.value ≤ a.value := by
  by_cases hq : 0 < q
  · rw [nearest_value_eq hq hnearest]
    exact grid_le hq hle
  · rw [nearest_of_nonpos hq, Option.some.injEq] at hnearest
    rw [← hnearest, Magnitude.value_zero]
    exact a.value_nonneg

/-- A number above a double rounds to something no smaller than it. -/
theorem le_nearest {q : ℚ} {m a : Magnitude} (hnearest : nearest q = some m)
    (hle : a.value ≤ q) : a.value ≤ m.value := by
  by_cases hq : 0 < q
  · rw [nearest_value_eq hq hnearest]
    exact le_grid hq hle
  · exact (hle.trans (not_lt.mp hq)).trans m.value_nonneg

/-- Nothing below a double overflows. -/
theorem nearest_isSome {q : ℚ} {a : Magnitude} (hle : q ≤ a.value) :
    (nearest q).isSome := by
  by_cases hq : 0 < q
  · have hbound := (grid_le hq hle).trans_lt
      (a.value_lt (e := 972) (by have := a.exponent_le; omega))
    have hexponent : ∀ n : ℕ, 2 ^ n ≤ gridSignificand q →
        gridExponent q + n < 1024 := by
      intro n hn
      have hcast : (2 : ℚ) ^ n ≤ gridSignificand q := by exact_mod_cast hn
      have hpow : (2 : ℚ) ^ (gridExponent q + n) < 2 ^ (1024 : ℤ) := by
        calc
          (2 : ℚ) ^ (gridExponent q + n) = 2 ^ n * 2 ^ gridExponent q := by
            rw [add_comm, zpow_add₀ (by norm_num : (2 : ℚ) ≠ 0), zpow_natCast]
          _ ≤ gridSignificand q * 2 ^ gridExponent q := by gcongr
          _ < 2 ^ ((972 : ℤ) + 52) := hbound
          _ = 2 ^ (1024 : ℤ) := by norm_num
      exact (zpow_lt_zpow_iff_right₀ (by norm_num : (1 : ℚ) < 2)).mp hpow
    unfold nearest
    rw [dif_pos hq]
    by_cases hsmall : gridSignificand q < 2 ^ 53
    · have hle971 : gridExponent q ≤ 971 := by
        rcases gridSignificand_canonical hq with h | h
        · omega
        · have := hexponent 52 h
          push_cast at this
          omega
      rw [dif_pos hsmall, dif_pos hle971]
      rfl
    · have hcarry := hexponent 53 (not_lt.mp hsmall)
      rw [dif_neg hsmall, dif_pos (by push_cast at hcarry; omega)]
      rfl
  · rw [nearest_of_nonpos hq]
    rfl

/-- Rounding is exact on doubles. -/
theorem nearest_value (a : Magnitude) : nearest a.value = some a := by
  obtain ⟨m, hm⟩ := Option.isSome_iff_exists.mp (nearest_isSome (le_refl a.value))
  have hvalue : m.value = a.value :=
    le_antisymm (nearest_le hm le_rfl) (le_nearest hm le_rfl)
  rw [hm, Magnitude.value_injective hvalue]

/-- Rounding is exact on the integers up to `2 ^ 53`. -/
theorem value_of_nearest_natCast {n : ℕ} {m : Magnitude} (hn : n ≤ 2 ^ 53)
    (hnearest : nearest n = some m) : m.value = n := by
  obtain ⟨a, ha⟩ := exists_magnitude_natCast hn
  rw [← ha, nearest_value, Option.some.injEq] at hnearest
  rw [← hnearest, ha]

end TraigentSchema.Binary64
