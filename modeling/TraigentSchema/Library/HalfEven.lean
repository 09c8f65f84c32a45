import Mathlib

/-!
# Nearest integers, ties to even

Every number has one nearest integer once a tie goes to the even one.  The nearest integer is
monotone, does not leave an interval between two integers, and is what the quotient and the
remainder of an integer division decide.
-/

namespace TraigentSchema.HalfEven

section Nearest

variable {K : Type*} [Field K] [LinearOrder K] [IsStrictOrderedRing K]

/-- No integer is nearer, and a tie has gone to the even one. -/
structure Nearest (q : K) (n : ℤ) : Prop where
  below : (n : K) - 1 / 2 ≤ q
  above : q ≤ n + 1 / 2
  even : q = n - 1 / 2 ∨ q = n + 1 / 2 → Even n

variable {q q' : K} {n n' : ℤ}

/-- Of two numbers the smaller one has the smaller nearest integer. -/
theorem Nearest.mono (hq : Nearest q n) (hq' : Nearest q' n') (hle : q ≤ q') : n ≤ n' := by
  by_contra hlt
  have hstep : n' + 1 ≤ n := by omega
  have hcast : (n' : K) + 1 ≤ n := by exact_mod_cast hstep
  have hlow := hq.below
  have hhigh := hq'.above
  have hnext : (n : K) = n' + 1 := le_antisymm (by linarith) hcast
  have hfirst : q = n - 1 / 2 := by linarith
  have hsecond : q' = n' + 1 / 2 := by linarith
  have heven := hq.even (Or.inl hfirst)
  have heven' := hq'.even (Or.inr hsecond)
  have hsucc : n = n' + 1 := by exact_mod_cast hnext
  rw [hsucc, Int.even_add_one] at heven
  exact heven heven'

theorem Nearest.unique (hq : Nearest q n) (hq' : Nearest q n') : n = n' :=
  le_antisymm (hq.mono hq' le_rfl) (hq'.mono hq le_rfl)

/-- An integer is its own nearest integer. -/
theorem nearest_intCast (n : ℤ) : Nearest (n : K) n where
  below := by linarith
  above := by linarith
  even := by
    rintro (heq | heq)
    · linarith
    · linarith

end Nearest

/-! ## Division -/

/-- The nearest integer to a quotient, from its floor and what is left. -/
def roundHalfEven (numerator denominator : ℤ) : ℤ :=
  let quotient := numerator / denominator
  let twice := 2 * (numerator % denominator)
  if twice < denominator then quotient
  else if twice > denominator then quotient + 1
  else if quotient % 2 = 0 then quotient
  else quotient + 1

section Division

variable {numerator denominator : ℤ}

theorem nearest_roundHalfEven (hpos : 0 < denominator) :
    Nearest ((numerator : ℚ) / denominator) (roundHalfEven numerator denominator) := by
  have hcast : (0 : ℚ) < denominator := by exact_mod_cast hpos
  have hrest : 0 ≤ numerator % denominator := Int.emod_nonneg _ hpos.ne'
  have hsmall : numerator % denominator < denominator := Int.emod_lt_of_pos _ hpos
  have hdivision : (numerator : ℚ) =
      denominator * (numerator / denominator : ℤ) + (numerator % denominator : ℤ) := by
    exact_mod_cast (Int.mul_ediv_add_emod numerator denominator).symm
  -- Both bounds and the ties, with the denominator cleared.
  have hcleared : ∀ n : ℤ,
      2 * denominator * n - denominator ≤ 2 * numerator →
      2 * numerator ≤ 2 * denominator * n + denominator →
      ((2 * numerator = 2 * denominator * n - denominator ∨
        2 * numerator = 2 * denominator * n + denominator) → Even n) →
      Nearest ((numerator : ℚ) / denominator) n := by
    intro n hlow hhigh heven
    have hlow' : 2 * (denominator : ℚ) * n - denominator ≤ 2 * numerator := by
      exact_mod_cast hlow
    have hhigh' : 2 * (numerator : ℚ) ≤ 2 * denominator * n + denominator := by
      exact_mod_cast hhigh
    refine ⟨?_, ?_, ?_⟩
    · rw [le_div_iff₀ hcast]
      linarith
    · rw [div_le_iff₀ hcast]
      linarith
    · rw [div_eq_iff hcast.ne', div_eq_iff hcast.ne']
      rintro (heq | heq)
      · apply heven
        left
        have hclear : 2 * (numerator : ℚ) = 2 * denominator * n - denominator := by
          rw [heq]
          ring
        exact_mod_cast hclear
      · apply heven
        right
        have hclear : 2 * (numerator : ℚ) = 2 * denominator * n + denominator := by
          rw [heq]
          ring
        exact_mod_cast hclear
  have hexact := Int.mul_ediv_add_emod numerator denominator
  have hlinear : 2 * numerator =
      2 * denominator * (numerator / denominator) + 2 * (numerator % denominator) := by
    linarith
  have hnext : 2 * denominator * (numerator / denominator + 1) =
      2 * denominator * (numerator / denominator) + 2 * denominator := by
    ring
  rw [roundHalfEven]
  split_ifs with hless hmore heven
  · exact hcleared _ (by linarith) (by linarith) (by omega)
  · exact hcleared _ (by linarith) (by linarith) (by omega)
  · exact hcleared _ (by linarith) (by linarith) fun _ => Int.even_iff.mpr heven
  · refine hcleared _ (by linarith) (by linarith) fun _ => Int.even_add_one.mpr ?_
    rwa [Int.even_iff]

theorem roundHalfEven_eq_iff (hpos : 0 < denominator) {n : ℤ} :
    roundHalfEven numerator denominator = n ↔ Nearest ((numerator : ℚ) / denominator) n := by
  constructor
  · rintro rfl
    exact nearest_roundHalfEven hpos
  · exact fun hn => (nearest_roundHalfEven hpos).unique hn

theorem roundHalfEven_mono {numerator' : ℤ} (hpos : 0 < denominator)
    (hle : numerator ≤ numerator') :
    roundHalfEven numerator denominator ≤ roundHalfEven numerator' denominator := by
  have hcast : (0 : ℚ) < denominator := by exact_mod_cast hpos
  have hle' : (numerator : ℚ) ≤ numerator' := by exact_mod_cast hle
  exact (nearest_roundHalfEven hpos).mono (nearest_roundHalfEven hpos)
    (div_le_div_of_nonneg_right hle' hcast.le)

/-- A quotient between two integers is rounded to something between them. -/
theorem roundHalfEven_mem {low high : ℤ} (hpos : 0 < denominator)
    (hlow : low * denominator ≤ numerator) (hhigh : numerator ≤ high * denominator) :
    low ≤ roundHalfEven numerator denominator ∧ roundHalfEven numerator denominator ≤ high := by
  have hcast : (0 : ℚ) < denominator := by exact_mod_cast hpos
  have hlow' : (low : ℚ) ≤ numerator / denominator := by
    rw [le_div_iff₀ hcast]
    exact_mod_cast hlow
  have hhigh' : (numerator : ℚ) / denominator ≤ high := by
    rw [div_le_iff₀ hcast]
    exact_mod_cast hhigh
  exact ⟨(nearest_intCast low).mono (nearest_roundHalfEven hpos) hlow',
    (nearest_roundHalfEven hpos).mono (nearest_intCast high) hhigh'⟩

end Division

end TraigentSchema.HalfEven
