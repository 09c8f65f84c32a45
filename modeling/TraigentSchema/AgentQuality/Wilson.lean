import TraigentSchema.AgentQuality.QuantileTable
import TraigentSchema.Library.Bisection

/-!
# Wilson score intervals in integers

The Wilson endpoints are the roots of a quadratic whose coefficients are integers
once everything is scaled.  Two bisections that start from the vertex find the
floor of the lower and the ceiling of the upper root without a square root.
-/

namespace TraigentSchema.AgentQuality

open TraigentSchema.Bisection
open TraigentSchema.Certification
open TraigentSchema.Traverse

def wilsonPoint (successes trials : ℤ) : ℤ :=
  (2 * successes * tScale + trials) / (2 * trials)

section Coefficients

variable (z k n : ℤ)

def coeffA : ℤ := n * (n * (tScale * tScale) + z * z)

def coeffB : ℤ := -n * (2 * k * (tScale * tScale) + z * z) * tScale

def coeffC : ℤ := k * k * (tScale * tScale) * (tScale * tScale)

/-- `q`. -/
def wilsonQuadratic (e : ℤ) : ℤ :=
  coeffA z n * e * e + coeffB z k n * e + coeffC k

def vertexFloor : ℤ :=
  max 0 (min tScale (-coeffB z k n / (2 * coeffA z n)))

def vertexCeil : ℤ :=
  max 0 (min tScale (-(-(-coeffB z k n) / (2 * coeffA z n))))

/-- `_wilson_bounds` from the quantile on. -/
def wilsonEndpoints : ℤ × ℤ :=
  let q := fun e => decide (0 ≤ wilsonQuadratic z k n e)
  (bisectLast q 0 (vertexFloor z k n), bisectFirst q (vertexCeil z k n) tScale)

end Coefficients

/-- The quantile of the normal row, and an exception where the vertex would divide
by zero. -/
def wilsonBounds (table : List QuantileRow) (successes trials coveragePpm : ℤ) :
    Checked (ℤ × ℤ) := do
  let zScaled ← lookupTScaled table coveragePpm infinityDfBucket
  if 2 * coeffA zScaled trials = 0 then .error .other
  else return wilsonEndpoints zScaled successes trials

/-! ## The equation -/

/-- The quadratic in the proportion `p` whose roots are the Wilson endpoints. -/
def wilsonPolynomial (z : ℝ) (k n : ℤ) (p : ℝ) : ℝ :=
  n * (n + z ^ 2) * p ^ 2 - n * (2 * k + z ^ 2) * p + k ^ 2

/-- Its discriminant, without a square factor. -/
noncomputable def wilsonRadical (z : ℝ) (k n : ℤ) : ℝ :=
  √(n * z ^ 2 * (4 * k * (n - k) + n * z ^ 2))

noncomputable def lowerRoot (z : ℝ) (k n : ℤ) : ℝ :=
  (n * (2 * k + z ^ 2) - wilsonRadical z k n) / (2 * (n * (n + z ^ 2)))

noncomputable def upperRoot (z : ℝ) (k n : ℤ) : ℝ :=
  (n * (2 * k + z ^ 2) + wilsonRadical z k n) / (2 * (n * (n + z ^ 2)))

section Roots

variable {z : ℝ} {k n : ℤ} (hz : 0 < z) (hk : 0 ≤ k) (hkn : k ≤ n) (hn : 1 ≤ n)

include hn in
theorem leading_pos : 0 < (n : ℝ) * (n + z ^ 2) := by
  have hnReal : (1 : ℝ) ≤ n := by exact_mod_cast hn
  positivity

include hz hk hkn hn in
theorem radicand_pos : 0 < (n : ℝ) * z ^ 2 * (4 * k * (n - k) + n * z ^ 2) := by
  have hnReal : (1 : ℝ) ≤ n := by exact_mod_cast hn
  have hkReal : (0 : ℝ) ≤ k := by exact_mod_cast hk
  have hrest : (0 : ℝ) ≤ n - k := by
    have hle : (k : ℝ) ≤ n := by exact_mod_cast hkn
    linarith
  positivity

include hz hk hkn hn in
theorem lowerRoot_lt_upperRoot : lowerRoot z k n < upperRoot z k n := by
  have hradical : 0 < wilsonRadical z k n :=
    Real.sqrt_pos.mpr (radicand_pos hz hk hkn hn)
  unfold lowerRoot upperRoot
  have hlead := leading_pos (z := z) hn
  gcongr
  linarith

include hz hk hkn hn in
/-- The polynomial in terms of its roots. -/
theorem wilsonPolynomial_eq (p : ℝ) :
    wilsonPolynomial z k n p =
      n * (n + z ^ 2) * ((p - lowerRoot z k n) * (p - upperRoot z k n)) := by
  have hlead := (leading_pos (z := z) hn).ne'
  have hsquare : wilsonRadical z k n ^ 2 = n * z ^ 2 * (4 * k * (n - k) + n * z ^ 2) :=
    Real.sq_sqrt (radicand_pos hz hk hkn hn).le
  unfold wilsonPolynomial lowerRoot upperRoot
  field_simp
  linear_combination hsquare

include hz hk hkn hn in
theorem wilsonPolynomial_eq_zero_iff {p : ℝ} :
    wilsonPolynomial z k n p = 0 ↔ p = lowerRoot z k n ∨ p = upperRoot z k n := by
  have hlead := (leading_pos (z := z) hn).ne'
  rw [wilsonPolynomial_eq hz hk hkn hn, mul_eq_zero, or_iff_right hlead, mul_eq_zero,
    sub_eq_zero, sub_eq_zero]

include hz hk hkn hn in
/-- The polynomial is negative strictly between the roots only. -/
theorem wilsonPolynomial_nonpos_iff {p : ℝ} :
    wilsonPolynomial z k n p ≤ 0 ↔ lowerRoot z k n ≤ p ∧ p ≤ upperRoot z k n := by
  have hlead := leading_pos (z := z) hn
  have hroots := lowerRoot_lt_upperRoot hz hk hkn hn
  rw [wilsonPolynomial_eq hz hk hkn hn]
  constructor
  · intro hvalue
    have hproduct := nonpos_of_mul_nonpos_right hvalue hlead
    rcases mul_nonpos_iff.mp hproduct with ⟨hlower, hupper⟩ | ⟨hlower, hupper⟩
    · exact ⟨by linarith, by linarith⟩
    · exact ⟨by linarith, by linarith⟩
  · rintro ⟨hlower, hupper⟩
    apply mul_nonpos_of_nonneg_of_nonpos hlead.le
    exact mul_nonpos_of_nonneg_of_nonpos (by linarith) (by linarith)

/-- Counting failures instead of successes turns the roots around. -/
theorem lowerRoot_mirror (hn : 1 ≤ n) :
    lowerRoot z (n - k) n = 1 - upperRoot z k n := by
  have hlead := (leading_pos (z := z) hn).ne'
  have hradical : wilsonRadical z (n - k) n = wilsonRadical z k n := by
    unfold wilsonRadical
    push_cast
    congr 1
    ring
  unfold lowerRoot upperRoot
  rw [hradical]
  push_cast
  field_simp
  ring

theorem upperRoot_mirror (hn : 1 ≤ n) :
    upperRoot z (n - k) n = 1 - lowerRoot z k n := by
  have hmirror := lowerRoot_mirror (z := z) (k := n - k) hn
  rw [sub_sub_cancel] at hmirror
  linarith

include hk hn in
theorem lowerRoot_nonneg : 0 ≤ lowerRoot z k n := by
  have hlead := leading_pos (z := z) hn
  have hnReal : (1 : ℝ) ≤ n := by exact_mod_cast hn
  have hkReal : (0 : ℝ) ≤ k := by exact_mod_cast hk
  have hradical : wilsonRadical z k n ≤ n * (2 * k + z ^ 2) := by
    apply Real.sqrt_le_iff.mpr
    constructor
    · positivity
    · have hdrop : 0 ≤ 4 * (n : ℝ) * (n + z ^ 2) * k ^ 2 := by positivity
      linarith [hdrop]
  unfold lowerRoot
  apply div_nonneg _ (by linarith)
  linarith

include hkn hn in
theorem upperRoot_le_one : upperRoot z k n ≤ 1 := by
  have hmirror := lowerRoot_nonneg (z := z) (sub_nonneg.mpr hkn) hn
  rw [lowerRoot_mirror hn] at hmirror
  linarith

include hz hk hkn hn in
/-- The observed proportion lies between the roots. -/
theorem proportion_mem_roots :
    lowerRoot z k n ≤ (k : ℝ) / n ∧ (k : ℝ) / n ≤ upperRoot z k n := by
  apply (wilsonPolynomial_nonpos_iff hz hk hkn hn).mp
  have hnReal : (0 : ℝ) < n := by exact_mod_cast hn
  have hkReal : (0 : ℝ) ≤ k := by exact_mod_cast hk
  have hle : (k : ℝ) / n ≤ 1 := (div_le_one hnReal).mpr (by exact_mod_cast hkn)
  have hvalue : wilsonPolynomial z k n (k / n) = z ^ 2 * k * (k / n - 1) := by
    unfold wilsonPolynomial
    field_simp
    ring
  rw [hvalue]
  exact mul_nonpos_of_nonneg_of_nonpos (by positivity) (by linarith)

include hz hk hkn hn in
/-- A larger quantile moves both roots outward. -/
theorem roots_mono {z' : ℝ} (hzz : z ≤ z') :
    lowerRoot z' k n ≤ lowerRoot z k n ∧ upperRoot z k n ≤ upperRoot z' k n := by
  have hz' : 0 < z' := hz.trans_le hzz
  have hnReal : (0 : ℝ) < n := by exact_mod_cast hn
  have hsq : z ^ 2 ≤ z' ^ 2 := by gcongr
  have hbelow : ∀ p, 0 ≤ p → p ≤ 1 → wilsonPolynomial z k n p = 0 →
      wilsonPolynomial z' k n p ≤ 0 := by
    intro p hp hp' hzero
    have hdiff : wilsonPolynomial z' k n p =
        wilsonPolynomial z k n p - n * (z' ^ 2 - z ^ 2) * (p * (1 - p)) := by
      unfold wilsonPolynomial
      ring
    have hnonneg : 0 ≤ n * (z' ^ 2 - z ^ 2) * (p * (1 - p)) :=
      mul_nonneg (mul_nonneg hnReal.le (by linarith)) (mul_nonneg hp (by linarith))
    rw [hdiff, hzero]
    linarith
  have hlt := lowerRoot_lt_upperRoot hz hk hkn hn
  have hlow := lowerRoot_nonneg (z := z) hk hn
  have hhigh := upperRoot_le_one (z := z) hkn hn
  have hlower := hbelow (lowerRoot z k n) hlow (by linarith)
    ((wilsonPolynomial_eq_zero_iff hz hk hkn hn).mpr (Or.inl rfl))
  have hupper := hbelow (upperRoot z k n) (by linarith) hhigh
    ((wilsonPolynomial_eq_zero_iff hz hk hkn hn).mpr (Or.inr rfl))
  exact ⟨((wilsonPolynomial_nonpos_iff hz' hk hkn hn).mp hlower).1,
    ((wilsonPolynomial_nonpos_iff hz' hk hkn hn).mp hupper).2⟩

end Roots

/-! ## The endpoints -/

/-- A quantile or a proportion of the table's scale. -/
noncomputable def unscaled (x : ℤ) : ℝ :=
  x / tScale

theorem tScale_pos : (0 : ℝ) < tScale := by
  norm_num [tScale]

/-- The integer quadratic is the polynomial with every denominator cleared. -/
theorem wilsonQuadratic_cast (z k n e : ℤ) :
    (wilsonQuadratic z k n e : ℝ) =
      tScale ^ 4 * wilsonPolynomial (unscaled z) k n (unscaled e) := by
  have hscale := tScale_pos.ne'
  unfold wilsonQuadratic coeffA coeffB coeffC wilsonPolynomial unscaled
  push_cast
  field_simp
  ring

section Endpoints

variable {z k n : ℤ} (hz : 0 < z) (hk : 0 ≤ k) (hkn : k ≤ n) (hn : 1 ≤ n)

include hz in
theorem unscaled_pos : 0 < unscaled z :=
  div_pos (by exact_mod_cast hz) tScale_pos

include hn in
theorem coeffA_pos : 0 < coeffA z n := by
  have hpos : 0 < n := by omega
  have hscaled : 0 < n * (tScale * tScale) := by
    unfold tScale
    positivity
  exact mul_pos hpos (add_pos_of_pos_of_nonneg hscaled (mul_self_nonneg z))

/-- The vertex, halfway between the roots. -/
noncomputable def vertex (z k n : ℤ) : ℝ :=
  (lowerRoot (unscaled z) k n + upperRoot (unscaled z) k n) / 2 * tScale

include hn in
theorem vertex_eq : vertex z k n = (-coeffB z k n : ℤ) / (2 * coeffA z n : ℤ) := by
  have hlead := (leading_pos (z := unscaled z) hn).ne'
  have hA : (coeffA z n : ℝ) = tScale ^ 2 * (n * (n + unscaled z ^ 2)) := by
    have hscale := tScale_pos.ne'
    unfold coeffA unscaled
    push_cast
    field_simp
  have hB : (-coeffB z k n : ℝ) = tScale ^ 3 * (n * (2 * k + unscaled z ^ 2)) := by
    have hscale := tScale_pos.ne'
    unfold coeffB unscaled
    push_cast
    field_simp
  have hscale := tScale_pos.ne'
  push_cast
  rw [hA, hB]
  unfold vertex lowerRoot upperRoot
  field_simp
  ring

include hk hkn hn hz in
theorem vertex_mem : 0 ≤ vertex z k n ∧ vertex z k n ≤ tScale := by
  have hpos := unscaled_pos hz
  have hlow := lowerRoot_nonneg (z := unscaled z) hk hn
  have hhigh := upperRoot_le_one (z := unscaled z) hkn hn
  have hlt := lowerRoot_lt_upperRoot hpos hk hkn hn
  have hscale := tScale_pos
  unfold vertex
  constructor
  · have hsum : 0 ≤ (lowerRoot (unscaled z) k n + upperRoot (unscaled z) k n) / 2 := by
      linarith
    positivity
  · nlinarith

include hk hkn hn hz in
theorem le_vertexFloor_iff {e : ℤ} (he : 0 ≤ e) :
    e ≤ vertexFloor z k n ↔ (e : ℝ) ≤ vertex z k n := by
  have hA := coeffA_pos (z := z) hn
  have hmem := vertex_mem hz hk hkn hn
  have hdiv : e ≤ -coeffB z k n / (2 * coeffA z n) ↔ (e : ℝ) ≤ vertex z k n := by
    have hAReal : (0 : ℝ) < (2 * coeffA z n : ℤ) := by exact_mod_cast (by omega)
    rw [Int.le_ediv_iff_mul_le (by omega), vertex_eq hn, le_div_iff₀ hAReal]
    exact_mod_cast Iff.rfl
  have hscale : (e : ℝ) ≤ vertex z k n → e ≤ tScale := fun hle => by
    exact_mod_cast hle.trans hmem.2
  unfold vertexFloor
  constructor
  · intro hle
    rcases le_max_iff.mp hle with hzero | hmin
    · obtain rfl : e = 0 := le_antisymm hzero he
      simpa using hmem.1
    · exact hdiv.mp (hmin.trans (min_le_right _ _))
  · intro hle
    exact le_max_of_le_right (le_min (hscale hle) (hdiv.mpr hle))

include hk hkn hn hz in
theorem vertexCeil_le_iff {e : ℤ} (he : e ≤ tScale) :
    vertexCeil z k n ≤ e ↔ vertex z k n ≤ e := by
  have hA := coeffA_pos (z := z) hn
  have hmem := vertex_mem hz hk hkn hn
  have hdiv : -(-(-coeffB z k n) / (2 * coeffA z n)) ≤ e ↔ vertex z k n ≤ e := by
    have hAReal : (0 : ℝ) < (2 * coeffA z n : ℤ) := by exact_mod_cast (by omega)
    rw [neg_le, Int.le_ediv_iff_mul_le (by omega), vertex_eq hn, div_le_iff₀ hAReal,
      neg_mul, neg_le_neg_iff]
    exact_mod_cast Iff.rfl
  unfold vertexCeil
  rw [max_le_iff, min_le_iff]
  constructor
  · rintro ⟨-, hscale | hle⟩
    · have heq : e = tScale := le_antisymm he hscale
      exact heq ▸ hmem.2
    · exact hdiv.mp hle
  · intro hle
    exact ⟨by exact_mod_cast hmem.1.trans hle, Or.inr (hdiv.mpr hle)⟩

include hk hkn hn hz in
/-- Up to the vertex, the quadratic is nonnegative exactly up to the lower root. -/
theorem wilsonQuadratic_nonneg_iff_le {e : ℤ} (he : (e : ℝ) ≤ vertex z k n) :
    0 ≤ wilsonQuadratic z k n e ↔ e ≤ ⌊lowerRoot (unscaled z) k n * tScale⌋ := by
  have hpos := unscaled_pos hz
  have hlt := lowerRoot_lt_upperRoot hpos hk hkn hn
  have hlead := leading_pos (z := unscaled z) hn
  have hscale := tScale_pos
  have hmid : unscaled e < upperRoot (unscaled z) k n := by
    have hle : unscaled e ≤ (lowerRoot (unscaled z) k n + upperRoot (unscaled z) k n) / 2 :=
      (div_le_iff₀ hscale).mpr he
    linarith
  have hquadratic : 0 ≤ wilsonQuadratic z k n e ↔
      0 ≤ wilsonPolynomial (unscaled z) k n (unscaled e) := by
    rw [← mul_nonneg_iff_of_pos_left (pow_pos hscale 4), ← wilsonQuadratic_cast,
      Int.cast_nonneg_iff]
  rw [hquadratic, wilsonPolynomial_eq hpos hk hkn hn, mul_nonneg_iff_of_pos_left hlead,
    Int.le_floor, ← div_le_iff₀ hscale]
  constructor
  · intro hproduct
    by_contra hgt
    exact absurd hproduct
      (not_le.mpr (mul_neg_of_pos_of_neg (sub_pos.mpr (not_le.mp hgt)) (sub_neg.mpr hmid)))
  · intro hle
    exact mul_nonneg_of_nonpos_of_nonpos (sub_nonpos.mpr hle) (sub_neg.mpr hmid).le

include hk hkn hn hz in
/-- From the vertex on, the quadratic is nonnegative exactly from the upper root. -/
theorem wilsonQuadratic_nonneg_iff_ge {e : ℤ} (he : vertex z k n ≤ e) :
    0 ≤ wilsonQuadratic z k n e ↔ ⌈upperRoot (unscaled z) k n * tScale⌉ ≤ e := by
  have hpos := unscaled_pos hz
  have hlt := lowerRoot_lt_upperRoot hpos hk hkn hn
  have hlead := leading_pos (z := unscaled z) hn
  have hscale := tScale_pos
  have hmid : lowerRoot (unscaled z) k n < unscaled e := by
    have hle : (lowerRoot (unscaled z) k n + upperRoot (unscaled z) k n) / 2 ≤ unscaled e :=
      (le_div_iff₀ hscale).mpr he
    linarith
  have hquadratic : 0 ≤ wilsonQuadratic z k n e ↔
      0 ≤ wilsonPolynomial (unscaled z) k n (unscaled e) := by
    rw [← mul_nonneg_iff_of_pos_left (pow_pos hscale 4), ← wilsonQuadratic_cast,
      Int.cast_nonneg_iff]
  rw [hquadratic, wilsonPolynomial_eq hpos hk hkn hn, mul_nonneg_iff_of_pos_left hlead,
    Int.ceil_le, ← le_div_iff₀ hscale]
  constructor
  · intro hproduct
    by_contra hgt
    exact absurd hproduct
      (not_le.mpr (mul_neg_of_pos_of_neg (sub_pos.mpr hmid) (sub_neg.mpr (not_le.mp hgt))))
  · intro hle
    exact mul_nonneg (sub_pos.mpr hmid).le (sub_nonneg.mpr hle)

include hk hkn hn hz in
/-- The endpoints are the lower root rounded down and the upper root rounded up. -/
theorem wilsonEndpoints_eq :
    wilsonEndpoints z k n =
      (⌊lowerRoot (unscaled z) k n * tScale⌋, ⌈upperRoot (unscaled z) k n * tScale⌉) := by
  have hpos := unscaled_pos hz
  have hscale := tScale_pos
  have hlt := lowerRoot_lt_upperRoot hpos hk hkn hn
  have hlow := lowerRoot_nonneg (z := unscaled z) hk hn
  have hhigh := upperRoot_le_one (z := unscaled z) hkn hn
  have hfloor : 0 ≤ ⌊lowerRoot (unscaled z) k n * tScale⌋ :=
    Int.floor_nonneg.mpr (by positivity)
  have hceil : ⌈upperRoot (unscaled z) k n * tScale⌉ ≤ tScale :=
    Int.ceil_le.mpr (mul_le_of_le_one_left hscale.le hhigh)
  rw [wilsonEndpoints, Prod.mk.injEq]
  constructor
  · apply bisectLast_eq hfloor
    · rw [le_vertexFloor_iff hz hk hkn hn hfloor]
      refine (Int.floor_le _).trans ?_
      unfold vertex
      gcongr
      linarith
    · intro e he hvertex
      rw [decide_eq_true_eq]
      exact wilsonQuadratic_nonneg_iff_le hz hk hkn hn
        ((le_vertexFloor_iff hz hk hkn hn he).mp hvertex)
  · apply bisectFirst_eq _ hceil
    · intro e hvertex he
      rw [decide_eq_true_eq]
      exact wilsonQuadratic_nonneg_iff_ge hz hk hkn hn
        ((vertexCeil_le_iff hz hk hkn hn he).mp hvertex)
    · rw [vertexCeil_le_iff hz hk hkn hn hceil]
      refine le_trans ?_ (Int.le_ceil _)
      unfold vertex
      gcongr
      linarith

/-! ## What the intervals are good for -/

include hk hkn hn hz in
theorem wilsonEndpoints_mem :
    0 ≤ (wilsonEndpoints z k n).1 ∧ (wilsonEndpoints z k n).2 ≤ tScale := by
  have hscale := tScale_pos
  rw [wilsonEndpoints_eq hz hk hkn hn]
  constructor
  · have hlow := lowerRoot_nonneg (z := unscaled z) hk hn
    exact Int.floor_nonneg.mpr (by positivity)
  · have hhigh := upperRoot_le_one (z := unscaled z) hkn hn
    exact Int.ceil_le.mpr (mul_le_of_le_one_left hscale.le hhigh)

include hk hkn hn hz in
theorem wilsonEndpoints_lt : (wilsonEndpoints z k n).1 < (wilsonEndpoints z k n).2 := by
  rw [wilsonEndpoints_eq hz hk hkn hn]
  have hlt := lowerRoot_lt_upperRoot (unscaled_pos hz) hk hkn hn
  have hreal : (⌊lowerRoot (unscaled z) k n * tScale⌋ : ℝ) <
      ⌈upperRoot (unscaled z) k n * tScale⌉ :=
    calc
      (⌊lowerRoot (unscaled z) k n * tScale⌋ : ℝ) ≤ lowerRoot (unscaled z) k n * tScale :=
        Int.floor_le _
      _ < upperRoot (unscaled z) k n * tScale := by gcongr; exact tScale_pos
      _ ≤ ⌈upperRoot (unscaled z) k n * tScale⌉ := Int.le_ceil _
  exact_mod_cast hreal

/-- The point estimate is the observed proportion, to the nearest ppm. -/
theorem wilsonPoint_eq (hn : 1 ≤ n) :
    wilsonPoint k n = ⌊(k : ℝ) / n * tScale + 1 / 2⌋ := by
  have hnReal : (0 : ℝ) < n := by exact_mod_cast hn
  have hdouble : (0 : ℝ) < 2 * n := by linarith
  have hcast : (k : ℝ) / n * tScale + 1 / 2 = (2 * k * tScale + n : ℝ) / (2 * n) := by
    field_simp
  apply eq_of_forall_le_iff
  intro e
  rw [wilsonPoint, Int.le_ediv_iff_mul_le (by omega), Int.le_floor, hcast,
    le_div_iff₀ hdouble]
  exact_mod_cast Iff.rfl

include hk hkn hn hz in
theorem wilsonPoint_mem :
    (wilsonEndpoints z k n).1 ≤ wilsonPoint k n ∧
      wilsonPoint k n ≤ (wilsonEndpoints z k n).2 := by
  obtain ⟨hlower, hupper⟩ := proportion_mem_roots (unscaled_pos hz) hk hkn hn
  have hscale := tScale_pos
  rw [wilsonEndpoints_eq hz hk hkn hn, wilsonPoint_eq hn]
  constructor
  · apply Int.floor_le_floor
    calc
      lowerRoot (unscaled z) k n * tScale ≤ (k : ℝ) / n * tScale := by gcongr
      _ ≤ (k : ℝ) / n * tScale + 1 / 2 := by linarith
  · have hceil : (k : ℝ) / n * tScale ≤ ⌈upperRoot (unscaled z) k n * tScale⌉ :=
      le_trans (by gcongr) (Int.le_ceil _)
    apply Int.le_of_lt_add_one
    apply Int.floor_lt.mpr
    push_cast
    linarith

include hk hkn hn hz in
/-- Mirror-image counts have mirror-image intervals. -/
theorem wilsonEndpoints_mirror :
    wilsonEndpoints z (n - k) n =
      (tScale - (wilsonEndpoints z k n).2, tScale - (wilsonEndpoints z k n).1) := by
  rw [wilsonEndpoints_eq hz (sub_nonneg.mpr hkn) (by omega) hn,
    wilsonEndpoints_eq hz hk hkn hn, lowerRoot_mirror hn, upperRoot_mirror hn,
    Prod.mk.injEq]
  constructor
  · rw [sub_mul, one_mul, sub_eq_add_neg, Int.floor_intCast_add, Int.floor_neg,
      sub_eq_add_neg]
  · rw [sub_mul, one_mul, sub_eq_add_neg, Int.ceil_intCast_add, Int.ceil_neg,
      sub_eq_add_neg]

include hk hkn hn hz in
/-- A larger quantile widens the interval on both sides. -/
theorem wilsonEndpoints_mono {z' : ℤ} (hzz : z ≤ z') :
    (wilsonEndpoints z' k n).1 ≤ (wilsonEndpoints z k n).1 ∧
      (wilsonEndpoints z k n).2 ≤ (wilsonEndpoints z' k n).2 := by
  have hscale := tScale_pos
  have hle : unscaled z ≤ unscaled z' := by
    unfold unscaled
    gcongr
  obtain ⟨hlower, hupper⟩ := roots_mono (unscaled_pos hz) hk hkn hn hle
  rw [wilsonEndpoints_eq hz hk hkn hn, wilsonEndpoints_eq (hz.trans_le hzz) hk hkn hn]
  constructor
  · exact Int.floor_le_floor (by gcongr)
  · exact Int.ceil_le_ceil (by gcongr)

/-- Counts with at least one trial have bounds for every coverage of the table. -/
theorem wilsonBounds_eq {table : List QuantileRow} {coveragePpm : ℤ} (hn : 1 ≤ n)
    (hlookup : lookupTScaled table coveragePpm infinityDfBucket = .ok z) :
    wilsonBounds table k n coveragePpm = .ok (wilsonEndpoints z k n) := by
  have hA := coeffA_pos (z := z) hn
  rw [wilsonBounds, hlookup, ok_bind, if_neg (by omega)]
  rfl

end Endpoints

end TraigentSchema.AgentQuality
