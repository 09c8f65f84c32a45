import TraigentSchema.AgentQuality.ObjectiveMeasurement

/-!
# The Student-t half-width against the exact one

`_student_t_half_width` borrows a quantile from a bucket of the table, takes the integer
part of a scaled square root and rounds a quotient up.  All three err outwards: the result
is never below the exact half-width at any number of degrees of freedom from the bucket on,
and it exceeds the bucket's own by little.
-/

namespace TraigentSchema.AgentQuality

open TraigentSchema.Certification
open TraigentSchema.Traverse

/-! ## The lookup -/

/-- The row that `df` degrees of freedom borrow from: the last one at or below them. -/
structure BorrowsFrom (table : List QuantileRow) (coveragePpm df : ℤ) (row : QuantileRow) :
    Prop where
  mem : row ∈ table
  coverage : row.nominalCoveragePpm = coveragePpm
  le : row.dfBucket ≤ df
  greatest : ∀ other ∈ table, other.nominalCoveragePpm = coveragePpm →
    other.dfBucket ≤ df → other.dfBucket ≤ row.dfBucket

/-- The quantiles of one coverage are positive and do not increase with the degrees of
freedom. -/
structure IsQuantileTable (table : List QuantileRow) (coveragePpm : ℤ) : Prop where
  positive : ∀ row ∈ table, row.nominalCoveragePpm = coveragePpm → 0 < row.quantileX1e6
  antitone : ∀ row ∈ table, ∀ other ∈ table, row.nominalCoveragePpm = coveragePpm →
    other.nominalCoveragePpm = coveragePpm → row.dfBucket ≤ other.dfBucket →
      other.quantileX1e6 ≤ row.quantileX1e6

theorem sorted_quantileBuckets (table : List QuantileRow) (coveragePpm : ℤ) :
    (quantileBuckets table coveragePpm).Pairwise tupleLe := by
  have htotal : Std.Total tupleLe := ⟨fun left right => by
    unfold tupleLe
    omega⟩
  have htrans : IsTrans (ℤ × ℤ) tupleLe := ⟨fun left middle right => by
    unfold tupleLe
    omega⟩
  exact List.pairwise_insertionSort tupleLe _

/-- The buckets up to `df`. -/
def bucketsUpTo (table : List QuantileRow) (coveragePpm df : ℤ) : List (ℤ × ℤ) :=
  (quantileBuckets table coveragePpm).takeWhile fun bucket => bucket.1 ≤ df

theorem bucket_of_row {table : List QuantileRow} {row : QuantileRow} (hrow : row ∈ table) :
    (row.dfBucket, row.quantileX1e6) ∈ quantileBuckets table row.nominalCoveragePpm :=
  mem_quantileBuckets.mpr hrow

theorem mem_bucketsUpTo {table : List QuantileRow} {coveragePpm df : ℤ} {bucket : ℤ × ℤ} :
    bucket ∈ bucketsUpTo table coveragePpm df ↔
      bucket ∈ quantileBuckets table coveragePpm ∧ bucket.1 ≤ df := by
  have hsorted := sorted_quantileBuckets table coveragePpm
  rw [bucketsUpTo]
  generalize quantileBuckets table coveragePpm = buckets at hsorted ⊢
  induction buckets with
  | nil => simp
  | cons first rest ih =>
      rw [List.pairwise_cons] at hsorted
      rw [List.takeWhile_cons]
      split_ifs with hfirst
      · have hle : first.1 ≤ df := by simpa using hfirst
        rw [List.mem_cons, List.mem_cons, or_and_right]
        exact or_congr ⟨fun heq => ⟨heq, heq ▸ hle⟩, fun heq => heq.1⟩ (ih hsorted.2)
      · have hlt : df < first.1 := by simpa using hfirst
        simp only [List.not_mem_nil, false_iff, List.mem_cons, not_and, not_le]
        rintro (rfl | hrest)
        · exact hlt
        · have hle := hsorted.1 bucket hrest
          unfold tupleLe at hle
          omega

theorem lookupTScaled_of_nil {table : List QuantileRow} {coveragePpm df : ℤ}
    (hnil : bucketsUpTo table coveragePpm df = []) :
    lookupTScaled table coveragePpm df =
      fail "QUANTILE_TABLE_LOOKUP_FAILED" "quantile_table" := by
  have hcount : bisectRight ((quantileBuckets table coveragePpm).map Prod.fst) df = 0 := by
    rw [bisectRight, List.takeWhile_map, List.length_map]
    exact congrArg List.length hnil
  simp only [lookupTScaled, hcount, ite_self]

theorem lookupTScaled_of_ne_nil {table : List QuantileRow} {coveragePpm df : ℤ}
    (hne : bucketsUpTo table coveragePpm df ≠ []) :
    lookupTScaled table coveragePpm df =
      .ok ((bucketsUpTo table coveragePpm df).getLast hne).2 := by
  have hsplit : quantileBuckets table coveragePpm = bucketsUpTo table coveragePpm df ++
      (quantileBuckets table coveragePpm).dropWhile fun bucket => bucket.1 ≤ df :=
    List.takeWhile_append_dropWhile.symm
  have hnonempty : quantileBuckets table coveragePpm ≠ [] := by
    intro hempty
    rw [hempty] at hsplit
    exact hne (List.append_eq_nil_iff.mp hsplit.symm).1
  obtain ⟨index, hindex⟩ := Nat.exists_eq_succ_of_ne_zero (List.length_pos_iff.mpr hne).ne'
  have hcount : bisectRight ((quantileBuckets table coveragePpm).map Prod.fst) df =
      index + 1 := by
    rw [bisectRight, List.takeWhile_map, List.length_map]
    exact hindex
  have hget : (quantileBuckets table coveragePpm)[index]? =
      some ((bucketsUpTo table coveragePpm df).getLast hne) := by
    rw [hsplit, List.getElem?_append_left (by omega), List.getLast_eq_getElem,
      List.getElem?_eq_getElem (by omega)]
    simp [hindex]
  simp only [lookupTScaled, if_neg hnonempty, hcount, hget]

/-- A quantile that is found is that of the largest bucket at or below `df`. -/
theorem borrowsFrom_of_lookup {table : List QuantileRow} {coveragePpm df t : ℤ}
    (hlookup : lookupTScaled table coveragePpm df = .ok t) :
    ∃ row, BorrowsFrom table coveragePpm df row ∧ row.quantileX1e6 = t := by
  by_cases hnil : bucketsUpTo table coveragePpm df = []
  · rw [lookupTScaled_of_nil hnil] at hlookup
    exact absurd hlookup (fail_ne_ok _ _ _)
  · rw [lookupTScaled_of_ne_nil hnil, Except.ok.injEq] at hlookup
    have hlast := List.getLast_mem hnil
    obtain ⟨hmem, hle⟩ := mem_bucketsUpTo.mp hlast
    refine ⟨_, ⟨mem_quantileBuckets.mp hmem, rfl, hle, ?_⟩, hlookup⟩
    intro other hother hcoverage hotherLe
    have hbucket : (other.dfBucket, other.quantileX1e6) ∈ bucketsUpTo table coveragePpm df :=
      mem_bucketsUpTo.mpr ⟨hcoverage ▸ bucket_of_row hother, hotherLe⟩
    have hsorted : (bucketsUpTo table coveragePpm df).Pairwise tupleLe :=
      (sorted_quantileBuckets table coveragePpm).sublist (List.takeWhile_sublist _)
    have hle' := hsorted.rel_getLast_of_rel_getLast_getLast hbucket (Or.inr ⟨rfl, le_rfl⟩)
    change other.dfBucket ≤ ((bucketsUpTo table coveragePpm df).getLast hnil).1
    rcases hle' with hlt | ⟨heq, -⟩
    · exact hlt.le
    · exact heq.le

/-- The lookup fails exactly on a coverage without rows and below its smallest bucket. -/
theorem lookupTScaled_fails_iff {table : List QuantileRow} {coveragePpm df : ℤ} :
    lookupTScaled table coveragePpm df =
        fail "QUANTILE_TABLE_LOOKUP_FAILED" "quantile_table" ↔
      ∀ row ∈ table, row.nominalCoveragePpm = coveragePpm → df < row.dfBucket := by
  by_cases hnil : bucketsUpTo table coveragePpm df = []
  · refine iff_of_true (lookupTScaled_of_nil hnil) fun row hrow hcoverage => ?_
    by_contra hle
    have hmem : (row.dfBucket, row.quantileX1e6) ∈ bucketsUpTo table coveragePpm df :=
      mem_bucketsUpTo.mpr ⟨hcoverage ▸ bucket_of_row hrow, not_lt.mp hle⟩
    rw [hnil] at hmem
    cases hmem
  · obtain ⟨hmem, hle⟩ := mem_bucketsUpTo.mp (List.getLast_mem hnil)
    rw [lookupTScaled_of_ne_nil hnil]
    refine iff_of_false (fun heq => fail_ne_ok _ _ _ heq.symm) fun hbelow => ?_
    exact absurd hle (hbelow _ (mem_quantileBuckets.mp hmem) rfl).not_ge

theorem lookupTScaled_eq_ok_iff {table : List QuantileRow} {coveragePpm df t : ℤ}
    (htable : IsQuantileTable table coveragePpm) :
    lookupTScaled table coveragePpm df = .ok t ↔
      ∃ row, BorrowsFrom table coveragePpm df row ∧ row.quantileX1e6 = t := by
  constructor
  · exact borrowsFrom_of_lookup
  · rintro ⟨row, hrow, rfl⟩
    have hne : bucketsUpTo table coveragePpm df ≠ [] :=
      List.ne_nil_of_mem (mem_bucketsUpTo.mpr
        ⟨hrow.coverage ▸ bucket_of_row hrow.mem, hrow.le⟩)
    have hlookup := lookupTScaled_of_ne_nil hne
    obtain ⟨other, hother, hquantile⟩ := borrowsFrom_of_lookup hlookup
    have hle := hrow.greatest other hother.mem hother.coverage hother.le
    have hge := hother.greatest row hrow.mem hrow.coverage hrow.le
    have hdown := htable.antitone row hrow.mem other hother.mem hrow.coverage hother.coverage hge
    have hup := htable.antitone other hother.mem row hrow.mem hother.coverage hrow.coverage hle
    rw [hlookup, ← hquantile, le_antisymm hdown hup]

/-- More degrees of freedom never find a larger quantile. -/
theorem lookupTScaled_antitone {table : List QuantileRow} {coveragePpm df t : ℤ}
    (htable : IsQuantileTable table coveragePpm) {row : QuantileRow} {df' : ℤ}
    (hrow : BorrowsFrom table coveragePpm df row) (hdf : row.dfBucket ≤ df')
    (hlookup : lookupTScaled table coveragePpm df' = .ok t) : t ≤ row.quantileX1e6 := by
  obtain ⟨other, hother, rfl⟩ := borrowsFrom_of_lookup hlookup
  exact htable.antitone row hrow.mem other hother.mem hrow.coverage hother.coverage
    (hother.greatest row hrow.mem hrow.coverage hdf)

theorem isQuantileTable_shipped (coveragePpm : ℤ) :
    IsQuantileTable shippedQuantileTable coveragePpm where
  positive row hrow _ := shippedQuantileTable_pos hrow
  antitone := by
    have hall : ∀ row ∈ shippedQuantileTable, ∀ other ∈ shippedQuantileTable,
        row.nominalCoveragePpm = other.nominalCoveragePpm → row.dfBucket ≤ other.dfBucket →
          other.quantileX1e6 ≤ row.quantileX1e6 := by
      decide +kernel
    intro row hrow other hother hcoverage hcoverage' hle
    exact hall row hrow other hother (hcoverage.trans hcoverage'.symm) hle

/-! ## The three roundings -/

/-- The scaled root is the integer part of the exact one. -/
theorem scaledSqrt_le {count : ℤ} (hcount : 0 ≤ count) :
    (scaledSqrt count : ℝ) ≤ 10 ^ 6 * √count ∧
      10 ^ 6 * √count < (scaledSqrt count : ℝ) + 1 := by
  obtain ⟨n, rfl⟩ := Int.eq_ofNat_of_zero_le hcount
  have hscaled : ((n : ℤ) * isqrtScale * isqrtScale).toNat = n * (10 ^ 6 * 10 ^ 6) := by
    unfold isqrtScale
    omega
  have hroot : (10 : ℝ) ^ 6 * √n = √((n * (10 ^ 6 * 10 ^ 6) : ℕ) : ℝ) := by
    have hsquare : ((n * (10 ^ 6 * 10 ^ 6) : ℕ) : ℝ) = (10 ^ 6) ^ 2 * n := by
      push_cast
      ring
    rw [hsquare, Real.sqrt_mul (by positivity), Real.sqrt_sq (by positivity)]
  simp only [scaledSqrt, hscaled, Int.cast_natCast, hroot]
  exact ⟨Real.nat_sqrt_le_real_sqrt, Real.real_sqrt_lt_nat_sqrt_succ⟩

section Width

variable {table : List QuantileRow} {coveragePpm count stddev t w : ℤ}

/-- The width is the least integer above the quotient by the scaled root. -/
theorem halfWidth_bounds (hcount : 1 ≤ count)
    (hlookup : lookupTScaled table coveragePpm (count - 1) = .ok t)
    (hwidth : studentTHalfWidth table stddev count coveragePpm = .ok w) :
    t * stddev ≤ w * scaledSqrt count ∧ (w - 1) * scaledSqrt count < t * stddev := by
  obtain ⟨w', hw', hle⟩ :=
    @exists_halfWidth table coveragePpm stddev count t hcount hlookup
  obtain rfl : w' = w := Except.ok.inj (hw'.symm.trans hwidth)
  refine ⟨(hle w').mp le_rfl, ?_⟩
  by_contra hnot
  have := (hle (w' - 1)).mpr (not_lt.mp hnot)
  omega

/-- The exact half-width is never above the rounded one. -/
theorem exact_le_halfWidth (hcount : 1 ≤ count) (ht : 0 ≤ t) (hstddev : 0 ≤ stddev)
    (hlookup : lookupTScaled table coveragePpm (count - 1) = .ok t)
    (hwidth : studentTHalfWidth table stddev count coveragePpm = .ok w) :
    (t / 10 ^ 6 : ℝ) * stddev / √count ≤ w := by
  have hroot := (scaledSqrt_le (show 0 ≤ count by omega)).1
  have hpos : (0 : ℝ) < √count := Real.sqrt_pos.mpr (by exact_mod_cast hcount)
  have hbound := (halfWidth_bounds hcount hlookup hwidth).1
  have hscaled := scaledSqrt_pos hcount
  have hw : 0 ≤ w := by
    by_contra hneg
    have hproduct := mul_neg_of_neg_of_pos (not_le.mp hneg) hscaled
    have := mul_nonneg ht hstddev
    omega
  have hreal : (t : ℝ) * stddev ≤ w * scaledSqrt count := by exact_mod_cast hbound
  have hwreal : (0 : ℝ) ≤ w := by exact_mod_cast hw
  rw [div_le_iff₀ hpos, div_mul_eq_mul_div, div_le_iff₀ (by positivity)]
  calc
    (t : ℝ) * stddev ≤ w * scaledSqrt count := hreal
    _ ≤ w * (10 ^ 6 * √count) := mul_le_mul_of_nonneg_left hroot hwreal
    _ = w * √count * 10 ^ 6 := by ring

theorem halfWidth_lt (hcount : 2 ≤ count) (ht : 0 ≤ t) (hstddev : 0 ≤ stddev)
    (hlookup : lookupTScaled table coveragePpm (count - 1) = .ok t)
    (hwidth : studentTHalfWidth table stddev count coveragePpm = .ok w) :
    (w : ℝ) < (t / 10 ^ 6 : ℝ) * stddev / √count * (1 + 1 / (10 ^ 6 * √count - 1)) + 1 := by
  have hroot := (scaledSqrt_le (show 0 ≤ count by omega)).2
  have hone : (1 : ℝ) ≤ √count := Real.one_le_sqrt.mpr (by exact_mod_cast (by omega : 1 ≤ count))
  have hbound := (halfWidth_bounds (by omega) hlookup hwidth).2
  have hscaled : (0 : ℝ) < scaledSqrt count := by
    exact_mod_cast scaledSqrt_pos (show 1 ≤ count by omega)
  have hreal : ((w : ℝ) - 1) * scaledSqrt count < t * stddev := by exact_mod_cast hbound
  have hproduct : (0 : ℝ) ≤ t * stddev := by exact_mod_cast mul_nonneg ht hstddev
  have hden : (0 : ℝ) < 10 ^ 6 * √count - 1 := by linarith
  have hquotient : (w : ℝ) - 1 < t * stddev / (10 ^ 6 * √count - 1) :=
    calc
      (w : ℝ) - 1 < t * stddev / scaledSqrt count := (lt_div_iff₀ hscaled).mpr hreal
      _ ≤ t * stddev / (10 ^ 6 * √count - 1) := by
        exact div_le_div_of_nonneg_left hproduct hden (by linarith)
  have hform : (t / 10 ^ 6 : ℝ) * stddev / √count * (1 + 1 / (10 ^ 6 * √count - 1)) =
      t * stddev / (10 ^ 6 * √count - 1) := by
    have hne : (10 : ℝ) ^ 6 * √count - 1 ≠ 0 := hden.ne'
    field_simp
    ring
  linarith

theorem halfWidth_mono {table' : List QuantileRow} {coveragePpm' stddev' t' w' : ℤ}
    (hcount : 1 ≤ count) (ht : t ≤ t') (ht' : 0 ≤ t') (hstddev : 0 ≤ stddev)
    (hle : stddev ≤ stddev')
    (hlookup : lookupTScaled table coveragePpm (count - 1) = .ok t)
    (hlookup' : lookupTScaled table' coveragePpm' (count - 1) = .ok t')
    (hwidth : studentTHalfWidth table stddev count coveragePpm = .ok w)
    (hwidth' : studentTHalfWidth table' stddev' count coveragePpm' = .ok w') : w ≤ w' := by
  obtain ⟨v, hv, hiff⟩ :=
    @exists_halfWidth table coveragePpm stddev count t hcount hlookup
  obtain rfl : v = w := Except.ok.inj (hv.symm.trans hwidth)
  rw [hiff]
  calc
    t * stddev ≤ t' * stddev' := mul_le_mul ht hle hstddev ht'
    _ ≤ w' * scaledSqrt count := (halfWidth_bounds hcount hlookup' hwidth').1

end Width

/-- The lookup takes the largest bucket at or below `df` and fails where there is none.  From
two samples on the half-width is not below the exact one for any quantile from the bucket
on, whether the table has it or a nonincreasing quantile function that agrees with the table
at the bucket; it exceeds the exact one of the bucket by no more than the root's relative
error and one unit; it is monotone in the deviation and in the quantile, and it is zero only
for a sample without deviation. -/
theorem studentTHalfWidth_outward {table : List QuantileRow} {coveragePpm : ℤ}
    (htable : IsQuantileTable table coveragePpm) :
    (∀ df t, lookupTScaled table coveragePpm df = .ok t ↔
      ∃ row, BorrowsFrom table coveragePpm df row ∧ row.quantileX1e6 = t) ∧
    (∀ df, lookupTScaled table coveragePpm df =
        fail "QUANTILE_TABLE_LOOKUP_FAILED" "quantile_table" ↔
      ∀ row ∈ table, row.nominalCoveragePpm = coveragePpm → df < row.dfBucket) ∧
    ∀ count stddev row, 2 ≤ count → 0 ≤ stddev →
      BorrowsFrom table coveragePpm (count - 1) row →
      ∃ w : ℤ, studentTHalfWidth table stddev count coveragePpm = .ok w ∧
        (∀ df t, row.dfBucket ≤ df → lookupTScaled table coveragePpm df = .ok t →
          (t / 10 ^ 6 : ℝ) * stddev / √count ≤ w) ∧
        (∀ quantile : ℤ → ℝ, quantile row.dfBucket = row.quantileX1e6 / 10 ^ 6 →
          AntitoneOn quantile (Set.Ici row.dfBucket) →
          ∀ df, row.dfBucket ≤ df → quantile df * stddev / √count ≤ w) ∧
        (w : ℝ) < (row.quantileX1e6 / 10 ^ 6 : ℝ) * stddev / √count *
          (1 + 1 / (10 ^ 6 * √count - 1)) + 1 ∧
        (w = 0 → stddev = 0) ∧
        ∀ table' coveragePpm', IsQuantileTable table' coveragePpm' →
          ∀ row' stddev' w', BorrowsFrom table' coveragePpm' (count - 1) row' →
            row.quantileX1e6 ≤ row'.quantileX1e6 → stddev ≤ stddev' →
            studentTHalfWidth table' stddev' count coveragePpm' = .ok w' → w ≤ w' := by
  refine ⟨fun df t => lookupTScaled_eq_ok_iff htable, fun df => lookupTScaled_fails_iff, ?_⟩
  intro count stddev row hcount hstddev hrow
  have hone : 1 ≤ count := by omega
  have hlookup := (lookupTScaled_eq_ok_iff htable).mpr ⟨row, hrow, rfl⟩
  have hpos := htable.positive row hrow.mem hrow.coverage
  obtain ⟨w, hwidth, -⟩ :=
    @exists_halfWidth table coveragePpm stddev count row.quantileX1e6 hone hlookup
  have hexact := exact_le_halfWidth hone hpos.le hstddev hlookup hwidth
  have hscaled : ∀ q : ℝ, q ≤ row.quantileX1e6 / 10 ^ 6 → q * stddev / √count ≤ w := by
    intro q hq
    have hstddevReal : (0 : ℝ) ≤ stddev := by exact_mod_cast hstddev
    refine le_trans ?_ hexact
    gcongr
  refine ⟨w, hwidth, ?_, ?_, halfWidth_lt hcount hpos.le hstddev hlookup hwidth, ?_, ?_⟩
  · intro df t hdf ht
    have hle : (t : ℝ) ≤ row.quantileX1e6 := by
      exact_mod_cast lookupTScaled_antitone htable hrow hdf ht
    exact hscaled _ (by gcongr)
  · intro quantile hbucket hantitone df hdf
    exact hscaled _ (hbucket ▸ hantitone Set.self_mem_Ici hdf hdf)
  · intro hzero
    have hbound := (halfWidth_bounds hone hlookup hwidth).1
    rw [hzero, zero_mul] at hbound
    exact le_antisymm (nonpos_of_mul_nonpos_right hbound hpos) hstddev
  · intro table' coveragePpm' htable' row' stddev' w' hrow' hquantile hle hwidth'
    have hlookup' := (lookupTScaled_eq_ok_iff htable').mpr ⟨row', hrow', rfl⟩
    exact halfWidth_mono hone hquantile
      (htable'.positive row' hrow'.mem hrow'.coverage).le hstddev hle hlookup hlookup'
      hwidth hwidth'

/-- 35 degrees of freedom borrow the quantile of 30. -/
theorem studentTHalfWidth_outward_shipped :
    lookupTScaled shippedQuantileTable 950000 35 = .ok 2042273 ∧
      ∃ w : ℤ, studentTHalfWidth shippedQuantileTable 1000 36 950000 = .ok w ∧
        (2042273 / 10 ^ 6 : ℝ) * 1000 / √36 ≤ w := by
  have hspec := studentTHalfWidth_outward (isQuantileTable_shipped 950000)
  have hrow : BorrowsFrom shippedQuantileTable 950000 (36 - 1) ⟨950000, 30, 2042273⟩ :=
    { mem := by decide +kernel
      coverage := rfl
      le := by decide
      greatest := by decide +kernel }
  have hlookup : lookupTScaled shippedQuantileTable 950000 35 = .ok 2042273 :=
    (hspec.1 35 2042273).mpr ⟨_, hrow, rfl⟩
  obtain ⟨w, hwidth, hle, -⟩ := hspec.2.2 36 1000 _ (by decide) (by decide) hrow
  refine ⟨hlookup, w, hwidth, ?_⟩
  simpa using hle 35 2042273 (by decide) hlookup

end TraigentSchema.AgentQuality
