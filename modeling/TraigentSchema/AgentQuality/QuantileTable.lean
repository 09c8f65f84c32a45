import TraigentSchema.Certification.Verification

/-!
# The pinned Student-t table

Two-sided quantiles scaled by a million, by nominal coverage and degrees of
freedom.  A number of degrees of freedom the table does not carry borrows the
largest rung at or below it; the last rung is the normal distribution's.
-/

namespace TraigentSchema.AgentQuality

open TraigentSchema.Certification

structure QuantileRow where
  nominalCoveragePpm : ℤ
  dfBucket : ℤ
  quantileX1e6 : ℤ
  deriving DecidableEq, Repr

def tScale : ℤ := 1000000

def infinityDfBucket : ℤ := 1000000000

/-- The order of Python tuples. -/
def tupleLe (left right : ℤ × ℤ) : Prop :=
  left.1 < right.1 ∨ left.1 = right.1 ∧ left.2 ≤ right.2

instance : DecidableRel tupleLe := fun _ _ => inferInstanceAs (Decidable (_ ∨ _))

/-- `_quantile_buckets_by_coverage().get(coverage_ppm)`, empty where the table has
no such coverage. -/
def quantileBuckets (table : List QuantileRow) (coveragePpm : ℤ) : List (ℤ × ℤ) :=
  ((table.filter fun row => row.nominalCoveragePpm = coveragePpm).map fun row =>
    (row.dfBucket, row.quantileX1e6)).insertionSort tupleLe

/-- `bisect.bisect_right`, on ascending keys. -/
def bisectRight (keys : List ℤ) (x : ℤ) : ℕ :=
  (keys.takeWhile fun key => key ≤ x).length

def lookupTScaled (table : List QuantileRow) (coveragePpm df : ℤ) : Checked ℤ :=
  let buckets := quantileBuckets table coveragePpm
  if buckets = [] then fail "QUANTILE_TABLE_LOOKUP_FAILED" "quantile_table"
  else
    match bisectRight (buckets.map Prod.fst) df with
    | 0 => fail "QUANTILE_TABLE_LOOKUP_FAILED" "quantile_table"
    | index + 1 =>
        match buckets[index]? with
        | some bucket => .ok bucket.2
        | none => .error .other

theorem mem_quantileBuckets {table : List QuantileRow} {coveragePpm : ℤ}
    {bucket : ℤ × ℤ} :
    bucket ∈ quantileBuckets table coveragePpm ↔
      ⟨coveragePpm, bucket.1, bucket.2⟩ ∈ table := by
  rw [quantileBuckets, List.mem_insertionSort, List.mem_map]
  constructor
  · rintro ⟨row, hrow, rfl⟩
    obtain ⟨hmem, hcoverage⟩ := List.mem_filter.mp hrow
    have heq : row.nominalCoveragePpm = coveragePpm := by simpa using hcoverage
    exact heq ▸ hmem
  · intro hmem
    exact ⟨_, List.mem_filter.mpr ⟨hmem, by simp⟩, rfl⟩

/-- A quantile that is found stands in the table. -/
theorem exists_row_of_lookup {table : List QuantileRow} {coveragePpm df t : ℤ}
    (hlookup : lookupTScaled table coveragePpm df = .ok t) :
    ∃ bucket, ⟨coveragePpm, bucket, t⟩ ∈ table := by
  simp only [lookupTScaled] at hlookup
  split_ifs at hlookup with hempty
  · exact absurd hlookup (fail_ne_ok _ _ _)
  · split at hlookup
    · exact absurd hlookup (fail_ne_ok _ _ _)
    · split at hlookup
      · rename_i bucket hbucket
        obtain rfl : bucket.2 = t := by simpa using hlookup
        exact ⟨bucket.1, mem_quantileBuckets.mp (List.mem_of_getElem? hbucket)⟩
      · cases hlookup

/-- A number of degrees of freedom from the first rung on finds a quantile. -/
theorem exists_lookup_of_head_le {table : List QuantileRow} {coveragePpm df : ℤ}
    {first : ℤ × ℤ} {rest : List (ℤ × ℤ)}
    (hbuckets : quantileBuckets table coveragePpm = first :: rest) (hdf : first.1 ≤ df) :
    ∃ t, lookupTScaled table coveragePpm df = .ok t := by
  have hindex : bisectRight ((first :: rest).map Prod.fst) df =
      bisectRight (rest.map Prod.fst) df + 1 := by
    simp [bisectRight, hdf]
  have hbound : bisectRight (rest.map Prod.fst) df < (first :: rest).length := by
    have hle := (List.takeWhile_sublist (fun key : ℤ => decide (key ≤ df))
      (l := rest.map Prod.fst)).length_le
    rw [List.length_map] at hle
    exact Nat.lt_succ_of_le hle
  refine ⟨((first :: rest)[bisectRight (rest.map Prod.fst) df]).2, ?_⟩
  unfold lookupTScaled
  rw [hbuckets, if_neg (by simp), hindex]
  simp only [List.getElem?_eq_getElem hbound]

/-- The rows of one coverage. -/
def coverageRows (coveragePpm : ℤ) (rows : List (ℤ × ℤ)) : List QuantileRow :=
  rows.map fun row => ⟨coveragePpm, row.1, row.2⟩

/-- The rows of `agent_quality_quantile_table.json`. -/
def shippedQuantileTable : List QuantileRow :=
  coverageRows 900000
    [(1, 6313752), (2, 2919986), (3, 2353364), (4, 2131847), (5, 2015049),
      (6, 1943181), (7, 1894579), (8, 1859549), (9, 1833113), (10, 1812462),
      (11, 1795885), (12, 1782288), (13, 1770934), (14, 1761311), (15, 1753051),
      (16, 1745884), (17, 1739607), (18, 1734064), (19, 1729133), (20, 1724719),
      (21, 1720743), (22, 1717145), (23, 1713872), (24, 1710883), (25, 1708141),
      (26, 1705618), (27, 1703289), (28, 1701131), (29, 1699128), (30, 1697261),
      (40, 1683852), (60, 1670649), (120, 1657651), (200, 1652509), (500, 1647907),
      (1000, 1646379), (1000000000, 1644854)] ++
  coverageRows 950000
    [(1, 12706205), (2, 4302653), (3, 3182447), (4, 2776446), (5, 2570582),
      (6, 2446912), (7, 2364625), (8, 2306005), (9, 2262158), (10, 2228139),
      (11, 2200986), (12, 2178813), (13, 2160369), (14, 2144787), (15, 2131450),
      (16, 2119906), (17, 2109816), (18, 2100923), (19, 2093025), (20, 2085964),
      (21, 2079614), (22, 2073874), (23, 2068658), (24, 2063899), (25, 2059539),
      (26, 2055530), (27, 2051831), (28, 2048408), (29, 2045230), (30, 2042273),
      (40, 2021076), (60, 2000298), (120, 1979931), (200, 1971897), (500, 1964720),
      (1000, 1962340), (1000000000, 1959964)] ++
  coverageRows 990000
    [(1, 63656742), (2, 9924844), (3, 5840910), (4, 4604095), (5, 4032143),
      (6, 3707429), (7, 3499484), (8, 3355388), (9, 3249836), (10, 3169273),
      (11, 3105807), (12, 3054540), (13, 3012276), (14, 2976843), (15, 2946713),
      (16, 2920782), (17, 2898231), (18, 2878441), (19, 2860935), (20, 2845340),
      (21, 2831360), (22, 2818757), (23, 2807336), (24, 2796940), (25, 2787436),
      (26, 2778715), (27, 2770683), (28, 2763263), (29, 2756386), (30, 2749996),
      (40, 2704460), (60, 2660284), (120, 2617422), (200, 2600635), (500, 2585698),
      (1000, 2580755), (1000000000, 2575830)]

/-- `NominalCoveragePpmV1`. -/
def nominalCoverageValues : List ℤ :=
  [900000, 950000, 990000]

theorem shippedQuantileTable_pos {row : QuantileRow} (hrow : row ∈ shippedQuantileTable) :
    0 < row.quantileX1e6 := by
  have hall : ∀ row ∈ shippedQuantileTable, 0 < row.quantileX1e6 := by decide +kernel
  exact hall row hrow

/-- The shipped table has a positive quantile for each nominal coverage and each
positive number of degrees of freedom. -/
theorem exists_shipped_quantile {coveragePpm df : ℤ}
    (hcoverage : coveragePpm ∈ nominalCoverageValues) (hdf : 1 ≤ df) :
    ∃ t, lookupTScaled shippedQuantileTable coveragePpm df = .ok t ∧ 0 < t := by
  have hhead : ∀ c ∈ nominalCoverageValues,
      ((quantileBuckets shippedQuantileTable c).head?.map Prod.fst) = some 1 := by
    decide +kernel
  obtain ⟨first, hfirst, hone⟩ := Option.map_eq_some_iff.mp (hhead coveragePpm hcoverage)
  obtain ⟨rest, hrest⟩ := List.head?_eq_some_iff.mp hfirst
  obtain ⟨t, ht⟩ := exists_lookup_of_head_le hrest (hone ▸ hdf)
  obtain ⟨bucket, hrow⟩ := exists_row_of_lookup ht
  exact ⟨t, ht, shippedQuantileTable_pos hrow⟩

end TraigentSchema.AgentQuality
