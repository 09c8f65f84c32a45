import TraigentSchema.Library.Traverse
import TraigentSchema.ProcessRecord.Timestamp

/-!
# A plan registered before its results

The dataset-record verifier has a timestamp reader of its own.  It accepts a plan that was
registered before every receipt of a step that could have seen a result.
-/

namespace TraigentSchema.DatasetRecord

open TraigentSchema.Certification
open TraigentSchema.Decimal (naturalValue)
open TraigentSchema.Traverse
open TraigentSchema.Unicode
open TraigentSchema.Validator (isAsciiDigit)

/-- A failure with a fixed code at a place in the bundle. -/
structure DatasetRecordVerificationError where
  code : String
  location : String
  deriving DecidableEq, Repr

abbrev Verified (A : Type) := Except DatasetRecordVerificationError A

/-- `_fail`. -/
def failWith {A : Type} (code location : String) : Verified A :=
  .error ⟨code, location⟩

/-- The class `\d` under `re.ASCII`. -/
def asciiDecimal (c : CodePoint) : Bool :=
  isAsciiDigit c

def utcMicroseconds (value : Text) : Verified ℤ :=
  if !utcFullmatch asciiDecimal value then failWith "PREREGISTRATION_ORDER" ""
  else
    let year := naturalValue (slice value 0 4)
    let month := naturalValue (slice value 5 7)
    let day := naturalValue (slice value 8 10)
    let hour := naturalValue (slice value 11 13)
    let minute := naturalValue (slice value 14 16)
    let second := naturalValue (slice value 17 19)
    let fracUs := fractionMicroseconds (fractionDigits value)
    if !datetimeOk year month day hour minute second then failWith "PREREGISTRATION_ORDER" ""
    else
      let days : ℤ := (toordinal year month day : ℤ) - epochOrdinal
      let seconds : ℤ := days * 86400 + hour * 3600 + minute * 60 + second
      .ok (seconds * 1000000 + fracUs)

/-! ## The plan and the receipts -/

/-- The fields of a receipt the ordering check reads. -/
structure Receipt where
  stepId : Text
  observedAt : Text
  deriving DecidableEq

/-- The receipts of a process-record bundle. -/
structure Receipts where
  decisionStream : List Receipt
  receiptEventStream : List Receipt
  transitionStream : List Receipt

def orderingStepIds : List String :=
  ["evaluate", "aggregate", "select", "finalize"]

def isOrderingStep (receipt : Receipt) : Bool :=
  orderingStepIds.any fun step => receipt.stepId == text step

/-- The receipts of all streams, one stream after the other. -/
def Receipts.all (receipts : Receipts) : List Receipt :=
  receipts.decisionStream ++ receipts.receiptEventStream ++ receipts.transitionStream

/-- `_check_ordering`, on the manifest's `prereg_registered_at`, the plan's `registered_at` and
the receipts. -/
def checkOrdering (preregRegisteredAt registeredAt : Text) (receipts : Receipts) :
    Verified Unit := do
  if registeredAt ≠ preregRegisteredAt then
    failWith "PREREGISTRATION_ORDER" "/unsigned_manifest/prereg_registered_at"
  let registeredUs ← utcMicroseconds registeredAt
  let observedValues ← (receipts.all.filter isOrderingStep).mapM fun receipt =>
    utcMicroseconds receipt.observedAt
  match observedValues.min? with
  | none => return
  | some earliest =>
      if registeredUs ≥ earliest then
        failWith "PREREGISTRATION_ORDER"
          "/preregistration_envelope/preregistration/registered_at"

/-! ## The reader -/

theorem utcMicroseconds_eq (value : Text) : utcMicroseconds value =
    if utcFullmatch isAsciiDigit value = true ∧ readable value = true then
      .ok (readMicroseconds value)
    else .error ⟨"PREREGISTRATION_ORDER", ""⟩ := by
  have hclass : asciiDecimal = isAsciiDigit := rfl
  rw [utcMicroseconds, readable, hclass]
  by_cases hmatch : utcFullmatch isAsciiDigit value = true
  · simp only [hmatch, Bool.not_true, Bool.false_eq_true, if_false, true_and]
    split_ifs <;> simp_all [readMicroseconds, failWith]
  · simp only [hmatch, Bool.not_false, if_true, Bool.false_eq_true, false_and, if_false, failWith]

theorem utcMicroseconds_eq_ok_iff {value : Text} {n : ℤ} :
    utcMicroseconds value = .ok n ↔ ∃ i, Denotes value i ∧ (n : ℚ) = i.microseconds := by
  rw [utcMicroseconds_eq]
  exact read_eq_ok_iff

/-! ## The check -/

theorem utcMicroseconds_of_denotes {s : Text} {i : Instant} (hs : Denotes s i) :
    ∃ n : ℤ, utcMicroseconds s = .ok n ∧ (n : ℚ) = i.microseconds := by
  obtain ⟨hmatch, hok, rfl⟩ := denotes_iff.mp hs
  exact ⟨readMicroseconds s, by rw [utcMicroseconds_eq, if_pos ⟨hmatch, hok⟩],
    cast_readMicroseconds s⟩

/-- A text denotes one instant. -/
theorem denotes_unique {s : Text} {i j : Instant} (hi : Denotes s i) (hj : Denotes s j) :
    i = j :=
  (denotes_iff.mp hi).2.2.trans (denotes_iff.mp hj).2.2.symm

theorem microseconds_of_ok {s : Text} {n : ℤ} {i : Instant} (hn : utcMicroseconds s = .ok n)
    (hi : Denotes s i) : (n : ℚ) = i.microseconds := by
  obtain ⟨j, hj, hmicro⟩ := utcMicroseconds_eq_ok_iff.mp hn
  rw [hmicro, denotes_unique hi hj]

/-- Results are in the order of the instants. -/
theorem utcMicroseconds_lt_iff {s t : Text} {n m : ℤ} {i j : Instant}
    (hn : utcMicroseconds s = .ok n) (hm : utcMicroseconds t = .ok m) (hi : Denotes s i)
    (hj : Denotes t j) : n < m ↔ i < j := by
  calc
    n < m ↔ (n : ℚ) < m := Int.cast_lt.symm
    _ ↔ i.microseconds < j.microseconds := by
      rw [microseconds_of_ok hn hi, microseconds_of_ok hm hj]
    _ ↔ i < j := Instant.microseconds_lt_iff hi.1 hj.1

theorem utcMicroseconds_eq_iff {s t : Text} {n m : ℤ} {i j : Instant}
    (hn : utcMicroseconds s = .ok n) (hm : utcMicroseconds t = .ok m) (hi : Denotes s i)
    (hj : Denotes t j) : n = m ↔ i = j := by
  calc
    n = m ↔ (n : ℚ) = m := Int.cast_inj.symm
    _ ↔ i.microseconds = j.microseconds := by
      rw [microseconds_of_ok hn hi, microseconds_of_ok hm hj]
    _ ↔ i = j := Instant.microseconds_eq_iff hi.1 hj.1

/-- `if observed_values and registered_us >= min(observed_values)`. -/
theorem forall_lt_iff_min? {values : List ℤ} {bound : ℤ} :
    (∀ value ∈ values, bound < value) ↔
      ∀ earliest, values.min? = some earliest → bound < earliest := by
  constructor
  · intro hall earliest hmin
    exact hall earliest (List.min?_mem hmin)
  · intro hmin value hvalue
    cases hearliest : values.min? with
    | none =>
        rw [List.min?_eq_none_iff.mp hearliest] at hvalue
        cases hvalue
    | some earliest =>
        exact (hmin earliest hearliest).trans_le
          ((List.min?_eq_some_iff.mp hearliest).2 value hvalue)

theorem checkOrdering_eq_ok {preregRegisteredAt registeredAt : Text} {receipts : Receipts} :
    checkOrdering preregRegisteredAt registeredAt receipts = .ok () ↔
      registeredAt = preregRegisteredAt ∧
        ∃ registered, utcMicroseconds registeredAt = .ok registered ∧ ∃ values, (receipts.all.filter isOrderingStep).mapM
          (fun receipt => utcMicroseconds receipt.observedAt) = .ok values ∧
          ∀ value ∈ values, registered < value := by
  rw [checkOrdering]
  by_cases heq : registeredAt = preregRegisteredAt
  · simp only [heq, ne_eq, not_true_eq_false, if_false, pure_eq_ok, bind_eq_ok_iff,
      forall_lt_iff_min?, true_and]
    refine exists_congr fun registered => and_congr_right fun _ => exists_congr fun values =>
      and_congr_right fun _ => ?_
    cases values.min? with
    | none => simp
    | some earliest =>
        by_cases hlt : registered < earliest
        · simp [hlt, not_le.mpr hlt]
        · simp [hlt, not_lt.mp hlt, failWith]
  · simp [heq, failWith]

theorem checkOrdering_eq_ok_iff {preregRegisteredAt registeredAt : Text} {receipts : Receipts} :
    checkOrdering preregRegisteredAt registeredAt receipts = .ok () ↔
      registeredAt = preregRegisteredAt ∧ ∃ i, Denotes registeredAt i ∧
        ∀ receipt ∈ receipts.all, isOrderingStep receipt = true →
          ∃ j, Denotes receipt.observedAt j ∧ i < j := by
  rw [checkOrdering_eq_ok]
  refine and_congr_right fun _ => ?_
  constructor
  · rintro ⟨registered, hregistered, values, hvalues, hlt⟩
    obtain ⟨i, hi, -⟩ := utcMicroseconds_eq_ok_iff.mp hregistered
    refine ⟨i, hi, fun receipt hreceipt hstep => ?_⟩
    obtain ⟨value, hvalue, hread⟩ := exists_of_mem_left (mapM_eq_ok_iff.mp hvalues)
      (List.mem_filter.mpr ⟨hreceipt, hstep⟩)
    obtain ⟨j, hj, -⟩ := utcMicroseconds_eq_ok_iff.mp hread
    exact ⟨j, hj, (utcMicroseconds_lt_iff hregistered hread hi hj).mp (hlt value hvalue)⟩
  · rintro ⟨i, hi, hall⟩
    obtain ⟨registered, hregistered, -⟩ := utcMicroseconds_of_denotes hi
    have hread : ∀ receipt ∈ receipts.all.filter isOrderingStep,
        ∃ value, utcMicroseconds receipt.observedAt = .ok value ∧ registered < value := by
      intro receipt hreceipt
      obtain ⟨hmem, hstep⟩ := List.mem_filter.mp hreceipt
      obtain ⟨j, hj, hlt⟩ := hall receipt hmem hstep
      obtain ⟨value, hvalue, -⟩ := utcMicroseconds_of_denotes hj
      exact ⟨value, hvalue, (utcMicroseconds_lt_iff hregistered hvalue hi hj).mpr hlt⟩
    obtain ⟨values, hvalues⟩ := forall₂_of_forall_exists hread
    refine ⟨registered, hregistered, values,
      mapM_eq_ok_iff.mpr (hvalues.imp fun _ _ hrow => hrow.1), fun value hvalue => ?_⟩
    obtain ⟨receipt, -, hrow⟩ := exists_of_mem_right hvalues hvalue
    exact hrow.2

/-- Both readers accept exactly the timestamps of real instants and agree on them, their
results are in the order of the instants, and a plan is accepted exactly when it was registered
before every receipt of an ordering step. -/
theorem ordering_exact :
    (∀ s, (∃ n, utcMicroseconds s = .ok n) ↔ ∃ i, Denotes s i) ∧
      (∀ s n, utcMicroseconds s = .ok n ↔ ProcessRecord.utcMicroseconds s = .ok n) ∧
      (∀ s t n m i j, utcMicroseconds s = .ok n → utcMicroseconds t = .ok m → Denotes s i →
        Denotes t j → ((n < m ↔ i < j) ∧ (n = m ↔ i = j))) ∧
      ∀ preregRegisteredAt registeredAt receipts,
        checkOrdering preregRegisteredAt registeredAt receipts = .ok () ↔
          registeredAt = preregRegisteredAt ∧ ∃ i, Denotes registeredAt i ∧
            ∀ receipt ∈ receipts.all, isOrderingStep receipt = true →
              ∃ j, Denotes receipt.observedAt j ∧ i < j := by
  refine ⟨fun s => ⟨?_, ?_⟩, fun s n => ?_, fun s t n m i j hn hm hi hj => ?_,
    fun _ _ _ => checkOrdering_eq_ok_iff⟩
  · rintro ⟨n, hn⟩
    obtain ⟨i, hi, -⟩ := utcMicroseconds_eq_ok_iff.mp hn
    exact ⟨i, hi⟩
  · rintro ⟨i, hi⟩
    obtain ⟨n, hn, -⟩ := utcMicroseconds_of_denotes hi
    exact ⟨n, hn⟩
  · rw [utcMicroseconds_eq_ok_iff, ProcessRecord.utcMicroseconds_eq_ok_iff]
  · exact ⟨utcMicroseconds_lt_iff hn hm hi hj, utcMicroseconds_eq_iff hn hm hi hj⟩

/-- Half a second before the end of a leap day, and the next day. -/
theorem ordering_exact_leap_day :
    readInstant (text "2028-02-29T23:59:59.5Z") < readInstant (text "2028-03-01T00:00:00Z") := by
  let early := text "2028-02-29T23:59:59.5Z"
  let late := text "2028-03-01T00:00:00Z"
  have hearly : utcFullmatch isAsciiDigit early = true ∧ readable early = true := by
    decide +kernel
  have hlate : utcFullmatch isAsciiDigit late = true ∧ readable late = true := by
    decide +kernel
  have hread : ∀ {s}, utcFullmatch isAsciiDigit s = true ∧ readable s = true →
      utcMicroseconds s = .ok (readMicroseconds s) := fun hs => by
    rw [utcMicroseconds_eq, if_pos hs]
  have horder := (ordering_exact.2.2.1 early late _ _ _ _ (hread hearly) (hread hlate)
    (denotes_iff.mpr ⟨hearly.1, hearly.2, rfl⟩) (denotes_iff.mpr ⟨hlate.1, hlate.2, rfl⟩)).1
  exact horder.mp (by decide +kernel)

end TraigentSchema.DatasetRecord
