import TraigentSchema.Certification.UtcTimestamp

/-!
# Timestamps of the process-record verifier

The parser two callers share, and the number of microseconds it gives one of them.
-/

namespace TraigentSchema.ProcessRecord

open TraigentSchema.Certification
open TraigentSchema.Decimal (naturalValue)
open TraigentSchema.Unicode
open TraigentSchema.Validator (isAsciiDigit)

/-- A failure with a fixed code. -/
structure ProcessRecordVerificationError where
  code : String
  deriving DecidableEq, Repr

def parseUtcTimestamp (value : Text) : Option (ℕ × ℕ × ℕ × ℕ × ℕ × ℕ × ℕ) :=
  if utcFullmatch isAsciiDigit value then
    let year := naturalValue (slice value 0 4)
    let month := naturalValue (slice value 5 7)
    let day := naturalValue (slice value 8 10)
    let hour := naturalValue (slice value 11 13)
    let minute := naturalValue (slice value 14 16)
    let second := naturalValue (slice value 17 19)
    let fracUs := fractionMicroseconds (fractionDigits value)
    if datetimeOk year month day hour minute second then
      some (year, month, day, hour, minute, second, fracUs)
    else none
  else none

def utcMicroseconds (value : Text) : Except ProcessRecordVerificationError ℤ :=
  match parseUtcTimestamp value with
  | none => .error ⟨"REVOCATION_STATUS_UNAVAILABLE"⟩
  | some (year, month, day, hour, minute, second, fracUs) =>
      let days : ℤ := (toordinal year month day : ℤ) - epochOrdinal
      let seconds : ℤ := days * 86400 + hour * 3600 + minute * 60 + second
      .ok (seconds * 1000000 + fracUs)

theorem utcMicroseconds_eq (value : Text) : utcMicroseconds value =
    if utcFullmatch isAsciiDigit value = true ∧ readable value = true then
      .ok (readMicroseconds value)
    else .error ⟨"REVOCATION_STATUS_UNAVAILABLE"⟩ := by
  rw [utcMicroseconds, parseUtcTimestamp, readable]
  by_cases hmatch : utcFullmatch isAsciiDigit value = true
  · simp only [hmatch, if_true, true_and]
    split_ifs <;> rfl
  · simp only [hmatch, Bool.false_eq_true, if_false, false_and]

/-- The number of microseconds of the instant a text denotes; other texts fail. -/
theorem utcMicroseconds_eq_ok_iff {value : Text} {n : ℤ} :
    utcMicroseconds value = .ok n ↔ ∃ i, Denotes value i ∧ (n : ℚ) = i.microseconds := by
  rw [utcMicroseconds_eq]
  exact read_eq_ok_iff

end TraigentSchema.ProcessRecord
