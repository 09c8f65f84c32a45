import Mathlib.Data.Prod.Lex
import TraigentSchema.Library.Decimal
import TraigentSchema.Validator.DateTime

/-!
# UTC timestamps

Texts `YYYY-MM-DDTHH:MM:SS`, an optional fraction of one to six digits and `Z`, the instants
of the calendar they denote, and what the standard library computes from the fields.
Instants are ordered by their fields, from the year down to the fraction of a second.
-/

namespace TraigentSchema.Certification

open TraigentSchema.Decimal (Digits naturalValue)
open TraigentSchema.Unicode
open TraigentSchema.Validator

/-! ## Instants -/

structure Instant where
  year : ℕ
  month : ℕ
  day : ℕ
  hour : ℕ
  minute : ℕ
  second : ℕ
  /-- The part of the second that has passed. -/
  fraction : ℚ
  deriving DecidableEq

namespace Instant

/-- On the calendar, at a time of day. -/
def IsReal (i : Instant) : Prop :=
  IsDate i.year i.month i.day ∧ i.hour < 24 ∧ i.minute < 60 ∧ i.second < 60 ∧
    0 ≤ i.fraction ∧ i.fraction < 1

/-- The fields, the most significant first. -/
def fields (i : Instant) : ℕ ×ₗ ℕ ×ₗ ℕ ×ₗ ℕ ×ₗ ℕ ×ₗ ℕ ×ₗ ℚ :=
  toLex (i.year, toLex (i.month, toLex (i.day, toLex (i.hour, toLex (i.minute,
    toLex (i.second, i.fraction))))))

instance : LT Instant :=
  ⟨fun i j => i.fields < j.fields⟩

/-- Instants are ordered field by field, from the year on. -/
theorem lt_iff {i j : Instant} : i < j ↔
    i.year < j.year ∨ i.year = j.year ∧ (i.month < j.month ∨ i.month = j.month ∧
      (i.day < j.day ∨ i.day = j.day ∧ (i.hour < j.hour ∨ i.hour = j.hour ∧
        (i.minute < j.minute ∨ i.minute = j.minute ∧ (i.second < j.second ∨
          i.second = j.second ∧ i.fraction < j.fraction))))) := by
  change i.fields < j.fields ↔ _
  simp only [fields, Prod.Lex.toLex_lt_toLex]

end Instant

/-- The text of a fraction of a second: nothing, or a point and one to six digits. -/
def SpellsFraction (s : Text) (fraction : ℚ) : Prop :=
  s = [] ∧ fraction = 0 ∨
    ∃ digits, 1 ≤ digits.length ∧ digits.length ≤ 6 ∧ Digits digits ∧ s = text "." ++ digits ∧
      fraction = naturalValue digits / 10 ^ digits.length

/-- A timestamp of a real instant. -/
def Denotes (s : Text) (i : Instant) : Prop :=
  i.IsReal ∧ ∃ fraction, SpellsFraction fraction i.fraction ∧
    s = fourDigits i.year ++ text "-" ++ twoDigits i.month ++ text "-" ++ twoDigits i.day ++
      text "T" ++ twoDigits i.hour ++ text ":" ++ twoDigits i.minute ++ text ":" ++
      twoDigits i.second ++ fraction ++ text "Z"

/-! ## The standard library -/

def daysBeforeYear (year : ℕ) : ℕ :=
  (year - 1) * 365 + (year - 1) / 4 - (year - 1) / 100 + (year - 1) / 400

def daysBeforeMonth (year month : ℕ) : ℕ :=
  ((List.range' 1 (month - 1)).map (daysInMonth year)).sum

def toordinal (year month day : ℕ) : ℕ :=
  daysBeforeYear year + daysBeforeMonth year month + day

def daysInYear (year : ℕ) : ℕ :=
  if isLeapYear year then 366 else 365

/-- The rule of the Gregorian calendar. -/
theorem isLeapYear_iff {year : ℕ} :
    isLeapYear year = true ↔ 4 ∣ year ∧ (¬100 ∣ year ∨ 400 ∣ year) := by
  simp [isLeapYear, Nat.dvd_iff_mod_eq_zero]

/-- A year begins when the one before it is over. -/
theorem daysBeforeYear_succ {year : ℕ} (hyear : 1 ≤ year) :
    daysBeforeYear (year + 1) = daysBeforeYear year + daysInYear year := by
  obtain ⟨k, rfl⟩ : ∃ k, year = k + 1 := ⟨year - 1, by omega⟩
  have hcenturies : k / 100 ≤ k / 4 := Nat.div_le_div_left (by decide) (by decide)
  have hfour : 100 ∣ k + 1 → 4 ∣ k + 1 := Nat.dvd_trans (by decide)
  have hhundred : 400 ∣ k + 1 → 100 ∣ k + 1 := Nat.dvd_trans (by decide)
  simp only [daysBeforeYear, daysInYear, isLeapYear_iff, Nat.add_sub_cancel, Nat.succ_div]
  by_cases hleap : 4 ∣ k + 1 <;> by_cases hcentury : 100 ∣ k + 1 <;>
    by_cases hcycle : 400 ∣ k + 1 <;> simp_all <;> omega

/-- A month begins when the one before it is over. -/
theorem daysBeforeMonth_succ {year month : ℕ} (hmonth : 1 ≤ month) :
    daysBeforeMonth year (month + 1) = daysBeforeMonth year month + daysInMonth year month := by
  obtain ⟨k, rfl⟩ : ∃ k, month = k + 1 := ⟨month - 1, by omega⟩
  simp [daysBeforeMonth, List.range'_concat, Nat.add_comm]

/-- The twelve months fill the year. -/
theorem daysBeforeMonth_thirteen (year : ℕ) : daysBeforeMonth year 13 = daysInYear year := by
  cases hleap : isLeapYear year <;>
    simp [daysBeforeMonth, daysInYear, daysInMonth, hleap, List.range']

/-- A year ends before the next ones begin. -/
theorem add_daysInYear_le {year year' : ℕ} (hyear : 1 ≤ year) (hlt : year < year') :
    daysBeforeYear year + daysInYear year ≤ daysBeforeYear year' := by
  induction year', hlt using Nat.le_induction with
  | base => exact (daysBeforeYear_succ hyear).ge
  | succ next hnext ih =>
      rw [daysBeforeYear_succ (by omega)]
      omega

theorem add_daysInMonth_le {year month month' : ℕ} (hmonth : 1 ≤ month)
    (hlt : month < month') :
    daysBeforeMonth year month + daysInMonth year month ≤ daysBeforeMonth year month' := by
  induction month', hlt using Nat.le_induction with
  | base => exact (daysBeforeMonth_succ hmonth).ge
  | succ next hnext ih =>
      rw [daysBeforeMonth_succ (by omega)]
      omega

/-- No date lies behind the end of its year. -/
theorem dayOfYear_le {year month day : ℕ} (hdate : IsDate year month day) :
    daysBeforeMonth year month + day ≤ daysInYear year := by
  obtain ⟨-, -, hmonth, hmonth', -, hday⟩ := hdate
  have hlast := @add_daysInMonth_le year _ _ hmonth (Nat.lt_succ_of_le hmonth')
  rw [daysBeforeMonth_thirteen] at hlast
  omega

/-- Ordinals are in the order of the calendar. -/
theorem toordinal_lt_iff {year month day year' month' day' : ℕ}
    (hdate : IsDate year month day) (hdate' : IsDate year' month' day') :
    toordinal year month day < toordinal year' month' day' ↔
      year < year' ∨ year = year' ∧ (month < month' ∨ month = month' ∧ day < day') := by
  have hwithin := dayOfYear_le hdate
  have hwithin' := dayOfYear_le hdate'
  obtain ⟨hyear, -, hmonth, -, hday, hlast⟩ := hdate
  obtain ⟨hyear', -, hmonth', -, hday', hlast'⟩ := hdate'
  simp only [toordinal]
  rcases lt_trichotomy year year' with hlt | rfl | hgt
  · have hyears := add_daysInYear_le hyear hlt
    omega
  · rcases lt_trichotomy month month' with hlt | rfl | hgt
    · have hmonths := @add_daysInMonth_le year _ _ hmonth hlt
      omega
    · omega
    · have hmonths := @add_daysInMonth_le year _ _ hmonth' hgt
      omega
  · have hyears := add_daysInYear_le hyear' hgt
    omega

/-! ## The time line -/

/-- `date(1970, 1, 1).toordinal()`. -/
def epochOrdinal : ℕ :=
  toordinal 1970 1 1

namespace Instant

/-- Seconds since the epoch, without the fraction. -/
def seconds (i : Instant) : ℤ :=
  ((toordinal i.year i.month i.day : ℤ) - epochOrdinal) * 86400 + i.hour * 3600 +
    i.minute * 60 + i.second

/-- Counted seconds keep the order of the fields. -/
theorem seconds_lt_iff {i j : Instant} (hi : i.IsReal) (hj : j.IsReal) :
    i.seconds < j.seconds ↔
      i.year < j.year ∨ i.year = j.year ∧ (i.month < j.month ∨ i.month = j.month ∧
        (i.day < j.day ∨ i.day = j.day ∧ (i.hour < j.hour ∨ i.hour = j.hour ∧
          (i.minute < j.minute ∨ i.minute = j.minute ∧ i.second < j.second)))) := by
  have hdays := toordinal_lt_iff hi.1 hj.1
  have hdays' := toordinal_lt_iff hj.1 hi.1
  obtain ⟨-, hhour, hminute, hsecond, -⟩ := hi
  obtain ⟨-, hhour', hminute', hsecond', -⟩ := hj
  simp only [seconds]
  omega

/-- Instants are ordered by their seconds first, and then by the fraction. -/
theorem lt_iff_seconds {i j : Instant} (hi : i.IsReal) (hj : j.IsReal) :
    i < j ↔ i.seconds < j.seconds ∨ i.seconds = j.seconds ∧ i.fraction < j.fraction := by
  have hlt := seconds_lt_iff hi hj
  have hgt := seconds_lt_iff hj hi
  rw [lt_iff]
  by_cases hfraction : i.fraction < j.fraction <;>
    simp only [hfraction, and_true, and_false, or_false] <;> omega

/-- Microseconds since the epoch. -/
def microseconds (i : Instant) : ℚ :=
  (i.seconds + i.fraction) * 10 ^ 6

/-- The time line has the order of the calendar. -/
theorem microseconds_lt_iff {i j : Instant} (hi : i.IsReal) (hj : j.IsReal) :
    i.microseconds < j.microseconds ↔ i < j := by
  rw [microseconds, microseconds, mul_lt_mul_iff_left₀ (by norm_num), lt_iff_seconds hi hj]
  obtain ⟨-, -, -, -, hpos, hone⟩ := hi
  obtain ⟨-, -, -, -, hpos', hone'⟩ := hj
  rcases lt_trichotomy i.seconds j.seconds with hlt | heq | hgt
  · have hstep : (i.seconds : ℚ) + 1 ≤ j.seconds := by exact_mod_cast hlt
    exact ⟨fun _ => Or.inl hlt, fun _ => by linarith⟩
  · simp [heq]
  · have hstep : (j.seconds : ℚ) + 1 ≤ i.seconds := by exact_mod_cast hgt
    refine ⟨fun hmicro => by linarith, fun hfields => ?_⟩
    rcases hfields with hlt | ⟨heq, -⟩ <;> omega

/-- Two real instants share their microseconds only if they are one. -/
theorem microseconds_eq_iff {i j : Instant} (hi : i.IsReal) (hj : j.IsReal) :
    i.microseconds = j.microseconds ↔ i = j := by
  constructor
  · intro heq
    have hlt : ¬i < j := fun hlt => ((microseconds_lt_iff hi hj).mpr hlt).ne heq
    have hgt : ¬j < i := fun hgt => ((microseconds_lt_iff hj hi).mpr hgt).ne heq.symm
    have hfields : i.fields = j.fields := le_antisymm (not_lt.mp hgt) (not_lt.mp hlt)
    cases i
    cases j
    simpa [fields] using hfields
  · rintro rfl
    rfl

end Instant

/-! ## Reading a timestamp -/

/-- `value[start:stop]`. -/
def slice (value : Text) (start stop : ℕ) : Text :=
  (value.drop start).take (stop - start)

/-- `(?:\.d{1,6})?Z`, at the end of a text. -/
def matchTail (isDigit : CodePoint → Bool) (s : Text) : Bool :=
  s == text "Z" ||
    (s.take 1 == text "." && (s.drop 1).getLast? == some (codePoint 'Z') &&
      (s.drop 1).dropLast.all isDigit &&
      decide (1 ≤ (s.drop 1).dropLast.length ∧ (s.drop 1).dropLast.length ≤ 6))

/-- A full match of `dddd-dd-ddTdd:dd:dd(?:\.d{1,6})?Z`, whose class of digits is given. -/
def utcFullmatch (isDigit : CodePoint → Bool) (value : Text) : Bool :=
  fits isDigit (text "dddd-dd-ddTdd:dd:dd") (value.take 19) && matchTail isDigit (value.drop 19)

/-- Whether `datetime(…)` raises no `ValueError`. -/
def datetimeOk (year month day hour minute second : ℕ) : Bool :=
  decide (IsDate year month day ∧ hour < 24 ∧ minute < 60 ∧ second < 60)

/-- `value[dot_index + 1 : -1]` after the first point, or nothing. -/
def fractionDigits (value : Text) : Text :=
  ((value.dropWhile (· != codePoint '.')).drop 1).dropLast

/-- `int((frac + "000000")[:6]) if frac else 0`. -/
def fractionMicroseconds (frac : Text) : ℕ :=
  if frac = [] then 0 else naturalValue ((frac ++ text "000000").take 6)

/-- What the code reads off a timestamp. -/
def readInstant (value : Text) : Instant where
  year := naturalValue (slice value 0 4)
  month := naturalValue (slice value 5 7)
  day := naturalValue (slice value 8 10)
  hour := naturalValue (slice value 11 13)
  minute := naturalValue (slice value 14 16)
  second := naturalValue (slice value 17 19)
  fraction := fractionMicroseconds (fractionDigits value) / 10 ^ 6

/-! ### The date and the time of day -/

theorem isAsciiDigit_iff {c : CodePoint} : isAsciiDigit c = true ↔ Decimal.IsDigit c := by
  simp [isAsciiDigit, Decimal.IsDigit]

/-- A text of ASCII digits is read as its decimal value. -/
theorem number_eq_naturalValue {s : Text} (hs : s.all isAsciiDigit = true) :
    number s = some (naturalValue s) := by
  rw [number, if_pos hs]
  rfl

theorem naturalValue_of_number {s : Text} {n : ℕ} (hnumber : number s = some n) :
    naturalValue s = n := by
  rw [number, Option.ite_none_right_eq_some, Option.some.injEq] at hnumber
  exact hnumber.2

theorem naturalValue_twoDigits {n : ℕ} (hn : n < 100) : naturalValue (twoDigits n) = n :=
  naturalValue_of_number (number_pair.mpr ⟨hn, rfl⟩)

theorem naturalValue_fourDigits {n : ℕ} (hn : n < 10000) : naturalValue (fourDigits n) = n :=
  naturalValue_of_number (number_quad.mpr ⟨hn, rfl⟩)

/-- A text fits a layout piece by piece. -/
theorem fits_append {layout layout' s : Text} :
    fits isAsciiDigit (layout ++ layout') s = true ↔
      ∃ left right, s = left ++ right ∧ fits isAsciiDigit layout left = true ∧
        fits isAsciiDigit layout' right = true := by
  induction layout generalizing s with
  | nil => simp [fits_nil]
  | cons p layout ih =>
      rw [List.cons_append, fits_cons]
      constructor
      · rintro ⟨c, rest, rfl, hc, hrest⟩
        obtain ⟨left, right, rfl, hleft, hright⟩ := ih.mp hrest
        exact ⟨c :: left, right, rfl, fits_cons.mpr ⟨c, left, rfl, hc, hleft⟩, hright⟩
      · rintro ⟨left, right, rfl, hleft, hright⟩
        obtain ⟨c, rest, rfl, hc, hrest⟩ := fits_cons.mp hleft
        exact ⟨c, rest ++ right, rfl, hc, ih.mpr ⟨rest, right, rfl, hrest, hright⟩⟩

/-- Two digits are the spelling of a number below a hundred. -/
theorem fits_twoDigits {s : Text} :
    fits isAsciiDigit (text "dd") s = true ↔ ∃ n < 100, s = twoDigits n := by
  have hlayout : text "dd" = [codePoint 'd', codePoint 'd'] := rfl
  rw [hlayout]
  simp only [fits_cons, fits_nil, if_pos]
  constructor
  · rintro ⟨a, _, rfl, ha, b, _, rfl, hb, rfl⟩
    exact ⟨_, number_pair.mp (number_eq_naturalValue (by simp [ha, hb]))⟩
  · rintro ⟨n, hn, rfl⟩
    exact ⟨_, _, rfl, isAsciiDigit_digit _ (by omega), _, _, rfl,
      isAsciiDigit_digit _ (by omega), rfl⟩

/-- Four digits are the spelling of a number below ten thousand. -/
theorem fits_fourDigits {s : Text} :
    fits isAsciiDigit (text "dddd") s = true ↔ ∃ n < 10000, s = fourDigits n := by
  have hlayout : text "dddd" = text "dd" ++ text "dd" := rfl
  rw [hlayout, fits_append]
  simp only [fits_twoDigits]
  constructor
  · rintro ⟨_, _, rfl, ⟨high, hhigh, rfl⟩, low, hlow, rfl⟩
    refine ⟨100 * high + low, by omega, ?_⟩
    have hdiv : (100 * high + low) / 100 = high := by omega
    have hmod : (100 * high + low) % 100 = low := by omega
    rw [fourDigits, hdiv, ← twoDigits_mod (100 * high + low), hmod]
  · rintro ⟨n, hn, rfl⟩
    refine ⟨_, _, rfl, ⟨n / 100, by omega, rfl⟩, n % 100, by omega, (twoDigits_mod n).symm⟩

theorem fits_char {c : Char} (hc : codePoint c ≠ codePoint 'd') {s : Text} :
    fits isAsciiDigit [codePoint c] s = true ↔ s = [codePoint c] := by
  simp only [fits_cons, fits_nil, if_neg hc]
  constructor
  · rintro ⟨_, _, rfl, rfl, rfl⟩
    rfl
  · rintro rfl
    exact ⟨_, _, rfl, rfl, rfl⟩

/-- A separator and a field of two digits, after what stands before them. -/
theorem fits_field {layout s : Text} {c : Char} (hc : codePoint c ≠ codePoint 'd') :
    fits isAsciiDigit (layout ++ [codePoint c] ++ text "dd") s = true ↔
      ∃ front, fits isAsciiDigit layout front = true ∧
        ∃ n < 100, s = front ++ [codePoint c] ++ twoDigits n := by
  simp only [fits_append, fits_char hc, fits_twoDigits]
  constructor
  · rintro ⟨_, _, rfl, ⟨front, _, rfl, hfront, rfl⟩, n, hn, rfl⟩
    exact ⟨front, hfront, n, hn, rfl⟩
  · rintro ⟨front, hfront, n, hn, rfl⟩
    exact ⟨_, _, rfl, ⟨front, _, rfl, hfront, rfl⟩, n, hn, rfl⟩

/-- The fields of a text in the layout. -/
def clockText (year month day hour minute second : ℕ) : Text :=
  fourDigits year ++ text "-" ++ twoDigits month ++ text "-" ++ twoDigits day ++ text "T" ++
    twoDigits hour ++ text ":" ++ twoDigits minute ++ text ":" ++ twoDigits second

/-- The layout up to the seconds fits exactly the spelled clock times. -/
theorem fits_clockText {s : Text} :
    fits isAsciiDigit (text "dddd-dd-ddTdd:dd:dd") s = true ↔
      ∃ year month day hour minute second, (year < 10000 ∧ month < 100 ∧ day < 100 ∧
        hour < 100 ∧ minute < 100 ∧ second < 100) ∧
        s = clockText year month day hour minute second := by
  have hdash : codePoint '-' ≠ codePoint 'd' := by decide
  have htee : codePoint 'T' ≠ codePoint 'd' := by decide
  have hcolon : codePoint ':' ≠ codePoint 'd' := by decide
  have hlayout : text "dddd-dd-ddTdd:dd:dd" = text "dddd" ++ [codePoint '-'] ++ text "dd" ++
    [codePoint '-'] ++ text "dd" ++ [codePoint 'T'] ++ text "dd" ++ [codePoint ':'] ++
    text "dd" ++ [codePoint ':'] ++ text "dd" := rfl
  simp only [hlayout, fits_field hcolon, fits_field htee, fits_field hdash, fits_fourDigits]
  constructor
  · rintro ⟨_, ⟨_, ⟨_, ⟨_, ⟨_, ⟨year, hyear, rfl⟩, month, hmonth, rfl⟩, day, hday, rfl⟩,
      hour, hhour, rfl⟩, minute, hminute, rfl⟩, second, hsecond, rfl⟩
    exact ⟨year, month, day, hour, minute, second,
      ⟨hyear, hmonth, hday, hhour, hminute, hsecond⟩, rfl⟩
  · rintro ⟨year, month, day, hour, minute, second,
      ⟨hyear, hmonth, hday, hhour, hminute, hsecond⟩, rfl⟩
    exact ⟨_, ⟨_, ⟨_, ⟨_, ⟨_, ⟨year, hyear, rfl⟩, month, hmonth, rfl⟩, day, hday, rfl⟩,
      hour, hhour, rfl⟩, minute, hminute, rfl⟩, second, hsecond, rfl⟩

/-! ### The fraction -/

/-- Behind the seconds stand a fraction or nothing, and the letter of UTC. -/
theorem matchTail_iff {s : Text} :
    matchTail isAsciiDigit s = true ↔
      ∃ fraction q, SpellsFraction fraction q ∧ s = fraction ++ text "Z" := by
  simp only [matchTail, Bool.or_eq_true, Bool.and_eq_true, beq_iff_eq, decide_eq_true_eq,
    List.all_eq_true, isAsciiDigit_iff]
  constructor
  · rintro (rfl | ⟨⟨⟨hpoint, hlast⟩, hdigits⟩, hone, hsix⟩)
    · exact ⟨[], 0, Or.inl ⟨rfl, rfl⟩, rfl⟩
    · have hzone : text "Z" = [codePoint 'Z'] := rfl
      refine ⟨text "." ++ (s.drop 1).dropLast, _, Or.inr ⟨_, hone, hsix, hdigits, rfl, rfl⟩, ?_⟩
      calc
        s = s.take 1 ++ s.drop 1 := (List.take_append_drop 1 s).symm
        _ = text "." ++ ((s.drop 1).dropLast ++ text "Z") := by
          rw [hpoint, hzone, List.dropLast_append_getLast? _ hlast]
  · rintro ⟨_, q, ⟨rfl, rfl⟩ | ⟨digits, hone, hsix, hdigits, rfl, rfl⟩, rfl⟩
    · exact Or.inl rfl
    · have hrest : (text "." ++ digits ++ text "Z").drop 1 = digits ++ text "Z" := rfl
      have hdropLast : (digits ++ text "Z").dropLast = digits := List.dropLast_concat
      rw [hrest, hdropLast]
      exact Or.inr ⟨⟨⟨rfl, List.getLast?_concat⟩, hdigits⟩, hone, hsix⟩

theorem digit_ne_point (d : ℕ) : digit d ≠ codePoint '.' := by
  intro heq
  have hval := congrArg Fin.val heq
  rw [digit] at hval
  split_ifs at hval with hd
  · change 0x30 + d = 46 at hval
    omega
  · revert hval
    decide

/-- The first point is that of the fraction. -/
theorem point_not_mem_clockText (year month day hour minute second : ℕ) :
    ∀ c ∈ clockText year month day hour minute second, (c != codePoint '.') = true := by
  have hdash : text "-" = [codePoint '-'] := rfl
  have htee : text "T" = [codePoint 'T'] := rfl
  have hcolon : text ":" = [codePoint ':'] := rfl
  have hdash' : codePoint '-' ≠ codePoint '.' := by decide
  have htee' : codePoint 'T' ≠ codePoint '.' := by decide
  have hcolon' : codePoint ':' ≠ codePoint '.' := by decide
  simp [clockText, fourDigits, twoDigits, hdash, htee, hcolon, digit_ne_point, hdash', htee',
    hcolon', or_imp, forall_and]

/-- Padding with zeros to six digits reads the fraction in microseconds. -/
theorem fractionMicroseconds_digits {digits : Text} (hone : 1 ≤ digits.length)
    (hsix : digits.length ≤ 6) :
    (fractionMicroseconds digits : ℚ) / 10 ^ 6 = naturalValue digits / 10 ^ digits.length := by
  have hnonempty : digits ≠ [] := List.ne_nil_of_length_pos hone
  have hzeros : text "000000" = List.replicate 6 Decimal.zeroDigit := rfl
  have htake : (digits ++ text "000000").take 6 =
      digits ++ List.replicate (6 - digits.length) Decimal.zeroDigit := by
    rw [List.take_append, List.take_of_length_le hsix, hzeros, List.take_replicate,
      Nat.min_eq_left (Nat.sub_le _ _)]
  have hpow : (10 : ℚ) ^ (6 - digits.length) * 10 ^ digits.length = 10 ^ 6 := by
    rw [← pow_add, Nat.sub_add_cancel hsix]
  rw [fractionMicroseconds, if_neg hnonempty, htake, Decimal.naturalValue_append,
    Decimal.naturalValue_replicate_zero, List.length_replicate, Nat.add_zero, ← hpow]
  push_cast
  field_simp

/-- What the code reads as the fraction. -/
theorem fraction_of_spells {front fraction : Text} {q : ℚ}
    (hfront : ∀ c ∈ front, (c != codePoint '.') = true) (hspells : SpellsFraction fraction q) :
    (fractionMicroseconds (fractionDigits (front ++ (fraction ++ text "Z"))) : ℚ) / 10 ^ 6 = q := by
  have hskip : (front ++ (fraction ++ text "Z")).dropWhile (· != codePoint '.') =
      (fraction ++ text "Z").dropWhile (· != codePoint '.') :=
    List.dropWhile_append_of_pos hfront
  rw [fractionDigits, hskip]
  rcases hspells with ⟨rfl, rfl⟩ | ⟨digits, hone, hsix, -, rfl, rfl⟩
  · have hnone : ((([] : Text) ++ text "Z").dropWhile (· != codePoint '.')) = [] := by decide
    rw [hnone, List.drop_nil, List.dropLast_nil, fractionMicroseconds, if_pos rfl, Nat.cast_zero,
      zero_div]
  · have hpoint : (text "." ++ digits ++ text "Z").dropWhile (· != codePoint '.') =
        codePoint '.' :: (digits ++ text "Z") :=
      List.dropWhile_cons_of_neg (a := codePoint '.') (by simp)
    have hlast : (digits ++ text "Z").dropLast = digits := List.dropLast_concat
    rw [hpoint, List.drop_succ_cons, List.drop_zero, hlast,
      fractionMicroseconds_digits hone hsix]

/-! ### The whole -/

/-- A text in the layout. -/
theorem utcFullmatch_iff {value : Text} :
    utcFullmatch isAsciiDigit value = true ↔
      ∃ year month day hour minute second fraction q, (year < 10000 ∧ month < 100 ∧
        day < 100 ∧ hour < 100 ∧ minute < 100 ∧ second < 100) ∧ SpellsFraction fraction q ∧
        value = clockText year month day hour minute second ++ (fraction ++ text "Z") := by
  rw [utcFullmatch, Bool.and_eq_true, fits_clockText, matchTail_iff]
  constructor
  · rintro ⟨⟨year, month, day, hour, minute, second, hbounds, hfront⟩, fraction, q, hspells, htail⟩
    refine ⟨year, month, day, hour, minute, second, fraction, q, hbounds, hspells, ?_⟩
    rw [← hfront, ← htail, List.take_append_drop]
  · rintro ⟨year, month, day, hour, minute, second, fraction, q, hbounds, hspells, rfl⟩
    exact ⟨⟨year, month, day, hour, minute, second, hbounds, rfl⟩, fraction, q, hspells, rfl⟩

theorem clockText_append (year month day hour minute second : ℕ) (tail : Text) :
    clockText year month day hour minute second ++ tail =
      fourDigits year ++ codePoint '-' :: (twoDigits month ++ codePoint '-' :: (twoDigits day ++
        codePoint 'T' :: (twoDigits hour ++ codePoint ':' :: (twoDigits minute ++
          codePoint ':' :: (twoDigits second ++ tail))))) := by
  have hdash : text "-" = [codePoint '-'] := rfl
  have htee : text "T" = [codePoint 'T'] := rfl
  have hcolon : text ":" = [codePoint ':'] := rfl
  simp [clockText, hdash, htee, hcolon]

/-- A spelled time is read as the numbers it was spelled from. -/
theorem readInstant_clockText {year month day hour minute second : ℕ} {fraction : Text} {q : ℚ}
    (hbounds : year < 10000 ∧ month < 100 ∧ day < 100 ∧ hour < 100 ∧ minute < 100 ∧
      second < 100) (hspells : SpellsFraction fraction q) :
    readInstant (clockText year month day hour minute second ++ (fraction ++ text "Z")) =
      ⟨year, month, day, hour, minute, second, q⟩ := by
  obtain ⟨hyear, hmonth, hday, hhour, hminute, hsecond⟩ := hbounds
  have hfraction := fraction_of_spells
    (point_not_mem_clockText year month day hour minute second) hspells
  rw [readInstant, hfraction, clockText_append]
  generalize fraction ++ text "Z" = tail
  congr 1
  · exact naturalValue_fourDigits hyear
  · exact naturalValue_twoDigits hmonth
  · exact naturalValue_twoDigits hday
  · exact naturalValue_twoDigits hhour
  · exact naturalValue_twoDigits hminute
  · exact naturalValue_twoDigits hsecond

/-- A fraction is less than a second. -/
theorem SpellsFraction.bounds {s : Text} {q : ℚ} (hspells : SpellsFraction s q) :
    0 ≤ q ∧ q < 1 := by
  rcases hspells with ⟨-, rfl⟩ | ⟨digits, -, -, hdigits, -, rfl⟩
  · exact ⟨le_refl _, one_pos⟩
  · have hlt : (naturalValue digits : ℚ) < 10 ^ digits.length := by
      exact_mod_cast Decimal.naturalValue_lt hdigits
    exact ⟨by positivity, (div_lt_one (by positivity)).mpr hlt⟩

theorem daysInMonth_le (year month : ℕ) : daysInMonth year month ≤ 31 := by
  rw [daysInMonth]
  split_ifs <;> omega

/-- `datetime(…)` on the fields the code has read. -/
def readable (value : Text) : Bool :=
  datetimeOk (naturalValue (slice value 0 4)) (naturalValue (slice value 5 7))
    (naturalValue (slice value 8 10)) (naturalValue (slice value 11 13))
    (naturalValue (slice value 14 16)) (naturalValue (slice value 17 19))

/-- A text denotes an instant when it passes the regular expression and the range check, and
then it denotes what is read off it. -/
theorem denotes_iff {value : Text} {i : Instant} :
    Denotes value i ↔
      utcFullmatch isAsciiDigit value = true ∧ readable value = true ∧ i = readInstant value := by
  constructor
  · rintro ⟨⟨hdate, hhour, hminute, hsecond, -⟩, fraction, hspells, hvalue⟩
    obtain ⟨-, hyear, -, hmonth, -, hday⟩ := id hdate
    have hdays := daysInMonth_le i.year i.month
    have hbounds : i.year < 10000 ∧ i.month < 100 ∧ i.day < 100 ∧ i.hour < 100 ∧
        i.minute < 100 ∧ i.second < 100 := by omega
    have hsplit : value = clockText i.year i.month i.day i.hour i.minute i.second ++
        (fraction ++ text "Z") := by
      rw [hvalue, clockText, List.append_assoc _ fraction]
    have hread : readInstant value = i := by
      rw [hsplit]
      exact readInstant_clockText hbounds hspells
    refine ⟨utcFullmatch_iff.mpr ⟨_, _, _, _, _, _, _, _, hbounds, hspells, hsplit⟩, ?_, hread.symm⟩
    rw [← hread] at hdate hhour hminute hsecond
    exact decide_eq_true ⟨hdate, hhour, hminute, hsecond⟩
  · rintro ⟨hmatch, hok, rfl⟩
    obtain ⟨year, month, day, hour, minute, second, fraction, q, hbounds, hspells, hsplit⟩ :=
      utcFullmatch_iff.mp hmatch
    have hread : readInstant value = ⟨year, month, day, hour, minute, second, q⟩ := by
      rw [hsplit]
      exact readInstant_clockText hbounds hspells
    obtain ⟨hdate, hhour, hminute, hsecond⟩ := of_decide_eq_true hok
    have hfraction : (readInstant value).fraction = q := by rw [hread]
    refine ⟨⟨hdate, hhour, hminute, hsecond, hfraction ▸ hspells.bounds⟩, fraction,
      hfraction ▸ hspells, ?_⟩
    rw [hread, hsplit, clockText, List.append_assoc _ fraction]

/-- The microseconds since the epoch that the code computes from what it reads. -/
def readMicroseconds (value : Text) : ℤ :=
  (((toordinal (naturalValue (slice value 0 4)) (naturalValue (slice value 5 7))
    (naturalValue (slice value 8 10)) : ℤ) - epochOrdinal) * 86400 +
    naturalValue (slice value 11 13) * 3600 + naturalValue (slice value 14 16) * 60 +
    naturalValue (slice value 17 19)) * 1000000 + fractionMicroseconds (fractionDigits value)

theorem cast_readMicroseconds (value : Text) :
    (readMicroseconds value : ℚ) = (readInstant value).microseconds := by
  rw [readMicroseconds, Instant.microseconds, Instant.seconds, readInstant]
  push_cast
  ring

/-- A reader that fails on every text that denotes no instant. -/
theorem read_eq_ok_iff {E : Type} {error : E} {value : Text} {n : ℤ} :
    (if utcFullmatch isAsciiDigit value = true ∧ readable value = true then
      .ok (readMicroseconds value) else .error error : Except E ℤ) = .ok n ↔
      ∃ i, Denotes value i ∧ (n : ℚ) = i.microseconds := by
  simp only [denotes_iff]
  split_ifs with hread
  · rw [Except.ok.injEq]
    constructor
    · rintro rfl
      exact ⟨_, ⟨hread.1, hread.2, rfl⟩, cast_readMicroseconds value⟩
    · rintro ⟨i, ⟨-, -, rfl⟩, hn⟩
      rw [← cast_readMicroseconds, Int.cast_inj] at hn
      exact hn.symm
  · simp only [false_iff]
    rintro ⟨i, ⟨hmatch, hok, -⟩, -⟩
    exact hread ⟨hmatch, hok⟩

end TraigentSchema.Certification
