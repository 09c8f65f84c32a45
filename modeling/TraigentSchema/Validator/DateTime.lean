import TraigentSchema.Library.Unicode

/-!
# The `date-time` format

`_is_rfc3339_date_time` reads a string three times: a regular expression fixes its layout,
the fraction is cut after six digits, and `datetime.fromisoformat` checks the fields of what
is left.  In the regular expression `\d` stands for any Unicode decimal digit; which
characters outside ASCII these are is a parameter.
-/

namespace TraigentSchema.Validator

open TraigentSchema.Unicode

/-! ## The regular expression -/

section Pattern

variable (isDecimal : CodePoint → Bool)

/-- A text of a fixed layout; `d` stands for a digit. -/
def fits : (layout s : Text) → Bool
  | [], [] => true
  | p :: layout, c :: s =>
      (if p = codePoint 'd' then isDecimal c else c == p) && fits layout s
  | _, _ => false

structure DateTimeMatch where
  date : Text
  time : Text
  fraction : Text
  tz : Text

/-- The group `fraction` at the start of a text, and the rest. -/
def matchFraction (s : Text) : Text × Text :=
  match s with
  | [] => ([], [])
  | c :: rest =>
      if c = codePoint '.' ∧ rest.takeWhile isDecimal ≠ [] then
        (c :: rest.takeWhile isDecimal, rest.dropWhile isDecimal)
      else ([], s)

/-- The group `tz`. -/
def matchZone (s : Text) : Bool :=
  match s with
  | [] => false
  | c :: rest =>
      ((c == codePoint 'Z' || c == codePoint 'z') && rest.isEmpty) ||
        ((c == codePoint '+' || c == codePoint '-') && fits isDecimal (text "dd:dd") rest)

def fullmatch (value : Text) : Option DateTimeMatch :=
  let date := value.take 10
  let separator := (value.drop 10).take 1
  let time := (value.drop 11).take 8
  let (fraction, tz) := matchFraction isDecimal (value.drop 19)
  if fits isDecimal (text "dddd-dd-dd") date ∧
      (separator = text "T" ∨ separator = text "t") ∧
      fits isDecimal (text "dd:dd:dd") time ∧ matchZone isDecimal tz then
    some ⟨date, time, fraction, tz⟩
  else none

end Pattern

/-! ## The library parser -/

def isAsciiDigit (c : CodePoint) : Bool :=
  decide (0x30 ≤ c.val ∧ c.val ≤ 0x39)

/-- The number a text of ASCII digits stands for. -/
def number (s : Text) : Option ℕ :=
  if s.all isAsciiDigit then some (s.foldl (fun n c => 10 * n + (c.val - 0x30)) 0) else none

def isLeapYear (year : ℕ) : Bool :=
  year % 4 == 0 && (year % 100 != 0 || year % 400 == 0)

def daysInMonth (year month : ℕ) : ℕ :=
  if month = 2 then (if isLeapYear year then 29 else 28)
  else if month ∈ [4, 6, 9, 11] then 30
  else 31

/-- A day of the calendar, in the years a `datetime` has. -/
def IsDate (year month day : ℕ) : Prop :=
  1 ≤ year ∧ year ≤ 9999 ∧ 1 ≤ month ∧ month ≤ 12 ∧ 1 ≤ day ∧ day ≤ daysInMonth year month

instance (year month day : ℕ) : Decidable (IsDate year month day) :=
  inferInstanceAs (Decidable (_ ∧ _))

/-- The fraction: a point and one to six digits, or nothing. -/
def parseFraction (s : Text) : Bool :=
  match s with
  | [] => true
  | c :: digits =>
      c == codePoint '.' && digits.all isAsciiDigit &&
        decide (1 ≤ digits.length ∧ digits.length ≤ 6)

/-- A numeric offset strictly within a day. -/
def parseOffset (s : Text) : Bool :=
  match number ((s.drop 1).take 2), number ((s.drop 4).take 2) with
  | some hours, some minutes => decide (60 * hours + minutes < 24 * 60)
  | _, _ => false

def isSign (c : CodePoint) : Bool :=
  c == codePoint '+' || c == codePoint '-'

/-- `datetime.fromisoformat`, whether it raises, on a text in the layout of the regular
expression with a numeric offset. -/
def fromisoformat (s : Text) : Bool :=
  let rest := s.drop 19
  match number (s.take 4), number ((s.drop 5).take 2), number ((s.drop 8).take 2),
    number ((s.drop 11).take 2), number ((s.drop 14).take 2), number ((s.drop 17).take 2) with
  | some year, some month, some day, some hour, some minute, some second =>
      decide (IsDate year month day) && decide (hour < 24 ∧ minute < 60 ∧ second < 60) &&
        parseFraction (rest.takeWhile fun c => !isSign c) &&
        parseOffset (rest.dropWhile fun c => !isSign c)
  | _, _, _, _, _, _ => false

/-- The fraction `datetime.fromisoformat` is given: six digits at most. -/
def truncateFraction (fraction : Text) : Text :=
  if fraction = [] then [] else text "." ++ (fraction.drop 1).take 6

def numericZone (tz : Text) : Text :=
  if tz = text "Z" ∨ tz = text "z" then text "+00:00" else tz

/-- `_is_rfc3339_date_time`, on a string. -/
def isRfc3339DateTime (isDecimal : CodePoint → Bool) (value : Text) : Bool :=
  match fullmatch isDecimal value with
  | none => false
  | some m =>
      -- Leap seconds are outside the contract.
      if (text ":60").isSuffixOf m.time then false
      else
        fromisoformat (m.date ++ text "T" ++ m.time ++ truncateFraction m.fraction ++
          numericZone m.tz)

/-! ## The declared subset -/

def digit (d : ℕ) : CodePoint :=
  if hd : d < 10 then ⟨0x30 + d, by omega⟩ else codePoint '0'

def twoDigits (n : ℕ) : Text :=
  [digit (n / 10 % 10), digit (n % 10)]

def fourDigits (n : ℕ) : Text :=
  twoDigits (n / 100) ++ twoDigits n

/-- A calendar date and a time of day, up to the seconds. -/
def IsInstant (s : Text) : Prop :=
  ∃ year month day hour minute second separator,
    IsDate year month day ∧ hour < 24 ∧ minute < 60 ∧ second < 60 ∧
    (separator = text "T" ∨ separator = text "t") ∧
    s = fourDigits year ++ text "-" ++ twoDigits month ++ text "-" ++ twoDigits day ++
      separator ++ twoDigits hour ++ text ":" ++ twoDigits minute ++ text ":" ++
      twoDigits second

def IsFraction (s : Text) : Prop :=
  s = [] ∨ ∃ digits, digits ≠ [] ∧ (∀ c ∈ digits, isAsciiDigit c = true) ∧
    s = text "." ++ digits

def IsZone (s : Text) : Prop :=
  s = text "Z" ∨ s = text "z" ∨ ∃ sign hour minute, (sign = text "+" ∨ sign = text "-") ∧
    hour < 24 ∧ minute < 60 ∧ s = sign ++ twoDigits hour ++ text ":" ++ twoDigits minute

/-- The RFC 3339 date-times without leap seconds. -/
def IsDateTime (s : Text) : Prop :=
  ∃ instant fraction zone, IsInstant instant ∧ IsFraction fraction ∧ IsZone zone ∧
    s = instant ++ fraction ++ zone

/-! ## Reading numbers -/

theorem isAsciiDigit_eq_true {c : CodePoint} :
    isAsciiDigit c = true ↔ ∃ d, d < 10 ∧ c = digit d := by
  constructor
  · intro hdigit
    simp only [isAsciiDigit, decide_eq_true_eq] at hdigit
    refine ⟨c.val - 0x30, by omega, ?_⟩
    apply Fin.ext
    rw [digit, dif_pos (by omega)]
    show c.val = 0x30 + (c.val - 0x30)
    omega
  · rintro ⟨d, hd, rfl⟩
    simp only [isAsciiDigit, digit, dif_pos hd, decide_eq_true_eq]
    omega

theorem digit_val {d : ℕ} (hd : d < 10) : (digit d).val = 0x30 + d := by
  rw [digit, dif_pos hd]

theorem isAsciiDigit_digit (d : ℕ) (hd : d < 10) : isAsciiDigit (digit d) = true :=
  isAsciiDigit_eq_true.mpr ⟨d, hd, rfl⟩

@[simp]
theorem twoDigits_mod (n : ℕ) : twoDigits (n % 100) = twoDigits n := by
  have htens : n % 100 / 10 % 10 = n / 10 % 10 := by omega
  have hunits : n % 100 % 10 = n % 10 := by omega
  rw [twoDigits, htens, hunits, twoDigits]

/-- A text of two characters is a number when it is the number's two digits. -/
theorem number_pair {a b : CodePoint} {n : ℕ} :
    number [a, b] = some n ↔ n < 100 ∧ [a, b] = twoDigits n := by
  constructor
  · intro hnumber
    simp only [number, List.all_cons, List.all_nil, Bool.and_true, Bool.and_eq_true,
      Option.ite_none_right_eq_some, Option.some.injEq, List.foldl_cons, List.foldl_nil] at hnumber
    obtain ⟨⟨ha, hb⟩, rfl⟩ := hnumber
    obtain ⟨x, hx, rfl⟩ := isAsciiDigit_eq_true.mp ha
    obtain ⟨y, hy, rfl⟩ := isAsciiDigit_eq_true.mp hb
    simp only [digit_val hx, digit_val hy]
    have htens : (10 * (10 * 0 + (0x30 + x - 0x30)) + (0x30 + y - 0x30)) / 10 % 10 = x := by omega
    have hunits : (10 * (10 * 0 + (0x30 + x - 0x30)) + (0x30 + y - 0x30)) % 10 = y := by omega
    exact ⟨by omega, by rw [twoDigits, htens, hunits]⟩
  · rintro ⟨hn, hpair⟩
    simp only [twoDigits, List.cons.injEq, and_true] at hpair
    obtain ⟨rfl, rfl⟩ := hpair
    have htens : n / 10 % 10 < 10 := Nat.mod_lt _ (by omega)
    have hunits : n % 10 < 10 := Nat.mod_lt _ (by omega)
    simp only [number, List.all_cons, List.all_nil, isAsciiDigit_digit _ htens,
      isAsciiDigit_digit _ hunits, Bool.and_self, if_true, List.foldl_cons, List.foldl_nil,
      digit_val htens, digit_val hunits, Option.some.injEq]
    omega

theorem number_quad {a b c d : CodePoint} {n : ℕ} :
    number [a, b, c, d] = some n ↔ n < 10000 ∧ [a, b, c, d] = fourDigits n := by
  constructor
  · intro hnumber
    simp only [number, List.all_cons, List.all_nil, Bool.and_true, Bool.and_eq_true,
      Option.ite_none_right_eq_some, Option.some.injEq, List.foldl_cons, List.foldl_nil] at hnumber
    obtain ⟨⟨ha, hb, hc, hd⟩, hvalue⟩ := hnumber
    have hhigh : number [a, b] = some (10 * (10 * 0 + (a.val - 0x30)) + (b.val - 0x30)) := by
      simp [number, ha, hb]
    have hlow : number [c, d] = some (10 * (10 * 0 + (c.val - 0x30)) + (d.val - 0x30)) := by
      simp [number, hc, hd]
    obtain ⟨hhighBound, hhighDigits⟩ := number_pair.mp hhigh
    obtain ⟨hlowBound, hlowDigits⟩ := number_pair.mp hlow
    have hdiv : n / 100 = 10 * (10 * 0 + (a.val - 0x30)) + (b.val - 0x30) := by omega
    refine ⟨by omega, ?_⟩
    rw [fourDigits, hdiv, ← hhighDigits]
    have hmod : n % 100 = 10 * (10 * 0 + (c.val - 0x30)) + (d.val - 0x30) := by omega
    rw [← twoDigits_mod, hmod, ← hlowDigits]
    rfl
  · rintro ⟨hn, hquad⟩
    have hquad' : [a, b] ++ [c, d] = twoDigits (n / 100) ++ twoDigits n := hquad
    obtain ⟨hhigh, hlow⟩ := List.append_inj hquad' rfl
    have hlow' : [c, d] = twoDigits (n % 100) := by
      rw [hlow, twoDigits_mod]
    have hfirst := number_pair.mpr ⟨(by omega : n / 100 < 100), hhigh⟩
    have hsecond := number_pair.mpr ⟨(by omega : n % 100 < 100), hlow'⟩
    simp only [number, List.all_cons, List.all_nil, Bool.and_true, Bool.and_eq_true,
      Option.ite_none_right_eq_some, Option.some.injEq, List.foldl_cons,
      List.foldl_nil] at hfirst hsecond ⊢
    refine ⟨⟨hfirst.1.1, hfirst.1.2, hsecond.1⟩, by omega⟩

/-! ## The layouts -/

section Layout

variable {isDecimal : CodePoint → Bool}

theorem fits_cons {p : CodePoint} {layout s : Text} :
    fits isDecimal (p :: layout) s = true ↔
      ∃ c rest, s = c :: rest ∧ (if p = codePoint 'd' then isDecimal c = true else c = p) ∧
        fits isDecimal layout rest = true := by
  cases s with
  | nil => simp [fits]
  | cons c rest =>
      by_cases hdigit : p = codePoint 'd' <;> simp [fits, hdigit, and_comm]

theorem fits_nil {s : Text} : fits isDecimal [] s = true ↔ s = [] := by
  cases s <;> simp [fits]

/-- What stands between the separators of a text in the layout of a date. -/
theorem date_of_fits {s : Text} (hfits : fits isDecimal (text "dddd-dd-dd") s = true) :
    ∃ y₁ y₂ y₃ y₄ m₁ m₂ d₁ d₂, s = [y₁, y₂, y₃, y₄] ++ text "-" ++ [m₁, m₂] ++ text "-" ++
      [d₁, d₂] := by
  have hlayout : text "dddd-dd-dd" = [codePoint 'd', codePoint 'd', codePoint 'd', codePoint 'd',
    codePoint '-', codePoint 'd', codePoint 'd', codePoint '-', codePoint 'd', codePoint 'd'] := rfl
  rw [hlayout] at hfits
  simp only [fits_cons, fits_nil] at hfits
  obtain ⟨y₁, _, rfl, _, y₂, _, rfl, _, y₃, _, rfl, _, y₄, _, rfl, _, dash, _, rfl, hdash,
    m₁, _, rfl, _, m₂, _, rfl, _, dash', _, rfl, hdash', d₁, _, rfl, _, d₂, _, rfl, _, rfl⟩ := hfits
  refine ⟨y₁, y₂, y₃, y₄, m₁, m₂, d₁, d₂, ?_⟩
  rw [if_neg (by decide)] at hdash hdash'
  rw [hdash, hdash']
  rfl

/-- What stands between the separators of a text in the layout of a time. -/
theorem time_of_fits {s : Text} (hfits : fits isDecimal (text "dd:dd:dd") s = true) :
    ∃ h₁ h₂ n₁ n₂ s₁ s₂, s = [h₁, h₂] ++ text ":" ++ [n₁, n₂] ++ text ":" ++ [s₁, s₂] := by
  have hlayout : text "dd:dd:dd" = [codePoint 'd', codePoint 'd', codePoint ':', codePoint 'd',
    codePoint 'd', codePoint ':', codePoint 'd', codePoint 'd'] := rfl
  rw [hlayout] at hfits
  simp only [fits_cons, fits_nil] at hfits
  obtain ⟨h₁, _, rfl, _, h₂, _, rfl, _, colon, _, rfl, hcolon, n₁, _, rfl, _, n₂, _, rfl, _,
    colon', _, rfl, hcolon', s₁, _, rfl, _, s₂, _, rfl, _, rfl⟩ := hfits
  refine ⟨h₁, h₂, n₁, n₂, s₁, s₂, ?_⟩
  rw [if_neg (by decide)] at hcolon hcolon'
  rw [hcolon, hcolon']
  rfl

theorem offset_of_fits {s : Text} (hfits : fits isDecimal (text "dd:dd") s = true) :
    ∃ h₁ h₂ n₁ n₂, s = [h₁, h₂] ++ text ":" ++ [n₁, n₂] := by
  have hlayout : text "dd:dd" = [codePoint 'd', codePoint 'd', codePoint ':', codePoint 'd',
    codePoint 'd'] := rfl
  rw [hlayout] at hfits
  simp only [fits_cons, fits_nil] at hfits
  obtain ⟨h₁, _, rfl, _, h₂, _, rfl, _, colon, _, rfl, hcolon, n₁, _, rfl, _, n₂, _, rfl, _,
    rfl⟩ := hfits
  rw [if_neg (by decide)] at hcolon
  exact ⟨h₁, h₂, n₁, n₂, by rw [hcolon]; rfl⟩

end Layout

/-! ## The parser's fields -/

theorem fromisoformat_eq_true {s : Text} :
    fromisoformat s = true ↔ ∃ year month day hour minute second,
      number (s.take 4) = some year ∧ number ((s.drop 5).take 2) = some month ∧
      number ((s.drop 8).take 2) = some day ∧ number ((s.drop 11).take 2) = some hour ∧
      number ((s.drop 14).take 2) = some minute ∧ number ((s.drop 17).take 2) = some second ∧
      IsDate year month day ∧ (hour < 24 ∧ minute < 60 ∧ second < 60) ∧
      parseFraction ((s.drop 19).takeWhile fun c => !isSign c) = true ∧
      parseOffset ((s.drop 19).dropWhile fun c => !isSign c) = true := by
  rw [fromisoformat]
  split
  · rename_i year month day hour minute second hyear hmonth hday hhour hminute hsecond
    simp only [hyear, hmonth, hday, hhour, hminute, hsecond, Option.some.injEq,
      Bool.and_eq_true, decide_eq_true_eq]
    constructor
    · rintro ⟨⟨⟨hdate, htime⟩, hfraction⟩, hoffset⟩
      exact ⟨_, _, _, _, _, _, rfl, rfl, rfl, rfl, rfl, rfl, hdate, htime, hfraction, hoffset⟩
    · rintro ⟨_, _, _, _, _, _, rfl, rfl, rfl, rfl, rfl, rfl, hdate, htime, hfraction, hoffset⟩
      exact ⟨⟨⟨hdate, htime⟩, hfraction⟩, hoffset⟩
  · rename_i hnone
    constructor
    · intro hfalse
      cases hfalse
    · rintro ⟨_, _, _, _, _, _, hyear, hmonth, hday, hhour, hminute, hsecond, _⟩
      exact absurd hsecond (hnone _ _ _ _ _ _ hyear hmonth hday hhour hminute)

theorem parseOffset_eq_true {s : Text} :
    parseOffset s = true ↔ ∃ hours minutes, number ((s.drop 1).take 2) = some hours ∧
      number ((s.drop 4).take 2) = some minutes ∧ 60 * hours + minutes < 24 * 60 := by
  rw [parseOffset]
  split
  · rename_i hours minutes hhours hminutes
    simp only [hhours, hminutes, Option.some.injEq, decide_eq_true_eq]
    constructor
    · intro hbound
      exact ⟨hours, minutes, rfl, rfl, hbound⟩
    · rintro ⟨_, _, rfl, rfl, hbound⟩
      exact hbound
  · rename_i hnone
    constructor
    · intro hfalse
      cases hfalse
    · rintro ⟨_, _, hhours, hminutes, _⟩
      exact absurd hminutes (hnone _ _ hhours)

/-! ## What is accepted -/

section Acceptance

variable {isDecimal : CodePoint → Bool}

/-- A fraction of which the parser sees six digits only. -/
def IsLooseFraction (isDecimal : CodePoint → Bool) (s : Text) : Prop :=
  s = [] ∨ ∃ digits, digits ≠ [] ∧ (∀ c ∈ digits, isDecimal c = true) ∧
    (∀ c ∈ digits.take 6, isAsciiDigit c = true) ∧ s = text "." ++ digits

/-- A zone whose minutes may run past the hour, as long as the offset stays within a day. -/
def IsLooseZone (s : Text) : Prop :=
  s = text "Z" ∨ s = text "z" ∨ ∃ sign hour minute, (sign = text "+" ∨ sign = text "-") ∧
    hour < 24 ∧ minute < 100 ∧ 60 * hour + minute < 24 * 60 ∧
    s = sign ++ twoDigits hour ++ text ":" ++ twoDigits minute

theorem IsInstant.length_eq {s : Text} (hinstant : IsInstant s) : s.length = 19 := by
  obtain ⟨_, _, _, _, _, _, _, _, _, _, _, rfl | rfl, rfl⟩ := hinstant <;> rfl

/-- The date and the time of an accepted text are those of an instant. -/
theorem isInstant_of_fromisoformat {date separator time rest : Text}
    (hdate : fits isDecimal (text "dddd-dd-dd") date = true)
    (hseparator : separator = text "T" ∨ separator = text "t")
    (htime : fits isDecimal (text "dd:dd:dd") time = true)
    (hparsed : fromisoformat (date ++ text "T" ++ time ++ rest) = true) :
    IsInstant (date ++ separator ++ time) ∧
      parseFraction (rest.takeWhile fun c => !isSign c) = true ∧
      parseOffset (rest.dropWhile fun c => !isSign c) = true := by
  obtain ⟨y₁, y₂, y₃, y₄, m₁, m₂, d₁, d₂, rfl⟩ := date_of_fits hdate
  obtain ⟨h₁, h₂, n₁, n₂, s₁, s₂, rfl⟩ := time_of_fits htime
  obtain ⟨year, month, day, hour, minute, second, hyear, hmonth, hday, hhour, hminute, hsecond,
    hcalendar, ⟨hhour', hminute', hsecond'⟩, hfraction, hoffset⟩ := fromisoformat_eq_true.mp hparsed
  have hyear' : [y₁, y₂, y₃, y₄] = fourDigits year := (number_quad.mp hyear).2
  have hmonth' : [m₁, m₂] = twoDigits month := (number_pair.mp hmonth).2
  have hday' : [d₁, d₂] = twoDigits day := (number_pair.mp hday).2
  have hhour'' : [h₁, h₂] = twoDigits hour := (number_pair.mp hhour).2
  have hminute'' : [n₁, n₂] = twoDigits minute := (number_pair.mp hminute).2
  have hsecond'' : [s₁, s₂] = twoDigits second := (number_pair.mp hsecond).2
  refine ⟨⟨year, month, day, hour, minute, second, separator, hcalendar, hhour', hminute',
    hsecond', hseparator, ?_⟩, hfraction, hoffset⟩
  rw [hyear', hmonth', hday', hhour'', hminute'', hsecond'']
  simp only [List.append_assoc]

theorem isDecimal_digit (hascii : ∀ c : CodePoint, c.val < 0x80 → isDecimal c = isAsciiDigit c)
    {d : ℕ} (hd : d < 10) : isDecimal (digit d) = true := by
  rw [hascii _ (by rw [digit_val hd]; omega), isAsciiDigit_digit d hd]

/-- An instant has the layout of the regular expression, and the parser reads its fields. -/
theorem IsInstant.exists_parts
    (hascii : ∀ c : CodePoint, c.val < 0x80 → isDecimal c = isAsciiDigit c)
    {instant : Text} (hinstant : IsInstant instant) :
    ∃ date separator time, instant = date ++ separator ++ time ∧
      fits isDecimal (text "dddd-dd-dd") date = true ∧
      (separator = text "T" ∨ separator = text "t") ∧
      fits isDecimal (text "dd:dd:dd") time = true ∧ (text ":60").isSuffixOf time = false ∧
      ∀ rest, parseFraction (rest.takeWhile fun c => !isSign c) = true →
        parseOffset (rest.dropWhile fun c => !isSign c) = true →
        fromisoformat (date ++ text "T" ++ time ++ rest) = true := by
  obtain ⟨year, month, day, hour, minute, second, separator, hcalendar, hhour, hminute, hsecond,
    hseparator, rfl⟩ := hinstant
  have hdecimal : ∀ n, isDecimal (digit (n % 10)) = true := fun n =>
    isDecimal_digit hascii (Nat.mod_lt _ (by omega))
  refine ⟨fourDigits year ++ text "-" ++ twoDigits month ++ text "-" ++ twoDigits day, separator,
    twoDigits hour ++ text ":" ++ twoDigits minute ++ text ":" ++ twoDigits second,
    by simp only [List.append_assoc], ?_, hseparator, ?_, ?_, ?_⟩
  · have hlayout : text "dddd-dd-dd" = [codePoint 'd', codePoint 'd', codePoint 'd',
      codePoint 'd', codePoint '-', codePoint 'd', codePoint 'd', codePoint '-', codePoint 'd',
      codePoint 'd'] := rfl
    have hdash : text "-" = [codePoint '-'] := rfl
    simp [hlayout, hdash, fits, fourDigits, twoDigits, hdecimal,
      show codePoint '-' ≠ codePoint 'd' by decide]
  · have hlayout : text "dd:dd:dd" = [codePoint 'd', codePoint 'd', codePoint ':', codePoint 'd',
      codePoint 'd', codePoint ':', codePoint 'd', codePoint 'd'] := rfl
    have hcolon : text ":" = [codePoint ':'] := rfl
    simp [hlayout, hcolon, fits, twoDigits, hdecimal,
      show codePoint ':' ≠ codePoint 'd' by decide]
  · by_contra hsuffix
    rw [Bool.not_eq_false, List.isSuffixOf_iff_suffix] at hsuffix
    obtain ⟨front, hfront⟩ := hsuffix
    rw [List.append_assoc _ (text ":") (twoDigits second)] at hfront
    have hlast : text ":60" = text ":" ++ twoDigits second :=
      (List.append_inj' hfront rfl).2
    have hsixty : text "60" = twoDigits second := (List.cons.inj hlast).2
    have hnumber : number (twoDigits second) = some second := number_pair.mpr ⟨by omega, rfl⟩
    rw [← hsixty] at hnumber
    have hvalue : number (text "60") = some 60 := by decide
    rw [hvalue, Option.some.injEq] at hnumber
    omega
  · intro rest hfraction hoffset
    obtain ⟨hyear₁, hyear₂, hmonth₁, hmonth₂, hday₁, hday₂⟩ := hcalendar
    have hmonthDays : daysInMonth year month ≤ 31 := by
      rw [daysInMonth]
      split_ifs <;> omega
    exact fromisoformat_eq_true.mpr ⟨year, month, day, hour, minute, second,
      number_quad.mpr ⟨by omega, rfl⟩, number_pair.mpr ⟨by omega, rfl⟩,
      number_pair.mpr ⟨by omega, rfl⟩, number_pair.mpr ⟨by omega, rfl⟩,
      number_pair.mpr ⟨by omega, rfl⟩, number_pair.mpr ⟨by omega, rfl⟩,
      ⟨hyear₁, hyear₂, hmonth₁, hmonth₂, hday₁, hday₂⟩, ⟨hhour, hminute, hsecond⟩,
      hfraction, hoffset⟩

/-! ### The fraction and the zone -/

/-- A zone in the layout of the regular expression. -/
theorem matchZone_eq_true {s : Text} : matchZone isDecimal s = true ↔
    s = text "Z" ∨ s = text "z" ∨ ∃ sign offset, isSign sign = true ∧
      fits isDecimal (text "dd:dd") offset = true ∧ s = sign :: offset := by
  have hzulu : text "Z" = [codePoint 'Z'] := rfl
  have hzulu' : text "z" = [codePoint 'z'] := rfl
  cases s with
  | nil => simp [matchZone, hzulu, hzulu']
  | cons c rest =>
      simp only [matchZone, isSign, hzulu, hzulu', Bool.or_eq_true, Bool.and_eq_true,
        beq_iff_eq, List.isEmpty_iff, List.cons.injEq]
      constructor
      · rintro (⟨rfl | rfl, rfl⟩ | ⟨hsign, hfits⟩)
        · exact Or.inl ⟨rfl, rfl⟩
        · exact Or.inr (Or.inl ⟨rfl, rfl⟩)
        · exact Or.inr (Or.inr ⟨c, rest, hsign, hfits, rfl, rfl⟩)
      · rintro (⟨rfl, rfl⟩ | ⟨rfl, rfl⟩ | ⟨_, _, hsign, hfits, rfl, rfl⟩)
        · exact Or.inl ⟨Or.inl rfl, rfl⟩
        · exact Or.inl ⟨Or.inr rfl, rfl⟩
        · exact Or.inr ⟨hsign, hfits⟩

theorem matchFraction_append (s : Text) :
    (matchFraction isDecimal s).1 ++ (matchFraction isDecimal s).2 = s := by
  cases s with
  | nil => rfl
  | cons c rest =>
      rw [matchFraction]
      split_ifs with hfraction
      · rw [List.cons_append, List.takeWhile_append_dropWhile]
      · rfl

theorem matchFraction_fst (s : Text) : (matchFraction isDecimal s).1 = [] ∨
    ∃ digits, digits ≠ [] ∧ (∀ c ∈ digits, isDecimal c = true) ∧
      (matchFraction isDecimal s).1 = text "." ++ digits := by
  cases s with
  | nil => exact Or.inl rfl
  | cons c rest =>
      rw [matchFraction]
      split_ifs with hfraction
      · obtain ⟨rfl, hne⟩ := hfraction
        exact Or.inr ⟨_, hne, fun c hc => List.mem_takeWhile_imp hc, rfl⟩
      · exact Or.inl rfl

/-- A fraction followed by something that does not continue it is matched whole. -/
theorem matchFraction_of_parts {fraction zone : Text}
    (hfraction : fraction = [] ∨ ∃ digits, digits ≠ [] ∧ (∀ c ∈ digits, isDecimal c = true) ∧
      fraction = text "." ++ digits)
    (hzone : ∀ c ∈ zone.head?, isDecimal c = false ∧ c ≠ codePoint '.') :
    matchFraction isDecimal (fraction ++ zone) = (fraction, zone) := by
  obtain rfl | ⟨digits, hne, hdigits, rfl⟩ := hfraction
  · cases zone with
    | nil => rfl
    | cons c rest =>
        obtain ⟨_, hpoint⟩ := hzone c rfl
        simp [matchFraction, hpoint]
  · have htake : (digits ++ zone).takeWhile isDecimal = digits := by
      rw [List.takeWhile_append_of_pos hdigits]
      cases zone with
      | nil => simp
      | cons c rest => simp [(hzone c rfl).1]
    have hdrop : (digits ++ zone).dropWhile isDecimal = zone := by
      rw [List.dropWhile_append_of_pos hdigits]
      cases zone with
      | nil => rfl
      | cons c rest => simp [(hzone c rfl).1]
    show matchFraction isDecimal (codePoint '.' :: (digits ++ zone)) = _
    rw [matchFraction, htake, hdrop, if_pos ⟨rfl, hne⟩]
    rfl

/-- What the groups of the regular expression are. -/
theorem fullmatch_eq_some {value : Text} {m : DateTimeMatch} :
    fullmatch isDecimal value = some m ↔ ∃ separator rest,
      value = m.date ++ separator ++ m.time ++ rest ∧
      fits isDecimal (text "dddd-dd-dd") m.date = true ∧
      (separator = text "T" ∨ separator = text "t") ∧
      fits isDecimal (text "dd:dd:dd") m.time = true ∧
      matchFraction isDecimal rest = (m.fraction, m.tz) ∧ matchZone isDecimal m.tz = true := by
  simp only [fullmatch, Option.ite_none_right_eq_some, Option.some.injEq]
  constructor
  · rintro ⟨⟨hdate, hseparator, htime, hzone⟩, rfl⟩
    refine ⟨(value.drop 10).take 1, value.drop 19, ?_, hdate, hseparator, htime, rfl, hzone⟩
    calc value = value.take 10 ++ value.drop 10 := (List.take_append_drop 10 value).symm
      _ = value.take 10 ++ ((value.drop 10).take 1 ++ (value.drop 10).drop 1) := by
          rw [List.take_append_drop 1 (value.drop 10)]
      _ = value.take 10 ++ ((value.drop 10).take 1 ++ ((value.drop 11).take 8 ++
            (value.drop 11).drop 8)) := by
          rw [List.take_append_drop 8 (value.drop 11), List.drop_drop]
      _ = _ := by rw [List.drop_drop, List.append_assoc, List.append_assoc]
  · rintro ⟨separator, rest, rfl, hdate, hseparator, htime, hfraction, hzone⟩
    have hdateLength : m.date.length = 10 := by
      obtain ⟨_, _, _, _, _, _, _, _, heq⟩ := date_of_fits hdate
      rw [heq]
      rfl
    have htimeLength : m.time.length = 8 := by
      obtain ⟨_, _, _, _, _, _, heq⟩ := time_of_fits htime
      rw [heq]
      rfl
    have hseparatorLength : separator.length = 1 := by
      obtain rfl | rfl := hseparator <;> rfl
    have htake : (m.date ++ separator ++ m.time ++ rest).take 10 = m.date := by
      rw [List.append_assoc, List.append_assoc, ← hdateLength, List.take_left]
    have hdrop : (m.date ++ separator ++ m.time ++ rest).drop 10 =
        separator ++ (m.time ++ rest) := by
      rw [List.append_assoc, List.append_assoc, ← hdateLength, List.drop_left]
    have hdrop' : (m.date ++ separator ++ m.time ++ rest).drop 11 = m.time ++ rest := by
      rw [show 11 = 10 + 1 from rfl, ← List.drop_drop, hdrop, ← hseparatorLength, List.drop_left]
    have hdrop'' : (m.date ++ separator ++ m.time ++ rest).drop 19 = rest := by
      rw [show 19 = 11 + 8 from rfl, ← List.drop_drop, hdrop', ← htimeLength, List.drop_left]
    rw [htake, hdrop, hdrop', hdrop'', hfraction, ← hseparatorLength, List.take_left,
      ← htimeLength, List.take_left]
    exact ⟨⟨hdate, hseparator, htime, hzone⟩, rfl⟩

/-- The parser cuts what follows the seconds at the sign of the offset. -/
theorem takeWhile_truncateFraction
    (hascii : ∀ c : CodePoint, c.val < 0x80 → isDecimal c = isAsciiDigit c)
    {fraction tz : Text} (hfraction : fraction = [] ∨ ∃ digits, digits ≠ [] ∧
      (∀ c ∈ digits, isDecimal c = true) ∧ fraction = text "." ++ digits)
    (hzone : matchZone isDecimal tz = true) :
    ((truncateFraction fraction ++ numericZone tz).takeWhile fun c => !isSign c) =
        truncateFraction fraction ∧
      ((truncateFraction fraction ++ numericZone tz).dropWhile fun c => !isSign c) =
        numericZone tz := by
  have hunsigned : ∀ c, isDecimal c = true → isSign c = false := by
    intro c hdecimal
    by_contra hsign
    rw [Bool.not_eq_false, isSign, Bool.or_eq_true, beq_iff_eq, beq_iff_eq] at hsign
    obtain rfl | rfl := hsign
    · exact absurd (hascii (codePoint '+') (by decide) ▸ hdecimal) (by decide)
    · exact absurd (hascii (codePoint '-') (by decide) ▸ hdecimal) (by decide)
  have htruncated : ∀ c ∈ truncateFraction fraction, (!isSign c) = true := by
    intro c hc
    obtain rfl | ⟨digits, _, hdigits, rfl⟩ := hfraction
    · cases hc
    · have hmem : c ∈ codePoint '.' :: digits.take 6 := hc
      obtain rfl | hmem := List.mem_cons.mp hmem
      · decide
      · rw [hunsigned c (hdigits c (List.mem_of_mem_take hmem))]
        rfl
  have hsigned : ∃ sign offset, isSign sign = true ∧ numericZone tz = sign :: offset := by
    rw [numericZone]
    split_ifs with hzulu
    · exact ⟨codePoint '+', text "00:00", by decide, rfl⟩
    · obtain hz | hz | ⟨sign, offset, hsign, _, heq⟩ := matchZone_eq_true.mp hzone
      · exact absurd (Or.inl hz) hzulu
      · exact absurd (Or.inr hz) hzulu
      · exact ⟨sign, offset, hsign, heq⟩
  obtain ⟨sign, offset, hsign, hsplit⟩ := hsigned
  rw [List.takeWhile_append_of_pos htruncated, List.dropWhile_append_of_pos htruncated, hsplit]
  simp [hsign]

theorem parseFraction_truncateFraction {fraction : Text} (hfraction : fraction = [] ∨
      ∃ digits, digits ≠ [] ∧ (∀ c ∈ digits, isDecimal c = true) ∧
        fraction = text "." ++ digits) :
    parseFraction (truncateFraction fraction) = true ↔ IsLooseFraction isDecimal fraction := by
  obtain rfl | ⟨digits, hne, hdigits, rfl⟩ := hfraction
  · simp [truncateFraction, parseFraction, IsLooseFraction]
  · have hlength : 1 ≤ (digits.take 6).length ∧ (digits.take 6).length ≤ 6 := by
      have hpos : 0 < digits.length := List.length_pos_of_ne_nil hne
      rw [List.length_take]
      omega
    show (codePoint '.' == codePoint '.' && (digits.take 6).all isAsciiDigit &&
      decide (1 ≤ (digits.take 6).length ∧ (digits.take 6).length ≤ 6)) = true ↔ _
    rw [decide_eq_true hlength, Bool.and_true, beq_self_eq_true, Bool.true_and, List.all_eq_true]
    constructor
    · intro hall
      exact Or.inr ⟨digits, hne, hdigits, hall, rfl⟩
    · rintro (hnil | ⟨digits', _, _, hall, heq⟩)
      · cases hnil
      · rw [List.append_cancel_left heq]
        exact hall

theorem parseOffset_numericZone
    (hascii : ∀ c : CodePoint, c.val < 0x80 → isDecimal c = isAsciiDigit c) {tz : Text} :
    matchZone isDecimal tz = true ∧ parseOffset (numericZone tz) = true ↔ IsLooseZone tz := by
  constructor
  · rintro ⟨hmatch, hoffset⟩
    by_cases hzulu : tz = text "Z" ∨ tz = text "z"
    · exact hzulu.imp_right Or.inl
    rw [numericZone, if_neg hzulu] at hoffset
    obtain hz | hz | ⟨sign, offset, hsign, hfits, rfl⟩ := matchZone_eq_true.mp hmatch
    · exact Or.inl hz
    · exact Or.inr (Or.inl hz)
    obtain ⟨h₁, h₂, n₁, n₂, rfl⟩ := offset_of_fits hfits
    obtain ⟨hour, minute, hhour, hminute, hbound⟩ := parseOffset_eq_true.mp hoffset
    have hhour' : [h₁, h₂] = twoDigits hour := (number_pair.mp hhour).2
    obtain ⟨hminuteBound, hminute'⟩ := number_pair.mp hminute
    refine Or.inr (Or.inr ⟨[sign], hour, minute, ?_, by omega, hminuteBound, hbound, ?_⟩)
    · rw [isSign, Bool.or_eq_true, beq_iff_eq, beq_iff_eq] at hsign
      obtain rfl | rfl := hsign
      · exact Or.inl rfl
      · exact Or.inr rfl
    · rw [hhour', show [n₁, n₂] = twoDigits minute from hminute']
      rfl
  · rintro (rfl | rfl | ⟨sign, hour, minute, hsign, hhour, hminute, hbound, rfl⟩)
    · exact ⟨rfl, by decide⟩
    · exact ⟨rfl, by decide⟩
    · have hdecimal : ∀ n, isDecimal (digit (n % 10)) = true := fun n =>
        isDecimal_digit hascii (Nat.mod_lt _ (by omega))
      have hlayout : text "dd:dd" = [codePoint 'd', codePoint 'd', codePoint ':', codePoint 'd',
        codePoint 'd'] := rfl
      have hcolon : text ":" = [codePoint ':'] := rfl
      have hfits : fits isDecimal (text "dd:dd") (twoDigits hour ++ text ":" ++ twoDigits minute) =
          true := by
        simp [hlayout, hcolon, fits, twoDigits, hdecimal,
          show codePoint ':' ≠ codePoint 'd' by decide]
      obtain ⟨c, rfl, hc⟩ : ∃ c, sign = [c] ∧ isSign c = true := by
        obtain rfl | rfl := hsign
        · exact ⟨codePoint '+', rfl, by decide⟩
        · exact ⟨codePoint '-', rfl, by decide⟩
      have hnumeric : numericZone ([c] ++ twoDigits hour ++ text ":" ++ twoDigits minute) =
          [c] ++ twoDigits hour ++ text ":" ++ twoDigits minute := by
        rw [numericZone, if_neg]
        rintro (heq | heq)
        · exact absurd (congrArg List.length heq) (by simp [twoDigits, text])
        · exact absurd (congrArg List.length heq) (by simp [twoDigits, text])
      refine ⟨matchZone_eq_true.mpr (Or.inr (Or.inr ⟨c, _, hc, hfits, rfl⟩)), ?_⟩
      rw [hnumeric]
      exact parseOffset_eq_true.mpr ⟨hour, minute, number_pair.mpr ⟨by omega, rfl⟩,
        number_pair.mpr ⟨by omega, rfl⟩, hbound⟩

theorem IsLooseZone.head {zone : Text} (hzone : IsLooseZone zone)
    (hascii : ∀ c : CodePoint, c.val < 0x80 → isDecimal c = isAsciiDigit c) :
    ∀ c ∈ zone.head?, isDecimal c = false ∧ c ≠ codePoint '.' := by
  have hsymbol : ∀ c ∈ text "Zz+-", isDecimal c = false ∧ c ≠ codePoint '.' := by
    intro c hc
    have hvalues : (text "Zz+-").all (fun c => decide (c.val < 0x80) && !isAsciiDigit c &&
        decide (c ≠ codePoint '.')) = true := by decide
    have hvalue := List.all_eq_true.mp hvalues c hc
    simp only [Bool.and_eq_true, decide_eq_true_eq, Bool.not_eq_true'] at hvalue
    obtain ⟨⟨hval, hdigit⟩, hpoint⟩ := hvalue
    exact ⟨(hascii c hval).trans hdigit, hpoint⟩
  obtain rfl | rfl | ⟨sign, hour, minute, rfl | rfl, _, _, _, rfl⟩ := hzone <;>
    exact fun c hc => hsymbol c (by rw [← Option.some.inj hc]; decide)

/-- An accepted text is an instant, a fraction and a zone in the looser grammars. -/
theorem isRfc3339DateTime_eq_true
    (hascii : ∀ c : CodePoint, c.val < 0x80 → isDecimal c = isAsciiDigit c) {value : Text} :
    isRfc3339DateTime isDecimal value = true ↔ ∃ instant fraction zone, IsInstant instant ∧
      IsLooseFraction isDecimal fraction ∧ IsLooseZone zone ∧
      value = instant ++ fraction ++ zone := by
  constructor
  · intro haccepted
    rw [isRfc3339DateTime] at haccepted
    cases hmatch : fullmatch isDecimal value with
    | none => simp [hmatch] at haccepted
    | some m =>
        rw [hmatch] at haccepted
        dsimp only at haccepted
        obtain ⟨separator, rest, rfl, hdate, hseparator, htime, hsplit, hzone⟩ :=
          fullmatch_eq_some.mp hmatch
        by_cases hleap : (text ":60").isSuffixOf m.time = true
        · simp [hleap] at haccepted
        have hshape := @matchFraction_fst isDecimal rest
        have happend := @matchFraction_append isDecimal rest
        rw [hsplit] at hshape happend
        obtain ⟨htake, hdrop⟩ := takeWhile_truncateFraction hascii hshape hzone
        rw [if_neg hleap, List.append_assoc _ (truncateFraction _)] at haccepted
        obtain ⟨hinstant, hfraction, hoffset⟩ :=
          isInstant_of_fromisoformat hdate hseparator htime haccepted
        rw [htake] at hfraction
        rw [hdrop] at hoffset
        exact ⟨_, m.fraction, m.tz, hinstant, (parseFraction_truncateFraction hshape).mp hfraction,
          (parseOffset_numericZone hascii).mp ⟨hzone, hoffset⟩, by
            rw [List.append_assoc _ m.fraction, happend]⟩
  · rintro ⟨instant, fraction, zone, hinstant, hfraction, hzone, rfl⟩
    obtain ⟨date, separator, time, rfl, hdate, hseparator, htime, hleap, hparse⟩ :=
      hinstant.exists_parts hascii
    have hshape : fraction = [] ∨ ∃ digits, digits ≠ [] ∧ (∀ c ∈ digits, isDecimal c = true) ∧
        fraction = text "." ++ digits := by
      obtain hnil | ⟨digits, hne, hdigits, _, heq⟩ := hfraction
      · exact Or.inl hnil
      · exact Or.inr ⟨digits, hne, hdigits, heq⟩
    obtain ⟨hmatchZone, hoffset⟩ := (parseOffset_numericZone hascii).mpr hzone
    have hmatch : fullmatch isDecimal (date ++ separator ++ time ++ fraction ++ zone) =
        some ⟨date, time, fraction, zone⟩ := fullmatch_eq_some.mpr
      ⟨separator, fraction ++ zone, by rw [List.append_assoc _ fraction], hdate, hseparator,
        htime, matchFraction_of_parts hshape (hzone.head hascii), hmatchZone⟩
    obtain ⟨htake, hdrop⟩ := takeWhile_truncateFraction hascii hshape hmatchZone
    simp only [isRfc3339DateTime, hmatch, hleap, Bool.false_eq_true, if_false]
    rw [List.append_assoc _ (truncateFraction fraction)]
    apply hparse
    · rw [htake]
      exact (parseFraction_truncateFraction hshape).mpr hfraction
    · rw [hdrop]
      exact hoffset

theorem IsFraction.loose
    (hascii : ∀ c : CodePoint, c.val < 0x80 → isDecimal c = isAsciiDigit c)
    {s : Text} (hfraction : IsFraction s) : IsLooseFraction isDecimal s := by
  obtain hnil | ⟨digits, hne, hdigits, heq⟩ := hfraction
  · exact Or.inl hnil
  · refine Or.inr ⟨digits, hne, ?_, fun c hc => hdigits c (List.mem_of_mem_take hc), heq⟩
    intro c hc
    obtain ⟨d, hd, rfl⟩ := isAsciiDigit_eq_true.mp (hdigits c hc)
    exact isDecimal_digit hascii hd

theorem IsZone.loose {s : Text} (hzone : IsZone s) : IsLooseZone s := by
  obtain hz | hz | ⟨sign, hour, minute, hsign, hhour, hminute, heq⟩ := hzone
  · exact Or.inl hz
  · exact Or.inr (Or.inl hz)
  · exact Or.inr (Or.inr ⟨sign, hour, minute, hsign, hhour, by omega, by omega, heq⟩)

/-- The three parts of a text can be told from one another. -/
theorem parts_unique
    (hascii : ∀ c : CodePoint, c.val < 0x80 → isDecimal c = isAsciiDigit c)
    {instant instant' fraction fraction' zone zone' : Text}
    (hinstant : IsInstant instant) (hinstant' : IsInstant instant')
    (hfraction : IsLooseFraction isDecimal fraction)
    (hfraction' : IsLooseFraction isDecimal fraction')
    (hzone : IsLooseZone zone) (hzone' : IsLooseZone zone')
    (heq : instant ++ fraction ++ zone = instant' ++ fraction' ++ zone') :
    fraction = fraction' ∧ zone = zone' := by
  have hshape : ∀ {f}, IsLooseFraction isDecimal f → f = [] ∨ ∃ digits, digits ≠ [] ∧
      (∀ c ∈ digits, isDecimal c = true) ∧ f = text "." ++ digits := by
    rintro f (hnil | ⟨digits, hne, hdigits, _, hdots⟩)
    · exact Or.inl hnil
    · exact Or.inr ⟨digits, hne, hdigits, hdots⟩
  rw [List.append_assoc, List.append_assoc] at heq
  have hrest : fraction ++ zone = fraction' ++ zone' :=
    List.append_inj_right heq (hinstant.length_eq.trans hinstant'.length_eq.symm)
  have hmatch := matchFraction_of_parts (hshape hfraction) (hzone.head hascii)
  rw [hrest, matchFraction_of_parts (hshape hfraction') (hzone'.head hascii)] at hmatch
  exact ⟨(Prod.mk.inj hmatch).1.symm, (Prod.mk.inj hmatch).2.symm⟩

end Acceptance

/-- A text that slips between the regular expression and the parser: after the sixth digit
its fraction has a decimal digit outside ASCII, or its offset has 60 minutes or more. -/
def SlipsThrough (isDecimal : CodePoint → Bool) (value : Text) : Prop :=
  ∃ instant fraction zone, IsInstant instant ∧ IsLooseFraction isDecimal fraction ∧
    IsLooseZone zone ∧ (¬ IsFraction fraction ∨ ¬ IsZone zone) ∧
    value = instant ++ fraction ++ zone

/-- The check is the declared subset on every text that does not slip through. -/
theorem isRfc3339DateTime_iff_isDateTime (isDecimal : CodePoint → Bool)
    (hascii : ∀ c : CodePoint, c.val < 0x80 → isDecimal c = isAsciiDigit c) (value : Text) :
    (isRfc3339DateTime isDecimal value = true ↔ IsDateTime value) ↔
      ¬ SlipsThrough isDecimal value := by
  rw [isRfc3339DateTime_eq_true hascii]
  constructor
  · rintro hsame ⟨instant, fraction, zone, hinstant, hfraction, hzone, houtside, hvalue⟩
    obtain ⟨instant', fraction', zone', hinstant', hfraction', hzone', hvalue'⟩ :=
      hsame.mp ⟨instant, fraction, zone, hinstant, hfraction, hzone, hvalue⟩
    obtain ⟨rfl, rfl⟩ := parts_unique hascii hinstant hinstant' hfraction
      (hfraction'.loose hascii) hzone hzone'.loose (hvalue.symm.trans hvalue')
    exact houtside.elim (fun hnot => hnot hfraction') (fun hnot => hnot hzone')
  · intro hkept
    constructor
    · rintro ⟨instant, fraction, zone, hinstant, hfraction, hzone, hvalue⟩
      have hinside : IsFraction fraction ∧ IsZone zone := by
        by_contra houtside
        exact hkept ⟨instant, fraction, zone, hinstant, hfraction, hzone,
          not_and_or.mp houtside, hvalue⟩
      exact ⟨instant, fraction, zone, hinstant, hinside.1, hinside.2, hvalue⟩
    · rintro ⟨instant, fraction, zone, hinstant, hfraction, hzone, hvalue⟩
      exact ⟨instant, fraction, zone, hinstant, hfraction.loose hascii, hzone.loose, hvalue⟩

/-- The decimal digits of ASCII and the Arabic-Indic ones. -/
def isArabicDecimal (c : CodePoint) : Bool :=
  isAsciiDigit c || decide (0x660 ≤ c.val ∧ c.val ≤ 0x669)

theorem isRfc3339DateTime_iff_isDateTime_arabic :
    (∀ c : CodePoint, c.val < 0x80 → isArabicDecimal c = isAsciiDigit c) ∧
      ((isRfc3339DateTime isArabicDecimal (text "2026-01-01T00:00:00.0000000Z") = true ↔
        IsDateTime (text "2026-01-01T00:00:00.0000000Z")) ↔
          ¬ SlipsThrough isArabicDecimal (text "2026-01-01T00:00:00.0000000Z")) := by
  have hascii : ∀ c : CodePoint, c.val < 0x80 → isArabicDecimal c = isAsciiDigit c := by
    intro c hc
    have houtside : ¬ (0x660 ≤ c.val ∧ c.val ≤ 0x669) := by omega
    simp [isArabicDecimal, houtside]
  exact ⟨hascii, isRfc3339DateTime_iff_isDateTime isArabicDecimal hascii _⟩

/-- An offset of sixty minutes, and an Arabic-Indic zero in the seventh place. -/
theorem isRfc3339DateTime_accepts_outside :
    (isRfc3339DateTime isArabicDecimal (text "2026-01-01T00:00:00+00:60") = true ∧
        ¬ IsDateTime (text "2026-01-01T00:00:00+00:60")) ∧
      isRfc3339DateTime isArabicDecimal (text "2026-01-01T00:00:00.000000\u0660Z") = true ∧
        ¬ IsDateTime (text "2026-01-01T00:00:00.000000\u0660Z") := by
  have hascii : ∀ c : CodePoint, c.val < 0x80 → isArabicDecimal c = isAsciiDigit c := by
    intro c hc
    have houtside : ¬ (0x660 ≤ c.val ∧ c.val ≤ 0x669) := by omega
    simp [isArabicDecimal, houtside]
  have hinstant : IsInstant (text "2026-01-01T00:00:00") :=
    ⟨2026, 1, 1, 0, 0, 0, text "T", by decide, by decide, by decide, by decide, Or.inl rfl, rfl⟩
  have hoffset : IsLooseZone (text "+00:60") :=
    Or.inr (Or.inr ⟨text "+", 0, 60, Or.inl rfl, by decide, by decide, by decide, rfl⟩)
  have hfraction : IsLooseFraction isArabicDecimal (text ".000000\u0660") :=
    Or.inr ⟨text "000000\u0660", by decide,
      List.all_eq_true.mp (by decide : (text "000000\u0660").all isArabicDecimal = true),
      List.all_eq_true.mp
        (by decide : ((text "000000\u0660").take 6).all isAsciiDigit = true), rfl⟩
  refine ⟨⟨by decide, ?_⟩, by decide, ?_⟩
  · rintro ⟨instant, fraction, zone, hinstant', hfraction', hzone', heq⟩
    obtain ⟨rfl, rfl⟩ := parts_unique hascii hinstant hinstant' (Or.inl rfl)
      (hfraction'.loose hascii) hoffset hzone'.loose (heq : text "2026-01-01T00:00:00" ++ [] ++
        text "+00:60" = _)
    obtain hz | hz | ⟨sign, hour, minute, hsign, _, hminute, hzone⟩ := hzone'
    · exact absurd hz (by decide)
    · exact absurd hz (by decide)
    have hparts : text "+00:" ++ text "60" = _ ++ twoDigits minute := hzone
    have hlast : text "60" = twoDigits minute := (List.append_inj' hparts rfl).2
    have hnumber : number (twoDigits minute) = some minute := number_pair.mpr ⟨by omega, rfl⟩
    rw [← hlast, show number (text "60") = some 60 by decide, Option.some.injEq] at hnumber
    omega
  · rintro ⟨instant, fraction, zone, hinstant', hfraction', hzone', heq⟩
    obtain ⟨rfl, -⟩ := parts_unique hascii hinstant hinstant' hfraction
      (hfraction'.loose hascii) (Or.inl rfl) hzone'.loose heq
    obtain hnil | ⟨digits, _, hdigits, hdots⟩ := hfraction'
    · exact absurd hnil (by decide)
    · have hall : (text "000000\u0660").all isAsciiDigit = true := by
        rw [show text "000000\u0660" = digits from (List.cons.inj hdots).2]
        exact List.all_eq_true.mpr hdigits
      exact absurd hall (by decide)

end TraigentSchema.Validator
