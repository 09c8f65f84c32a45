import TraigentSchema.Library.Decimal

/-!
# JSON number literals

The number grammar of RFC 8259: an optional minus sign, an integer part without
superfluous zeros, an optional fraction and an optional exponent.  Reading takes
the longest literal off the front of a text, and reading what was written gives
it back.
-/

namespace TraigentSchema.JsonNumber

open TraigentSchema.Unicode
open TraigentSchema.Decimal

abbrev minusSign : CodePoint := 0x2D
abbrev plusSign : CodePoint := 0x2B
abbrev decimalPoint : CodePoint := 0x2E
abbrev lowerE : CodePoint := 0x65
abbrev upperE : CodePoint := 0x45

theorem lowerE_ne_upperE : lowerE ≠ upperE := by
  decide

/-- The exponent part.  The sign is `some true` for a minus, `some false` for a
plus. -/
@[ext]
structure Exponent where
  upperCase : Bool
  sign : Option Bool
  digits : Text
  digits_digits : Digits digits
  digits_ne_nil : digits ≠ []

/-- A number literal; the fraction is empty when there is none. -/
@[ext]
structure NumberLiteral where
  negative : Bool
  integer : Text
  fraction : Text
  exponent : Option Exponent
  integer_digits : Digits integer
  integer_lead : NoLeadingZero integer
  fraction_digits : Digits fraction

namespace Exponent

def signText : Option Bool → Text
  | none => []
  | some true => [minusSign]
  | some false => [plusSign]

def text (e : Exponent) : Text :=
  (if e.upperCase then upperE else lowerE) :: (signText e.sign ++ e.digits)

def value (e : Exponent) : ℤ :=
  if e.sign = some true then -naturalValue e.digits else naturalValue e.digits

end Exponent

namespace NumberLiteral

/-- The digits before and after the point. -/
def digits (literal : NumberLiteral) : Text :=
  literal.integer ++ literal.fraction

def exponentValue (literal : NumberLiteral) : ℤ :=
  literal.exponent.elim 0 Exponent.value

/-- The exact number a literal denotes, without its sign. -/
def magnitude (literal : NumberLiteral) : ℚ :=
  naturalValue literal.digits *
    10 ^ (literal.exponentValue - literal.fraction.length)

/-- The exact number a literal denotes. -/
def value (literal : NumberLiteral) : ℚ :=
  if literal.negative then -literal.magnitude else literal.magnitude

/-- A literal with neither fraction nor exponent. -/
def IsInteger (literal : NumberLiteral) : Prop :=
  literal.fraction = [] ∧ literal.exponent = none

instance (literal : NumberLiteral) : Decidable literal.IsInteger :=
  haveI : Decidable (literal.exponent = none) :=
    decidable_of_iff _ Option.isNone_iff_eq_none
  inferInstanceAs (Decidable (_ ∧ _))

def fractionText (literal : NumberLiteral) : Text :=
  if literal.fraction = [] then [] else decimalPoint :: literal.fraction

def exponentText (literal : NumberLiteral) : Text :=
  literal.exponent.elim [] Exponent.text

def text (literal : NumberLiteral) : Text :=
  (if literal.negative then [minusSign] else []) ++
    (literal.integer ++ (literal.fractionText ++ literal.exponentText))

theorem exists_integer_head (literal : NumberLiteral) :
    ∃ d tail, literal.integer = d :: tail ∧ IsDigit d := by
  rcases literal.integer_lead with hzero | ⟨d, tail, hsplit, -⟩
  · exact ⟨zeroDigit, [], hzero, isDigit_zeroDigit⟩
  · exact ⟨d, tail, hsplit, literal.integer_digits d (by simp [hsplit])⟩

theorem exists_text_head (literal : NumberLiteral) :
    ∃ c tail, literal.text = c :: tail ∧ (c = minusSign ∨ IsDigit c) := by
  obtain ⟨d, tail, hinteger, hd⟩ := literal.exists_integer_head
  cases hnegative : literal.negative with
  | true =>
      refine ⟨minusSign, literal.integer ++ (literal.fractionText ++
        literal.exponentText), ?_, Or.inl rfl⟩
      rw [text, hnegative]
      rfl
  | false =>
      refine ⟨d, tail ++ (literal.fractionText ++ literal.exponentText), ?_,
        Or.inr hd⟩
      rw [text, hnegative, hinteger]
      rfl

/-- An integer literal denotes the number of its digits. -/
theorem magnitude_of_isInteger {literal : NumberLiteral} (hinteger : literal.IsInteger) :
    literal.magnitude = naturalValue literal.integer := by
  simp [magnitude, digits, exponentValue, hinteger.1, hinteger.2]

end NumberLiteral

/-! ## Reading -/

/-- The digits at the front of a text. -/
def leadingDigits (s : Text) : Text :=
  s.takeWhile fun c => decide (IsDigit c)

def afterDigits (s : Text) : Text :=
  s.dropWhile fun c => decide (IsDigit c)

theorem digits_leadingDigits (s : Text) : Digits (leadingDigits s) := by
  intro c hc
  simpa using List.mem_takeWhile_imp hc

theorem noLeadingZero_leadingDigits {c : CodePoint} {s : Text} (hc : IsDigit c)
    (hzero : c ≠ zeroDigit) : NoLeadingZero (leadingDigits (c :: s)) := by
  right
  refine ⟨c, leadingDigits s, ?_, hzero⟩
  simp [leadingDigits, hc]

/-- An integer part: a single zero, or digits that do not start with one. -/
def readInteger : Text → Option ({s : Text // Digits s ∧ NoLeadingZero s} × Text)
  | [] => none
  | c :: rest =>
      if c = zeroDigit then
        some (⟨[zeroDigit], digits_singleton isDigit_zeroDigit, Or.inl rfl⟩, rest)
      else if hdigit : IsDigit c then
        if hzero : c ≠ zeroDigit then
          some (⟨leadingDigits (c :: rest), digits_leadingDigits _,
            noLeadingZero_leadingDigits hdigit hzero⟩, afterDigits (c :: rest))
        else none
      else none

/-- A fraction, when a point is followed by a digit. -/
def readFraction : Text → {s : Text // Digits s} × Text
  | [] => (⟨[], digits_nil⟩, [])
  | c :: rest =>
      if c = decimalPoint ∧ leadingDigits rest ≠ [] then
        (⟨leadingDigits rest, digits_leadingDigits _⟩, afterDigits rest)
      else (⟨[], digits_nil⟩, c :: rest)

def readSign : Text → Option Bool × Text
  | [] => (none, [])
  | c :: rest =>
      if c = minusSign then (some true, rest)
      else if c = plusSign then (some false, rest)
      else (none, c :: rest)

/-- An exponent, when the mark is followed by digits with an optional sign. -/
def readExponent : Text → Option Exponent × Text
  | [] => (none, [])
  | c :: rest =>
      if c = lowerE ∨ c = upperE then
        let (sign, digitsOn) := readSign rest
        if hdigits : leadingDigits digitsOn ≠ [] then
          (some ⟨decide (c = upperE), sign, leadingDigits digitsOn,
            digits_leadingDigits _, hdigits⟩, afterDigits digitsOn)
        else (none, c :: rest)
      else (none, c :: rest)

/-- The part of a literal after its sign. -/
def readUnsigned (negative : Bool) (s : Text) : Option (NumberLiteral × Text) := do
  let (integer, s) ← readInteger s
  let (fraction, s) := readFraction s
  let (exponent, s) := readExponent s
  return (⟨negative, integer.val, fraction.val, exponent, integer.property.1,
    integer.property.2, fraction.property⟩, s)

/-- The longest number literal at the front of a text. -/
def readNumber : Text → Option (NumberLiteral × Text)
  | [] => none
  | c :: rest =>
      if c = minusSign then readUnsigned true rest else readUnsigned false (c :: rest)

/-! ## Reading what was written -/

/-- What follows is not taken for a continuation of the digits before it. -/
def NoDigitHead (rest : Text) : Prop :=
  ∀ c ∈ rest.head?, ¬ IsDigit c

/-- What follows is not taken for a continuation of the literal before it. -/
def EndsNumber (rest : Text) : Prop :=
  ∀ c ∈ rest.head?, ¬ IsDigit c ∧ c ≠ decimalPoint ∧ c ≠ lowerE ∧ c ≠ upperE

theorem EndsNumber.noDigitHead {rest : Text} (hrest : EndsNumber rest) :
    NoDigitHead rest :=
  fun c hc => (hrest c hc).1

theorem endsNumber_nil : EndsNumber [] := by
  simp [EndsNumber]

theorem noDigitHead_cons {c : CodePoint} {rest : Text} (hc : ¬ IsDigit c) :
    NoDigitHead (c :: rest) := by
  simpa [NoDigitHead] using hc

theorem leadingDigits_append {s rest : Text} (hs : Digits s) (hrest : NoDigitHead rest) :
    leadingDigits (s ++ rest) = s := by
  induction s with
  | nil =>
      cases rest with
      | nil => rfl
      | cons c rest =>
          have hc : ¬ IsDigit c := hrest c (by simp)
          simp [leadingDigits, hc]
  | cons c s ih =>
      have hc := hs c (by simp)
      have htail := ih fun d hd => hs d (List.mem_cons_of_mem _ hd)
      unfold leadingDigits at htail ⊢
      simp [hc, htail]

theorem afterDigits_append {s rest : Text} (hs : Digits s) (hrest : NoDigitHead rest) :
    afterDigits (s ++ rest) = rest := by
  have hsplit : leadingDigits (s ++ rest) ++ afterDigits (s ++ rest) = s ++ rest :=
    List.takeWhile_append_dropWhile
  rw [leadingDigits_append hs hrest] at hsplit
  exact List.append_cancel_left hsplit

theorem readInteger_append {s rest : Text} (hs : Digits s) (hlead : NoLeadingZero s)
    (hrest : NoDigitHead rest) :
    readInteger (s ++ rest) = some (⟨s, hs, hlead⟩, rest) := by
  rcases hlead with rfl | ⟨c, tail, rfl, hc⟩
  · rfl
  · have hdigit := hs c (by simp)
    have hleading := leadingDigits_append hs hrest
    have hafter := afterDigits_append hs hrest
    rw [List.cons_append] at hleading hafter
    simp [readInteger, hc, hdigit, hleading, hafter]

theorem readFraction_append {s rest : Text} (hs : Digits s) (hne : s ≠ [])
    (hrest : NoDigitHead rest) :
    readFraction (decimalPoint :: (s ++ rest)) = (⟨s, hs⟩, rest) := by
  simp [readFraction, leadingDigits_append hs hrest, afterDigits_append hs hrest, hne]

theorem readFraction_of_ne {rest : Text} (hrest : ∀ c ∈ rest.head?, c ≠ decimalPoint) :
    readFraction rest = (⟨[], digits_nil⟩, rest) := by
  cases rest with
  | nil => rfl
  | cons c rest =>
      have hc : c ≠ decimalPoint := hrest c (by simp)
      simp [readFraction, hc]

theorem readSign_append {sign : Option Bool} {s : Text} (hs : Digits s) (hne : s ≠ [])
    (rest : Text) :
    readSign (Exponent.signText sign ++ (s ++ rest)) = (sign, s ++ rest) := by
  cases sign with
  | some negative => cases negative <;> rfl
  | none =>
      cases s with
      | nil => exact absurd rfl hne
      | cons c s =>
          obtain ⟨hlow, -⟩ := hs c (by simp)
          have hminus : c ≠ minusSign := by
            rintro rfl
            exact absurd hlow (by decide)
          have hplus : c ≠ plusSign := by
            rintro rfl
            exact absurd hlow (by decide)
          simp [Exponent.signText, readSign, hminus, hplus]

theorem readExponent_append (e : Exponent) {rest : Text} (hrest : NoDigitHead rest) :
    readExponent (e.text ++ rest) = (some e, rest) := by
  obtain ⟨upperCase, sign, digits, hdigits, hne⟩ := e
  cases upperCase <;>
    simp [Exponent.text, readExponent, lowerE_ne_upperE, readSign_append hdigits hne,
      leadingDigits_append hdigits hrest, afterDigits_append hdigits hrest, hne]

theorem readExponent_of_ne {rest : Text}
    (hrest : ∀ c ∈ rest.head?, c ≠ lowerE ∧ c ≠ upperE) :
    readExponent rest = (none, rest) := by
  cases rest with
  | nil => rfl
  | cons c rest =>
      obtain ⟨hlower, hupper⟩ := hrest c (by simp)
      simp [readExponent, hlower, hupper]

theorem readUnsigned_append (literal : NumberLiteral) {rest : Text}
    (hrest : EndsNumber rest) :
    readUnsigned literal.negative
      (literal.integer ++ (literal.fractionText ++ literal.exponentText) ++ rest) =
        some (literal, rest) := by
  obtain ⟨negative, integer, fraction, exponent, hinteger, hlead, hfraction⟩ := literal
  have hexponent : readExponent (exponent.elim [] Exponent.text ++ rest) =
      (exponent, rest) := by
    cases exponent with
    | none => exact readExponent_of_ne fun c hc => (hrest c hc).2.2
    | some e => exact readExponent_append e hrest.noDigitHead
  have hmark : ∀ c ∈ (exponent.elim [] Exponent.text ++ rest).head?,
      ¬ IsDigit c ∧ c ≠ decimalPoint := by
    intro c hc
    cases exponent with
    | none => exact ⟨(hrest c hc).1, (hrest c hc).2.1⟩
    | some e =>
        obtain rfl : (if e.upperCase then upperE else lowerE) = c := by
          simpa [Exponent.text] using hc
        cases e.upperCase <;> decide
  have hfractionRead : readFraction
      ((if fraction = [] then [] else decimalPoint :: fraction) ++
        (exponent.elim [] Exponent.text ++ rest)) =
      (⟨fraction, hfraction⟩, exponent.elim [] Exponent.text ++ rest) := by
    by_cases hempty : fraction = []
    · subst hempty
      exact readFraction_of_ne fun c hc => (hmark c hc).2
    · rw [if_neg hempty]
      exact readFraction_append hfraction hempty fun c hc => (hmark c hc).1
  have hhead : NoDigitHead ((if fraction = [] then [] else decimalPoint :: fraction) ++
      (exponent.elim [] Exponent.text ++ rest)) := by
    by_cases hempty : fraction = []
    · rw [if_pos hempty]
      exact fun c hc => (hmark c hc).1
    · rw [if_neg hempty]
      exact noDigitHead_cons (by decide)
  have hintegerRead := readInteger_append hinteger hlead hhead
  simp only [NumberLiteral.fractionText, NumberLiteral.exponentText, List.append_assoc]
  simp [readUnsigned, hintegerRead, hfractionRead, hexponent]

/-- A literal read back from its own text. -/
theorem readNumber_append (literal : NumberLiteral) {rest : Text}
    (hrest : EndsNumber rest) :
    readNumber (literal.text ++ rest) = some (literal, rest) := by
  have hunsigned := readUnsigned_append literal hrest
  cases hnegative : literal.negative with
  | true =>
      rw [hnegative] at hunsigned
      simpa [NumberLiteral.text, hnegative, readNumber] using hunsigned
  | false =>
      rw [hnegative] at hunsigned
      obtain ⟨d, tail, hinteger, hd⟩ := literal.exists_integer_head
      have hne : d ≠ minusSign := by
        rintro rfl
        exact absurd hd (by decide)
      rw [hinteger] at hunsigned
      simpa [NumberLiteral.text, hnegative, hinteger, readNumber, hne] using hunsigned

end TraigentSchema.JsonNumber
