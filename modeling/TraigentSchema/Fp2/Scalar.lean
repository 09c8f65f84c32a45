import TraigentSchema.Library.Hashing
import TraigentSchema.Python.FloatRepr
import TraigentSchema.Library.Traverse
import TraigentSchema.Python.Value

/-!
# Canonical text of strings, numbers and constants

The scalar half of the fp2 encoder.  Strings keep every character except the
ones JSON requires to be escaped, numbers are written with the ECMAScript
`Number::toString` algorithm, and whatever is not an exact JSON scalar is left
to the caller.
-/

namespace TraigentSchema.Fp2

open TraigentSchema.Unicode
open TraigentSchema.Binary64
open TraigentSchema.Decimal
open TraigentSchema.Hashing (hexDigit)
open TraigentSchema.Python
open TraigentSchema.Traverse

/-- A value that fp2 cannot represent. -/
structure Fp2UnsupportedValue where
  message : String
  deriving DecidableEq, Repr

/-- The exceptions that can leave the encoder: the module's own, and one raised
by an object the encoder looked at. -/
inductive Raised where
  | fp2UnsupportedValue (message : String)
  | other (typeName : String)
  deriving DecidableEq, Repr

def maxSafeInteger : ℕ := 2 ^ 53 - 1

/-- The two-character escapes. -/
def escapes (c : CodePoint) : Option Text :=
  if c.val = 0x22 then some (text "\\\"")
  else if c.val = 0x5C then some (text "\\\\")
  else if c.val = 0x0A then some (text "\\n")
  else if c.val = 0x0D then some (text "\\r")
  else if c.val = 0x09 then some (text "\\t")
  else if c.val = 0x08 then some (text "\\b")
  else if c.val = 0x0C then some (text "\\f")
  else none

/-- The UTF-16 code-unit sort key.  A lone surrogate has no encoding; the first
one is reported by its index. -/
def utf16SortKey (value : Text) : Except Raised Bytes :=
  match value.findIdx? (fun c => decide (IsSurrogate c)) with
  | some start => .error (.fp2UnsupportedValue
      s!"string is not encodable text (lone surrogate at index {start})")
  | none => .ok (utf16BigEndian value)

/-- Four lower-case hexadecimal digits. -/
def hexText4 (n : ℕ) : Text :=
  [hexDigit (n / 0x1000 % 16), hexDigit (n / 0x100 % 16), hexDigit (n / 0x10 % 16),
    hexDigit (n % 16)]

def encodeCharacter (character : CodePoint) : Text :=
  match escapes character with
  | some escape => escape
  | none =>
      if character.val < 0x20 then text "\\u" ++ hexText4 character.val
      else [character]

def encodeString (value : Text) : Except Raised Text := do
  let _ ← utf16SortKey value
  return text "\"" ++ value.flatMap encodeCharacter ++ text "\""

/-! ## Numbers -/

/-- `str.partition`: before and after the first separator, the second part empty
when there is none. -/
def partition (separator : CodePoint) (s : Text) : Text × Text :=
  (s.takeWhile (· ≠ separator), (s.dropWhile (· ≠ separator)).drop 1)

/-- `int` on a text that is a sign and digits. -/
def signedInt (s : Text) : ℤ :=
  match s with
  | [] => 0
  | c :: digits =>
      if c = codePoint '-' then -naturalValue digits
      else if c = codePoint '+' then naturalValue digits
      else naturalValue s

/-- Significant digits and decimal exponent of a `repr` text, `0.s * 10 ** n`. -/
def decomposeRepr (reprText : Text) : Text × ℤ :=
  let (mantissa, exponentText) := partition (codePoint 'e') reprText
  let exponent := if exponentText = [] then 0 else signedInt exponentText
  let (integerPart, fractionPart) := partition (codePoint '.') mantissa
  let digits := integerPart ++ fractionPart
  let n := (integerPart.length : ℤ) + exponent
  let stripped := stripLeading digits
  let n := n - ((digits.length - stripped.length : ℕ) : ℤ)
  let digits := if stripTrailing stripped = [] then text "0" else stripTrailing stripped
  (digits, n)

def shortestDigits (float : FloatRepr) (value : Magnitude) : Text × ℤ :=
  decomposeRepr (float.repr value).text

/-- The four number layouts of ECMA-262. -/
def layoutDigits (digits : Text) (n : ℤ) : Text :=
  let k := digits.length
  if (k : ℤ) ≤ n ∧ n ≤ 21 then
    digits ++ List.replicate (n.toNat - k) zeroDigit
  else if 0 < n ∧ n ≤ 21 then
    digits.take n.toNat ++ text "." ++ digits.drop n.toNat
  else if -6 < n ∧ n ≤ 0 then
    text "0." ++ List.replicate (-n).toNat zeroDigit ++ digits
  else
    let exponent := n - 1
    let sign := if 0 ≤ exponent then text "+" else text "-"
    let significand :=
      if k = 1 then digits else digits.take 1 ++ text "." ++ digits.drop 1
    significand ++ text "e" ++ sign ++ decimalText exponent.natAbs

def ecmascriptNumberToString (float : FloatRepr) (negative : Bool)
    (value : Magnitude) : Text :=
  if value = .zero then text "0"
  else
    let (digits, n) := shortestDigits float value
    if negative then text "-" ++ layoutDigits digits n else layoutDigits digits n

def encodeFloat (float : FloatRepr) : Double → Except Raised Text
  | .nan => .error (.fp2UnsupportedValue "non-finite number (NaN or Infinity)")
  | .infinity _ => .error (.fp2UnsupportedValue "non-finite number (NaN or Infinity)")
  | .finite negative value => .ok (ecmascriptNumberToString float negative value)

/-- `str` of an integer. -/
def integerText (value : ℤ) : Text :=
  if value < 0 then text "-" ++ decimalText value.natAbs else decimalText value.natAbs

def encodeInt (value : ℤ) : Except Raised Text :=
  if maxSafeInteger < value.natAbs then
    .error (.fp2UnsupportedValue
      s!"integer outside the IEEE-754 safe range, not representable as a JavaScript Number (limit {maxSafeInteger})")
  else .ok (integerText value)

/-- Canonical text of a JSON scalar, `none` for anything else. -/
def encodeScalar (float : FloatRepr) : Atom → Except Raised (Option Text)
  | .none => .ok (some (text "null"))
  | .bool true => .ok (some (text "true"))
  | .bool false => .ok (some (text "false"))
  | .str value => (encodeString value).map some
  | .int value => (encodeInt value).map some
  | .float value => (encodeFloat float value).map some
  | .foreign _ => .ok none

/-! ## What the scalars accept, and what they write -/

/-- The text of a string, for a string with an encoding. -/
def quoted (value : Text) : Text :=
  text "\"" ++ value.flatMap encodeCharacter ++ text "\""

/-- The scalars with a canonical text. -/
def SupportedAtom : Atom → Prop
  | .none => True
  | .bool _ => True
  | .str value => Encodable value
  | .int value => value.natAbs ≤ maxSafeInteger
  | .float (.finite _ _) => True
  | .float _ => False
  | .foreign _ => False

instance : DecidablePred SupportedAtom
  | .none | .bool _ | .float (.finite _ _) => inferInstanceAs (Decidable True)
  | .str value => inferInstanceAs (Decidable (Encodable value))
  | .int value => inferInstanceAs (Decidable (value.natAbs ≤ maxSafeInteger))
  | .float .nan | .float (.infinity _) | .foreign _ => inferInstanceAs (Decidable False)

/-- The canonical text of a supported scalar. -/
def atomText (float : FloatRepr) : Atom → Text
  | .none => text "null"
  | .bool true => text "true"
  | .bool false => text "false"
  | .str value => quoted value
  | .int value => integerText value
  | .float (.finite negative value) => ecmascriptNumberToString float negative value
  | .float _ => []
  | .foreign _ => []

theorem utf16SortKey_of_encodable {value : Text} (hvalue : Encodable value) :
    utf16SortKey value = .ok (utf16BigEndian value) := by
  have hnone : value.findIdx? (fun c => decide (IsSurrogate c)) = none := by
    rw [List.findIdx?_eq_none_iff]
    intro c hc
    simpa using hvalue c hc
  rw [utf16SortKey, hnone]

theorem utf16SortKey_of_not_encodable {value : Text} (hvalue : ¬ Encodable value) :
    ∃ message, utf16SortKey value = .error (.fp2UnsupportedValue message) := by
  cases hfind : value.findIdx? (fun c => decide (IsSurrogate c)) with
  | some start => exact ⟨_, by rw [utf16SortKey, hfind]⟩
  | none =>
      rw [List.findIdx?_eq_none_iff] at hfind
      exact absurd (fun c hc => by simpa using hfind c hc) hvalue

theorem encodeString_of_encodable {value : Text} (hvalue : Encodable value) :
    encodeString value = .ok (quoted value) := by
  simp [encodeString, utf16SortKey_of_encodable hvalue, quoted]

theorem encodeString_of_not_encodable {value : Text} (hvalue : ¬ Encodable value) :
    ∃ message, encodeString value = .error (.fp2UnsupportedValue message) := by
  obtain ⟨message, herror⟩ := utf16SortKey_of_not_encodable hvalue
  exact ⟨message, by simp [encodeString, herror]⟩

theorem encodeScalar_of_supported (float : FloatRepr) {x : Atom}
    (hx : SupportedAtom x) :
    encodeScalar float x = .ok (some (atomText float x)) := by
  cases x with
  | none => rfl
  | bool b => cases b <;> rfl
  | int value =>
      have hle : ¬ maxSafeInteger < value.natAbs := not_lt.mpr hx
      simp [encodeScalar, encodeInt, hle, atomText, Except.map]
  | float value =>
      cases value with
      | finite negative value => rfl
      | nan => exact absurd hx (by simp [SupportedAtom])
      | infinity _ => exact absurd hx (by simp [SupportedAtom])
  | str value =>
      rw [encodeScalar, encodeString_of_encodable hx]
      rfl
  | foreign o => exact absurd hx (by simp [SupportedAtom])

/-- A scalar that is refused is refused by the module's own exception, or is no
JSON scalar at all. -/
theorem encodeScalar_of_not_supported (float : FloatRepr) {x : Atom}
    (hx : ¬ SupportedAtom x) :
    (∃ message, encodeScalar float x = .error (.fp2UnsupportedValue message)) ∨
      ∃ o, x = .foreign o := by
  cases x with
  | none => exact absurd trivial hx
  | bool b => exact absurd trivial hx
  | int value =>
      have hlt : maxSafeInteger < value.natAbs := not_le.mp hx
      exact Or.inl ⟨_, by rw [encodeScalar, encodeInt, if_pos hlt]; rfl⟩
  | float value =>
      cases value with
      | finite negative value => exact absurd trivial hx
      | nan => exact Or.inl ⟨_, rfl⟩
      | infinity _ => exact Or.inl ⟨_, rfl⟩
  | str value =>
      obtain ⟨message, herror⟩ := encodeString_of_not_encodable hx
      exact Or.inl ⟨message, by rw [encodeScalar, herror]; rfl⟩
  | foreign o => exact Or.inr ⟨o, rfl⟩

end TraigentSchema.Fp2
