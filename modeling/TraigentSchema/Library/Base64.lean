import TraigentSchema.Library.Unicode

/-!
# Base64

The standard alphabet with padding.  The encoder is the canonical one; the decoder
asks for whole groups of four characters and ignores the bits a last group leaves
over, as the usual decoders do, so that a caller who wants canonical texts encodes
again and compares.
-/

namespace TraigentSchema.Base64

open TraigentSchema.Unicode

/-- The character of six bits. -/
def base64Char (d : Fin 64) : CodePoint :=
  if d.val < 26 then ⟨65 + d.val, by omega⟩
  else if d.val < 52 then ⟨71 + d.val, by omega⟩
  else if d.val < 62 then ⟨d.val - 4, by omega⟩
  else if d.val = 62 then 43
  else 47

def base64Digit (c : CodePoint) : Option (Fin 64) :=
  if h : 65 ≤ c.val ∧ c.val ≤ 90 then some ⟨c.val - 65, by omega⟩
  else if h : 97 ≤ c.val ∧ c.val ≤ 122 then some ⟨c.val - 71, by omega⟩
  else if h : 48 ≤ c.val ∧ c.val ≤ 57 then some ⟨c.val + 4, by omega⟩
  else if c.val = 43 then some 62
  else if c.val = 47 then some 63
  else none

/-- `=`. -/
def padding : CodePoint := 61

@[simp]
theorem base64Digit_base64Char : ∀ d : Fin 64, base64Digit (base64Char d) = some d := by
  decide

@[simp]
theorem base64Char_ne_padding : ∀ d : Fin 64, base64Char d ≠ padding := by
  decide

/-- The top six bits of the first byte, and so on through the three bytes. -/
def firstDigit (a : Byte) : Fin 64 := ⟨a.val / 4, by omega⟩

def secondDigit (a b : Byte) : Fin 64 := ⟨a.val % 4 * 16 + b.val / 16, by omega⟩

def thirdDigit (b c : Byte) : Fin 64 := ⟨b.val % 16 * 4 + c.val / 64, by omega⟩

def fourthDigit (c : Byte) : Fin 64 := ⟨c.val % 64, by omega⟩

def b64encode : Bytes → Text
  | a :: b :: c :: rest =>
      base64Char (firstDigit a) :: base64Char (secondDigit a b) ::
        base64Char (thirdDigit b c) :: base64Char (fourthDigit c) :: b64encode rest
  | [a, b] =>
      [base64Char (firstDigit a), base64Char (secondDigit a b),
        base64Char (thirdDigit b 0), padding]
  | [a] => [base64Char (firstDigit a), base64Char (secondDigit a 0), padding, padding]
  | [] => []

def firstByte (p q : Fin 64) : Byte := ⟨p.val * 4 + q.val / 16, by omega⟩

def secondByte (q r : Fin 64) : Byte := ⟨q.val % 16 * 16 + r.val / 4, by omega⟩

def thirdByte (r s : Fin 64) : Byte := ⟨r.val % 4 * 64 + s.val, by omega⟩

def b64decode : Text → Option Bytes
  | [] => some []
  | x :: y :: z :: w :: rest => do
      let p ← base64Digit x
      let q ← base64Digit y
      if w = padding ∧ rest = [] then
        if z = padding then return [firstByte p q]
        else
          let r ← base64Digit z
          return [firstByte p q, secondByte q r]
      else
        let r ← base64Digit z
        let s ← base64Digit w
        let tail ← b64decode rest
        return firstByte p q :: secondByte q r :: thirdByte r s :: tail
  | _ => none

section Bytes

variable (a b c : Byte)

theorem firstByte_digits : firstByte (firstDigit a) (secondDigit a b) = a := by
  apply Fin.ext
  simp only [firstByte, firstDigit, secondDigit]
  omega

theorem secondByte_digits : secondByte (secondDigit a b) (thirdDigit b c) = b := by
  apply Fin.ext
  simp only [secondByte, secondDigit, thirdDigit]
  omega

theorem thirdByte_digits : thirdByte (thirdDigit b c) (fourthDigit c) = c := by
  apply Fin.ext
  simp only [thirdByte, thirdDigit, fourthDigit]
  omega

end Bytes

/-- What is encoded is decoded again. -/
@[simp]
theorem b64decode_b64encode (bytes : Bytes) : b64decode (b64encode bytes) = some bytes := by
  fun_induction b64encode bytes with
  | case1 a b c rest ih =>
      simp [b64decode, ih, firstByte_digits, secondByte_digits, thirdByte_digits]
  | case2 a b => simp [b64decode, firstByte_digits, secondByte_digits]
  | case3 a => simp [b64decode, firstByte_digits]
  | case4 => rfl

end TraigentSchema.Base64
