import TraigentSchema.Library.JsonNumber
import TraigentSchema.Library.Tree

/-!
# JSON texts

The grammar of RFC 8259 as a recursive reader of documents: literals, numbers as
they are written, strings with their escapes decoded, arrays and objects in the
order of the text, with the three constants some readers admit on top of it.
Compact writing, with any escaping that reads back, is undone by reading.
-/

namespace TraigentSchema.JsonText

open TraigentSchema.Unicode
open TraigentSchema.Decimal
open TraigentSchema.JsonNumber

abbrev quoteMark : CodePoint := 0x22
abbrev backslash : CodePoint := 0x5C
abbrev comma : CodePoint := 0x2C
abbrev colon : CodePoint := 0x3A
abbrev leftBracket : CodePoint := 0x5B
abbrev rightBracket : CodePoint := 0x5D
abbrev leftBrace : CodePoint := 0x7B
abbrev rightBrace : CodePoint := 0x7D

@[simp] theorem text_quoteMark : text "\"" = [quoteMark] := rfl
@[simp] theorem text_comma : text "," = [comma] := rfl
@[simp] theorem text_colon : text ":" = [colon] := rfl
@[simp] theorem text_leftBracket : text "[" = [leftBracket] := rfl
@[simp] theorem text_rightBracket : text "]" = [rightBracket] := rfl
@[simp] theorem text_leftBrace : text "\x7b" = [leftBrace] := rfl
@[simp] theorem text_rightBrace : text "\x7d" = [rightBrace] := rfl

/-- The names that are no JSON but that readers may know. -/
inductive Constant where
  | nan
  | infinity
  | negativeInfinity
  deriving DecidableEq, Repr

inductive Scalar where
  | null
  | bool (b : Bool)
  | constant (name : Constant)
  | number (literal : NumberLiteral)
  | string (s : Text)

/-- What a JSON text says: members in the order of the text, repeated keys
included. -/
abbrev Document := Tree Text Scalar

/-! ## Strings -/

def hexValue (c : CodePoint) : Option ℕ :=
  if 0x30 ≤ c.val ∧ c.val ≤ 0x39 then some (c.val - 0x30)
  else if 0x61 ≤ c.val ∧ c.val ≤ 0x66 then some (c.val - 0x57)
  else if 0x41 ≤ c.val ∧ c.val ≤ 0x46 then some (c.val - 0x37)
  else none

/-- Four hexadecimal digits. -/
def readHex4 : Text → Option (ℕ × Text)
  | a :: b :: c :: d :: rest => do
      let a ← hexValue a
      let b ← hexValue b
      let c ← hexValue c
      let d ← hexValue d
      return (0x1000 * a + 0x100 * b + 0x10 * c + d, rest)
  | _ => none

def codePointOf (n : ℕ) : CodePoint :=
  ⟨n % 0x110000, Nat.mod_lt _ (by norm_num)⟩

/-- What follows the escape of a high surrogate: the escape of a low one joins
it to one character. -/
def readLowSurrogate (high : ℕ) (rest : Text) : CodePoint × Text :=
  match rest with
  | a :: b :: hex =>
      if a = backslash ∧ b = codePoint 'u' then
        match readHex4 hex with
        | some (low, rest') =>
            if 0xDC00 ≤ low ∧ low ≤ 0xDFFF then
              (codePointOf (0x10000 + 0x400 * (high - 0xD800) + (low - 0xDC00)), rest')
            else (codePointOf high, rest)
        | none => (codePointOf high, rest)
      else (codePointOf high, rest)
  | _ => (codePointOf high, rest)

/-- The character of a two-character escape. -/
def simpleEscape (c : CodePoint) : Option CodePoint :=
  if c = quoteMark then some quoteMark
  else if c = backslash then some backslash
  else if c = codePoint '/' then some (codePoint '/')
  else if c = codePoint 'b' then some 0x08
  else if c = codePoint 'f' then some 0x0C
  else if c = codePoint 'n' then some 0x0A
  else if c = codePoint 'r' then some 0x0D
  else if c = codePoint 't' then some 0x09
  else none

/-- One character of a string, escaped or not. -/
def readCharacter : Text → Option (CodePoint × Text)
  | [] => none
  | c :: rest =>
      if c = quoteMark then none
      else if c = backslash then
        match rest with
        | [] => none
        | e :: rest =>
            if e = codePoint 'u' then do
              let (unit, rest) ← readHex4 rest
              if 0xD800 ≤ unit ∧ unit ≤ 0xDBFF then some (readLowSurrogate unit rest)
              else some (codePointOf unit, rest)
            else (simpleEscape e).map fun c => (c, rest)
      else if c.val < 0x20 then none
      else some (c, rest)

/-- The characters up to the closing quotation mark. -/
def readStringWithin : (fuel : ℕ) → Text → Option (Text × Text)
  | 0, _ => none
  | fuel + 1, s =>
      match s with
      | [] => none
      | c :: rest =>
          if c = quoteMark then some ([], rest)
          else do
            let (character, rest) ← readCharacter (c :: rest)
            let (characters, rest) ← readStringWithin fuel rest
            return (character :: characters, rest)

/-- The rest of a string whose opening quotation mark has been read. -/
def readString (s : Text) : Option (Text × Text) :=
  readStringWithin (s.length + 1) s

/-! ## Documents -/

def IsSpace (c : CodePoint) : Prop :=
  c = 0x20 ∨ c = 0x09 ∨ c = 0x0A ∨ c = 0x0D

instance (c : CodePoint) : Decidable (IsSpace c) :=
  inferInstanceAs (Decidable (_ ∨ _))

def skipSpace (s : Text) : Text :=
  s.dropWhile fun c => decide (IsSpace c)

/-- What follows the given character. -/
def expect (c : CodePoint) : Text → Option Text
  | [] => none
  | d :: rest => if d = c then some rest else none

def keywords : List (Text × Scalar) :=
  [(text "null", .null), (text "true", .bool true), (text "false", .bool false),
    (text "NaN", .constant .nan), (text "Infinity", .constant .infinity),
    (text "-Infinity", .constant .negativeInfinity)]

def readKeyword (s : Text) : Option (Scalar × Text) :=
  keywords.findSome? fun keyword =>
    if keyword.1.isPrefixOf s then some (keyword.2, s.drop keyword.1.length) else none

def readScalar (s : Text) : Option (Scalar × Text) :=
  (readKeyword s).or ((readNumber s).map fun read => (.number read.1, read.2))

/-- One or more elements with commas between them, and the character that closes
them. -/
def sequenceWithin {B : Type} (element : Text → Option (B × Text)) (close : CodePoint) :
    (fuel : ℕ) → Text → Option (List B × Text)
  | 0, _ => none
  | fuel + 1, s => do
      let (first, rest) ← element s
      match expect comma (skipSpace rest) with
      | some rest =>
          let (others, rest) ← sequenceWithin element close fuel (skipSpace rest)
          return (first :: others, rest)
      | none =>
          let rest ← expect close (skipSpace rest)
          return ([first], rest)

/-- The elements of a container whose opening character has been read. -/
def readElements {B : Type} (element : Text → Option (B × Text)) (close : CodePoint)
    (s : Text) : Option (List B × Text) :=
  match expect close (skipSpace s) with
  | some rest => some ([], rest)
  | none => sequenceWithin element close (s.length + 1) (skipSpace s)

def readMember {B : Type} (value : Text → Option (B × Text)) (s : Text) :
    Option ((Text × B) × Text) := do
  let (key, rest) ← readString (← expect quoteMark s)
  let rest ← expect colon (skipSpace rest)
  let (item, rest) ← value (skipSpace rest)
  return ((key, item), rest)

/-- One value at the front of a text, opening fewer than `fuel` nested
containers. -/
def parseValue : (fuel : ℕ) → Text → Option (Document × Text)
  | 0, _ => none
  | _ + 1, [] => none
  | fuel + 1, c :: rest =>
      if c = quoteMark then
        (readString rest).map fun read => (.leaf (.string read.1), read.2)
      else if c = leftBracket then
        (readElements (parseValue fuel) rightBracket rest).map fun read =>
          (.list read.1, read.2)
      else if c = leftBrace then
        (readElements (readMember (parseValue fuel)) rightBrace rest).map fun read =>
          (.dict read.1, read.2)
      else (readScalar (c :: rest)).map fun read => (.leaf read.1, read.2)

/-- The document of a whole text. -/
def parse (s : Text) : Option Document := do
  let (document, rest) ← parseValue (s.length + 1) (skipSpace s)
  if skipSpace rest = [] then some document else none

/-! ## Compact writing -/

def commaSeparated : List Text → Text
  | [] => []
  | first :: others => first ++ others.flatMap fun other => comma :: other

section Writing

variable (escape : CodePoint → Text)

def quote (s : Text) : Text :=
  quoteMark :: (s.flatMap escape ++ [quoteMark])

def Constant.text : Constant → Text
  | .nan => Unicode.text "NaN"
  | .infinity => Unicode.text "Infinity"
  | .negativeInfinity => Unicode.text "-Infinity"

def Scalar.text : Scalar → Text
  | .null => Unicode.text "null"
  | .bool true => Unicode.text "true"
  | .bool false => Unicode.text "false"
  | .constant name => name.text
  | .number literal => literal.text
  | .string s => quote escape s

def arrayText (items : List Text) : Text :=
  leftBracket :: (commaSeparated items ++ [rightBracket])

def memberText (member : Text × Text) : Text :=
  quote escape member.1 ++ colon :: member.2

def objectText (members : List (Text × Text)) : Text :=
  leftBrace :: (commaSeparated (members.map (memberText escape)) ++ [rightBrace])

/-- The text of a document without white space. -/
def compact : Document → Text :=
  Tree.fold (Scalar.text escape) arrayText (objectText escape)

/-! ## Writing with gaps -/

variable (gap : Text)

/-- Texts with a comma and a gap between them. -/
def separated : List Text → Text
  | [] => []
  | first :: others => first ++ others.flatMap fun other => comma :: (gap ++ other)

def spacedMember (member : Text × Text) : Text :=
  quote escape member.1 ++ colon :: (gap ++ member.2)

/-- The text of a document with a gap after each comma and each colon. -/
def spaced : Document → Text :=
  Tree.fold (Scalar.text escape)
    (fun items => leftBracket :: (separated gap items ++ [rightBracket]))
    (fun members => leftBrace ::
      (separated gap (members.map (spacedMember escape gap)) ++ [rightBrace]))

theorem separated_nil (texts : List Text) : separated [] texts = commaSeparated texts := by
  cases texts <;> rfl

/-- Compact writing is writing without gaps. -/
theorem spaced_nil : spaced escape [] = compact escape := by
  have hitems : (fun items => leftBracket :: (separated [] items ++ [rightBracket])) =
      arrayText := by
    funext items
    rw [separated_nil, arrayText]
  have hmembers : (fun members => leftBrace ::
      (separated [] (members.map (spacedMember escape [])) ++ [rightBrace])) =
        objectText escape := by
    funext members
    rw [separated_nil, objectText]
    rfl
  rw [spaced, compact, hitems, hmembers]

end Writing

/-! ## Reading what was written -/

/-- An escaping whose every character reads back. -/
def ReadsBack (escape : CodePoint → Text) : Prop :=
  ∀ c rest, readCharacter (escape c ++ rest) = some (c, rest)

/-- A string that reads back under an escaping. -/
def Readable (escape : CodePoint → Text) (s : Text) : Prop :=
  ∀ rest, readString (s.flatMap escape ++ quoteMark :: rest) = some (s, rest)

/-- A scalar that is no string or reads back as one. -/
def ReadableScalar (escape : CodePoint → Text) (x : Scalar) : Prop :=
  ∀ s, x = .string s → Readable escape s

/-- The characters of a string read back one after the other when each of them
reads back in front of the rest of the string. -/
theorem readStringWithin_append {escape : CodePoint → Text} {s rest : Text}
    (hread : ∀ c after, c :: after <:+ s →
      readCharacter (escape c ++ (after.flatMap escape ++ quoteMark :: rest)) =
        some (c, after.flatMap escape ++ quoteMark :: rest))
    {fuel : ℕ} (hfuel : s.length < fuel) :
    readStringWithin fuel (s.flatMap escape ++ quoteMark :: rest) = some (s, rest) := by
  induction s generalizing fuel with
  | nil =>
      cases fuel with
      | zero => exact absurd hfuel (Nat.not_lt_zero _)
      | succ fuel => simp [readStringWithin]
  | cons c s ih =>
      cases fuel with
      | zero => exact absurd hfuel (Nat.not_lt_zero _)
      | succ fuel =>
          have hfirst := hread c s (List.suffix_refl _)
          have hrest : readStringWithin fuel (s.flatMap escape ++ quoteMark :: rest) =
              some (s, rest) :=
            ih (fun d after hsuffix => hread d after (hsuffix.trans (List.suffix_cons _ _)))
              (by simpa using hfuel)
          rw [List.flatMap_cons, List.append_assoc]
          cases hescaped : escape c ++ (s.flatMap escape ++ quoteMark :: rest) with
          | nil => simp [hescaped, readCharacter] at hfirst
          | cons d tail =>
              rw [hescaped] at hfirst
              have hd : d ≠ quoteMark := by
                rintro rfl
                simp [readCharacter] at hfirst
              simp [readStringWithin, hd, hfirst, hrest]

/-- Escaping never shortens a text. -/
theorem length_le_flatMap {escape : CodePoint → Text} (hescape : ∀ c, escape c ≠ [])
    (s : Text) : s.length ≤ (s.flatMap escape).length := by
  induction s with
  | nil => simp
  | cons c s ih =>
      have hpos := List.length_pos_iff.mpr (hescape c)
      rw [List.flatMap_cons, List.length_append, List.length_cons]
      omega

theorem readable_of_readCharacter {escape : CodePoint → Text}
    (hescape : ∀ c, escape c ≠ []) {s : Text}
    (hread : ∀ c after rest, c :: after <:+ s →
      readCharacter (escape c ++ (after.flatMap escape ++ quoteMark :: rest)) =
        some (c, after.flatMap escape ++ quoteMark :: rest)) : Readable escape s := by
  intro rest
  apply readStringWithin_append fun c after => hread c after rest
  have := length_le_flatMap hescape s
  rw [List.length_append]
  omega

theorem escape_ne_nil {escape : CodePoint → Text} (hescape : ReadsBack escape)
    (c : CodePoint) : escape c ≠ [] := by
  intro hnil
  have hread := hescape c []
  simp [hnil, readCharacter] at hread

/-- A way of writing that is read back character by character is read back as a whole. -/
theorem ReadsBack.readable {escape : CodePoint → Text} (hescape : ReadsBack escape)
    (s : Text) : Readable escape s :=
  readable_of_readCharacter (escape_ne_nil hescape) fun c _ _ _ => hescape c _

theorem skipSpace_cons {c : CodePoint} (hc : ¬ IsSpace c) (rest : Text) :
    skipSpace (c :: rest) = c :: rest := by
  simp [skipSpace, hc]

@[simp]
theorem skipSpace_nil : skipSpace [] = [] := rfl

@[simp]
theorem expect_self (c : CodePoint) (rest : Text) : expect c (c :: rest) = some rest := by
  simp [expect]

theorem expect_of_ne {c d : CodePoint} (hne : d ≠ c) (rest : Text) :
    expect c (d :: rest) = none := by
  simp [expect, hne]

private theorem keyword_letters :
    ∀ keyword ∈ keywords, ∃ a b tail,
      keyword.1 = a :: b :: tail ∧ ¬ IsDigit a ∧ ¬ IsDigit b := by
  intro keyword hkeyword
  simp only [keywords, List.mem_cons, List.not_mem_nil, or_false] at hkeyword
  rcases hkeyword with rfl | rfl | rfl | rfl | rfl | rfl <;>
    exact ⟨_, _, _, rfl, by decide, by decide⟩

/-- A literal does not start like a keyword. -/
theorem readKeyword_number (literal : NumberLiteral) (rest : Text) :
    readKeyword (literal.text ++ rest) = none := by
  obtain ⟨d, integer, hinteger, hd⟩ := literal.exists_integer_head
  rw [readKeyword, List.findSome?_eq_none_iff]
  intro keyword hkeyword
  obtain ⟨a, b, tail, hsplit, ha, hb⟩ := keyword_letters keyword hkeyword
  have hfront : keyword.1.isPrefixOf (literal.text ++ rest) = false := by
    have hne : a ≠ d := fun h => ha (h ▸ hd)
    have hne' : b ≠ d := fun h => hb (h ▸ hd)
    rw [hsplit]
    cases hnegative : literal.negative <;>
      simp [NumberLiteral.text, hnegative, hinteger, List.isPrefixOf, hne, hne']
  simp [hfront]

theorem readKeyword_self {keyword : Text × Scalar} (hkeyword : keyword ∈ keywords)
    (rest : Text) : readKeyword (keyword.1 ++ rest) = some (keyword.2, rest) := by
  simp only [keywords, List.mem_cons, List.not_mem_nil, or_false] at hkeyword
  rcases hkeyword with rfl | rfl | rfl | rfl | rfl | rfl <;> rfl

/-- A scalar other than a string read back from its own text. -/
theorem readScalar_append (escape : CodePoint → Text) {x : Scalar}
    (hx : ∀ s, x ≠ .string s) {rest : Text} (hrest : EndsNumber rest) :
    readScalar (x.text escape ++ rest) = some (x, rest) := by
  have hkeyword : (x.text escape, x) ∈ keywords →
      readScalar (x.text escape ++ rest) = some (x, rest) := fun hmem => by
    rw [readScalar, readKeyword_self hmem]
    rfl
  cases x with
  | null => exact hkeyword (by simp [keywords, Scalar.text])
  | bool b => cases b <;> exact hkeyword (by simp [keywords, Scalar.text])
  | constant name =>
      cases name <;> exact hkeyword (by simp [keywords, Scalar.text, Constant.text])
  | string s => exact absurd rfl (hx s)
  | number literal =>
      rw [Scalar.text, readScalar, readKeyword_number, readNumber_append literal hrest]
      rfl

/-- The first character of a value's text is none of white space, a closing
bracket or a closing brace. -/
def StartsValue (c : CodePoint) : Prop :=
  ¬ IsSpace c ∧ c ≠ rightBracket ∧ c ≠ rightBrace

instance (c : CodePoint) : Decidable (StartsValue c) :=
  inferInstanceAs (Decidable (_ ∧ _))

/-- The first character of a scalar's text that is not a string. -/
def StartsScalar (c : CodePoint) : Prop :=
  StartsValue c ∧ c ≠ quoteMark ∧ c ≠ leftBracket ∧ c ≠ leftBrace

instance (c : CodePoint) : Decidable (StartsScalar c) :=
  inferInstanceAs (Decidable (_ ∧ _))

theorem startsScalar_of_isDigit {c : CodePoint} (hc : IsDigit c) : StartsScalar c := by
  obtain ⟨hlow, hhigh⟩ := hc
  simp only [StartsScalar, StartsValue, IsSpace, Fin.ext_iff, ne_eq]
  have h : ∀ n : ℕ, n < 48 ∨ 57 < n → ¬ c.val = n := by omega
  refine ⟨⟨?_, h _ (by decide), h _ (by decide)⟩, h _ (by decide), h _ (by decide),
    h _ (by decide)⟩
  rintro (h' | h' | h' | h') <;> exact h _ (by decide) h'

theorem scalar_text_head (escape : CodePoint → Text) {x : Scalar}
    (hx : ∀ s, x ≠ .string s) :
    ∃ c tail, x.text escape = c :: tail ∧ StartsScalar c := by
  cases x with
  | null => exact ⟨_, _, rfl, by decide⟩
  | bool b => cases b <;> exact ⟨_, _, rfl, by decide⟩
  | constant name => cases name <;> exact ⟨_, _, rfl, by decide⟩
  | string s => exact absurd rfl (hx s)
  | number literal =>
      obtain ⟨c, tail, htext, hc⟩ := literal.exists_text_head
      refine ⟨c, tail, htext, ?_⟩
      rcases hc with rfl | hc
      · decide
      · exact startsScalar_of_isDigit hc

theorem spaced_head (escape : CodePoint → Text) (gap : Text) (document : Document) :
    ∃ c tail, spaced escape gap document = c :: tail ∧ StartsValue c := by
  cases document with
  | list items => exact ⟨leftBracket, _, by simp [spaced]; rfl, by decide⟩
  | dict members => exact ⟨leftBrace, _, by simp [spaced]; rfl, by decide⟩
  | leaf x =>
      by_cases hstring : ∃ s, x = .string s
      · obtain ⟨s, rfl⟩ := hstring
        exact ⟨quoteMark, _, by simp [spaced, Scalar.text, quote]; rfl, by decide⟩
      · obtain ⟨c, tail, htext, hc⟩ :=
          scalar_text_head escape (not_exists.mp hstring)
        exact ⟨c, tail, by simpa [spaced] using htext, hc.1⟩

/-- No document starts with white space. -/
theorem skipSpace_spaced (escape : CodePoint → Text) (gap : Text) (document : Document)
    (rest : Text) :
    skipSpace (spaced escape gap document ++ rest) = spaced escape gap document ++ rest := by
  obtain ⟨c, tail, htext, hc⟩ := spaced_head escape gap document
  rw [htext, List.cons_append, skipSpace_cons hc.1]

/-- White space is skipped, and nothing else. -/
theorem skipSpace_append {gap : Text} (hgap : ∀ c ∈ gap, IsSpace c) (rest : Text) :
    skipSpace (gap ++ rest) = skipSpace rest := by
  rw [skipSpace, skipSpace, List.dropWhile_append_of_pos (by simpa using hgap)]

/-- A closing character or a comma ends a number. -/
theorem endsNumber_cons {c : CodePoint} (rest : Text)
    (hc : c = comma ∨ c = rightBracket ∨ c = rightBrace) : EndsNumber (c :: rest) := by
  intro d hd
  obtain rfl : c = d := by simpa using hd
  rcases hc with rfl | rfl | rfl <;> decide

section Sequences

variable {B : Type} {element : Text → Option (B × Text)} {write : B → Text}
  {close : CodePoint} {gap : Text} (hgap : ∀ c ∈ gap, IsSpace c)

include hgap

/-- Reading one or more written elements, given that each of them reads back. -/
theorem sequenceWithin_append {first : B} {others : List B}
    (hread : ∀ row ∈ first :: others, ∀ rest, EndsNumber rest →
      element (write row ++ rest) = some (row, rest))
    (hstart : ∀ row ∈ first :: others, ∀ rest,
      skipSpace (write row ++ rest) = write row ++ rest)
    (hclose : close = rightBracket ∨ close = rightBrace)
    {fuel : ℕ} (hfuel : others.length < fuel) (rest : Text) :
    sequenceWithin element close fuel
      (separated gap ((first :: others).map write) ++ close :: rest) =
        some (first :: others, rest) := by
  have hcomma : ∀ s, skipSpace (comma :: s) = comma :: s := skipSpace_cons (by decide)
  induction others generalizing first fuel with
  | nil =>
      cases fuel with
      | zero => exact absurd hfuel (Nat.not_lt_zero _)
      | succ fuel =>
          have hfirst := hread first (by simp) (close :: rest)
            (endsNumber_cons rest (Or.inr hclose))
          have hspace : skipSpace (close :: rest) = close :: rest :=
            skipSpace_cons (by rcases hclose with rfl | rfl <;> decide) rest
          have hne : close ≠ comma := by rcases hclose with rfl | rfl <;> decide
          simp [separated, sequenceWithin, hfirst, hspace, expect_of_ne hne]
  | cons second others ih =>
      cases fuel with
      | zero => exact absurd hfuel (Nat.not_lt_zero _)
      | succ fuel =>
          have hsplit : separated gap ((first :: second :: others).map write) ++
              close :: rest = write first ++ comma :: (gap ++
                (separated gap ((second :: others).map write) ++ close :: rest)) := by
            simp [separated]
          have hfirst := hread first (by simp) (comma :: (gap ++
            (separated gap ((second :: others).map write) ++ close :: rest)))
            (endsNumber_cons _ (Or.inl rfl))
          have hsecond : skipSpace (gap ++ (separated gap ((second :: others).map write) ++
              close :: rest)) =
                separated gap ((second :: others).map write) ++ close :: rest := by
            rw [skipSpace_append hgap, List.map_cons, separated, List.append_assoc]
            exact hstart second (by simp) _
          have hothers : sequenceWithin element close fuel
              (separated gap ((second :: others).map write) ++ close :: rest) =
                some (second :: others, rest) :=
            ih (fun row hrow => hread row (List.mem_cons_of_mem _ hrow))
              (fun row hrow => hstart row (List.mem_cons_of_mem _ hrow))
              (by simpa using hfuel)
          rw [hsplit, sequenceWithin, hfirst]
          simp only [Option.bind_eq_bind, Option.bind_some, hcomma, expect_self,
            hsecond, hothers, Option.pure_def]

omit hgap in
theorem length_le_separated (texts : List Text) :
    texts.length ≤ (separated gap texts).length + 1 := by
  cases texts with
  | nil => simp
  | cons first others =>
      induction others with
      | nil => simp [separated]
      | cons second others ih =>
          simp only [separated, List.flatMap_cons, List.length_append,
            List.length_cons] at ih ⊢
          omega

/-- A list is read back when each of its elements is, in front of whatever follows. -/
theorem readElements_append {rows : List B}
    (hread : ∀ row ∈ rows, ∀ rest, EndsNumber rest →
      element (write row ++ rest) = some (row, rest))
    (hstart : ∀ row ∈ rows, ∃ c tail, write row = c :: tail ∧ StartsValue c)
    (close : CodePoint) (hclose : close = rightBracket ∨ close = rightBrace)
    (rest : Text) :
    readElements element close (separated gap (rows.map write) ++ close :: rest) =
      some (rows, rest) := by
  have hspace : ∀ row ∈ rows, ∀ rest,
      skipSpace (write row ++ rest) = write row ++ rest := by
    intro row hrow rest
    obtain ⟨c, tail, htext, hc⟩ := hstart row hrow
    rw [htext, List.cons_append, skipSpace_cons hc.1]
  cases rows with
  | nil =>
      have hskip : skipSpace (close :: rest) = close :: rest :=
        skipSpace_cons (by rcases hclose with rfl | rfl <;> decide) rest
      simp [readElements, separated, hskip]
  | cons first others =>
      have hskip : skipSpace (separated gap ((first :: others).map write) ++
          close :: rest) =
            separated gap ((first :: others).map write) ++ close :: rest := by
        rw [List.map_cons, separated, List.append_assoc]
        exact hspace first (by simp) _
      have hopen : expect close (separated gap ((first :: others).map write) ++
          close :: rest) = none := by
        obtain ⟨c, tail, htext, hc⟩ := hstart first (by simp)
        rw [List.map_cons, separated, htext]
        apply expect_of_ne
        rcases hclose with rfl | rfl
        · exact hc.2.1
        · exact hc.2.2
      have hlength : ((first :: others).map write).length ≤
          (separated gap ((first :: others).map write)).length + 1 :=
        length_le_separated ((first :: others).map write)
      rw [readElements, hskip, hopen]
      apply sequenceWithin_append hgap hread hspace hclose
      rw [List.length_map, List.length_cons] at hlength
      rw [List.length_append, List.length_cons]
      omega

end Sequences

section Lengths

variable (escape : CodePoint → Text) (gap : Text)

theorem spacedMember_head (member : Text × Text) :
    ∃ c tail, spacedMember escape gap member = c :: tail ∧ StartsValue c :=
  ⟨quoteMark, member.1.flatMap escape ++ [quoteMark] ++ colon :: (gap ++ member.2),
    by simp [spacedMember, quote], by decide⟩

theorem length_le_spacedMember (key value : Text) :
    value.length ≤ (spacedMember escape gap (key, value)).length := by
  simp only [spacedMember, List.length_append, List.length_cons]
  omega

theorem length_le_of_mem_separated {texts : List Text} {s : Text}
    (hs : s ∈ texts) : s.length ≤ (separated gap texts).length := by
  cases texts with
  | nil => cases hs
  | cons first others =>
      simp only [separated, List.length_append]
      rcases List.mem_cons.mp hs with rfl | hs
      · omega
      · have hsub : (comma :: (gap ++ s)).length ≤
            (others.flatMap fun other => comma :: (gap ++ other)).length := by
          obtain ⟨before, after, rfl⟩ := List.append_of_mem hs
          simp
          omega
        rw [List.length_cons, List.length_append] at hsub
        omega

end Lengths

section RoundTrip

variable {escape : CodePoint → Text} {gap : Text} (hgap : ∀ c ∈ gap, IsSpace c)

include hgap

/-- A member is read back when its key and its value are. -/
theorem readMember_append {B : Type} {value : Text → Option (B × Text)} {write : B → Text}
    {member : Text × B} (hkey : Readable escape member.1) {rest : Text}
    (hread : value (write member.2 ++ rest) = some (member.2, rest))
    (hstart : ∃ c tail, write member.2 = c :: tail ∧ StartsValue c) :
    readMember value (spacedMember escape gap (member.1, write member.2) ++ rest) =
      some (member, rest) := by
  obtain ⟨c, tail, htext, hc⟩ := hstart
  have hcolon : ∀ s, skipSpace (colon :: s) = colon :: s := skipSpace_cons (by decide)
  have hspace : skipSpace (gap ++ (write member.2 ++ rest)) = write member.2 ++ rest := by
    rw [skipSpace_append hgap, htext, List.cons_append, skipSpace_cons hc.1]
  have hname := hkey (colon :: (gap ++ (write member.2 ++ rest)))
  simp [readMember, spacedMember, quote, hname, hcolon, hspace, hread]

/-- A document whose strings read back is read back from its text. -/
theorem parseValue_append {document : Document}
    (hreadable : document.Admits (ReadableScalar escape) (Readable escape)) (fuel : ℕ)
    (hfuel : (spaced escape gap document).length ≤ fuel) {rest : Text}
    (hrest : EndsNumber rest) :
    parseValue fuel (spaced escape gap document ++ rest) = some (document, rest) := by
  obtain ⟨c, tail, htext, -⟩ := spaced_head escape gap document
  obtain ⟨fuel, rfl⟩ : ∃ n, fuel = n + 1 :=
    Nat.exists_eq_succ_of_ne_zero (by rw [htext, List.length_cons] at hfuel; omega)
  induction document using Tree.induct generalizing fuel rest c tail with
  | leaf x =>
      by_cases hstring : ∃ s, x = .string s
      · obtain ⟨s, rfl⟩ := hstring
        have hread := (Tree.admits_leaf _).mp hreadable s rfl rest
        simp [spaced, Scalar.text, quote, parseValue, hread]
      · have hread := readScalar_append escape (not_exists.mp hstring) hrest
        obtain ⟨d, tail, hscalar, hd⟩ := scalar_text_head escape (not_exists.mp hstring)
        rw [hscalar, List.cons_append] at hread
        simp [spaced, hscalar, parseValue, hd.2.1, hd.2.2.1, hd.2.2.2, hread]
  | list items ih =>
      have hspaced : spaced escape gap (.list items) =
          leftBracket :: (separated gap (items.map (spaced escape gap)) ++
            [rightBracket]) := by
        simp [spaced]
      have hitems : ∀ item ∈ items, ∀ rest, EndsNumber rest →
          parseValue fuel (spaced escape gap item ++ rest) = some (item, rest) := by
        intro item hitem rest hrest
        have hlength := length_le_of_mem_separated gap
          (List.mem_map_of_mem (f := spaced escape gap) hitem)
        have hbound : (spaced escape gap item).length ≤ fuel := by
          rw [hspaced, List.length_cons, List.length_append] at hfuel
          simp only [List.length_singleton] at hfuel
          omega
        obtain ⟨d, others, hhead, -⟩ := spaced_head escape gap item
        obtain ⟨n, rfl⟩ : ∃ n, fuel = n + 1 := Nat.exists_eq_succ_of_ne_zero (by
          rw [hhead, List.length_cons] at hbound
          omega)
        exact ih item hitem ((Tree.admits_list _).mp hreadable item hitem) hrest d others
          hhead n hbound
      have hread := readElements_append hgap hitems
        (fun item _ => spaced_head escape gap item) rightBracket (Or.inl rfl) rest
      rw [hspaced]
      simp [parseValue, (by decide : leftBracket ≠ quoteMark), hread]
  | dict members ih =>
      have hspaced : spaced escape gap (.dict members) =
          leftBrace :: (separated gap (members.map fun member =>
            spacedMember escape gap (member.1, spaced escape gap member.2)) ++
              [rightBrace]) := by
        simp [spaced, Function.comp_def]
      have hmembers : ∀ member ∈ members, ∀ rest, EndsNumber rest →
          readMember (parseValue fuel)
            (spacedMember escape gap (member.1, spaced escape gap member.2) ++ rest) =
              some (member, rest) := by
        intro member hmember rest hrest
        have hlength := length_le_of_mem_separated gap (List.mem_map.mpr
          ⟨member, hmember, rfl⟩ :
            spacedMember escape gap (member.1, spaced escape gap member.2) ∈
              members.map fun member =>
                spacedMember escape gap (member.1, spaced escape gap member.2))
        have hbound : (spaced escape gap member.2).length ≤ fuel := by
          rw [hspaced, List.length_cons, List.length_append] at hfuel
          have hvalue := length_le_spacedMember escape gap member.1
            (spaced escape gap member.2)
          simp only [List.length_singleton] at hfuel
          omega
        obtain ⟨d, others, hhead, -⟩ := spaced_head escape gap member.2
        obtain ⟨n, rfl⟩ : ∃ n, fuel = n + 1 := Nat.exists_eq_succ_of_ne_zero (by
          rw [hhead, List.length_cons] at hbound
          omega)
        obtain ⟨hkey, hvalue⟩ := (Tree.admits_dict _).mp hreadable member hmember
        exact readMember_append hgap hkey
          (ih member hmember hvalue hrest d others hhead n hbound)
          (spaced_head escape gap member.2)
      have hread := readElements_append hgap hmembers
        (fun member _ => spacedMember_head escape gap _) rightBrace (Or.inr rfl) rest
      rw [hspaced]
      simp [parseValue, (by decide : leftBrace ≠ quoteMark),
        (by decide : leftBrace ≠ leftBracket), hread]

/-- A document is read back from its text with any white space between the tokens. -/
theorem parse_spaced {document : Document}
    (hreadable : document.Admits (ReadableScalar escape) (Readable escape)) :
    parse (spaced escape gap document) = some document := by
  have hread := parseValue_append hgap hreadable
    ((spaced escape gap document).length + 1) (Nat.le_succ _) endsNumber_nil
  have hspace := skipSpace_spaced escape gap document []
  rw [List.append_nil] at hread hspace
  simp [parse, hspace, hread]

end RoundTrip

/-- A document is read back from its compact text. -/
theorem parse_compact {escape : CodePoint → Text} (hescape : ReadsBack escape)
    (document : Document) : parse (compact escape document) = some document := by
  rw [← spaced_nil]
  exact parse_spaced (by simp) (Tree.admits_of_forall (fun _ s _ => hescape.readable s)
    hescape.readable document)

end TraigentSchema.JsonText
