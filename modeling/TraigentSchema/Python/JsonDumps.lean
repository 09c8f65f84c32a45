import TraigentSchema.Fp2.Injective

/-!
# `json.dumps` with sorted keys

The interpreter's default text of a parsed JSON value: a blank after each comma
and each colon, everything outside printable ASCII escaped, floats written by
`repr` and the members of a dict in the order of their keys.  Two parsed values
with one text are one JSON value.
-/

namespace TraigentSchema.Python

open TraigentSchema.Unicode
open TraigentSchema.Binary64
open TraigentSchema.Decimal
open TraigentSchema.Fp2
open TraigentSchema.JsonNumber
open TraigentSchema.JsonReading
open TraigentSchema.JsonText hiding memberText objectText
open TraigentSchema.SortedBy

/-! ## Strings -/

def IsHigh (c : CodePoint) : Prop :=
  0xD800 ≤ c.val ∧ c.val ≤ 0xDBFF

def IsLow (c : CodePoint) : Prop :=
  0xDC00 ≤ c.val ∧ c.val ≤ 0xDFFF

/-- No high surrogate stands in front of a low one.  A parser of JSON joins the
two, so every parsed string is of this kind. -/
def Joined (s : Text) : Prop :=
  s.IsChain fun c d => ¬ (IsHigh c ∧ IsLow d)

/-- The escape of one UTF-16 code unit. -/
def unitEscape (n : ℕ) : Text :=
  text "\\u" ++ hexText4 n

/-- The text of a character under `ensure_ascii`. -/
def asciiEscape (c : CodePoint) : Text :=
  match escapes c with
  | some escape => escape
  | none =>
      if 0x20 ≤ c.val ∧ c.val ≤ 0x7E then [c]
      else if c.val < 0x10000 then unitEscape c.val
      else unitEscape (0xD800 + (c.val - 0x10000) / 0x400) ++
        unitEscape (0xDC00 + (c.val - 0x10000) % 0x400)

theorem asciiEscape_ne_nil (c : CodePoint) : asciiEscape c ≠ [] := by
  unfold asciiEscape
  cases hescape : escapes c with
  | some escape =>
      unfold escapes at hescape
      split_ifs at hescape <;>
        simp [← Option.some.inj hescape, text]
  | none =>
      dsimp only
      split_ifs <;> simp [unitEscape, text]

theorem unitEscape_append (n : ℕ) (rest : Text) :
    unitEscape n ++ rest = backslash :: codePoint 'u' :: (hexText4 n ++ rest) := rfl

/-- A high surrogate is read alone when no escaped low one follows. -/
theorem readLowSurrogate_alone {high : ℕ} {rest : Text}
    (hrest : ∀ low tail after, rest = backslash :: codePoint 'u' :: tail →
      readHex4 tail = some (low, after) → ¬ (0xDC00 ≤ low ∧ low ≤ 0xDFFF)) :
    readLowSurrogate high rest = (codePointOf high, rest) := by
  unfold readLowSurrogate
  split
  · rename_i a b tail
    split_ifs with hescape
    · obtain ⟨rfl, rfl⟩ := hescape
      split
      · rename_i low after hlow
        rw [if_neg (hrest low tail after rfl hlow)]
      · rfl
    · rfl
  · rfl

/-- The escape of a character that is no low surrogate is not mistaken for one. -/
theorem not_low_of_asciiEscape {d : CodePoint} (hd : ¬ IsLow d) {low : ℕ}
    {tail rest after : Text}
    (hescape : asciiEscape d ++ rest = backslash :: codePoint 'u' :: tail)
    (hread : readHex4 tail = some (low, after)) : ¬ (0xDC00 ≤ low ∧ low ≤ 0xDFFF) := by
  unfold asciiEscape at hescape
  cases hnamed : escapes d with
  | some escape =>
      rw [hnamed] at hescape
      have hletter : ∀ literal : Text, literal = escape → literal[1]? ≠ some (codePoint 'u') →
          literal.length = 2 → False := by
        rintro literal rfl hne hlength
        obtain ⟨a, b, rfl⟩ := List.length_eq_two.mp hlength
        simp_all
      unfold escapes at hnamed
      split_ifs at hnamed <;>
        exact (hletter _ (Option.some.inj hnamed) (by decide) rfl).elim
  | none =>
      rw [hnamed] at hescape
      dsimp only at hescape
      split_ifs at hescape with hprintable hunit
      · have hback : d = backslash := by simpa using congrArg List.head? hescape
        subst hback
        exact absurd escapes_backslash (by simp [hnamed])
      · rw [unitEscape_append] at hescape
        obtain rfl : hexText4 d.val ++ rest = tail := by simpa using hescape
        rw [readHex4_hexText4 hunit] at hread
        obtain ⟨rfl, -⟩ := by simpa using hread
        exact hd
      · rw [List.append_assoc, unitEscape_append] at hescape
        have hlt := d.isLt
        have hhigh : 0xD800 + (d.val - 0x10000) / 0x400 < 0x10000 := by omega
        obtain rfl := (by simpa using hescape :
          hexText4 (0xD800 + (d.val - 0x10000) / 0x400) ++
            (unitEscape (0xDC00 + (d.val - 0x10000) % 0x400) ++ rest) = tail)
        rw [readHex4_hexText4 hhigh] at hread
        obtain ⟨rfl, -⟩ := by simpa using hread
        omega

theorem readCharacter_unitEscape {n : ℕ} (hn : n < 0x10000) (rest : Text) :
    readCharacter (unitEscape n ++ rest) =
      if 0xD800 ≤ n ∧ n ≤ 0xDBFF then some (readLowSurrogate n rest)
      else some (codePointOf n, rest) := by
  rw [unitEscape_append]
  simp [readCharacter, (by decide : backslash ≠ quoteMark), readHex4_hexText4 hn]

/-- The two escapes of a character beyond the basic plane read back as one. -/
theorem readLowSurrogate_joined {n : ℕ} (hlow : 0x10000 ≤ n) (hhigh : n < 0x110000)
    (rest : Text) :
    readLowSurrogate (0xD800 + (n - 0x10000) / 0x400)
      (unitEscape (0xDC00 + (n - 0x10000) % 0x400) ++ rest) = (codePointOf n, rest) := by
  have hunit : 0xDC00 + (n - 0x10000) % 0x400 < 0x10000 := by omega
  have hrange : 0xDC00 ≤ 0xDC00 + (n - 0x10000) % 0x400 ∧
      0xDC00 + (n - 0x10000) % 0x400 ≤ 0xDFFF := by omega
  have hsum : 0x10000 + 0x400 * (0xD800 + (n - 0x10000) / 0x400 - 0xD800) +
      (0xDC00 + (n - 0x10000) % 0x400 - 0xDC00) = n := by omega
  rw [unitEscape_append]
  simp only [readLowSurrogate, and_self, if_true, readHex4_hexText4 hunit, if_pos hrange,
    hsum]

theorem codePointOf_val (c : CodePoint) : codePointOf c.val = c :=
  Fin.ext (Nat.mod_eq_of_lt c.isLt)

/-- A character reads back in front of anything but an escaped low surrogate it
could be joined with. -/
theorem readCharacter_asciiEscape (c : CodePoint) (rest : Text)
    (hrest : IsHigh c → ∀ low tail after, rest = backslash :: codePoint 'u' :: tail →
      readHex4 tail = some (low, after) → ¬ (0xDC00 ≤ low ∧ low ≤ 0xDFFF)) :
    readCharacter (asciiEscape c ++ rest) = some (c, rest) := by
  unfold asciiEscape
  cases hescape : escapes c with
  | some escape => exact readCharacter_escapes hescape rest
  | none =>
      have hquote : c ≠ quoteMark := by
        rintro rfl
        simpa [hescape] using escapes_quoteMark
      have hbackslash : c ≠ backslash := by
        rintro rfl
        simpa [hescape] using escapes_backslash
      dsimp only
      split_ifs with hprintable hunit
      · have hcontrol : ¬ c.val < 0x20 := by omega
        simp [readCharacter, hquote, hbackslash, hcontrol]
      · rw [readCharacter_unitEscape hunit]
        split_ifs with hhigh
        · rw [readLowSurrogate_alone (hrest hhigh), codePointOf_val]
        · rw [codePointOf_val]
      · have hlt := c.isLt
        rw [List.append_assoc, readCharacter_unitEscape (by omega), if_pos (by omega),
          readLowSurrogate_joined (by omega) hlt, codePointOf_val]

theorem readable_asciiEscape {s : Text} (hs : Joined s) : Readable asciiEscape s := by
  apply readable_of_readCharacter asciiEscape_ne_nil
  rintro c after rest hsuffix
  apply readCharacter_asciiEscape
  intro hhigh low tail followed heq hread
  have hchain : (c :: after).IsChain fun c d => ¬ (IsHigh c ∧ IsLow d) :=
    List.IsChain.suffix hs hsuffix
  cases after with
  | nil => cases heq
  | cons d after =>
      have hlow : ¬ IsLow d := fun hlow =>
        (List.isChain_cons_cons.mp hchain).1 ⟨hhigh, hlow⟩
      rw [List.flatMap_cons, List.append_assoc] at heq
      exact not_low_of_asciiEscape hlow heq hread

/-! ## Values -/

/-- An interpreter whose `repr` of a float has no superfluous leading zeros, so
that it is a JSON number. -/
structure JsonRepr extends FloatRepr where
  lead : ∀ m, NoLeadingZero (repr m).integerPart

/-- The interpreter that writes each double with the fewest digits. -/
noncomputable def JsonRepr.fewestDigits : JsonRepr where
  toFloatRepr := FloatRepr.fewestDigits
  lead _ := noLeadingZero_decimalText _

/-- The exponent of a `repr` numeral as JSON has it. -/
def ReprExponent.literal (e : ReprExponent) : JsonNumber.Exponent where
  upperCase := false
  sign := some e.negative
  digits := e.digits
  digits_digits := e.digits_digits
  digits_ne_nil := e.digits_ne_nil

def JsonRepr.literal (float : JsonRepr) (negative : Bool) (m : Magnitude) :
    NumberLiteral where
  negative := negative
  integer := (float.repr m).integerPart
  fraction := (float.repr m).fraction
  exponent := (float.repr m).exponent.map ReprExponent.literal
  integer_digits := (float.repr m).integer_digits
  integer_lead := float.lead m
  fraction_digits := (float.repr m).fraction_digits

/-- The scalar `json.dumps` writes. -/
def dumpedScalar (float : JsonRepr) : Atom → Scalar
  | .none => .null
  | .bool b => .bool b
  | .int value => .number (integerLiteral value)
  | .float .nan => .constant .nan
  | .float (.infinity negative) =>
      .constant (if negative then .negativeInfinity else .infinity)
  | .float (.finite negative m) => .number (float.literal negative m)
  | .str s => .string s
  | .foreign _ => .null

/-- The document `json.dumps(v, sort_keys=True)` writes. -/
def dumpedDocument (float : JsonRepr) : PyValue → Document :=
  Tree.fold (fun x => .leaf (dumpedScalar float x)) .list
    (fun members => .dict ((sortedBy (fun member => keyText member.1) members).map
      fun member => (keyText member.1, member.2)))

@[simp]
theorem text_blank : text " " = [0x20] := rfl

/-- `json.dumps(v, sort_keys=True)`. -/
def jsonDumps (float : JsonRepr) (v : PyValue) : Text :=
  spaced asciiEscape (text " ") (dumpedDocument float v)

/-- The leaves of a parsed JSON value with finite numbers. -/
def LoadedAtom : Atom → Prop
  | .float (.finite _ _) => True
  | .float _ => False
  | .str s => Joined s
  | .foreign _ => False
  | _ => True

def LoadedKey : Key → Prop
  | .str s => Joined s
  | .foreign _ => False

theorem loadedKey_injOn {left right : Key} (hleft : LoadedKey left)
    (hright : LoadedKey right) (heq : keyText left = keyText right) : left = right := by
  cases left with
  | foreign o => exact hleft.elim
  | str s =>
      cases right with
      | foreign o => exact hright.elim
      | str t => exact congrArg Key.str heq

/-- A value `json.loads` gives for a JSON text whose numbers are finite. -/
structure Loaded (v : PyValue) : Prop where
  admits : v.Admits LoadedAtom LoadedKey
  wellFormed : v.WellFormed

/-! ## One text, one value -/

section

variable (float : JsonRepr)

@[simp]
theorem dumpedDocument_leaf (x : Atom) :
    dumpedDocument float (.leaf x) = .leaf (dumpedScalar float x) := by
  simp [dumpedDocument]

@[simp]
theorem dumpedDocument_list (items : List PyValue) :
    dumpedDocument float (.list items) = .list (items.map (dumpedDocument float)) := by
  simp [dumpedDocument]

theorem dumpedDocument_dict (members : List (Key × PyValue)) :
    dumpedDocument float (.dict members) =
      .dict ((sortedBy (fun member => keyText member.1) members).map fun member =>
        (keyText member.1, dumpedDocument float member.2)) := by
  have horder := map_sortedBy (fun member : Key × PyValue => keyText member.1)
    (fun member : Key × Document => keyText member.1)
    (fun member => (member.1, dumpedDocument float member.2)) members (by simp)
  rw [dumpedDocument, Tree.fold_dict, ← dumpedDocument, ← horder, List.map_map]
  rfl

theorem readable_dumpedDocument {v : PyValue} (hv : v.Admits LoadedAtom LoadedKey) :
    (dumpedDocument float v).Admits (ReadableScalar asciiEscape) (Readable asciiEscape) := by
  induction v using Tree.induct with
  | leaf x =>
      rw [dumpedDocument_leaf, Tree.admits_leaf]
      rw [Tree.admits_leaf] at hv
      intro s hs
      cases x with
      | str t =>
          obtain rfl : t = s := by simpa [dumpedScalar] using hs
          exact readable_asciiEscape hv
      | float x =>
          cases x <;> simp [dumpedScalar] at hs
      | _ => simp [dumpedScalar] at hs
  | list items ih =>
      rw [Tree.admits_list] at hv
      rw [dumpedDocument_list, Tree.admits_list, List.forall_mem_map]
      exact fun item hitem => ih item hitem (hv item hitem)
  | dict members ih =>
      rw [Tree.admits_dict] at hv
      rw [dumpedDocument_dict, Tree.admits_dict, List.forall_mem_map]
      intro member hmember
      obtain ⟨hkey, hvalue⟩ := hv member (mem_sortedBy.mp hmember)
      refine ⟨?_, ih member (mem_sortedBy.mp hmember) hvalue⟩
      cases hname : member.1 with
      | str s =>
          rw [hname] at hkey
          exact readable_asciiEscape hkey
      | foreign o =>
          rw [hname] at hkey
          exact hkey.elim

end

/-- The number a literal is loaded as: an integer exactly, anything else as the
nearest double. -/
def loadedNumber (literal : NumberLiteral) : ℚ :=
  if literal.fraction = [] ∧ literal.exponent.isNone then literal.value
  else ((nearest literal.magnitude).map (floatValue literal.negative)).getD 0

def loadedScalar : Scalar → JsonValue
  | .null => .null
  | .bool b => .bool b
  | .constant _ => .null
  | .number literal => .num (loadedNumber literal)
  | .string s => .str s

def loadedValue : Document → JsonValue :=
  Tree.fold loadedScalar .arr objectValue

theorem loadedNumber_integerLiteral (value : ℤ) :
    loadedNumber (integerLiteral value) = value := by
  have hinteger : (integerLiteral value).fraction = [] ∧
      (integerLiteral value).exponent.isNone := ⟨rfl, rfl⟩
  rw [loadedNumber, if_pos hinteger, NumberLiteral.value, integerLiteral_magnitude]
  by_cases hneg : value < 0
  · simp [integerLiteral, hneg, Nat.cast_natAbs, abs_of_neg]
  · simp [integerLiteral, hneg, Nat.cast_natAbs, abs_of_nonneg (not_lt.mp hneg)]

theorem JsonRepr.literal_magnitude (float : JsonRepr) (negative : Bool) (m : Magnitude) :
    (float.literal negative m).magnitude = (float.repr m).value := by
  have hexponent : (float.literal negative m).exponentValue =
      (float.repr m).exponentValue := by
    simp only [NumberLiteral.exponentValue, ReprText.exponentValue, literal]
    cases (float.repr m).exponent with
    | none => rfl
    | some e =>
        simp [ReprExponent.literal, JsonNumber.Exponent.value, ReprExponent.value]
  rw [NumberLiteral.magnitude, ReprText.value, hexponent]
  rfl

theorem loadedNumber_literal (float : JsonRepr) (negative : Bool) (m : Magnitude) :
    loadedNumber (float.literal negative m) = floatValue negative m := by
  have hmarked : ¬ ((float.literal negative m).fraction = [] ∧
      (float.literal negative m).exponent.isNone) := by
    rintro ⟨hfraction, hexponent⟩
    rcases (float.repr m).marked with h | h
    · exact h hfraction
    · exact h (by simpa [JsonRepr.literal] using hexponent)
  rw [loadedNumber, if_neg hmarked, float.literal_magnitude, float.rounds]
  rfl

theorem loadedValue_dumpedDocument (float : JsonRepr) {v : PyValue} (hv : Loaded v) :
    loadedValue (dumpedDocument float v) = jsonValue v := by
  obtain ⟨hadmits, hformed⟩ := hv
  induction v using Tree.induct with
  | leaf x =>
      rw [Tree.admits_leaf] at hadmits
      rw [dumpedDocument_leaf, loadedValue, Tree.fold_leaf, jsonValue_leaf]
      cases x with
      | int value => exact congrArg JsonValue.num (loadedNumber_integerLiteral value)
      | float x =>
          cases x with
          | finite negative m => exact congrArg JsonValue.num (loadedNumber_literal float _ m)
          | nan => exact hadmits.elim
          | infinity negative => exact hadmits.elim
      | foreign o => exact hadmits.elim
      | _ => rfl
  | list items ih =>
      rw [Tree.admits_list] at hadmits
      rw [Tree.wellFormed_list] at hformed
      rw [dumpedDocument_list, loadedValue, Tree.fold_list, ← loadedValue, jsonValue_list,
        List.map_map]
      exact congrArg JsonValue.arr (List.map_congr_left fun item hitem =>
        ih item hitem (hadmits item hitem) (hformed item hitem))
  | dict members ih =>
      rw [Tree.admits_dict] at hadmits
      rw [Tree.wellFormed_dict] at hformed
      have hmembers : (sortedBy (fun member => keyText member.1) members).map
          (fun member => (keyText member.1, loadedValue (dumpedDocument float member.2))) =
            jsonMembers (sortedBy (fun member => keyText member.1) members) :=
        List.map_congr_left fun member hmember => by
          have hmem := mem_sortedBy.mp hmember
          rw [ih member hmem (hadmits member hmem).2 (hformed.2 member hmem)]
      have hnames : ((jsonMembers members).map Prod.fst).Nodup := by
        have hmap : (jsonMembers members).map Prod.fst =
            (members.map Prod.fst).map keyText := by
          simp [jsonMembers]
        rw [hmap]
        refine hformed.1.map_on fun left hleft right hright heq => ?_
        obtain ⟨member, hmember, rfl⟩ := List.mem_map.mp hleft
        obtain ⟨member', hmember', rfl⟩ := List.mem_map.mp hright
        exact loadedKey_injOn (hadmits member hmember).1 (hadmits member' hmember').1 heq
      rw [dumpedDocument_dict, loadedValue, Tree.fold_dict, ← loadedValue, List.map_map,
        jsonValue_dict]
      calc
        _ = objectValue (jsonMembers (sortedBy (fun member => keyText member.1) members)) :=
          congrArg objectValue hmembers
        _ = objectValue (jsonMembers members) :=
          (objectValue_eq_of_perm hnames ((sortedBy_perm _ members).symm.map _)).symm

/-- Parsed values with one text are one JSON value. -/
theorem jsonValue_eq_of_jsonDumps_eq (float : JsonRepr) {v w : PyValue} (hv : Loaded v)
    (hw : Loaded w) (htext : jsonDumps float v = jsonDumps float w) :
    jsonValue v = jsonValue w := by
  have hgap : ∀ c ∈ text " ", IsSpace c := by
    intro c hc
    obtain rfl : c = 0x20 := by simpa using hc
    exact Or.inl rfl
  have hdocument : some (dumpedDocument float v) = some (dumpedDocument float w) := by
    rw [← parse_spaced hgap (readable_dumpedDocument float hv.admits),
      ← parse_spaced hgap (readable_dumpedDocument float hw.admits)]
    exact congrArg parse htext
  rw [← loadedValue_dumpedDocument float hv, ← loadedValue_dumpedDocument float hw,
    Option.some.inj hdocument]

end TraigentSchema.Python
