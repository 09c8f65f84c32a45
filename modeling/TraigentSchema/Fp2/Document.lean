import TraigentSchema.Fp2.Canonical
import TraigentSchema.Fp2.NumberText

/-!
# The canonical text as a JSON document

Every canonical text is the compact text of a JSON document, so the JSON grammar
reads it back: escapes, the order of members, separators and the number layouts
all survive the round trip.
-/

namespace TraigentSchema.Fp2

open TraigentSchema.Unicode
open TraigentSchema.Binary64
open TraigentSchema.Decimal
open TraigentSchema.Hashing (hexDigit)
open TraigentSchema.JsonNumber
open TraigentSchema.JsonText hiding memberText objectText
open TraigentSchema.Python
open TraigentSchema.SortedBy

/-! ## Strings -/

theorem hexValue_hexDigit {d : ℕ} (hd : d < 16) : hexValue (hexDigit d) = some d := by
  interval_cases d <;> rfl

/-- Four hex digits are read back as the number they were written for. -/
theorem readHex4_hexText4 {n : ℕ} (hn : n < 0x10000) (rest : Text) :
    readHex4 (hexText4 n ++ rest) = some (n, rest) := by
  have hdigit : ∀ k, hexValue (hexDigit (k % 16)) = some (k % 16) := fun k =>
    hexValue_hexDigit (Nat.mod_lt _ (by norm_num))
  simp only [hexText4, List.cons_append, List.nil_append, readHex4, hdigit,
    Option.bind_eq_bind, Option.bind_some, Option.pure_def, Option.some.injEq,
    Prod.mk.injEq, and_true]
  omega

/-- An escape is read back as the character it stands for. -/
theorem readCharacter_escapes {c : CodePoint} {escape : Text}
    (hescape : escapes c = some escape) (rest : Text) :
    readCharacter (escape ++ rest) = some (c, rest) := by
  have hpoint : ∀ {n : ℕ} (h : n < 0x110000), c.val = n → c = ⟨n, h⟩ :=
    fun _ hc => Fin.ext hc
  unfold escapes at hescape
  split_ifs at hescape
  all_goals
    rename_i hc
    obtain rfl := Option.some.inj hescape
    rw [hpoint (by norm_num) hc]
    rfl

theorem escapes_quoteMark : (escapes quoteMark).isSome := rfl

theorem escapes_backslash : (escapes backslash).isSome := rfl

/-- Whatever way a character is written, it is read back. -/
theorem readsBack_encodeCharacter : ReadsBack encodeCharacter := by
  intro c rest
  unfold encodeCharacter
  cases hescape : escapes c with
  | some escape => exact readCharacter_escapes hescape rest
  | none =>
      have hquote : c ≠ quoteMark := by
        rintro rfl
        simpa [hescape] using escapes_quoteMark
      have hbackslash : c ≠ backslash := by
        rintro rfl
        simpa [hescape] using escapes_backslash
      by_cases hcontrol : c.val < 0x20
      · have hread := readHex4_hexText4 (n := c.val) (by omega) rest
        have hfront : text "\\u" = [backslash, codePoint 'u'] := rfl
        have hpoint : codePointOf c.val = c := Fin.ext (Nat.mod_eq_of_lt c.isLt)
        have hunit : ¬ (0xD800 ≤ c.val ∧ c.val ≤ 0xDBFF) := by omega
        have hne : backslash ≠ quoteMark := by decide
        simp [hcontrol, hfront, readCharacter, hne, hread, hunit, hpoint]
      · simp [hcontrol, readCharacter, hquote, hbackslash]

/-- The quoting of the canonical text is that of JSON under this way of writing. -/
theorem quote_encodeCharacter (s : Text) : quote encodeCharacter s = quoted s := by
  simp [quote, quoted]

/-! ## Numbers -/

theorem digits_natAbs (value : ℤ) : Digits (decimalText value.natAbs) :=
  digits_decimalText _

def integerLiteral (value : ℤ) : NumberLiteral where
  negative := decide (value < 0)
  integer := decimalText value.natAbs
  fraction := []
  exponent := none
  integer_digits := digits_natAbs value
  integer_lead := noLeadingZero_decimalText _
  fraction_digits := digits_nil

def floatLiteral (float : FloatRepr) (negative : Bool) (m : Magnitude) :
    NumberLiteral :=
  if hm : m = .zero then integerLiteral 0
  else layoutLiteral (trimmed_shortestDigits float hm) (shortestDigits_ne_nil float hm)
    negative (shortestDigits float m).2

theorem integerLiteral_isInteger (value : ℤ) : (integerLiteral value).IsInteger :=
  ⟨rfl, rfl⟩

/-- The literal of an integer is its decimal text. -/
theorem integerLiteral_text (value : ℤ) :
    (integerLiteral value).text = integerText value := by
  have hminus : text "-" = [minusSign] := rfl
  by_cases hneg : value < 0 <;>
    simp [integerLiteral, NumberLiteral.text, NumberLiteral.fractionText,
      NumberLiteral.exponentText, integerText, hneg, hminus]

theorem integerLiteral_magnitude (value : ℤ) :
    (integerLiteral value).magnitude = value.natAbs := by
  rw [NumberLiteral.magnitude_of_isInteger (integerLiteral_isInteger value)]
  simp [integerLiteral]

/-- The literal of a float is its ECMAScript text. -/
theorem floatLiteral_text (float : FloatRepr) (negative : Bool) (m : Magnitude) :
    (floatLiteral float negative m).text = ecmascriptNumberToString float negative m := by
  unfold floatLiteral ecmascriptNumberToString
  split_ifs with hm hneg
  · rfl
  · rw [layoutLiteral_text, if_pos hneg]
  · rw [layoutLiteral_text, if_neg hneg, List.nil_append]

/-- The literal of a float rounds to that float. -/
theorem floatLiteral_nearest (float : FloatRepr) (negative : Bool) (m : Magnitude) :
    nearest (floatLiteral float negative m).magnitude = some m := by
  unfold floatLiteral
  split_ifs with hm
  · rw [integerLiteral_magnitude, hm]
    exact nearest_of_nonpos (by simp)
  · rw [layoutLiteral_magnitude]
    exact nearest_shortestDigits float hm

/-- Only zero loses its sign in the text. -/
theorem floatLiteral_negative (float : FloatRepr) {negative : Bool} {m : Magnitude}
    (hm : m ≠ .zero) : (floatLiteral float negative m).negative = negative := by
  rw [floatLiteral, dif_neg hm, layoutLiteral_negative]

/-! ## Documents -/

/-- The JSON scalar the encoder writes for a supported scalar. -/
def canonicalScalar (float : FloatRepr) : Atom → Scalar
  | .none => .null
  | .bool b => .bool b
  | .int value => .number (integerLiteral value)
  | .float (.finite negative m) => .number (floatLiteral float negative m)
  | .float _ => .null
  | .str s => .string s
  | .foreign _ => .null

/-- The JSON document the encoder writes for a supported tree. -/
def canonicalDocument (float : FloatRepr) : PyValue → Document :=
  Tree.fold (fun x => .leaf (canonicalScalar float x)) .list
    (fun members => .dict ((sortedBy (fun member => utf16 (keyText member.1))
      members).map fun member => (keyText member.1, member.2)))

@[simp]
theorem canonicalDocument_leaf (float : FloatRepr) (x : Atom) :
    canonicalDocument float (.leaf x) = .leaf (canonicalScalar float x) := by
  simp [canonicalDocument]

@[simp]
theorem canonicalDocument_list (float : FloatRepr) (items : List PyValue) :
    canonicalDocument float (.list items) =
      .list (items.map (canonicalDocument float)) := by
  simp [canonicalDocument]

/-- The members of a dict in the order of the canonical text. -/
def orderedMembers {V : Type} (members : List (Key × V)) : List (Key × V) :=
  sortedBy (fun member => utf16 (keyText member.1)) members

/-- The order of the members depends on their keys only. -/
theorem orderedMembers_map {V W : Type} (f : V → W) (members : List (Key × V)) :
    orderedMembers (members.map fun member => (member.1, f member.2)) =
      (orderedMembers members).map fun member => (member.1, f member.2) :=
  (map_sortedBy _ _ (fun member : Key × V => (member.1, f member.2)) members
    (by simp)).symm

/-- Ordering neither adds nor drops a member. -/
theorem mem_orderedMembers {V : Type} {members : List (Key × V)} {member : Key × V} :
    member ∈ orderedMembers members ↔ member ∈ members :=
  mem_sortedBy

theorem canonicalDocument_dict (float : FloatRepr) (members : List (Key × PyValue)) :
    canonicalDocument float (.dict members) =
      .dict ((orderedMembers members).map fun member =>
        (keyText member.1, canonicalDocument float member.2)) := by
  have horder := orderedMembers_map (canonicalDocument float) members
  rw [canonicalDocument, Tree.fold_dict, ← canonicalDocument]
  rw [orderedMembers] at horder
  rw [horder, List.map_map]
  rfl

/-- The scalars that have a text, encodable or not. -/
def WrittenAtom : Atom → Prop
  | .float (.finite _ _) => True
  | .float _ => False
  | .foreign _ => False
  | _ => True

theorem SupportedAtom.written {x : Atom} (hx : SupportedAtom x) : WrittenAtom x := by
  cases x with
  | float value => cases value <;> trivial
  | foreign o => exact hx
  | _ => trivial

/-- The text of a scalar is that of its literal. -/
theorem scalarText_canonicalScalar (float : FloatRepr) {x : Atom} (hx : WrittenAtom x) :
    (canonicalScalar float x).text encodeCharacter = atomText float x := by
  cases x with
  | none => rfl
  | bool b => cases b <;> rfl
  | int value => exact integerLiteral_text value
  | float value =>
      cases value with
      | finite negative m => exact floatLiteral_text float negative m
      | nan => exact hx.elim
      | infinity _ => exact hx.elim
  | str s => exact quote_encodeCharacter s
  | foreign o => exact hx.elim

/-- The canonical text of a tree of such scalars is the compact text of its canonical
document. -/
theorem compact_of_written (float : FloatRepr) {keyOk : Key → Prop} {v : PyValue}
    (hv : v.Admits WrittenAtom keyOk) :
    compact encodeCharacter (canonicalDocument float v) = canonicalText float v := by
  induction v using Tree.induct with
  | leaf x =>
      rw [Tree.admits_leaf] at hv
      simpa [compact] using scalarText_canonicalScalar float hv
  | list items ih =>
      rw [Tree.admits_list] at hv
      have hitems : (items.map (canonicalDocument float)).map (compact encodeCharacter) =
          items.map (canonicalText float) := by
        rw [List.map_map]
        exact List.map_congr_left fun item hitem => ih item hitem (hv item hitem)
      rw [canonicalDocument_list, canonicalText_list, ← hitems, compact, Tree.fold_list]
  | dict members ih =>
      rw [Tree.admits_dict] at hv
      have hmembers : ((orderedMembers members).map fun member =>
          (keyText member.1, canonicalDocument float member.2)).map (fun member =>
            JsonText.memberText encodeCharacter
              (member.1, compact encodeCharacter member.2)) =
          (orderedMembers (members.map fun member =>
            (member.1, canonicalText float member.2))).map memberText := by
        rw [orderedMembers_map, List.map_map, List.map_map]
        refine List.map_congr_left fun member hmember => ?_
        have hmem := mem_orderedMembers.mp hmember
        simp only [Function.comp_apply, JsonText.memberText, memberText,
          quote_encodeCharacter, ih member hmem (hv member hmem).2]
      rw [canonicalDocument_dict, canonicalText_dict, objectText, ← orderedMembers,
        ← hmembers, compact, Tree.fold_dict, JsonText.objectText, List.map_map]
      rfl

/-- The canonical text is the compact text of a JSON document. -/
theorem compact_canonicalDocument (float : FloatRepr) {v : PyValue}
    (hv : Supported v) :
    compact encodeCharacter (canonicalDocument float v) = canonicalText float v :=
  compact_of_written float (hv.imp (fun _ hx => hx.written) fun _ hk => hk)

/-- The JSON grammar reads the canonical text as the canonical document. -/
theorem parse_canonicalText (float : FloatRepr) {v : PyValue} (hv : Supported v) :
    parse (canonicalText float v) = some (canonicalDocument float v) := by
  rw [← compact_canonicalDocument float hv]
  exact parse_compact readsBack_encodeCharacter _

end TraigentSchema.Fp2
