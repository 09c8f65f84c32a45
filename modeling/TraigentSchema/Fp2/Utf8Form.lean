import TraigentSchema.Fp2.Document

/-!
# Canonical text has a UTF-8 form

The encoder refuses lone surrogates in the strings it is given and writes none of its own.
-/

namespace TraigentSchema.Fp2

open TraigentSchema.Unicode
open TraigentSchema.Decimal
open TraigentSchema.JsonNumber
open TraigentSchema.JsonText (colon comma commaSeparated)
open TraigentSchema.Python
open TraigentSchema.SortedBy

theorem encodable_flatMap {f : CodePoint → Text} {s : Text} :
    Encodable (s.flatMap f) ↔ ∀ c ∈ s, Encodable (f c) := by
  simp only [Unicode.Encodable, List.mem_flatMap, forall_exists_index, and_imp]
  exact ⟨fun hall c hc d hd => hall d c hc hd, fun hall d c hc hd => hall c hc d hd⟩

/-! ## Strings -/

theorem encodable_escapes {c : CodePoint} {escape : Text} (hescape : escapes c = some escape) :
    Encodable escape := by
  rw [escapes] at hescape
  split_ifs at hescape
  all_goals
    obtain rfl := Option.some.inj hescape
    exact encodable_text _

theorem encodable_hexText4 (n : ℕ) : Encodable (hexText4 n) := by
  have hdigit : ∀ d < 16, ¬IsSurrogate (Hashing.hexDigit d) := by decide
  simp only [hexText4, encodable_cons]
  exact ⟨hdigit _ (by omega), hdigit _ (by omega), hdigit _ (by omega), hdigit _ (by omega),
    encodable_nil⟩

theorem encodable_encodeCharacter {c : CodePoint} (hc : ¬IsSurrogate c) :
    Encodable (encodeCharacter c) := by
  rw [encodeCharacter]
  cases hescape : escapes c with
  | some escape => exact encodable_escapes hescape
  | none =>
      dsimp only
      split_ifs
      · exact (encodable_append _ _).mpr ⟨encodable_text _, encodable_hexText4 _⟩
      · exact (encodable_cons _ _).mpr ⟨hc, encodable_nil⟩

theorem encodable_quoted {s : Text} (hs : Encodable s) : Encodable (quoted s) := by
  rw [quoted, encodable_append, encodable_append, encodable_flatMap]
  exact ⟨⟨encodable_text _, fun c hc => encodable_encodeCharacter (hs c hc)⟩, encodable_text _⟩

/-! ## Numbers -/

theorem encodable_digits {s : Text} (hs : Digits s) : Encodable s := by
  intro c hc hsurrogate
  have hhigh := (hs c hc).2
  have hlow := hsurrogate.1
  omega

theorem encodable_exponentText (e : Exponent) : Encodable e.text := by
  have hsign : ∀ sign, Encodable (Exponent.signText sign) := by decide
  rw [Exponent.text, encodable_cons, encodable_append]
  refine ⟨?_, hsign e.sign, encodable_digits e.digits_digits⟩
  split_ifs <;> decide

theorem encodable_numberLiteral (literal : NumberLiteral) : Encodable literal.text := by
  have hsign : Encodable (if literal.negative then [minusSign] else []) := by
    split_ifs <;> decide
  have hfraction : Encodable literal.fractionText := by
    rw [NumberLiteral.fractionText]
    split_ifs
    · exact encodable_nil
    · exact (encodable_cons _ _).mpr ⟨by decide, encodable_digits literal.fraction_digits⟩
  have hexponent : Encodable literal.exponentText := by
    rw [NumberLiteral.exponentText]
    cases literal.exponent with
    | none => exact encodable_nil
    | some e => exact encodable_exponentText e
  rw [NumberLiteral.text, encodable_append, encodable_append, encodable_append]
  exact ⟨hsign, encodable_digits literal.integer_digits, hfraction, hexponent⟩

theorem encodable_atomText (float : FloatRepr) {x : Atom} (hx : SupportedAtom x) :
    Encodable (atomText float x) := by
  cases x with
  | none => exact encodable_text _
  | bool b => cases b <;> exact encodable_text _
  | int value =>
      rw [atomText, ← integerLiteral_text]
      exact encodable_numberLiteral _
  | float value =>
      cases value with
      | finite negative m =>
          rw [atomText, ← floatLiteral_text]
          exact encodable_numberLiteral _
      | nan => exact absurd hx (by simp [SupportedAtom])
      | infinity _ => exact absurd hx (by simp [SupportedAtom])
  | str s => exact encodable_quoted hx
  | foreign o => exact absurd hx (by simp [SupportedAtom])

/-! ## Trees -/

theorem encodable_commaSeparated {texts : List Text} (htexts : ∀ t ∈ texts, Encodable t) :
    Encodable (commaSeparated texts) := by
  have hcomma : Encodable [comma] := encodable_text ","
  cases texts with
  | nil => exact encodable_nil
  | cons first others =>
      rw [commaSeparated, encodable_append]
      refine ⟨htexts first (List.mem_cons_self ..), ?_⟩
      intro c hc
      obtain ⟨other, hother, hmem⟩ := List.mem_flatMap.mp hc
      obtain rfl | hmem := List.mem_cons.mp hmem
      · exact hcomma _ (List.mem_singleton_self _)
      · exact htexts other (List.mem_cons_of_mem _ hother) c hmem

theorem encodable_keyText {key : Key} (hkey : PlainKey key) : Encodable (keyText key) := by
  cases key with
  | str s => exact hkey
  | foreign o => exact encodable_nil

/-- The canonical text of a supported tree has a UTF-8 form. -/
theorem encodable_canonicalText (float : FloatRepr) {v : PyValue} (hv : Supported v) :
    Encodable (canonicalText float v) := by
  induction v using Tree.induct with
  | leaf x =>
      rw [canonicalText_leaf]
      exact encodable_atomText float ((supported_leaf x).mp hv)
  | list items ih =>
      rw [supported_list] at hv
      rw [canonicalText_list]
      have hitems : Encodable (commaSeparated (items.map (canonicalText float))) := by
        apply encodable_commaSeparated
        intro t ht
        obtain ⟨item, hitem, rfl⟩ := List.mem_map.mp ht
        exact ih item hitem (hv item hitem)
      exact (encodable_append (text "[") _).mpr ⟨encodable_text _,
        (encodable_append _ (text "]")).mpr ⟨hitems, encodable_text _⟩⟩
  | dict members ih =>
      rw [supported_dict] at hv
      rw [canonicalText_dict, objectText, ← orderedMembers, orderedMembers_map, List.map_map]
      have hrows : Encodable (commaSeparated ((orderedMembers members).map
          (memberText ∘ fun member => (member.1, canonicalText float member.2)))) := by
        apply encodable_commaSeparated
        intro t ht
        obtain ⟨member, hmember, rfl⟩ := List.mem_map.mp ht
        have hmem := mem_orderedMembers.mp hmember
        obtain ⟨hkey, hvalue⟩ := hv member hmem
        exact (encodable_append _ (colon :: canonicalText float member.2)).mpr
          ⟨encodable_quoted (encodable_keyText hkey), (encodable_append (text ":") _).mpr
            ⟨encodable_text _, ih member hmem hvalue⟩⟩
      exact (encodable_append (text "\x7b") _).mpr ⟨encodable_text _,
        (encodable_append _ (text "\x7d")).mpr ⟨hrows, encodable_text _⟩⟩

end TraigentSchema.Fp2
