import Mathlib

/-!
# Text, code units and encoded bytes

A text is a list of code points, surrogates included, which is what a scripting
language's string type holds.  This module gives the UTF-8 and the big-endian
UTF-16 form of a text and proves the two facts canonical formats rest on: the
encodings lose nothing, and comparing big-endian UTF-16 bytes is comparing code
units.
-/

namespace TraigentSchema.Unicode

abbrev Byte := Fin 256
abbrev Bytes := List Byte
abbrev CodeUnit := Fin 0x10000
abbrev CodePoint := Fin 0x110000
abbrev Text := List CodePoint

instance neZeroByte : NeZero (256 : ℕ) :=
  ⟨by decide⟩

instance neZeroCodePoint : NeZero (0x110000 : ℕ) :=
  ⟨by decide⟩

/-! Texts are ordered by their code points. -/

instance : IsTrans Text (· ≤ ·) :=
  inferInstance

instance : @Std.Antisymm Text (· ≤ ·) :=
  inferInstance

instance : @Std.Total Text (· ≤ ·) :=
  inferInstance

def codePoint (c : Char) : CodePoint :=
  ⟨c.toNat, by
    have hvalid := c.valid
    simp only [UInt32.isValidChar, Nat.isValidChar] at hvalid
    have hval : c.toNat = c.val.toNat := rfl
    omega⟩

/-- The text of a literal. -/
def text (literal : String) : Text :=
  literal.toList.map codePoint

theorem codePoint_injective : Function.Injective codePoint := by
  intro c d heq
  have hval : c.val.toNat = d.val.toNat := congrArg (fun p : CodePoint => p.val) heq
  exact Char.ext (UInt32.toNat_inj.mp hval)

theorem text_injective : Function.Injective text := by
  intro s t heq
  exact String.toList_inj.mp (codePoint_injective.list_map heq)

@[simp]
theorem text_inj {s t : String} : text s = text t ↔ s = t :=
  text_injective.eq_iff

/-! ## Prefix-free codes -/

section PrefixFree

variable {A B : Type*}

/-- A code whose words can be cut off the front of any concatenation in one way
only. -/
structure PrefixFree (encode : A → List B) (valid : A → Prop) : Prop where
  ne_nil : ∀ a, encode a ≠ []
  head_unique : ∀ {left right restLeft restRight}, valid left → valid right →
    encode left ++ restLeft = encode right ++ restRight → left = right

theorem PrefixFree.flatMap_injective {encode : A → List B} {valid : A → Prop}
    (hcode : PrefixFree encode valid) {left right : List A}
    (hleft : ∀ a ∈ left, valid a) (hright : ∀ a ∈ right, valid a)
    (heq : left.flatMap encode = right.flatMap encode) : left = right := by
  induction left generalizing right with
  | nil =>
      cases right with
      | nil => rfl
      | cons head tail => simp [hcode.ne_nil] at heq
  | cons head tail ih =>
      cases right with
      | nil => simp [hcode.ne_nil] at heq
      | cons head' tail' =>
          simp only [List.flatMap_cons] at heq
          have hhead : head = head' :=
            hcode.head_unique (hleft head (by simp)) (hright head' (by simp)) heq
          subst hhead
          have htail : tail = tail' := ih
            (fun a ha => hleft a (List.mem_cons_of_mem _ ha))
            (fun a ha => hright a (List.mem_cons_of_mem _ ha))
            (List.append_cancel_left heq)
          rw [htail]

end PrefixFree

/-! ## UTF-8 -/

/-- The UTF-8 form of one code point.  A surrogate gets the three-byte form of
its number; a strict encoder refuses it. -/
def utf8Char (c : CodePoint) : Bytes :=
  if h₁ : c.val < 0x80 then [⟨c.val, by omega⟩]
  else if h₂ : c.val < 0x800 then
    [⟨0xC0 + c.val / 0x40, by omega⟩, ⟨0x80 + c.val % 0x40, by omega⟩]
  else if h₃ : c.val < 0x10000 then
    [⟨0xE0 + c.val / 0x1000, by omega⟩, ⟨0x80 + c.val / 0x40 % 0x40, by omega⟩,
      ⟨0x80 + c.val % 0x40, by omega⟩]
  else
    [⟨0xF0 + c.val / 0x40000, by omega⟩, ⟨0x80 + c.val / 0x1000 % 0x40, by omega⟩,
      ⟨0x80 + c.val / 0x40 % 0x40, by omega⟩, ⟨0x80 + c.val % 0x40, by omega⟩]

def utf8 (s : Text) : Bytes :=
  s.flatMap utf8Char

theorem utf8Char_prefixFree : PrefixFree utf8Char (fun _ => True) where
  ne_nil c := by
    unfold utf8Char
    split_ifs <;> simp
  head_unique {left right restLeft restRight} _ _ heq := by
    unfold utf8Char at heq
    apply Fin.ext
    split_ifs at heq <;>
      simp only [List.cons_append, List.nil_append, List.cons.injEq,
        Fin.mk.injEq] at heq <;> omega

theorem utf8_injective : Function.Injective utf8 := by
  intro left right heq
  exact utf8Char_prefixFree.flatMap_injective (by simp) (by simp) heq

@[simp]
theorem utf8_nil : utf8 [] = [] := rfl

@[simp]
theorem utf8_append (left right : Text) :
    utf8 (left ++ right) = utf8 left ++ utf8 right := by
  simp [utf8]

/-! ## UTF-16 -/

def IsSurrogate (c : CodePoint) : Prop :=
  0xD800 ≤ c.val ∧ c.val ≤ 0xDFFF

instance (c : CodePoint) : Decidable (IsSurrogate c) :=
  inferInstanceAs (Decidable (_ ∧ _))

/-- A text every strict encoder accepts: scalar values only. -/
def Encodable (s : Text) : Prop :=
  ∀ c ∈ s, ¬ IsSurrogate c

instance (s : Text) : Decidable (Encodable s) :=
  List.decidableBAll (fun c => ¬ IsSurrogate c) s

@[simp]
theorem encodable_nil : Encodable [] := by
  simp [Encodable]

@[simp]
theorem encodable_cons (c : CodePoint) (s : Text) :
    Encodable (c :: s) ↔ ¬ IsSurrogate c ∧ Encodable s := by
  simp [Encodable]

@[simp]
theorem encodable_append (left right : Text) :
    Encodable (left ++ right) ↔ Encodable left ∧ Encodable right := by
  simp only [Encodable, List.mem_append]
  exact ⟨fun h => ⟨fun c hc => h c (Or.inl hc), fun c hc => h c (Or.inr hc)⟩,
    fun h c hc => hc.elim (h.1 c) (h.2 c)⟩

theorem codePoint_not_surrogate (c : Char) : ¬ IsSurrogate (codePoint c) := by
  have hvalid := c.valid
  simp only [UInt32.isValidChar, Nat.isValidChar] at hvalid
  have hval : (codePoint c).val = c.val.toNat := rfl
  rw [IsSurrogate, hval]
  omega

/-- A literal holds scalar values only. -/
@[simp]
theorem encodable_text (literal : String) : Encodable (text literal) := by
  intro c hc
  obtain ⟨char, -, rfl⟩ := List.mem_map.mp hc
  exact codePoint_not_surrogate char

/-- One code unit below U+10000, a surrogate pair above. -/
def utf16Char (c : CodePoint) : List CodeUnit :=
  if h : c.val < 0x10000 then [⟨c.val, h⟩]
  else
    [⟨0xD800 + (c.val - 0x10000) / 0x400, by omega⟩,
      ⟨0xDC00 + (c.val - 0x10000) % 0x400, by omega⟩]

def utf16 (s : Text) : List CodeUnit :=
  s.flatMap utf16Char

theorem utf16Char_prefixFree :
    PrefixFree utf16Char (fun c => ¬ IsSurrogate c) where
  ne_nil c := by
    unfold utf16Char
    split_ifs <;> simp
  head_unique {left right restLeft restRight} hleft hright heq := by
    unfold utf16Char at heq
    unfold IsSurrogate at hleft hright
    apply Fin.ext
    split_ifs at heq <;>
      simp only [List.cons_append, List.nil_append, List.cons.injEq,
        Fin.mk.injEq] at heq <;> omega

theorem utf16_injective {left right : Text} (hleft : Encodable left)
    (hright : Encodable right) (heq : utf16 left = utf16 right) :
    left = right :=
  utf16Char_prefixFree.flatMap_injective hleft hright heq

def bigEndian (u : CodeUnit) : Bytes :=
  [⟨u.val / 0x100, by omega⟩, ⟨u.val % 0x100, by omega⟩]

def utf16BigEndian (s : Text) : Bytes :=
  (utf16 s).flatMap bigEndian

/-- Lexicographic order on code units is lexicographic order on their
big-endian bytes. -/
theorem flatMap_bigEndian_strictMono :
    StrictMono (List.flatMap bigEndian) := by
  intro left right hlt
  change List.Lex (· < ·) left right at hlt
  change List.Lex (· < ·) (left.flatMap bigEndian) (right.flatMap bigEndian)
  induction hlt with
  | nil =>
      simp only [List.flatMap_nil, List.flatMap_cons, bigEndian]
      exact List.Lex.nil
  | cons _ ih =>
      simp only [List.flatMap_cons, bigEndian, List.cons_append, List.nil_append]
      exact List.Lex.cons (List.Lex.cons ih)
  | @rel head _ head' _ hhead =>
      have hsplit : head.val / 0x100 < head'.val / 0x100 ∨
          head.val / 0x100 = head'.val / 0x100 ∧
            head.val % 0x100 < head'.val % 0x100 := by
        rw [Fin.lt_def] at hhead
        omega
      simp only [List.flatMap_cons, bigEndian, List.cons_append, List.nil_append]
      rcases hsplit with hhigh | ⟨hhigh, hlow⟩
      · exact List.Lex.rel (Fin.mk_lt_mk.mpr hhigh)
      · have hbyte : (⟨head.val / 0x100, by omega⟩ : Byte) =
            ⟨head'.val / 0x100, by omega⟩ := Fin.ext hhigh
        rw [hbyte]
        exact List.Lex.cons (List.Lex.rel (Fin.mk_lt_mk.mpr hlow))

theorem utf16BigEndian_le_iff (left right : Text) :
    utf16BigEndian left ≤ utf16BigEndian right ↔ utf16 left ≤ utf16 right :=
  flatMap_bigEndian_strictMono.le_iff_le

end TraigentSchema.Unicode
