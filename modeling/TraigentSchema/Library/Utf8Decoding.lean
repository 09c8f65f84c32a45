import TraigentSchema.Library.Unicode

/-!
# Strict UTF-8 decoding

A strict decoder takes the shortest form of a scalar value and nothing else: no
overlong form, no surrogate, no number above the last code point.  It reads the number
its first bytes spell and keeps it where the encoder spells it with the same bytes.
-/

namespace TraigentSchema.Unicode

/-- The number the first bytes spell; the lead byte says how many they are. -/
def utf8Number (bytes : Bytes) : ℕ :=
  let byte (i : ℕ) : ℕ := (bytes[i]?.getD 0).val
  if byte 0 < 0x80 then byte 0
  else if byte 0 < 0xE0 then (byte 0 - 0xC0) * 0x40 + byte 1 % 0x40
  else if byte 0 < 0xF0 then
    (byte 0 - 0xE0) * 0x1000 + byte 1 % 0x40 * 0x40 + byte 2 % 0x40
  else
    (byte 0 - 0xF0) * 0x40000 + byte 1 % 0x40 * 0x1000 + byte 2 % 0x40 * 0x40 +
      byte 3 % 0x40

/-- The scalar value at the front of some bytes, and the bytes after it. -/
def utf8Head (bytes : Bytes) : Option (CodePoint × Bytes) :=
  if h : utf8Number bytes < 0x110000 then
    let c : CodePoint := ⟨utf8Number bytes, h⟩
    if ¬ IsSurrogate c ∧ utf8Char c <+: bytes then
      some (c, bytes.drop (utf8Char c).length)
    else none
  else none

theorem utf8Number_utf8Char (c : CodePoint) (rest : Bytes) :
    utf8Number (utf8Char c ++ rest) = c.val := by
  have hbound := c.isLt
  unfold utf8Char
  split_ifs with hone htwo hthree
  · simp [utf8Number, hone]
  · simp only [utf8Number, List.cons_append, List.nil_append, List.getElem?_cons_zero,
      List.getElem?_cons_succ, Option.getD_some]
    rw [if_neg (by omega), if_pos (by omega)]
    omega
  · simp only [utf8Number, List.cons_append, List.nil_append, List.getElem?_cons_zero,
      List.getElem?_cons_succ, Option.getD_some]
    rw [if_neg (by omega), if_neg (by omega), if_pos (by omega)]
    omega
  · simp only [utf8Number, List.cons_append, List.nil_append, List.getElem?_cons_zero,
      List.getElem?_cons_succ, Option.getD_some]
    rw [if_neg (by omega), if_neg (by omega), if_neg (by omega)]
    omega

theorem utf8Head_eq_some_iff {bytes rest : Bytes} {c : CodePoint} :
    utf8Head bytes = some (c, rest) ↔ ¬ IsSurrogate c ∧ bytes = utf8Char c ++ rest := by
  constructor
  · intro hhead
    by_cases hbound : utf8Number bytes < 0x110000
    · simp only [utf8Head, dif_pos hbound, Option.ite_none_right_eq_some,
        Option.some.injEq, Prod.mk.injEq] at hhead
      obtain ⟨⟨hscalar, hstart⟩, rfl, rfl⟩ := hhead
      exact ⟨hscalar, List.prefix_iff_eq_append.mp hstart |>.symm⟩
    · rw [utf8Head, dif_neg hbound] at hhead
      cases hhead
  · rintro ⟨hscalar, rfl⟩
    have hnumber := utf8Number_utf8Char c rest
    have hbound : utf8Number (utf8Char c ++ rest) < 0x110000 := hnumber ▸ c.isLt
    have hc : (⟨utf8Number (utf8Char c ++ rest), hbound⟩ : CodePoint) = c := Fin.ext hnumber
    rw [utf8Head, dif_pos hbound]
    simp only [hc]
    rw [if_pos ⟨hscalar, List.prefix_append _ _⟩, List.drop_left]

/-- Decodes as many scalar values as the fuel allows. -/
def decodeUtf8Within : ℕ → Bytes → Option Text
  | _, [] => some []
  | 0, _ :: _ => none
  | fuel + 1, byte :: bytes =>
      match utf8Head (byte :: bytes) with
      | none => none
      | some (c, rest) => (decodeUtf8Within fuel rest).map (c :: ·)

/-- `bytes.decode("utf-8")`; a scalar value takes at least one byte. -/
def decodeUtf8 (bytes : Bytes) : Option Text :=
  decodeUtf8Within bytes.length bytes

theorem encodable_of_decodeUtf8Within {fuel : ℕ} {bytes : Bytes} {s : Text}
    (hdecode : decodeUtf8Within fuel bytes = some s) : Encodable s ∧ utf8 s = bytes := by
  induction fuel generalizing bytes s with
  | zero =>
      cases bytes with
      | nil =>
          obtain rfl : [] = s := Option.some.inj hdecode
          exact ⟨encodable_nil, rfl⟩
      | cons byte bytes => cases hdecode
  | succ fuel ih =>
      cases bytes with
      | nil =>
          obtain rfl : [] = s := Option.some.inj hdecode
          exact ⟨encodable_nil, rfl⟩
      | cons byte bytes =>
          rw [decodeUtf8Within] at hdecode
          cases hhead : utf8Head (byte :: bytes) with
          | none =>
              rw [hhead] at hdecode
              cases hdecode
          | some found =>
              obtain ⟨c, rest⟩ := found
              rw [hhead] at hdecode
              obtain ⟨tail, htail, rfl⟩ := Option.map_eq_some_iff.mp hdecode
              obtain ⟨hscalar, hbytes⟩ := utf8Head_eq_some_iff.mp hhead
              obtain ⟨hencodable, hrest⟩ := ih htail
              refine ⟨(encodable_cons c tail).mpr ⟨hscalar, hencodable⟩, ?_⟩
              rw [hbytes, ← hrest]
              rfl

theorem decodeUtf8Within_utf8 {fuel : ℕ} {s : Text} (hencodable : Encodable s)
    (hfuel : s.length ≤ fuel) : decodeUtf8Within fuel (utf8 s) = some s := by
  induction s generalizing fuel with
  | nil => cases fuel <;> rfl
  | cons c s ih =>
      obtain ⟨hscalar, hrest⟩ := (encodable_cons c s).mp hencodable
      cases fuel with
      | zero => simp at hfuel
      | succ fuel =>
          have hsplit : utf8 (c :: s) = utf8Char c ++ utf8 s := rfl
          have hhead : utf8Head (utf8 (c :: s)) = some (c, utf8 s) :=
            utf8Head_eq_some_iff.mpr ⟨hscalar, hsplit⟩
          cases hbytes : utf8 (c :: s) with
          | nil =>
              rw [hsplit, List.append_eq_nil_iff] at hbytes
              exact absurd hbytes.1 (utf8Char_prefixFree.ne_nil c)
          | cons byte bytes =>
              rw [hbytes] at hhead
              rw [decodeUtf8Within, hhead]
              simp only
              rw [ih hrest (Nat.le_of_succ_le_succ hfuel), Option.map_some]

theorem length_le_length_utf8 (s : Text) : s.length ≤ (utf8 s).length := by
  induction s with
  | nil => exact le_rfl
  | cons c s ih =>
      have hpos := List.length_pos_iff.mpr (utf8Char_prefixFree.ne_nil c)
      change s.length + 1 ≤ (utf8Char c ++ utf8 s).length
      rw [List.length_append]
      omega

/-- The decoder inverts the encoder and refuses everything else. -/
theorem decodeUtf8_eq_some_iff {bytes : Bytes} {s : Text} :
    decodeUtf8 bytes = some s ↔ Encodable s ∧ utf8 s = bytes := by
  constructor
  · exact encodable_of_decodeUtf8Within
  · rintro ⟨hencodable, rfl⟩
    exact decodeUtf8Within_utf8 hencodable (length_le_length_utf8 s)

end TraigentSchema.Unicode
