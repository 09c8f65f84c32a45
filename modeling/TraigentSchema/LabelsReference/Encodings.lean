import TraigentSchema.Library.Base64
import TraigentSchema.Library.SortedBy
import TraigentSchema.Library.Traverse
import TraigentSchema.Python.Mapping
import TraigentSchema.Fp2.Canonical
import TraigentSchema.Library.JsonText

/-!
# Encodings of the label service

Unpadded base64url and the canonical JSON that label bindings are signed over.  Both
refuse what they do not take with the module's own error, except where the interpreter
raises one first.
-/

namespace TraigentSchema.LabelsReference

open TraigentSchema.Unicode
open TraigentSchema.Base64
open TraigentSchema.Fp2
open TraigentSchema.Hashing (hexDigit)
open TraigentSchema.JsonText hiding memberText objectText
open TraigentSchema.Python
open TraigentSchema.SortedBy
open TraigentSchema.Traverse

/-- How the reference functions fail: with their own `LabelCryptoError`, or with an
exception of another class. -/
inductive Failure where
  | labelCrypto (message : String)
  | other
  deriving DecidableEq, Repr

abbrev Result (A : Type) := Except Failure A

def Result.IsLabelCryptoError {A : Type} (result : Result A) : Prop :=
  ∃ message, result = .error (.labelCrypto message)

theorem not_isLabelCryptoError_other {A : Type} :
    ¬ Result.IsLabelCryptoError (.error .other : Result A) := by
  rintro ⟨message, hmessage⟩
  cases hmessage

theorem bind_ne_other_iff {A B : Type} {result : Result A} {next : A → Result B} :
    (result >>= next) ≠ .error .other ↔
      result ≠ .error .other ∧ ∀ a, result = .ok a → next a ≠ .error .other := by
  cases result with
  | error failure => simp
  | ok a => simp

/-- `text.encode("utf-8")`. -/
def encodeUtf8 (s : Text) : Result Bytes :=
  if Encodable s then .ok (utf8 s) else .error .other

/-- `s.isascii()`. -/
def isAscii (s : Text) : Bool :=
  s.all fun c => c.val < 0x80

/-! ## Base64url -/

def urlSafe (c : CodePoint) : CodePoint :=
  if c = codePoint '+' then codePoint '-'
  else if c = codePoint '/' then codePoint '_'
  else c

def fromUrlSafe (c : CodePoint) : CodePoint :=
  if c = codePoint '-' then codePoint '+'
  else if c = codePoint '_' then codePoint '/'
  else c

def b64u (data : Bytes) : Text :=
  ((b64encode data).map urlSafe).rdropWhile (· = padding)

/-- `binascii.a2b_base64`, not strict, with the digits of the group it is in and the
padding seen since the last of them.  Characters outside the alphabet are skipped; the
padding that fills a group ends the data. -/
def a2bBase64 (group : List (Fin 64)) (pads : ℕ) : Text → Option Bytes
  | [] => if group = [] then some [] else none
  | c :: rest =>
      if c = padding then
        if group.length < 2 then a2bBase64 group pads rest
        else if 4 ≤ group.length + (pads + 1) then some []
        else a2bBase64 group (pads + 1) rest
      else match base64Digit c with
        | none => a2bBase64 group pads rest
        | some d =>
            match group with
            | [] => a2bBase64 [d] 0 rest
            | [p] => (a2bBase64 [p, d] 0 rest).map (firstByte p d :: ·)
            | [p, q] => (a2bBase64 [p, q, d] 0 rest).map (secondByte q d :: ·)
            | _ :: _ :: r :: _ => (a2bBase64 [] 0 rest).map (thirdByte r d :: ·)

def urlsafeB64decode (s : Text) : Option Bytes :=
  a2bBase64 [] 0 (s.map fromUrlSafe)

def unb64u : PyValue → Result Bytes
  | .leaf (.str s) =>
      if s.contains padding || !isAscii s then
        .error (.labelCrypto "not unpadded base64url")
      else
        let missing := (4 - s.length % 4) % 4
        match urlsafeB64decode (s ++ List.replicate missing padding) with
        | none => .error (.labelCrypto "not base64url")
        | some raw =>
            if b64u raw ≠ s then .error (.labelCrypto "non-canonical base64url")
            else .ok raw
  | _ => .error (.labelCrypto "not unpadded base64url")

theorem unb64u_ne_other (v : PyValue) : unb64u v ≠ .error .other := by
  unfold unb64u
  split
  · split_ifs
    · simp
    · dsimp only
      split
      · simp
      · split_ifs <;> simp
  · simp

/-- The digits of an encoding, and the padding that fills the last group. -/
theorem exists_b64encode_eq (data : Bytes) : ∃ digits : List (Fin 64),
    b64encode data = digits.map base64Char ++
      List.replicate ((4 - digits.length % 4) % 4) padding := by
  fun_induction b64encode data with
  | case1 a b c rest ih =>
      obtain ⟨digits, hdigits⟩ := ih
      refine ⟨firstDigit a :: secondDigit a b :: thirdDigit b c :: fourthDigit c :: digits, ?_⟩
      have hlength : (digits.length + 1 + 1 + 1 + 1) % 4 = digits.length % 4 := by omega
      simp [hdigits, hlength]
  | case2 a b => exact ⟨[firstDigit a, secondDigit a b, thirdDigit b 0], rfl⟩
  | case3 a => exact ⟨[firstDigit a, secondDigit a 0], rfl⟩
  | case4 => exact ⟨[], rfl⟩

theorem a2bBase64_b64encode (data : Bytes) : a2bBase64 [] 0 (b64encode data) = some data := by
  fun_induction b64encode data with
  | case1 a b c rest ih =>
      simp [a2bBase64, ih, firstByte_digits, secondByte_digits, thirdByte_digits]
  | case2 a b => simp [a2bBase64, firstByte_digits, secondByte_digits]
  | case3 a => simp [a2bBase64, firstByte_digits]
  | case4 => rfl

theorem urlSafe_base64Char : ∀ d : Fin 64, fromUrlSafe (urlSafe (base64Char d)) = base64Char d ∧
    urlSafe (base64Char d) ≠ padding ∧ (urlSafe (base64Char d)).val < 0x80 := by
  decide

theorem urlSafe_padding : urlSafe padding = padding := by
  decide

theorem rdropWhile_padding {s : Text} (hs : padding ∉ s) (count : ℕ) :
    (s ++ List.replicate count padding).rdropWhile (· = padding) = s := by
  have hpads : ∀ c ∈ (List.replicate count padding).reverse, decide (c = padding) = true := by
    simp +contextual
  have hfirst : s.reverse.dropWhile (· = padding) = s.reverse := by
    rw [List.dropWhile_eq_self_iff]
    intro hpos hhead
    exact hs (List.mem_reverse.mp (of_decide_eq_true hhead ▸ List.getElem_mem hpos))
  rw [List.rdropWhile, List.reverse_append, List.dropWhile_append_of_pos hpads, hfirst,
    List.reverse_reverse]

/-- What is encoded is decoded again. -/
theorem unb64u_b64u (data : Bytes) : unb64u (.leaf (.str (b64u data))) = .ok data := by
  obtain ⟨digits, hdigits⟩ := exists_b64encode_eq data
  set safe := digits.map fun d => urlSafe (base64Char d) with hsafe
  have hnone : padding ∉ safe := by
    intro hmem
    obtain ⟨d, -, hd⟩ := List.mem_map.mp hmem
    exact (urlSafe_base64Char d).2.1 hd
  have htext : b64u data = safe := by
    rw [b64u, hdigits, List.map_append, List.map_map, List.map_replicate, urlSafe_padding]
    exact rdropWhile_padding hnone _
  have hascii : isAscii safe = true := by
    rw [isAscii, List.all_eq_true]
    intro c hc
    obtain ⟨d, -, rfl⟩ := List.mem_map.mp hc
    exact decide_eq_true (urlSafe_base64Char d).2.2
  have hback : (safe ++ List.replicate ((4 - safe.length % 4) % 4) padding).map fromUrlSafe =
      b64encode data := by
    have hlength : safe.length = digits.length := by simp [hsafe]
    have hpadding : fromUrlSafe padding = padding := by decide
    rw [hdigits, List.map_append, List.map_replicate, hpadding, hlength, hsafe, List.map_map]
    congr 1
    exact List.map_congr_left fun d _ => (urlSafe_base64Char d).1
  have hcontains : safe.contains padding = false := by simpa using hnone
  simp only [htext, unb64u, hcontains, hascii, Bool.not_true, Bool.or_false, Bool.false_eq_true,
    if_false, urlsafeB64decode, hback, a2bBase64_b64encode]
  simp

theorem b64u_of_unb64u {v : PyValue} {raw : Bytes} (hv : unb64u v = .ok raw) :
    v = .leaf (.str (b64u raw)) := by
  unfold unb64u at hv
  split at hv
  · rename_i s
    dsimp only at hv
    split_ifs at hv
    split at hv
    · cases hv
    · split_ifs at hv with hsame
      rw [not_not] at hsame
      rw [← Except.ok.inj hv, hsame]
  · cases hv

/-! ## Canonical JSON -/

/-- The table of escapes of the library's encoder; the other control characters have the
long form. -/
def escapeDct (c : CodePoint) : Option Text :=
  if c.val = 0x5C then some (text "\\\\")
  else if c.val = 0x22 then some (text "\\\"")
  else if c.val = 0x08 then some (text "\\b")
  else if c.val = 0x0C then some (text "\\f")
  else if c.val = 0x0A then some (text "\\n")
  else if c.val = 0x0D then some (text "\\r")
  else if c.val = 0x09 then some (text "\\t")
  else if c.val < 0x20 then
    some (text "\\u00" ++ [hexDigit (c.val / 0x10), hexDigit (c.val % 0x10)])
  else none

/-- `json.dumps(s, ensure_ascii=False)`. -/
def dumpsString (s : Text) : Text :=
  text "\"" ++ (s.flatMap fun c => (escapeDct c).getD [c]) ++ text "\""

/-- `sys.int_info.default_max_str_digits`: `str` raises on longer integers. -/
def maxStrDigits : ℕ := 4300

/-- The branches of `enc` for what is not a container. -/
def encAtom : Atom → Result Text
  | .none => .ok (text "null")
  | .bool true => .ok (text "true")
  | .bool false => .ok (text "false")
  | .int i => if 10 ^ maxStrDigits ≤ i.natAbs then .error .other else .ok (integerText i)
  | .str s => .ok (dumpsString s)
  | .float _ => .error (.labelCrypto "unsupported JCS type float")
  | .foreign o =>
      match o.typeName with
      | .ok name => .error (.labelCrypto s!"unsupported JCS type {name}")
      | .error _ => .error .other

/-- `k.encode("utf-16-be")`; what is not a string has no `encode`. -/
def sortKey : Key → Result Bytes
  | .str s => if Encodable s then .ok (utf16BigEndian s) else .error .other
  | .foreign _ => .error .other

def encMember (member : Bytes × Key × Result Text) : Result Text := do
  let value ← member.2.2
  return dumpsString (keyText member.2.1) ++ text ":" ++ value

def encList (items : List (Result Text)) : Result Text := do
  let texts ← items.mapM id
  return arrayText texts

def encDict (members : List (Key × Result Text)) : Result Text := do
  let decorated ← members.mapM fun member => do return (← sortKey member.1, member)
  let texts ← (sortedBy Prod.fst decorated).mapM encMember
  return text "\x7b" ++ commaSeparated texts ++ text "\x7d"

/-- `enc`.  A foreign object is one of a type that has no branch. -/
def enc : PyValue → Result Text :=
  Tree.fold encAtom encList encDict

@[simp]
theorem enc_leaf (x : Atom) : enc (.leaf x) = encAtom x := by
  simp [enc]

@[simp]
theorem enc_list (items : List PyValue) : enc (.list items) = encList (items.map enc) := by
  simp [enc]

@[simp]
theorem enc_dict (members : List (Key × PyValue)) :
    enc (.dict members) = encDict (members.map fun member => (member.1, enc member.2)) := by
  simp [enc]

/-- `jcs`, on a stack that holds every nesting. -/
def jcs (v : PyValue) : Result Bytes := do
  encodeUtf8 (← enc v)

/-! ## The stack of the interpreter -/

/-- Whether the stack is full when `enc` comes to a scalar, or to a container (`none`), that lies
so many containers deep. -/
abbrev StackLimit := (depth : ℕ) → Option Atom → Bool

/-- `RecursionError` is an exception of another class. -/
def unlessFull {A : Type} (full : Bool) (result : Result A) : Result A :=
  if full then .error .other else result

def keyAtom : Key → Atom
  | .str s => .str s
  | .foreign o => .foreign o

/-- `enc` of what lies so many containers deep.  A key is encoded before its value. -/
def encWithin (full : StackLimit) : PyValue → (depth : ℕ) → Result Text :=
  Tree.fold (fun x depth => unlessFull (full depth (some x)) (encAtom x))
    (fun items depth => unlessFull (full depth none)
      (encList (items.map fun item => item (depth + 1))))
    (fun members depth => unlessFull (full depth none)
      (encDict (members.map fun member => (member.1,
        unlessFull (full (depth + 1) (some (keyAtom member.1))) (member.2 (depth + 1))))))

section Within

variable (full : StackLimit) (depth : ℕ)

@[simp]
theorem encWithin_leaf (x : Atom) :
    encWithin full (.leaf x) depth = unlessFull (full depth (some x)) (encAtom x) := by
  simp [encWithin]

@[simp]
theorem encWithin_list (items : List PyValue) :
    encWithin full (.list items) depth = unlessFull (full depth none)
      (encList (items.map fun item => encWithin full item (depth + 1))) := by
  simp [encWithin, Function.comp_def]

@[simp]
theorem encWithin_dict (members : List (Key × PyValue)) :
    encWithin full (.dict members) depth = unlessFull (full depth none)
      (encDict (members.map fun member => (member.1,
        unlessFull (full (depth + 1) (some (keyAtom member.1)))
          (encWithin full member.2 (depth + 1))))) := by
  simp [encWithin, Function.comp_def]

end Within

/-- `jcs`, whose `enc` calls itself for what a container holds. -/
def jcsWithin (full : StackLimit) (v : PyValue) : Result Bytes := do
  encodeUtf8 (← encWithin full v 0)

/-- A result that the stack has cut off, or has not. -/
def CutOff {A : Type} (result whole : Result A) : Prop :=
  result = whole ∨ result = .error .other

section CutOff

variable {A B : Type}

theorem CutOff.bind {result whole : Result A} {f g : A → Result B} (hresult : CutOff result whole)
    (hrest : ∀ a, whole = .ok a → CutOff (f a) (g a)) : CutOff (result >>= f) (whole >>= g) := by
  rcases hresult with rfl | rfl
  · cases result with
    | ok a => exact hrest a rfl
    | error failure => exact .inl rfl
  · exact .inr rfl

theorem CutOff.unlessFull {result whole : Result A} (hresult : CutOff result whole)
    (full : Bool) : CutOff (unlessFull full result) whole := by
  cases full with
  | false => exact hresult
  | true => exact .inr rfl

theorem CutOff.eq_ok {result whole : Result A} {a : A} (hcut : CutOff result whole)
    (hresult : result = .ok a) : whole = .ok a := by
  rcases hcut with rfl | rfl
  · exact hresult
  · cases hresult

theorem cutOff_mapM {rows : List A} {f g : A → Result B}
    (hrows : ∀ row ∈ rows, CutOff (f row) (g row)) : CutOff (rows.mapM f) (rows.mapM g) := by
  induction rows with
  | nil => exact .inl rfl
  | cons row rows ih =>
      rw [List.forall_mem_cons] at hrows
      rw [List.mapM_cons, List.mapM_cons]
      exact hrows.1.bind fun _ _ => (ih hrows.2).bind fun _ _ => .inl rfl

/-- The members of a dict are sorted before any value is encoded. -/
theorem encDict_map (members : List (Key × B)) (f : Key × B → Result Text) :
    encDict (members.map fun member => (member.1, f member)) = do
      let decorated ← members.mapM fun member => do return (← sortKey member.1, member)
      let texts ← (sortedBy Prod.fst decorated).mapM fun row =>
        encMember (row.1, row.2.1, f row.2)
      return text "\x7b" ++ commaSeparated texts ++ text "\x7d" := by
  have hdecorated : (members.map fun member => (member.1, f member)).mapM
      (fun member => do return (← sortKey member.1, member)) = do
        let decorated ← members.mapM fun member => do return (← sortKey member.1, member)
        return decorated.map fun row => (row.1, row.2.1, f row.2) := by
    induction members with
    | nil => rfl
    | cons member members ih =>
        rw [List.map_cons, List.mapM_cons, List.mapM_cons, ih]
        simp only [bind_assoc, pure_bind, List.map_cons]
  have hsorted : ∀ decorated : List (Bytes × Key × B),
      sortedBy Prod.fst (decorated.map fun row => (row.1, row.2.1, f row.2)) =
        (sortedBy Prod.fst decorated).map fun row => (row.1, row.2.1, f row.2) := fun decorated =>
    (map_sortedBy Prod.fst Prod.fst (fun row => (row.1, row.2.1, f row.2)) decorated
      fun _ _ _ _ => Iff.rfl).symm
  rw [encDict, hdecorated]
  simp only [bind_assoc, pure_bind, hsorted, List.mapM_map, Function.comp_def]

end CutOff

/-- The stack does nothing but cut the encoding off. -/
theorem cutOff_encWithin (full : StackLimit) (v : PyValue) (depth : ℕ) :
    CutOff (encWithin full v depth) (enc v) := by
  induction v using Tree.induct generalizing depth with
  | leaf x =>
      rw [encWithin_leaf, enc_leaf]
      exact CutOff.unlessFull (.inl rfl) _
  | list items ih =>
      rw [encWithin_list, enc_list, encList, encList, List.mapM_map, List.mapM_map]
      refine CutOff.unlessFull (CutOff.bind (cutOff_mapM ?_) fun _ _ => .inl rfl) _
      exact fun item hitem => ih item hitem (depth + 1)
  | dict members ih =>
      rw [encWithin_dict, enc_dict, encDict_map members fun member => enc member.2,
        encDict_map members fun member => unlessFull (full (depth + 1) (some (keyAtom member.1)))
          (encWithin full member.2 (depth + 1))]
      refine CutOff.unlessFull (CutOff.bind (.inl rfl) fun decorated hdecorated =>
        CutOff.bind (cutOff_mapM fun row hrow => ?_) fun _ _ => .inl rfl) _
      obtain ⟨member, hmember, hrow⟩ :=
        exists_of_mem_right (mapM_eq_ok_iff.mp hdecorated) (mem_sortedBy.mp hrow)
      obtain ⟨key, -, hrow⟩ := bind_eq_ok_iff.mp hrow
      obtain rfl := Except.ok.inj hrow
      exact CutOff.bind ((ih member hmember (depth + 1)).unlessFull _) fun _ _ => .inl rfl

theorem cutOff_jcsWithin (full : StackLimit) (v : PyValue) : CutOff (jcsWithin full v) (jcs v) :=
  (cutOff_encWithin full v 0).bind fun _ _ => .inl rfl

end TraigentSchema.LabelsReference
