import TraigentSchema.ExampleIdentity.StrictJson
import TraigentSchema.Fp2.Injective
import TraigentSchema.Fp2.Utf8Form
import TraigentSchema.Library.Utf8Decoding
import TraigentSchema.Python.JsonDecoder

/-!
# Canonical text is a fixed point of strict parsing

The canonical text of an admitted value is read back by the strict decoder.  What comes back need
not be the value: an integral float comes back as an `int`, and members in the order of the text.
But it is the same JSON value and admitted too, and so it has the same canonical text.
-/

namespace TraigentSchema.ExampleIdentity

open TraigentSchema.Binary64
open TraigentSchema.Decimal (naturalValue naturalValue_decimalText)
open TraigentSchema.Fp2
open TraigentSchema.JsonNumber
open TraigentSchema.JsonReading
open TraigentSchema.JsonText (Scalar Document)
open TraigentSchema.Python
open TraigentSchema.SortedBy
open TraigentSchema.Traverse
open TraigentSchema.Unicode

/-! ## Literals -/

theorem literal_eq_of_text {literal literal' : NumberLiteral}
    (htext : literal.text = literal'.text) : literal = literal' := by
  have hread := readNumber_append literal endsNumber_nil
  rw [htext, readNumber_append literal' endsNumber_nil, Option.some.injEq, Prod.mk.injEq] at hread
  exact hread.1.symm

/-- The `int` of an integer literal. -/
def integerValue (literal : NumberLiteral) : ℤ :=
  if literal.negative then -(naturalValue literal.integer : ℤ) else naturalValue literal.integer

theorem integerValue_integerLiteral (value : ℤ) : integerValue (integerLiteral value) = value := by
  by_cases hneg : value < 0
  · simp only [integerValue, integerLiteral, hneg, decide_true, if_true,
      naturalValue_decimalText]
    omega
  · simp only [integerValue, integerLiteral, hneg, decide_false, Bool.false_eq_true, if_false,
      naturalValue_decimalText]
    omega

section Literals

variable {float : FloatRepr} {negative : Bool} {m : Magnitude}

/-- An integer literal that a float within the safe integers is written as denotes it. -/
theorem value_of_isInteger (hsafe : m.value ≤ maxSafeInteger)
    (hinteger : (floatLiteral float negative m).IsInteger) :
    m.value = naturalValue (floatLiteral float negative m).integer := by
  have hnearest := floatLiteral_nearest float negative m
  rw [NumberLiteral.magnitude_of_isInteger hinteger] at hnearest
  apply value_of_nearest_natCast _ hnearest
  by_contra hlarge
  obtain ⟨a, ha⟩ := exists_magnitude_natCast (le_refl (2 ^ 53))
  have hle : a.value ≤ (naturalValue (floatLiteral float negative m).integer : ℚ) := by
    rw [ha]
    exact_mod_cast (Nat.lt_of_not_le hlarge).le
  have hbound := (le_nearest hnearest hle).trans hsafe
  rw [ha, Nat.cast_le, maxSafeInteger] at hbound
  omega

/-- A literal with a fraction or an exponent is below the safe-integer bound where its float is. -/
theorem magnitude_le_of_not_isInteger (hsafe : m.value ≤ maxSafeInteger)
    (hinteger : ¬(floatLiteral float negative m).IsInteger) :
    (floatLiteral float negative m).magnitude ≤ maxSafeInteger := by
  by_contra hlarge
  obtain ⟨a, ha⟩ := exists_magnitude_natCast (show maxSafeInteger ≤ 2 ^ 53 by decide)
  have hle := le_nearest (floatLiteral_nearest float negative m)
    (ha.le.trans (lt_of_not_ge hlarge).le)
  have hvalue : m.value = maxSafeInteger := le_antisymm hsafe (ha ▸ hle)
  have hsigned : floatValue negative m =
      ((if negative then -(maxSafeInteger : ℤ) else maxSafeInteger : ℤ) : ℚ) := by
    rw [floatValue, hvalue]
    split_ifs <;> simp
  have htext := ecmascriptNumberToString_of_integer float (by split_ifs <;> simp) hsigned
  rw [← floatLiteral_text, ← integerLiteral_text] at htext
  rw [literal_eq_of_text htext] at hinteger
  exact hinteger (integerLiteral_isInteger _)

end Literals

/-! ## Decoders -/

/-- A decoder that keeps the numbers within the safe integers and the objects without repeated
keys. -/
structure Faithful {E : Type} (hooks : DecoderHooks E) : Prop where
  parseInt : ∀ literal : NumberLiteral, literal.IsInteger →
    naturalValue literal.integer ≤ maxSafeInteger →
      hooks.parseInt literal = .ok (.leaf (.int (integerValue literal)))
  parseFloat : ∀ (literal : NumberLiteral) (m : Magnitude), ¬literal.IsInteger →
    literal.magnitude ≤ maxSafeInteger → nearest literal.magnitude = some m → m ≠ .zero →
      hooks.parseFloat literal = .ok (.leaf (.float (.finite literal.negative m)))
  objectPairs : ∀ pairs : List (Text × PyValue), (pairs.map Prod.fst).Nodup →
    hooks.objectPairs pairs = .ok (.dict (pairs.map fun pair => (.str pair.1, pair.2)))

/-- What comes back for a value. -/
structure Rereads (v w : PyValue) : Prop where
  jsonValue : jsonValue w = jsonValue v
  strict : Strict w
  wellFormed : w.WellFormed
  nesting : ∀ n, v.nesting ≤ n → w.nesting ≤ n

section Reread

variable {E : Type} {hooks : DecoderHooks E} {float : FloatRepr}

/-- The `int` of an integer literal that a float is written as. -/
theorem integerValue_floatLiteral {negative : Bool} {m : Magnitude}
    (hvalue : m.value = naturalValue (floatLiteral float negative m).integer) :
    (integerValue (floatLiteral float negative m) : ℚ) = floatValue negative m := by
  have hcast : (integerValue (floatLiteral float negative m) : ℚ) =
      if (floatLiteral float negative m).negative then -m.value else m.value := by
    rw [integerValue, hvalue]
    split_ifs <;> simp
  by_cases hm : m = .zero
  · subst hm
    rw [hcast, floatValue_eq_zero_iff.mpr rfl, Magnitude.value_zero]
    split_ifs <;> simp
  · rw [hcast, floatLiteral_negative float hm, floatValue]

/-- A float comes back as the number it is. -/
theorem exists_scalar_float (hfaithful : Faithful hooks) {negative : Bool} {m : Magnitude}
    (hsafe : m.value ≤ maxSafeInteger) :
    ∃ y, hooks.scalar (.number (floatLiteral float negative m)) = .ok (.leaf y) ∧
      jsonAtom y = .num (floatValue negative m) ∧ StrictAtom y := by
  by_cases hinteger : (floatLiteral float negative m).IsInteger
  · have hvalue := value_of_isInteger hsafe hinteger
    have hle : naturalValue (floatLiteral float negative m).integer ≤ maxSafeInteger := by
      rw [hvalue] at hsafe
      exact_mod_cast hsafe
    refine ⟨.int (integerValue (floatLiteral float negative m)), ?_, ?_, ?_, trivial⟩
    · rw [DecoderHooks.scalar, if_pos hinteger, hfaithful.parseInt _ hinteger hle]
    · rw [jsonAtom, integerValue_floatLiteral hvalue]
    · rw [SupportedAtom, integerValue]
      split_ifs <;> simpa using hle
  · have hm : m ≠ .zero := by
      rintro rfl
      exact hinteger (by simp [floatLiteral, integerLiteral_isInteger])
    refine ⟨.float (.finite negative m), ?_, rfl, trivial, ?_⟩
    · rw [DecoderHooks.scalar, if_neg hinteger, hfaithful.parseFloat _ m hinteger
        (magnitude_le_of_not_isInteger hsafe hinteger) (floatLiteral_nearest _ _ _) hm,
        floatLiteral_negative float hm]
    · simpa [SafeAtom, beyondSafe] using hsafe

theorem exists_scalar (hfaithful : Faithful hooks) {x : Atom} (hx : StrictAtom x) :
    ∃ y, hooks.scalar (canonicalScalar float x) = .ok (.leaf y) ∧ jsonAtom y = jsonAtom x ∧
      StrictAtom y := by
  cases x with
  | none => exact ⟨.none, rfl, rfl, hx⟩
  | bool b => exact ⟨.bool b, rfl, rfl, hx⟩
  | str s => exact ⟨.str s, rfl, rfl, hx⟩
  | foreign o => exact absurd hx.1 (by simp [SupportedAtom])
  | int value =>
      refine ⟨.int value, ?_, rfl, hx⟩
      rw [canonicalScalar, DecoderHooks.scalar, if_pos (integerLiteral_isInteger value),
        hfaithful.parseInt _ (integerLiteral_isInteger value), integerValue_integerLiteral]
      rw [integerLiteral, naturalValue_decimalText]
      exact hx.1
  | float value =>
      cases value with
      | nan => exact absurd hx.1 (by simp [SupportedAtom])
      | infinity _ => exact absurd hx.1 (by simp [SupportedAtom])
      | finite negative m =>
          have hsafe : m.value ≤ maxSafeInteger := by
            simpa [SafeAtom, beyondSafe] using hx.2
          exact exists_scalar_float hfaithful hsafe

/-! ## Documents -/

theorem nesting_canonicalDocument (v : PyValue) {n : ℕ} (hn : v.nesting ≤ n) :
    (canonicalDocument float v).nesting ≤ n := by
  induction v using Tree.induct generalizing n with
  | leaf x => simp
  | list items ih =>
      cases n with
      | zero => exact absurd hn (Nat.not_le.mpr (Tree.nesting_list_pos items))
      | succ n =>
          rw [Tree.nesting_list_le_iff] at hn
          rw [canonicalDocument_list, Tree.nesting_list_le_iff, List.forall_mem_map]
          exact fun item hitem => ih item hitem (hn item hitem)
  | dict members ih =>
      cases n with
      | zero => exact absurd hn (Nat.not_le.mpr (Tree.nesting_dict_pos members))
      | succ n =>
          rw [Tree.nesting_dict_le_iff] at hn
          rw [canonicalDocument_dict, Tree.nesting_dict_le_iff, List.forall_mem_map]
          intro member hmember
          have hmem := mem_orderedMembers.mp hmember
          exact ih member hmem (hn member hmem)

theorem Rereads.leaf {x y : Atom} (hvalue : jsonAtom y = jsonAtom x) (hstrict : StrictAtom y) :
    Rereads (.leaf x) (.leaf y) where
  jsonValue := by simpa using hvalue
  strict := (Tree.admits_leaf y).mpr hstrict
  wellFormed := Tree.wellFormed_leaf y
  nesting _ _ := by simp

theorem Rereads.list {items values : List PyValue} (hvalues : List.Forall₂ Rereads items values) :
    Rereads (.list items) (.list values) where
  jsonValue := by
    rw [jsonValue_list, jsonValue_list, JsonValue.arr.injEq, map_eq_map_iff_forall₂]
    exact hvalues.flip.imp fun _ _ hreads => hreads.jsonValue
  strict := by
    rw [Strict, Tree.admits_list]
    intro value hvalue
    obtain ⟨item, -, hreads⟩ := exists_of_mem_right hvalues hvalue
    exact hreads.strict
  wellFormed := by
    rw [Tree.wellFormed_list]
    intro value hvalue
    obtain ⟨item, -, hreads⟩ := exists_of_mem_right hvalues hvalue
    exact hreads.wellFormed
  nesting n hn := by
    cases n with
    | zero => exact absurd hn (Nat.not_le.mpr (Tree.nesting_list_pos items))
    | succ n =>
        rw [Tree.nesting_list_le_iff] at hn ⊢
        intro value hvalue
        obtain ⟨item, hitem, hreads⟩ := exists_of_mem_right hvalues hvalue
        exact hreads.nesting n (hn item hitem)

/-- A member and what comes back for it. -/
structure MemberRereads (member : Key × PyValue) (pair : Text × PyValue) : Prop where
  key : pair.1 = keyText member.1
  value : Rereads member.2 pair.2

theorem Rereads.dict {members : List (Key × PyValue)} {pairs : List (Text × PyValue)}
    (hformed : (Tree.dict members : PyValue).WellFormed)
    (hplain : ∀ member ∈ members, PlainKey member.1)
    (hpairs : List.Forall₂ MemberRereads (orderedMembers members) pairs) :
    (pairs.map Prod.fst).Nodup ∧
      Rereads (.dict members) (.dict (pairs.map fun pair => (.str pair.1, pair.2))) := by
  have hperm : (orderedMembers members).Perm members := sortedBy_perm _ _
  have hmember : ∀ member ∈ orderedMembers members, PlainKey member.1 := fun member hmem =>
    hplain member (mem_orderedMembers.mp hmem)
  have hjson : jsonMembers (pairs.map fun pair => (Key.str pair.1, pair.2)) =
      jsonMembers (orderedMembers members) := by
    rw [jsonMembers, jsonMembers, List.map_map, map_eq_map_iff_forall₂]
    exact hpairs.flip.imp fun pair member hreads =>
      Prod.ext hreads.key hreads.value.jsonValue
  have hnodup := nodup_jsonMembers ((Tree.wellFormed_dict members).mp hformed).1 hplain
  have hkeys : pairs.map Prod.fst = (jsonMembers (orderedMembers members)).map Prod.fst := by
    rw [← hjson, jsonMembers, List.map_map, List.map_map]
    rfl
  have hkeysNodup : (pairs.map Prod.fst).Nodup := by
    rw [hkeys]
    exact ((hperm.map _).map Prod.fst).nodup_iff.mpr hnodup
  refine ⟨hkeysNodup, ?_, ?_, ?_, ?_⟩
  · rw [jsonValue_dict, jsonValue_dict, hjson]
    exact (objectValue_eq_of_perm hnodup (hperm.symm.map _)).symm
  · rw [Strict, Tree.admits_dict, List.forall_mem_map]
    intro pair hpair
    obtain ⟨member, hmem, hreads⟩ := exists_of_mem_right hpairs hpair
    have hkey := hmember member hmem
    refine ⟨?_, hreads.value.strict⟩
    rw [hreads.key]
    cases hcase : member.1 with
    | str s => rwa [hcase] at hkey
    | foreign o =>
        rw [hcase] at hkey
        exact hkey.elim
  · rw [Tree.wellFormed_dict, List.forall_mem_map, List.map_map]
    constructor
    · have hinjective : Function.Injective Key.str := fun _ _ => Key.str.inj
      have hstr := hkeysNodup.map hinjective
      rwa [List.map_map] at hstr
    · intro pair hpair
      obtain ⟨member, -, hreads⟩ := exists_of_mem_right hpairs hpair
      exact hreads.value.wellFormed
  · intro n hn
    cases n with
    | zero => exact absurd hn (Nat.not_le.mpr (Tree.nesting_dict_pos members))
    | succ n =>
        rw [Tree.nesting_dict_le_iff] at hn ⊢
        rw [List.forall_mem_map]
        intro pair hpair
        obtain ⟨member, hmem, hreads⟩ := exists_of_mem_right hpairs hpair
        exact hreads.value.nesting n (hn member (mem_orderedMembers.mp hmem))

/-- The canonical document of an admitted value is read back. -/
theorem exists_evaluate (hfaithful : Faithful hooks) {v : PyValue} (hstrict : Strict v)
    (hformed : v.WellFormed) :
    ∃ w, hooks.evaluate (canonicalDocument float v) = .ok w ∧ Rereads v w := by
  induction v using Tree.induct with
  | leaf x =>
      obtain ⟨y, hscalar, hvalue, hy⟩ :=
        exists_scalar hfaithful ((Tree.admits_leaf x).mp hstrict)
      exact ⟨.leaf y, by rw [canonicalDocument_leaf, DecoderHooks.evaluate_leaf, hscalar],
        .leaf hvalue hy⟩
  | list items ih =>
      rw [Strict, Tree.admits_list] at hstrict
      rw [Tree.wellFormed_list] at hformed
      obtain ⟨values, hvalues⟩ := forall₂_of_forall_exists fun item hitem =>
        ih item hitem (hstrict item hitem) (hformed item hitem)
      refine ⟨.list values, ?_, .list (hvalues.imp fun _ _ hvalue => hvalue.2)⟩
      have hmap : ((items.map (canonicalDocument float)).map hooks.evaluate).mapM id =
          .ok values := by
        rw [mapM_eq_ok_iff, List.map_map, List.forall₂_map_left_iff]
        exact hvalues.imp fun _ _ hvalue => hvalue.1
      rw [canonicalDocument_list, DecoderHooks.evaluate_list, DecoderHooks.array, hmap]
      rfl
  | dict members ih =>
      have hmembers := (Tree.admits_dict members).mp hstrict
      have hvalues := ((Tree.wellFormed_dict members).mp hformed).2
      obtain ⟨pairs, hpairs⟩ : ∃ pairs : List (Text × PyValue),
          List.Forall₂ (fun member pair =>
            (hooks.evaluate (canonicalDocument float member.2)).map
              (Prod.mk (keyText member.1)) = .ok pair ∧ MemberRereads member pair)
            (orderedMembers members) pairs := by
        refine forall₂_of_forall_exists fun member hmem => ?_
        have hmember := mem_orderedMembers.mp hmem
        obtain ⟨w, hw, hreads⟩ :=
          ih member hmember (hmembers member hmember).2 (hvalues member hmember)
        exact ⟨(keyText member.1, w), by rw [hw]; rfl, rfl, hreads⟩
      obtain ⟨hnodup, hreads⟩ := Rereads.dict hformed (fun member hmem => (hmembers member hmem).1)
        (hpairs.imp fun _ _ hpair => hpair.2)
      refine ⟨_, ?_, hreads⟩
      have hmap : ((orderedMembers members).map fun member =>
          (keyText member.1, hooks.evaluate (canonicalDocument float member.2))).mapM
            (fun member => member.2.map (Prod.mk member.1)) = .ok pairs := by
        rw [mapM_eq_ok_iff, List.forall₂_map_left_iff]
        exact hpairs.imp fun _ _ hpair => hpair.1
      rw [canonicalDocument_dict, DecoderHooks.evaluate_dict, List.map_map, DecoderHooks.object]
      exact (congrArg (· >>= hooks.objectPairs) hmap).trans (hfaithful.objectPairs pairs hnodup)

end Reread

/-! ## The strict decoder -/

/-- `Decimal` accepts the literals that round to a double other than zero. -/
def AcceptsDoubles (decimalAccepts : NumberLiteral → Bool) : Prop :=
  ∀ (literal : NumberLiteral) (m : Magnitude), nearest literal.magnitude = some m → m ≠ .zero →
    decimalAccepts literal = true

/-- The hooks of `parse_strict_json`. -/
def strictHooks (decimalAccepts : NumberLiteral → Bool) : DecoderHooks DecodeError where
  parseInt := parseInt
  parseFloat := parseFloat decimalAccepts
  parseConstant := rejectConstant
  objectPairs pairs := do
    let result ← pairsWithoutDuplicates pairs
    return .dict (result.map fun pair => (.str pair.1, pair.2))

section Strict

variable {decimalAccepts : NumberLiteral → Bool}

theorem evaluate_eq (document : Document) :
    evaluate decimalAccepts document = (strictHooks decimalAccepts).evaluate document := by
  have hscalar : scalarHook decimalAccepts = (strictHooks decimalAccepts).scalar := by
    funext x
    cases x <;> rfl
  rw [evaluate, DecoderHooks.evaluate, hscalar]
  rfl

theorem pairsWithoutDuplicates_of_nodup {V : Type} {pairs : List (Text × V)}
    (hnodup : (pairs.map Prod.fst).Nodup) : pairsWithoutDuplicates pairs = .ok pairs := by
  have hloop : ∀ pairs result : List (Text × V), ((result ++ pairs).map Prod.fst).Nodup →
      pairs.foldlM addPair result = .ok (result ++ pairs) := by
    intro pairs
    induction pairs with
    | nil =>
        intro result _
        rw [List.append_nil]
        rfl
    | cons pair pairs ih =>
        intro result hkeys
        have hnew : ¬(result.any fun other => other.1 == pair.1) = true := by
          intro hany
          obtain ⟨other, hother, hsame⟩ := List.any_eq_true.mp hany
          rw [List.map_append, List.map_cons, List.nodup_append] at hkeys
          exact hkeys.2.2 _ (List.mem_map_of_mem hother) _ List.mem_cons_self
            (beq_iff_eq.mp hsame)
        have hnext := ih (result ++ [pair])
        rw [List.append_assoc, List.singleton_append] at hnext
        rw [List.foldlM_cons, addPair, if_neg hnew, ok_bind, hnext hkeys]
  exact hloop pairs [] hnodup

theorem faithful_strictHooks (haccepts : AcceptsDoubles decimalAccepts) :
    Faithful (strictHooks decimalAccepts) where
  parseInt literal hinteger hle := by
    have hshort : ¬Invariants.maxStrDigits < literal.integer.length := fun hlong =>
      absurd (maxSafeInteger_lt_of_length hlong) (Nat.not_lt.mpr hle)
    have hparse : parseInt literal = .ok (.leaf (.int (integerValue literal))) := by
      rw [parseInt, if_neg hshort]
      exact if_neg (Nat.not_lt.mpr hle)
    exact hparse
  parseFloat literal m hinteger hle hnearest hm := by
    have hparse : parseFloat decimalAccepts literal =
        .ok (.leaf (.float (.finite literal.negative m))) := by
      rw [parseFloat, haccepts literal m hnearest hm, if_neg (by simp),
        if_neg (not_lt.mpr hle), floatOfLiteral, hnearest]
    exact hparse
  objectPairs pairs hnodup := by
    have hpairs : (strictHooks decimalAccepts).objectPairs pairs =
        (pairsWithoutDuplicates pairs >>= fun result =>
          .ok (.dict (result.map fun pair => (.str pair.1, pair.2)))) := rfl
    rw [hpairs, pairsWithoutDuplicates_of_nodup hnodup, ok_bind]

end Strict

/-! ## Reading back -/

theorem denotes_of_parse {s : Text} {document : Document}
    (hparse : JsonText.parse s = some document) : JsonText.Denotes s document := by
  obtain ⟨⟨found, rest⟩, hvalue, hrest⟩ := Option.bind_eq_some_iff.mp hparse
  obtain ⟨hspace, hfound⟩ := Option.ite_none_right_eq_some.mp hrest
  rw [Option.some.inj hfound] at hvalue
  exact ⟨_, rest, hvalue, hspace⟩

theorem scan_canonicalText (float : FloatRepr) {v : PyValue} {limit : ℕ} (hstrict : Strict v)
    (hnesting : v.nesting ≤ limit) :
    JsonText.scan limit (canonicalText float v) = .ok (canonicalDocument float v) :=
  JsonText.scan_eq_ok_iff.mpr
    ⟨denotes_of_parse (parse_canonicalText float (strict_iff.mp hstrict).1),
      nesting_canonicalDocument v hnesting⟩

section FixedPoint

variable {float : FloatRepr} {v w : PyValue}

theorem Rereads.canonicalText_eq (hreads : Rereads v w) (hstrict : Strict v)
    (hformed : v.WellFormed) : canonicalText float w = canonicalText float v :=
  canonicalText_eq_of_jsonValue_eq float (strict_iff.mp hreads.strict).1 (strict_iff.mp hstrict).1
    hreads.wellFormed hformed hreads.jsonValue

/-- What comes back has the bytes it was read from, wherever it is stored. -/
theorem Rereads.canonicalBytes_eq {B : Type} [DecidableEq B] {h : Heap B} {r : Ref B}
    (hreads : Rereads v w) (hstrict : Strict v) (hformed : v.WellFormed)
    (hnesting : v.nesting ≤ maxDepth) (hstored : Unfolds h r w) :
    canonicalBytes float h r = .ok (utf8 (canonicalText float v)) := by
  rw [canonicalBytes_of_unfolds hstored (hreads.nesting _ hnesting) hreads.strict,
    hreads.canonicalText_eq hstrict hformed]

theorem exists_parseStrictJson {decimalAccepts : NumberLiteral → Bool} {limit : ℕ}
    (haccepts : AcceptsDoubles decimalAccepts) (hstrict : Strict v) (hformed : v.WellFormed)
    (hnesting : v.nesting ≤ limit) :
    ∃ w, parseStrictJson decimalAccepts limit (canonicalText float v) = .ok w ∧ Rereads v w := by
  obtain ⟨w, hw, hreads⟩ :=
    @exists_evaluate _ _ float (faithful_strictHooks haccepts) v hstrict hformed
  refine ⟨w, ?_, hreads⟩
  rw [parseStrictJson, jsonLoads, scan_canonicalText float hstrict hnesting]
  simp only [evaluate_eq, hw]

end FixedPoint

end TraigentSchema.ExampleIdentity
