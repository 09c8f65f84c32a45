import TraigentSchema.Certification.Verification

/-!
# Documents that pass the strict walk

Before a verifier canonicalizes anything, it walks through the whole bundle and
refuses floats, unsafe integers, keys and strings without an encoding and deep
nesting.  A bundle is a tree here, so that the walk's check for a container inside
itself has nothing to find.
-/

namespace TraigentSchema.Certification

open TraigentSchema.Unicode
open TraigentSchema.Fp2
open TraigentSchema.Hashing
open TraigentSchema.Python
open TraigentSchema.Traverse

/-! ## Documents -/

/-- A tree over admitted leaves and encodable keys, none of them twice in a dict,
nested at most `depth` deep. -/
structure Document (leafOk : Atom → Prop) (depth : ℕ) (v : PyValue) : Prop where
  admits : v.Admits leafOk PlainKey
  nesting : v.nesting ≤ depth
  wellFormed : v.WellFormed

section Documents

variable {leafOk leafOk' : Atom → Prop} {d d' : ℕ} {v : PyValue}

/-- A document stays one at a greater depth and under a weaker condition on its leaves. -/
theorem Document.mono (hv : Document leafOk d v) (hdepth : d ≤ d')
    (hleaf : ∀ x, leafOk x → leafOk' x) : Document leafOk' d' v where
  admits := hv.admits.imp hleaf fun _ hk => hk
  nesting := hv.nesting.trans hdepth
  wellFormed := hv.wellFormed

theorem document_leaf {x : Atom} (hx : leafOk x) : Document leafOk d (.leaf x) where
  admits := (Tree.admits_leaf x).mpr hx
  nesting := by simp
  wellFormed := Tree.wellFormed_leaf x

/-- A list is one level deeper than its items. -/
theorem document_list {items : List PyValue}
    (hitems : ∀ item ∈ items, Document leafOk d item) :
    Document leafOk (d + 1) (.list items) where
  admits := (Tree.admits_list items).mpr fun item hitem => (hitems item hitem).admits
  nesting := (Tree.nesting_list_le_iff items d).mpr fun item hitem =>
    (hitems item hitem).nesting
  wellFormed := (Tree.wellFormed_list items).mpr fun item hitem =>
    (hitems item hitem).wellFormed

/-- A digest is written in ASCII. -/
theorem encodable_sha256Text (platform : Platform) (material : Bytes) :
    Encodable (sha256Text platform material) :=
  (encodable_append _ _).mpr
    ⟨encodable_text _, encodable_hexDigits (hexDigits_hex _)⟩

theorem document_str (literal : String) : Document PlainAtom d (.str literal) :=
  document_leaf (encodable_text literal)

theorem document_text {s : Text} (hs : Encodable s) :
    Document PlainAtom d (.leaf (.str s)) :=
  document_leaf hs

theorem document_int {i : ℤ} (hi : i.natAbs ≤ maxSafeInteger) :
    Document PlainAtom d (.leaf (.int i)) :=
  document_leaf hi

theorem document_list_map {A : Type} {entries : List A} {f : A → PyValue}
    (hentries : ∀ entry ∈ entries, Document leafOk d (f entry)) :
    Document leafOk (d + 1) (.list (entries.map f)) := by
  apply document_list
  intro item hitem
  obtain ⟨entry, hentry, rfl⟩ := List.mem_map.mp hitem
  exact hentries entry hentry

/-- An object with different names is one level deeper than its values. -/
theorem document_object {rows : List (String × PyValue)} (hnodup : (rows.map Prod.fst).Nodup)
    (hrows : ∀ row ∈ rows, Document leafOk d row.2) :
    Document leafOk (d + 1) (PyValue.object rows) where
  admits := by
    apply (Tree.admits_dict _).mpr
    intro member hmember
    obtain ⟨row, hrow, rfl⟩ := List.mem_map.mp hmember
    exact ⟨encodable_text row.1, (hrows row hrow).admits⟩
  nesting := by
    apply (Tree.nesting_dict_le_iff _ d).mpr
    intro member hmember
    obtain ⟨row, hrow, rfl⟩ := List.mem_map.mp hmember
    exact (hrows row hrow).nesting
  wellFormed := by
    apply (Tree.wellFormed_dict _).mpr
    constructor
    · have hkeys : (rows.map fun row => (Key.str (text row.1), row.2)).map Prod.fst =
          (rows.map Prod.fst).map fun name => Key.str (text name) := by
        simp [List.map_map]
      rw [hkeys]
      apply hnodup.map
      intro left right heq
      exact text_injective (Key.str.inj heq)
    · intro member hmember
      obtain ⟨row, hrow, rfl⟩ := List.mem_map.mp hmember
      exact (hrows row hrow).wellFormed

/-- A document has a canonical text: no surrogate and no repeated key stands in it. -/
theorem Document.hasCanonicalText (hv : Document SupportedAtom d v) :
    HasCanonicalText v :=
  ⟨hv.admits, hv.wellFormed⟩

/-- Up to the depth limit a document is accepted by the canonicalizer. -/
theorem Document.canonicalizable (hv : Document SupportedAtom d v)
    (hdepth : d ≤ maxDepth) : Canonicalizable v :=
  ⟨hv.nesting.trans hdepth, hv.admits⟩

theorem Document.canonicalizable_of_plain (hv : Document PlainAtom d v)
    (hdepth : d ≤ maxDepth) : Canonicalizable v :=
  (hv.mono le_rfl fun _ hx => hx.supported).canonicalizable hdepth

end Documents

/-! ## Plain documents -/

/-- A tree of strings, safe integers and nulls without repeated keys: where Python's
equality is equality of canonical texts. -/
structure PlainDocument (v : PyValue) : Prop where
  plain : Plain v
  wellFormed : v.WellFormed

namespace PlainDocument

variable {v w : PyValue}

theorem hasCanonicalText (hv : PlainDocument v) : HasCanonicalText v :=
  ⟨hv.plain.supported, hv.wellFormed⟩

/-- A field of a plain document is one; where it is missing it is null. -/
theorem field (hv : PlainDocument v) (name : String) : PlainDocument (v.field name) := by
  unfold PyValue.field
  cases hmember : v.member name with
  | none => exact ⟨(Tree.admits_leaf _).mpr trivial, Tree.wellFormed_leaf _⟩
  | some w =>
      exact ⟨PyValue.admits_member hv.plain hmember,
        PyValue.wellFormed_member hv.wellFormed hmember⟩

/-- Without a float no value differs from itself. -/
theorem pyEq_self (hv : PlainDocument v) : pyEq v v = true :=
  (pyEq_iff_jsonValue_eq hv.plain hv.plain hv.wellFormed hv.wellFormed).mpr rfl

/-- Values that Python calls equal share their canonical text, where no float can interfere. -/
theorem agree (float : FloatRepr) (hv : PlainDocument v) (hw : PlainDocument w)
    (heq : pyEq v w = true) : Agree float v w :=
  (hv.hasCanonicalText.jsonValue_eq_iff float hw.hasCanonicalText).mpr
    ((pyEq_iff_jsonValue_eq hv.plain hw.plain hv.wellFormed hw.wellFormed).mp heq)

end PlainDocument

theorem Document.plain {depth : ℕ} {v : PyValue} (hv : Document PlainAtom depth v) :
    PlainDocument v :=
  ⟨hv.admits, hv.wellFormed⟩

/-! ## The walk -/

section Walk

variable (onBool : Checked Unit) (unsafeInteger strictInteger canonicalization : String)

/-- The outcome for a `bool` and the codes for the other leaves; every error is about
the bundle as a whole. -/
def walkAtom : Atom → Checked Unit
  | .bool _ => onBool
  | .int i => if maxSafeInteger < i.natAbs then fail unsafeInteger "bundle" else .ok ()
  | .float _ => fail strictInteger "bundle"
  | .str s => ensure (decide (Encodable s)) strictInteger "bundle"
  | .none => .ok ()
  | .foreign _ => .ok ()

/-- A key is walked like a string. -/
def walkKey : Key → Checked Unit
  | .str s => ensure (decide (Encodable s)) strictInteger "bundle"
  | .foreign _ => fail strictInteger "bundle"

def isStrKey : Key → Bool
  | .str _ => true
  | .foreign _ => false

/-- `_walk_strict_values`.  The work stack hands the children of a container out from
the last one to the first, a member's value before its key. -/
def walkStrictValues : PyValue → ℕ → Checked Unit :=
  Tree.fold (fun x _ => walkAtom onBool unsafeInteger strictInteger x)
    (fun items depth =>
      if maxDepth < depth then fail canonicalization "bundle"
      else forM items.reverse fun walk => walk (depth + 1))
    (fun members depth =>
      if maxDepth < depth then fail canonicalization "bundle"
      else do
        forM members fun member => ensure (isStrKey member.1) strictInteger "bundle"
        forM members.reverse fun member => do
          member.2 (depth + 1)
          walkKey strictInteger member.1)

theorem isStrKey_of_plain {key : Key} (hkey : PlainKey key) : isStrKey key = true := by
  cases key with
  | str s => rfl
  | foreign o => exact hkey.elim

/-- The leaves the walk lets through. -/
def WalkedAtom (x : Atom) : Prop :=
  walkAtom onBool unsafeInteger strictInteger x = .ok ()

/-- The walk accepts the keys that are plain texts. -/
@[simp]
theorem walkKey_eq_ok_iff {key : Key} {u : Unit} :
    walkKey strictInteger key = .ok u ↔ PlainKey key := by
  cases key <;> simp [walkKey, PlainKey]

/-- The walk visits the items of a list from the last one on. -/
theorem walkStrictValues_list (items : List PyValue) (depth : ℕ) :
    walkStrictValues onBool unsafeInteger strictInteger canonicalization (.list items) depth =
      if maxDepth < depth then fail canonicalization "bundle"
      else forM items.reverse fun item =>
        walkStrictValues onBool unsafeInteger strictInteger canonicalization item
          (depth + 1) := by
  simp [walkStrictValues, ← List.map_reverse, List.forM_map]

/-- The walk checks the keys of a dict before any of its values. -/
theorem walkStrictValues_dict (members : List (Key × PyValue)) (depth : ℕ) :
    walkStrictValues onBool unsafeInteger strictInteger canonicalization (.dict members)
        depth =
      if maxDepth < depth then fail canonicalization "bundle"
      else (do
        forM members fun member => ensure (isStrKey member.1) strictInteger "bundle"
        forM members.reverse fun member => do
          walkStrictValues onBool unsafeInteger strictInteger canonicalization member.2
            (depth + 1)
          walkKey strictInteger member.1) := by
  simp [walkStrictValues, ← List.map_reverse, List.forM_map]

/-- The walk accepts the trees over walked leaves and encodable keys that do not nest
too deep. -/
theorem walkStrictValues_eq_ok_iff (v : PyValue) (depth : ℕ) :
    walkStrictValues onBool unsafeInteger strictInteger canonicalization v depth = .ok () ↔
      v.Admits (WalkedAtom onBool unsafeInteger strictInteger) PlainKey ∧
        (v.nesting = 0 ∨ v.nesting + depth ≤ maxDepth + 1) := by
  induction v using Tree.induct generalizing depth with
  | leaf x => simp [walkStrictValues, WalkedAtom]
  | list items ih =>
      have hpos := Tree.nesting_list_pos items
      rw [walkStrictValues_list, Tree.admits_list]
      by_cases hdepth : maxDepth < depth
      · rw [if_pos hdepth]
        simp only [fail_ne_ok, false_iff, not_and, not_or]
        exact fun _ => ⟨by omega, by omega⟩
      · have hnesting := Tree.nesting_list_le_iff items (maxDepth - depth)
        rw [if_neg hdepth, forM_eq_ok_iff]
        simp only [List.mem_reverse]
        constructor
        · intro hitems
          have hall := fun item hitem => (ih item hitem (depth + 1)).mp (hitems item hitem)
          refine ⟨fun item hitem => (hall item hitem).1, Or.inr ?_⟩
          have hle := hnesting.mpr fun item hitem => by
            have hitemNesting := (hall item hitem).2
            omega
          omega
        · rintro ⟨hadmits, hle⟩ item hitem
          apply (ih item hitem (depth + 1)).mpr
          have hitemNesting := hnesting.mp (by omega) item hitem
          exact ⟨hadmits item hitem, by omega⟩
  | dict members ih =>
      have hpos := Tree.nesting_dict_pos members
      rw [walkStrictValues_dict, Tree.admits_dict]
      by_cases hdepth : maxDepth < depth
      · rw [if_pos hdepth]
        simp only [fail_ne_ok, false_iff, not_and, not_or]
        exact fun _ => ⟨by omega, by omega⟩
      · have hnesting := Tree.nesting_dict_le_iff members (maxDepth - depth)
        rw [if_neg hdepth, bind_eq_ok_iff]
        simp only [forM_eq_ok_iff, List.mem_reverse, bind_eq_ok_iff, walkKey_eq_ok_iff,
          ensure_eq_ok_iff]
        constructor
        · rintro ⟨-, -, hmembers⟩
          have hall : ∀ member ∈ members,
              (member.2.Admits (WalkedAtom onBool unsafeInteger strictInteger) PlainKey ∧
                (member.2.nesting = 0 ∨ member.2.nesting + (depth + 1) ≤ maxDepth + 1)) ∧
              PlainKey member.1 := by
            intro member hmember
            obtain ⟨_, hvalue, hkey⟩ := hmembers member hmember
            exact ⟨(ih member hmember (depth + 1)).mp hvalue, hkey⟩
          refine ⟨fun member hmember => ⟨(hall member hmember).2, (hall member hmember).1.1⟩,
            Or.inr ?_⟩
          have hle := hnesting.mpr fun member hmember => by
            have hvalueNesting := (hall member hmember).1.2
            omega
          omega
        · rintro ⟨hadmits, hle⟩
          refine ⟨(), fun member hmember => isStrKey_of_plain (hadmits member hmember).1,
            fun member hmember => ⟨(), ?_, (hadmits member hmember).1⟩⟩
          apply (ih member hmember (depth + 1)).mpr
          have hvalueNesting := hnesting.mp (by omega) member hmember
          exact ⟨(hadmits member hmember).2, by omega⟩

end Walk

/-! ## Documents of a closed schema -/

/-- Strings, numbers and nulls, as a parser returns them: a schema that types every
leaf and asks for no boolean accepts nothing else. -/
structure Typed (v : PyValue) : Prop where
  unmixed : Unmixed v
  wellFormed : v.WellFormed

/-- A document without floats has the types the checks expect. -/
theorem Document.typed {depth : ℕ} {v : PyValue} (hv : Document PlainAtom depth v) :
    Typed v where
  unmixed := hv.admits.imp (fun _ hx => hx.unmixed) (fun _ hk => hk)
  wellFormed := hv.wellFormed

namespace Typed

variable {v w : PyValue} {name : String}

theorem hasCanonicalText (hv : Typed v) : HasCanonicalText v where
  supported := hv.unmixed.supported
  wellFormed := hv.wellFormed

theorem none : Typed (.leaf .none) where
  unmixed := (Tree.admits_leaf _).mpr trivial
  wellFormed := Tree.wellFormed_leaf _

theorem member (hv : Typed v) (hmember : v.member name = some w) : Typed w where
  unmixed := PyValue.admits_member hv.unmixed hmember
  wellFormed := PyValue.wellFormed_member hv.wellFormed hmember

theorem field (hv : Typed v) : Typed (v.field name) := by
  unfold PyValue.field
  cases hmember : v.member name with
  | none => exact .none
  | some w => exact hv.member hmember

/-- What is left of a typed dict is typed. -/
theorem erase (hv : Typed v) : Typed (v.erase name) where
  unmixed := PyValue.admits_erase hv.unmixed
  wellFormed := PyValue.wellFormed_erase hv.wellFormed

/-- A typed dict stays typed under a typed member. -/
theorem assign (hv : Typed v) (hw : Typed w) : Typed (v.assign name w) where
  unmixed := PyValue.admits_assign (encodable_text name) hv.unmixed hw.unmixed
  wellFormed := PyValue.wellFormed_assign hv.wellFormed hw.wellFormed

theorem item {items : List PyValue} (hv : Typed (.list items)) (hw : w ∈ items) :
    Typed w where
  unmixed := (Tree.admits_list items).mp hv.unmixed w hw
  wellFormed := (Tree.wellFormed_list items).mp hv.wellFormed w hw

/-- What is equal agrees. -/
theorem agree {float : FloatRepr} (hv : Typed v) (hw : Typed w) (heq : pyEq v w = true) :
    Agree float v w :=
  (hv.hasCanonicalText.jsonValue_eq_iff float hw.hasCanonicalText).mpr
    ((pyEq_iff_jsonValue_eq_of_unmixed hv.unmixed hw.unmixed hv.wellFormed
      hw.wellFormed).mp heq)

end Typed

end TraigentSchema.Certification
