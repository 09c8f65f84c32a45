import TraigentSchema.Library.GraphWalk
import TraigentSchema.Fp2.Acceptance

/-!
# The strict walk of the evaluator-quality verifier

Before anything else the verifier walks through the objects it is given, whatever they
are, and refuses floats, unsafe integers, keys and strings without an encoding, deep
nesting and containers inside themselves.  Instances of subclasses of the built-in types
pass on purpose, so that their own methods run: what such a method raises, the walk
raises.  On objects of exact JSON types the walk and fp2 judge alike, floats apart.
-/

namespace TraigentSchema.EvaluatorQuality

open TraigentSchema.Unicode
open TraigentSchema.Fp2
open TraigentSchema.GraphWalk
open TraigentSchema.Python
open TraigentSchema.Traverse

/-- `EvaluatorQualityVerificationError`, or an exception of any other type, by name. -/
inductive Raised where
  | verification (code field : String)
  | exception (name : String)
  deriving DecidableEq, Repr

def fail {A : Type} (code field : String) : Except Raised A :=
  .error (.verification code field)

/-! ## Objects of any type -/

/-- What the tests of the walk find out about an object of a foreign type: the built-in
type it is an instance of and the outcome of the one operation asked of it.  An operation
gives the name of the exception it raises, if any. -/
inductive Seen where
  /-- Whether it compares as a safe integer. -/
  | int (safe : Except String Bool)
  | float
  /-- Whether `encode` succeeds; otherwise it raises `UnicodeEncodeError`. -/
  | str (encodes : Except String Bool)
  | other

/-- Objects of any type.  A container is an exact `list` or `dict` or passes for an
instance of one; `raises` is what iterating over it raises after its contents. -/
structure ObjectGraph (A : Type) where
  heap : Heap A
  exact : A → Bool
  raises : A → Option String
  exact_raises : ∀ {a}, exact a = true → raises a = none
  /-- The outcome of the `isinstance` tests. -/
  seen : Foreign → Except String Seen

variable {A : Type}

/-- Lift what a method raises out of the walk. -/
def attempt {B : Type} (result : Except String B) : Except Raised B :=
  result.mapError Raised.exception

def checkSafe (safe : Bool) : Except Raised Unit :=
  if safe then .ok () else fail "EVALUATOR_STRICT_INTEGER" "bundle"

/-- The tests on a value that is not a container. -/
def checkLeaf (g : ObjectGraph A) : Atom → Except Raised Unit
  | .none => .ok ()
  | .bool _ => .ok ()
  | .int i => checkSafe (decide (i.natAbs ≤ maxSafeInteger))
  | .float _ => fail "EVALUATOR_STRICT_INTEGER" "bundle"
  | .str s => checkSafe (decide (Encodable s))
  | .foreign o => do
      match ← attempt (g.seen o) with
      | .int safe => checkSafe (← attempt safe)
      | .float => fail "EVALUATOR_STRICT_INTEGER" "bundle"
      | .str encodes => checkSafe (← attempt encodes)
      | .other => return ()

/-- `if not isinstance(key, str)`. -/
def checkKey (g : ObjectGraph A) : Key → Except Raised Unit
  | .str _ => .ok ()
  | .foreign o => do
      match ← attempt (g.seen o) with
      | .str _ => return ()
      | _ => fail "EVALUATOR_STRICT_INTEGER" "bundle"

def keyAtom : Key → Atom
  | .str s => .str s
  | .foreign o => .foreign o

def refValue : Ref A → Atom ⊕ A
  | .atom x => .inl x
  | .node a => .inr a

/-- What a container pushes: the items of a list, each key of a dict and then its value. -/
def pushed : Node A → List (Atom ⊕ A)
  | .list items => items.map refValue
  | .dict members => members.items.flatMap fun member =>
      [.inl (keyAtom member.1), refValue member.2]

def checkKeys (g : ObjectGraph A) : Node A → Except Raised Unit
  | .list _ => .ok ()
  | .dict members => forM members.items fun member => checkKey g member.1

/-- The values pushed for a container, the last pushed and first popped in front. -/
def openContainer (g : ObjectGraph A) (a : A) : Except Raised (List (Atom ⊕ A)) := do
  checkKeys g (g.heap a)
  match g.raises a with
  | some name => throw (.exception name)
  | none => return (pushed (g.heap a)).reverse

def strictWalker (g : ObjectGraph A) : Walker A Atom Raised where
  limit := maxDepth
  check := checkLeaf g
  enter := openContainer g
  tooDeep := .verification "EVALUATOR_CANONICALIZATION" "bundle"
  circular := .verification "EVALUATOR_CANONICALIZATION" "bundle"

/-- Reject values fp2 must never be asked to canonicalize. -/
def walkStrictValues [DecidableEq A] (g : ObjectGraph A) (root : Ref A) : Except Raised Unit :=
  walk (strictWalker g) (refValue root)

/-! ## Graphs of exact types -/

/-- A value of the graph below a value. -/
inductive Within (h : Heap A) (root : Ref A) : Ref A → Prop where
  | root : Within h root root
  | inside {a : A} {r : Ref A} (ha : Within h root (.node a)) (hr : r ∈ (h a).children) :
      Within h root r

theorem Within.trans {h : Heap A} {root r r' : Ref A} (hr : Within h root r)
    (hr' : Within h r r') : Within h root r' := by
  induction hr' with
  | root => exact hr
  | inside _ hmem ih => exact .inside ih hmem

/-- A graph of exact JSON types.  A key may be of another type, as long as it does not
pass for a string. -/
structure ExactGraph (g : ObjectGraph A) (root : Ref A) : Prop where
  containers : ∀ a, Within g.heap root (.node a) → g.exact a = true
  leaves : ∀ o, ¬ Within g.heap root (.atom (.foreign o))
  keys : ∀ a members, Within g.heap root (.node a) → g.heap a = .dict members →
    ∀ member ∈ members.items, ∀ o, member.1 = .foreign o →
      ∃ kind, g.seen o = .ok kind ∧ ∀ encodes, kind ≠ .str encodes

theorem ExactGraph.inside {g : ObjectGraph A} {root r : Ref A} (hg : ExactGraph g root)
    (hr : Within g.heap root r) : ExactGraph g r where
  containers a ha := hg.containers a (hr.trans ha)
  leaves o ho := hg.leaves o (hr.trans ho)
  keys a members ha := hg.keys a members (hr.trans ha)

/-- The leaves that pass, among those of exact types. -/
def WalkedAtom (x : Atom) : Prop :=
  SupportedAtom x ∧ ∀ value, x ≠ .float value

section Exact

variable {g : ObjectGraph A}

theorem checkSafe_eq_ok_iff {safe : Bool} : checkSafe safe = .ok () ↔ safe = true := by
  cases safe <;> simp [checkSafe, fail]

theorem checkLeaf_eq_ok_iff {x : Atom} (hx : ∀ o, x ≠ .foreign o) :
    checkLeaf g x = .ok () ↔ WalkedAtom x := by
  cases x with
  | foreign o => exact absurd rfl (hx o)
  | float value => simp [checkLeaf, fail, WalkedAtom]
  | int i => simp [checkLeaf, checkSafe_eq_ok_iff, WalkedAtom, SupportedAtom]
  | str s => simp [checkLeaf, checkSafe_eq_ok_iff, WalkedAtom, SupportedAtom]
  | none => simp [checkLeaf, WalkedAtom, SupportedAtom]
  | bool b => simp [checkLeaf, WalkedAtom, SupportedAtom]

/-- A key passes both as a key and as a value exactly when fp2 takes it. -/
theorem checkKey_and_checkLeaf_iff {key : Key}
    (hkey : ∀ o, key = .foreign o → ∃ kind, g.seen o = .ok kind ∧ ∀ encodes, kind ≠ .str encodes) :
    (checkKey g key = .ok () ∧ checkLeaf g (keyAtom key) = .ok ()) ↔ PlainKey key := by
  cases key with
  | str s =>
      have hleaf : checkLeaf g (.str s) = .ok () ↔ WalkedAtom (.str s) :=
        checkLeaf_eq_ok_iff fun o => Atom.noConfusion
      simp [checkKey, keyAtom, hleaf, WalkedAtom, SupportedAtom, PlainKey]
  | foreign o =>
      obtain ⟨kind, hseen, hstr⟩ := hkey o rfl
      have hrefused : checkKey g (.foreign o) ≠ .ok () := by
        cases kind with
        | str encodes => exact absurd rfl (hstr encodes)
        | int safe => simp [checkKey, hseen, attempt, Except.mapError, fail]
        | float => simp [checkKey, hseen, attempt, Except.mapError, fail]
        | other => simp [checkKey, hseen, attempt, Except.mapError, fail]
      simp [hrefused, PlainKey]

theorem openContainer_eq_ok_iff {a : A} (hexact : g.exact a = true) {values : List (Atom ⊕ A)} :
    openContainer g a = .ok values ↔
      checkKeys g (g.heap a) = .ok () ∧ (pushed (g.heap a)).reverse = values := by
  rw [openContainer, unit_bind_eq_ok_iff, g.exact_raises hexact]
  simp

theorem forall_pushed_dict {members : Dict (Ref A)} {P : Atom ⊕ A → Prop} :
    (∀ value ∈ pushed (.dict members), P value) ↔
      ∀ member ∈ members.items, P (.inl (keyAtom member.1)) ∧ P (refValue member.2) := by
  simp only [pushed, List.mem_flatMap, List.mem_cons, List.not_mem_nil, or_false]
  constructor
  · intro hall member hmember
    exact ⟨hall _ ⟨member, hmember, .inl rfl⟩, hall _ ⟨member, hmember, .inr rfl⟩⟩
  · rintro hall value ⟨member, hmember, rfl | rfl⟩
    · exact (hall member hmember).1
    · exact (hall member hmember).2

/-- On exact types the walk passes what unfolds to a tree of walked leaves and keys. -/
theorem cleanWithin_iff {n : ℕ} {r : Ref A} (hg : ExactGraph g r) :
    CleanWithin (strictWalker g) n (refValue r) ↔
      AdmitsWithin g.heap WalkedAtom PlainKey n r := by
  induction n generalizing r with
  | zero =>
      cases r with
      | atom x =>
          rw [refValue, cleanWithin_leaf, admitsWithin_atom]
          exact checkLeaf_eq_ok_iff fun o hx => hg.leaves o (hx ▸ .root)
      | node a => exact iff_of_false id not_admitsWithin_zero
  | succ n ih =>
      cases r with
      | atom x =>
          rw [refValue, cleanWithin_leaf, admitsWithin_atom]
          exact checkLeaf_eq_ok_iff fun o hx => hg.leaves o (hx ▸ .root)
      | node a =>
          have hexact := hg.containers a .root
          have hclean : CleanWithin (strictWalker g) (n + 1) (refValue (.node a)) ↔
              checkKeys g (g.heap a) = .ok () ∧
                ∀ value ∈ pushed (g.heap a), CleanWithin (strictWalker g) n value := by
            simp only [refValue, CleanWithin, strictWalker, openContainer_eq_ok_iff hexact]
            constructor
            · rintro ⟨_, ⟨hkeys, rfl⟩, hvalues⟩
              exact ⟨hkeys, fun value hvalue => hvalues value (List.mem_reverse.mpr hvalue)⟩
            · rintro ⟨hkeys, hvalues⟩
              exact ⟨_, ⟨hkeys, rfl⟩, fun value hvalue =>
                hvalues value (List.mem_reverse.mp hvalue)⟩
          have hinside : ∀ r ∈ (g.heap a).children,
              (CleanWithin (strictWalker g) n (refValue r) ↔
                AdmitsWithin g.heap WalkedAtom PlainKey n r) :=
            fun r hr => ih (hg.inside (.inside .root hr))
          rw [hclean, admitsWithin_node]
          cases hnode : g.heap a with
          | list items =>
              rw [hnode] at hinside
              simp only [checkKeys, pushed, Node.KeysOk, true_and, List.forall_mem_map]
              exact forall₂_congr hinside
          | dict members =>
              rw [hnode] at hinside
              have hkeys : ∀ member ∈ members.items,
                  ((checkKey g member.1 = .ok () ∧ checkLeaf g (keyAtom member.1) = .ok ()) ↔
                    PlainKey member.1) :=
                fun member hmember => checkKey_and_checkLeaf_iff
                  (hg.keys a members .root hnode member hmember)
              rw [checkKeys, forM_eq_ok_iff, forall_pushed_dict]
              simp only [cleanWithin_leaf, Node.KeysOk, Node.children, List.forall_mem_map]
              constructor
              · rintro ⟨hisStr, hmembers⟩
                exact ⟨fun member hmember => (hkeys member hmember).mp
                    ⟨hisStr member hmember, (hmembers member hmember).1⟩,
                  fun member hmember => (hinside _ (List.mem_map_of_mem hmember)).mp
                    (hmembers member hmember).2⟩
              · rintro ⟨hplain, hmembers⟩
                exact ⟨fun member hmember => ((hkeys member hmember).mpr (hplain member hmember)).1,
                  fun member hmember => ⟨((hkeys member hmember).mpr (hplain member hmember)).2,
                    (hinside _ (List.mem_map_of_mem hmember)).mpr (hmembers member hmember)⟩⟩

end Exact

/-! ## Agreement with fp2 -/

theorem Within.eq_of_atom {h : Heap A} {x : Atom} {r : Ref A} (hr : Within h (.atom x) r) :
    r = .atom x := by
  induction hr with
  | root => rfl
  | inside _ _ ih => cases ih

theorem Within.cases_node {h : Heap A} {a : A} {r : Ref A} (hr : Within h (.node a) r) :
    r = .node a ∨ ∃ child ∈ (h a).children, Within h child r := by
  induction hr with
  | root => exact .inl rfl
  | @inside b r _ hr ih =>
      rcases ih with heq | ⟨child, hchild, hwithin⟩
      · obtain rfl := Ref.node.inj heq
        exact .inr ⟨r, hr, .root⟩
      · exact .inr ⟨child, hchild, .inside hwithin hr⟩

/-- The leaves of the tree are the leaves of the graph. -/
theorem admits_iff_within {h : Heap A} {P : Atom → Prop} {root : Ref A} {v : PyValue}
    (hv : Unfolds h root v) :
    v.Admits P (fun _ => True) ↔ ∀ x, Within h root (.atom x) → P x := by
  have hnode : ∀ {a : A}, (∀ child ∈ (h a).children, ∀ x, Within h child (.atom x) → P x) ↔
      ∀ x, Within h (.node a) (.atom x) → P x := by
    intro a
    constructor
    · intro hchildren x hx
      rcases hx.cases_node with heq | ⟨child, hchild, hx⟩
      · cases heq
      · exact hchildren child hchild x hx
    · exact fun hall child hchild x hx => hall x (Within.trans (.inside .root hchild) hx)
  induction v using Tree.induct generalizing root with
  | leaf y =>
      cases root with
      | node a =>
          cases hcontent : h a with
          | list items => simpa using (unfolds_list hcontent).mp hv
          | dict members => simpa using (unfolds_dict hcontent).mp hv
      | atom x =>
          obtain rfl := Tree.leaf.inj (unfolds_atom.mp hv)
          rw [Tree.admits_leaf]
          constructor
          · rintro hy x hx
            obtain rfl := Ref.atom.inj hx.eq_of_atom
            exact hy
          · exact fun hall => hall y .root
  | list values ih =>
      cases root with
      | atom x => cases unfolds_atom.mp hv
      | node a =>
          cases hcontent : h a with
          | dict members => simpa using (unfolds_dict hcontent).mp hv
          | list items =>
              obtain ⟨values', heq, hvalues⟩ := (unfolds_list hcontent).mp hv
              obtain rfl := Tree.list.inj heq
              rw [Tree.admits_list, ← hnode, hcontent, Node.children]
              constructor
              · intro hall item hitem
                obtain ⟨value, hvalue, hunfolds⟩ := exists_of_mem_left hvalues hitem
                exact (ih value hvalue hunfolds).mp (hall value hvalue)
              · intro hall value hvalue
                obtain ⟨item, hitem, hunfolds⟩ := exists_of_mem_right hvalues hvalue
                exact (ih value hvalue hunfolds).mpr (hall item hitem)
  | dict values ih =>
      cases root with
      | atom x => cases unfolds_atom.mp hv
      | node a =>
          cases hcontent : h a with
          | list items => simpa using (unfolds_list hcontent).mp hv
          | dict members =>
              obtain ⟨values', heq, hvalues⟩ := (unfolds_dict hcontent).mp hv
              obtain rfl := Tree.dict.inj heq
              rw [Tree.admits_dict, ← hnode, hcontent, Node.children, List.forall_mem_map]
              constructor
              · intro hall member hmember
                obtain ⟨value, hvalue, -, hunfolds⟩ := exists_of_mem_left hvalues hmember
                exact (ih value hvalue hunfolds).mp (hall value hvalue).2
              · intro hall value hvalue
                obtain ⟨member, hmember, -, hunfolds⟩ := exists_of_mem_right hvalues hvalue
                exact ⟨trivial, (ih value hvalue hunfolds).mpr (hall member hmember)⟩

/-- On objects of exact JSON types the walk passes what fp2 canonicalizes, floats apart. -/
theorem walkStrictValues_of_exact [DecidableEq A] {g : ObjectGraph A} {root : Ref A}
    (hg : ExactGraph g root) (float : FloatRepr) :
    walkStrictValues g root = .ok () ↔
      (∃ literal, canonicalize float g.heap root = .ok literal) ∧
        ∀ value, ¬ Within g.heap root (.atom (.float value)) := by
  have hleaves : ∀ {v : PyValue}, v.Admits WalkedAtom PlainKey ↔
      Supported v ∧ v.Admits (fun x => ∀ value, x ≠ .float value) fun _ => True := by
    intro v
    have hand := @Tree.admits_and Key Atom SupportedAtom (fun x => ∀ value, x ≠ .float value)
      PlainKey (fun _ => True) v
    simp only [and_true] at hand
    exact hand
  rw [walkStrictValues, walk_eq_ok_iff, cleanWithin_iff hg, admitsWithin_iff]
  constructor
  · rintro ⟨v, hv, hnesting, hadmits⟩
    obtain ⟨hsupported, hfloats⟩ := hleaves.mp hadmits
    refine ⟨⟨_, canonicalize_of_unfolds hv hnesting hsupported⟩, fun value hvalue => ?_⟩
    exact (admits_iff_within hv).mp hfloats _ hvalue value rfl
  · rintro ⟨⟨literal, hcanonical⟩, hfloats⟩
    obtain ⟨v, hv, hnesting, hsupported, -⟩ := canonicalize_eq_ok_iff.mp hcanonical
    refine ⟨v, hv, hnesting, hleaves.mpr ⟨hsupported, (admits_iff_within hv).mpr ?_⟩⟩
    rintro x hx value rfl
    exact hfloats value hx

/-! ## What the walk raises -/

/-- An object of a foreign type is a value or a key of the graph. -/
def HasObject (h : Heap A) (root : Ref A) (o : Foreign) : Prop :=
  Within h root (.atom (.foreign o)) ∨
    ∃ a members, Within h root (.node a) ∧ h a = .dict members ∧
      Key.foreign o ∈ members.items.map Prod.fst

/-- A method of an object of the graph raises an exception of its own. -/
inductive MethodRaises (g : ObjectGraph A) (root : Ref A) (name : String) : Prop where
  | iteration {a : A} (ha : Within g.heap root (.node a)) (hraises : g.raises a = some name)
  | type {o : Foreign} (ho : HasObject g.heap root o) (hraises : g.seen o = .error name)
  | comparison {o : Foreign} (ho : HasObject g.heap root o)
      (hraises : g.seen o = .ok (.int (.error name)))
  | encode {o : Foreign} (ho : HasObject g.heap root o)
      (hraises : g.seen o = .ok (.str (.error name)))

section Raised

variable {g : ObjectGraph A} {name : String}

theorem checkSafe_ne_exception {safe : Bool} : checkSafe safe ≠ .error (.exception name) := by
  cases safe <;> simp [checkSafe, fail]

/-- A leaf raises an exception of its own through one of its methods. -/
theorem of_checkLeaf {x : Atom} (hcheck : checkLeaf g x = .error (.exception name)) :
    ∃ o, x = .foreign o ∧ (g.seen o = .error name ∨ g.seen o = .ok (.int (.error name)) ∨
      g.seen o = .ok (.str (.error name))) := by
  cases x with
  | foreign o =>
      refine ⟨o, rfl, ?_⟩
      rw [checkLeaf] at hcheck
      rcases hseen : g.seen o with raised | ⟨_ | safe⟩ | _ | ⟨_ | encodes⟩ | _
      all_goals simp [hseen, attempt, Except.mapError, fail, checkSafe_ne_exception] at hcheck
      · exact .inl (congrArg _ hcheck)
      · exact .inr (.inl (by rw [hcheck]))
      · exact .inr (.inr (by rw [hcheck]))
  | none => cases hcheck
  | bool b => cases hcheck
  | float value => cases hcheck
  | int i => exact absurd hcheck checkSafe_ne_exception
  | str s => exact absurd hcheck checkSafe_ne_exception

theorem of_checkKey {key : Key} (hcheck : checkKey g key = .error (.exception name)) :
    ∃ o, key = .foreign o ∧ g.seen o = .error name := by
  cases key with
  | str s => cases hcheck
  | foreign o =>
      refine ⟨o, rfl, ?_⟩
      rw [checkKey] at hcheck
      rcases hseen : g.seen o with raised | _ | _ | _ | _ <;>
        simp [hseen, attempt, Except.mapError, fail] at hcheck
      exact congrArg _ hcheck

theorem of_forM {rows : List (Key × Ref A)}
    (hcheck : forM rows (fun member => checkKey g member.1) = .error (.exception name)) :
    ∃ o, Key.foreign o ∈ rows.map Prod.fst ∧ g.seen o = .error name := by
  induction rows with
  | nil => cases hcheck
  | cons row rows ih =>
      rw [List.forM_cons] at hcheck
      cases hrow : checkKey g row.1 with
      | ok done =>
          rw [hrow] at hcheck
          obtain ⟨o, ho, hraises⟩ := ih hcheck
          exact ⟨o, List.mem_cons_of_mem _ ho, hraises⟩
      | error raised =>
          rw [hrow, error_bind, Except.error.injEq] at hcheck
          obtain ⟨o, hkey, hraises⟩ := of_checkKey (hcheck ▸ hrow)
          exact ⟨o, List.mem_cons.mpr (.inl hkey.symm), hraises⟩

/-- A container raises an exception of its own through a key or through its iteration. -/
theorem of_openContainer {a : A} (hopen : openContainer g a = .error (.exception name)) :
    g.raises a = some name ∨ ∃ members o, g.heap a = .dict members ∧
      Key.foreign o ∈ members.items.map Prod.fst ∧ g.seen o = .error name := by
  rw [openContainer] at hopen
  cases hkeys : checkKeys g (g.heap a) with
  | ok done =>
      rw [hkeys, ok_bind] at hopen
      cases hraises : g.raises a with
      | none => simp [hraises] at hopen
      | some raised => exact .inl (by simpa [hraises] using hopen)
  | error raised =>
      rw [hkeys, error_bind, Except.error.injEq] at hopen
      cases hnode : g.heap a with
      | list items => simp [hnode, checkKeys] at hkeys
      | dict members =>
          rw [hnode, checkKeys, hopen] at hkeys
          obtain ⟨o, ho, hraises⟩ := of_forM hkeys
          exact .inr ⟨members, o, rfl, ho, hraises⟩

/-- What the walk meets is a value of the graph or a key. -/
theorem within_of_meets {root : Ref A} {value : Atom ⊕ A}
    (hmeets : Meets (strictWalker g) (refValue root) value) :
    (∃ r, value = refValue r ∧ Within g.heap root r) ∨
      ∃ a members key, Within g.heap root (.node a) ∧ g.heap a = .dict members ∧
        key ∈ members.items.map Prod.fst ∧ value = .inl (keyAtom key) := by
  induction hmeets with
  | root => exact .inl ⟨root, rfl, .root⟩
  | @inside a values value _ hvalues hvalue ih =>
      rcases ih with ⟨r, hr, hwithin⟩ | ⟨_, _, _, -, -, -, hkey⟩
      · cases r with
        | atom x => cases hr
        | node b =>
            obtain rfl := Sum.inr.inj hr
            have hpushed : value ∈ pushed (g.heap a) := by
              obtain ⟨_, -, hopen⟩ := bind_eq_ok_iff.mp hvalues
              cases hraises : g.raises a with
              | some raised => simp [hraises] at hopen
              | none =>
                  rw [hraises, pure_eq_ok, Except.ok.injEq] at hopen
                  exact List.mem_reverse.mp (hopen ▸ hvalue)
            cases hnode : g.heap a with
            | list items =>
                rw [hnode, pushed] at hpushed
                obtain ⟨item, hitem, rfl⟩ := List.mem_map.mp hpushed
                exact .inl ⟨item, rfl, .inside hwithin (by rw [hnode]; exact hitem)⟩
            | dict members =>
                rw [hnode, pushed] at hpushed
                obtain ⟨member, hmember, hvalue⟩ := List.mem_flatMap.mp hpushed
                rcases List.mem_cons.mp hvalue with rfl | hvalue
                · exact .inr ⟨a, members, member.1, hwithin, hnode, List.mem_map_of_mem hmember,
                    rfl⟩
                · refine .inl ⟨member.2, List.mem_singleton.mp hvalue, .inside hwithin ?_⟩
                  rw [hnode]
                  exact List.mem_map_of_mem hmember
      · cases hkey

variable [DecidableEq A]

/-- An exception that is not the verifier's own comes from a method of an object. -/
theorem methodRaises_of_walkStrictValues {root : Ref A}
    (hwalk : walkStrictValues g root = .error (.exception name)) : MethodRaises g root name := by
  generalize he : Raised.exception name = e at hwalk
  cases raises_of_walk hwalk with
  | tooDeep => cases he
  | circular => cases he
  | @leaf x _ hx hcheck =>
      subst he
      obtain ⟨o, rfl, hraises⟩ := of_checkLeaf hcheck
      have ho : HasObject g.heap root o := by
        rcases within_of_meets hx with ⟨r, hr, hwithin⟩ | ⟨a, members, key, ha, hnode, hkey, hvalue⟩
        · cases r with
          | node a => cases hr
          | atom x =>
              obtain rfl := Sum.inl.inj hr
              exact .inl hwithin
        · cases key with
          | str s => cases hvalue
          | foreign o' =>
              obtain rfl := Atom.foreign.inj (Sum.inl.inj hvalue)
              exact .inr ⟨a, members, ha, hnode, hkey⟩
      rcases hraises with hraises | hraises | hraises
      · exact .type ho hraises
      · exact .comparison ho hraises
      · exact .encode ho hraises
  | @container a _ ha hopen =>
      subst he
      have hwithin : Within g.heap root (.node a) := by
        rcases within_of_meets ha with ⟨r, hr, hwithin⟩ | ⟨_, _, _, -, -, -, hkey⟩
        · cases r with
          | atom x => cases hr
          | node b =>
              obtain rfl := Sum.inr.inj hr
              exact hwithin
        · cases hkey
      rcases of_openContainer hopen with hraises | ⟨members, o, hnode, ho, hraises⟩
      · exact .iteration hwithin hraises
      · exact .type (.inr ⟨a, members, hwithin, hnode, ho⟩) hraises

end Raised

/-- The walk ends on every graph.  On objects of exact JSON types it passes exactly what
fp2 canonicalizes and what holds no float; on any others it returns, raises the
verifier's own error, or passes on what a method of one of the objects raises. -/
theorem strictWalk_exact [DecidableEq A] (g : ObjectGraph A) (root : Ref A) (float : FloatRepr) :
    (ExactGraph g root →
      (walkStrictValues g root = .ok () ↔
        (∃ literal, canonicalize float g.heap root = .ok literal) ∧
          ∀ value, ¬ Within g.heap root (.atom (.float value)))) ∧
    (walkStrictValues g root = .ok () ∨
      (∃ code field, walkStrictValues g root = .error (.verification code field)) ∨
      ∃ name, walkStrictValues g root = .error (.exception name) ∧ MethodRaises g root name) := by
  refine ⟨fun hg => walkStrictValues_of_exact hg float, ?_⟩
  rcases hwalk : walkStrictValues g root with (⟨code, field⟩ | name) | done
  · exact .inr (.inl ⟨code, field, rfl⟩)
  · exact .inr (.inr ⟨name, rfl, methodRaises_of_walkStrictValues hwalk⟩)
  · exact .inl rfl

/-! ## Small graphs -/

/-- A list that holds itself. -/
def selfGraph : ObjectGraph Unit where
  heap := fun _ => .list [.node ()]
  exact := fun _ => true
  raises := fun _ => none
  exact_raises := fun _ => rfl
  seen := fun _ => .ok .other

/-- A list that holds itself is refused by the walk as by fp2. -/
theorem strictWalk_exact_self :
    walkStrictValues selfGraph (.node ()) = .ok () ↔
      (∃ literal, canonicalize .fewestDigits selfGraph.heap (.node ()) = .ok literal) ∧
        ∀ value, ¬ Within selfGraph.heap (.node ()) (.atom (.float value)) := by
  have hatom : ∀ x, ¬ Within selfGraph.heap (.node ()) (.atom x) := by
    intro x hx
    cases hx with
    | inside _ hr => simp [selfGraph, Node.children] at hr
  refine (strictWalk_exact selfGraph (.node ()) .fewestDigits).1 ⟨fun _ _ => rfl, ?_, ?_⟩
  · exact fun o => hatom _
  · intro a members _ hnode
    cases hnode

/-- An instance of a subclass of `str` whose `encode` raises `RuntimeError`. -/
def rebelliousGraph : ObjectGraph Empty where
  heap := emptyHeap
  exact := fun _ => true
  raises := fun _ => none
  exact_raises := fun _ => rfl
  seen := fun _ => .ok (.str (.error "RuntimeError"))

/-- What such an object raises is not the verifier's own error. -/
theorem walkStrictValues_rebellious :
    let root : Ref Empty := .atom (.foreign ⟨0, .ok "Text"⟩)
    walkStrictValues rebelliousGraph root ≠ .ok () ∧
      ∀ code field, walkStrictValues rebelliousGraph root ≠ .error (.verification code field) := by
  intro root
  have hwalk : walkStrictValues rebelliousGraph root = .error (.exception "RuntimeError") := by
    decide +kernel
  rw [hwalk]
  simp

end TraigentSchema.EvaluatorQuality
