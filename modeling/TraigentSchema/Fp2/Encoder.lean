import TraigentSchema.Fp2.Canonical
import TraigentSchema.Library.Traverse
import TraigentSchema.Library.VariantLoop
import TraigentSchema.Python.Heap

/-!
# The encoder

`_encode` walks an object graph with a stack of work entries: text to emit, a
value to encode at a depth, and the mark that a container has been left.  The
set of open containers is how a cycle is told from sharing, and the depth limit
is what bounds the walk.
-/

namespace TraigentSchema.Fp2

open TraigentSchema.Unicode
open TraigentSchema.Python
open TraigentSchema.SortedBy
open TraigentSchema.Traverse
open TraigentSchema.VariantLoop

def maxDepth : ℕ := 100

/-- An entry of the work stack. -/
inductive Work (A : Type) where
  | emit (literal : Text)
  | value (payload : Ref A) (depth : ℕ)
  | close (identity : A)

/-- The exception of a message that ends in the name of an object's type, which
is read while the message is made. -/
def raiseNaming (message : String) (name : Except String String) : Raised :=
  match name with
  | .ok typeName => .fp2UnsupportedValue (message ++ typeName)
  | .error e => .other e

/-- The keys of a dict, all of them plain strings. -/
def plainKeys {V : Type} : List (Key × V) → Except Raised (List (Text × V))
  | [] => .ok []
  | (.str key, item) :: members => (plainKeys members).map ((key, item) :: ·)
  | (.foreign o, _) :: _ =>
      .error (raiseNaming "object key is not a plain string: " o.typeName)

variable {A : Type}

/-- Work entries for the members from the given position on. -/
def memberEntries (depth : ℕ) :
    (index : ℕ) → List (Text × Ref A) → Except Raised (List (Work A))
  | _, [] => .ok []
  | index, (key, item) :: items => do
      let keyLiteral ← encodeString key
      let pending ← memberEntries depth (index + 1) items
      return (if index = 0 then [] else [.emit (text ",")]) ++
        .emit (keyLiteral ++ text ":") :: .value item (depth + 1) :: pending

/-- Items paired with the sort key of their key, as `sorted` makes them. -/
def decorate {V : Type} (item : Text × V) : Except Raised (Bytes × Text × V) := do
  let sortKey ← utf16SortKey item.1
  return (sortKey, item)

/-- Work entries for the members of an object in emission order. -/
def dictChildren (members : Dict (Ref A)) (depth : ℕ) :
    Except Raised (List (Work A)) := do
  let items ← plainKeys members.items
  let decorated ← items.mapM decorate
  let pending ← memberEntries depth 0 ((sortedBy Prod.fst decorated).map Prod.snd)
  return pending ++ [.emit (text "\x7d")]

/-- Work entries for the items from the given position on. -/
def itemEntries (depth : ℕ) : (index : ℕ) → List (Ref A) → List (Work A)
  | _, [] => []
  | index, item :: items =>
      (if index = 0 then [] else [.emit (text ",")]) ++
        .value item (depth + 1) :: itemEntries depth (index + 1) items

/-- Work entries for the items of an array in emission order. -/
def listChildren (items : List (Ref A)) (depth : ℕ) : List (Work A) :=
  itemEntries depth 0 items ++ [.emit (text "]")]

variable [DecidableEq A]

/-- Enter a container: its opener, the open set with it, and its work entries. -/
def openContainer (h : Heap A) (identity : A) (depth : ℕ) (openContainers : Finset A)
    (work : List (Work A)) : Except Raised (Text × Finset A × List (Work A)) := do
  if maxDepth < depth then
    throw (.fp2UnsupportedValue
      s!"manifest nests deeper than the fp2 limit of {maxDepth}")
  if identity ∈ openContainers then
    throw (.fp2UnsupportedValue "circular reference")
  let openContainers := insert identity openContainers
  match h identity with
  | .dict members =>
      let pending ← dictChildren members depth
      return (text "\x7b", openContainers, pending ++ .close identity :: work)
  | .list items =>
      return (text "[", openContainers,
        listChildren items depth ++ .close identity :: work)

structure State (A : Type) where
  out : Text
  openContainers : Finset A
  /-- The next entry first. -/
  work : List (Work A)

/-- One iteration of the loop of `_encode`. -/
def encodeStep (float : FloatRepr) (h : Heap A) (s : State A) :
    Except Raised (State A ⊕ Text) :=
  match s.work with
  | [] => .ok (.inr s.out)
  | .emit literal :: work =>
      .ok (.inl { s with out := s.out ++ literal, work := work })
  | .close identity :: work =>
      .ok (.inl { s with
        openContainers := s.openContainers.erase identity, work := work })
  | .value (.atom x) _ :: work => do
      match ← encodeScalar float x with
      | some scalar => return .inl { s with out := s.out ++ scalar, work := work }
      | none => throw (raiseNaming "unsupported type: " x.typeName)
  | .value (.node identity) depth :: work => do
      let (opener, openContainers, work) ←
        openContainer h identity depth s.openContainers work
      return .inl
        { out := s.out ++ opener, openContainers := openContainers, work := work }

/-! ## The members of an object -/

section Members

omit [DecidableEq A]

/-- The members of a dict in the order the encoder visits them. -/
def sortedMembers {V : Type} (members : List (Key × V)) : List (Key × V) :=
  sortedBy (fun member => utf16BigEndian (keyText member.1)) members

/-- The entries of members whose keys are plain strings with an encoding. -/
def memberWork (depth : ℕ) : (index : ℕ) → List (Key × Ref A) → List (Work A)
  | _, [] => []
  | index, (key, item) :: members =>
      (if index = 0 then [] else [.emit (text ",")]) ++
        .emit (quoted (keyText key) ++ text ":") :: .value item (depth + 1) ::
          memberWork depth (index + 1) members

def asMember {V : Type} (item : Text × V) : Key × V :=
  (.str item.1, item.2)

/-- Without a surrogate in a key each member has its entries. -/
theorem memberEntries_of_encodable (depth index : ℕ) {items : List (Text × Ref A)}
    (hitems : ∀ item ∈ items, Encodable item.1) :
    memberEntries depth index items =
      .ok (memberWork depth index (items.map asMember)) := by
  induction items generalizing index with
  | nil => rfl
  | cons item items ih =>
      have hkey := encodeString_of_encodable (hitems item (by simp))
      have hrest := ih (index + 1) fun i hi => hitems i (List.mem_cons_of_mem _ hi)
      simp [memberEntries, hkey, hrest, memberWork, asMember, keyText]

theorem plainKeys_of_str {V : Type} (items : List (Text × V)) :
    plainKeys (items.map asMember) = .ok items := by
  induction items with
  | nil => rfl
  | cons item items ih => simp [asMember, plainKeys, ih, Except.map]

/-- A key that is no text is refused, wherever it stands. -/
theorem plainKeys_of_foreign {V : Type} {members : List (Key × V)} {o : Foreign}
    (hmember : .foreign o ∈ members.map Prod.fst) :
    ∃ e, plainKeys members = .error e := by
  induction members with
  | nil => simp at hmember
  | cons member members ih =>
      obtain ⟨key, item⟩ := member
      cases key with
      | foreign o' => exact ⟨_, rfl⟩
      | str key =>
          obtain ⟨e, he⟩ := ih (by simpa using hmember)
          exact ⟨e, by simp [plainKeys, he, Except.map]⟩

/-- A dict with string keys only is a list of texts and values. -/
theorem exists_asMember {V : Type} (members : List (Key × V))
    (hmembers : ∀ o, .foreign o ∉ members.map Prod.fst) :
    ∃ items : List (Text × V), members = items.map asMember := by
  induction members with
  | nil => exact ⟨[], rfl⟩
  | cons member members ih =>
      obtain ⟨key, item⟩ := member
      cases key with
      | foreign o => exact absurd (by simp) (hmembers o)
      | str key =>
          obtain ⟨items, rfl⟩ := ih fun o ho => hmembers o (by simp [ho])
          exact ⟨(key, item) :: items, rfl⟩

/-- Every encodable key has its sort key. -/
theorem mapM_decorate {V : Type} {items : List (Text × V)}
    (hitems : ∀ item ∈ items, Encodable item.1) :
    items.mapM decorate =
      .ok (items.map fun item => (utf16BigEndian item.1, item)) := by
  rw [mapM_eq_ok_iff, List.forall₂_map_right_iff, List.forall₂_same]
  intro item hitem
  simp [decorate, utf16SortKey_of_encodable (hitems item hitem)]

/-- One surrogate in a key refuses all members. -/
theorem mapM_decorate_of_not_encodable {V : Type} {items : List (Text × V)}
    {item : Text × V} (hitem : item ∈ items) (hkey : ¬ Encodable item.1) :
    ∃ e, items.mapM decorate = .error e := by
  cases hrun : items.mapM decorate with
  | error e => exact ⟨e, rfl⟩
  | ok decorated =>
      obtain ⟨row, -, hrow⟩ := exists_of_mem_left (mapM_eq_ok_iff.mp hrun) hitem
      obtain ⟨message, herror⟩ := utf16SortKey_of_not_encodable hkey
      simp [decorate, herror] at hrow

/-- To sort with the sort keys attached is to sort by them. -/
theorem sortedBy_decorated {V : Type} (items : List (Text × V)) :
    (sortedBy Prod.fst (items.map fun item => (utf16BigEndian item.1, item))).map
      Prod.snd = sortedBy (fun item => utf16BigEndian item.1) items := by
  rw [← map_sortedBy (fun item : Text × V => utf16BigEndian item.1) Prod.fst
    (fun item => (utf16BigEndian item.1, item)) items (by simp), List.map_map]
  exact List.map_id _

theorem sortedMembers_asMember {V : Type} (items : List (Text × V)) :
    (sortedBy (fun item => utf16BigEndian item.1) items).map asMember =
      sortedMembers (items.map asMember) := by
  exact map_sortedBy _ _ asMember items (by simp [asMember, keyText])

/-- Plain keys are sorted, and the brace comes after the last member. -/
theorem dictChildren_of_plain {members : Dict (Ref A)}
    (hplain : ∀ member ∈ members.items, PlainKey member.1) (depth : ℕ) :
    dictChildren members depth =
      .ok (memberWork depth 0 (sortedMembers members.items) ++ [.emit (text "\x7d")]) := by
  obtain ⟨items, hitems⟩ := exists_asMember members.items fun o ho => by
    obtain ⟨member, hmember, hkey⟩ := List.mem_map.mp ho
    have := hplain member hmember
    rw [hkey] at this
    exact this
  have hencodable : ∀ item ∈ items, Encodable item.1 := by
    intro item hitem
    exact hplain (asMember item) (hitems ▸ List.mem_map_of_mem hitem)
  have hsorted : ∀ item ∈ sortedBy (fun item => utf16BigEndian item.1) items,
      Encodable item.1 := by
    intro item hitem
    exact hencodable item (mem_sortedBy.mp hitem)
  simp only [dictChildren, hitems, plainKeys_of_str, mapM_decorate hencodable,
    sortedBy_decorated, memberEntries_of_encodable depth 0 hsorted,
    sortedMembers_asMember, ok_bind, pure_eq_ok]

/-- A dict with another key has no entries. -/
theorem dictChildren_of_not_plain {members : Dict (Ref A)}
    (hplain : ¬ ∀ member ∈ members.items, PlainKey member.1) (depth : ℕ) :
    ∃ e, dictChildren members depth = .error e := by
  by_cases hforeign : ∃ o, .foreign o ∈ members.items.map Prod.fst
  · obtain ⟨o, ho⟩ := hforeign
    obtain ⟨e, he⟩ := plainKeys_of_foreign ho
    exact ⟨e, by simp [dictChildren, he]⟩
  · obtain ⟨items, hitems⟩ := exists_asMember _ (not_exists.mp hforeign)
    obtain ⟨item, hitem, hkey⟩ : ∃ item ∈ items, ¬ Encodable item.1 := by
      by_contra hall
      apply hplain
      intro member hmember
      rw [hitems] at hmember
      obtain ⟨item, hitem, rfl⟩ := List.mem_map.mp hmember
      exact not_not.mp fun hnot => hall ⟨item, hitem, hnot⟩
    obtain ⟨e, he⟩ := mapM_decorate_of_not_encodable hitem hkey
    exact ⟨e, by simp [dictChildren, hitems, plainKeys_of_str, he]⟩

end Members

/-! ## The loop ends -/

section Variant

omit [DecidableEq A]

/-- How many entries the visit of a reference takes off the stack, at most, when
`n` more containers may be opened below it. -/
def visitCost (h : Heap A) : (n : ℕ) → Ref A → ℕ
  | _, .atom _ => 1
  | 0, .node _ => 1
  | n + 1, .node a => ((h a).children.map fun child => visitCost h n child + 2).sum + 3

def workCost (h : Heap A) : Work A → ℕ
  | .emit _ => 1
  | .close _ => 1
  | .value payload depth => visitCost h (maxDepth + 1 - depth) payload

def totalCost (h : Heap A) (work : List (Work A)) : ℕ :=
  (work.map (workCost h)).sum

@[simp]
theorem totalCost_nil (h : Heap A) : totalCost h [] = 0 := rfl

@[simp]
theorem totalCost_cons (h : Heap A) (entry : Work A) (work : List (Work A)) :
    totalCost h (entry :: work) = workCost h entry + totalCost h work := rfl

/-- The costs of two piles of work add up. -/
@[simp]
theorem totalCost_append (h : Heap A) (left right : List (Work A)) :
    totalCost h (left ++ right) = totalCost h left + totalCost h right := by
  simp [totalCost]

@[simp]
theorem workCost_emit (h : Heap A) (literal : Text) :
    workCost h (.emit literal) = 1 := rfl

@[simp]
theorem workCost_close (h : Heap A) (identity : A) :
    workCost h (.close identity) = 1 := rfl

/-- A visit always costs something. -/
theorem visitCost_pos (h : Heap A) (n : ℕ) (r : Ref A) : 0 < visitCost h n r := by
  cases r with
  | atom x => cases n <;> simp [visitCost]
  | node a => cases n <;> simp [visitCost]

private theorem totalCost_comma (h : Heap A) (index : ℕ) :
    totalCost h (if index = 0 then [] else [Work.emit (text ",")]) ≤ 1 := by
  split_ifs <;> simp

theorem totalCost_itemEntries (h : Heap A) (depth index : ℕ) (items : List (Ref A)) :
    totalCost h (itemEntries depth index items) ≤
      (items.map fun child => visitCost h (maxDepth - depth) child + 2).sum := by
  induction items generalizing index with
  | nil => simp [itemEntries]
  | cons item items ih =>
      have hcomma := totalCost_comma h index
      have hrest := ih (index + 1)
      simp only [itemEntries, totalCost_append, totalCost_cons, workCost,
        Nat.add_sub_add_right, List.map_cons, List.sum_cons]
      omega

theorem totalCost_memberWork (h : Heap A) (depth index : ℕ)
    (members : List (Key × Ref A)) :
    totalCost h (memberWork depth index members) ≤
      (members.map fun member => visitCost h (maxDepth - depth) member.2 + 2).sum := by
  induction members generalizing index with
  | nil => simp [memberWork]
  | cons member members ih =>
      have hcomma := totalCost_comma h index
      have hrest := ih (index + 1)
      simp only [memberWork, totalCost_append, totalCost_cons, workCost,
        Nat.add_sub_add_right, List.map_cons, List.sum_cons]
      omega

/-- The entries of a dict cost no more than visits to its values and the signs between them. -/
theorem totalCost_dictChildren (h : Heap A) {members : Dict (Ref A)} {depth : ℕ}
    {pending : List (Work A)} (hpending : dictChildren members depth = .ok pending) :
    totalCost h pending ≤ (members.items.map fun member =>
      visitCost h (maxDepth - depth) member.2 + 2).sum + 1 := by
  by_cases hplain : ∀ member ∈ members.items, PlainKey member.1
  · rw [dictChildren_of_plain hplain, Except.ok.injEq] at hpending
    have hmembers := totalCost_memberWork h depth 0 (sortedMembers members.items)
    have hperm := ((sortedBy_perm (fun member : Key × Ref A =>
      utf16BigEndian (keyText member.1)) members.items).map fun member =>
        visitCost h (maxDepth - depth) member.2 + 2).sum_eq
    rw [← hpending, totalCost_append, totalCost_cons, totalCost_nil, workCost_emit]
    unfold sortedMembers at hmembers ⊢
    omega
  · obtain ⟨e, he⟩ := dictChildren_of_not_plain hplain depth
    simp [he] at hpending

end Variant

/-- Opening a container costs more than all the work it adds. -/
theorem openContainer_cost {h : Heap A} {identity : A} {depth : ℕ}
    {openContainers openContainers' : Finset A} {work work' : List (Work A)}
    {opener : Text}
    (hopen : openContainer h identity depth openContainers work =
      .ok (opener, openContainers', work')) :
    totalCost h work' < workCost h (.value (.node identity) depth) + totalCost h work := by
  unfold openContainer at hopen
  by_cases hdepth : maxDepth < depth
  · simp [hdepth] at hopen
  · by_cases hmem : identity ∈ openContainers
    · simp [hdepth, hmem] at hopen
    · have hfuel : maxDepth + 1 - depth = maxDepth - depth + 1 := by omega
      cases hnode : h identity with
      | list items =>
          simp [hdepth, hmem, hnode] at hopen
          obtain ⟨-, -, rfl⟩ := hopen
          have hitems := totalCost_itemEntries h depth 0 items
          simp only [listChildren, totalCost_append, totalCost_cons, totalCost_nil,
            workCost, hfuel, visitCost, hnode, Node.children]
          omega
      | dict members =>
          cases hpending : dictChildren members depth with
          | error e =>
              simp [hdepth, hmem, hnode, hpending] at hopen
          | ok pending =>
              simp [hdepth, hmem, hnode, hpending] at hopen
              obtain ⟨-, -, rfl⟩ := hopen
              have hmembers := totalCost_dictChildren h hpending
              simp only [totalCost_append, totalCost_cons, workCost, hfuel, visitCost, hnode,
                Node.children, List.map_map, Function.comp_def]
              omega

/-- Each step of the encoder lowers the cost of the work left, so that the loop ends. -/
theorem encodeStep_decreases {float : FloatRepr} {h : Heap A} {s s' : State A}
    (hstep : encodeStep float h s = .ok (.inl s')) :
    totalCost h s'.work < totalCost h s.work := by
  obtain ⟨out, openContainers, work⟩ := s
  cases work with
  | nil => simp [encodeStep] at hstep
  | cons entry work =>
      cases entry with
      | emit literal =>
          simp [encodeStep] at hstep
          simp [← hstep]
      | close identity =>
          simp [encodeStep] at hstep
          simp [← hstep]
      | value payload depth =>
          cases payload with
          | atom x =>
              cases hscalar : encodeScalar float x with
              | error e => simp [encodeStep, hscalar] at hstep
              | ok scalar =>
                  cases scalar with
                  | none =>
                      simp [encodeStep, hscalar] at hstep
                  | some scalar =>
                      simp [encodeStep, hscalar] at hstep
                      simp [← hstep, workCost, visitCost_pos]
          | node identity =>
              cases hopen : openContainer h identity depth openContainers work with
              | error e => simp [encodeStep, hopen] at hstep
              | ok entered =>
                  simp [encodeStep, hopen] at hstep
                  simpa [← hstep] using openContainer_cost hopen

/-- The loop of `_encode`. -/
def encodeLoop (float : FloatRepr) (h : Heap A) : Loop (State A) Raised Text where
  step := encodeStep float h
  variant s := totalCost h s.work
  decreases := encodeStep_decreases

def encode (float : FloatRepr) (h : Heap A) (root : Ref A) : Except Raised Text :=
  run (encodeLoop float h)
    { out := [], openContainers := ∅, work := [.value root 1] }

/-- `_encode`, with every exception that is not the module's own translated. -/
def canonicalize (float : FloatRepr) (h : Heap A) (value : Ref A) :
    Except Fp2UnsupportedValue Text :=
  match encode float h value with
  | .ok canonical => .ok canonical
  | .error (.fp2UnsupportedValue message) => .error ⟨message⟩
  | .error (.other typeName) =>
      .error ⟨s!"manifest could not be canonicalized ({typeName})"⟩

end TraigentSchema.Fp2
