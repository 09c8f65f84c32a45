import TraigentSchema.Draft7.Schema

/-!
# The structural comparator of the breaking-change gate

`compare_node` walks an old and a new schema side by side and reports every
difference of the keywords it knows.  Whether a difference is breaking depends on
the role of the file: a request must not accept less than before, a response must
not promise less.  The texts of the messages are left out; everything that
identifies a finding is kept.
-/

namespace TraigentSchema.BreakingSchemaCheck

open TraigentSchema.Unicode
open TraigentSchema.Python
open TraigentSchema.Draft7

/-! ## Findings -/

inductive Role where
  | request
  | response
  | conservative
  deriving DecidableEq, Repr

inductive Severity where
  | breaking
  | info
  deriving DecidableEq, Repr

/-- The values that identify what changed. -/
inductive FindingValue where
  | none
  | flag (b : Bool)
  | text (s : Text)
  | texts (l : List Text)
  | number (n : Number)
  | count (n : ℕ)
  | delta (direction : String) (values : List Text)
  | schema (s : Schema)

structure Finding where
  file : Text
  pointer : Text
  rule : String
  severity : Severity
  role : Role
  subject : FindingValue := .none
  old : FindingValue := .none
  new : FindingValue := .none

/-- The severity of a keyword-level difference: the mirror-image rule. -/
def keywordSeverity (role : Role) (narrowed : Bool) : Severity :=
  match role with
  | .request => if narrowed then .breaking else .info
  | .response => if !narrowed then .breaking else .info
  | .conservative => .breaking

/-! ## References -/

/-- The resources a `$ref` can point into.  `splitRef` joins a reference to a base
and cuts it at the fragment; `lookup` is the node at a pointer of a document. -/
structure Registry where
  splitRef : (base ref : Text) → Text × Text
  lookup : (document pointer : Text) → Option Schema

structure Resolved where
  node : Schema
  base : Text
  visited : List Text
  cyclic : Bool

/-- Follow a chain of references, at most `hops` of them; none when one of them
cannot be resolved. -/
def derefWithin (registry : Registry) :
    (hops : ℕ) → Schema → Text → List Text → Option Resolved
  | 0, .ref target, base, visited => some ⟨.ref target, base, visited, true⟩
  | hops + 1, .ref target, base, visited =>
      let (document, pointer) := registry.splitRef base target
      let key := document ++ text "#" ++ pointer
      if key ∈ visited then some ⟨.ref target, base, visited, true⟩
      else do
        let node ← registry.lookup document pointer
        derefWithin registry hops node document (key :: visited)
  | _, node, base, visited => some ⟨node, base, visited, false⟩

def deref (node : Schema) (base : Text) (registry : Registry) (visited : List Text) :
    Option Resolved :=
  derefWithin registry 25 node base visited

/-- Everything `compare_node` threads through its recursion. -/
structure NodeScope where
  oldBase : Text
  newBase : Text
  oldRegistry : Registry
  newRegistry : Registry
  oldVisited : List Text
  newVisited : List Text
  role : Role
  file : Text

namespace NodeScope

def emit (scope : NodeScope) (pointer : Text) (rule : String) (severity : Severity)
    (subject old new : FindingValue) : Finding where
  file := scope.file
  pointer := pointer
  rule := rule
  severity := severity
  role := scope.role
  subject := subject
  old := old
  new := new

/-- A keyword-level difference; the keyword is its own subject by default. -/
def keyword (scope : NodeScope) (pointer : Text) (keyword : String) (narrowed : Bool)
    (subject : Option FindingValue) (old new : FindingValue) : Finding :=
  scope.emit pointer keyword (keywordSeverity scope.role narrowed)
    (subject.getD (.text (text keyword))) old new

end NodeScope

/-! ## Value keywords -/

/-- `sorted` on a set of strings. -/
def sorted (names : Finset Text) : List Text :=
  names.sort

def typeSet (schema : Keywords Schema) : Option (Finset Text) :=
  schema.type.map fun t => (t.names.map SimpleType.name).toFinset

def enumSet (float : JsonRepr) (schema : Keywords Schema) : Option (Finset Text) :=
  schema.enum.map fun literals =>
    (literals.map fun literal => jsonDumps float literal.value).toFinset

/-- Members removed and added between two optional sets; a side without a
constraint is reported as a placeholder. -/
def setDelta (oldSet newSet : Option (Finset Text)) (wasUnset nowUnset : Text) :
    Finset Text × Finset Text :=
  let removed := oldSet.getD ∅ \ newSet.getD ∅
  let added := newSet.getD ∅ \ oldSet.getD ∅
  (if oldSet.isNone && newSet.isSome then {wasUnset} else removed,
    if newSet.isNone && oldSet.isSome then {nowUnset} else added)

def compareType (scope : NodeScope) (pointer : Text) (old new : Keywords Schema) :
    List Finding :=
  let oldTypes := typeSet old
  let newTypes := typeSet new
  if oldTypes = newTypes then []
  else
    let (removed, added) := setDelta oldTypes newTypes (text "<was unconstrained>")
      (text "<now unconstrained>")
    let repr : Option (Finset Text) → FindingValue := fun types =>
      if types.getD ∅ = ∅ then .none else .texts (sorted (types.getD ∅))
    (if removed ≠ ∅ then
      [scope.keyword pointer "type" true (some (.delta "removed" (sorted removed)))
        (repr oldTypes) (repr newTypes)]
    else []) ++
    if added ≠ ∅ then
      [scope.keyword pointer "type" false (some (.delta "added" (sorted added)))
        (repr oldTypes) (repr newTypes)]
    else []

/-- Enum members removed and added; dropping or introducing the whole constraint is
a placeholder on the side that changed. -/
def enumDelta (oldEnum newEnum : Option (Finset Text)) : Finset Text × Finset Text :=
  let removed := oldEnum.getD ∅ \ newEnum.getD ∅
  let added := newEnum.getD ∅ \ oldEnum.getD ∅
  (if oldEnum.isSome && newEnum.isNone then {text "<enum constraint removed entirely>"}
    else removed,
    if newEnum.isSome && oldEnum.isNone then {text "<enum constraint added>"} else added)

def compareEnum (float : JsonRepr) (scope : NodeScope) (pointer : Text)
    (old new : Keywords Schema) : List Finding :=
  let oldEnum := enumSet float old
  let newEnum := enumSet float new
  if oldEnum = newEnum then []
  else
    let (removed, added) := enumDelta oldEnum newEnum
    let repr : Option (Finset Text) → FindingValue := fun members =>
      members.elim .none fun members => .texts (sorted members)
    (if removed ≠ ∅ then
      [scope.keyword pointer "enum" true (some (.delta "removed" (sorted removed)))
        (repr oldEnum) (repr newEnum)]
    else []) ++
    if added ≠ ∅ then
      [scope.keyword pointer "enum" false (some (.delta "added" (sorted added)))
        (repr oldEnum) (repr newEnum)]
    else []

/-- A changed pattern counts as a narrowing. -/
def patternNarrowed : (old new : Option Text) → Bool
  | none, some _ => true
  | some _, none => false
  | _, _ => true

def comparePattern (scope : NodeScope) (pointer : Text) (old new : Keywords Schema) :
    List Finding :=
  if old.pattern = new.pattern then []
  else
    let value : Option Text → FindingValue := fun p => p.elim .none .text
    [scope.keyword pointer "pattern" (patternNarrowed old.pattern new.pattern) none
      (value old.pattern) (value new.pattern)]

def maxKeys : List (String × Limit) :=
  [("maxLength", .length), ("maximum", .number), ("maxItems", .items),
    ("maxProperties", .properties)]

def minKeys : List (String × Limit) :=
  [("minLength", .length), ("minimum", .number), ("minItems", .items),
    ("minProperties", .properties)]

def boundFinding (scope : NodeScope) (pointer : Text) (kw : String) (narrowed : Bool)
    (ov nv : Option Number) : Finding :=
  let value : Option Number → FindingValue := fun n => n.elim .none .number
  scope.keyword pointer kw narrowed none (value ov) (value nv)

/-- An upper bound; an absent one is infinite. -/
def upperBound (bound : Option Number) : Extended :=
  bound.elim ⊤ Number.value

def lowerBound (bound : Option Number) : Extended :=
  bound.elim ⊥ Number.value

def compareMaxBounds (scope : NodeScope) (pointer : Text) (old new : Keywords Schema) :
    List Finding :=
  maxKeys.flatMap fun (kw, limit) =>
    let ov := old.upper limit
    let nv := new.upper limit
    if ov.map Number.value ≠ nv.map Number.value then
      if upperBound nv < upperBound ov then [boundFinding scope pointer kw true ov nv]
      else if upperBound ov < upperBound nv then [boundFinding scope pointer kw false ov nv]
      else []
    else []

def compareMinBounds (scope : NodeScope) (pointer : Text) (old new : Keywords Schema) :
    List Finding :=
  minKeys.flatMap fun (kw, limit) =>
    let ov := old.lower limit
    let nv := new.lower limit
    if ov.map Number.value ≠ nv.map Number.value then
      if lowerBound ov < lowerBound nv then [boundFinding scope pointer kw true ov nv]
      else if lowerBound nv < lowerBound ov then [boundFinding scope pointer kw false ov nv]
      else []
    else []

def requiredSet (schema : Keywords Schema) : Finset Text :=
  (schema.required.getD []).toFinset

def compareRequired (scope : NodeScope) (pointer : Text) (old new : Keywords Schema) :
    List Finding :=
  let oldRequired := requiredSet old
  let newRequired := requiredSet new
  if oldRequired = newRequired then []
  else
    (sorted (newRequired \ oldRequired)).map (fun name =>
      scope.keyword pointer "required" true (some (.text name)) (.flag false) (.flag true)) ++
    (sorted (oldRequired \ newRequired)).map fun name =>
      scope.keyword pointer "required" false (some (.text name)) (.flag true) (.flag false)

/-! ## Members and elements -/

/-- 0 for open, 1 for a constrained map, 2 for closed. -/
def closednessRank (schema : Keywords Schema) : ℕ :=
  match schema.additionalProperties with
  | none => 0
  | some (.bool true) => 0
  | some (.bool false) => 2
  | some (.ref _) => 1
  | some (.object _) => 1

def closednessLabel : ℕ → Text
  | 0 => text "open (true/absent)"
  | 1 => text "constrained (a value schema)"
  | _ => text "closed (false)"

/-- `isinstance(schema, dict)`. -/
def isObjectSchema : Schema → Bool
  | .bool _ => false
  | .ref _ => true
  | .object _ => true

section Recursion

variable (scope : NodeScope) (pointer : Text) (recurse : Schema → Schema → Text → List Finding)

def compareAdditionalProperties (old new : Keywords Schema) : List Finding :=
  let oldRank := closednessRank old
  let newRank := closednessRank new
  (if oldRank ≠ newRank then
    [scope.keyword pointer "additionalProperties" (decide (oldRank < newRank)) none
      (.text (closednessLabel oldRank)) (.text (closednessLabel newRank))]
  else []) ++
  match old.additionalProperties, new.additionalProperties with
  | some oldMap, some newMap =>
      if isObjectSchema oldMap && isObjectSchema newMap then
        recurse oldMap newMap (pointer ++ text "/additionalProperties")
      else []
  | _, _ => []

def propertyRemoved (child name : Text) (newRank : ℕ) : Finding :=
  if 1 ≤ newRank then
    scope.keyword child "property_removed" true (some (.text name)) (.flag true) (.flag false)
  else scope.emit child "property_removed" .info .none .none .none

def propertyAdded (child name : Text) (oldRank : ℕ) : Finding :=
  if 1 ≤ oldRank then
    scope.keyword child "property_added" false (some (.text name)) (.flag false) (.flag true)
  else scope.emit child "property_added" .info .none .none .none

/-- The keys of two dicts, sorted. -/
def unionKeys (old new : List (Text × Schema)) : List Text :=
  sorted ((old.map Prod.fst).toFinset ∪ (new.map Prod.fst).toFinset)

def compareProperties (old new : Keywords Schema) (oldRank newRank : ℕ) : List Finding :=
  (unionKeys old.propertyRows new.propertyRows).flatMap fun name =>
    let child := pointer ++ text "/properties/" ++ name
    match old.propertyRows.lookup name, new.propertyRows.lookup name with
    | some _, none => [propertyRemoved scope child name newRank]
    | none, some _ => [propertyAdded scope child name oldRank]
    | some oldChild, some newChild => recurse oldChild newChild child
    | none, none => []

def patternPropertyAdded (child pat : Text) (oldRank : ℕ) : Finding :=
  if 1 ≤ oldRank then
    scope.keyword child "patternProperties_added" false (some (.text pat)) (.flag false)
      (.flag true)
  else scope.emit child "patternProperties_added" .info .none .none .none

def comparePatternProperties (old new : Keywords Schema) (oldRank newRank : ℕ) :
    List Finding :=
  (unionKeys old.patternRows new.patternRows).flatMap fun pat =>
    let child := pointer ++ text "/patternProperties/" ++ pat
    match old.patternRows.lookup pat, new.patternRows.lookup pat with
    | some _, none =>
        [scope.keyword child "patternProperties_removed" (decide (1 ≤ newRank))
          (some (.text pat)) (.flag true) (.flag false)]
    | none, some _ => [patternPropertyAdded scope child pat oldRank]
    | some oldChild, some newChild => recurse oldChild newChild child
    | none, none => []

/-- `old_items != new_items` when not both are dicts.  Two lists are compared by
`sameList`. -/
def itemsDiffer (sameList : List Schema → List Schema → Bool) :
    (old new : Option (Schema ⊕ List Schema)) → Bool
  | none, none => false
  | some (.inl (.bool old)), some (.inl (.bool new)) => old != new
  | some (.inr old), some (.inr new) => !sameList old new
  | _, _ => true

def compareItems (sameList : List Schema → List Schema → Bool) (old new : Keywords Schema) :
    List Finding :=
  let child := pointer ++ text "/items"
  let isDict : Option (Schema ⊕ List Schema) → Option Schema := fun items =>
    match items with
    | some (.inl s) => if isObjectSchema s then some s else none
    | _ => none
  match isDict old.items, isDict new.items with
  | some oldItems, some newItems => recurse oldItems newItems child
  | oldItems, newItems =>
      if old.items.isNone && newItems.isSome then
        [scope.keyword child "items" true none .none (newItems.elim .none .schema)]
      else if oldItems.isSome && new.items.isNone then
        [scope.keyword child "items" false none (oldItems.elim .none .schema) .none]
      else if itemsDiffer sameList old.items new.items then
        [scope.emit child "items_structure_changed" .info .none .none .none]
      else []

/-! ## Combinators -/

def combinatorAppeared (child : Text) (combinator : String) (branches : List Schema) :
    Finding :=
  if combinator = "allOf" ∧ branches = [] then
    scope.emit child (combinator ++ "_added") .info .none .none .none
  else
    scope.keyword child (combinator ++ "_added") true (some (.text (text combinator)))
      (.count 0) (.count branches.length)

def combinatorDisappeared (child : Text) (combinator : String) (branches : List Schema) :
    Finding :=
  if combinator = "allOf" ∧ branches = [] then
    scope.emit child (combinator ++ "_removed") .info .none .none .none
  else
    scope.keyword child (combinator ++ "_removed") false (some (.text (text combinator)))
      (.count branches.length) (.count 0)

/-- Branch by branch, or the changed number of branches. -/
def compareCombinatorBranches (child : Text) (combinator : String)
    (old new : List Schema) : List Finding :=
  if old.length ≠ new.length then
    [scope.emit child (combinator ++ "_branch_count_changed") .breaking
      (.text (text combinator)) (.count old.length) (.count new.length)]
  else
    ((old.zip new).zipIdx).flatMap fun branch =>
      recurse branch.1.1 branch.1.2
        (child ++ text "/" ++ Decimal.decimalText branch.2)

def compareCombinator (combinator : String) (old new : Option (List Schema)) :
    List Finding :=
  let child := pointer ++ text "/" ++ text combinator
  match old, new with
  | none, none => []
  | none, some branches => [combinatorAppeared scope child combinator branches]
  | some branches, none => [combinatorDisappeared scope child combinator branches]
  | some oldBranches, some newBranches =>
      compareCombinatorBranches scope recurse child combinator oldBranches newBranches

end Recursion

/-! ## Nodes -/

/-- Two object schemas to compare, or the findings with which the comparison of
this node ends. -/
def resolveNodePair (scope : NodeScope) (old new : Schema) (pointer : Text) :
    List Finding ⊕ (Keywords Schema × Keywords Schema × NodeScope) :=
  match deref old scope.oldBase scope.oldRegistry scope.oldVisited,
    deref new scope.newBase scope.newRegistry scope.newVisited with
  | none, _ => .inl [scope.emit pointer "unresolved_ref" .breaking .none .none .none]
  | some _, none => .inl [scope.emit pointer "unresolved_ref" .breaking .none .none .none]
  | some oldResolved, some newResolved =>
      match oldResolved.node, newResolved.node with
      | .bool oldLeaf, .bool newLeaf =>
          .inl (if oldLeaf ≠ newLeaf then
            [scope.emit pointer "leaf_changed" .info .none .none .none] else [])
      | .bool _, _ => .inl [scope.emit pointer "leaf_changed" .info .none .none .none]
      | _, .bool _ => .inl [scope.emit pointer "leaf_changed" .info .none .none .none]
      | .object oldKeywords, .object newKeywords =>
          .inr (oldKeywords, newKeywords,
            { scope with
              oldBase := oldResolved.base
              newBase := newResolved.base
              oldVisited := oldResolved.visited
              newVisited := newResolved.visited })
      | _, _ => .inl [scope.emit pointer "cyclic_ref" .info .none .none .none]

section CompareNode

variable (float : JsonRepr) (sameList : List Schema → List Schema → Bool)

/-- Compare two object schemas whose references are resolved. -/
def compareKeywords (scope : NodeScope) (pointer : Text)
    (recurse : Schema → Schema → Text → List Finding) (old new : Keywords Schema) :
    List Finding :=
  let oldRank := closednessRank old
  let newRank := closednessRank new
  compareType scope pointer old new ++
  compareEnum float scope pointer old new ++
  compareAdditionalProperties scope pointer recurse old new ++
  comparePattern scope pointer old new ++
  compareMaxBounds scope pointer old new ++
  compareMinBounds scope pointer old new ++
  compareRequired scope pointer old new ++
  compareProperties scope pointer recurse old new oldRank newRank ++
  comparePatternProperties scope pointer recurse old new oldRank newRank ++
  compareItems scope pointer recurse sameList old new ++
  compareCombinator scope pointer recurse "oneOf" old.oneOf new.oneOf ++
  compareCombinator scope pointer recurse "anyOf" old.anyOf new.anyOf ++
  compareCombinator scope pointer recurse "allOf" old.allOf new.allOf

/-- `compare_node` with `levels` more levels before the depth limit. -/
def compareNodeWithin : (levels : ℕ) → NodeScope → (old new : Schema) → Text → List Finding
  | 0, scope, _, _, pointer => [scope.emit pointer "depth_limit" .info .none .none .none]
  | levels + 1, scope, old, new, pointer =>
      match resolveNodePair scope old new pointer with
      | .inl findings => findings
      | .inr (oldKeywords, newKeywords, resolved) =>
          compareKeywords float sameList resolved pointer
            (compareNodeWithin levels resolved) oldKeywords newKeywords

/-- `compare_node` from depth 0; the comparison stops below depth 60. -/
def compareNode (scope : NodeScope) (old new : Schema) (pointer : Text) : List Finding :=
  compareNodeWithin float sameList 61 scope old new pointer

end CompareNode

end TraigentSchema.BreakingSchemaCheck
