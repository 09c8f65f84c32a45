import TraigentSchema.Invariants.Relations
import TraigentSchema.Library.Decimal

/-!
# The locations that pointers name

A location of a payload is a path of object keys and array indices.  Its RFC 6901 pointer escapes
every step, and the walk of a declared invariant leads from the pointer back to the location.
-/

namespace TraigentSchema.Invariants

open TraigentSchema.Decimal
open TraigentSchema.Python
open TraigentSchema.Unicode

def tilde : CodePoint := codePoint '~'

def slash : CodePoint := codePoint '/'

/-! ## Escaping -/

def escapeChar (c : CodePoint) : Text :=
  if c = tilde then [tilde, codePoint '0']
  else if c = slash then [tilde, codePoint '1']
  else [c]

/-- A key as a segment of a pointer. -/
def escapeSegment (name : Text) : Text :=
  name.flatMap escapeChar

/-- A segment of an RFC 6901 pointer: `[^/~]*(~[01][^/~]*)*`. -/
def isSegment : Text → Bool
  | [] => true
  | [c] => c != tilde && c != slash
  | c :: d :: rest =>
      if c = tilde then (d == codePoint '0' || d == codePoint '1') && isSegment rest
      else c != slash && isSegment (d :: rest)

/-- The pointers that a declaration may hold. -/
def IsPointer (pointer : Text) : Prop :=
  pointer = [] ∨ ∃ rest, pointer = slash :: rest ∧
    ∀ segment ∈ rest.splitOn slash, isSegment segment = true

theorem replacePair_cons_of_ne {first second replacement a : CodePoint} (rest : Text)
    (hne : a ≠ first) :
    replacePair first second replacement (a :: rest) =
      a :: replacePair first second replacement rest := by
  cases rest with
  | nil => rfl
  | cons b rest => rw [replacePair, if_neg fun heq => hne heq.1]

/-- The slashes come back first; what is left has its tildes escaped. -/
theorem unslash_escapeSegment (name : Text) :
    replacePair tilde (codePoint '1') slash (escapeSegment name) =
      name.flatMap fun c => if c = tilde then [tilde, codePoint '0'] else [c] := by
  induction name with
  | nil => rfl
  | cons c name ih =>
      rw [escapeSegment, List.flatMap_cons, List.flatMap_cons, ← ih, escapeChar]
      split_ifs with htilde hslash
      · have hzero : codePoint '0' ≠ tilde := by decide
        rw [List.cons_append, List.cons_append, List.nil_append, replacePair,
          if_neg (by decide), replacePair_cons_of_ne _ hzero]
        rfl
      · rw [List.cons_append, List.cons_append, List.nil_append, replacePair,
          if_pos ⟨rfl, rfl⟩, hslash]
        rfl
      · rw [List.singleton_append, replacePair_cons_of_ne _ htilde]
        rfl

theorem unescapeSegment_escapeSegment (name : Text) :
    unescapeSegment (escapeSegment name) = name := by
  rw [unescapeSegment, ← tilde, ← slash, unslash_escapeSegment]
  induction name with
  | nil => rfl
  | cons c name ih =>
      rw [List.flatMap_cons]
      split_ifs with htilde
      · rw [List.cons_append, List.cons_append, List.nil_append, replacePair,
          if_pos ⟨rfl, rfl⟩, ih, htilde]
      · rw [List.singleton_append, replacePair_cons_of_ne _ htilde, ih]

theorem slash_notMem_escapeSegment (name : Text) : slash ∉ escapeSegment name := by
  rw [escapeSegment, List.mem_flatMap]
  rintro ⟨c, -, hmem⟩
  rw [escapeChar] at hmem
  split_ifs at hmem with htilde hslash
  · exact absurd hmem (by decide)
  · exact absurd hmem (by decide)
  · exact hslash (List.mem_singleton.mp hmem).symm

/-- The segments of pointers are the escaped keys. -/
theorem isSegment_iff {segment : Text} :
    isSegment segment = true ↔ ∃ name, segment = escapeSegment name := by
  constructor
  · intro hsegment
    induction segment using isSegment.induct with
    | case1 => exact ⟨[], rfl⟩
    | case2 c =>
        simp only [isSegment, Bool.and_eq_true, bne_iff_ne] at hsegment
        exact ⟨[c], by simp [escapeSegment, escapeChar, hsegment]⟩
    | case3 d rest ih =>
        simp only [isSegment, if_true, Bool.and_eq_true, Bool.or_eq_true, beq_iff_eq]
          at hsegment
        obtain ⟨name, rfl⟩ := ih hsegment.2
        rcases hsegment.1 with rfl | rfl
        · exact ⟨tilde :: name, rfl⟩
        · exact ⟨slash :: name, rfl⟩
    | case4 c d rest htilde ih =>
        simp only [isSegment, if_neg htilde, Bool.and_eq_true, bne_iff_ne] at hsegment
        obtain ⟨name, hname⟩ := ih hsegment.2
        refine ⟨c :: name, ?_⟩
        rw [hname, escapeSegment, escapeSegment, List.flatMap_cons, escapeChar, if_neg htilde,
          if_neg hsegment.1, List.singleton_append]
  · rintro ⟨name, rfl⟩
    induction name with
    | nil => rfl
    | cons c name ih =>
        rw [escapeSegment, List.flatMap_cons, escapeChar, ← escapeSegment]
        split_ifs with htilde hslash
        · simpa [isSegment, tilde] using ih
        · simpa [isSegment, tilde] using ih
        · cases hrest : escapeSegment name with
          | nil => simp [isSegment, htilde, hslash]
          | cons d rest =>
              rw [hrest] at ih
              simpa [isSegment, htilde, hslash] using ih

theorem escapeSegment_unescapeSegment {segment : Text} (hsegment : isSegment segment = true) :
    escapeSegment (unescapeSegment segment) = segment := by
  obtain ⟨name, rfl⟩ := isSegment_iff.mp hsegment
  rw [unescapeSegment_escapeSegment]

/-! ## Indices -/

theorem isDigit_iff {c : CodePoint} : isDigit c = true ↔ Decimal.IsDigit c := by
  simp only [isDigit, decide_eq_true_eq, Decimal.IsDigit]
  rfl

theorem digitsValue_eq (s : Text) : digitsValue s = naturalValue s := rfl

theorem isArrayIndex_decimalText (i : ℕ) : isArrayIndex (decimalText i) = true := by
  have hdigits := digits_decimalText i
  rcases noLeadingZero_decimalText i with hzero | ⟨c, rest, hsplit, hne⟩
  · rw [hzero]
    decide
  · rw [hsplit] at hdigits ⊢
    have hall : ∀ d ∈ c :: rest, isDigit d = true := fun d hd => isDigit_iff.mpr (hdigits d hd)
    rw [List.forall_mem_cons] at hall
    cases rest with
    | nil => exact hall.1
    | cons d rest =>
        have hzero : (c != codePoint '0') = true := bne_iff_ne.mpr hne
        rw [isArrayIndex, hall.1, hzero, List.all_eq_true.mpr hall.2]
        · rfl
        · simp

/-- An index has one spelling only, however long it is. -/
theorem decimalText_digitsValue {segment : Text} (hindex : isArrayIndex segment = true) :
    decimalText (digitsValue segment) = segment := by
  have hdigits : Digits segment := by
    intro c hc
    cases segment with
    | nil => cases hc
    | cons d rest =>
        cases rest with
        | nil =>
            rw [List.mem_singleton.mp hc]
            exact isDigit_iff.mp hindex
        | cons e rest =>
            simp only [isArrayIndex, Bool.and_eq_true, List.all_eq_true] at hindex
            rcases List.mem_cons.mp hc with rfl | hc
            · exact isDigit_iff.mp hindex.1.1
            · exact isDigit_iff.mp (hindex.2 c hc)
  have hlead : NoLeadingZero segment := by
    cases segment with
    | nil => cases hindex
    | cons d rest =>
        cases rest with
        | nil =>
            by_cases hzero : d = zeroDigit
            · exact Or.inl (by rw [hzero])
            · exact Or.inr ⟨d, [], rfl, hzero⟩
        | cons e rest =>
            simp only [isArrayIndex, Bool.and_eq_true, bne_iff_ne] at hindex
            exact Or.inr ⟨d, e :: rest, rfl, hindex.1.2⟩
  rw [digitsValue_eq, decimalText_naturalValue hdigits hlead]

/-- `sys.maxsize`, the most items of a list. -/
def sysMaxsize : ℕ := 2 ^ 63 - 1

/-- The limit of `int` on the digits is far above the length of a list. -/
theorem arrayItem_decimalText {A : Type} {items : List (Ref A)} {i : ℕ} {item : Ref A}
    (hlength : items.length ≤ sysMaxsize) (hitem : items[i]? = some item) :
    arrayItem items (decimalText i) = items[i]? := by
  obtain ⟨hlt, -⟩ := List.getElem?_eq_some_iff.mp hitem
  have hsmall : i < 10 ^ maxStrDigits :=
    calc
      i < 2 ^ 63 := hlt.trans_le (hlength.trans (Nat.sub_le _ _))
      _ ≤ 10 ^ 19 := by norm_num
      _ ≤ 10 ^ maxStrDigits := Nat.pow_le_pow_right (by norm_num) (by decide)
  have hdigits : (decimalText i).length ≤ maxStrDigits :=
    length_decimalText_le (by decide) hsmall
  rw [arrayItem, if_pos ⟨isArrayIndex_decimalText i, hdigits⟩, digitsValue_eq,
    naturalValue_decimalText]

/-! ## Locations -/

inductive Step where
  | key (name : Text)
  | index (i : ℕ)
  deriving DecidableEq

abbrev Path := List Step

/-- What a segment says, unescaped. -/
def Step.spelling : Step → Text
  | .key name => name
  | .index i => decimalText i

def pointerOf (path : Path) : Text :=
  (path.map Step.spelling).flatMap fun name => slash :: escapeSegment name

section Locations

variable {A : Type} (h : Heap A)

/-- The value that a step leads to: a key leads into an object, an index into an array. -/
def stepValue (current : Ref A) (step : Step) : Option (Ref A) :=
  match current with
  | .atom _ => none
  | .node a =>
      match h a with
      | .dict members =>
          match step with
          | .key name => lookupKey members.items (.str name)
          | .index _ => none
      | .list items =>
          match step with
          | .key _ => none
          | .index i => items[i]?

def valueAt (payload : Ref A) (path : Path) : Option (Ref A) :=
  path.foldlM (stepValue h) payload

/-- The step that a segment is taken for. -/
def stepTaken (current : Ref A) (segment : Text) : Step :=
  match current with
  | .atom _ => .key segment
  | .node a =>
      match h a with
      | .dict _ => .key segment
      | .list _ => .index (digitsValue segment)

/-- The steps of the walk along segments, where it reaches a value. -/
def stepsTaken (current : Ref A) : (segments : List Text) → Option Path
  | [] => some []
  | segment :: segments => do
      let next ← pointerStep h current segment
      let path ← stepsTaken next segments
      return stepTaken h current segment :: path

/-- The location that a pointer resolves to, if any. -/
def location (payload : Ref A) (pointer : Text) : Option Path :=
  match pointer with
  | [] => some []
  | c :: rest =>
      if c = slash then stepsTaken h payload ((rest.splitOn slash).map unescapeSegment)
      else none

variable {h}

theorem stepValue_stepTaken {current next : Ref A} {segment : Text}
    (hnext : pointerStep h current segment = some next) :
    stepValue h current (stepTaken h current segment) = some next ∧
      (stepTaken h current segment).spelling = segment := by
  cases current with
  | atom x => cases hnext
  | node a =>
      cases hnode : h a with
      | dict members =>
          simp only [pointerStep, stepValue, stepTaken, hnode] at hnext ⊢
          exact ⟨hnext, rfl⟩
      | list items =>
          simp only [pointerStep, stepValue, stepTaken, hnode, arrayItem] at hnext ⊢
          split_ifs at hnext with hindex
          exact ⟨hnext, decimalText_digitsValue hindex.1⟩

theorem pointerStep_spelling (hlists : ∀ a items, h a = .list items → items.length ≤ sysMaxsize)
    {current next : Ref A} {step : Step} (hnext : stepValue h current step = some next) :
    pointerStep h current step.spelling = some next := by
  cases current with
  | atom x => cases hnext
  | node a =>
      cases hnode : h a with
      | dict members =>
          simp only [stepValue, hnode] at hnext
          cases step with
          | key name =>
              simp only [pointerStep, hnode]
              exact hnext
          | index i => cases hnext
      | list items =>
          simp only [stepValue, hnode] at hnext
          cases step with
          | key name => cases hnext
          | index i =>
              have hitem : items[i]? = some next := hnext
              simp only [pointerStep, hnode]
              exact (arrayItem_decimalText (hlists a items hnode) hitem).trans hitem

theorem foldlM_spelling (hlists : ∀ a items, h a = .list items → items.length ≤ sysMaxsize)
    {payload result : Ref A} {path : Path} (hvalue : valueAt h payload path = some result) :
    (path.map Step.spelling).foldlM (pointerStep h) payload = some result := by
  induction path generalizing payload with
  | nil => exact hvalue
  | cons step path ih =>
      rw [valueAt, List.foldlM_cons, Option.bind_eq_bind, Option.bind_eq_some_iff] at hvalue
      obtain ⟨next, hnext, hrest⟩ := hvalue
      rw [List.map_cons, List.foldlM_cons, pointerStep_spelling hlists hnext]
      exact ih hrest

/-- The walk reaches the value at the location it takes, which spells its segments. -/
theorem stepsTaken_of_foldlM {payload result : Ref A} {segments : List Text}
    (hwalk : segments.foldlM (pointerStep h) payload = some result) :
    ∃ path, stepsTaken h payload segments = some path ∧ path.map Step.spelling = segments ∧
      valueAt h payload path = some result := by
  induction segments generalizing payload with
  | nil => exact ⟨[], rfl, rfl, hwalk⟩
  | cons segment segments ih =>
      rw [List.foldlM_cons, Option.bind_eq_bind, Option.bind_eq_some_iff] at hwalk
      obtain ⟨next, hnext, hrest⟩ := hwalk
      obtain ⟨path, htaken, hspelling, hvalue⟩ := ih hrest
      obtain ⟨hstep, hsegment⟩ := stepValue_stepTaken hnext
      refine ⟨stepTaken h payload segment :: path, ?_, ?_, ?_⟩
      · rw [stepsTaken, hnext, Option.bind_eq_bind, Option.bind_some, htaken]
        rfl
      · rw [List.map_cons, hsegment, hspelling]
      · rw [valueAt, List.foldlM_cons, hstep]
        exact hvalue

theorem foldlM_of_stepsTaken {payload : Ref A} {segments : List Text} {path : Path}
    (htaken : stepsTaken h payload segments = some path) :
    (segments.foldlM (pointerStep h) payload).isSome = true := by
  induction segments generalizing payload path with
  | nil => rfl
  | cons segment segments ih =>
      simp only [stepsTaken, Option.bind_eq_bind, Option.bind_eq_some_iff] at htaken
      obtain ⟨next, hnext, path', hrest, -⟩ := htaken
      rw [List.foldlM_cons, hnext]
      exact ih hrest

theorem intercalate_slash {names : List Text} (hne : names ≠ []) :
    names.flatMap (fun name => slash :: name) = slash :: [slash].intercalate names := by
  induction names with
  | nil => exact absurd rfl hne
  | cons name names ih =>
      cases names with
      | nil => simp
      | cons next names =>
          rw [List.flatMap_cons, ih (List.cons_ne_nil _ _),
            List.intercalate_cons_of_ne_nil (List.cons_ne_nil _ _)]
          simp

theorem flatMap_escapeSegment (names : List Text) :
    (names.flatMap fun name => slash :: escapeSegment name) =
      (names.map escapeSegment).flatMap fun name => slash :: name := by
  rw [List.flatMap_map]

/-- A pointer splits into the escaped steps it was built from. -/
theorem exists_pointerOf_cons (step : Step) (path : Path) :
    ∃ rest, pointerOf (step :: path) = slash :: rest ∧
      rest.splitOn slash = ((step :: path).map Step.spelling).map escapeSegment := by
  have hclean : ∀ segment ∈ ((step :: path).map Step.spelling).map escapeSegment,
      slash ∉ segment := by
    intro segment hsegment
    obtain ⟨name, -, rfl⟩ := List.mem_map.mp hsegment
    exact slash_notMem_escapeSegment name
  have hne : ((step :: path).map Step.spelling).map escapeSegment ≠ [] :=
    List.cons_ne_nil _ _
  refine ⟨_, ?_, List.splitOn_intercalate slash hclean hne⟩
  rw [pointerOf, flatMap_escapeSegment, intercalate_slash hne]

theorem isPointer_pointerOf (path : Path) : IsPointer (pointerOf path) := by
  cases path with
  | nil => exact Or.inl rfl
  | cons step path =>
      obtain ⟨rest, hpointer, hsplit⟩ := exists_pointerOf_cons step path
      refine Or.inr ⟨rest, hpointer, fun segment hsegment => ?_⟩
      rw [hsplit] at hsegment
      obtain ⟨name, -, rfl⟩ := List.mem_map.mp hsegment
      exact isSegment_iff.mpr ⟨name, rfl⟩

theorem escapeSegment_injective : Function.Injective escapeSegment :=
  Function.LeftInverse.injective unescapeSegment_escapeSegment

theorem spelling_eq_of_pointerOf {path path' : Path}
    (hsame : pointerOf path = pointerOf path') :
    path.map Step.spelling = path'.map Step.spelling := by
  cases path with
  | nil =>
      cases path' with
      | nil => rfl
      | cons step' path' =>
          obtain ⟨rest, hpointer, -⟩ := exists_pointerOf_cons step' path'
          rw [hpointer] at hsame
          cases hsame
  | cons step path =>
      obtain ⟨rest, hpointer, hsplit⟩ := exists_pointerOf_cons step path
      rw [hpointer] at hsame
      cases path' with
      | nil => cases hsame
      | cons step' path' =>
          obtain ⟨rest', hpointer', hsplit'⟩ := exists_pointerOf_cons step' path'
          rw [hpointer', List.cons.injEq] at hsame
          rw [← hsame.2, hsplit] at hsplit'
          exact List.map_injective_iff.mpr escapeSegment_injective hsplit'

theorem resolvePointer_pointerOf (payload : Ref A) (path : Path) :
    resolvePointer h payload (pointerOf path) =
      .ok ((path.map Step.spelling).foldlM (pointerStep h) payload) := by
  cases path with
  | nil => rfl
  | cons step path =>
      obtain ⟨rest, hpointer, hsplit⟩ := exists_pointerOf_cons step path
      rw [hpointer, resolvePointer, ← slash, if_pos rfl, hsplit, List.foldlM_map]
      simp only [unescapeSegment_escapeSegment]

/-- A pointer of a declaration is the pointer of the location it resolves to. -/
theorem pointerOf_location {payload : Ref A} {pointer : Text} {path : Path}
    (hpointer : IsPointer pointer) (hlocation : location h payload pointer = some path) :
    pointerOf path = pointer := by
  rcases hpointer with rfl | ⟨rest, rfl, hsegments⟩
  · rw [← Option.some.inj hlocation]
    rfl
  · rw [location, if_pos rfl] at hlocation
    obtain ⟨result, hwalk⟩ := Option.isSome_iff_exists.mp (foldlM_of_stepsTaken hlocation)
    obtain ⟨path', htaken, hspelling, -⟩ := stepsTaken_of_foldlM hwalk
    obtain rfl := Option.some.inj (htaken.symm.trans hlocation)
    have hescape : ((rest.splitOn slash).map unescapeSegment).map escapeSegment =
        rest.splitOn slash := by
      rw [List.map_map]
      refine (List.map_congr_left fun segment hsegment => ?_).trans (List.map_id _)
      exact escapeSegment_unescapeSegment (hsegments segment hsegment)
    rw [pointerOf, hspelling, flatMap_escapeSegment, hescape,
      intercalate_slash (List.splitOn_ne_nil _ _), List.intercalate_splitOn]

/-- A pointer resolves to a value where it has a location, whose value it is. -/
theorem resolvePointer_eq_some_iff {payload result : Ref A} {pointer : Text} :
    resolvePointer h payload pointer = .ok (some result) ↔
      ∃ path, location h payload pointer = some path ∧
        valueAt h payload path = some result := by
  cases pointer with
  | nil => simp [resolvePointer, location, valueAt]
  | cons c rest =>
      rw [resolvePointer, location, ← slash]
      by_cases hslash : c = slash
      · rw [if_pos hslash, if_pos hslash, Except.ok.injEq, ← List.foldlM_map]
        constructor
        · intro hwalk
          obtain ⟨path, htaken, -, hvalue⟩ := stepsTaken_of_foldlM hwalk
          exact ⟨path, htaken, hvalue⟩
        · rintro ⟨path, htaken, hvalue⟩
          obtain ⟨result', hwalk⟩ := Option.isSome_iff_exists.mp (foldlM_of_stepsTaken htaken)
          obtain ⟨path', htaken', -, hvalue'⟩ := stepsTaken_of_foldlM hwalk
          obtain rfl := Option.some.inj (htaken.symm.trans htaken')
          rw [hwalk, ← hvalue, hvalue']
      · simp [hslash]

theorem eq_of_stepValue {current next next' : Ref A} {step step' : Step}
    (hnext : stepValue h current step = some next)
    (hnext' : stepValue h current step' = some next')
    (hspelling : step.spelling = step'.spelling) : step = step' := by
  cases current with
  | atom x => cases hnext
  | node a =>
      cases hnode : h a <;> cases step <;> cases step' <;>
        simp only [stepValue, hnode, reduceCtorEq] at hnext hnext'
      · rw [decimalText_injective hspelling]
      · exact congrArg Step.key hspelling

/-- Two locations of one payload are spelled differently. -/
theorem eq_of_valueAt {payload result result' : Ref A} {path path' : Path}
    (hvalue : valueAt h payload path = some result)
    (hvalue' : valueAt h payload path' = some result')
    (hspelling : path.map Step.spelling = path'.map Step.spelling) : path = path' := by
  induction path generalizing payload path' with
  | nil =>
      rw [List.map_nil, eq_comm, List.map_eq_nil_iff] at hspelling
      exact hspelling.symm
  | cons step path ih =>
      cases path' with
      | nil => cases hspelling
      | cons step' path' =>
          rw [List.map_cons, List.map_cons, List.cons.injEq] at hspelling
          rw [valueAt, List.foldlM_cons, Option.bind_eq_bind, Option.bind_eq_some_iff]
            at hvalue hvalue'
          obtain ⟨next, hnext, hrest⟩ := hvalue
          obtain ⟨next', hnext', hrest'⟩ := hvalue'
          obtain rfl := eq_of_stepValue hnext hnext' hspelling.1
          obtain rfl := Option.some.inj (hnext.symm.trans hnext')
          rw [ih hrest hrest' hspelling.2]

end Locations

/-- Pointers and locations correspond.  Every path has a pointer of the declared form.  Where the
path has a value its pointer resolves to that value, at that location.  Otherwise the pointer is
missing, unless another path has the same pointer and a value: a pointer does not tell a key from
an index.  A pointer that resolves has a location, and two pointers of the declared form with
one location are the same. -/
theorem pointers_resolve_to_locations {A : Type} (h : Heap A)
    (hlists : ∀ a items, h a = .list items → items.length ≤ sysMaxsize) (payload : Ref A) :
    (∀ path, IsPointer (pointerOf path)) ∧
    (∀ path result, valueAt h payload path = some result →
      resolvePointer h payload (pointerOf path) = .ok (some result) ∧
        location h payload (pointerOf path) = some path) ∧
    (∀ path, (∀ other, pointerOf other = pointerOf path → valueAt h payload other = none) →
      resolvePointer h payload (pointerOf path) = .ok none) ∧
    (∀ pointer result, resolvePointer h payload pointer = .ok (some result) ↔
      ∃ path, location h payload pointer = some path ∧
        valueAt h payload path = some result) ∧
    ∀ left right path, IsPointer left → IsPointer right →
      location h payload left = some path → location h payload right = some path →
        left = right := by
  refine ⟨isPointer_pointerOf, ?_, ?_, fun _ _ => resolvePointer_eq_some_iff, ?_⟩
  · intro path result hvalue
    have hresolve : resolvePointer h payload (pointerOf path) = .ok (some result) := by
      rw [resolvePointer_pointerOf, foldlM_spelling hlists hvalue]
    obtain ⟨path', hlocation, hvalue'⟩ := resolvePointer_eq_some_iff.mp hresolve
    have hsame := pointerOf_location (isPointer_pointerOf path) hlocation
    have hpath := eq_of_valueAt hvalue' hvalue (spelling_eq_of_pointerOf hsame)
    exact ⟨hresolve, hpath ▸ hlocation⟩
  · intro path hnone
    rw [resolvePointer_pointerOf]
    cases hwalk : (path.map Step.spelling).foldlM (pointerStep h) payload with
    | none => rfl
    | some result =>
        obtain ⟨other, -, hspelling, hvalue⟩ := stepsTaken_of_foldlM hwalk
        have hsame : pointerOf other = pointerOf path := by
          rw [pointerOf, hspelling, pointerOf]
        rw [hnone other hsame] at hvalue
        cases hvalue
  · intro left right path hleft hright hlocation hlocation'
    calc
      left = pointerOf path := (pointerOf_location hleft hlocation).symm
      _ = right := pointerOf_location hright hlocation'

/-- A list in an object whose keys need both escapes. -/
def escapedKeys : Heap Bool
  | false => .dict
      ⟨[(.str (text "~1/"), .node true), (.str (text "~2"), .atom .none)], by simp⟩
  | true => .list [.atom .none]

theorem pointers_resolve_to_escapedKeys :
    resolvePointer escapedKeys (.node false) (pointerOf [.key (text "~1/"), .index 0]) =
      .ok (some (.atom .none)) ∧
    location escapedKeys (.node false) (pointerOf [.key (text "~1/"), .index 0]) =
      some [.key (text "~1/"), .index 0] := by
  have hlists : ∀ a items, escapedKeys a = .list items → items.length ≤ sysMaxsize := by
    intro a items hitems
    cases a with
    | false => cases hitems
    | true =>
        cases hitems
        decide
  exact (pointers_resolve_to_locations escapedKeys hlists (.node false)).2.1
    [.key (text "~1/"), .index 0] _ rfl

/-- A key that an array is asked for resolves as an index, and a bare tilde is read like an
escaped one. -/
theorem pointers_share_locations :
    (valueAt escapedKeys (.node true) [.key (text "0")] = none ∧
      resolvePointer escapedKeys (.node true) (pointerOf [.key (text "0")]) =
        .ok (some (.atom .none))) ∧
    text "/~2" ≠ text "/~02" ∧
    location escapedKeys (.node false) (text "/~2") = some [.key (text "~2")] ∧
    location escapedKeys (.node false) (text "/~02") = some [.key (text "~2")] := by
  refine ⟨⟨rfl, rfl⟩, by decide, rfl, rfl⟩

end TraigentSchema.Invariants
