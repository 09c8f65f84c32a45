import TraigentSchema.ExampleIdentity.CanonicalBytes
import TraigentSchema.Invariants.Relations
import TraigentSchema.Library.JsonScanning

/-!
# Strict JSON parsing

`parse_strict_json` runs the standard decoder with hooks that judge every number literal,
every constant and every finished object as soon as it has been read.  What the hooks raise
ends the decoding there.  `Decimal` raises outside its range of exponents, and that exception
is not translated.
-/

namespace TraigentSchema.ExampleIdentity

open TraigentSchema.Binary64
open TraigentSchema.Decimal (IsDigit le_naturalValue naturalValue)
open TraigentSchema.Fp2 (maxSafeInteger)
open TraigentSchema.Invariants (maxStrDigits)
open TraigentSchema.JsonNumber
open TraigentSchema.JsonText
open TraigentSchema.Python
open TraigentSchema.Traverse
open TraigentSchema.Unicode

/-- What decoding can raise. -/
inductive DecodeError where
  | contentIdentity (message : String)
  /-- `ValueError`, that of `int` and `JSONDecodeError`. -/
  | value
  /-- `decimal.InvalidOperation`, an `ArithmeticError`. -/
  | invalidOperation
  | recursion
  deriving DecidableEq, Repr

abbrev Decoded (A : Type) := Except DecodeError A

/-! ## The hooks -/

section Hooks

variable (decimalAccepts : NumberLiteral → Bool)

def rejectConstant (name : Constant) : Decoded PyValue :=
  .error (.contentIdentity (match name with
    | .nan => "non-finite number literal is not supported (NaN)"
    | .infinity => "non-finite number literal is not supported (Infinity)"
    | .negativeInfinity => "non-finite number literal is not supported (-Infinity)"))

def parseInt (literal : NumberLiteral) : Decoded PyValue :=
  if maxStrDigits < literal.integer.length then .error .value
  else
    let magnitude := naturalValue literal.integer
    if maxSafeInteger < magnitude then
      .error (.contentIdentity "integer literal outside +/-(2**53-1)")
    else .ok (.leaf (.int (if literal.negative then -(magnitude : ℤ) else magnitude)))

/-- `float(text)`. -/
def floatOfLiteral (literal : NumberLiteral) : Double :=
  match nearest literal.magnitude with
  | some m => .finite literal.negative m
  | none => .infinity literal.negative

/-- `_parse_float`; `Decimal` accepts the literals whose exponent is in its range. -/
def parseFloat (literal : NumberLiteral) : Decoded PyValue :=
  if !decimalAccepts literal then .error .invalidOperation
  else if (maxSafeInteger : ℚ) < literal.magnitude then
    .error (.contentIdentity "number literal outside +/-(2**53-1)")
  else .ok (.leaf (.float (floatOfLiteral literal)))

/-- The loop of `_pairs_without_duplicates`. -/
def addPair {V : Type} (result : List (Text × V)) (pair : Text × V) :
    Decoded (List (Text × V)) :=
  if result.any fun other => other.1 == pair.1 then
    .error (.contentIdentity "duplicate object key in JSON text")
  else .ok (result ++ [pair])

def pairsWithoutDuplicates {V : Type} (pairs : List (Text × V)) : Decoded (List (Text × V)) :=
  pairs.foldlM addPair []

def scalarHook : Scalar → Decoded PyValue
  | .null => .ok (.leaf .none)
  | .bool b => .ok (.leaf (.bool b))
  | .constant name => rejectConstant name
  | .number literal =>
      if literal.IsInteger then parseInt literal else parseFloat decimalAccepts literal
  | .string s => .ok (.leaf (.str s))

def arrayHook (items : List (Decoded PyValue)) : Decoded PyValue := do
  let values ← items.mapM id
  return .list values

def objectHook (members : List (Text × Decoded PyValue)) : Decoded PyValue := do
  let pairs ← members.mapM fun member => member.2.map (Prod.mk member.1)
  let result ← pairsWithoutDuplicates pairs
  return .dict (result.map fun pair => (.str pair.1, pair.2))

/-- The value of a document, its hooks called in the order of the text. -/
def evaluate : Document → Decoded PyValue :=
  Tree.fold (scalarHook decimalAccepts) arrayHook objectHook

/-- `json.loads` with the hooks.  Where the text goes wrong, they have been called for what
has been read by then. -/
def jsonLoads (limit : ℕ) (s : Text) : Decoded PyValue :=
  match scan limit s with
  | .ok document => evaluate decimalAccepts document
  | .error stopped => do
      let _ ← stopped.read.mapM (evaluate decimalAccepts)
      throw (match stopped.ending with
        | .malformed => .value
        | .tooDeep => .recursion)

/-- `parse_strict_json`, of a `str`. -/
def parseStrictJson (limit : ℕ) (s : Text) : Decoded PyValue :=
  match jsonLoads decimalAccepts limit s with
  | .error .value => .error (.contentIdentity "invalid JSON text")
  | outcome => outcome

end Hooks

/-! ## What the hooks are called for -/

inductive Event where
  | number (literal : NumberLiteral)
  | constant (name : Constant)
  | object (keys : List Text)

def scalarEvents : Scalar → List Event
  | .number literal => [.number literal]
  | .constant name => [.constant name]
  | _ => []

/-- The literals, constants and objects of a document in the order in which a reader finishes
them. -/
def events : Document → List Event :=
  Tree.fold scalarEvents List.flatten fun members =>
    (members.map Prod.snd).flatten ++ [.object (members.map Prod.fst)]

/-- What the strict profile admits. -/
def Acceptable : Event → Prop
  | .number literal => literal.magnitude ≤ maxSafeInteger
  | .constant _ => False
  | .object keys => keys.Nodup

/-- A number that is compared without an exception of the arithmetic. -/
def Comparable (decimalAccepts : NumberLiteral → Bool) : Event → Prop
  | .number literal => literal.IsInteger ∨ decimalAccepts literal = true
  | _ => True

/-- The strict profile: every number is within the safe integers by its exact value, nothing
is a constant, and no object repeats a key. -/
def StrictDocument (document : Document) : Prop :=
  ∀ event ∈ events document, Acceptable event

/-- A text has a value exactly when it is a document of the strict profile that the decoder
can nest, and every other text is refused with a content-identity error. -/
def JudgesByValue (decimalAccepts : NumberLiteral → Bool) (limit : ℕ) (s : Text) : Prop :=
  ((∃ v, parseStrictJson decimalAccepts limit s = .ok v) ↔
      ∃ document, JsonText.Denotes s document ∧ document.nesting ≤ limit ∧
        StrictDocument document) ∧
    ∀ raised, parseStrictJson decimalAccepts limit s = .error raised →
      ∃ message, raised = .contentIdentity message

/-- The literals, constants and objects read before a text ends or goes wrong. -/
def readEvents (limit : ℕ) (s : Text) : List Event :=
  match scan limit s with
  | .ok document => events document
  | .error stopped => stopped.read.flatMap events

/-- No literal that cannot be compared is read before something the profile refuses, nor do
containers nest too deep before. -/
def WithoutExceptions (decimalAccepts : NumberLiteral → Bool) (limit : ℕ) (s : Text) : Prop :=
  (∀ front event back, readEvents limit s = front ++ event :: back →
      (∀ earlier ∈ front, Acceptable earlier) → Comparable decimalAccepts event) ∧
    ∀ documents, scan limit s = .error ⟨documents, .tooDeep⟩ →
      ∃ event ∈ readEvents limit s, ¬ Acceptable event

/-! ## The hooks as checks of events -/

/-- Whether an outcome is an exception, and which. -/
def outcome {A : Type} (attempt : Decoded A) : Decoded Unit :=
  attempt.map fun _ => ()

@[simp]
theorem outcome_ok {A : Type} (a : A) : outcome (.ok a) = .ok () := rfl

@[simp]
theorem outcome_error {A : Type} (e : DecodeError) :
    outcome (.error e : Decoded A) = .error e := rfl

/-- Forgetting the value of a sequence is running the outcomes one after the other. -/
theorem outcome_bind {A B : Type} (attempt : Decoded A) (f : A → Decoded B) (g : Decoded Unit)
    (hf : ∀ a, attempt = .ok a → outcome (f a) = g) :
    outcome (attempt >>= f) = (outcome attempt >>= fun _ => g) := by
  cases attempt with
  | error e => rfl
  | ok a => exact hf a rfl

section Checks

variable {decimalAccepts : NumberLiteral → Bool}

/-- The hook an event calls. -/
def check (decimalAccepts : NumberLiteral → Bool) : Event → Decoded Unit
  | .number literal => outcome (scalarHook decimalAccepts (.number literal))
  | .constant name => outcome (rejectConstant name)
  | .object keys =>
      if keys.Nodup then .ok () else .error (.contentIdentity "duplicate object key in JSON text")

/-- The hooks of some events, one after the other. -/
def checkAll (decimalAccepts : NumberLiteral → Bool) (events : List Event) : Decoded Unit :=
  forM events (check decimalAccepts)

/-- Events are checked one after the other. -/
theorem checkAll_append (left right : List Event) :
    checkAll decimalAccepts (left ++ right) =
      (checkAll decimalAccepts left >>= fun _ => checkAll decimalAccepts right) :=
  List.forM_append

/-- The hook of an object fails exactly where its event does. -/
theorem pairsWithoutDuplicates_eq {V : Type} (pairs : List (Text × V)) :
    outcome (pairsWithoutDuplicates pairs) =
      check decimalAccepts (.object (pairs.map Prod.fst)) := by
  have hloop : ∀ (pairs result : List (Text × V)), (result.map Prod.fst).Nodup →
      outcome (pairs.foldlM addPair result) =
        check decimalAccepts (.object ((result ++ pairs).map Prod.fst)) := by
    intro pairs
    induction pairs with
    | nil =>
        intro result hresult
        rw [List.append_nil, check, if_pos hresult]
        rfl
    | cons pair pairs ih =>
        intro result hresult
        rw [List.foldlM_cons, addPair]
        split_ifs with hany
        · have hrepeat : ¬ ((result ++ pair :: pairs).map Prod.fst).Nodup := by
            obtain ⟨other, hother, hsame⟩ := List.any_eq_true.mp hany
            rw [beq_iff_eq] at hsame
            rw [List.map_append, List.map_cons, List.nodup_append]
            rintro ⟨-, -, hdisjoint⟩
            exact hdisjoint _ (List.mem_map.mpr ⟨other, hother, hsame⟩) _ (by simp) rfl
          rw [check, if_neg hrepeat]
          rfl
        · have hnew : ((result ++ [pair]).map Prod.fst).Nodup := by
            rw [List.map_append, List.nodup_append]
            refine ⟨hresult, by simp, ?_⟩
            intro key hkey last hlast heq
            obtain ⟨other, hother, rfl⟩ := List.mem_map.mp hkey
            rw [List.map_cons, List.map_nil, List.mem_singleton] at hlast
            exact hany (List.any_eq_true.mpr ⟨other, hother, by rw [heq, hlast, beq_iff_eq]⟩)
          have hnext := ih (result ++ [pair]) hnew
          rw [List.append_assoc, List.singleton_append] at hnext
          exact hnext
  exact hloop pairs [] List.nodup_nil

theorem outcome_mapM {A B : Type} (f : A → Decoded B) (rows : List A) :
    outcome (rows.mapM f) = forM rows fun row => outcome (f row) := by
  induction rows with
  | nil => rfl
  | cons row rows ih =>
      rw [List.mapM_cons, List.forM_cons, ← ih]
      cases f row with
      | error e => rfl
      | ok b => cases rows.mapM f <;> rfl

theorem checkAll_flatten (rows : List (List Event)) :
    checkAll decimalAccepts rows.flatten = forM rows (checkAll decimalAccepts) := by
  induction rows with
  | nil => rfl
  | cons row rows ih => rw [List.flatten_cons, checkAll_append, List.forM_cons, ih]

theorem forM_congr {A : Type} {f g : A → Decoded Unit} {rows : List A}
    (hrows : ∀ row ∈ rows, f row = g row) : forM rows f = forM rows g := by
  induction rows with
  | nil => rfl
  | cons row rows ih =>
      rw [List.forall_mem_cons] at hrows
      rw [List.forM_cons, List.forM_cons, hrows.1, ih hrows.2]

theorem events_list (items : List Document) :
    events (.list items) = (items.map events).flatten := by
  rw [events, Tree.fold_list, ← events]

theorem events_dict (members : List (Text × Document)) :
    events (.dict members) =
      (members.map fun member => events member.2).flatten ++
        [.object (members.map Prod.fst)] := by
  rw [events, Tree.fold_dict, ← events, List.map_map, List.map_map]
  rfl

/-- The hooks see the items of a list before the list. -/
theorem evaluate_list (items : List Document) :
    evaluate decimalAccepts (.list items) =
      arrayHook (items.map (evaluate decimalAccepts)) := by
  rw [evaluate, Tree.fold_list, ← evaluate]

/-- The hooks see the values of an object before the object. -/
theorem evaluate_dict (members : List (Text × Document)) :
    evaluate decimalAccepts (.dict members) =
      objectHook (members.map fun member => (member.1, evaluate decimalAccepts member.2)) := by
  rw [evaluate, Tree.fold_dict, ← evaluate]

theorem outcome_map {A B : Type} (f : A → B) (attempt : Decoded A) :
    outcome (attempt.map f) = outcome attempt := by
  cases attempt <;> rfl

theorem bind_ok_unit (attempt : Decoded Unit) : (attempt >>= fun _ => .ok ()) = attempt := by
  cases attempt <;> rfl

theorem forM_map {A B : Type} (f : A → B) (g : B → Decoded Unit) (rows : List A) :
    forM (rows.map f) g = forM rows fun row => g (f row) := by
  induction rows with
  | nil => rfl
  | cons row rows ih => rw [List.map_cons, List.forM_cons, List.forM_cons, ih]

theorem outcome_arrayHook (items : List (Decoded PyValue)) :
    outcome (arrayHook items) = forM items outcome := by
  rw [arrayHook, outcome_bind _ _ (.ok ()) fun values _ => rfl, bind_ok_unit, outcome_mapM]
  rfl

theorem outcome_objectHook (members : List (Text × Decoded PyValue)) :
    outcome (objectHook members) =
      (forM members (fun member => outcome member.2) >>= fun _ =>
        check decimalAccepts (.object (members.map Prod.fst))) := by
  have hpairs : ∀ pairs : List (Text × PyValue),
      members.mapM (fun member => member.2.map (Prod.mk member.1)) = .ok pairs →
        outcome (do
          let result ← pairsWithoutDuplicates pairs
          return Tree.dict (result.map fun pair => (Key.str pair.1, pair.2))) =
          check decimalAccepts (.object (members.map Prod.fst)) := by
    intro pairs hmap
    have hkeys : pairs.map Prod.fst = members.map Prod.fst := by
      have hforall := mapM_eq_ok_iff.mp hmap
      clear hmap
      induction hforall with
      | nil => rfl
      | @cons member pair _ _ hmember _ ih =>
          obtain ⟨value, -, hpair⟩ := JsonText.map_eq_ok_iff.mp hmember
          rw [List.map_cons, List.map_cons, ih, ← hpair]
    rw [outcome_bind _ _ (.ok ()) fun result _ => rfl, bind_ok_unit,
      @pairsWithoutDuplicates_eq decimalAccepts _ pairs, hkeys]
  rw [objectHook, outcome_bind _ _ _ hpairs, outcome_mapM]
  congr 1
  exact forM_congr fun member _ => outcome_map _ _

/-- A document fails as the first of its events does. -/
theorem outcome_evaluate (document : Document) :
    outcome (evaluate decimalAccepts document) =
      checkAll decimalAccepts (events document) := by
  induction document using Tree.induct with
  | leaf x =>
      cases x with
      | number literal =>
          simp [evaluate, events, scalarEvents, checkAll, check, bind_ok_unit]
      | constant name =>
          simp [evaluate, events, scalarEvents, checkAll, check, scalarHook, bind_ok_unit]
      | null => rfl
      | bool b => rfl
      | string s => rfl
  | list items ih =>
      rw [evaluate_list, outcome_arrayHook, events_list, checkAll_flatten, forM_map, forM_map]
      exact forM_congr ih
  | dict members ih =>
      have hkeys : (members.map fun member => (member.1, evaluate decimalAccepts member.2)).map
          Prod.fst = members.map Prod.fst := by
        rw [List.map_map]
        rfl
      have hlast : checkAll decimalAccepts [.object (members.map Prod.fst)] =
          check decimalAccepts (.object (members.map Prod.fst)) := bind_ok_unit _
      rw [evaluate_dict, outcome_objectHook, events_dict, checkAll_append, checkAll_flatten,
        forM_map, forM_map, hkeys, hlast, forM_congr ih]

/-- An integer literal that is too long for `int` is far outside the safe integers. -/
theorem maxSafeInteger_lt_of_length {literal : NumberLiteral}
    (hlong : maxStrDigits < literal.integer.length) :
    maxSafeInteger < naturalValue literal.integer := by
  rcases literal.integer_lead with hzero | ⟨c, tail, hsplit, hne⟩
  · rw [hzero, maxStrDigits] at hlong
    simp at hlong
  · have hc : IsDigit c := literal.integer_digits c (by simp [hsplit])
    have hle : 10 ^ tail.length ≤ naturalValue (c :: tail) := le_naturalValue hc hne
    rw [hsplit] at hlong ⊢
    rw [List.length_cons, maxStrDigits] at hlong
    calc maxSafeInteger < 10 ^ 16 := by norm_num [maxSafeInteger]
      _ ≤ 10 ^ tail.length := Nat.pow_le_pow_right (by norm_num) (by omega)
      _ ≤ naturalValue (c :: tail) := hle

/-- How the hook of an event fails. -/
theorem check_cases (event : Event) :
    (Acceptable event ∧ Comparable decimalAccepts event ∧
      check decimalAccepts event = .ok ()) ∨
    (¬ Comparable decimalAccepts event ∧
      check decimalAccepts event = .error .invalidOperation) ∨
    (¬ Acceptable event ∧ Comparable decimalAccepts event ∧
      (check decimalAccepts event = .error .value ∨
        ∃ message, check decimalAccepts event = .error (.contentIdentity message))) := by
  cases event with
  | constant name => exact Or.inr (Or.inr ⟨id, trivial, Or.inr ⟨_, rfl⟩⟩)
  | object keys =>
      by_cases hkeys : keys.Nodup
      · exact Or.inl ⟨hkeys, trivial, by rw [check, if_pos hkeys]⟩
      · exact Or.inr (Or.inr ⟨hkeys, trivial, Or.inr ⟨_, by rw [check, if_neg hkeys]⟩⟩)
  | number literal =>
      rw [check, scalarHook]
      by_cases hinteger : literal.IsInteger
      · have hmagnitude := NumberLiteral.magnitude_of_isInteger hinteger
        rw [if_pos hinteger, parseInt]
        have hacceptable : Acceptable (.number literal) ↔
            ¬ maxSafeInteger < naturalValue literal.integer := by
          rw [Acceptable, hmagnitude, not_lt, Nat.cast_le]
        by_cases hlong : maxStrDigits < literal.integer.length
        · rw [if_pos hlong]
          exact Or.inr (Or.inr ⟨fun h => hacceptable.mp h (maxSafeInteger_lt_of_length hlong),
            Or.inl hinteger, Or.inl rfl⟩)
        · rw [if_neg hlong]
          by_cases hbeyond : maxSafeInteger < naturalValue literal.integer
          · simp only [if_pos hbeyond]
            exact Or.inr (Or.inr ⟨fun h => hacceptable.mp h hbeyond, Or.inl hinteger,
              Or.inr ⟨_, rfl⟩⟩)
          · simp only [if_neg hbeyond]
            exact Or.inl ⟨hacceptable.mpr hbeyond, Or.inl hinteger, rfl⟩
      · rw [if_neg hinteger, parseFloat]
        cases haccepts : decimalAccepts literal with
        | false =>
            have hnot : ¬ Comparable decimalAccepts (.number literal) := by
              simp [Comparable, hinteger, haccepts]
            exact Or.inr (Or.inl ⟨hnot, rfl⟩)
        | true =>
            have hcomparable : Comparable decimalAccepts (.number literal) := Or.inr haccepts
            by_cases hbeyond : (maxSafeInteger : ℚ) < literal.magnitude
            · refine Or.inr (Or.inr ⟨not_le.mpr hbeyond, hcomparable, Or.inr
                ⟨"number literal outside +/-(2**53-1)", ?_⟩⟩)
              rw [if_neg (by simp), if_pos hbeyond]
              rfl
            · refine Or.inl ⟨not_lt.mp hbeyond, hcomparable, ?_⟩
              rw [if_neg (by simp), if_neg hbeyond]
              rfl

theorem checkAll_cons (event : Event) (rest : List Event) :
    checkAll decimalAccepts (event :: rest) =
      (check decimalAccepts event >>= fun _ => checkAll decimalAccepts rest) :=
  List.forM_cons

/-- All events pass when each is acceptable and raises nothing. -/
theorem checkAll_eq_ok_iff (events : List Event) :
    checkAll decimalAccepts events = .ok () ↔
      ∀ event ∈ events, Acceptable event ∧ Comparable decimalAccepts event := by
  rw [checkAll, forM_eq_ok_iff]
  refine forall₂_congr fun event _ => ?_
  rcases @check_cases decimalAccepts event with
    ⟨hacceptable, hcomparable, hcheck⟩ | ⟨hnot, hcheck⟩ |
      ⟨hnot, -, hcheck | ⟨message, hcheck⟩⟩
  · simp [hacceptable, hcomparable, hcheck]
  · simp [hnot, hcheck]
  · simp [hnot, hcheck]
  · simp [hnot, hcheck]

/-- Some events fail with an exception of the arithmetic when they meet a literal that cannot
be compared before they meet anything the profile refuses. -/
theorem checkAll_eq_invalidOperation_iff (events : List Event) :
    checkAll decimalAccepts events = .error .invalidOperation ↔
      ∃ front event back, events = front ++ event :: back ∧
        (∀ earlier ∈ front, Acceptable earlier) ∧ ¬ Comparable decimalAccepts event := by
  induction events with
  | nil => simp [checkAll]
  | cons head events ih =>
      have hsplit : (∃ front event back, head :: events = front ++ event :: back ∧
          (∀ earlier ∈ front, Acceptable earlier) ∧ ¬ Comparable decimalAccepts event) ↔
          ¬ Comparable decimalAccepts head ∨ (Acceptable head ∧
            ∃ front event back, events = front ++ event :: back ∧
              (∀ earlier ∈ front, Acceptable earlier) ∧
                ¬ Comparable decimalAccepts event) := by
        constructor
        · rintro ⟨front, event, back, heq, hfront, hnot⟩
          cases front with
          | nil => exact Or.inl ((List.cons.inj heq).1 ▸ hnot)
          | cons first front =>
              obtain ⟨rfl, rfl⟩ := List.cons.inj heq
              rw [List.forall_mem_cons] at hfront
              exact Or.inr ⟨hfront.1, front, event, back, rfl, hfront.2, hnot⟩
        · rintro (hnot | ⟨hhead, front, event, back, rfl, hfront, hnot⟩)
          · exact ⟨[], head, events, rfl, by simp, hnot⟩
          · exact ⟨head :: front, event, back, rfl,
              List.forall_mem_cons.mpr ⟨hhead, hfront⟩, hnot⟩
      rw [checkAll_cons, hsplit, ← ih]
      rcases @check_cases decimalAccepts head with
        ⟨hacceptable, hcomparable, hcheck⟩ | ⟨hnot, hcheck⟩ |
          ⟨hnot, hcomparable, hcheck | ⟨message, hcheck⟩⟩
      · simp [hacceptable, hcomparable, hcheck]
      · simp [hnot, hcheck]
      · simp [hnot, hcomparable, hcheck]
      · simp [hnot, hcomparable, hcheck]

/-- The events never exhaust the stack. -/
theorem checkAll_ne_recursion (events : List Event) :
    checkAll decimalAccepts events ≠ .error .recursion := by
  induction events with
  | nil => simp [checkAll]
  | cons head events ih =>
      rw [checkAll_cons]
      rcases @check_cases decimalAccepts head with
        ⟨-, -, hcheck⟩ | ⟨-, hcheck⟩ | ⟨-, -, hcheck | ⟨message, hcheck⟩⟩
      · rw [hcheck]
        exact ih
      all_goals simp [hcheck]

end Checks

/-! ## The outcome of a text -/

section Outcome

variable {decimalAccepts : NumberLiteral → Bool} {limit : ℕ} {s : Text}

/-- How a text ends once all its events have passed. -/
def endingOutcome (limit : ℕ) (s : Text) : Decoded Unit :=
  match scan limit s with
  | .ok _ => .ok ()
  | .error ⟨_, .malformed⟩ => .error .value
  | .error ⟨_, .tooDeep⟩ => .error .recursion

/-- Parsing fails at the first event that fails, or else at the end of what was read. -/
theorem outcome_jsonLoads (decimalAccepts : NumberLiteral → Bool) (limit : ℕ) (s : Text) :
    outcome (jsonLoads decimalAccepts limit s) =
      (checkAll decimalAccepts (readEvents limit s) >>= fun _ => endingOutcome limit s) := by
  rw [jsonLoads, readEvents, endingOutcome]
  cases scan limit s with
  | ok document =>
      simp only [outcome_evaluate, bind_ok_unit]
  | error stopped =>
      obtain ⟨documents, ending⟩ := stopped
      have hflat : documents.flatMap events = (documents.map events).flatten :=
        List.flatMap_def
      simp only [hflat, checkAll_flatten, forM_map]
      rw [outcome_bind _ _ _ fun values _ => rfl, outcome_mapM,
        forM_congr fun document _ => outcome_evaluate document]
      cases ending <;> rfl

theorem outcome_eq_ok_iff {A : Type} {attempt : Decoded A} :
    outcome attempt = .ok () ↔ ∃ a, attempt = .ok a := by
  cases attempt <;> simp

theorem outcome_eq_error_iff {A : Type} {attempt : Decoded A} {e : DecodeError} :
    outcome attempt = .error e ↔ attempt = .error e := by
  cases attempt <;> simp

theorem endingOutcome_eq_ok_iff :
    endingOutcome limit s = .ok () ↔ ∃ document, scan limit s = .ok document := by
  rw [endingOutcome]
  rcases scan limit s with ⟨documents, _ | _⟩ | document <;> simp

/-- The depth is exceeded exactly when the scan stops for it. -/
theorem endingOutcome_eq_recursion_iff :
    endingOutcome limit s = .error .recursion ↔
      ∃ documents, scan limit s = .error ⟨documents, .tooDeep⟩ := by
  rw [endingOutcome]
  rcases scan limit s with ⟨documents, _ | _⟩ | document <;> simp

theorem endingOutcome_ne_invalidOperation : endingOutcome limit s ≠ .error .invalidOperation := by
  rw [endingOutcome]
  rcases scan limit s with ⟨documents, _ | _⟩ | document <;> simp

/-- A text has a value when its events pass and it has a document. -/
theorem parseStrictJson_isOk_iff :
    (∃ v, parseStrictJson decimalAccepts limit s = .ok v) ↔
      (∀ event ∈ readEvents limit s, Acceptable event ∧ Comparable decimalAccepts event) ∧
        ∃ document, scan limit s = .ok document := by
  have hstrict : (∃ v, parseStrictJson decimalAccepts limit s = .ok v) ↔
      ∃ v, jsonLoads decimalAccepts limit s = .ok v := by
    rw [parseStrictJson]
    rcases jsonLoads decimalAccepts limit s with (_ | _ | _ | _) | v <;> simp
  rw [hstrict, ← outcome_eq_ok_iff, outcome_jsonLoads, unit_bind_eq_ok_iff,
    checkAll_eq_ok_iff, endingOutcome_eq_ok_iff]

/-- Every exception is a content-identity error unless the arithmetic or the stack fails. -/
theorem parseStrictJson_errors_iff :
    (∀ raised, parseStrictJson decimalAccepts limit s = .error raised →
        ∃ message, raised = .contentIdentity message) ↔
      jsonLoads decimalAccepts limit s ≠ .error .invalidOperation ∧
        jsonLoads decimalAccepts limit s ≠ .error .recursion := by
  rw [parseStrictJson]
  rcases jsonLoads decimalAccepts limit s with (_ | _ | _ | _) | v <;> simp

/-- The arithmetic raises at the first event that is not acceptable, if that is a number out of
range. -/
theorem jsonLoads_invalidOperation_iff :
    jsonLoads decimalAccepts limit s = .error .invalidOperation ↔
      ∃ front event back, readEvents limit s = front ++ event :: back ∧
        (∀ earlier ∈ front, Acceptable earlier) ∧ ¬ Comparable decimalAccepts event := by
  rw [← outcome_eq_error_iff, outcome_jsonLoads, ← checkAll_eq_invalidOperation_iff]
  cases checkAll decimalAccepts (readEvents limit s) with
  | ok u => simpa using endingOutcome_ne_invalidOperation
  | error e => rfl

/-- The depth only counts when every event before it has passed. -/
theorem jsonLoads_recursion_iff :
    jsonLoads decimalAccepts limit s = .error .recursion ↔
      (∀ event ∈ readEvents limit s, Acceptable event ∧ Comparable decimalAccepts event) ∧
        ∃ documents, scan limit s = .error ⟨documents, .tooDeep⟩ := by
  rw [← outcome_eq_error_iff, outcome_jsonLoads, ← checkAll_eq_ok_iff,
    ← endingOutcome_eq_recursion_iff]
  cases hcheck : checkAll decimalAccepts (readEvents limit s) with
  | ok u => simp
  | error e =>
      have hne : e ≠ .recursion := by
        rintro rfl
        exact checkAll_ne_recursion _ hcheck
      simp [hne]

/-- The literals that come first can all be compared, when they are all acceptable. -/
theorem comparable_of_first {events : List Event} (hall : ∀ event ∈ events, Acceptable event)
    (hfirst : ∀ front event back, events = front ++ event :: back →
      (∀ earlier ∈ front, Acceptable earlier) → Comparable decimalAccepts event) :
    ∀ event ∈ events, Comparable decimalAccepts event := by
  intro event hevent
  obtain ⟨front, back, rfl⟩ := List.append_of_mem hevent
  exact hfirst front event back rfl fun earlier hearlier =>
    hall earlier (List.mem_append_left _ hearlier)

end Outcome

/-- Literals are judged by their exact value, with one type of error, exactly where no literal
beyond the exponents of `Decimal` is read, and the stack is not exhausted, before something
the profile refuses. -/
theorem judgesByValue_iff (decimalAccepts : NumberLiteral → Bool) (limit : ℕ) (s : Text) :
    JudgesByValue decimalAccepts limit s ↔ WithoutExceptions decimalAccepts limit s := by
  have hfirst : jsonLoads decimalAccepts limit s ≠ .error .invalidOperation ↔
      ∀ front event back, readEvents limit s = front ++ event :: back →
        (∀ earlier ∈ front, Acceptable earlier) → Comparable decimalAccepts event := by
    rw [Ne, jsonLoads_invalidOperation_iff]
    push Not
    rfl
  rw [JudgesByValue, WithoutExceptions, parseStrictJson_errors_iff, hfirst,
    parseStrictJson_isOk_iff, Ne, jsonLoads_recursion_iff]
  constructor
  · rintro ⟨-, hcompare, hstack⟩
    refine ⟨hcompare, fun documents hdeep => ?_⟩
    by_contra hnone
    push Not at hnone
    have hcomparable := comparable_of_first hnone hcompare
    exact hstack ⟨fun event hevent => ⟨hnone event hevent, hcomparable event hevent⟩,
      documents, hdeep⟩
  · rintro ⟨hcompare, hstack⟩
    refine ⟨?_, hcompare, ?_⟩
    · constructor
      · rintro ⟨hevents, document, hscan⟩
        obtain ⟨hdenotes, hlimit⟩ := scan_eq_ok_iff.mp hscan
        rw [readEvents, hscan] at hevents
        exact ⟨document, hdenotes, hlimit, fun event hevent => (hevents event hevent).1⟩
      · rintro ⟨document, hdenotes, hlimit, hstrict⟩
        have hscan := scan_eq_ok_iff.mpr ⟨hdenotes, hlimit⟩
        have hread : readEvents limit s = events document := by rw [readEvents, hscan]
        rw [hread] at hcompare ⊢
        have hcomparable := comparable_of_first hstrict hcompare
        exact ⟨fun event hevent => ⟨hstrict event hevent, hcomparable event hevent⟩,
          document, hscan⟩
    · rintro ⟨hevents, documents, hdeep⟩
      obtain ⟨event, hevent, hnot⟩ := hstack documents hdeep
      exact hnot (hevents event hevent).1

/-! ## A literal beyond the exponents -/

/-- `Decimal` on a 64-bit platform bounds the exponent of the last digit from below, and that
of the first digit that counts from above. -/
def decimalAccepts64 (literal : NumberLiteral) : Bool :=
  let last := literal.exponentValue - literal.fraction.length
  let digits := (literal.integer ++ literal.fraction).dropWhile (· = codePoint '0')
  decide (-1999999999999999997 ≤ last ∧
    last + (digits.length - 1 : ℕ) ≤ 999999999999999999)

def isInvalidOperation {A : Type} : Decoded A → Bool
  | .error .invalidOperation => true
  | _ => false

/-- A zero whose exponent is out of range raises an exception of the arithmetic. -/
theorem parseStrictJson_zero_exponent :
    ¬ JudgesByValue decimalAccepts64 1000 (text "0e99999999999999999999") := by
  rintro ⟨-, herrors⟩
  have hraised : isInvalidOperation
      (parseStrictJson decimalAccepts64 1000 (text "0e99999999999999999999")) = true := by
    decide +kernel
  rcases hparse : parseStrictJson decimalAccepts64 1000 (text "0e99999999999999999999") with
    e | v
  · obtain ⟨message, rfl⟩ := herrors e hparse
    rw [hparse] at hraised
    cases hraised
  · rw [hparse] at hraised
    cases hraised

end TraigentSchema.ExampleIdentity
