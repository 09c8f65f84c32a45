import TraigentSchema.Library.JsonText

/-!
# Scanning JSON

A decoder reads a text from left to right and hands over each value as soon as it has been
read, before it knows how the text goes on.  What it has handed over when the text goes wrong,
or when containers nest too deep for its stack, are the documents read in full by then.  A
text it reads to the end has a document of the grammar within the limit of the stack, and the
other way round.
-/

namespace TraigentSchema.JsonText

open TraigentSchema.Unicode

/-- Why a scan stops before the end. -/
inductive Ending where
  | malformed
  | tooDeep
  deriving DecidableEq, Repr

/-- What has been read in full when a scan stops, in the order of the text. -/
structure Stopped where
  read : List Document
  ending : Ending

abbrev Scanned (B : Type) := Except Stopped (B × Text)

def stopAt {B : Type} (ending : Ending) : Except Stopped B :=
  .error ⟨[], ending⟩

/-- What has been read before a scan that stops. -/
def Stopped.after (document : Document) (stopped : Stopped) : Stopped :=
  ⟨document :: stopped.read, stopped.ending⟩

section Sequence

variable {B : Type} (element : Text → Scanned B) (documentOf : B → Document)
  (close : CodePoint)

/-- One or more elements with commas between them, and the character that closes them. -/
def scanSequence : (fuel : ℕ) → Text → Scanned (List B)
  | 0, _ => stopAt .malformed
  | fuel + 1, s =>
      match element s with
      | .error stopped => .error stopped
      | .ok (first, rest) =>
          match expect comma (skipSpace rest) with
          | some rest =>
              match scanSequence fuel (skipSpace rest) with
              | .ok (others, rest) => .ok (first :: others, rest)
              | .error stopped => .error (stopped.after (documentOf first))
          | none =>
              match expect close (skipSpace rest) with
              | some rest => .ok ([first], rest)
              | none => .error ⟨[documentOf first], .malformed⟩

/-- The elements of a container whose opening character has been read. -/
def scanElements (s : Text) : Scanned (List B) :=
  match expect close (skipSpace s) with
  | some rest => .ok ([], rest)
  | none => scanSequence element documentOf close (s.length + 1) (skipSpace s)

end Sequence

/-- The name of a member and the colon after it. -/
def readName (s : Text) : Option (Text × Text) := do
  let (key, rest) ← readString (← expect quoteMark s)
  let rest ← expect colon (skipSpace rest)
  return (key, skipSpace rest)

def scanMember (value : Text → Scanned Document) (s : Text) : Scanned (Text × Document) :=
  match readName s with
  | none => stopAt .malformed
  | some (key, rest) => (value rest).map fun read => ((key, read.1), read.2)

/-- A value that is no container. -/
def readLeaf (c : CodePoint) (rest : Text) : Option (Document × Text) :=
  if c = quoteMark then (readString rest).map fun read => (.leaf (.string read.1), read.2)
  else (readScalar (c :: rest)).map fun read => (.leaf read.1, read.2)

def orMalformed : Option (Document × Text) → Scanned Document
  | some read => .ok read
  | none => stopAt .malformed

/-- One value at the front of a text, in at most `limit` nested containers. -/
def scanValue : (limit : ℕ) → Text → Scanned Document
  | _, [] => stopAt .malformed
  | 0, c :: rest =>
      if c = leftBracket ∨ c = leftBrace then stopAt .tooDeep
      else orMalformed (readLeaf c rest)
  | limit + 1, c :: rest =>
      if c = leftBracket then
        (scanElements (scanValue limit) id rightBracket rest).map fun read =>
          (.list read.1, read.2)
      else if c = leftBrace then
        (scanElements (scanMember (scanValue limit)) Prod.snd rightBrace rest).map fun read =>
          (.dict read.1, read.2)
      else orMalformed (readLeaf c rest)

/-- The document of a whole text. -/
def scan (limit : ℕ) (s : Text) : Except Stopped Document :=
  match scanValue limit (skipSpace s) with
  | .error stopped => .error stopped
  | .ok (document, rest) =>
      if skipSpace rest = [] then .ok document else .error ⟨[document], .malformed⟩

/-- A text has a document, of whatever depth. -/
def Denotes (s : Text) (document : Document) : Prop :=
  ∃ fuel rest, parseValue fuel (skipSpace s) = some (document, rest) ∧ skipSpace rest = []

/-! ## Scanning against the grammar -/

section Sequences

variable {B : Type} {element : Text → Scanned B} {documentOf : B → Document}
  {read : Text → Option (B × Text)} {Within : B → Prop} {close : CodePoint}

theorem sequence_of_scanSequence
    (helement : ∀ s b rest, element s = .ok (b, rest) → read s = some (b, rest) ∧ Within b)
    {fuel : ℕ} {s : Text} {bs : List B} {rest : Text}
    (hscan : scanSequence element documentOf close fuel s = .ok (bs, rest)) :
    sequenceWithin read close fuel s = some (bs, rest) ∧ ∀ b ∈ bs, Within b := by
  induction fuel generalizing s bs with
  | zero => cases hscan
  | succ fuel ih =>
      rw [scanSequence] at hscan
      rw [sequenceWithin]
      cases hfirst : element s with
      | error stopped =>
          rw [hfirst] at hscan
          cases hscan
      | ok scanned =>
          obtain ⟨first, after⟩ := scanned
          obtain ⟨hread, hwithin⟩ := helement s first after hfirst
          simp only [hfirst] at hscan
          simp only [hread, Option.bind_eq_bind, Option.bind_some]
          cases hcomma : expect comma (skipSpace after) with
          | some next =>
              simp only [hcomma] at hscan ⊢
              cases hothers : scanSequence element documentOf close fuel (skipSpace next) with
              | error stopped =>
                  rw [hothers] at hscan
                  cases hscan
              | ok scanned =>
                  obtain ⟨others, last⟩ := scanned
                  simp only [hothers, Except.ok.injEq, Prod.mk.injEq] at hscan
                  obtain ⟨rfl, rfl⟩ := hscan
                  obtain ⟨hsequence, hall⟩ := ih hothers
                  simp only [hsequence]
                  exact ⟨rfl, List.forall_mem_cons.mpr ⟨hwithin, hall⟩⟩
          | none =>
              simp only [hcomma] at hscan ⊢
              cases hclose : expect close (skipSpace after) with
              | none =>
                  rw [hclose] at hscan
                  cases hscan
              | some last =>
                  simp only [hclose, Except.ok.injEq, Prod.mk.injEq] at hscan
                  obtain ⟨rfl, rfl⟩ := hscan
                  exact ⟨rfl, by simpa using hwithin⟩

theorem scanSequence_of_sequence
    (helement : ∀ s b rest, read s = some (b, rest) → Within b → element s = .ok (b, rest))
    {fuel : ℕ} {s : Text} {bs : List B} {rest : Text}
    (hread : sequenceWithin read close fuel s = some (bs, rest)) (hbs : ∀ b ∈ bs, Within b) :
    scanSequence element documentOf close fuel s = .ok (bs, rest) := by
  induction fuel generalizing s bs with
  | zero => cases hread
  | succ fuel ih =>
      rw [sequenceWithin] at hread
      rw [scanSequence]
      obtain ⟨⟨first, after⟩, hfirst, hread⟩ := Option.bind_eq_some_iff.mp hread
      cases hcomma : expect comma (skipSpace after) with
      | some next =>
          simp only [hcomma] at hread
          obtain ⟨⟨others, last⟩, hothers, hread⟩ := Option.bind_eq_some_iff.mp hread
          obtain ⟨rfl, rfl⟩ := Prod.mk.inj (Option.some.inj hread)
          rw [List.forall_mem_cons] at hbs
          simp only [helement s first after hfirst hbs.1, hcomma, ih hothers hbs.2]
      | none =>
          simp only [hcomma] at hread
          obtain ⟨last, hclose, hread⟩ := Option.bind_eq_some_iff.mp hread
          obtain ⟨rfl, rfl⟩ := Prod.mk.inj (Option.some.inj hread)
          simp only [helement s first after hfirst (hbs first (by simp)), hcomma, hclose]

theorem elements_of_scanElements
    (helement : ∀ s b rest, element s = .ok (b, rest) → read s = some (b, rest) ∧ Within b)
    {s : Text} {bs : List B} {rest : Text}
    (hscan : scanElements element documentOf close s = .ok (bs, rest)) :
    readElements read close s = some (bs, rest) ∧ ∀ b ∈ bs, Within b := by
  rw [scanElements] at hscan
  rw [readElements]
  cases hclose : expect close (skipSpace s) with
  | some after =>
      simp only [hclose, Except.ok.injEq, Prod.mk.injEq] at hscan
      obtain ⟨rfl, rfl⟩ := hscan
      exact ⟨rfl, by simp⟩
  | none =>
      rw [hclose] at hscan
      exact sequence_of_scanSequence helement hscan

theorem scanElements_of_elements
    (helement : ∀ s b rest, read s = some (b, rest) → Within b → element s = .ok (b, rest))
    {s : Text} {bs : List B} {rest : Text}
    (hread : readElements read close s = some (bs, rest)) (hbs : ∀ b ∈ bs, Within b) :
    scanElements element documentOf close s = .ok (bs, rest) := by
  rw [readElements] at hread
  rw [scanElements]
  cases hclose : expect close (skipSpace s) with
  | some after =>
      simp only [hclose, Option.some.injEq, Prod.mk.injEq] at hread
      obtain ⟨rfl, rfl⟩ := hread
      rfl
  | none =>
      rw [hclose] at hread
      exact scanSequence_of_sequence helement hread hbs

end Sequences

theorem readMember_eq_some_iff {B : Type} {value : Text → Option (B × Text)} {s : Text}
    {member : Text × B} {rest : Text} :
    readMember value s = some (member, rest) ↔
      ∃ after, readName s = some (member.1, after) ∧ value after = some (member.2, rest) := by
  obtain ⟨key, item⟩ := member
  simp only [readMember, readName, Option.bind_eq_bind, Option.pure_def,
    Option.bind_eq_some_iff, Option.some.injEq, Prod.mk.injEq, Prod.exists]
  constructor
  · rintro ⟨opened, hopened, name, after, hname, next, hcolon, item', rest', hvalue,
      ⟨rfl, rfl⟩, rfl⟩
    exact ⟨_, ⟨opened, hopened, name, after, hname, next, hcolon, rfl, rfl⟩, hvalue⟩
  · rintro ⟨_, ⟨opened, hopened, name, after, hname, next, hcolon, rfl, rfl⟩, hvalue⟩
    exact ⟨opened, hopened, name, after, hname, next, hcolon, item, rest, hvalue,
      ⟨rfl, rfl⟩, rfl⟩

theorem map_eq_ok_iff {B C E : Type} {f : B → C} {attempt : Except E B} {c : C} :
    attempt.map f = .ok c ↔ ∃ b, attempt = .ok b ∧ f b = c := by
  cases attempt <;> simp [Except.map]

theorem scanMember_eq_ok_iff {value : Text → Scanned Document} {s : Text}
    {member : Text × Document} {rest : Text} :
    scanMember value s = .ok (member, rest) ↔
      ∃ after, readName s = some (member.1, after) ∧ value after = .ok (member.2, rest) := by
  obtain ⟨name, item⟩ := member
  rw [scanMember]
  cases hname : readName s with
  | none => simp [stopAt]
  | some named =>
      obtain ⟨key, after⟩ := named
      simp only [map_eq_ok_iff, Option.some.injEq, Prod.mk.injEq]
      constructor
      · rintro ⟨⟨item', rest'⟩, hvalue, ⟨rfl, rfl⟩, rfl⟩
        exact ⟨after, ⟨rfl, rfl⟩, hvalue⟩
      · rintro ⟨after', ⟨rfl, rfl⟩, hvalue⟩
        exact ⟨(item, rest), hvalue, ⟨rfl, rfl⟩, rfl⟩

theorem orMalformed_eq_ok_iff {read : Option (Document × Text)} {result : Document × Text} :
    orMalformed read = .ok result ↔ read = some result := by
  cases read <;> simp [orMalformed, stopAt]

theorem parseValue_cons (fuel : ℕ) (c : CodePoint) (rest : Text) :
    parseValue (fuel + 1) (c :: rest) =
      if c = leftBracket then
        (readElements (parseValue fuel) rightBracket rest).map fun read => (.list read.1, read.2)
      else if c = leftBrace then
        (readElements (readMember (parseValue fuel)) rightBrace rest).map fun read =>
          (.dict read.1, read.2)
      else readLeaf c rest := by
  have hbracket : quoteMark ≠ leftBracket := by decide
  have hbrace : quoteMark ≠ leftBrace := by decide
  rw [parseValue, readLeaf]
  by_cases hquote : c = quoteMark
  · simp [hquote, hbracket, hbrace]
  · simp [hquote]

theorem nesting_of_readLeaf {c : CodePoint} {rest after : Text} {document : Document}
    (hread : readLeaf c rest = some (document, after)) : document.nesting = 0 := by
  rw [readLeaf] at hread
  split_ifs at hread
  · obtain ⟨read, -, heq⟩ := Option.map_eq_some_iff.mp hread
    rw [← (Prod.mk.inj heq).1, Tree.nesting_leaf]
  · obtain ⟨read, -, heq⟩ := Option.map_eq_some_iff.mp hread
    rw [← (Prod.mk.inj heq).1, Tree.nesting_leaf]

/-- A scan that reads a value has the document of the grammar, within the limit. -/
theorem parseValue_of_scanValue {limit : ℕ} {s : Text} {document : Document} {rest : Text}
    (hscan : scanValue limit s = .ok (document, rest)) :
    parseValue (limit + 1) s = some (document, rest) ∧ document.nesting ≤ limit := by
  induction limit generalizing s document rest with
  | zero =>
      cases s with
      | nil => cases hscan
      | cons c s =>
          rw [scanValue] at hscan
          split_ifs at hscan with hopen
          · cases hscan
          · have hleaf := orMalformed_eq_ok_iff.mp hscan
            rw [not_or] at hopen
            rw [parseValue_cons, if_neg hopen.1, if_neg hopen.2]
            exact ⟨hleaf, (nesting_of_readLeaf hleaf).le⟩
  | succ limit ih =>
      cases s with
      | nil => cases hscan
      | cons c s =>
          rw [scanValue] at hscan
          rw [parseValue_cons]
          split_ifs at hscan ⊢
          · obtain ⟨⟨items, after⟩, hitems, heq⟩ := map_eq_ok_iff.mp hscan
            obtain ⟨rfl, rfl⟩ := Prod.mk.inj heq
            obtain ⟨hread, hall⟩ := elements_of_scanElements (fun s b rest => ih) hitems
            rw [hread, Tree.nesting_list_le_iff]
            exact ⟨rfl, hall⟩
          · obtain ⟨⟨members, after⟩, hmembers, heq⟩ := map_eq_ok_iff.mp hscan
            obtain ⟨rfl, rfl⟩ := Prod.mk.inj heq
            have hmember : ∀ s (member : Text × Document) rest,
                scanMember (scanValue limit) s = .ok (member, rest) →
                  readMember (parseValue (limit + 1)) s = some (member, rest) ∧
                    member.2.nesting ≤ limit := by
              intro s member rest hmember
              obtain ⟨after, hname, hvalue⟩ := scanMember_eq_ok_iff.mp hmember
              obtain ⟨hparse, hle⟩ := ih hvalue
              exact ⟨readMember_eq_some_iff.mpr ⟨after, hname, hparse⟩, hle⟩
            obtain ⟨hread, hall⟩ := elements_of_scanElements hmember hmembers
            rw [hread, Tree.nesting_dict_le_iff]
            exact ⟨rfl, hall⟩
          · have hleaf := orMalformed_eq_ok_iff.mp hscan
            exact ⟨hleaf, (nesting_of_readLeaf hleaf).trans_le (Nat.zero_le _)⟩

/-- A document of the grammar within the limit is scanned. -/
theorem scanValue_of_parseValue {fuel limit : ℕ} {s : Text} {document : Document} {rest : Text}
    (hparse : parseValue fuel s = some (document, rest)) (hlimit : document.nesting ≤ limit) :
    scanValue limit s = .ok (document, rest) := by
  induction fuel generalizing limit s document rest with
  | zero => cases hparse
  | succ fuel ih =>
      cases s with
      | nil => cases hparse
      | cons c s =>
          rw [parseValue_cons] at hparse
          split_ifs at hparse with hbracket hbrace
          · obtain ⟨⟨items, after⟩, hitems, heq⟩ := Option.map_eq_some_iff.mp hparse
            obtain ⟨rfl, rfl⟩ := Prod.mk.inj heq
            obtain ⟨limit, rfl⟩ := Nat.exists_eq_add_one.mpr
              ((Tree.nesting_list_pos items).trans_le hlimit)
            rw [Tree.nesting_list_le_iff] at hlimit
            rw [scanValue, if_pos hbracket,
              scanElements_of_elements (fun s b rest => ih) hitems hlimit]
            rfl
          · obtain ⟨⟨members, after⟩, hmembers, heq⟩ := Option.map_eq_some_iff.mp hparse
            obtain ⟨rfl, rfl⟩ := Prod.mk.inj heq
            obtain ⟨limit, rfl⟩ := Nat.exists_eq_add_one.mpr
              ((Tree.nesting_dict_pos members).trans_le hlimit)
            rw [Tree.nesting_dict_le_iff] at hlimit
            have hmember : ∀ s (member : Text × Document) rest,
                readMember (parseValue fuel) s = some (member, rest) →
                  member.2.nesting ≤ limit →
                    scanMember (scanValue limit) s = .ok (member, rest) := by
              intro s member rest hmember hle
              obtain ⟨after, hname, hvalue⟩ := readMember_eq_some_iff.mp hmember
              exact scanMember_eq_ok_iff.mpr ⟨after, hname, ih hvalue hle⟩
            rw [scanValue, if_neg hbracket, if_pos hbrace,
              scanElements_of_elements hmember hmembers hlimit]
            rfl
          · cases limit with
            | zero =>
                rw [scanValue, if_neg (not_or.mpr ⟨hbracket, hbrace⟩), hparse]
                rfl
            | succ limit =>
                rw [scanValue, if_neg hbracket, if_neg hbrace, hparse]
                rfl

/-- A text is read to its end exactly when it has a document within the limit. -/
theorem scan_eq_ok_iff {limit : ℕ} {s : Text} {document : Document} :
    scan limit s = .ok document ↔ Denotes s document ∧ document.nesting ≤ limit := by
  constructor
  · intro hscan
    rw [scan] at hscan
    cases hvalue : scanValue limit (skipSpace s) with
    | error stopped =>
        rw [hvalue] at hscan
        cases hscan
    | ok scanned =>
        obtain ⟨document', rest⟩ := scanned
        simp only [hvalue] at hscan
        split_ifs at hscan with hrest
        obtain rfl := Except.ok.inj hscan
        obtain ⟨hparse, hle⟩ := parseValue_of_scanValue hvalue
        exact ⟨⟨limit + 1, rest, hparse, hrest⟩, hle⟩
  · rintro ⟨⟨fuel, rest, hparse, hrest⟩, hle⟩
    simp only [scan, scanValue_of_parseValue hparse hle, hrest, if_true]

end TraigentSchema.JsonText
