import TraigentSchema.BreakingSchemaCheck.References

/-!
# Where the two readings of a reference agree

The JSON pointer walk of the comparator skips leading slashes, takes the pointer "/" for the
whole document and reads array indices with `int`.  On the remaining pointers it is the walk
of RFC 6901.  A relative reference names one file unless it ends in dots.
-/

namespace TraigentSchema.BreakingSchemaCheck

open TraigentSchema.Invariants
open TraigentSchema.Python
open TraigentSchema.Unicode
open TraigentSchema.UriReference

/-! ## Canonical indices -/

section Int

variable {unicode : DecimalDigits}

def digitOf (c : CodePoint) : ℕ :=
  c.val - (codePoint '0').val

/-- Digits of ASCII are read alike by both resolvers. -/
theorem readDigits_of_isDigit {s : Text} (hne : s ≠ []) (hs : ∀ c ∈ s, isDigit c = true) :
    readDigits unicode s = some (s.map digitOf) := by
  induction s with
  | nil => exact absurd rfl hne
  | cons c s ih =>
      rw [List.forall_mem_cons] at hs
      have hdigit := unicode.digit_ascii c hs.1
      cases s with
      | nil => simp [readDigits, hdigit, digitOf]
      | cons next rest =>
          have hnext : next ≠ codePoint '_' := by
            rintro rfl
            exact absurd (hs.2 (codePoint '_') (by simp)) (by decide)
          rw [readDigits, hdigit, Option.bind_some, if_neg hnext, ih (by simp) hs.2]
          rfl

theorem dropWhile_eq_self {p : CodePoint → Bool} {s : Text} (hs : ∀ c ∈ s, p c = false) :
    s.dropWhile p = s := by
  cases s with
  | nil => rfl
  | cons c s => simp [hs c (by simp)]

theorem strip_of_isDigit {s : Text} (hs : ∀ c ∈ s, isDigit c = true) :
    strip unicode s = s := by
  have hspace : ∀ c ∈ s, unicode.isSpace c = false := fun c hc =>
    unicode.isSpace_ascii c (hs c hc)
  have hreverse : ∀ c ∈ s.reverse, unicode.isSpace c = false := fun c hc =>
    hspace c (List.mem_reverse.mp hc)
  rw [strip, dropWhile_eq_self hspace, dropWhile_eq_self hreverse, List.reverse_reverse]

theorem splitSign_of_isDigit {s : Text} (hs : ∀ c ∈ s, isDigit c = true) :
    splitSign s = (false, s) := by
  cases s with
  | nil => rfl
  | cons c s =>
      have hc := hs c (by simp)
      have hminus : c ≠ codePoint '-' := by
        rintro rfl
        exact absurd hc (by decide)
      have hplus : c ≠ codePoint '+' := by
        rintro rfl
        exact absurd hc (by decide)
      rw [splitSign, if_neg hminus, if_neg hplus]

/-- An array index consists of digits only. -/
theorem isDigit_of_isArrayIndex {s : Text} (hs : isArrayIndex s = true) :
    s ≠ [] ∧ ∀ c ∈ s, isDigit c = true := by
  match s with
  | [] => cases hs
  | [c] => exact ⟨by simp, by simpa [isArrayIndex] using hs⟩
  | c :: next :: rest =>
      simp only [isArrayIndex, Bool.and_eq_true, List.all_eq_true] at hs
      exact ⟨by simp, List.forall_mem_cons.mpr ⟨hs.1.1, hs.2⟩⟩

/-- `int` reads a canonical index as the declared invariants do. -/
theorem intOfString_of_isArrayIndex {s : Text} (hs : isArrayIndex s = true) :
    intOfString unicode s =
      if s.length ≤ maxStrDigits then some (digitsValue s : ℤ) else none := by
  obtain ⟨hne, hdigits⟩ := isDigit_of_isArrayIndex hs
  have hvalue : (s.map digitOf).foldl (fun value d => 10 * value + d) 0 = digitsValue s := by
    rw [List.foldl_map, digitsValue]
    rfl
  simp only [intOfString, strip_of_isDigit hdigits, splitSign_of_isDigit hdigits,
    readDigits_of_isDigit hne hdigits, Option.bind_some, List.length_map, hvalue]
  rfl

end Int

/-! ## Walks along a pointer -/

section Walks

variable {unicode : DecimalDigits} {A : Type}

/-- A subscript that is not negative counts from the front. -/
theorem itemAt_natCast (items : List (Ref A)) (n : ℕ) : itemAt items n = items[n]? := by
  rw [itemAt, if_pos (Int.natCast_nonneg n), Int.toNat_natCast]

/-- The steps agree on a segment that `int` reads only where it is a canonical index. -/
theorem pointerGetStep_eq (h : Heap A) (node : Ref A) {raw : Text}
    (hraw : (intOfString unicode (unescapeSegment raw)).isSome = true →
      isArrayIndex (unescapeSegment raw) = true) :
    pointerGetStep unicode h node raw = pointerStep h node (unescapeSegment raw) := by
  cases node with
  | atom x => rfl
  | node a =>
      rw [pointerGetStep, pointerStep]
      cases h a with
      | dict members => rfl
      | list items =>
          by_cases hindex : isArrayIndex (unescapeSegment raw) = true
          · simp only [intOfString_of_isArrayIndex hindex, arrayItem, hindex, true_and]
            split_ifs
            · exact itemAt_natCast items _
            · rfl
          · have hnone : intOfString unicode (unescapeSegment raw) = none := by
              simpa using mt hraw hindex
            simp [hnone, arrayItem, hindex]

theorem foldlM_congr {B C : Type} {f g : C → B → Option C} {rows : List B}
    (hstep : ∀ row ∈ rows, ∀ c, f c row = g c row) (c : C) :
    rows.foldlM f c = rows.foldlM g c := by
  induction rows generalizing c with
  | nil => rfl
  | cons row rows ih =>
      rw [List.forall_mem_cons] at hstep
      rw [List.foldlM_cons, List.foldlM_cons, hstep.1]
      congr 1
      exact funext fun next => ih hstep.2 next

/-- The pointer resolver walks over the segments behind the slash. -/
theorem resolvePointer_slash (h : Heap A) (doc : Ref A) (rest : Text) :
    (resolvePointer h doc (slash :: rest)).toOption.join =
      (rest.splitOn slash).foldlM
        (fun current segment => pointerStep h current (unescapeSegment segment)) doc := by
  simp [resolvePointer, slash]

/-- The comparator walks over the same segments when the first is not empty. -/
theorem jsonPointerGet_slash (h : Heap A) (doc : Ref A) {c : CodePoint} (hc : c ≠ slash)
    (rest : Text) :
    jsonPointerGet unicode h doc (slash :: c :: rest) =
      ((c :: rest).splitOn slash).foldlM (pointerGetStep unicode h) doc := by
  simp [jsonPointerGet, hc]

/-- On a canonical pointer both walks are one, in every document. -/
theorem jsonPointerGet_of_canonical {pointer : Text}
    (hpointer : CanonicalPointer unicode pointer) (h : Heap A) (doc : Ref A) :
    jsonPointerGet unicode h doc pointer = (resolvePointer h doc pointer).toOption.join := by
  rcases hpointer with rfl | ⟨c, rest, rfl, hc, hraws⟩
  · rfl
  · rw [jsonPointerGet_slash h doc hc, resolvePointer_slash]
    exact foldlM_congr (fun raw hraw node => pointerGetStep_eq h node (hraws raw hraw)) doc

end Walks

/-! ## Documents that tell the walks apart -/

section Documents

variable {unicode : DecimalDigits}

/-- A container on a path: an object with one member, or an array with one more item than
the number, all of them what follows on the path. -/
abbrev Container := Text ⊕ ℕ

def pathRef : List Container → Ref (List Container)
  | [] => .atom .none
  | containers => .node containers

/-- Documents that are one path of containers down to `null`. -/
def pathHeap : Heap (List Container)
  | [] => .list []
  | .inl key :: rest => .dict ⟨[(.str key, pathRef rest)], by simp⟩
  | .inr n :: rest => .list (List.replicate (n + 1) (pathRef rest))

theorem pathRef_ne_foreign (containers : List Container) (o : Foreign) :
    pathRef containers ≠ .atom (.foreign o) := by
  cases containers <;> simp [pathRef]

/-- The document made of a path is JSON. -/
theorem jsonHeap_pathHeap : JsonHeap pathHeap := by
  intro containers
  match containers with
  | [] => simp [pathHeap]
  | .inl key :: rest =>
      simp only [pathHeap, List.mem_singleton, forall_eq]
      exact ⟨⟨key, rfl⟩, pathRef_ne_foreign rest⟩
  | .inr n :: rest =>
      simp only [pathHeap]
      intro item hitem
      rw [List.eq_of_mem_replicate hitem]
      exact pathRef_ne_foreign rest

/-- The document that has the members of some segments, one below the other. -/
def membersOf (raws : List Text) : List Container :=
  raws.map fun raw => .inl (unescapeSegment raw)

theorem pointerGetStep_member (raw : Text) (rest : List Container) :
    pointerGetStep unicode pathHeap (pathRef (.inl (unescapeSegment raw) :: rest)) raw =
      some (pathRef rest) := by
  simp [pointerGetStep, pathRef, pathHeap, lookupKey, keyEq]

theorem pointerStep_member (key : Text) (rest : List Container) :
    pointerStep pathHeap (pathRef (.inl key :: rest)) key = some (pathRef rest) := by
  simp [pointerStep, pathRef, pathHeap, lookupKey, keyEq]

/-- The comparator follows the members of the path to its end. -/
theorem pointerGet_membersOf (raws : List Text) (rest : List Container) :
    raws.foldlM (pointerGetStep unicode pathHeap) (pathRef (membersOf raws ++ rest)) =
      some (pathRef rest) := by
  induction raws with
  | nil => rfl
  | cons raw raws ih =>
      rw [List.foldlM_cons, membersOf, List.map_cons, List.cons_append, pointerGetStep_member]
      exact ih

/-- The pointer resolver follows the same members. -/
theorem pointer_membersOf (raws : List Text) (rest : List Container) :
    raws.foldlM (fun current segment => pointerStep pathHeap current (unescapeSegment segment))
      (pathRef (membersOf raws ++ rest)) = some (pathRef rest) := by
  induction raws with
  | nil => rfl
  | cons raw raws ih =>
      rw [List.foldlM_cons, membersOf, List.map_cons, List.cons_append, pointerStep_member]
      exact ih

/-- An array that is long enough has an item at what `int` reads. -/
theorem pointerGetStep_item {raw : Text} {i : ℤ} (rest : List Container)
    (hint : intOfString unicode (unescapeSegment raw) = some i) :
    pointerGetStep unicode pathHeap (pathRef (.inr i.natAbs :: rest)) raw =
      some (pathRef rest) := by
  simp only [pointerGetStep, pathRef, pathHeap, hint, Option.bind_some, itemAt]
  split_ifs with hnonneg hlow
  · rw [List.getElem?_replicate, if_pos (by omega)]
  · rw [List.getElem?_replicate, if_pos (by rw [List.length_replicate] at hlow ⊢; omega)]
  · rw [List.length_replicate] at hlow
    omega

theorem replacePair_ne_nil {first second replacement : CodePoint} {s : Text} (hs : s ≠ []) :
    replacePair first second replacement s ≠ [] := by
  match s with
  | [] => exact absurd rfl hs
  | [c] => simp [replacePair]
  | a :: b :: rest =>
      rw [replacePair]
      split_ifs <;> simp

/-- Unescaping empties no segment. -/
theorem unescapeSegment_ne_nil {s : Text} (hs : s ≠ []) : unescapeSegment s ≠ [] :=
  replacePair_ne_nil (replacePair_ne_nil hs)

/-- Some document where the comparator finds a value and RFC 6901 does not. -/
def Separates (unicode : DecimalDigits) (pointer : Text) : Prop :=
  ∃ doc, jsonPointerGet unicode pathHeap doc pointer ≠
    (resolvePointer pathHeap doc pointer).toOption.join

/-- On the pointer of one slash the two walks differ. -/
theorem separates_root : Separates unicode [slash] := by
  refine ⟨.atom .none, ?_⟩
  rw [jsonPointerGet, if_pos (Or.inr rfl), resolvePointer_slash]
  simp [pointerStep]

/-- On a pointer without a leading slash the two walks differ. -/
theorem separates_relative {c : CodePoint} {rest : Text} (hc : c ≠ slash) :
    Separates unicode (c :: rest) := by
  refine ⟨pathRef (membersOf ((c :: rest).splitOn slash) ++ []), ?_⟩
  have hstart : (c :: rest).dropWhile (fun c => decide (c = slash)) = c :: rest := by
    simp [hc]
  have hlong : ¬ (c :: rest = [] ∨ c :: rest = [slash]) := by simp [hc]
  rw [jsonPointerGet, if_neg hlong, hstart, pointerGet_membersOf, resolvePointer, ← slash,
    if_neg hc]
  simp

theorem splitOn_slash_cons (rest : Text) :
    (slash :: rest).splitOn slash = [] :: rest.splitOn slash := by
  simpa using List.splitOn_append_cons_self [] rest

/-- Behind an array or object that has the path of another pointer only. -/
theorem separates_doubleSlash (rest : Text) : Separates unicode (slash :: slash :: rest) := by
  generalize htrim : rest.dropWhile (fun c => decide (c = slash)) = trimmed
  have hget : ∀ doc, jsonPointerGet unicode pathHeap doc (slash :: slash :: rest) =
      (trimmed.splitOn slash).foldlM (pointerGetStep unicode pathHeap) doc := by
    simp [jsonPointerGet, htrim]
  refine ⟨pathRef (membersOf (trimmed.splitOn slash) ++ []), ?_⟩
  rw [hget, pointerGet_membersOf, resolvePointer_slash, splitOn_slash_cons, List.foldlM_cons]
  cases htrimmed : trimmed with
  | nil =>
      have hnil : membersOf (List.splitOn slash []) ++ [] = [.inl (unescapeSegment [])] := by
        simp [membersOf]
      obtain ⟨segment, segments, hrest⟩ := List.exists_cons_of_ne_nil
        (List.splitOn_ne_nil slash rest)
      rw [hnil, pointerStep_member, hrest, Option.bind_eq_bind, Option.bind_some,
        List.foldlM_cons]
      simp [pathRef, pointerStep]
  | cons c trimmed' =>
      have hc : c ≠ slash := by
        have hhead := List.head?_dropWhile_not (fun c => decide (c = slash)) rest
        rw [htrim, htrimmed] at hhead
        simpa using hhead
      obtain ⟨raw, raws, hraws⟩ := List.exists_cons_of_ne_nil
        (List.splitOn_ne_nil slash trimmed')
      have hsplit : (c :: trimmed').splitOn slash = (c :: raw) :: raws := by
        rw [List.splitOn_cons_eq_if_modifyHead, hraws]
        simp [hc]
      have hmissing : pointerStep pathHeap
          (pathRef (membersOf ((c :: raw) :: raws) ++ [])) (unescapeSegment []) = none := by
        have hkey : unescapeSegment (c :: raw) ≠ [] := unescapeSegment_ne_nil (by simp)
        have hnil : unescapeSegment [] = [] := rfl
        simp [pointerStep, membersOf, pathRef, pathHeap, lookupKey, keyEq, hnil, hkey]
      rw [hsplit, hmissing]
      simp

/-- An integer that is no array index makes the two walks differ. -/
theorem separates_index {c : CodePoint} {rest raw : Text} (hc : c ≠ slash)
    (hraw : raw ∈ (c :: rest).splitOn slash)
    (hint : (intOfString unicode (unescapeSegment raw)).isSome = true)
    (hindex : isArrayIndex (unescapeSegment raw) = false) :
    Separates unicode (slash :: c :: rest) := by
  obtain ⟨i, hi⟩ := Option.isSome_iff_exists.mp hint
  obtain ⟨front, back, hsplit⟩ := List.append_of_mem hraw
  refine ⟨pathRef (membersOf front ++ .inr i.natAbs :: (membersOf back ++ [])), ?_⟩
  have hmissing : pointerStep pathHeap
      (pathRef (.inr i.natAbs :: (membersOf back ++ []))) (unescapeSegment raw) = none := by
    simp [pointerStep, pathRef, pathHeap, arrayItem, hindex]
  rw [jsonPointerGet_slash _ _ hc, resolvePointer_slash, hsplit, List.foldlM_append,
    List.foldlM_append, pointerGet_membersOf, pointer_membersOf]
  simp only [Option.bind_eq_bind, Option.bind_some, List.foldlM_cons, pointerGetStep_item _ hi,
    hmissing, pointerGet_membersOf, Option.bind_none]
  simp

/-- The two walks agree on every document exactly on canonical pointers. -/
theorem walksAgree_iff {pointer : Text} :
    (∀ (A : Type) (h : Heap A) (doc : Ref A), JsonHeap h →
      jsonPointerGet unicode h doc pointer = (resolvePointer h doc pointer).toOption.join) ↔
        CanonicalPointer unicode pointer := by
  constructor
  · intro hagree
    have hnot : ¬ Separates unicode pointer := by
      rintro ⟨doc, hdiffer⟩
      exact hdiffer (hagree _ pathHeap doc jsonHeap_pathHeap)
    match pointer with
    | [] => exact Or.inl rfl
    | [c] =>
        by_cases hc : c = slash
        · rw [hc] at hnot
          exact absurd separates_root hnot
        · exact absurd (separates_relative hc) hnot
    | first :: c :: rest =>
        by_cases hfirst : first = slash
        · subst hfirst
          by_cases hc : c = slash
          · subst hc
            exact absurd (separates_doubleSlash rest) hnot
          · refine Or.inr ⟨c, rest, rfl, hc, fun raw hraw hint => ?_⟩
            by_contra hindex
            exact hnot (separates_index hc hraw hint (by simpa using hindex))
        · exact absurd (separates_relative hfirst) hnot
  · exact fun hcanonical A h doc _ => jsonPointerGet_of_canonical hcanonical h doc

end Documents

/-! ## References as components -/

section Components

variable {segments : List Text} {fragment : Option Text}

theorem pathText_eq (hne : segments ≠ []) :
    pathText segments = slash :: joinSegments segments := by
  induction segments with
  | nil => exact absurd rfl hne
  | cons segment segments ih =>
      cases segments with
      | nil => simp [pathText, joinSegments]
      | cons next segments =>
          rw [pathText, List.flatMap_cons, ← pathText, ih (by simp), joinSegments, joinSegments,
            List.intercalate_cons_cons]
          simp

/-- A path is made of slashes and of its segments. -/
theorem mem_pathText {c : CodePoint} (hc : c ∈ pathText segments) :
    c = slash ∨ ∃ segment ∈ segments, c ∈ segment := by
  obtain ⟨segment, hsegment, hmem⟩ := List.mem_flatMap.mp hc
  rcases List.mem_cons.mp hmem with hslash | hmem
  · exact Or.inl hslash
  · exact Or.inr ⟨segment, hsegment, hmem⟩

theorem path_chars_pathText (hsegments : ∀ s ∈ segments, IsSegment s) :
    ∀ c ∈ pathText segments, c ∉ [questionMark, hash] := by
  intro c hc
  rcases mem_pathText hc with rfl | ⟨segment, hsegment, hmem⟩
  · decide
  · exact fun hmark => hsegments segment hsegment c hmem (List.mem_cons_of_mem _ hmark)

/-- A path on the site of the schemas. -/
def siteReference (segments : List Text) (fragment : Option Text) : Reference where
  scheme := some (text "https")
  authority := some (text "schemas.traigent.ai")
  path := pathText segments
  query := none
  fragment := fragment

def pathReference (path : Text) (fragment : Option Text) : Reference where
  scheme := none
  authority := none
  path := path
  query := none
  fragment := fragment

/-- The reference of a file of the site is the base and its path. -/
theorem recompose_siteReference (hne : segments ≠ []) :
    recompose (siteReference segments fragment) =
      schemaIdBase ++ joinSegments segments ++ fragmentText fragment := by
  have hbase : schemaIdBase =
      text "https" ++ [colon] ++ slash :: slash :: text "schemas.traigent.ai" ++ [slash] := by
    decide
  simp [recompose, siteReference, pathText_eq hne, hbase, fragmentText]

theorem recompose_pathReference (path : Text) :
    recompose (pathReference path fragment) = path ++ fragmentText fragment := by
  simp [recompose, pathReference, fragmentText]

/-- None of these characters is in a literal. -/
theorem notMem_of_all {literal : Text} {delimiters : List CodePoint}
    (hall : (literal.all fun c => decide (c ∉ delimiters)) = true) :
    ∀ c ∈ literal, c ∉ delimiters :=
  fun c hc => of_decide_eq_true (List.all_eq_true.mp hall c hc)

/-- A reference to a file of the site is well formed. -/
theorem wellFormed_siteReference (hne : segments ≠ [])
    (hsegments : ∀ s ∈ segments, IsSegment s) :
    (siteReference segments fragment).WellFormed where
  scheme_ne_nil s hs := by
    cases hs
    decide
  scheme_chars s hs := by
    cases hs
    exact notMem_of_all (by decide)
  authority_chars a ha := by
    cases ha
    exact notMem_of_all (by decide)
  path_chars := path_chars_pathText hsegments
  query_chars q hq := by cases hq
  path_absolute _ := Or.inr ⟨_, pathText_eq hne⟩
  path_single hnone := by cases hnone
  path_noScheme hnone := by cases hnone

/-- A relative path whose first segment holds no colon is well formed. -/
theorem wellFormed_pathReference {s : Text}
    (hsegments : ∀ s ∈ segments, IsSegment s) (hhead : segments.head? = some s) (hne : s ≠ [])
    (hcolon : colon ∉ s) : (pathReference (joinSegments segments) fragment).WellFormed := by
  obtain ⟨rest, rfl⟩ : ∃ rest, segments = s :: rest := by
    cases segments with
    | nil => cases hhead
    | cons first rest => exact ⟨rest, by rw [Option.some.inj hhead]⟩
  have hslash : slash ∉ s := fun hmem => hsegments s (by simp) slash hmem (by simp)
  have hjoin : ∃ tail, joinSegments (s :: rest) = s ++ tail ∧ Delimited [colon, slash] tail ∧
      ∀ tail', tail ≠ colon :: tail' := by
    cases rest with
    | nil => exact ⟨[], by simp [joinSegments], Or.inl rfl, by simp⟩
    | cons next rest =>
        refine ⟨slash :: joinSegments (next :: rest), ?_, Or.inr ⟨slash, _, rfl, by simp⟩, ?_⟩
        · simp [joinSegments]
        · intro tail' heq
          exact absurd (List.cons.inj heq).1 (by decide)
  obtain ⟨tail, htext, hdelimited, htail⟩ := hjoin
  have hpath : (pathReference (joinSegments (s :: rest)) fragment).path = s ++ tail := htext
  refine ⟨by simp [pathReference], by simp [pathReference], by simp [pathReference], ?_,
    by simp [pathReference], by simp [pathReference], ?_, ?_⟩
  · intro c hc
    exact path_chars_pathText hsegments c (by
      rw [pathText_eq (by simp)]
      exact List.mem_cons_of_mem _ hc)
  · rintro - rest' heq
    rw [hpath] at heq
    cases s with
    | nil => exact hne rfl
    | cons c s =>
        rw [List.cons_append, List.cons.injEq] at heq
        exact hslash (by simp [heq.1])
  · rintro - - rest' heq
    have hs : ∀ c ∈ s, c ∉ [colon, slash] := by
      intro c hc hmem
      rcases List.mem_pair.mp hmem with rfl | rfl
      · exact hcolon hc
      · exact hslash hc
    rw [hpath, since_append hs hdelimited] at heq
    exact htail rest' heq

end Components

/-! ## Where a reference leads -/

section Resolution

variable {path : SchemaPath} {fragment : Option Text}

def SchemaPath.segments (path : SchemaPath) : List Text :=
  path.directories ++ [path.file]

theorem SchemaPath.isSegment (path : SchemaPath) : ∀ s ∈ path.segments, IsSegment s := by
  intro s hs
  rcases List.mem_append.mp hs with hs | hs
  · exact (path.directories_names s hs).segment
  · rw [List.mem_singleton.mp hs]
    exact path.file_name.segment

theorem baseUri_eq (path : SchemaPath) :
    schemaIdBase ++ path.text = recompose (siteReference path.segments none) := by
  rw [recompose_siteReference (by simp [SchemaPath.segments])]
  simp [SchemaPath.text, SchemaPath.segments, fragmentText]

/-- A reference whose resolution is a path of the site. -/
theorem splitRef_of_transform {reference : Reference} {segments : List Text}
    (hreference : reference.WellFormed) (hne : segments ≠ [])
    (hsegments : ∀ s ∈ segments, IsSegment s)
    (htransform : transform (siteReference path.segments none) reference =
      siteReference segments fragment) :
    splitRef (schemaIdBase ++ path.text) (recompose reference) =
      (schemaIdBase ++ joinSegments segments, fragment.getD []) := by
  have hbase : (siteReference path.segments none).WellFormed :=
    wellFormed_siteReference (by simp [SchemaPath.segments]) path.isSegment
  have hresult : recompose (siteReference segments none) =
      schemaIdBase ++ joinSegments segments := by
    simp [recompose_siteReference hne, fragmentText]
  rw [splitRef, baseUri_eq, resolve_recompose hbase hreference, htransform,
    defragment_recompose (wellFormed_siteReference hne hsegments), ← hresult]
  rfl

/-- A fragment alone stays in the file. -/
theorem splitRef_fragmentOnly (path : SchemaPath) (fragment : Option Text) :
    splitRef (schemaIdBase ++ path.text) (fragmentText fragment) =
      (schemaIdBase ++ path.text, fragment.getD []) := by
  have hwhole : (pathReference [] fragment).WellFormed := by
    constructor <;> simp [pathReference, since]
  have htext : fragmentText fragment = recompose (pathReference [] fragment) := by
    simp [recompose_pathReference]
  have hne : path.segments ≠ [] := by simp [SchemaPath.segments]
  rw [htext, splitRef_of_transform hwhole hne path.isSegment rfl]
  rfl

/-- The path of a directory and what follows it. -/
theorem removeDotSegments_pathText {segments : List Text} (hne : segments ≠ [])
    (hsegments : ∀ s ∈ segments, IsSegment s) :
    removeDotSegments (pathText segments) = removeDots [] segments := by
  have hsplit : (pathText segments).splitOn slash = [] :: segments := by
    have hslash : ∀ s ∈ segments, slash ∉ s := fun s hs hmem =>
      hsegments s hs slash hmem (by simp)
    rw [pathText_eq hne, splitOn_slash_cons, joinSegments,
      List.splitOn_intercalate slash hslash hne]
  obtain ⟨segment, rest, rfl⟩ := List.exists_cons_of_ne_nil hne
  rw [removeDotSegments, hsplit]

/-- The segments behind the dots of a path. -/
def resolvedSegments (segments : List Text) (last : Text) : List Text :=
  if last = dot then collapse [] segments ++ [[]]
  else if last = dotDot then (collapse [] segments).dropLast ++ [[]]
  else collapse [] segments ++ [last]

/-- What is left of the dots is a path of the resolved segments. -/
theorem removeDots_eq (segments : List Text) (last : Text) :
    removeDots [] (segments ++ [last]) = pathText (resolvedSegments segments last) := by
  have hdots := removeDots_append [] segments last
  rw [List.map_nil, List.reverse_nil] at hdots
  rw [hdots, resolvedSegments]
  split_ifs <;> rfl

theorem mem_collapse {names segments : List Text} {s : Text} (hs : s ∈ collapse names segments) :
    s ∈ names ∨ (s ∈ segments ∧ s ≠ dot ∧ s ≠ dotDot) := by
  induction segments generalizing names with
  | nil => exact Or.inl hs
  | cons segment segments ih =>
      rw [collapse] at hs
      split_ifs at hs with hdot hdots
      · rcases ih hs with hs | ⟨hs, hnot⟩
        · exact Or.inl hs
        · exact Or.inr ⟨List.mem_cons_of_mem _ hs, hnot⟩
      · rcases ih hs with hs | ⟨hs, hnot⟩
        · exact Or.inl (List.dropLast_subset names hs)
        · exact Or.inr ⟨List.mem_cons_of_mem _ hs, hnot⟩
      · rcases ih hs with hs | ⟨hs, hnot⟩
        · rcases List.mem_append.mp hs with hs | hs
          · exact Or.inl hs
          · rw [List.mem_singleton.mp hs]
            exact Or.inr ⟨by simp, hdot, hdots⟩
        · exact Or.inr ⟨List.mem_cons_of_mem _ hs, hnot⟩

/-- No resolved segment is a dot. -/
theorem mem_resolvedSegments {segments : List Text} {last s : Text}
    (hs : s ∈ resolvedSegments segments last) :
    (s = [] ∨ s ∈ segments ++ [last]) ∧ s ≠ dot ∧ s ≠ dotDot := by
  have hcollapse : ∀ s ∈ collapse [] segments,
      (s = [] ∨ s ∈ segments ++ [last]) ∧ s ≠ dot ∧ s ≠ dotDot := by
    intro s hs
    rcases mem_collapse hs with hs | ⟨hs, hnot⟩
    · cases hs
    · exact ⟨Or.inr (List.mem_append_left _ hs), hnot⟩
  rw [resolvedSegments] at hs
  split_ifs at hs with hdot hdots
  · rcases List.mem_append.mp hs with hs | hs
    · exact hcollapse s hs
    · rw [List.mem_singleton.mp hs]
      exact ⟨Or.inl rfl, by decide, by decide⟩
  · rcases List.mem_append.mp hs with hs | hs
    · exact hcollapse s (List.dropLast_subset _ hs)
    · rw [List.mem_singleton.mp hs]
      exact ⟨Or.inl rfl, by decide, by decide⟩
  · rcases List.mem_append.mp hs with hs | hs
    · exact hcollapse s hs
    · rw [List.mem_singleton.mp hs]
      exact ⟨Or.inr (by simp), hdot, hdots⟩

theorem resolvedSegments_ne_nil (segments : List Text) (last : Text) :
    resolvedSegments segments last ≠ [] := by
  rw [resolvedSegments]
  split_ifs <;> simp

theorem isSegment_resolvedSegments {segments : List Text} {last : Text}
    (hsegments : ∀ s ∈ segments ++ [last], IsSegment s) :
    ∀ s ∈ resolvedSegments segments last, IsSegment s := by
  intro s hs
  rcases (mem_resolvedSegments hs).1 with rfl | hmem
  · simp [IsSegment]
  · exact hsegments s hmem

/-- A reference from the root is resolved without the file it stands in. -/
theorem splitRef_absolute {segments : List Text} {last : Text}
    (hsegments : ∀ s ∈ segments ++ [last], IsSegment s) :
    splitRef (schemaIdBase ++ path.text)
        ((SchemaReference.absolute segments last).text fragment) =
      (schemaIdBase ++ joinSegments (resolvedSegments segments last), fragment.getD []) := by
  have hne : segments ++ [last] ≠ [] := by simp
  rw [SchemaReference.text, ← recompose_siteReference hne]
  apply splitRef_of_transform (wellFormed_siteReference hne hsegments)
    (resolvedSegments_ne_nil segments last) (isSegment_resolvedSegments hsegments)
  simp only [transform, siteReference, removeDotSegments_pathText hne hsegments, removeDots_eq]

theorem directory_pathText {directories : List Text} {file : Text} (hfile : slash ∉ file) :
    ((pathText (directories ++ [file])).reverse.dropWhile
      fun c => decide (c ≠ slash)).reverse = pathText directories ++ [slash] := by
  have hall : ∀ c ∈ file.reverse, decide (c ≠ slash) = true := by
    intro c hc
    rw [decide_eq_true_iff]
    rintro rfl
    exact hfile (List.mem_reverse.mp hc)
  have hlast : pathText [file] = slash :: file := by simp [pathText]
  rw [pathText_append, hlast, List.reverse_append, List.reverse_cons, List.append_assoc,
    List.dropWhile_append_of_pos hall]
  simp

/-- The first segment of a relative reference. -/
structure RelativeHead (segments : List Text) (s : Text) : Prop where
  head : segments.head? = some s
  ne_nil : s ≠ []
  colon_notMem : colon ∉ s
  segments : ∀ s ∈ segments, IsSegment s ∧ s ≠ []

theorem relativeHead_of_wellFormed {segments : List Text} {last : Text}
    (hreference : (SchemaReference.relative segments last).WellFormed) :
    ∃ s, RelativeHead (segments ++ [last]) s := by
  obtain ⟨hsegments, hcolon⟩ := hreference
  have hall : ∀ s ∈ segments ++ [last], IsSegment s ∧ s ≠ [] := by
    intro s hs
    rcases hsegments s hs with rfl | rfl | hname
    · exact ⟨by simp [IsSegment, dot]; decide, by simp [dot]⟩
    · exact ⟨by simp [IsSegment, dotDot]; decide, by simp [dotDot]⟩
    · exact ⟨hname.segment, hname.ne_nil⟩
  obtain ⟨s, rest, heq⟩ := List.exists_cons_of_ne_nil
    (List.append_ne_nil_of_right_ne_nil segments (List.cons_ne_nil last []))
  have hhead : (segments ++ [last]).head? = some s := by rw [heq, List.head?_cons]
  exact ⟨s, hhead, (hall s (List.mem_of_head? hhead)).2, hcolon s hhead, hall⟩

theorem RelativeHead.wellFormed {segments : List Text} {s : Text}
    (hhead : RelativeHead segments s) (fragment : Option Text) :
    (pathReference (joinSegments segments) fragment).WellFormed :=
  wellFormed_pathReference (fun s hs => (hhead.segments s hs).1) hhead.head hhead.ne_nil
    hhead.colon_notMem

/-- A relative path starts with a character of its first segment. -/
theorem RelativeHead.joinSegments {segments : List Text} {s : Text}
    (hhead : RelativeHead segments s) :
    ∃ c rest, joinSegments segments = c :: rest ∧ c ≠ slash ∧ c ≠ hash := by
  obtain ⟨rest, rfl⟩ := List.head?_eq_some_iff.mp hhead.head
  have hsegment := (hhead.segments s (by simp)).1
  cases s with
  | nil => exact absurd rfl hhead.ne_nil
  | cons c s =>
      have hc := hsegment c (by simp)
      have hjoin : ∃ tail, BreakingSchemaCheck.joinSegments ((c :: s) :: rest) = c :: tail := by
        cases rest with
        | nil => exact ⟨s, by simp [BreakingSchemaCheck.joinSegments]⟩
        | cons next rest =>
            exact ⟨_, by rw [BreakingSchemaCheck.joinSegments, List.intercalate_cons_cons]; rfl⟩
      obtain ⟨tail, htail⟩ := hjoin
      refine ⟨c, tail, htail, ?_, ?_⟩
      · rintro rfl
        exact hc (by simp)
      · rintro rfl
        exact hc (by simp)

/-- A relative reference is resolved in the directory of its file. -/
theorem splitRef_relative {segments : List Text} {last : Text}
    (hreference : (SchemaReference.relative segments last).WellFormed) :
    splitRef (schemaIdBase ++ path.text)
        ((SchemaReference.relative segments last).text fragment) =
      (schemaIdBase ++ joinSegments (resolvedSegments (path.directories ++ segments) last),
        fragment.getD []) := by
  obtain ⟨s, hhead⟩ := relativeHead_of_wellFormed hreference
  obtain ⟨c, rest, hjoin, hc, -⟩ := hhead.joinSegments
  have hfile : slash ∉ path.file := fun hmem => path.file_name.segment slash hmem (by simp)
  have hne : path.directories ++ segments ++ [last] ≠ [] := by simp
  have hall : ∀ s ∈ path.directories ++ segments ++ [last], IsSegment s := by
    intro s hs
    rw [List.append_assoc] at hs
    rcases List.mem_append.mp hs with hs | hs
    · exact (path.directories_names s hs).segment
    · exact (hhead.segments s hs).1
  have hmerge : mergePaths (siteReference path.segments none)
      (pathReference (joinSegments (segments ++ [last])) fragment) =
      pathText (path.directories ++ segments ++ [last]) := by
    have hpath : pathText path.segments ≠ [] := by
      rw [pathText_eq (by simp [SchemaPath.segments])]
      simp
    rw [mergePaths, if_neg (by simp [siteReference, hpath])]
    simp only [siteReference, pathReference, SchemaPath.segments, directory_pathText hfile]
    rw [List.append_assoc, List.singleton_append, ← pathText_eq (by simp), ← pathText_append,
      List.append_assoc]
  rw [SchemaReference.text, ← recompose_pathReference]
  apply splitRef_of_transform (hhead.wellFormed fragment)
    (resolvedSegments_ne_nil _ last) (isSegment_resolvedSegments hall)
  have hpath : (pathReference (joinSegments (segments ++ [last])) fragment).path = c :: rest :=
    hjoin
  rw [transform_relativePath rfl rfl hpath hc, hmerge, removeDotSegments_pathText hne hall,
    removeDots_eq]
  rfl

/-! ## The file a reference names -/

/-- Segments are collapsed one after the other. -/
theorem collapse_append (names left right : List Text) :
    collapse names (left ++ right) = collapse (collapse names left) right := by
  induction left generalizing names with
  | nil => rfl
  | cons segment left ih =>
      rw [List.cons_append, collapse, collapse]
      split_ifs <;> exact ih _

theorem collapse_names {names : List Text} (hnames : ∀ s ∈ names, s ≠ dot ∧ s ≠ dotDot)
    (before : List Text) : collapse before names = before ++ names := by
  induction names generalizing before with
  | nil => rw [collapse, List.append_nil]
  | cons name names ih =>
      rw [List.forall_mem_cons] at hnames
      rw [collapse, if_neg hnames.1.1, if_neg hnames.1.2, ih hnames.2, List.append_assoc,
        List.singleton_append]

/-- The number of names left is the depth that was counted. -/
theorem length_collapse (names segments : List Text) :
    (collapse names segments).length = depthAfter names.length segments := by
  induction segments generalizing names with
  | nil => rfl
  | cons segment segments ih =>
      rw [collapse, depthAfter]
      split_ifs
      · exact ih names
      · rw [ih, List.length_dropLast]
      · rw [ih, List.length_append, List.length_singleton]

/-- The comparator's normalization is the collapse, where no segment is empty. -/
theorem foldl_normalizePart {segments : List Text} (hne : ∀ s ∈ segments, s ≠ [])
    (names : List Text) : segments.foldl normalizePart names = collapse names segments := by
  induction segments generalizing names with
  | nil => rfl
  | cons segment segments ih =>
      rw [List.forall_mem_cons] at hne
      have hnot : dotDot ≠ dot := by decide
      rw [List.foldl_cons, collapse, ih hne.2, normalizePart]
      by_cases hdot : segment = dot
      · simp [hdot, Ne.symm hnot]
      · by_cases hdots : segment = dotDot
        · simp [hdots, hnot]
        · simp [hdot, hdots, hne.1]

/-- Dots that were filtered out beforehand make no difference. -/
theorem collapse_filter {segments : List Text} (hne : ∀ s ∈ segments, s ≠ [])
    (names : List Text) :
    collapse names (segments.filter fun s => decide (s ≠ [] ∧ s ≠ dot)) =
      collapse names segments := by
  induction segments generalizing names with
  | nil => rfl
  | cons segment segments ih =>
      rw [List.forall_mem_cons] at hne
      by_cases hdot : segment = dot
      · rw [List.filter_cons_of_neg (by simp [hdot]), ih hne.2, collapse, if_pos hdot]
      · rw [List.filter_cons_of_pos (by simp [hdot, hne.1]), collapse, collapse, if_neg hdot,
          if_neg hdot, ih hne.2, ih hne.2]

theorem posixParts_of_head {s : Text} (hs : s.head? ≠ some slash) :
    posixParts s = (s.splitOn slash).filter fun part => decide (part ≠ [] ∧ part ≠ dot) := by
  match s with
  | [] => rfl
  | [c] =>
      have hc : c ≠ slash := by simpa using hs
      simp [posixParts, hc]
  | a :: b :: rest =>
      have ha : a ≠ slash := by simpa using hs
      simp [posixParts, ha]

/-- Joined segments are split as they were. -/
theorem splitOn_joinSegments {segments : List Text} (hne : segments ≠ [])
    (hsegments : ∀ s ∈ segments, IsSegment s) :
    (joinSegments segments).splitOn slash = segments :=
  List.splitOn_intercalate slash (fun s hs hmem => hsegments s hs slash hmem (by simp)) hne

theorem RelativeHead.posixParts {segments : List Text} {s : Text}
    (hhead : RelativeHead segments s) :
    BreakingSchemaCheck.posixParts (BreakingSchemaCheck.joinSegments segments) =
      segments.filter fun part => decide (part ≠ [] ∧ part ≠ dot) := by
  obtain ⟨c, rest, hjoin, hc, -⟩ := hhead.joinSegments
  have hne : segments ≠ [] := by
    rintro rfl
    cases hhead.head
  rw [posixParts_of_head (by simp [hjoin, hc]),
    splitOn_joinSegments hne fun s hs => (hhead.segments s hs).1]

theorem SchemaPath.posixParts_text (path : SchemaPath) :
    BreakingSchemaCheck.posixParts path.text = path.segments := by
  have hnames : ∀ s ∈ path.segments, IsName s := by
    intro s hs
    rcases List.mem_append.mp hs with hs | hs
    · exact path.directories_names s hs
    · rw [List.mem_singleton.mp hs]
      exact path.file_name
  have hne : path.segments ≠ [] := by simp [SchemaPath.segments]
  have hstart : path.text.head? ≠ some slash := by
    obtain ⟨s, rest, hsplit⟩ := List.exists_cons_of_ne_nil hne
    have hs := hnames s (by simp [hsplit])
    have hjoin : path.text = joinSegments (s :: rest) := by rw [← hsplit]; rfl
    cases s with
    | nil => exact absurd rfl hs.ne_nil
    | cons c s =>
        have hc : c ≠ slash := by
          rintro rfl
          exact hs.segment slash (by simp) (by simp)
        cases rest <;> simp [hjoin, joinSegments, hc]
  rw [posixParts_of_head hstart, SchemaPath.text, ← SchemaPath.segments,
    splitOn_joinSegments hne path.isSegment, List.filter_eq_self]
  exact fun s hs => decide_eq_true ⟨(hnames s hs).ne_nil, (hnames s hs).ne_dot⟩

theorem parentParts_text (path : SchemaPath) : parentParts path.text = path.directories := by
  rw [parentParts, path.posixParts_text, SchemaPath.segments]
  cases hdirectories : path.directories with
  | nil =>
      have hfile : path.file.head? ≠ some slash := by
        intro hhead
        exact path.file_name.segment slash (List.mem_of_head? hhead) (by simp)
      simp [hfile]
  | cons name names =>
      cases names with
      | nil => rfl
      | cons next names =>
          have hlast : (name :: next :: names ++ [path.file]).dropLast = name :: next :: names :=
            List.dropLast_concat
          exact hlast

/-- A relative path is not taken for a URI of the schemas, nor for one of any site. -/
theorem RelativeHead.not_absolute {segments : List Text} {s : Text}
    (hhead : RelativeHead segments s) :
    ¬ schemaIdBase <+: BreakingSchemaCheck.joinSegments segments ∧
      isHttp (BreakingSchemaCheck.joinSegments segments) = false := by
  have hwhole := hhead.wellFormed none
  constructor
  · rintro ⟨rest, hpre⟩
    have hstart : schemaIdBase ++ rest = text "https" ++
        (colon :: (slash :: slash :: text "schemas.traigent.ai/" ++ rest)) := by
      have hbase : schemaIdBase =
          text "https" ++ (colon :: slash :: slash :: text "schemas.traigent.ai/") := by decide
      rw [hbase]
      simp
    have hsince := since_append (notMem_of_all (by decide) :
        ∀ c ∈ text "https", c ∉ [colon, slash])
      (Or.inr ⟨colon, slash :: slash :: text "schemas.traigent.ai/" ++ rest, rfl, by simp⟩)
    rw [← hstart, hpre] at hsince
    exact hwhole.path_noScheme rfl rfl _ hsince
  · have hparse := parse_recompose hwhole
    rw [recompose_pathReference, fragmentText, Option.elim_none, List.append_nil] at hparse
    rw [isHttp, hparse]
    rfl

theorem delimited_fragmentText (fragment : Option Text) :
    Delimited [hash] (fragmentText fragment) :=
  delimited_fragment fragment

theorem hash_notMem_joinSegments {segments : List Text} (hne : segments ≠ [])
    (hsegments : ∀ s ∈ segments, IsSegment s) : ∀ c ∈ joinSegments segments, c ∉ [hash] := by
  intro c hc hmem
  have hpath : c ∈ pathText segments := by
    rw [pathText_eq hne]
    exact List.mem_cons_of_mem _ hc
  rw [List.mem_singleton.mp hmem] at hpath
  exact path_chars_pathText hsegments hash hpath (by simp)

/-- The comparator collapses the segments behind the directories of the file. -/
theorem relpathFromRefString_relative {segments : List Text} {last : Text}
    (hreference : (SchemaReference.relative segments last).WellFormed) :
    relpathFromRefString path.text ((SchemaReference.relative segments last).text fragment) =
      some (joinSegments (collapse path.directories (segments ++ [last]))) := by
  obtain ⟨s, hhead⟩ := relativeHead_of_wellFormed hreference
  obtain ⟨c, rest, hjoin, hc, hhash⟩ := hhead.joinSegments
  obtain ⟨hbase, hhttp⟩ := hhead.not_absolute
  have hne : segments ++ [last] ≠ [] := by simp
  have hsegments : ∀ s ∈ segments ++ [last], IsSegment s := fun s hs => (hhead.segments s hs).1
  have hbefore := before_append (hash_notMem_joinSegments hne hsegments)
    (delimited_fragmentText fragment)
  have hdirectories : ∀ s ∈ path.directories, s ≠ dot ∧ s ≠ dotDot := fun s hs =>
    ⟨(path.directories_names s hs).ne_dot, (path.directories_names s hs).ne_dotDot⟩
  have hparts : ∀ s ∈ path.directories ++ (segments ++ [last]).filter
      (fun part => decide (part ≠ [] ∧ part ≠ dot)), s ≠ [] := by
    intro s hs
    rcases List.mem_append.mp hs with hs | hs
    · exact (path.directories_names s hs).ne_nil
    · exact (hhead.segments s (List.mem_filter.mp hs).1).2
  rw [SchemaReference.text, relpathFromRefString, hbefore, if_neg (by simp [hjoin, hhash]),
    if_neg (by simp [hjoin]), if_neg hbase, if_neg (by simp [hhttp]), parentParts_text,
    joinParts, if_neg (by simp [hjoin, hc]), hhead.posixParts, normalizeParts,
    foldl_normalizePart hparts, collapse_append, collapse_names hdirectories,
    List.nil_append, collapse_filter fun s hs => (hhead.segments s hs).2]

/-- The comparator keeps the segments of an absolute reference as they are. -/
theorem relpathFromRefString_absolute {segments : List Text} {last : Text}
    (hsegments : ∀ s ∈ segments ++ [last], IsSegment s) (currentFile : Text) :
    relpathFromRefString currentFile
        ((SchemaReference.absolute segments last).text fragment) =
      some (joinSegments (segments ++ [last])) := by
  have hne : segments ++ [last] ≠ [] := by simp
  have hnone : ∀ c ∈ schemaIdBase ++ joinSegments (segments ++ [last]), c ∉ [hash] := by
    intro c hc
    rcases List.mem_append.mp hc with hc | hc
    · exact (notMem_of_all (by decide) : ∀ c ∈ schemaIdBase, c ∉ [hash]) c hc
    · exact hash_notMem_joinSegments hne hsegments c hc
  have hstart : schemaIdBase = codePoint 'h' :: text "ttps://schemas.traigent.ai/" := by decide
  have hhash : codePoint 'h' ≠ hash := by decide
  rw [SchemaReference.text, relpathFromRefString,
    before_append hnone (delimited_fragmentText fragment), if_neg (by simp [hstart, hhash]),
    if_neg (by simp [hstart]), if_pos (List.prefix_append _ _), List.drop_left]

end Resolution

/-! ## Agreement -/

section Agreement

variable {unicode : DecimalDigits} {path : SchemaPath} {reference : SchemaReference}
  {fragment : Option Text}

theorem joinSegments_directory_iff (names : List Text) :
    joinSegments (names ++ [[]]) = joinSegments names ↔ names = [] := by
  constructor
  · intro heq
    by_contra hne
    have hlong : pathText (names ++ [[]]) = pathText names := by
      rw [pathText_eq (by simp), pathText_eq hne, heq]
    rw [pathText_append] at hlong
    simpa [pathText] using congrArg List.length hlong
  · rintro rfl
    rfl

/-- A path whose dots are removed ends as the role graph has it, or with a slash. -/
theorem joinSegments_resolved_iff (directories segments : List Text) (last : Text)
    (hdirectories : ∀ s ∈ directories, s ≠ dot ∧ s ≠ dotDot) :
    joinSegments (resolvedSegments (directories ++ segments) last) =
        joinSegments (collapse directories (segments ++ [last])) ↔
      (last ≠ dot ∧ last ≠ dotDot) ∨
        depthAfter directories.length (segments ++ [last]) = 0 := by
  have hcollapse : collapse [] (directories ++ segments) = collapse directories segments := by
    rw [collapse_append, collapse_names hdirectories, List.nil_append]
  have hdepth : depthAfter directories.length (segments ++ [last]) = 0 ↔
      collapse directories (segments ++ [last]) = [] := by
    rw [← length_collapse, List.length_eq_zero_iff]
  rw [hdepth, resolvedSegments, hcollapse, collapse_append]
  simp only [collapse]
  split_ifs with hdot hdots
  · rw [joinSegments_directory_iff]
    simp [hdot]
  · rw [joinSegments_directory_iff]
    simp [hdots]
  · simp [hdot, hdots]

/-- A path without dots is its own resolution. -/
theorem joinSegments_resolved_self_iff {segments : List Text} {last : Text}
    (hsegments : ∀ s ∈ segments ++ [last], IsSegment s) :
    joinSegments (resolvedSegments segments last) = joinSegments (segments ++ [last]) ↔
      ∀ s ∈ segments ++ [last], s ≠ dot ∧ s ≠ dotDot := by
  have hne : segments ++ [last] ≠ [] := by simp
  constructor
  · intro heq
    have hsplit := congrArg (List.splitOn slash) heq
    rw [splitOn_joinSegments (resolvedSegments_ne_nil segments last)
      (isSegment_resolvedSegments hsegments), splitOn_joinSegments hne hsegments] at hsplit
    intro s hs
    rw [← hsplit] at hs
    exact (mem_resolvedSegments hs).2
  · intro hnames
    have hlast := hnames last (by simp)
    have hinit : ∀ s ∈ segments, s ≠ dot ∧ s ≠ dotDot := fun s hs =>
      hnames s (List.mem_append_left _ hs)
    rw [resolvedSegments, if_neg hlast.1, if_neg hlast.2, collapse_names hinit,
      List.nil_append]

/-- The fragment is split off as it was written. -/
theorem splitRef_snd (hreference : reference.WellFormed) :
    (splitRef (schemaIdBase ++ path.text) (reference.text fragment)).2 = fragment.getD [] := by
  cases reference with
  | fragmentOnly => rw [SchemaReference.text, splitRef_fragmentOnly]
  | relative segments last => rw [splitRef_relative hreference]
  | absolute segments last => rw [splitRef_absolute hreference]

theorem fragmentOnly_relpath (currentFile : Text) (fragment : Option Text) :
    relpathFromRefString currentFile (fragmentText fragment) = none := by
  cases fragment with
  | none => rfl
  | some f => simp [relpathFromRefString, fragmentText]

/-- Both resolvers find one file exactly when the reference names a file. -/
theorem splitRef_fst_iff (hreference : reference.WellFormed) :
    (splitRef (schemaIdBase ++ path.text) (reference.text fragment)).1 =
        schemaIdBase ++
          (relpathFromRefString path.text (reference.text fragment)).getD path.text ↔
      NamesFile path reference := by
  cases reference with
  | fragmentOnly =>
      rw [SchemaReference.text, splitRef_fragmentOnly, fragmentOnly_relpath, Option.getD_none]
      exact iff_of_true rfl trivial
  | relative segments last =>
      have hdirectories : ∀ s ∈ path.directories, s ≠ dot ∧ s ≠ dotDot := fun s hs =>
        ⟨(path.directories_names s hs).ne_dot, (path.directories_names s hs).ne_dotDot⟩
      rw [splitRef_relative hreference, relpathFromRefString_relative hreference,
        Option.getD_some, List.append_cancel_left_eq,
        joinSegments_resolved_iff _ _ _ hdirectories]
      rfl
  | absolute segments last =>
      rw [splitRef_absolute hreference, relpathFromRefString_absolute hreference,
        Option.getD_some, List.append_cancel_left_eq, joinSegments_resolved_self_iff hreference]
      rfl

end Agreement

/-- The two resolvers agree on a reference, on its file and on its fragment in every document,
exactly when it names a file and its fragment is a canonical pointer. -/
theorem resolversAgree_iff (unicode : DecimalDigits) (path : SchemaPath)
    (reference : SchemaReference) (fragment : Option Text)
    (hreference : reference.WellFormed) :
    ResolversAgree unicode path.text (reference.text fragment) ↔
      NamesFile path reference ∧ CanonicalPointer unicode (fragment.getD []) := by
  rw [ResolversAgree, splitRef_snd hreference, splitRef_fst_iff hreference, walksAgree_iff]

/-! ## Two references -/

/-- Digits and white space of ASCII. -/
def asciiDigits : DecimalDigits where
  digit c := if isDigit c then some (c.val - (codePoint '0').val) else none
  isSpace c := decide (c = codePoint ' ' ∨ codePoint '\t' ≤ c ∧ c ≤ codePoint '\r')
  digit_ascii c hc := by rw [if_pos hc]
  isSpace_ascii c hc := by
    have hlow : (codePoint '0').val = 0x30 := rfl
    have hblank : (codePoint ' ').val = 0x20 := rfl
    have hreturn : (codePoint '\r').val = 0x0d := rfl
    simp only [isDigit, decide_eq_true_eq, decide_eq_false_iff_not, Fin.le_def, Fin.ext_iff]
      at hc ⊢
    omega

theorem isName_of_all {literal : Text}
    (hall : (literal.all fun c => decide (c ∉ [slash, questionMark, hash])) = true)
    (hne : literal ≠ [] ∧ literal ≠ dot ∧ literal ≠ dotDot) : IsName literal :=
  ⟨notMem_of_all hall, hne.1, hne.2.1, hne.2.2⟩

/-- A file of the schemas. -/
def evaluationFile : SchemaPath where
  directories := [text "evaluation"]
  file := text "run.json"
  directories_names s hs := by
    rw [List.mem_singleton.mp hs]
    exact isName_of_all (by decide) (by decide)
  file_name := isName_of_all (by decide) (by decide)

/-- Both resolvers follow a reference to a definition in the parent directory. -/
theorem resolversAgree_parent :
    ResolversAgree asciiDigits evaluationFile.text
      ((SchemaReference.relative [dotDot] (text "common.json")).text
        (some (text "/definitions/id"))) := by
  have hreference : (SchemaReference.relative [dotDot] (text "common.json")).WellFormed := by
    constructor
    · simp only [List.singleton_append, List.forall_mem_cons, List.not_mem_nil,
        false_imp_iff, implies_true, and_true]
      exact ⟨Or.inr (Or.inl trivial), Or.inr (Or.inr (isName_of_all (by decide) (by decide)))⟩
    · intro s hs
      cases hs
      decide
  apply (resolversAgree_iff asciiDigits evaluationFile _ (some (text "/definitions/id"))
    hreference).mpr
  constructor
  · simp only [NamesFile]
    decide
  · exact Or.inr ⟨codePoint 'd', text "efinitions/id", by decide, by decide, by decide +kernel⟩

/-- The comparator takes the last item of an array for "-1"; the pointer names none. -/
theorem not_resolversAgree_negativeIndex :
    ¬ ResolversAgree asciiDigits evaluationFile.text (text "#/-1") := by
  rintro ⟨-, hwalks⟩
  have hfragment : (splitRef (schemaIdBase ++ evaluationFile.text) (text "#/-1")).2 =
      text "/-1" :=
    @splitRef_snd evaluationFile .fragmentOnly (some (text "/-1")) trivial
  rw [hfragment, walksAgree_iff] at hwalks
  rcases hwalks with hnil | ⟨c, rest, heq, -, hraws⟩
  · exact absurd hnil (by decide)
  · rw [← (List.cons.inj heq).2] at hraws
    exact absurd (hraws (text "-1") (by decide) (by decide)) (by decide)

end TraigentSchema.BreakingSchemaCheck
