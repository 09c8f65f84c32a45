import TraigentSchema.Library.Unicode

/-!
# URI references

The components of a URI reference, the removal of dot segments and the resolution of a
reference against a base, as in RFC 3986, sections 5.2 and 5.3 and appendix B.  A reference
that is put together from well-formed components is taken apart into the same ones, so that
resolution can be computed on components.
-/

namespace TraigentSchema.UriReference

open TraigentSchema.Unicode

def slash : CodePoint := codePoint '/'
def colon : CodePoint := codePoint ':'
def questionMark : CodePoint := codePoint '?'
def hash : CodePoint := codePoint '#'

structure Reference where
  scheme : Option Text
  authority : Option Text
  path : Text
  query : Option Text
  fragment : Option Text

/-! ## Taking a reference apart -/

/-- Up to the first of some delimiters. -/
def before (delimiters : List CodePoint) (s : Text) : Text :=
  s.takeWhile fun c => decide (c ∉ delimiters)

/-- From the first of some delimiters on. -/
def since (delimiters : List CodePoint) (s : Text) : Text :=
  s.dropWhile fun c => decide (c ∉ delimiters)

def splitScheme (s : Text) : Option Text × Text :=
  let scheme := before [colon, slash, questionMark, hash] s
  match since [colon, slash, questionMark, hash] s with
  | c :: rest => if c = colon ∧ scheme ≠ [] then (some scheme, rest) else (none, s)
  | [] => (none, s)

def splitAuthority : Text → Option Text × Text
  | a :: b :: rest =>
      if a = slash ∧ b = slash then
        (some (before [slash, questionMark, hash] rest), since [slash, questionMark, hash] rest)
      else (none, a :: b :: rest)
  | s => (none, s)

def splitQuery : Text → Option Text × Text
  | c :: rest => if c = questionMark then (some (before [hash] rest), since [hash] rest)
      else (none, c :: rest)
  | [] => (none, [])

/-- What is left is empty or starts with a number sign. -/
def splitFragment : Text → Option Text
  | _ :: rest => some rest
  | [] => none

def parse (s : Text) : Reference :=
  let (scheme, afterScheme) := splitScheme s
  let (authority, afterAuthority) := splitAuthority afterScheme
  let (query, afterQuery) := splitQuery (since [questionMark, hash] afterAuthority)
  ⟨scheme, authority, before [questionMark, hash] afterAuthority, query, splitFragment afterQuery⟩

/-! ## Putting a reference together -/

def recompose (r : Reference) : Text :=
  (r.scheme.elim [] fun s => s ++ [colon]) ++
    (r.authority.elim [] fun a => slash :: slash :: a) ++ r.path ++
      (r.query.elim [] fun q => questionMark :: q) ++
        r.fragment.elim [] fun f => hash :: f

/-- Components that are read back from the text of the reference. -/
structure Reference.WellFormed (r : Reference) : Prop where
  scheme_ne_nil : ∀ s, r.scheme = some s → s ≠ []
  scheme_chars : ∀ s, r.scheme = some s → ∀ c ∈ s, c ∉ [colon, slash, questionMark, hash]
  authority_chars : ∀ a, r.authority = some a → ∀ c ∈ a, c ∉ [slash, questionMark, hash]
  path_chars : ∀ c ∈ r.path, c ∉ [questionMark, hash]
  query_chars : ∀ q, r.query = some q → hash ∉ q
  /-- The path behind an authority is empty or absolute. -/
  path_absolute : r.authority ≠ none → r.path = [] ∨ ∃ rest, r.path = slash :: rest
  /-- A path that is taken for an authority needs one before it. -/
  path_single : r.authority = none → ∀ rest, r.path ≠ slash :: slash :: rest
  /-- What precedes the first colon of a relative path is not taken for a scheme. -/
  path_noScheme : r.scheme = none → r.authority = none →
    ∀ rest, since [colon, slash] r.path ≠ colon :: rest

/-- A text that is empty or starts with one of some delimiters. -/
def Delimited (delimiters : List CodePoint) (s : Text) : Prop :=
  s = [] ∨ ∃ c rest, s = c :: rest ∧ c ∈ delimiters

section Split

variable {delimiters : List CodePoint} {s rest : Text}

theorem before_append (hs : ∀ c ∈ s, c ∉ delimiters) (hrest : Delimited delimiters rest) :
    before delimiters (s ++ rest) = s := by
  rw [before, List.takeWhile_append_of_pos (by simpa using hs)]
  rcases hrest with rfl | ⟨c, rest, rfl, hc⟩
  · simp
  · simp [hc]

theorem since_append (hs : ∀ c ∈ s, c ∉ delimiters) (hrest : Delimited delimiters rest) :
    since delimiters (s ++ rest) = rest := by
  rw [since, List.dropWhile_append_of_pos (by simpa using hs)]
  rcases hrest with rfl | ⟨c, rest, rfl, hc⟩
  · simp
  · simp [hc]

end Split

section Recompose

variable {r : Reference}

/-- The text of a reference behind its path. -/
def tailText (r : Reference) : Text :=
  (r.query.elim [] fun q => questionMark :: q) ++ r.fragment.elim [] fun f => hash :: f

/-- The text of a reference behind its scheme. -/
def restText (r : Reference) : Text :=
  (r.authority.elim [] fun a => slash :: slash :: a) ++ (r.path ++ tailText r)

theorem recompose_eq (r : Reference) :
    recompose r = (r.scheme.elim [] fun s => s ++ [colon]) ++ restText r := by
  simp [recompose, restText, tailText]

theorem delimited_fragment (fragment : Option Text) :
    Delimited [hash] (fragment.elim [] fun f => hash :: f) := by
  cases fragment with
  | none => exact Or.inl rfl
  | some f => exact Or.inr ⟨hash, f, rfl, by simp⟩

theorem splitFragment_fragment (fragment : Option Text) :
    splitFragment (fragment.elim [] fun f => hash :: f) = fragment := by
  cases fragment <;> rfl

theorem splitQuery_tailText (hr : r.WellFormed) :
    splitQuery (tailText r) = (r.query, r.fragment.elim [] fun f => hash :: f) := by
  rw [tailText]
  cases hquery : r.query with
  | none =>
      cases r.fragment with
      | none => rfl
      | some f => rfl
  | some q =>
      have hq : ∀ c ∈ q, c ∉ [hash] := by
        intro c hc hmem
        rw [List.mem_singleton] at hmem
        exact hr.query_chars q hquery (hmem ▸ hc)
      simp only [Option.elim_some, List.cons_append, splitQuery, if_true,
        before_append hq (delimited_fragment r.fragment),
        since_append hq (delimited_fragment r.fragment)]

theorem delimited_tailText (r : Reference) : Delimited [questionMark, hash] (tailText r) := by
  rw [tailText]
  cases r.query with
  | none =>
      cases r.fragment with
      | none => exact Or.inl rfl
      | some f => exact Or.inr ⟨hash, f, rfl, by simp⟩
  | some q => exact Or.inr ⟨questionMark, _, rfl, by simp⟩

theorem delimited_path_tailText (hr : r.WellFormed) (hauthority : r.authority ≠ none) :
    Delimited [slash, questionMark, hash] (r.path ++ tailText r) := by
  rcases hr.path_absolute hauthority with hpath | ⟨rest, hpath⟩
  · rw [hpath, List.nil_append]
    rcases delimited_tailText r with htail | ⟨c, rest, htail, hc⟩
    · exact Or.inl htail
    · exact Or.inr ⟨c, rest, htail, List.mem_cons_of_mem _ hc⟩
  · exact Or.inr ⟨slash, rest ++ tailText r, by rw [hpath, List.cons_append], by simp⟩

theorem splitAuthority_restText (hr : r.WellFormed) :
    splitAuthority (restText r) = (r.authority, r.path ++ tailText r) := by
  rw [restText]
  cases hauthority : r.authority with
  | some a =>
      have ha := hr.authority_chars a hauthority
      have hrest := delimited_path_tailText hr (by simp [hauthority])
      simp only [Option.elim_some, List.cons_append, splitAuthority, and_self, if_true,
        before_append ha hrest, since_append ha hrest]
  | none =>
      rw [Option.elim_none, List.nil_append]
      have hsingle := hr.path_single hauthority
      have hhead : ∀ rest, r.path ++ tailText r ≠ slash :: slash :: rest := by
        intro rest heq
        cases hpath : r.path with
        | nil =>
            rw [hpath, List.nil_append] at heq
            rcases delimited_tailText r with htail | ⟨c, rest', htail, hc⟩
            · rw [htail] at heq
              cases heq
            · rw [htail, List.cons.injEq] at heq
              rw [heq.1] at hc
              exact absurd hc (by decide)
        | cons a path =>
            rw [hpath, List.cons_append, List.cons.injEq] at heq
            cases path with
            | nil =>
                rcases delimited_tailText r with htail | ⟨c, rest', htail, hc⟩
                · rw [htail] at heq
                  cases heq.2
                · rw [htail, List.nil_append, List.cons.injEq] at heq
                  rw [heq.2.1] at hc
                  exact absurd hc (by decide)
            | cons b path =>
                rw [List.cons_append, List.cons.injEq] at heq
                exact hsingle path (by rw [hpath, heq.1, heq.2.1])
      generalize r.path ++ tailText r = s at hhead
      match s with
      | [] => rfl
      | [c] => rfl
      | a :: b :: rest =>
          rw [splitAuthority, if_neg]
          rintro ⟨rfl, rfl⟩
          exact hhead rest rfl

theorem since_eq_of_forall_notMem {delimiters others : List CodePoint} {s : Text}
    (hs : ∀ c ∈ s, c ∉ others) : since (delimiters ++ others) s = since delimiters s := by
  induction s with
  | nil => rfl
  | cons c s ih =>
      rw [List.forall_mem_cons] at hs
      simp only [since, List.dropWhile_cons, List.mem_append, hs.1, or_false] at ih ⊢
      split_ifs
      · exact ih hs.2
      · rfl

/-- Delimited texts are read from their delimiter on. -/
theorem since_of_delimited {delimiters : List CodePoint} {s : Text}
    (hs : Delimited delimiters s) : since delimiters s = s := by
  simpa using since_append (s := []) (by simp) hs

theorem splitScheme_of_since_ne {s : Text}
    (hs : ∀ rest, since [colon, slash, questionMark, hash] s ≠ colon :: rest) :
    splitScheme s = (none, s) := by
  rw [splitScheme]
  cases hsince : since [colon, slash, questionMark, hash] s with
  | nil => rfl
  | cons c rest =>
      have hc : c ≠ colon := by
        rintro rfl
        exact hs rest hsince
      simp [hc]

theorem splitScheme_recompose (hr : r.WellFormed) :
    splitScheme (recompose r) = (r.scheme, restText r) := by
  rw [recompose_eq]
  cases hscheme : r.scheme with
  | some s =>
      have hs := hr.scheme_chars s hscheme
      have hrest : Delimited [colon, slash, questionMark, hash] (colon :: restText r) :=
        Or.inr ⟨colon, restText r, rfl, by simp⟩
      rw [Option.elim_some, List.append_assoc, List.singleton_append, splitScheme,
        before_append hs hrest, since_append hs hrest]
      simp [hr.scheme_ne_nil s hscheme]
  | none =>
      rw [Option.elim_none, List.nil_append]
      apply splitScheme_of_since_ne
      intro rest heq
      cases hauthority : r.authority with
      | some a =>
          have hstart : Delimited [colon, slash, questionMark, hash] (restText r) :=
            Or.inr ⟨slash, _, by rw [restText, hauthority]; rfl, by simp⟩
          rw [since_of_delimited hstart, restText, hauthority] at heq
          exact absurd (List.cons.inj heq).1 (by decide)
      | none =>
          have hpath : since [colon, slash, questionMark, hash] r.path =
              since [colon, slash] r.path :=
            @since_eq_of_forall_notMem [colon, slash] _ _ hr.path_chars
          have hnot := hr.path_noScheme hscheme hauthority
          rw [restText, hauthority, Option.elim_none, List.nil_append, since,
            List.dropWhile_append, ← since, hpath] at heq
          split_ifs at heq with hempty
          · rcases delimited_tailText r with htail | ⟨c, tail, htail, hc⟩
            · rw [htail] at heq
              cases heq
            · have hdelimited : Delimited [colon, slash, questionMark, hash] (tailText r) :=
                Or.inr ⟨c, tail, htail, by simp_all⟩
              rw [← since, since_of_delimited hdelimited, htail, List.cons.injEq] at heq
              rw [heq.1] at hc
              exact absurd hc (by decide)
          · cases hsince : since [colon, slash] r.path with
            | nil => simp [hsince] at hempty
            | cons c path =>
                rw [hsince, List.cons_append, List.cons.injEq] at heq
                exact hnot path (by rw [hsince, heq.1])

/-- A reference is taken apart into the components it was put together from. -/
theorem parse_recompose (hr : r.WellFormed) : parse (recompose r) = r := by
  have hbefore := before_append hr.path_chars (delimited_tailText r)
  have hsince := since_append hr.path_chars (delimited_tailText r)
  simp only [parse, splitScheme_recompose hr, splitAuthority_restText hr, hbefore, hsince,
    splitQuery_tailText hr, splitFragment_fragment]

end Recompose

/-! ## Resolution -/

def dot : Text := [codePoint '.']
def dotDot : Text := [codePoint '.', codePoint '.']

/-- The path whose segments follow the pieces so far, the last of them first. -/
def removeDots : (pieces segments : List Text) → Text
  | pieces, [] => pieces.reverse.flatten
  | pieces, [segment] =>
      if segment = dot then ([slash] :: pieces).reverse.flatten
      else if segment = dotDot then ([slash] :: pieces.tail).reverse.flatten
      else ((slash :: segment) :: pieces).reverse.flatten
  | pieces, segment :: next :: segments =>
      if segment = dot then removeDots pieces (next :: segments)
      else if segment = dotDot then removeDots pieces.tail (next :: segments)
      else removeDots ((slash :: segment) :: pieces) (next :: segments)

/-- `remove_dot_segments`.  Dots before the first name of a relative path go. -/
def removeDotSegments (path : Text) : Text :=
  match path.splitOn slash with
  | [] :: segment :: segments => removeDots [] (segment :: segments)
  | segments =>
      match segments.dropWhile fun segment => decide (segment = dot ∨ segment = dotDot) with
      | [] => []
      | segment :: rest => removeDots [segment] rest

/-- The path of a base without its last segment, and that of a reference. -/
def mergePaths (base reference : Reference) : Text :=
  if base.authority.isSome ∧ base.path = [] then slash :: reference.path
  else (base.path.reverse.dropWhile fun c => decide (c ≠ slash)).reverse ++ reference.path

def transform (base reference : Reference) : Reference :=
  match reference.scheme, reference.authority with
  | some scheme, authority =>
      ⟨some scheme, authority, removeDotSegments reference.path, reference.query,
        reference.fragment⟩
  | none, some authority =>
      ⟨base.scheme, some authority, removeDotSegments reference.path, reference.query,
        reference.fragment⟩
  | none, none =>
      match reference.path with
      | [] =>
          ⟨base.scheme, base.authority, base.path, reference.query.or base.query,
            reference.fragment⟩
      | c :: _ =>
          ⟨base.scheme, base.authority,
            removeDotSegments (if c = slash then reference.path else mergePaths base reference),
            reference.query, reference.fragment⟩

/-- `urljoin`. -/
def resolve (base reference : Text) : Text :=
  recompose (transform (parse base) (parse reference))

/-- `urldefrag`. -/
def defragment (s : Text) : Text × Text :=
  (before [hash] s, (since [hash] s).tail)

/-- A relative path replaces the last segment of the path of the base. -/
theorem transform_relativePath {base reference : Reference} {c : CodePoint} {rest : Text}
    (hscheme : reference.scheme = none) (hauthority : reference.authority = none)
    (hpath : reference.path = c :: rest) (hc : c ≠ slash) :
    transform base reference =
      ⟨base.scheme, base.authority, removeDotSegments (mergePaths base reference),
        reference.query, reference.fragment⟩ := by
  simp only [transform, hscheme, hauthority, hpath, if_neg hc]

theorem resolve_recompose {base reference : Reference} (hbase : base.WellFormed)
    (hreference : reference.WellFormed) :
    resolve (recompose base) (recompose reference) = recompose (transform base reference) := by
  rw [resolve, parse_recompose hbase, parse_recompose hreference]

theorem hash_notMem_recompose {r : Reference} (hr : r.WellFormed) (hfragment : r.fragment = none) :
    hash ∉ recompose r := by
  have hscheme : hash ∉ (r.scheme.elim [] fun s => s ++ [colon] : Text) := by
    cases h : r.scheme with
    | none => simp
    | some s =>
        have hs : hash ∉ s := fun hmem => hr.scheme_chars s h hash hmem (by simp)
        have hcolon : hash ≠ colon := by decide
        simp [hs, hcolon]
  have hslash : hash ≠ slash := by decide
  have hauthority : hash ∉ (r.authority.elim [] fun a => slash :: slash :: a : Text) := by
    cases h : r.authority with
    | none => simp
    | some a =>
        have ha : hash ∉ a := fun hmem => hr.authority_chars a h hash hmem (by simp)
        simp [ha, hslash]
  have hpath : hash ∉ r.path := fun hmem => hr.path_chars hash hmem (by simp)
  have hquery : hash ∉ (r.query.elim [] fun q => questionMark :: q : Text) := by
    cases h : r.query with
    | none => simp
    | some q =>
        have hmark : hash ≠ questionMark := by decide
        simp [hr.query_chars q h, hmark]
  simp [recompose, hfragment, hscheme, hauthority, hpath, hquery]

theorem defragment_recompose {r : Reference} (hr : r.WellFormed) :
    defragment (recompose r) =
      (recompose { r with fragment := none }, r.fragment.getD []) := by
  have hwhole : ({ r with fragment := none } : Reference).WellFormed :=
    ⟨hr.scheme_ne_nil, hr.scheme_chars, hr.authority_chars, hr.path_chars, hr.query_chars,
      hr.path_absolute, hr.path_single, hr.path_noScheme⟩
  have hnot : ∀ c ∈ recompose { r with fragment := none }, c ∉ [hash] := by
    intro c hc hmem
    rw [List.mem_singleton] at hmem
    exact hash_notMem_recompose hwhole rfl (hmem ▸ hc)
  have hsplit : recompose r = recompose { r with fragment := none } ++
      r.fragment.elim [] fun f => hash :: f := by
    simp [recompose]
  rw [defragment, hsplit, before_append hnot (delimited_fragment _),
    since_append hnot (delimited_fragment _)]
  cases r.fragment <;> rfl

/-! ## Dot segments -/

/-- The names a path is left with, without its last segment. -/
def collapse : (names segments : List Text) → List Text
  | names, [] => names
  | names, segment :: segments =>
      if segment = dot then collapse names segments
      else if segment = dotDot then collapse names.dropLast segments
      else collapse (names ++ [segment]) segments

/-- An absolute path of segments. -/
def pathText (segments : List Text) : Text :=
  segments.flatMap fun segment => slash :: segment

theorem pathText_append (left right : List Text) :
    pathText (left ++ right) = pathText left ++ pathText right :=
  List.flatMap_append

/-- The path behind some names, whose last segment decides how it ends. -/
theorem removeDots_append (names segments : List Text) (last : Text) :
    removeDots (names.map fun name => slash :: name).reverse (segments ++ [last]) =
      if last = dot then pathText (collapse names segments ++ [[]])
      else if last = dotDot then pathText ((collapse names segments).dropLast ++ [[]])
      else pathText (collapse names segments ++ [last]) := by
  induction segments generalizing names with
  | nil =>
      have htail : (names.map fun name => slash :: name).reverse.tail =
          (names.dropLast.map fun name => slash :: name).reverse := by
        rw [List.tail_reverse, List.map_dropLast]
      simp only [List.nil_append, removeDots, collapse, htail, pathText_append]
      split_ifs <;> simp [pathText, List.flatMap]
  | cons segment segments ih =>
      have hcons : ∀ pieces, removeDots pieces (segment :: (segments ++ [last])) =
          if segment = dot then removeDots pieces (segments ++ [last])
          else if segment = dotDot then removeDots pieces.tail (segments ++ [last])
          else removeDots ((slash :: segment) :: pieces) (segments ++ [last]) := by
        intro pieces
        cases segments <;> rfl
      have htail : (names.map fun name => slash :: name).reverse.tail =
          (names.dropLast.map fun name => slash :: name).reverse := by
        rw [List.tail_reverse, List.map_dropLast]
      have hpush : (slash :: segment) :: (names.map fun name => slash :: name).reverse =
          ((names ++ [segment]).map fun name => slash :: name).reverse := by
        simp
      rw [List.cons_append, hcons, htail, hpush, collapse]
      by_cases hdot : segment = dot
      · simpa only [if_pos hdot] using ih names
      · by_cases hdots : segment = dotDot
        · simpa only [if_neg hdot, if_pos hdots] using ih names.dropLast
        · simpa only [if_neg hdot, if_neg hdots] using ih (names ++ [segment])

end TraigentSchema.UriReference
