import TraigentSchema.Invariants.Relations
import TraigentSchema.Library.UriReference

/-!
# The two readings of a reference

The comparator resolves a `$ref` as a URI and walks to its fragment; the role graph works out
the file a `$ref` names from path segments.  Here are both, and the JSON pointer walk beside
the one of the declared invariants.
-/

namespace TraigentSchema.BreakingSchemaCheck

open TraigentSchema.Invariants
open TraigentSchema.Python
open TraigentSchema.Unicode
open TraigentSchema.UriReference

/-! ## `int` of a string -/

/-- The decimal digits and the white space of Unicode, fixed on ASCII digits. -/
structure DecimalDigits where
  digit : CodePoint → Option ℕ
  isSpace : CodePoint → Bool
  digit_ascii : ∀ c, isDigit c = true → digit c = some (c.val - (codePoint '0').val)
  isSpace_ascii : ∀ c, isDigit c = true → isSpace c = false

section Int

variable (unicode : DecimalDigits)

/-- Digits, with single underscores between them. -/
def readDigits : Text → Option (List ℕ)
  | [] => none
  | [c] => (unicode.digit c).map fun d => [d]
  | c :: next :: rest =>
      (unicode.digit c).bind fun d =>
        (if next = codePoint '_' then readDigits rest else readDigits (next :: rest)).map
          (d :: ·)

/-- The sign of a literal, and the rest. -/
def splitSign : Text → Bool × Text
  | c :: rest =>
      if c = codePoint '-' then (true, rest)
      else if c = codePoint '+' then (false, rest)
      else (false, c :: rest)
  | [] => (false, [])

def strip (s : Text) : Text :=
  ((s.dropWhile unicode.isSpace).reverse.dropWhile unicode.isSpace).reverse

/-- `int(s)`; none where it raises. -/
def intOfString (s : Text) : Option ℤ :=
  let (negative, digits) := splitSign (strip unicode s)
  (readDigits unicode digits).bind fun ds =>
    let value : ℕ := ds.foldl (fun value d => 10 * value + d) 0
    if ds.length ≤ maxStrDigits then some (if negative then -(value : ℤ) else value) else none

end Int

/-! ## The comparator -/

def splitRef (baseUri ref : Text) : Text × Text :=
  defragment (resolve baseUri ref)

section Pointer

variable (unicode : DecimalDigits) {A : Type}

/-- `items[index]`; a negative index counts from the end. -/
def itemAt (items : List (Ref A)) (index : ℤ) : Option (Ref A) :=
  if 0 ≤ index then items[index.toNat]?
  else if -index ≤ items.length then items[(items.length + index).toNat]?
  else none

/-- A step of `_json_pointer_get`; none where it raises. -/
def pointerGetStep (h : Heap A) (node : Ref A) (raw : Text) : Option (Ref A) :=
  let part := unescapeSegment raw
  match node with
  | .atom _ => none
  | .node a =>
      match h a with
      | .list items => (intOfString unicode part).bind (itemAt items)
      | .dict members => lookupKey members.items (.str part)

def jsonPointerGet (h : Heap A) (doc : Ref A) (pointer : Text) : Option (Ref A) :=
  if pointer = [] ∨ pointer = [slash] then some doc
  else ((pointer.dropWhile fun c => decide (c = slash)).splitOn slash).foldlM
    (pointerGetStep unicode h) doc

end Pointer

/-! ## The role graph -/

def schemaIdBase : Text :=
  text "https://schemas.traigent.ai/"

def joinSegments (segments : List Text) : Text :=
  [slash].intercalate segments

/-- `PurePosixPath(path).parts`. -/
def posixParts (path : Text) : List Text :=
  let names := (path.splitOn slash).filter fun part => decide (part ≠ [] ∧ part ≠ dot)
  match path with
  | a :: b :: rest =>
      if a ≠ slash then names
      else if b = slash ∧ rest.head? ≠ some slash then [slash, slash] :: names
      else [slash] :: names
  | [c] => if c = slash then [slash] :: names else names
  | [] => names

/-- `PurePosixPath(path).parent.parts`. -/
def parentParts (path : Text) : List Text :=
  match posixParts path with
  | [root] => if root.head? = some slash then [root] else []
  | parts => parts.dropLast

/-- `(base / other).parts`. -/
def joinParts (base : List Text) (other : Text) : List Text :=
  if other.head? = some slash then posixParts other else base ++ posixParts other

/-- One part in the loop over the parts of a path. -/
def normalizePart (names : List Text) (part : Text) : List Text :=
  if part = dotDot then names.dropLast
  else if part = dot ∨ part = [] then names
  else names ++ [part]

def normalizeParts (parts : List Text) : List Text :=
  parts.foldl normalizePart []

def asciiLower (c : CodePoint) : CodePoint :=
  if codePoint 'A' ≤ c ∧ c ≤ codePoint 'Z' then c + 32 else c

/-- `urlparse(url).scheme in ("http", "https")`. -/
def isHttp (url : Text) : Bool :=
  (parse url).scheme.any fun scheme =>
    scheme.map asciiLower == text "http" || scheme.map asciiLower == text "https"

def relpathFromRefString (currentFile ref : Text) : Option Text :=
  let docPart := before [hash] ref
  if ref.head? = some hash then none
  else if docPart = [] then none
  else if schemaIdBase <+: docPart then some (docPart.drop schemaIdBase.length)
  else if isHttp docPart then none
  else some (joinSegments (normalizeParts (joinParts (parentParts currentFile) docPart)))

/-! ## Agreement -/

/-- A heap of parsed JSON: the keys are strings, and no object is of a foreign type. -/
def JsonHeap {A : Type} (h : Heap A) : Prop :=
  ∀ a, match h a with
    | .list items => ∀ item ∈ items, ∀ o, item ≠ .atom (.foreign o)
    | .dict members => ∀ member ∈ members.items,
        (∃ s, member.1 = .str s) ∧ ∀ o, member.2 ≠ .atom (.foreign o)

/-- A reference names one file for the role graph and for the comparator, and its fragment
one value of any document for the comparator and for the declared invariants.  Without a
file name the reference is to the file itself. -/
def ResolversAgree (unicode : DecimalDigits) (relpath ref : Text) : Prop :=
  (splitRef (schemaIdBase ++ relpath) ref).1 =
      schemaIdBase ++ (relpathFromRefString relpath ref).getD relpath ∧
    ∀ (A : Type) (h : Heap A) (doc : Ref A), JsonHeap h →
      jsonPointerGet unicode h doc (splitRef (schemaIdBase ++ relpath) ref).2 =
        (resolvePointer h doc (splitRef (schemaIdBase ++ relpath) ref).2).toOption.join

/-! ## References of the schema tree -/

/-- Characters that end no segment of a path. -/
def IsSegment (s : Text) : Prop :=
  ∀ c ∈ s, c ∉ [slash, questionMark, hash]

structure IsName (s : Text) : Prop where
  segment : IsSegment s
  ne_nil : s ≠ []
  ne_dot : s ≠ dot
  ne_dotDot : s ≠ dotDot

/-- The path of a schema file below the root of the schemas. -/
structure SchemaPath where
  directories : List Text
  file : Text
  directories_names : ∀ name ∈ directories, IsName name
  file_name : IsName file

def SchemaPath.text (path : SchemaPath) : Text :=
  joinSegments (path.directories ++ [path.file])

/-- A reference without its fragment; the segments of a path with the last one apart. -/
inductive SchemaReference where
  | fragmentOnly
  | relative (segments : List Text) (last : Text)
  | absolute (segments : List Text) (last : Text)

/-- A relative reference is made of dots and names, and no scheme precedes it. -/
def SchemaReference.WellFormed : SchemaReference → Prop
  | .fragmentOnly => True
  | .relative segments last =>
      (∀ s ∈ segments ++ [last], s = dot ∨ s = dotDot ∨ IsName s) ∧
        ∀ s, (segments ++ [last]).head? = some s → colon ∉ s
  | .absolute segments last => ∀ s ∈ segments ++ [last], IsSegment s

def fragmentText (fragment : Option Text) : Text :=
  fragment.elim [] fun f => hash :: f

def SchemaReference.text (reference : SchemaReference) (fragment : Option Text) : Text :=
  match reference with
  | .fragmentOnly => fragmentText fragment
  | .relative segments last => joinSegments (segments ++ [last]) ++ fragmentText fragment
  | .absolute segments last =>
      schemaIdBase ++ joinSegments (segments ++ [last]) ++ fragmentText fragment

/-- How deep below the root some segments lead. -/
def depthAfter : (depth : ℕ) → List Text → ℕ
  | depth, [] => depth
  | depth, segment :: segments =>
      if segment = dot then depthAfter depth segments
      else if segment = dotDot then depthAfter (depth - 1) segments
      else depthAfter (depth + 1) segments

/-- The references that name a file and not a directory, save the root, in one way. -/
def NamesFile (path : SchemaPath) : SchemaReference → Prop
  | .fragmentOnly => True
  | .relative segments last =>
      (last ≠ dot ∧ last ≠ dotDot) ∨
        depthAfter path.directories.length (segments ++ [last]) = 0
  | .absolute segments last => ∀ s ∈ segments ++ [last], s ≠ dot ∧ s ≠ dotDot

/-- The fragments on which the two walks go the same way. -/
def CanonicalPointer (unicode : DecimalDigits) (pointer : Text) : Prop :=
  pointer = [] ∨ ∃ c rest, pointer = slash :: c :: rest ∧ c ≠ slash ∧
    ∀ raw ∈ (c :: rest).splitOn slash,
      (intOfString unicode (unescapeSegment raw)).isSome = true →
        isArrayIndex (unescapeSegment raw) = true

end TraigentSchema.BreakingSchemaCheck
