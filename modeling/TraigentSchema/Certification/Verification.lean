import TraigentSchema.Fp2.Members
import TraigentSchema.Library.Hashing
import TraigentSchema.Python.Equality

/-!
# What the verifiers share

Offline verifiers read a parsed bundle, compare its members and raise an error
from a closed vocabulary at the first disagreement.  An exception of any other
kind is caught at the public entry point and replaced by a fixed error, so that it
matters here only that it was raised.
-/

namespace TraigentSchema.Certification

open TraigentSchema.Unicode
open TraigentSchema.Fp2
open TraigentSchema.Hashing
open TraigentSchema.Python
open TraigentSchema.Traverse

/-- How a check fails: with an error of the verifier's own vocabulary, with one of
the process-record or the relying-party verifier, or with any other exception. -/
inductive Failure where
  | verification (code field : String)
  | processRecord (code : String)
  | relyingParty (code : String)
  | other
  deriving DecidableEq, Repr

abbrev Checked (A : Type) := Except Failure A

section Checks

variable {A B : Type}

def fail (code field : String) : Checked A :=
  .error (.verification code field)

/-- `if not condition: _fail(code, field)`. -/
def ensure (condition : Bool) (code field : String) : Checked Unit :=
  if condition then .ok () else fail code field

/-- `try: … except Exception: _fail(code, field)`. -/
def orFail (attempt : Checked A) (code field : String) : Checked A :=
  match attempt with
  | .ok a => .ok a
  | .error _ => fail code field

/-- The public boundary: an exception that is neither the verifier's own error nor
the process-record verifier's becomes the fixed error. -/
def contentFree (attempt : Checked A) (code field : String) : Checked A :=
  match attempt with
  | .error .other => fail code field
  | .error (.relyingParty _) => fail code field
  | result => result

@[simp]
theorem fail_ne_ok (code field : String) (a : A) : fail code field ≠ .ok a := by
  simp [fail]

/-- A check passes when its condition holds. -/
@[simp]
theorem ensure_eq_ok_iff {condition : Bool} {code field : String} {u : Unit} :
    ensure condition code field = .ok u ↔ condition = true := by
  cases condition <;> simp [ensure]

/-- Renaming the error changes no success. -/
@[simp]
theorem orFail_eq_ok_iff {attempt : Checked A} {code field : String} {a : A} :
    orFail attempt code field = .ok a ↔ attempt = .ok a := by
  cases attempt <;> simp [orFail]

/-- Hiding what an error says changes no success. -/
@[simp]
theorem contentFree_eq_ok_iff {attempt : Checked A} {code field : String} {a : A} :
    contentFree attempt code field = .ok a ↔ attempt = .ok a := by
  cases attempt with
  | ok b => simp [contentFree]
  | error failure => cases failure <;> simp [contentFree]

end Checks

/-! ## Reading parsed JSON -/

/-- `v[name]`. -/
def index (v : PyValue) (name : String) : Checked PyValue :=
  match v.member name with
  | some w => .ok w
  | none => .error .other

/-- `v.get(name)`; only a mapping has it. -/
def get (v : PyValue) (name : String) : Checked PyValue :=
  if v.isDict then .ok (v.field name) else .error .other

/-- The items a `for` statement goes through. -/
def iterate : PyValue → Checked (List PyValue)
  | .list items => .ok items
  | .dict members => .ok (members.map fun m =>
      match m.1 with
      | .str s => .leaf (.str s)
      | .foreign o => .leaf (.foreign o))
  | .leaf (.str s) => .ok (s.map fun c => .leaf (.str [c]))
  | .leaf _ => .error .other

/-- `v.get(name, ())`, iterated. -/
def getItems (v : PyValue) (name : String) : Checked (List PyValue) := do
  let items ← get v name
  if v.hasKey name then iterate items else return []

/-- `v[position]`, on a list. -/
def at? (v : PyValue) (position : ℕ) : Checked PyValue :=
  match v with
  | .list items =>
      match items[position]? with
      | some item => .ok item
      | none => .error .other
  | _ => .error .other

/-- An `int`, or a `bool`, which is one. -/
def asInt : PyValue → Option ℤ
  | .leaf (.int i) => some i
  | .leaf (.bool b) => some (if b then 1 else 0)
  | _ => none

/-- A subscript returns the member under a key that is present. -/
theorem index_eq_ok_iff {v w : PyValue} {name : String} :
    index v name = .ok w ↔ v.hasKey name = true ∧ v.field name = w := by
  unfold index PyValue.hasKey PyValue.field
  cases v.member name <;> simp

theorem index_eq_ok_iff_member {v w : PyValue} {name : String} :
    index v name = .ok w ↔ v.member name = some w := by
  unfold index
  cases v.member name <;> simp

/-- `get` returns null for a key that is missing, and fails outside of dicts only. -/
theorem get_eq_ok_iff {v w : PyValue} {name : String} :
    get v name = .ok w ↔ v.isDict = true ∧ v.field name = w := by
  unfold get
  split <;> simp_all

/-- The items of a member that is a list are found. -/
theorem getItems_of_member {v : PyValue} {name : String} {items : List PyValue}
    (hmember : v.member name = some (.list items)) : getItems v name = .ok items := by
  simp [getItems, get, PyValue.isDict_of_member hmember, PyValue.hasKey, PyValue.field,
    hmember, iterate]

@[simp]
theorem pyEq_literal_right {v : PyValue} {literal : String} :
    pyEq v (.str literal) = true ↔ v = .str literal :=
  pyEq_str_right

@[simp]
theorem str_inj {s t : String} : PyValue.str s = PyValue.str t ↔ s = t := by
  simp [PyValue.str]

section Binds

variable {B : Type} {v w : PyValue} {name : String} {b : B}

@[simp]
theorem index_bind_eq_ok_iff {f : PyValue → Checked B} :
    (index v name >>= f) = .ok b ↔ v.hasKey name = true ∧ f (v.field name) = .ok b := by
  simp [bind_eq_ok_iff, index_eq_ok_iff]

@[simp]
theorem get_bind_eq_ok_iff {f : PyValue → Checked B} :
    (get v name >>= f) = .ok b ↔ v.isDict = true ∧ f (v.field name) = .ok b := by
  simp [bind_eq_ok_iff, get_eq_ok_iff]

@[simp]
theorem orFail_bind_eq_ok_iff {A : Type} {attempt : Checked A} {code field : String}
    {f : A → Checked B} :
    (orFail attempt code field >>= f) = .ok b ↔ (attempt >>= f) = .ok b := by
  cases attempt <;> simp [orFail, fail]

end Binds

@[simp]
theorem asInt_int (i : ℤ) : asInt (.leaf (.int i)) = some i := rfl

/-! ## Digests -/

inductive KeyKind where
  | ed25519
  | ecdsaP256
  | other
  deriving DecidableEq, Repr

/-- What the verifiers take from the interpreter and its libraries: the text of a
float, SHA-256, public keys and signatures. -/
structure Platform where
  float : FloatRepr
  sha256 : Hash
  PublicKey : Type
  loadDerPublicKey : Bytes → Option PublicKey
  /-- The `SubjectPublicKeyInfo` of a key. -/
  publicBytes : PublicKey → Bytes
  keyKind : PublicKey → KeyKind
  /-- The key, the signature and the signed bytes. -/
  ed25519Verify : PublicKey → Bytes → Bytes → Bool
  /-- The key, the two scalars of the signature and the signed bytes. -/
  ecdsaVerify : PublicKey → ℕ → ℕ → Bytes → Bool

/-- The values `fp2.canonicalize` accepts. -/
def Canonicalizable (v : PyValue) : Prop :=
  v.nesting ≤ maxDepth ∧ Supported v

instance : DecidablePred Canonicalizable := fun v =>
  inferInstanceAs (Decidable (_ ∧ v.Admits SupportedAtom PlainKey))

variable (platform : Platform)

/-- `fp2.canonicalize(v).encode("utf-8")`. -/
def canonicalUtf8 (v : PyValue) : Checked Bytes :=
  if Canonicalizable v then .ok (utf8 (canonicalText platform.float v)) else .error .other

/-- `UTF8(domain) || 0x00 || canonical`. -/
def preimage (domain : String) (canonical : Bytes) : Bytes :=
  utf8 (text domain) ++ 0 :: canonical

/-- `"sha256:" + hashlib.sha256(material).hexdigest()`. -/
def sha256Text (material : Bytes) : Text :=
  text "sha256:" ++ hexdigest (platform.sha256 material)

def roleDigest (domain : String) (payload : PyValue) : Checked PyValue := do
  let canonical ← canonicalUtf8 platform payload
  return .leaf (.str (sha256Text platform (preimage domain canonical)))

/-- The bytes whose digest `_role_digest` returns. -/
def rolePreimage (domain : String) (payload : PyValue) : Bytes :=
  preimage domain (utf8 (canonicalText platform.float payload))

/-- The role digest exists exactly of what is canonicalizable. -/
theorem roleDigest_eq_ok_iff {domain : String} {payload digest : PyValue} :
    roleDigest platform domain payload = .ok digest ↔
      Canonicalizable payload ∧
        .leaf (.str (sha256Text platform (rolePreimage platform domain payload))) = digest := by
  unfold roleDigest canonicalUtf8 rolePreimage
  split <;> simp_all

/-- The canonical bytes exist exactly of what is canonicalizable. -/
theorem canonicalUtf8_eq_ok_iff {v : PyValue} {canonical : Bytes} :
    canonicalUtf8 platform v = .ok canonical ↔
      Canonicalizable v ∧ utf8 (canonicalText platform.float v) = canonical := by
  unfold canonicalUtf8
  split <;> simp_all

@[simp]
theorem roleDigest_bind_eq_ok_iff {B : Type} {domain : String} {payload : PyValue} {b : B}
    {f : PyValue → Checked B} :
    (roleDigest platform domain payload >>= f) = .ok b ↔
      Canonicalizable payload ∧
        f (.leaf (.str (sha256Text platform (rolePreimage platform domain payload)))) =
          .ok b := by
  simp [bind_eq_ok_iff, roleDigest_eq_ok_iff]

@[simp]
theorem canonicalUtf8_bind_eq_ok_iff {B : Type} {v : PyValue} {b : B}
    {f : Bytes → Checked B} :
    (canonicalUtf8 platform v >>= f) = .ok b ↔
      Canonicalizable v ∧ f (utf8 (canonicalText platform.float v)) = .ok b := by
  unfold canonicalUtf8
  split <;> simp_all

/-- The zero byte after the domain keeps different texts apart. -/
theorem preimage_injective (domain : String) : Function.Injective (preimage domain) := by
  intro left right heq
  exact List.cons_injective (List.append_cancel_left heq)

/-- Equal digest texts are equal digests. -/
theorem sha256Text_injOn {x y : Bytes} (heq : sha256Text platform x = sha256Text platform y) :
    platform.sha256 x = platform.sha256 y :=
  hexdigest_injective (List.append_cancel_left heq)

/-- Two payloads of one digest agree, or collide. -/
theorem agree_or_collision {domain : String} {payload payload' : PyValue}
    (heq : sha256Text platform (rolePreimage platform domain payload) =
      sha256Text platform (rolePreimage platform domain payload')) :
    Agree platform.float payload payload' ∨
      Collision platform.sha256 [rolePreimage platform domain payload]
        [rolePreimage platform domain payload'] := by
  rcases eq_or_collision (sha256Text_injOn platform heq) with hsame | hcollision
  · exact Or.inl (utf8_injective (preimage_injective domain hsame))
  · exact Or.inr hcollision

end TraigentSchema.Certification
