import TraigentSchema.Library.Sha256
import TraigentSchema.Library.Traverse
import TraigentSchema.LabelsReference.Encodings
import TraigentSchema.Python.Equality

/-!
# Signed key bindings

A tenant's keys form a chain: the pinned root signs the admin's binding, the admin signs
the binding of the project key and the member's.  A list signed by the root names the
revoked keys.  The functions below check one chain; the primitives are the signature
scheme, the interpreter's reading of an ISO timestamp and its stack.
-/

namespace TraigentSchema.LabelsReference

open TraigentSchema.Unicode
open TraigentSchema.Hashing
open TraigentSchema.Python
open TraigentSchema.Traverse

/-- A parsed timestamp; only one with a timezone is an instant. -/
inductive Timestamp where
  | naive
  | aware (microseconds : ℤ)

/-- What the chain is checked with: a signature scheme, a reader of timestamps and the stack. -/
structure Primitives where
  /-- `Ed25519PublicKey.verify`, false where it raises `InvalidSignature`. -/
  ed25519Verify : (publicKey signature message : Bytes) → Bool
  /-- `datetime.fromisoformat`, nothing where it raises `ValueError`. -/
  fromisoformat : Text → Option Timestamp
  stackFull : StackLimit

def bindingDomain : Bytes := utf8 (text "traigent.label.binding.v1") ++ [0]

/-- First 16 bytes of SHA-256(raw public key), base64url. -/
def keyId (publicKey : Bytes) : Text :=
  b64u ((Sha256.sha256 publicKey).toList.take 16)

def rootFingerprint (publicKey : Bytes) : Text :=
  hexdigest (Sha256.sha256 publicKey)

/-! ## Reading documents -/

/-- `if not condition: raise LabelCryptoError(message)`. -/
def require (condition : Bool) (message : String) : Result Unit :=
  if condition then .ok () else .error (.labelCrypto message)

theorem require_ne_other (condition : Bool) (message : String) :
    require condition message ≠ .error .other := by
  rw [require]
  split_ifs <;> simp

/-- `v[name]`, where `v` is a document. -/
def index (v : PyValue) (name : String) : Result PyValue :=
  match v.member name with
  | some w => .ok w
  | none => .error .other

def strValue (s : Text) : PyValue := .leaf (.str s)

/-- `if v[name] != expected: raise LabelCryptoError(message)`. -/
def requireField (v : PyValue) (name : String) (expected : PyValue) (message : String) :
    Result Unit := do
  let found ← index v name
  require (pyEq found expected) message

/-- A list or a dict has no hash. -/
def hashable : PyValue → Bool
  | .leaf _ => true
  | _ => false

def keyValue : Key → PyValue
  | .str s => strValue s
  | .foreign o => .leaf (.foreign o)

/-- What `set(v)` collects; only strings, lists and dicts can be iterated over. -/
def elements : PyValue → Option (List PyValue)
  | .leaf (.str s) => some (s.map fun c => strValue [c])
  | .leaf _ => none
  | .list items => if items.all hashable then some items else none
  | .dict members => some (members.map fun member => keyValue member.1)

def setOf (v : PyValue) : Result (List PyValue) :=
  match elements v with
  | some ids => .ok ids
  | none => .error .other

/-- `v in ids`. -/
def isIn (v : PyValue) (ids : List PyValue) : Result Bool :=
  if hashable v then .ok (ids.any fun id => pyEq id v) else .error .other

/-- `v < bound`, for the numbers. -/
def isBelow (v : PyValue) (bound : ℤ) : Option Bool :=
  match v with
  | .leaf (.float .nan) => some false
  | .leaf (.float (.infinity negative)) => some negative
  | .leaf x => x.number.map fun q : ℚ => decide (q < bound)
  | _ => none

/-- `if v < bound: raise LabelCryptoError(message)`. -/
def requireAtLeast (v : PyValue) (bound : ℤ) (message : String) : Result Unit :=
  match isBelow v bound with
  | some below => require (!below) message
  | none => .error .other

/-- `hmac.compare_digest`, on strings that must be ASCII; the first is. -/
def compareDigest (expected given : Text) : Result Bool :=
  if isAscii given then .ok (expected == given) else .error .other

section Verification

variable (primitives : Primitives)

def verifyBody (publicKey : Bytes) (body signature : PyValue) : Result Unit := do
  if publicKey.length ≠ 32 then .error .other
  else do
    let raw ← unb64u signature
    let message ← jcsWithin primitives.stackFull body
    require (primitives.ed25519Verify publicKey raw (bindingDomain ++ message))
      "bad signature"

def verifyBinding (signerPub : Bytes) (binding : PyValue) : Result Unit := do
  if !binding.isDict then .error .other
  else do
    let body := binding.erase "signature"
    require (pyEq (body.field "signer_key_id") (strValue (keyId signerPub)))
      "signer key id mismatch"
    let signature ← index binding "signature"
    verifyBody primitives signerPub body signature

/-- `_parse_ts`: the instant of a timestamp with a timezone. -/
def parseTs (v : PyValue) : Result ℤ :=
  match v with
  | .leaf (.str s) =>
      let withOffset := s.flatMap fun c => if c = codePoint 'Z' then text "+00:00" else [c]
      match primitives.fromisoformat withOffset with
      | some (.aware microseconds) => .ok microseconds
      | some .naive => .error (.labelCrypto "timestamp has no timezone")
      | none => .error (.labelCrypto "bad timestamp")
  | _ => .error (.labelCrypto "bad timestamp")

/-- The revoked key ids of a list signed by the root. -/
def verifyBindingList (rootPub : Bytes) (bindingList : PyValue) (tenantRef : Text)
    (retainedSequence : ℤ) : Result (List PyValue) := do
  verifyBinding primitives rootPub bindingList
  requireField bindingList "tenant_ref" (strValue tenantRef) "tenant mismatch"
  let sequence ← index bindingList "sequence"
  requireAtLeast sequence retainedSequence "binding list sequence below retained sequence"
  let revokedKeyIds ← index bindingList "revoked_key_ids"
  setOf revokedKeyIds

/-- The arguments of `verify_chain`. -/
structure Chain where
  pinnedRootFingerprint : Text
  rootPub : Bytes
  adminBinding : PyValue
  projectBinding : PyValue
  memberBinding : PyValue
  tenantRef : Text
  projectRef : Text
  bindingList : PyValue
  retainedSequence : ℤ
  now : Text

def Chain.bindings (chain : Chain) : List PyValue :=
  [chain.adminBinding, chain.projectBinding, chain.memberBinding]

/-- One turn of the loop over the chain: neither key revoked, and active by now. -/
def checkActive (revoked : List PyValue) (current : ℤ) (binding : PyValue) :
    Result Unit := do
  let keyRevoked ← isIn (← index binding "key_id") revoked
  let anyRevoked ←
    if keyRevoked then .ok true
    else do isIn (← index binding "signer_key_id") revoked
  require (!anyRevoked) "revoked key in chain"
  let notBefore ← parseTs primitives (← index binding "not_before")
  require (decide (notBefore ≤ current)) "binding not yet active"

def verifyChain (chain : Chain) : Result Unit := do
  let pinned ← compareDigest (rootFingerprint chain.rootPub) chain.pinnedRootFingerprint
  require pinned "root key does not match pinned fingerprint"
  let revoked ← verifyBindingList primitives chain.rootPub chain.bindingList
    chain.tenantRef chain.retainedSequence
  verifyBinding primitives chain.rootPub chain.adminBinding
  requireField chain.adminBinding "purpose" (.str "admin_identity")
    "wrong purpose for admin binding"
  let adminPub ← unb64u (← index chain.adminBinding "public_key")
  forM [(chain.projectBinding, "project_key"), (chain.memberBinding, "member_key")]
    fun row => do
      verifyBinding primitives adminPub row.1
      requireField row.1 "purpose" (.str row.2) s!"wrong purpose, expected {row.2}"
  forM chain.bindings fun binding =>
    requireField binding "tenant_ref" (strValue chain.tenantRef) "tenant mismatch"
  forM [chain.projectBinding, chain.memberBinding] fun binding =>
    requireField binding "project_ref" (strValue chain.projectRef) "project mismatch"
  let memberEpoch ← index chain.memberBinding "epoch"
  let projectEpoch ← index chain.projectBinding "epoch"
  require (pyEq memberEpoch projectEpoch) "epoch mismatch"
  let current ← parseTs primitives (strValue chain.now)
  forM chain.bindings (checkActive primitives revoked current)

end Verification

end TraigentSchema.LabelsReference
