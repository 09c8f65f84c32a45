import TraigentSchema.LabelsReference.Bindings

/-!
# What a verified chain establishes

Every step of the verification reads some members of the documents, and then accepts or
refuses them.  What cannot be read raises an exception of another class, unless a step before
it refuses the chain.  Where all steps accept, the chain is signed, current and unrevoked by
the ids its bindings declare; that these are the ids of the keys they carry is not among the
steps.
-/

namespace TraigentSchema.LabelsReference

open TraigentSchema.Unicode
open TraigentSchema.Python
open TraigentSchema.Traverse

/-! ## Steps -/

section Steps

variable {A B : Type}

/-- A requirement passes when its condition holds. -/
theorem require_eq_ok_iff {condition : Bool} {message : String} {u : Unit} :
    require condition message = .ok u ↔ condition = true := by
  cases condition <;> simp [require]

theorem index_eq_ok_iff {v w : PyValue} {name : String} :
    index v name = .ok w ↔ v.member name = some w := by
  rw [index]
  cases v.member name <;> simp

/-- A subscript raises nothing but for a missing key. -/
theorem index_ne_other_iff {v : PyValue} {name : String} :
    index v name ≠ .error .other ↔ v.hasKey name = true := by
  rw [index, PyValue.hasKey]
  cases v.member name <;> simp

theorem member_eq_some_iff {v w : PyValue} {name : String} :
    v.member name = some w ↔ v.hasKey name = true ∧ v.field name = w := by
  rw [PyValue.hasKey, PyValue.field]
  cases v.member name <;> simp

/-- Only what is there is a string. -/
theorem member_eq_str_iff {v : PyValue} {name : String} {s : Text} :
    v.member name = some (strValue s) ↔ v.field name = strValue s := by
  rw [PyValue.field]
  cases v.member name with
  | none => simp [strValue]
  | some w => simp

/-- A required field can be compared when it is present. -/
theorem requireField_ne_other_iff {v expected : PyValue} {name message : String} :
    requireField v name expected message ≠ .error .other ↔ v.hasKey name = true := by
  rw [requireField, bind_ne_other_iff, index_ne_other_iff]
  exact and_iff_left fun _ _ => require_ne_other _ _

/-- A required field passes when it is the expected text. -/
theorem requireField_eq_ok_iff {v : PyValue} {s : Text} {name message : String} {u : Unit} :
    requireField v name (strValue s) message = .ok u ↔ v.member name = some (strValue s) := by
  simp only [requireField, bind_eq_ok_iff, index_eq_ok_iff, require_eq_ok_iff]
  constructor
  · rintro ⟨w, hw, hequal⟩
    rw [hw, pyEq_str_right.mp hequal]
    rfl
  · exact fun hmember => ⟨_, hmember, pyEq_str_right.mpr rfl⟩

/-- Each row can be read, as far as those before it are accepted. -/
def InTurn (readable accepted : A → Prop) : List A → Prop
  | [] => True
  | row :: rows => readable row ∧ (accepted row → InTurn readable accepted rows)

/-- A loop of checks ends in order when every row up to the first refused one can be read. -/
theorem forM_ne_other_iff {f : A → Result Unit} {readable accepted : A → Prop} {rows : List A}
    (hreadable : ∀ row ∈ rows, f row ≠ .error .other ↔ readable row)
    (haccepted : ∀ row u, f row = .ok u ↔ accepted row) :
    forM rows f ≠ .error .other ↔ InTurn readable accepted rows := by
  induction rows with
  | nil => simp [InTurn]
  | cons row rows ih =>
      rw [List.forall_mem_cons] at hreadable
      rw [List.forM_cons, bind_ne_other_iff, InTurn, hreadable.1, ih hreadable.2]
      simp only [haccepted, forall_const]

end Steps

/-! ## The key above -/

/-- The key a binding carries. -/
def publicKeyOf (binding : PyValue) : Result Bytes := do
  unb64u (← index binding "public_key")

section Signatures

variable (primitives : Primitives)

/-- The signer's id and signature, over the document without the signature. -/
structure SignedBy (signerPub : Bytes) (binding : PyValue) : Prop where
  keyLength : signerPub.length = 32
  signerKeyId : binding.member "signer_key_id" = some (strValue (keyId signerPub))
  signature : ∃ signature raw message, binding.member "signature" = some signature ∧
    unb64u signature = .ok raw ∧
    jcsWithin primitives.stackFull (binding.erase "signature") = .ok message ∧
    primitives.ed25519Verify signerPub raw (bindingDomain ++ message) = true

/-- A binding is a dict.  Where it names its signer it has a signature, the signer's key has the
length of a key, and if the signature can be decoded then the body can be written or holds what
`jcs` refuses. -/
structure BindingReadable (signerPub : Bytes) (binding : PyValue) : Prop where
  isDict : binding.isDict = true
  signature : binding.member "signer_key_id" = some (strValue (keyId signerPub)) →
    binding.hasKey "signature" = true ∧ signerPub.length = 32
  body : binding.member "signer_key_id" = some (strValue (keyId signerPub)) →
    (∃ raw, unb64u (binding.field "signature") = .ok raw) →
    jcsWithin primitives.stackFull (binding.erase "signature") ≠ .error .other

variable {primitives} {signerPub : Bytes} {binding : PyValue} {u : Unit}

/-- Erasing the signature hides nothing of the signer's identifier. -/
theorem namesSigner_iff :
    pyEq ((binding.erase "signature").field "signer_key_id") (strValue (keyId signerPub)) = true ↔
      binding.member "signer_key_id" = some (strValue (keyId signerPub)) := by
  rw [PyValue.field_erase_of_ne (by decide), member_eq_str_iff]
  exact pyEq_str_right

theorem isDict_of_member {v w : PyValue} {name : String} (hmember : v.member name = some w) :
    v.isDict = true := by
  cases v with
  | dict members => rfl
  | leaf x => cases hmember
  | list items => cases hmember

/-- A body passes under a key of 32 bytes whose signature over the canonical bytes holds. -/
theorem verifyBody_eq_ok_iff {publicKey : Bytes} {body signature : PyValue} :
    verifyBody primitives publicKey body signature = .ok u ↔
      publicKey.length = 32 ∧ ∃ raw message, unb64u signature = .ok raw ∧
        jcsWithin primitives.stackFull body = .ok message ∧
        primitives.ed25519Verify publicKey raw (bindingDomain ++ message) = true := by
  rw [verifyBody]
  by_cases hlength : publicKey.length = 32
  · simp only [hlength, ne_eq, not_true_eq_false, if_false, bind_eq_ok_iff, require_eq_ok_iff,
      true_and]
    constructor
    · rintro ⟨raw, hraw, message, hmessage, hverify⟩
      exact ⟨raw, message, hraw, hmessage, hverify⟩
    · rintro ⟨raw, message, hraw, hmessage, hverify⟩
      exact ⟨raw, hraw, message, hmessage, hverify⟩
  · simp [hlength]

/-- The canonical bytes are only computed once the signature has been decoded. -/
theorem verifyBody_ne_other_iff {publicKey : Bytes} {body signature : PyValue} :
    verifyBody primitives publicKey body signature ≠ .error .other ↔
      publicKey.length = 32 ∧ ((∃ raw, unb64u signature = .ok raw) →
        jcsWithin primitives.stackFull body ≠ .error .other) := by
  rw [verifyBody]
  by_cases hlength : publicKey.length = 32
  · rw [if_neg (not_not.mpr hlength), bind_ne_other_iff, and_iff_right (unb64u_ne_other _),
      and_iff_right hlength, forall_exists_index]
    refine forall₂_congr fun raw _ => ?_
    rw [bind_ne_other_iff]
    exact and_iff_left fun _ _ => require_ne_other _ _
  · simp [hlength]

/-- What `verify_binding` accepts. -/
theorem verifyBinding_eq_ok_iff :
    verifyBinding primitives signerPub binding = .ok u ↔
      SignedBy primitives signerPub binding := by
  rw [verifyBinding]
  split_ifs with hdict
  · have hnone : ¬ SignedBy primitives signerPub binding := fun hsigned => by
      simp [isDict_of_member hsigned.signerKeyId] at hdict
    simp [hnone]
  · simp only [bind_eq_ok_iff, require_eq_ok_iff, namesSigner_iff, index_eq_ok_iff,
      verifyBody_eq_ok_iff, exists_and_left, exists_const]
    constructor
    · rintro ⟨hsigner, signature, hsignature, hlength, raw, hraw, message, hmessage, hverify⟩
      exact ⟨hlength, hsigner, signature, raw, message, hsignature, hraw, hmessage, hverify⟩
    · rintro ⟨hlength, hsigner, signature, raw, message, hsignature, hraw, hmessage, hverify⟩
      exact ⟨hsigner, signature, hsignature, hlength, raw, hraw, message, hmessage, hverify⟩

/-- What `verify_binding` can read. -/
theorem verifyBinding_ne_other_iff :
    verifyBinding primitives signerPub binding ≠ .error .other ↔
      BindingReadable primitives signerPub binding := by
  rw [verifyBinding]
  split_ifs with hdict
  · have hnone : ¬ BindingReadable primitives signerPub binding := fun hreadable => by
      simp [hreadable.isDict] at hdict
    simp [hnone]
  · simp only [bind_ne_other_iff, require_ne_other, require_eq_ok_iff, namesSigner_iff,
      index_ne_other_iff, index_eq_ok_iff, verifyBody_ne_other_iff, ne_eq, not_false_eq_true,
      true_and]
    constructor
    · intro h
      refine ⟨by simpa using hdict, fun hsigner => ?_, fun hsigner hraw => ?_⟩
      · obtain ⟨hkey, hrest⟩ := h () hsigner
        exact ⟨hkey, (hrest _ (member_eq_some_iff.mpr ⟨hkey, rfl⟩)).1⟩
      · obtain ⟨hkey, hrest⟩ := h () hsigner
        exact (hrest _ (member_eq_some_iff.mpr ⟨hkey, rfl⟩)).2 hraw
    · rintro ⟨-, hsignature, hbody⟩ _ hsigner
      refine ⟨(hsignature hsigner).1, fun signature hmember => ⟨(hsignature hsigner).2, ?_⟩⟩
      rw [← (member_eq_some_iff.mp hmember).2]
      exact hbody hsigner

end Signatures

/-! ## The parts of a verification -/

/-- The project's binding and the member's, with their purposes. -/
def Chain.delegates (chain : Chain) : List (PyValue × String) :=
  [(chain.projectBinding, "project_key"), (chain.memberBinding, "member_key")]

/-- The key ids a binding list revokes. -/
def revokedKeyIds (bindingList : PyValue) : Option (List PyValue) :=
  (bindingList.member "revoked_key_ids").bind elements

/-- The sequence of a binding list is below a bound. -/
def sequenceBelow (bindingList : PyValue) (bound : ℤ) : Option Bool :=
  (bindingList.member "sequence").bind (isBelow · bound)

/-- An id is among those revoked. -/
def Revokes (ids : List PyValue) (id : PyValue) : Prop :=
  ∃ revoked ∈ ids, pyEq revoked id = true

section Parts

variable (primitives : Primitives)

def checkRoot (chain : Chain) : Result Unit := do
  let pinned ← compareDigest (rootFingerprint chain.rootPub) chain.pinnedRootFingerprint
  require pinned "root key does not match pinned fingerprint"

def checkAdmin (chain : Chain) : Result Bytes := do
  verifyBinding primitives chain.rootPub chain.adminBinding
  requireField chain.adminBinding "purpose" (.str "admin_identity")
    "wrong purpose for admin binding"
  publicKeyOf chain.adminBinding

def checkDelegate (adminPub : Bytes) (row : PyValue × String) : Result Unit := do
  verifyBinding primitives adminPub row.1
  requireField row.1 "purpose" (.str row.2) s!"wrong purpose, expected {row.2}"

def checkEpochs (chain : Chain) : Result Unit := do
  let memberEpoch ← index chain.memberBinding "epoch"
  let projectEpoch ← index chain.projectBinding "epoch"
  require (pyEq memberEpoch projectEpoch) "epoch mismatch"

def checkScope (chain : Chain) : Result Unit := do
  forM chain.bindings fun binding =>
    requireField binding "tenant_ref" (strValue chain.tenantRef) "tenant mismatch"
  forM [chain.projectBinding, chain.memberBinding] fun binding =>
    requireField binding "project_ref" (strValue chain.projectRef) "project mismatch"
  checkEpochs chain

def checkActivity (chain : Chain) (revoked : List PyValue) : Result Unit := do
  let current ← parseTs primitives (strValue chain.now)
  forM chain.bindings (checkActive primitives revoked current)

/-- The signer's id is only looked up where the key's is not revoked. -/
def signerRevoked (revoked : List PyValue) (binding : PyValue) (keyRevoked : Bool) : Result Bool :=
  if keyRevoked then .ok true
  else do isIn (← index binding "signer_key_id") revoked

/-- The checks of one binding, one after the other. -/
theorem checkActive_eq (revoked : List PyValue) (current : ℤ) (binding : PyValue) :
    checkActive primitives revoked current binding = (do
      let keyRevoked ← isIn (← index binding "key_id") revoked
      let anyRevoked ← signerRevoked revoked binding keyRevoked
      require (!anyRevoked) "revoked key in chain"
      let notBefore ← parseTs primitives (← index binding "not_before")
      require (decide (notBefore ≤ current)) "binding not yet active") := by
  unfold checkActive signerRevoked
  refine bind_congr fun id => bind_congr fun keyRevoked => ?_
  cases keyRevoked <;> simp

/-- The verification part by part. -/
theorem verifyChain_eq (chain : Chain) : verifyChain primitives chain = (do
    checkRoot chain
    let revoked ← verifyBindingList primitives chain.rootPub chain.bindingList chain.tenantRef
      chain.retainedSequence
    let adminPub ← checkAdmin primitives chain
    forM chain.delegates (checkDelegate primitives adminPub)
    checkScope chain
    checkActivity primitives chain revoked) := by
  simp only [verifyChain, checkRoot, checkAdmin, publicKeyOf, checkScope, checkEpochs,
    checkActivity, bind_assoc]
  rfl

end Parts

/-! ## What is accepted -/

section Accepted

variable (primitives : Primitives)

/-- The root key is the pinned one. -/
def RootPinned (chain : Chain) : Prop :=
  rootFingerprint chain.rootPub = chain.pinnedRootFingerprint

/-- The list is the root's, of the tenant and not rolled back, and revokes some ids. -/
structure ListGenuine (chain : Chain) (ids : List PyValue) : Prop where
  signed : SignedBy primitives chain.rootPub chain.bindingList
  tenant : chain.bindingList.member "tenant_ref" = some (strValue chain.tenantRef)
  sequence : sequenceBelow chain.bindingList chain.retainedSequence = some false
  revoked : revokedKeyIds chain.bindingList = some ids

/-- The root has signed an admin's key. -/
structure AdminGenuine (chain : Chain) (adminPub : Bytes) : Prop where
  signed : SignedBy primitives chain.rootPub chain.adminBinding
  purpose : chain.adminBinding.member "purpose" = some (.str "admin_identity")
  key : publicKeyOf chain.adminBinding = .ok adminPub

/-- The admin has signed a binding for a purpose. -/
structure DelegateGenuine (adminPub : Bytes) (row : PyValue × String) : Prop where
  signed : SignedBy primitives adminPub row.1
  purpose : row.1.member "purpose" = some (.str row.2)

/-- The bindings are about the tenant, the project and one epoch.  The admin's is for the whole
tenant. -/
structure ScopeHolds (chain : Chain) : Prop where
  tenant : ∀ binding ∈ chain.bindings,
    binding.member "tenant_ref" = some (strValue chain.tenantRef)
  project : ∀ binding ∈ [chain.projectBinding, chain.memberBinding],
    binding.member "project_ref" = some (strValue chain.projectRef)
  epochs : ∃ memberEpoch projectEpoch, chain.memberBinding.member "epoch" = some memberEpoch ∧
    chain.projectBinding.member "epoch" = some projectEpoch ∧
    pyEq memberEpoch projectEpoch = true

/-- Neither the declared id nor the signer's is revoked, and the binding is active. -/
structure Active (ids : List PyValue) (current : ℤ) (binding : PyValue) : Prop where
  keyId : ∃ id, binding.member "key_id" = some id ∧ hashable id = true ∧ ¬ Revokes ids id
  signerKeyId : ∃ id, binding.member "signer_key_id" = some id ∧ hashable id = true ∧
    ¬ Revokes ids id
  notBefore : ∃ notBefore start, binding.member "not_before" = some notBefore ∧
    parseTs primitives notBefore = .ok start ∧ start ≤ current

/-- Everything up to the scope of the bindings is in order. -/
structure Signed (chain : Chain) (ids : List PyValue) : Prop where
  root : RootPinned chain
  list : ListGenuine primitives chain ids
  delegates : ∃ adminPub, AdminGenuine primitives chain adminPub ∧
    ∀ row ∈ chain.delegates, DelegateGenuine primitives adminPub row

/-- A chain that is in order by what its documents declare. -/
def Genuine (chain : Chain) : Prop :=
  ∃ ids current, Signed primitives chain ids ∧ ScopeHolds chain ∧
    parseTs primitives (strValue chain.now) = .ok current ∧
    ∀ binding ∈ chain.bindings, Active primitives ids current binding

variable {primitives} {chain : Chain} {ids : List PyValue} {adminPub : Bytes} {u : Unit}

/-- A fingerprint that matches is hexadecimal. -/
theorem RootPinned.isAscii (hpinned : RootPinned chain) :
    isAscii chain.pinnedRootFingerprint = true := by
  rw [← hpinned, rootFingerprint, LabelsReference.isAscii, List.all_eq_true]
  intro c hc
  refine decide_eq_true ?_
  rcases Hashing.hexDigits_hex _ c hc with ⟨-, hdigit⟩ | ⟨-, hletter⟩ <;> omega

/-- The root passes exactly when its fingerprint is the pinned one. -/
theorem checkRoot_eq_ok_iff : checkRoot chain = .ok u ↔ RootPinned chain := by
  rw [checkRoot, compareDigest]
  split_ifs with hascii
  · simp [require_eq_ok_iff, RootPinned]
  · have hnot : ¬ RootPinned chain := fun hpinned => hascii hpinned.isAscii
    simp [hnot]

theorem requireAtLeast_eq_ok_iff {v : PyValue} {bound : ℤ} {message : String} :
    requireAtLeast v bound message = .ok u ↔ isBelow v bound = some false := by
  rw [requireAtLeast]
  cases isBelow v bound with
  | none => simp
  | some below => simp [require_eq_ok_iff]

/-- The set of a list exists when each item is hashable. -/
theorem setOf_eq_ok_iff {v : PyValue} : setOf v = .ok ids ↔ elements v = some ids := by
  rw [setOf]
  cases elements v <;> simp

/-- The list of bindings passes exactly when it is genuine, and its revoked identifiers are
returned. -/
theorem verifyBindingList_eq_ok_iff :
    verifyBindingList primitives chain.rootPub chain.bindingList chain.tenantRef
        chain.retainedSequence = .ok ids ↔ ListGenuine primitives chain ids := by
  simp only [verifyBindingList, bind_eq_ok_iff, verifyBinding_eq_ok_iff, requireField_eq_ok_iff,
    index_eq_ok_iff, requireAtLeast_eq_ok_iff, setOf_eq_ok_iff, exists_const]
  constructor
  · rintro ⟨hsigned, htenant, sequence, hsequence, hbelow, revoked, hrevoked, hids⟩
    refine ⟨hsigned, htenant, ?_, ?_⟩
    · rw [sequenceBelow, hsequence, Option.bind_some, hbelow]
    · rw [revokedKeyIds, hrevoked, Option.bind_some, hids]
  · rintro ⟨hsigned, htenant, hsequence, hrevoked⟩
    obtain ⟨sequence, hmember, hbelow⟩ := Option.bind_eq_some_iff.mp hsequence
    obtain ⟨revoked, hlisted, hids⟩ := Option.bind_eq_some_iff.mp hrevoked
    exact ⟨hsigned, htenant, sequence, hmember, hbelow, revoked, hlisted, hids⟩

/-- The binding of the admin passes exactly when the root has signed it. -/
theorem checkAdmin_eq_ok_iff :
    checkAdmin primitives chain = .ok adminPub ↔ AdminGenuine primitives chain adminPub := by
  simp only [checkAdmin, PyValue.str, bind_eq_ok_iff, verifyBinding_eq_ok_iff, exists_const]
  constructor
  · rintro ⟨hsigned, _, hpurpose, hkey⟩
    exact ⟨hsigned, requireField_eq_ok_iff.mp hpurpose, hkey⟩
  · rintro ⟨hsigned, hpurpose, hkey⟩
    exact ⟨hsigned, (), requireField_eq_ok_iff.mpr hpurpose, hkey⟩

/-- A delegated binding passes exactly when the admin has signed it. -/
theorem checkDelegate_eq_ok_iff {row : PyValue × String} :
    checkDelegate primitives adminPub row = .ok u ↔ DelegateGenuine primitives adminPub row := by
  simp only [checkDelegate, PyValue.str, bind_eq_ok_iff, verifyBinding_eq_ok_iff, exists_const]
  constructor
  · intro hchecked
    exact ⟨hchecked.1, requireField_eq_ok_iff.mp hchecked.2⟩
  · intro hgenuine
    exact ⟨hgenuine.signed, requireField_eq_ok_iff.mpr hgenuine.purpose⟩

/-- Both epochs have to be stated, and to be equal. -/
theorem checkEpochs_eq_ok_iff : checkEpochs chain = .ok u ↔
    ∃ memberEpoch projectEpoch, chain.memberBinding.member "epoch" = some memberEpoch ∧
      chain.projectBinding.member "epoch" = some projectEpoch ∧
      pyEq memberEpoch projectEpoch = true := by
  simp only [checkEpochs, bind_eq_ok_iff, index_eq_ok_iff, require_eq_ok_iff,
    exists_and_left]

/-- The scope passes exactly when all bindings lie within it. -/
theorem checkScope_eq_ok_iff : checkScope chain = .ok u ↔ ScopeHolds chain := by
  simp only [checkScope, bind_eq_ok_iff, forM_eq_ok_iff, requireField_eq_ok_iff,
    checkEpochs_eq_ok_iff, exists_const]
  constructor
  · intro hchecked
    exact ⟨hchecked.1, hchecked.2.1, hchecked.2.2⟩
  · intro hholds
    exact ⟨hholds.tenant, hholds.project, hholds.epochs⟩

theorem isIn_eq_ok_iff {id : PyValue} {found : Bool} : isIn id ids = .ok found ↔
    hashable id = true ∧ (found = true ↔ Revokes ids id) := by
  rw [isIn, Revokes]
  split_ifs with hhashable
  · rw [Except.ok.injEq, and_iff_right hhashable, ← List.any_eq_true]
    cases found <;> simp
  · simp [hhashable]

/-- A binding passes exactly when it is in force and none of its identifiers is revoked. -/
theorem checkActive_eq_ok_iff {current : ℤ} {binding : PyValue} :
    checkActive primitives ids current binding = .ok u ↔
      Active primitives ids current binding := by
  simp only [checkActive_eq, bind_eq_ok_iff, index_eq_ok_iff, isIn_eq_ok_iff, require_eq_ok_iff]
  constructor
  · rintro ⟨id, hid, keyRevoked, ⟨hhashable, hrevoked⟩, anyRevoked, hany, _, hclear, notBefore,
      hnotBefore, start, hstart, hactive⟩
    obtain rfl : anyRevoked = false := by simpa using hclear
    cases keyRevoked with
    | true => simp [signerRevoked] at hany
    | false =>
        simp only [signerRevoked, Bool.false_eq_true, if_false, bind_eq_ok_iff, index_eq_ok_iff,
          isIn_eq_ok_iff] at hany
        obtain ⟨signer, hsigner, hhashable', hrevoked'⟩ := hany
        exact ⟨⟨id, hid, hhashable, by simpa using hrevoked⟩,
          ⟨signer, hsigner, hhashable', by simpa using hrevoked'⟩,
          notBefore, start, hnotBefore, hstart, of_decide_eq_true hactive⟩
  · rintro ⟨⟨id, hid, hhashable, hclear⟩, ⟨signer, hsigner, hhashable', hclear'⟩, notBefore, start,
      hnotBefore, hstart, hactive⟩
    refine ⟨id, hid, false, ⟨hhashable, by simpa using hclear⟩, false, ?_, (), rfl, notBefore,
      hnotBefore, start, hstart, decide_eq_true hactive⟩
    simp only [signerRevoked, Bool.false_eq_true, if_false, bind_eq_ok_iff, index_eq_ok_iff,
      isIn_eq_ok_iff]
    exact ⟨signer, hsigner, hhashable', by simpa using hclear'⟩

/-- One time decides on all bindings. -/
theorem checkActivity_eq_ok_iff : checkActivity primitives chain ids = .ok u ↔
    ∃ current, parseTs primitives (strValue chain.now) = .ok current ∧
      ∀ binding ∈ chain.bindings, Active primitives ids current binding := by
  simp only [checkActivity, bind_eq_ok_iff, forM_eq_ok_iff, checkActive_eq_ok_iff]

/-- A chain is accepted exactly when it is in order by what its documents declare. -/
theorem verifyChain_eq_ok_iff : verifyChain primitives chain = .ok u ↔
    Genuine primitives chain := by
  simp only [verifyChain_eq, bind_eq_ok_iff, checkRoot_eq_ok_iff, verifyBindingList_eq_ok_iff,
    checkAdmin_eq_ok_iff, forM_eq_ok_iff, checkDelegate_eq_ok_iff, checkScope_eq_ok_iff,
    checkActivity_eq_ok_iff, exists_const]
  constructor
  · rintro ⟨hroot, ids, hlist, adminPub, hadmin, hdelegates, hscope, current, hcurrent,
      hactive⟩
    exact ⟨ids, current, ⟨hroot, hlist, adminPub, hadmin, hdelegates⟩, hscope, hcurrent, hactive⟩
  · rintro ⟨ids, current, ⟨hroot, hlist, adminPub, hadmin, hdelegates⟩, hscope, hcurrent,
      hactive⟩
    exact ⟨hroot, ids, hlist, adminPub, hadmin, hdelegates, hscope, current, hcurrent, hactive⟩

end Accepted

/-! ## What can be read -/

section Readable

variable (primitives : Primitives)

/-- What is read of the binding list. -/
structure ListReadable (chain : Chain) : Prop where
  binding : BindingReadable primitives chain.rootPub chain.bindingList
  tenant : SignedBy primitives chain.rootPub chain.bindingList →
    chain.bindingList.hasKey "tenant_ref" = true
  sequence : SignedBy primitives chain.rootPub chain.bindingList →
    chain.bindingList.member "tenant_ref" = some (strValue chain.tenantRef) →
    (sequenceBelow chain.bindingList chain.retainedSequence).isSome = true
  revoked : SignedBy primitives chain.rootPub chain.bindingList →
    chain.bindingList.member "tenant_ref" = some (strValue chain.tenantRef) →
    sequenceBelow chain.bindingList chain.retainedSequence = some false →
    (revokedKeyIds chain.bindingList).isSome = true

/-- What is read of the admin's binding. -/
structure AdminReadable (chain : Chain) : Prop where
  binding : BindingReadable primitives chain.rootPub chain.adminBinding
  purpose : SignedBy primitives chain.rootPub chain.adminBinding →
    chain.adminBinding.hasKey "purpose" = true
  key : SignedBy primitives chain.rootPub chain.adminBinding →
    chain.adminBinding.member "purpose" = some (.str "admin_identity") →
    chain.adminBinding.hasKey "public_key" = true

/-- What is read of a binding that the admin has signed. -/
structure DelegateReadable (adminPub : Bytes) (row : PyValue × String) : Prop where
  binding : BindingReadable primitives adminPub row.1
  purpose : SignedBy primitives adminPub row.1 → row.1.hasKey "purpose" = true

/-- What is read of the scope of the bindings. -/
structure ScopeReadable (chain : Chain) : Prop where
  tenant : InTurn (fun binding => binding.hasKey "tenant_ref" = true)
    (fun binding => binding.member "tenant_ref" = some (strValue chain.tenantRef)) chain.bindings
  project : (∀ binding ∈ chain.bindings,
      binding.member "tenant_ref" = some (strValue chain.tenantRef)) →
    InTurn (fun binding => binding.hasKey "project_ref" = true)
      (fun binding => binding.member "project_ref" = some (strValue chain.projectRef))
      [chain.projectBinding, chain.memberBinding]
  epochs : (∀ binding ∈ chain.bindings,
      binding.member "tenant_ref" = some (strValue chain.tenantRef)) →
    (∀ binding ∈ [chain.projectBinding, chain.memberBinding],
      binding.member "project_ref" = some (strValue chain.projectRef)) →
    chain.memberBinding.hasKey "epoch" = true ∧ chain.projectBinding.hasKey "epoch" = true

/-- What is read of a signed binding to tell whether it is active. -/
structure ActivityReadable (ids : List PyValue) (binding : PyValue) : Prop where
  keyId : binding.hasKey "key_id" = true ∧ hashable (binding.field "key_id") = true
  notBefore : ¬ Revokes ids (binding.field "key_id") →
    ¬ Revokes ids (binding.field "signer_key_id") → binding.hasKey "not_before" = true

/-- What is read of a chain, each part only where those before it are in order. -/
structure Readable (chain : Chain) : Prop where
  root : isAscii chain.pinnedRootFingerprint = true
  list : RootPinned chain → ListReadable primitives chain
  admin : RootPinned chain → ∀ ids, ListGenuine primitives chain ids →
    AdminReadable primitives chain
  delegates : RootPinned chain → ∀ ids, ListGenuine primitives chain ids →
    ∀ adminPub, AdminGenuine primitives chain adminPub →
      InTurn (DelegateReadable primitives adminPub) (DelegateGenuine primitives adminPub)
        chain.delegates
  scope : ∀ ids, Signed primitives chain ids → ScopeReadable chain
  activity : ∀ ids, Signed primitives chain ids → ScopeHolds chain →
    ∀ current, parseTs primitives (strValue chain.now) = .ok current →
      InTurn (ActivityReadable ids) (Active primitives ids current) chain.bindings

variable {primitives} {chain : Chain} {ids : List PyValue} {adminPub : Bytes}

/-- The comparison of fingerprints raises on a text outside of ASCII only. -/
theorem checkRoot_ne_other_iff :
    checkRoot chain ≠ .error .other ↔ isAscii chain.pinnedRootFingerprint = true := by
  rw [checkRoot, compareDigest]
  split_ifs with hascii
  · simpa [hascii] using require_ne_other _ _
  · simp [hascii]

/-- Only numbers can be compared. -/
theorem requireAtLeast_ne_other_iff {v : PyValue} {bound : ℤ} {message : String} :
    requireAtLeast v bound message ≠ .error .other ↔ (isBelow v bound).isSome = true := by
  rw [requireAtLeast]
  cases isBelow v bound with
  | none => simp
  | some below => simpa using require_ne_other _ _

theorem setOf_ne_other_iff {v : PyValue} :
    setOf v ≠ .error .other ↔ (elements v).isSome = true := by
  rw [setOf]
  cases elements v <;> simp

theorem parseTs_ne_other (v : PyValue) : parseTs primitives v ≠ .error .other := by
  unfold parseTs
  split
  · dsimp only
    split <;> simp
  · simp

/-- What is there is looked at. -/
theorem forall_member_iff {v : PyValue} {name : String} {P : PyValue → Prop} :
    (v.hasKey name = true ∧ ∀ w, v.member name = some w → P w) ↔
      ∃ w, v.member name = some w ∧ P w := by
  rw [PyValue.hasKey]
  cases v.member name <;> simp

/-- Nothing else escapes from the list exactly when it can be read. -/
theorem verifyBindingList_ne_other_iff :
    verifyBindingList primitives chain.rootPub chain.bindingList chain.tenantRef
        chain.retainedSequence ≠ .error .other ↔ ListReadable primitives chain := by
  have hsequence : (sequenceBelow chain.bindingList chain.retainedSequence).isSome = true ↔
      ∃ sequence, chain.bindingList.member "sequence" = some sequence ∧
        (isBelow sequence chain.retainedSequence).isSome = true := by
    rw [sequenceBelow]
    cases chain.bindingList.member "sequence" <;> simp
  have hrevoked : (revokedKeyIds chain.bindingList).isSome = true ↔
      ∃ revoked, chain.bindingList.member "revoked_key_ids" = some revoked ∧
        (elements revoked).isSome = true := by
    rw [revokedKeyIds]
    cases chain.bindingList.member "revoked_key_ids" <;> simp
  simp only [verifyBindingList, bind_ne_other_iff, verifyBinding_ne_other_iff,
    verifyBinding_eq_ok_iff, requireField_ne_other_iff, requireField_eq_ok_iff,
    index_ne_other_iff, index_eq_ok_iff, requireAtLeast_ne_other_iff, requireAtLeast_eq_ok_iff,
    setOf_ne_other_iff, forall_const, forall_member_iff]
  constructor
  · rintro ⟨hbinding, hrest⟩
    refine ⟨hbinding, fun hsigned => (hrest hsigned).1, fun hsigned htenant => ?_,
      fun hsigned htenant hbelow => ?_⟩
    · obtain ⟨sequence, hmember, hread, -⟩ := (hrest hsigned).2 htenant
      exact hsequence.mpr ⟨sequence, hmember, hread⟩
    · obtain ⟨sequence, hmember, -, hlater⟩ := (hrest hsigned).2 htenant
      rw [sequenceBelow, hmember, Option.bind_some] at hbelow
      exact hrevoked.mpr (hlater hbelow)
  · rintro ⟨hbinding, htenantRead, hsequenceRead, hrevokedRead⟩
    refine ⟨hbinding, fun hsigned => ⟨htenantRead hsigned, fun htenant => ?_⟩⟩
    obtain ⟨sequence, hmember, hread⟩ := hsequence.mp (hsequenceRead hsigned htenant)
    refine ⟨sequence, hmember, hread, fun hbelow => hrevoked.mp ?_⟩
    apply hrevokedRead hsigned htenant
    rw [sequenceBelow, hmember, Option.bind_some, hbelow]

theorem publicKeyOf_ne_other_iff {binding : PyValue} :
    publicKeyOf binding ≠ .error .other ↔ binding.hasKey "public_key" = true := by
  rw [publicKeyOf, bind_ne_other_iff, index_ne_other_iff]
  exact and_iff_left fun _ _ => unb64u_ne_other _

/-- Nothing else escapes from the admin's binding exactly when it can be read. -/
theorem checkAdmin_ne_other_iff :
    checkAdmin primitives chain ≠ .error .other ↔ AdminReadable primitives chain := by
  simp only [checkAdmin, PyValue.str, bind_ne_other_iff, verifyBinding_ne_other_iff,
    verifyBinding_eq_ok_iff, requireField_ne_other_iff, publicKeyOf_ne_other_iff, forall_const]
  constructor
  · rintro ⟨hbinding, hrest⟩
    refine ⟨hbinding, fun hsigned => (hrest hsigned).1, fun hsigned hpurpose => ?_⟩
    exact (hrest hsigned).2 () (requireField_eq_ok_iff.mpr hpurpose)
  · rintro ⟨hbinding, hpurpose, hkey⟩
    exact ⟨hbinding, fun hsigned => ⟨hpurpose hsigned, fun _ haccepted =>
      hkey hsigned (requireField_eq_ok_iff.mp haccepted)⟩⟩

/-- Nothing else escapes from a delegated binding exactly when it can be read. -/
theorem checkDelegate_ne_other_iff {row : PyValue × String} :
    checkDelegate primitives adminPub row ≠ .error .other ↔
      DelegateReadable primitives adminPub row := by
  simp only [checkDelegate, bind_ne_other_iff, verifyBinding_ne_other_iff,
    verifyBinding_eq_ok_iff, requireField_ne_other_iff, forall_const]
  constructor
  · intro hchecked
    exact ⟨hchecked.1, hchecked.2⟩
  · intro hreadable
    exact ⟨hreadable.binding, hreadable.purpose⟩

theorem checkEpochs_ne_other_iff : checkEpochs chain ≠ .error .other ↔
    chain.memberBinding.hasKey "epoch" = true ∧ chain.projectBinding.hasKey "epoch" = true := by
  simp only [checkEpochs, bind_ne_other_iff, index_ne_other_iff, index_eq_ok_iff,
    require_ne_other, ne_eq, not_false_eq_true, implies_true, and_true]
  refine and_congr_right fun hkey => ⟨fun h => ?_, fun h _ _ => h⟩
  exact h _ (member_eq_some_iff.mpr ⟨hkey, rfl⟩)

/-- Nothing else escapes from the scope exactly when it can be read. -/
theorem checkScope_ne_other_iff : checkScope chain ≠ .error .other ↔ ScopeReadable chain := by
  have hfields : ∀ (rows : List PyValue) (name message : String) (expected : Text),
      (forM rows fun binding => requireField binding name (strValue expected) message) ≠
          .error .other ↔
        InTurn (fun binding => binding.hasKey name = true)
          (fun binding => binding.member name = some (strValue expected)) rows :=
    fun _ _ _ _ => forM_ne_other_iff (fun _ _ => requireField_ne_other_iff)
      fun _ _ => requireField_eq_ok_iff
  simp only [checkScope, bind_ne_other_iff, hfields, forM_eq_ok_iff, requireField_eq_ok_iff,
    checkEpochs_ne_other_iff, forall_const]
  constructor
  · rintro ⟨htenant, hrest⟩
    exact ⟨htenant, fun hbindings => (hrest hbindings).1,
      fun hbindings => (hrest hbindings).2⟩
  · rintro ⟨htenant, hproject, hepochs⟩
    exact ⟨htenant, fun hbindings => ⟨hproject hbindings, hepochs hbindings⟩⟩

theorem isIn_ne_other_iff {id : PyValue} :
    isIn id ids ≠ .error .other ↔ hashable id = true := by
  rw [isIn]
  split_ifs with hhashable <;> simp [hhashable]

/-- A named signer counts as revoked when a revoked identifier equals it. -/
theorem signerRevoked_eq {binding : PyValue} {signer : Text}
    (hsigner : binding.member "signer_key_id" = some (strValue signer)) (keyRevoked : Bool) :
    signerRevoked ids binding keyRevoked =
      .ok (keyRevoked || ids.any fun revoked => pyEq revoked (strValue signer)) := by
  cases keyRevoked with
  | true => rfl
  | false =>
      rw [signerRevoked, if_neg Bool.false_ne_true, index_eq_ok_iff.mpr hsigner, ok_bind, isIn,
        if_pos (show hashable (strValue signer) = true from rfl), Bool.false_or]

/-- The signer's id of a signed binding is there, and is a string. -/
theorem checkActive_ne_other_iff {current : ℤ} {binding : PyValue} {signer : Text}
    (hsigner : binding.member "signer_key_id" = some (strValue signer)) :
    checkActive primitives ids current binding ≠ .error .other ↔
      ActivityReadable ids binding := by
  have hfield := (member_eq_some_iff.mp hsigner).2
  simp only [checkActive_eq, bind_ne_other_iff, index_ne_other_iff, index_eq_ok_iff,
    isIn_ne_other_iff, isIn_eq_ok_iff, signerRevoked_eq hsigner, require_ne_other,
    require_eq_ok_iff, parseTs_ne_other, Except.ok.injEq, ne_eq, reduceCtorEq, not_false_eq_true,
    true_and, forall_eq', implies_true, and_true, Bool.not_eq_true', Bool.or_eq_false_iff,
    forall_const, and_imp]
  have hnone : (ids.any fun revoked => pyEq revoked (strValue signer)) = false ↔
      ¬ Revokes ids (binding.field "signer_key_id") := by
    rw [hfield, Revokes, ← List.any_eq_true, Bool.not_eq_true]
  constructor
  · rintro ⟨hkey, hrest⟩
    obtain ⟨hhashable, hlater⟩ := hrest _ (member_eq_some_iff.mpr ⟨hkey, rfl⟩)
    refine ⟨⟨hkey, hhashable⟩, fun hclear hsignerClear => ?_⟩
    exact hlater false hhashable (by simpa using hclear) rfl (hnone.mpr hsignerClear)
  · rintro ⟨⟨hkey, hhashable⟩, hnotBefore⟩
    refine ⟨hkey, fun id hid => ?_⟩
    rw [← (member_eq_some_iff.mp hid).2]
    refine ⟨hhashable, fun found _ hfound hclear hsignerClear => ?_⟩
    exact hnotBefore (by simpa [hclear] using hfound) (hnone.mp hsignerClear)

/-- Once the signatures hold, nothing else escapes exactly when each binding can be read in turn.
-/
theorem checkActivity_ne_other_iff (hsigned : Signed primitives chain ids) :
    checkActivity primitives chain ids ≠ .error .other ↔
      ∀ current, parseTs primitives (strValue chain.now) = .ok current →
        InTurn (ActivityReadable ids) (Active primitives ids current) chain.bindings := by
  obtain ⟨-, -, adminPub, hadmin, hdelegates⟩ := hsigned
  have hsigner : ∀ binding ∈ chain.bindings,
      ∃ signer, binding.member "signer_key_id" = some (strValue signer) := by
    simp only [Chain.bindings, Chain.delegates, List.forall_mem_cons,
      List.not_mem_nil] at hdelegates ⊢
    exact ⟨⟨_, hadmin.signed.signerKeyId⟩, ⟨_, hdelegates.1.signed.signerKeyId⟩,
      ⟨_, hdelegates.2.1.signed.signerKeyId⟩, by simp⟩
  rw [checkActivity, bind_ne_other_iff, and_iff_right (parseTs_ne_other _)]
  refine forall₂_congr fun current _ => forM_ne_other_iff (fun binding hbinding => ?_)
    fun _ _ => checkActive_eq_ok_iff
  obtain ⟨signer, hmember⟩ := hsigner binding hbinding
  exact checkActive_ne_other_iff hmember

/-- Nothing of another class is raised exactly when what is reached can be read. -/
theorem verifyChain_ne_other_iff :
    verifyChain primitives chain ≠ .error .other ↔ Readable primitives chain := by
  simp only [verifyChain_eq, bind_ne_other_iff, checkRoot_ne_other_iff, checkRoot_eq_ok_iff,
    verifyBindingList_ne_other_iff, verifyBindingList_eq_ok_iff, checkAdmin_ne_other_iff,
    checkAdmin_eq_ok_iff, forM_ne_other_iff (fun _ _ => checkDelegate_ne_other_iff)
      (fun _ _ => checkDelegate_eq_ok_iff), forM_eq_ok_iff, checkDelegate_eq_ok_iff,
    checkScope_ne_other_iff, checkScope_eq_ok_iff, forall_const]
  constructor
  · rintro ⟨hroot, hrest⟩
    refine ⟨hroot, fun hpinned => (hrest hpinned).1, fun hpinned ids hlist =>
      ((hrest hpinned).2 ids hlist).1, fun hpinned ids hlist adminPub hadmin =>
      (((hrest hpinned).2 ids hlist).2 adminPub hadmin).1, fun ids hsigned => ?_,
      fun ids hsigned hscope => ?_⟩
    · obtain ⟨hpinned, hlist, adminPub, hadmin, hdelegates⟩ := hsigned
      exact ((((hrest hpinned).2 ids hlist).2 adminPub hadmin).2 hdelegates).1
    · rw [← checkActivity_ne_other_iff hsigned]
      obtain ⟨hpinned, hlist, adminPub, hadmin, hdelegates⟩ := hsigned
      exact ((((hrest hpinned).2 ids hlist).2 adminPub hadmin).2 hdelegates).2 hscope
  · rintro ⟨hroot, hlistRead, hadminRead, hdelegatesRead, hscopeRead, hactivityRead⟩
    refine ⟨hroot, fun hpinned => ⟨hlistRead hpinned, fun ids hlist =>
      ⟨hadminRead hpinned ids hlist, fun adminPub hadmin =>
        ⟨hdelegatesRead hpinned ids hlist adminPub hadmin, fun hdelegates => ?_⟩⟩⟩⟩
    have hsigned : Signed primitives chain ids := ⟨hpinned, hlist, adminPub, hadmin, hdelegates⟩
    exact ⟨hscopeRead ids hsigned, fun hscope =>
      (checkActivity_ne_other_iff hsigned).mpr (hactivityRead ids hsigned hscope)⟩

end Readable

/-! ## What a verified chain stands for -/

section Safety

variable (primitives : Primitives)

/-- The id a binding declares is that of the key it carries. -/
def DeclaresOwnKey (binding : PyValue) : Prop :=
  ∃ key, publicKeyOf binding = .ok key ∧
    binding.member "key_id" = some (strValue (keyId key))

/-- What a verified chain stands for.  The admin's binding is for the whole tenant, so
that the project and the epoch are those of the other two. -/
structure ChainHolds (chain : Chain) : Prop where
  pinned : rootFingerprint chain.rootPub = chain.pinnedRootFingerprint
  ownKeys : ∀ binding ∈ chain.bindings, DeclaresOwnKey binding
  notRevoked : ∃ ids, revokedKeyIds chain.bindingList = some ids ∧
    ∀ binding ∈ chain.bindings, ∀ key, publicKeyOf binding = .ok key →
      strValue (keyId key) ∉ ids
  listSigned : SignedBy primitives chain.rootPub chain.bindingList
  adminSigned : SignedBy primitives chain.rootPub chain.adminBinding
  signed : ∃ adminPub, publicKeyOf chain.adminBinding = .ok adminPub ∧
    SignedBy primitives adminPub chain.projectBinding ∧
    SignedBy primitives adminPub chain.memberBinding
  purposes : ∀ row ∈ (chain.adminBinding, "admin_identity") :: chain.delegates,
    row.1.member "purpose" = some (.str row.2)
  tenant : ∀ binding ∈ chain.bindingList :: chain.bindings,
    binding.member "tenant_ref" = some (strValue chain.tenantRef)
  project : ∀ binding ∈ [chain.projectBinding, chain.memberBinding],
    binding.member "project_ref" = some (strValue chain.projectRef)
  epochs : ∃ memberEpoch projectEpoch, chain.memberBinding.member "epoch" = some memberEpoch ∧
    chain.projectBinding.member "epoch" = some projectEpoch ∧
    pyEq memberEpoch projectEpoch = true
  sequence : sequenceBelow chain.bindingList chain.retainedSequence = some false
  active : ∃ current, parseTs primitives (strValue chain.now) = .ok current ∧
    ∀ binding ∈ chain.bindings, ∃ notBefore start,
      binding.member "not_before" = some notBefore ∧
      parseTs primitives notBefore = .ok start ∧ start ≤ current

/-- A normal return means that the chain holds, and any other outcome is the module's
own error. -/
def VerifiesSafely (chain : Chain) : Prop :=
  match verifyChain primitives chain with
  | .ok () => ChainHolds primitives chain
  | .error (.labelCrypto _) => True
  | .error .other => False

variable {primitives} {chain : Chain}

/-- To verify safely is to raise nothing else, and to accept no chain that does not hold. -/
theorem verifiesSafely_iff_outcomes : VerifiesSafely primitives chain ↔
    verifyChain primitives chain ≠ .error .other ∧
      (verifyChain primitives chain = .ok () → ChainHolds primitives chain) := by
  rw [VerifiesSafely]
  cases verifyChain primitives chain with
  | ok u => simp
  | error failure => cases failure <;> simp

/-- The key of a binding that declares its own id is revoked by that id or not at all. -/
theorem not_revoked_of_active {ids : List PyValue} {current : ℤ} {binding : PyValue} {key : Bytes}
    (hactive : Active primitives ids current binding) (hown : DeclaresOwnKey binding)
    (hkey : publicKeyOf binding = .ok key) : strValue (keyId key) ∉ ids := by
  obtain ⟨own, hownKey, hdeclared⟩ := hown
  obtain rfl : own = key := Except.ok.inj (hownKey.symm.trans hkey)
  obtain ⟨id, hid, -, hclear⟩ := hactive.keyId
  obtain rfl : strValue (keyId own) = id := Option.some.inj (hdeclared.symm.trans hid)
  exact fun hmem => hclear ⟨_, hmem, pyEq_str_right.mpr rfl⟩

/-- A genuine chain whose bindings declare their own keys holds. -/
theorem chainHolds_of_genuine (hgenuine : Genuine primitives chain)
    (hown : ∀ binding ∈ chain.bindings, DeclaresOwnKey binding) :
    ChainHolds primitives chain := by
  obtain ⟨ids, current, ⟨hroot, hlist, adminPub, hadmin, hdelegates⟩, hscope, hcurrent, hactive⟩ :=
    hgenuine
  exact {
    pinned := hroot
    ownKeys := hown
    notRevoked := ⟨ids, hlist.revoked, fun binding hbinding _ =>
      not_revoked_of_active (hactive binding hbinding) (hown binding hbinding)⟩
    listSigned := hlist.signed
    adminSigned := hadmin.signed
    signed := by
      simp only [Chain.delegates, List.forall_mem_cons] at hdelegates
      exact ⟨adminPub, hadmin.key, hdelegates.1.signed, hdelegates.2.1.signed⟩
    purposes := by
      rw [List.forall_mem_cons]
      exact ⟨hadmin.purpose, fun row hrow => (hdelegates row hrow).purpose⟩
    tenant := by
      rw [List.forall_mem_cons]
      exact ⟨hlist.tenant, hscope.tenant⟩
    project := hscope.project
    epochs := hscope.epochs
    sequence := hlist.sequence
    active := ⟨current, hcurrent, fun binding hbinding => (hactive binding hbinding).notBefore⟩ }

theorem not_verifiesSafely (hverify : verifyChain primitives chain = .ok ())
    (hholds : ¬ ChainHolds primitives chain) : ¬ VerifiesSafely primitives chain := by
  rw [VerifiesSafely, hverify]
  exact hholds

/-- Verification is safe exactly on the chains of which everything it reaches can be read, and
which, where they are in order by what their documents declare, declare the ids of the keys they
carry. -/
theorem verifiesSafely_iff (primitives : Primitives) (chain : Chain) :
    VerifiesSafely primitives chain ↔
      Readable primitives chain ∧
      (Genuine primitives chain → ∀ binding ∈ chain.bindings, DeclaresOwnKey binding) := by
  rw [verifiesSafely_iff_outcomes, verifyChain_ne_other_iff, verifyChain_eq_ok_iff]
  refine and_congr_right fun _ => forall_congr' fun hgenuine => ?_
  exact ⟨fun hholds => hholds.ownKeys, chainHolds_of_genuine hgenuine⟩

end Safety

/-! ## A revoked key under another id -/

/-- The raw bytes of a base64url string. -/
def decoded (v : PyValue) : Bytes :=
  (unb64u v).toOption.getD []

def canonicalBytes (v : PyValue) : Bytes :=
  (jcs v).toOption.getD []

def exampleRootKey : Bytes := decoded (.str "iojj3XQJ8ZX9UtstPLpdcspnCb8dlBIb83SIAbQPb1w")

def exampleBindingList : PyValue :=
  .object [
    ("tenant_ref", .str "t"),
    ("sequence", .leaf (.int 1)),
    ("revoked_key_ids", .list [PyValue.str "ti6Gf6LzOv5i1daxZC4WIQ"]),
    ("signer_key_id", .str "NHUPmL1Z_PyUbaRaqr6TOw"),
    ("signature", .str
      "guPM5P6iNHODm0V1wxyFrP3BYD4qnwqXKkurlk2x25jWie0z1sWsmPYGoR4fA9C6oK1Yp0qaLWuX_9opQhkmBg")]

def exampleAdminBinding : PyValue :=
  .object [
    ("purpose", .str "admin_identity"),
    ("tenant_ref", .str "t"),
    ("project_ref", .leaf .none),
    ("epoch", .leaf .none),
    ("key_id", .str "ajgD1fBZkCocba-8m6Rykg"),
    ("public_key", .str "gTl3Dqh9F19Wo1Rmw0x-zMuNipG07jeiXfYPW4_Js5Q"),
    ("not_before", .str "2026-01-01T00:00:00Z"),
    ("signer_key_id", .str "NHUPmL1Z_PyUbaRaqr6TOw"),
    ("signature", .str
      "zBiU_dXba6tdv2epBzF0dduTELik_TP92nYcKz7i92jOr5HtEb4R2BlnoHUuiJiVFAJ9pK-KRO1OrI8wBnXDBg")]

def exampleProjectBinding : PyValue :=
  .object [
    ("purpose", .str "project_key"),
    ("tenant_ref", .str "t"),
    ("project_ref", .str "p"),
    ("epoch", .leaf (.int 1)),
    ("key_id", .str "NHUPmL1Z_PyUbaRaqr6TOw"),
    ("public_key", .str "7UkoxijRwsbq6QM4kFmVYSlZJzpcY_k2NsFGFKyHN9E"),
    ("not_before", .str "2026-01-01T00:00:00Z"),
    ("signer_key_id", .str "ajgD1fBZkCocba-8m6Rykg"),
    ("signature", .str
      "oyRMbD80z91YHXT62m1C82K3wObwI9rckC_kGG1rSp8bc6l67CYNqJitx9q6mn_WcWfQWsmH8zFlWI4hs4smBQ")]

def exampleMemberBinding : PyValue :=
  .object [
    ("purpose", .str "member_key"),
    ("tenant_ref", .str "t"),
    ("project_ref", .str "p"),
    ("epoch", .leaf (.int 1)),
    ("key_id", .str "xblA7T9lw5GWXegpX8XSXw"),
    ("public_key", .str "ypOsFwUYcHHWe4PH_w7-gQjo7EUwV113JoeTM9vavnw"),
    ("not_before", .str "2026-01-01T00:00:00Z"),
    ("signer_key_id", .str "ajgD1fBZkCocba-8m6Rykg"),
    ("signature", .str
      "Lq9oxqRmSOYmrJEkRAHRP6Uw1W0svEUwmhlV80tgwfntIfdgX88U5XvFItGc04nkT2iK4XAE2104tgtY0S7mBA")]

/-- The four signatures of the example and one timestamp. -/
def examplePrimitives : Primitives where
  ed25519Verify publicKey signature message :=
    [(exampleRootKey, exampleBindingList), (exampleRootKey, exampleAdminBinding),
      (decoded (exampleAdminBinding.field "public_key"), exampleProjectBinding),
      (decoded (exampleAdminBinding.field "public_key"), exampleMemberBinding)].any fun row =>
        publicKey == row.1 && signature == decoded (row.2.field "signature") &&
          message == bindingDomain ++ canonicalBytes (row.2.erase "signature")
  fromisoformat s :=
    if s = text "2026-01-01T00:00:00+00:00" then some (.aware 1767225600000000) else none
  stackFull depth _ := decide (300 ≤ depth)

def exampleChain : Chain where
  pinnedRootFingerprint :=
    text "34750f98bd59fcfc946da45aaabe933be154a4b5094e1c4abf42866505f3c97e"
  rootPub := exampleRootKey
  adminBinding := exampleAdminBinding
  projectBinding := exampleProjectBinding
  memberBinding := exampleMemberBinding
  tenantRef := text "t"
  projectRef := text "p"
  bindingList := exampleBindingList
  retainedSequence := 1
  now := text "2026-01-01T00:00:00Z"

def exampleProjectKey : Bytes := decoded (exampleProjectBinding.field "public_key")

theorem keyId_exampleProjectKey : keyId exampleProjectKey = text "ti6Gf6LzOv5i1daxZC4WIQ" := by
  decide +kernel

theorem publicKeyOf_exampleProjectBinding :
    publicKeyOf exampleProjectBinding = .ok exampleProjectKey := by
  decide +kernel

theorem revokedKeyIds_exampleBindingList :
    revokedKeyIds exampleBindingList = some [strValue (keyId exampleProjectKey)] := by
  rw [keyId_exampleProjectKey]
  rfl

/-- The list revokes the project's key, the project's binding declares another id, and the
chain is verified. -/
theorem verifyChain_revoked_key :
    verifyChain examplePrimitives exampleChain = .ok () ∧
    ¬ VerifiesSafely examplePrimitives exampleChain := by
  have hverified : verifyChain examplePrimitives exampleChain = .ok () := by
    decide +kernel
  refine ⟨hverified, not_verifiesSafely hverified fun hholds => ?_⟩
  obtain ⟨ids, hids, hclear⟩ := hholds.notRevoked
  have hrevoked := revokedKeyIds_exampleBindingList.symm.trans hids
  have hproject : exampleProjectBinding ∈ exampleChain.bindings :=
    List.mem_cons_of_mem _ List.mem_cons_self
  apply hclear exampleProjectBinding hproject _ publicKeyOf_exampleProjectBinding
  rw [← Option.some.inj hrevoked]
  exact List.mem_singleton_self _

end TraigentSchema.LabelsReference
