import TraigentSchema.Certification.Issuer
import TraigentSchema.CommitmentLinkage.Commitment

/-!
# Opening is binding

The framed preimage determines what is committed to, so that a commitment has one opening or
SHA-256 a collision; and on a verified sidecar, whose roles are unique, the outcome of an
opening is decided by the one entry of its role.
-/

namespace TraigentSchema.CommitmentLinkage

open TraigentSchema.Unicode
open TraigentSchema.AgentCertificate
open TraigentSchema.Certification hiding index
open TraigentSchema.Framing
open TraigentSchema.Hashing
open TraigentSchema.Python
open TraigentSchema.Traverse

/-! ## The commitment function -/

/-- A text of some form is a text. -/
theorem isStr_iff {p : Text → Bool} {v : PyValue} :
    isStr p v = true ↔ ∃ s, v = strValue s ∧ p s = true := by
  cases v with
  | leaf x => cases x <;> simp [isStr, strValue]
  | list items => simp [isStr, strValue]
  | dict members => simp [isStr, strValue]

@[simp]
theorem strText_strValue (s : Text) : strText (strValue s) = s := rfl

theorem strValue_inj {s t : Text} : strValue s = strValue t ↔ s = t := by
  simp [strValue]

theorem pyEq_strValue {s t : Text} : pyEq (strValue s) (strValue t) = true ↔ s = t := by
  simp [pyEq, strValue, atomEq, Atom.number]

/-- A literal of a list is one of its members. -/
theorem isLiteralOf_iff {literals : List String} {s : Text} :
    isLiteralOf literals s = true ↔ ∃ literal ∈ literals, s = text literal := by
  simp [isLiteralOf]

section Binding

variable {platform : Platform}

/-- Arguments a commitment is computed from. -/
structure Committable (role basis fpDigest : Text) (opening : Bytes) : Prop where
  role_known : isLiteralOf roles role = true
  basis_known : isLiteralOf bases basis = true
  committed : basis ≠ text "unavailable"
  fpDigest_shape : isSha256Text fpDigest = true
  opening_length : opening.length = openingBytes

/-- A commitment exists for texts of the allowed forms and an opening of the right length. -/
theorem computeCommitment_eq_ok_iff {role basis fpDigest : PyValue} {opening : Option Bytes}
    {c : Text} :
    computeCommitment platform role basis fpDigest opening = .ok c ↔
      ∃ r b f raw, role = strValue r ∧ basis = strValue b ∧ fpDigest = strValue f ∧
        opening = some raw ∧ Committable r b f raw ∧
        c = sha256Text platform (commitmentPreimage r b f raw) := by
  constructor
  · intro hcomputed
    obtain ⟨hrole, hrest⟩ := unit_bind_eq_ok_iff.mp hcomputed
    obtain ⟨hbasis, hrest⟩ := unit_bind_eq_ok_iff.mp hrest
    obtain ⟨hfp, hrest⟩ := unit_bind_eq_ok_iff.mp hrest
    rw [check_eq_ok_iff] at hrole hbasis hfp
    rw [Bool.and_eq_true] at hbasis
    obtain ⟨r, rfl, hr⟩ := isStr_iff.mp hrole
    obtain ⟨b, rfl, hb⟩ := isStr_iff.mp hbasis.1
    obtain ⟨f, rfl, hf⟩ := isStr_iff.mp hfp
    cases opening with
    | none => cases hrest
    | some raw =>
        obtain ⟨hlength, hdone⟩ := unit_bind_eq_ok_iff.mp hrest
        rw [check_eq_ok_iff, beq_iff_eq] at hlength
        refine ⟨r, b, f, raw, rfl, rfl, rfl, rfl, ⟨hr, hb, ?_, hf, hlength⟩,
          (Except.ok.inj hdone).symm⟩
        rintro rfl
        cases hbasis.2
  · rintro ⟨r, b, f, raw, rfl, rfl, rfl, rfl, hargs, rfl⟩
    have hcommitted : pyEq (strValue b) (.str "unavailable") = false :=
      Bool.eq_false_iff.mpr fun heq => hargs.committed (pyEq_strValue.mp heq)
    have hrole : isStr (isLiteralOf roles) (strValue r) = true := hargs.role_known
    have hbasis : isStr (isLiteralOf bases) (strValue b) = true := hargs.basis_known
    have hfp : isStr isSha256Text (strValue f) = true := hargs.fpDigest_shape
    simp only [computeCommitment, hrole, hbasis, hfp, hcommitted, hargs.opening_length]
    rfl

/-- What is hashed are six fields, each behind its length. -/
theorem commitmentPreimage_eq (role basis fpDigest : Text) (opening : Bytes) :
    commitmentPreimage role basis fpDigest opening =
      lengthPrefixedAll [utf8 (text "traigent.commitment-linkage.v1"), utf8 role, utf8 basis,
        utf8 (text "fp1"), utf8 fpDigest, opening] := by
  simp [commitmentPreimage, lengthPrefixedAll]

/-- No literal of the schema is too long for its length prefix. -/
theorem framable_literal {literals : List String} {s : Text}
    (hliteral : isLiteralOf literals s = true)
    (hshort : (literals.all fun literal => decide (Framable (utf8 (text literal)))) = true) :
    Framable (utf8 s) := by
  obtain ⟨literal, hmem, rfl⟩ := isLiteralOf_iff.mp hliteral
  simpa using List.all_eq_true.mp hshort literal hmem

/-- A character takes four bytes at most. -/
theorem length_utf8_le (s : Text) : (utf8 s).length ≤ 4 * s.length := by
  induction s with
  | nil => exact Nat.zero_le _
  | cons c s ih =>
      have hc : (utf8Char c).length ≤ 4 := by
        rw [utf8Char]
        split_ifs <;> simp
      rw [utf8, List.flatMap_cons, List.length_append, ← utf8, List.length_cons]
      omega

theorem framable_sha256Text {s : Text} (hs : isSha256Text s = true) : Framable (utf8 s) := by
  have hlength : s.length ≤ 71 := by
    simp only [isSha256Text, isRun, Bool.and_eq_true, decide_eq_true_eq, List.length_drop] at hs
    omega
  have hle := length_utf8_le s
  rw [Framable]
  omega

/-- The preimage determines what is committed to. -/
theorem commitmentPreimage_injOn {r b f r' b' f' : Text} {raw raw' : Bytes}
    (hargs : Committable r b f raw) (hargs' : Committable r' b' f' raw')
    (heq : commitmentPreimage r b f raw = commitmentPreimage r' b' f' raw') :
    r = r' ∧ b = b' ∧ f = f' ∧ raw = raw' := by
  have hframable : ∀ {r b f : Text} {raw : Bytes}, Committable r b f raw →
      ∀ field ∈ [utf8 (text "traigent.commitment-linkage.v1"), utf8 r, utf8 b,
        utf8 (text "fp1"), utf8 f, raw], Framable field := by
    intro r b f raw hargs
    have hopening : Framable raw := by
      rw [Framable, hargs.opening_length]
      decide
    simp only [List.forall_mem_cons, List.not_mem_nil, false_imp_iff, implies_true, and_true]
    exact ⟨by decide, framable_literal hargs.role_known (by decide),
      framable_literal hargs.basis_known (by decide), by decide,
      framable_sha256Text hargs.fpDigest_shape, hopening⟩
  rw [commitmentPreimage_eq, commitmentPreimage_eq] at heq
  have hfields := lengthPrefixedAll_injective (hframable hargs) (hframable hargs') heq
  simp only [List.cons.injEq, true_and, and_true] at hfields
  obtain ⟨hrole, hbasis, hfp, hraw⟩ := hfields
  exact ⟨utf8_injective hrole, utf8_injective hbasis, utf8_injective hfp, hraw⟩

/-- What is hashed for the arguments of a commitment. -/
def hashedPreimage (role basis fpDigest : PyValue) (opening : Option Bytes) : Bytes :=
  commitmentPreimage (strText role) (strText basis) (strText fpDigest) (opening.getD [])

/-- A commitment has one opening, or the preimages of two openings collide. -/
theorem computeCommitment_binding {role basis fpDigest role' basis' fpDigest' : PyValue}
    {opening opening' : Option Bytes} {c : Text}
    (hleft : computeCommitment platform role basis fpDigest opening = .ok c)
    (hright : computeCommitment platform role' basis' fpDigest' opening' = .ok c) :
    (role = role' ∧ basis = basis' ∧ fpDigest = fpDigest' ∧ opening = opening') ∨
      Collision platform.sha256 [hashedPreimage role basis fpDigest opening]
        [hashedPreimage role' basis' fpDigest' opening'] := by
  obtain ⟨r, b, f, raw, rfl, rfl, rfl, rfl, hargs, rfl⟩ := computeCommitment_eq_ok_iff.mp hleft
  obtain ⟨r', b', f', raw', rfl, rfl, rfl, rfl, hargs', hsame⟩ :=
    computeCommitment_eq_ok_iff.mp hright
  refine (eq_or_collision (sha256Text_injOn platform hsame)).imp_left fun heq => ?_
  obtain ⟨rfl, rfl, rfl, rfl⟩ := commitmentPreimage_injOn hargs hargs' heq
  exact ⟨rfl, rfl, rfl, rfl⟩

end Binding

/-! ## What an accepted sidecar holds -/

/-- The entries of a sidecar. -/
def envelopeEntries (envelope : PyValue) : List PyValue :=
  match (envelope.field "unsigned_linkage").field "entries" with
  | .list entries => entries
  | _ => []

def rowOf (entry : PyValue) : LinkageEntry :=
  ⟨entry.field "role", entry.field "basis", entry.field "commitment"⟩

def IsCommitted (entry : PyValue) : Prop :=
  entry.field "basis" ≠ strValue (text "unavailable")

/-- What the schema says of an entry, as far as an opening reads it. -/
structure EntryFacts (entry : PyValue) : Prop where
  role_known : ∃ role, entry.field "role" = strValue role ∧ isLiteralOf roles role = true
  basis_known : ∃ basis, entry.field "basis" = strValue basis ∧ isLiteralOf bases basis = true
  uncommitted : ¬ IsCommitted entry → entry.field "commitment" = .leaf .none
  committed : IsCommitted entry →
    ∃ c, entry.field "commitment" = strValue c ∧ isAscii c = true

theorem isAscii_sha256Text {s : Text} (hs : isSha256Text s = true) : isAscii s = true := by
  simp only [isSha256Text, isRun, Bool.and_eq_true, beq_iff_eq] at hs
  obtain ⟨hhead, -, hdigits⟩ := hs
  have hhex : ∀ c, isLowerHex c = true → decide (c.val < 0x80) = true := by
    intro c hc
    have hf : (codePoint 'f').val = 0x66 := rfl
    have hnine : (codePoint '9').val = 0x39 := rfl
    simp only [isLowerHex, isDecimal, inRange, Bool.or_eq_true, decide_eq_true_eq] at hc ⊢
    omega
  rw [isAscii, ← List.take_append_drop 7 s, List.all_append, hhead, Bool.and_eq_true]
  refine ⟨by decide, ?_⟩
  rw [List.all_eq_true] at hdigits ⊢
  exact fun c hc => hhex c (hdigits c hc)

theorem isAscii_of_hasPattern {v : PyValue} (hv : hasPattern isSha256Text v = true) :
    ∃ c, v = strValue c ∧ isAscii c = true := by
  obtain ⟨c, rfl, hc⟩ := isStr_iff.mp hv
  refine ⟨c, rfl, ?_⟩
  rcases Bool.or_eq_true_iff.mp hc with hwhole | hline
  · exact isAscii_sha256Text hwhole
  · rw [Bool.and_eq_true, beq_iff_eq] at hline
    have hsplit := List.dropLast_append_getLast? (codePoint '\n') hline.1
    rw [← hsplit, isAscii, List.all_append, Bool.and_eq_true]
    exact ⟨isAscii_sha256Text hline.2, by decide⟩

/-- An entry that passes the schema has all members the code reads. -/
theorem entryFacts_of_schema {entry : PyValue} (hentry : entrySchema entry = true) :
    EntryFacts entry := by
  simp only [entrySchema, Bool.and_eq_true] at hentry
  obtain ⟨⟨⟨⟨⟨⟨⟨-, hrole⟩, hbasis⟩, -⟩, hpattern⟩, hpresent⟩, -⟩, -⟩ := hentry
  obtain ⟨basis, hfield, hknown⟩ := isStr_iff.mp hbasis
  have hkind : isEnum ["unavailable"] (entry.field "basis") = true ↔ ¬ IsCommitted entry := by
    simp [IsCommitted, hfield, isEnum, isStr, strValue, isLiteralOf]
  refine ⟨isStr_iff.mp hrole, ⟨basis, hfield, hknown⟩, ?_, ?_⟩
  · intro hnot
    rw [if_pos (hkind.mpr hnot), Bool.not_eq_true'] at hpresent
    have hnone : entry.member "commitment" = none := by
      simpa [PyValue.hasKey] using hpresent
    rw [PyValue.field, hnone, Option.getD_none]
  · intro hcommitted
    rw [if_neg (mt hkind.mp (not_not.mpr hcommitted))] at hpresent
    rw [hpresent] at hpattern
    exact isAscii_of_hasPattern (by simpa using hpattern)

/-- The texts of the roles of accepted entries are different. -/
def roleOf (entry : PyValue) : Text :=
  strText (entry.field "role")

structure Accepted (envelope : PyValue) (linkage : VerifiedCommitmentLinkage) : Prop where
  facts : ∀ entry ∈ envelopeEntries envelope, EntryFacts entry
  roles_nodup : ((envelopeEntries envelope).map roleOf).Nodup
  rows : linkage.entries = (envelopeEntries envelope).map rowOf

theorem index_eq_ok_iff {v w : PyValue} {name : String} :
    CommitmentLinkage.index v name = .ok w ↔ v.member name = some w := by
  rw [CommitmentLinkage.index]
  cases v.member name <;> simp [verificationFailed]

theorem index_eq_ok_field {v w : PyValue} {name : String}
    (hindex : CommitmentLinkage.index v name = .ok w) : v.field name = w := by
  rw [PyValue.field, index_eq_ok_iff.mp hindex, Option.getD_some]

/-- The row of an entry repeats its members. -/
theorem entryRow_eq_ok {entry : PyValue} {row : LinkageEntry}
    (hrow : entryRow entry = .ok row) : row = rowOf entry := by
  obtain ⟨role, hrole, hrest⟩ := bind_eq_ok_iff.mp hrow
  obtain ⟨basis, hbasis, hdone⟩ := bind_eq_ok_iff.mp hrest
  rw [← Except.ok.inj hdone, rowOf, index_eq_ok_field hrole, index_eq_ok_field hbasis]

/-- A run of `mapM` whose results are a function of the elements. -/
theorem eq_map_of_mapM_eq_ok {A B E : Type} {f : A → Except E B} {g : A → B} {rows : List A}
    {results : List B} (hrun : rows.mapM f = .ok results)
    (hstep : ∀ row result, f row = .ok result → result = g row) : results = rows.map g := by
  have hforall := mapM_eq_ok_iff.mp hrun
  induction hforall with
  | nil => rfl
  | cons hrow hrows ih =>
      rw [List.map_cons, ← hstep _ _ hrow, ← ih (mapM_eq_ok_iff.mpr hrows)]

/-- An envelope that passes the schema holds a list of such entries. -/
theorem entries_of_schema {envelope : PyValue} (hschema : envelopeSchema envelope = true) :
    ((envelope.field "unsigned_linkage").field "entries" =
      .list (envelopeEntries envelope)) ∧
      ∀ entry ∈ envelopeEntries envelope, EntryFacts entry := by
  simp only [envelopeSchema, unsignedLinkageSchema, Bool.and_eq_true] at hschema
  have hentries := hschema.1.2.2
  rw [envelopeEntries]
  cases hfield : (envelope.field "unsigned_linkage").field "entries" with
  | list entries =>
      rw [hfield, Bool.and_eq_true, List.all_eq_true] at hentries
      exact ⟨rfl, fun entry hentry => entryFacts_of_schema (hentries.2 entry hentry)⟩
  | leaf x =>
      rw [hfield] at hentries
      cases hentries
  | dict members =>
      rw [hfield] at hentries
      cases hentries

theorem entriesOf_eq_ok {unsigned : PyValue} {entries : List PyValue}
    (hentries : entriesOf unsigned = .ok entries) :
    unsigned.field "entries" = .list entries := by
  obtain ⟨v, hv, hlist⟩ := bind_eq_ok_iff.mp hentries
  rw [index_eq_ok_field hv]
  cases v with
  | list items => rw [Except.ok.inj hlist]
  | leaf x => cases hlist
  | dict members => cases hlist

/-- An accepted envelope passes the schema, and its rows are those of its entries. -/
theorem accepted_of_verify {platform : Platform} {envelope : PyValue}
    {context : VerificationContext} {linkage : VerifiedCommitmentLinkage}
    (hverified : verifyCommitmentLinkage platform envelope context = .ok linkage) :
    Accepted envelope linkage := by
  obtain ⟨-, hverify⟩ := unit_bind_eq_ok_iff.mp hverified
  obtain ⟨hschema, hrest⟩ := unit_bind_eq_ok_iff.mp hverify
  obtain ⟨unsigned, hunsigned, hrest⟩ := bind_eq_ok_iff.mp hrest
  obtain ⟨signature, -, hrest⟩ := bind_eq_ok_iff.mp hrest
  obtain ⟨entries, hentries, hrest⟩ := bind_eq_ok_iff.mp hrest
  obtain ⟨rowRoles, hroles, hrest⟩ := bind_eq_ok_iff.mp hrest
  obtain ⟨-, hrest⟩ := unit_bind_eq_ok_iff.mp hrest
  obtain ⟨hnodup, hrest⟩ := unit_bind_eq_ok_iff.mp hrest
  obtain ⟨digest, -, hrest⟩ := bind_eq_ok_iff.mp hrest
  obtain ⟨-, hrest⟩ := unit_bind_eq_ok_iff.mp hrest
  obtain ⟨-, hrest⟩ := unit_bind_eq_ok_iff.mp hrest
  obtain ⟨recordDigest, -, hrest⟩ := bind_eq_ok_iff.mp hrest
  obtain ⟨-, hrest⟩ := unit_bind_eq_ok_iff.mp hrest
  obtain ⟨-, hrest⟩ := unit_bind_eq_ok_iff.mp hrest
  obtain ⟨rows, hrows, hdone⟩ := bind_eq_ok_iff.mp hrest
  rw [check_eq_ok_iff] at hschema hnodup
  obtain ⟨hlist, hfacts⟩ := entries_of_schema hschema
  rw [index_eq_ok_field hunsigned, entriesOf_eq_ok hentries, Tree.list.injEq] at hlist
  subst hlist
  refine ⟨hfacts, ?_, ?_⟩
  · rw [eq_map_of_mapM_eq_ok hroles fun entry role hrole => (index_eq_ok_field hrole).symm,
      List.map_map] at hnodup
    exact of_decide_eq_true hnodup
  · rw [← Except.ok.inj hdone]
    exact eq_map_of_mapM_eq_ok hrows fun entry row hrow => entryRow_eq_ok hrow

/-! ## The outcome of an opening -/

section Outcome

variable {platform : Platform}

/-- What is answered for the entry of the role. -/
def openEntry (platform : Platform) (fpDigest : PyValue) (opening : Option Bytes)
    (entry : LinkageEntry) : Linked OpenResult :=
  if pyEq entry.basis (.str "unavailable") || pyEq entry.commitment (.leaf .none) then
    .ok .unavailable
  else do
    let expected ← computeCommitment platform entry.role entry.basis fpDigest opening
    let same ← compareDigest expected entry.commitment
    return if same then .openedMatch else .openedMismatch

/-- The loop answers for the first entry of the role. -/
theorem scanEntries_eq (role fpDigest : PyValue) (opening : Option Bytes)
    (rows : List LinkageEntry) :
    scanEntries platform role fpDigest opening rows =
      match rows.find? fun row => pyEq row.role role with
      | none => .ok .unavailable
      | some row => openEntry platform fpDigest opening row := by
  induction rows with
  | nil => rfl
  | cons row rows ih =>
      rw [scanEntries, List.find?_cons]
      cases hrole : pyEq row.role role with
      | false => simpa using ih
      | true => rfl

/-- The entries of a role. -/
def entriesFor (envelope : PyValue) (role : Text) : List PyValue :=
  (envelopeEntries envelope).filter fun entry => roleOf entry == role

/-- No role has two entries in an accepted envelope. -/
theorem entriesFor_length_le_one {envelope : PyValue} {linkage : VerifiedCommitmentLinkage}
    (haccepted : Accepted envelope linkage) (role : Text) :
    (entriesFor envelope role).length ≤ 1 := by
  have hnodup : ((entriesFor envelope role).map roleOf).Nodup :=
    haccepted.roles_nodup.sublist (List.filter_sublist.map _)
  have hall : (entriesFor envelope role).map roleOf =
      List.replicate (entriesFor envelope role).length role := by
    rw [List.eq_replicate_iff, List.length_map]
    refine ⟨rfl, fun r hr => ?_⟩
    obtain ⟨entry, hentry, rfl⟩ := List.mem_map.mp hr
    simpa using (List.mem_filter.mp hentry).2
  rw [hall] at hnodup
  exact List.nodup_replicate.mp hnodup

/-- The row found for a role is that of its only entry. -/
theorem find_row {envelope : PyValue} {linkage : VerifiedCommitmentLinkage}
    (haccepted : Accepted envelope linkage) (role : Text) :
    (linkage.entries.find? fun row => pyEq row.role (strValue role)) =
      (entriesFor envelope role).head?.map rowOf := by
  rw [haccepted.rows, List.find?_map, entriesFor, List.head?_filter]
  congr 1
  apply List.find?_congr
  intro entry hentry
  obtain ⟨r, hrole, -⟩ := (haccepted.facts entry hentry).role_known
  rw [Bool.eq_iff_iff, Function.comp_apply, rowOf, roleOf, hrole, pyEq_strValue, beq_iff_eq,
    strText_strValue]

/-- A request the opening does not refuse. -/
structure ValidRequest (role fpDigest : Text) (opening : Bytes) : Prop where
  role_known : isLiteralOf roles role = true
  fpDigest_shape : isSha256Text fpDigest = true
  opening_length : opening.length = openingBytes

/-- The entry's commitment is the one of these arguments. -/
def CommitsTo (platform : Platform) (entry : PyValue) (fpDigest : Text) (opening : Bytes) :
    Prop :=
  ∃ c, computeCommitment platform (entry.field "role") (entry.field "basis")
    (strValue fpDigest) (some opening) = .ok c ∧ entry.field "commitment" = strValue c

/-- An entry without a commitment is unavailable, whatever is presented. -/
theorem openEntry_uncommitted {entry : PyValue} (hfacts : EntryFacts entry)
    (hentry : ¬ IsCommitted entry) (fpDigest : PyValue) (opening : Option Bytes) :
    openEntry platform fpDigest opening (rowOf entry) = .ok .unavailable := by
  have hnone : pyEq (rowOf entry).commitment (.leaf .none) = true := by
    rw [rowOf, hfacts.uncommitted hentry]
    rfl
  rw [openEntry, hnone, Bool.or_true, if_pos rfl]

/-- A committed entry decides every valid request. -/
theorem openEntry_committed {entry : PyValue} {fpDigest : Text} {opening : Bytes}
    (hfacts : EntryFacts entry) (hentry : IsCommitted entry)
    (hrequest : ValidRequest (roleOf entry) fpDigest opening) :
    ∃ outcome, openEntry platform (strValue fpDigest) (some opening) (rowOf entry) =
      .ok outcome ∧ outcome ≠ .unavailable ∧
        (outcome = .openedMatch ↔ CommitsTo platform entry fpDigest opening) := by
  obtain ⟨role, hrole, hknown⟩ := hfacts.role_known
  obtain ⟨basis, hbasis, hbasisKnown⟩ := hfacts.basis_known
  obtain ⟨c, hc, hascii⟩ := hfacts.committed hentry
  have hne : basis ≠ text "unavailable" := by
    rintro rfl
    exact hentry hbasis
  have hargs : Committable role basis fpDigest opening :=
    ⟨hknown, hbasisKnown, hne, hrequest.fpDigest_shape, hrequest.opening_length⟩
  have hcomputed : computeCommitment platform (strValue role) (strValue basis)
      (strValue fpDigest) (some opening) =
      .ok (sha256Text platform (commitmentPreimage role basis fpDigest opening)) :=
    computeCommitment_eq_ok_iff.mpr ⟨role, basis, fpDigest, opening, rfl, rfl, rfl, rfl, hargs, rfl⟩
  generalize sha256Text platform (commitmentPreimage role basis fpDigest opening) =
    expected at hcomputed
  have hguard : (pyEq (strValue basis) (.str "unavailable") ||
      pyEq (strValue c) (.leaf .none)) = false := by
    rw [Bool.or_eq_false_iff]
    exact ⟨Bool.eq_false_iff.mpr fun heq => hne (pyEq_strValue.mp heq), rfl⟩
  have hcompare : compareDigest expected (strValue c) = .ok (expected == c) := by
    simp [compareDigest, strValue, hascii]
  refine ⟨if expected == c then .openedMatch else .openedMismatch, ?_, ?_, ?_⟩
  · simp only [openEntry, rowOf, hrole, hbasis, hc, hguard, hcomputed, ok_bind, hcompare]
    rfl
  · split_ifs <;> simp
  · rw [CommitsTo, hrole, hbasis, hc, hcomputed]
    constructor
    · intro hmatch
      split_ifs at hmatch with hsame
      exact ⟨expected, rfl, by rw [beq_iff_eq.mp hsame]⟩
    · rintro ⟨c', hexpected, hc'⟩
      rw [Except.ok.inj hexpected, strValue_inj.mp hc', beq_self_eq_true, if_pos rfl]

/-- In an accepted envelope the scan ends at the only entry of the role. -/
theorem scanEntries_accepted {envelope : PyValue} {linkage : VerifiedCommitmentLinkage}
    (haccepted : Accepted envelope linkage) (role : Text) (fpDigest : PyValue)
    (opening : Option Bytes) :
    scanEntries platform (strValue role) fpDigest opening linkage.entries =
      match (entriesFor envelope role).head? with
      | none => .ok .unavailable
      | some entry => openEntry platform fpDigest opening (rowOf entry) := by
  rw [scanEntries_eq, find_row haccepted]
  cases (entriesFor envelope role).head? <;> rfl

/-- Whether a request is answered at all does not depend on the sidecar. -/
theorem openCommitment_eq_ok {linkage : VerifiedCommitmentLinkage} {role fpDigest : PyValue}
    {opening : Option Bytes} {outcome : OpenResult}
    (hopened : openCommitment platform linkage role fpDigest opening = .ok outcome) :
    ∃ r f raw, role = strValue r ∧ fpDigest = strValue f ∧ opening = some raw ∧
      ValidRequest r f raw := by
  obtain ⟨hrole, hrest⟩ := unit_bind_eq_ok_iff.mp hopened
  obtain ⟨hfp, hrest⟩ := unit_bind_eq_ok_iff.mp hrest
  obtain ⟨hopening, -⟩ := unit_bind_eq_ok_iff.mp hrest
  rw [check_eq_ok_iff] at hrole hfp hopening
  obtain ⟨r, rfl, hr⟩ := isStr_iff.mp hrole
  obtain ⟨f, rfl, hf⟩ := isStr_iff.mp hfp
  obtain ⟨raw, rfl, hraw⟩ := (Option.any_eq_true _ _).mp hopening
  exact ⟨r, f, raw, rfl, rfl, rfl, hr, hf, beq_iff_eq.mp hraw⟩

theorem openCommitment_valid {linkage : VerifiedCommitmentLinkage} {role fpDigest : Text}
    {opening : Bytes} (hrequest : ValidRequest role fpDigest opening) :
    openCommitment platform linkage (strValue role) (strValue fpDigest) (some opening) =
      scanEntries platform (strValue role) (strValue fpDigest) (some opening)
        linkage.entries := by
  have hrole : isStr (isLiteralOf roles) (strValue role) = true := hrequest.role_known
  have hfp : isStr isSha256Text (strValue fpDigest) = true := hrequest.fpDigest_shape
  simp only [openCommitment, hrole, hfp, Option.any_some, hrequest.opening_length]
  rfl

/-- What is answered for a request, by the entries of its role. -/
structure Decided (platform : Platform) (envelope : PyValue) (role fpDigest : Text)
    (opening : Bytes) (outcome : OpenResult) : Prop where
  openedMatch_iff : outcome = .openedMatch ↔
    ∃ entry, entriesFor envelope role = [entry] ∧ IsCommitted entry ∧
      CommitsTo platform entry fpDigest opening
  unavailable_iff : outcome = .unavailable ↔
    entriesFor envelope role = [] ∨
      ∃ entry, entriesFor envelope role = [entry] ∧ ¬ IsCommitted entry
  openedMismatch_iff : outcome = .openedMismatch ↔
    ∃ entry, entriesFor envelope role = [entry] ∧ IsCommitted entry ∧
      ¬ CommitsTo platform entry fpDigest opening

/-- Every valid request to an accepted envelope is decided. -/
theorem decided_of_accepted {envelope : PyValue} {linkage : VerifiedCommitmentLinkage}
    {role fpDigest : Text} {opening : Bytes} (haccepted : Accepted envelope linkage)
    (hrequest : ValidRequest role fpDigest opening) :
    ∃ outcome, openCommitment platform linkage (strValue role) (strValue fpDigest)
      (some opening) = .ok outcome ∧
        Decided platform envelope role fpDigest opening outcome := by
  rw [openCommitment_valid hrequest, scanEntries_accepted haccepted]
  cases hentries : entriesFor envelope role with
  | nil =>
      refine ⟨.unavailable, rfl, ?_, ?_, ?_⟩ <;> simp [hentries]
  | cons entry rest =>
      have hrest : rest = [] := by
        have hlength := entriesFor_length_le_one haccepted role
        rw [hentries, List.length_cons] at hlength
        exact List.eq_nil_of_length_eq_zero (by omega)
      subst hrest
      have hmem : entry ∈ entriesFor envelope role := by simp [hentries]
      obtain ⟨hentry, hrole⟩ := List.mem_filter.mp hmem
      rw [beq_iff_eq] at hrole
      have hfacts := haccepted.facts entry hentry
      subst hrole
      by_cases hcommitted : IsCommitted entry
      · obtain ⟨outcome, hopen, havailable, hmatch⟩ :=
          @openEntry_committed platform _ _ _ hfacts hcommitted hrequest
        refine ⟨outcome, hopen, ?_, ?_, ?_⟩
        · simp [hentries, hmatch, hcommitted]
        · simp [hentries, hcommitted, havailable]
        · cases outcome <;> simp_all
      · refine ⟨.unavailable, openEntry_uncommitted hfacts hcommitted _ _, ?_, ?_, ?_⟩ <;>
          simp [hentries, hcommitted]

/-- The order of the entries does not matter. -/
theorem openCommitment_perm {envelope envelope' : PyValue}
    {linkage linkage' : VerifiedCommitmentLinkage} (haccepted : Accepted envelope linkage)
    (haccepted' : Accepted envelope' linkage')
    (hperm : (envelopeEntries envelope).Perm (envelopeEntries envelope'))
    (role fpDigest : PyValue) (opening : Option Bytes) :
    openCommitment platform linkage role fpDigest opening =
      openCommitment platform linkage' role fpDigest opening := by
  cases hrole : isStr (isLiteralOf roles) role with
  | false => simp only [openCommitment, hrole]; rfl
  | true =>
      obtain ⟨r, rfl, -⟩ := isStr_iff.mp hrole
      have hsame : entriesFor envelope r = entriesFor envelope' r := by
        have hfor : (entriesFor envelope r).Perm (entriesFor envelope' r) := hperm.filter _
        have hshort := entriesFor_length_le_one haccepted r
        cases hentries : entriesFor envelope r with
        | nil =>
            rw [hentries] at hfor
            exact hfor.nil_eq
        | cons entry rest =>
            rw [hentries, List.length_cons] at hshort
            have hrest : rest = [] := List.eq_nil_of_length_eq_zero (by omega)
            rw [hentries, hrest] at hfor
            rw [hrest]
            exact List.singleton_perm.mp hfor
      simp only [openCommitment, scanEntries_accepted haccepted,
        scanEntries_accepted haccepted', hsame]

/-- An entry whose commitment was computed from some arguments is opened by these and, short
of a collision, by no others. -/
theorem eq_or_collision_of_commitsTo {entry role basis fpDigest' : PyValue} {fpDigest c : Text}
    {opening : Bytes} {opening' : Option Bytes}
    (hcomputed : computeCommitment platform role basis fpDigest' opening' = .ok c)
    (hentry : entry.field "commitment" = strValue c)
    (hopens : CommitsTo platform entry fpDigest opening) :
    (entry.field "role" = role ∧ entry.field "basis" = basis ∧ strValue fpDigest = fpDigest' ∧
      some opening = opening') ∨
      Collision platform.sha256 [hashedPreimage (entry.field "role") (entry.field "basis")
        (strValue fpDigest) (some opening)] [hashedPreimage role basis fpDigest' opening'] := by
  obtain ⟨c', hopened, hc'⟩ := hopens
  rw [hentry, strValue_inj] at hc'
  subst hc'
  exact computeCommitment_binding hopened hcomputed

end Outcome

/-- Equal commitments have equal arguments, or the two preimages that were hashed for them
collide; and an opening against an accepted sidecar is decided by the entries of its role,
whatever their order. -/
theorem opening_is_binding (platform : Platform) :
    (∀ role basis fpDigest role' basis' fpDigest' opening opening' c,
      computeCommitment platform role basis fpDigest opening = .ok c →
      computeCommitment platform role' basis' fpDigest' opening' = .ok c →
      (role = role' ∧ basis = basis' ∧ fpDigest = fpDigest' ∧ opening = opening') ∨
        Collision platform.sha256 [hashedPreimage role basis fpDigest opening]
          [hashedPreimage role' basis' fpDigest' opening']) ∧
    (∀ envelope context linkage,
      verifyCommitmentLinkage platform envelope context = .ok linkage →
      (∀ role fpDigest opening outcome,
        verifyAndOpenCommitment platform envelope context role fpDigest opening =
          .ok outcome →
        ∃ r f raw, role = strValue r ∧ fpDigest = strValue f ∧ opening = some raw ∧
          ValidRequest r f raw) ∧
      (∀ role fpDigest opening, ValidRequest role fpDigest opening →
        ∃ outcome, verifyAndOpenCommitment platform envelope context (strValue role)
          (strValue fpDigest) (some opening) = .ok outcome ∧
            Decided platform envelope role fpDigest opening outcome) ∧
      (∀ entry role basis fpDigest fpDigest' opening opening' c,
        computeCommitment platform role basis fpDigest' opening' = .ok c →
        entry ∈ envelopeEntries envelope → entry.field "commitment" = strValue c →
        CommitsTo platform entry fpDigest opening →
        (entry.field "role" = role ∧ entry.field "basis" = basis ∧
          strValue fpDigest = fpDigest' ∧ some opening = opening') ∨
          Collision platform.sha256 [hashedPreimage (entry.field "role") (entry.field "basis")
            (strValue fpDigest) (some opening)]
            [hashedPreimage role basis fpDigest' opening'])) ∧
    (∀ envelope envelope' context context' linkage linkage',
      verifyCommitmentLinkage platform envelope context = .ok linkage →
      verifyCommitmentLinkage platform envelope' context' = .ok linkage' →
      (envelopeEntries envelope).Perm (envelopeEntries envelope') →
      ∀ role fpDigest opening,
        verifyAndOpenCommitment platform envelope context role fpDigest opening =
          verifyAndOpenCommitment platform envelope' context' role fpDigest opening) := by
  refine ⟨?_, ?_, ?_⟩
  · intro role basis fpDigest role' basis' fpDigest' opening opening' c hleft hright
    exact computeCommitment_binding hleft hright
  · intro envelope context linkage hverified
    have haccepted := accepted_of_verify hverified
    have hrun : ∀ role fpDigest opening,
        verifyAndOpenCommitment platform envelope context role fpDigest opening =
          openCommitment platform linkage role fpDigest opening := by
      intro role fpDigest opening
      rw [verifyAndOpenCommitment, hverified, ok_bind]
    refine ⟨?_, ?_, ?_⟩
    · intro role fpDigest opening outcome hopened
      rw [hrun] at hopened
      exact openCommitment_eq_ok hopened
    · intro role fpDigest opening hrequest
      rw [hrun]
      exact decided_of_accepted haccepted hrequest
    · intro entry role basis fpDigest fpDigest' opening opening' c hcomputed _ hentry hopens
      exact eq_or_collision_of_commitsTo hcomputed hentry hopens
  · intro envelope envelope' context context' linkage linkage' hverified hverified' hperm role
      fpDigest opening
    rw [verifyAndOpenCommitment, verifyAndOpenCommitment, hverified, hverified', ok_bind,
      ok_bind]
    exact openCommitment_perm (accepted_of_verify hverified) (accepted_of_verify hverified')
      hperm role fpDigest opening

/-! A sidecar with a commitment of the agent and none of the configuration space. -/

theorem isSha256Text_sha256Text (platform : Platform) (material : Bytes) :
    isSha256Text (sha256Text platform material) = true := by
  have hhex : ∀ c, IsHexDigit c → isLowerHex c = true := by
    intro c hc
    have hbounds : (codePoint 'a').val = 97 ∧ (codePoint 'f').val = 102 ∧
        (codePoint '0').val = 48 ∧ (codePoint '9').val = 57 := ⟨rfl, rfl, rfl, rfl⟩
    simp only [IsHexDigit, Decimal.IsDigit] at hc
    simp only [isLowerHex, isDecimal, inRange, Bool.or_eq_true, decide_eq_true_eq]
    omega
  have hrun : isRun isLowerHex 64 64 (hexdigest (platform.sha256 material)) = true := by
    rw [isRun, length_hexdigest, Bool.and_eq_true, List.all_eq_true]
    exact ⟨by decide, fun c hc => hhex c (hexDigits_hex _ c hc)⟩
  exact hrun

def sampleOpening : Bytes := List.replicate 32 7

/-- A digest text of one digit only. -/
def digitDigest (digit : Char) : Text :=
  text "sha256:" ++ List.replicate 64 (codePoint digit)

def sampleFingerprint : Text := digitDigest '3'

noncomputable def sampleIssuer : Issuer neutralPlatform :=
  neutralIssuer "issuerkey:cccccccc" "trustring:dddddddd" neutralKey neutralKey_choice

/-- The entry that commits the agent to a fingerprint. -/
noncomputable def agentEntry : PyValue :=
  .object [("role", .str "agent"), ("basis", .str "name_only"),
    ("attestation", .str "client_declared"),
    ("commitment", strValue (sha256Text neutralPlatform (commitmentPreimage (text "agent")
      (text "name_only") sampleFingerprint sampleOpening)))]

def unavailableEntry : PyValue :=
  .object [("role", .str "config_space"), ("basis", .str "unavailable"),
    ("attestation", .str "client_declared")]

def sampleRecordDigest : Text := digitDigest '4'

noncomputable def sampleUnsigned : PyValue :=
  .object [("schema_version", .str "traigent.commitment_linkage.unsigned.v1"),
    ("process_record_digest", strValue sampleRecordDigest),
    ("project_ref", .str "project_contract001"),
    ("build_session_ref", .str "bsn:aaaaaaaaaaaaaaaaaaaaaaaaaaaaaaaaaaaaaaaaaaa"),
    ("entries", .list [agentEntry, unavailableEntry])]

noncomputable def sampleSignature : PyValue :=
  .object [("schema_version", .str "traigent.commitment_linkage.signature.v1"),
    ("algorithm", .str "ed25519"), ("issuer_key_ref", .str "issuerkey:cccccccc"),
    ("trust_ring_ref", .str "trustring:dddddddd"),
    ("signed_payload", .str "unsigned_commitment_linkage"),
    ("unsigned_linkage_digest",
      digestValue neutralPlatform "traigent.commitment_linkage.unsigned.v1" sampleUnsigned),
    ("signature", sampleIssuer.signature "traigent.commitment_linkage.issuer_signature.v1"
      sampleUnsigned)]

noncomputable def sampleEnvelope : PyValue :=
  .object [("schema_version", .str "traigent.commitment_linkage.v1"),
    ("unsigned_linkage", sampleUnsigned), ("signature", sampleSignature)]

/-- The pinned key of the issuer. -/
noncomputable def sampleKey : LinkageIssuerKey where
  keyRef := sampleIssuer.keyRef
  trustRingRef := sampleIssuer.trustRingRef
  algorithm := text sampleIssuer.algorithm
  publicKeyDerB64 := Base64.b64encode sampleIssuer.der
  publicKeyDigest := sha256Text neutralPlatform (preimage issuerSpkiDomain sampleIssuer.der)

noncomputable def sampleContext : VerificationContext where
  expectedProcessRecordDigest := sampleRecordDigest
  expectedProjectRef := text "project_contract001"
  expectedBuildSessionRef := text "bsn:aaaaaaaaaaaaaaaaaaaaaaaaaaaaaaaaaaaaaaaaaaa"
  issuerKey := sampleKey
  processRecordDigest_shape := by decide
  projectRef_shape := by decide
  buildSessionRef_shape := by decide
  issuerKey_wellFormed := by
    have hdigest : isSha256Text sampleKey.publicKeyDigest = true := isSha256Text_sha256Text _ _
    have hothers : isRef sampleKey.keyRef = true ∧ isRef sampleKey.trustRingRef = true ∧
        isLiteralOf ["ed25519", "ecdsa_p256_sha256"] sampleKey.algorithm = true ∧
        sampleKey.publicKeyDerB64.isEmpty = false := ⟨by decide, by decide, by decide, rfl⟩
    simp [LinkageIssuerKey.wellFormed, hdigest, hothers]

theorem envelopeSchema_sampleEnvelope : envelopeSchema sampleEnvelope = true := by
  have hpattern : ∀ material, hasPattern isSha256Text
      (strValue (sha256Text neutralPlatform material)) = true := by
    intro material
    rw [hasPattern, isStr_iff]
    exact ⟨_, rfl, by rw [isSha256Text_sha256Text, Bool.true_or]⟩
  have hcommitment : hasPattern isSha256Text (agentEntry.field "commitment") = true :=
    hpattern _
  have hagent : entrySchema agentEntry = true := by
    simp only [entrySchema, hcommitment]
    rfl
  have hunavailable : entrySchema unavailableEntry = true := by
    decide +kernel
  have hentries : sampleUnsigned.field "entries" = .list [agentEntry, unavailableEntry] := rfl
  have hunsigned : unsignedLinkageSchema sampleUnsigned = true := by
    simp only [unsignedLinkageSchema, hentries, List.all_cons, hagent, hunavailable]
    rfl
  have hdigest : hasPattern isSha256Text (sampleSignature.field "unsigned_linkage_digest") =
      true := hpattern _
  have hsignature : signatureSchema sampleSignature = true := by
    simp only [signatureSchema, hdigest]
    rfl
  have hparts : sampleEnvelope.field "unsigned_linkage" = sampleUnsigned ∧
      sampleEnvelope.field "signature" = sampleSignature := ⟨rfl, rfl⟩
  simp only [envelopeSchema, hparts, hunsigned, hsignature]
  rfl

theorem canonicalizable_sampleUnsigned : Canonicalizable sampleUnsigned := by
  have hagent : Document PlainAtom 1 agentEntry := by
    apply document_object (by simp)
    simp only [List.forall_mem_cons]
    exact ⟨document_str _, document_str _, document_str _,
      document_text (encodable_sha256Text neutralPlatform _), by simp⟩
  have hunavailable : Document PlainAtom 1 unavailableEntry := by
    apply document_object (by simp)
    simp only [List.forall_mem_cons]
    exact ⟨document_str _, document_str _, document_str _, by simp⟩
  have hdocument : Document PlainAtom 3 sampleUnsigned := by
    apply document_object (by simp)
    simp only [List.forall_mem_cons]
    refine ⟨document_str _, document_text (by decide), document_str _, document_str _,
      document_list ?_, by simp⟩
    simpa using ⟨hagent, hunavailable⟩
  exact hdocument.canonicalizable_of_plain (by decide)

theorem checkSignature_sample :
    checkSignature neutralPlatform sampleUnsigned sampleSignature sampleKey = .ok () := by
  have hkey : materialPublicKey neutralPlatform sampleKey.projection issuerSpkiDomain =
      .ok sampleIssuer.key := by
    have hecdsa : strValue (text "ed25519") ≠ ecdsaName := fun heq =>
      absurd (strValue_inj.mp heq) (by decide)
    apply materialPublicKey_eq_ok_iff.mpr
    exact ⟨sampleIssuer.der, rfl, sampleIssuer.load_der, sampleIssuer.publicBytes_key, rfl,
      _, rfl, fun _ => rfl, fun halgorithm => absurd halgorithm hecdsa⟩
  have hcanonical : canonicalUtf8 neutralPlatform sampleUnsigned =
      .ok (utf8 (Fp2.canonicalText neutralPlatform.float sampleUnsigned)) :=
    (canonicalUtf8_eq_ok_iff neutralPlatform).mpr ⟨canonicalizable_sampleUnsigned, rfl⟩
  have hverified := sampleIssuer.verifies (rolePreimage neutralPlatform
    "traigent.commitment_linkage.issuer_signature.v1" sampleUnsigned)
  have hmember : ∀ name v, sampleSignature.member name = some v →
      CommitmentLinkage.index sampleSignature name = .ok v :=
    fun name v hv => index_eq_ok_iff.mpr hv
  have hascii : isAscii sampleKey.publicKeyDerB64 = true ∧
      isAscii sampleKey.publicKeyDigest = true :=
    ⟨by decide, isAscii_sha256Text (isSha256Text_sha256Text _ _)⟩
  have hnames : pyEq (.str "issuerkey:cccccccc") (strValue sampleKey.keyRef) = true ∧
      pyEq (.str "trustring:dddddddd") (strValue sampleKey.trustRingRef) = true ∧
      pyEq (.str "ed25519") (strValue sampleKey.algorithm) = true :=
    ⟨pyEq_strValue.mpr rfl, pyEq_strValue.mpr rfl, pyEq_strValue.mpr rfl⟩
  have hpinned : (pyEq (.str "issuerkey:cccccccc") (strValue sampleKey.keyRef) &&
      pyEq (.str "trustring:dddddddd") (strValue sampleKey.trustRingRef) &&
      pyEq (.str "ed25519") (strValue sampleKey.algorithm)) = true := by
    simp only [hnames, Bool.and_self]
  have hmaterial : verifySignature neutralPlatform sampleIssuer.key (.str "ed25519")
      (preimage "traigent.commitment_linkage.issuer_signature.v1"
        (utf8 (Fp2.canonicalText neutralPlatform.float sampleUnsigned)))
      (sampleIssuer.signature "traigent.commitment_linkage.issuer_signature.v1" sampleUnsigned) =
        .ok () := hverified
  unfold checkSignature
  refine bind_eq_ok_iff.mpr ⟨_, hmember "issuer_key_ref" _ rfl, bind_eq_ok_iff.mpr
    ⟨_, hmember "trust_ring_ref" _ rfl, bind_eq_ok_iff.mpr ⟨_, hmember "algorithm" _ rfl, ?_⟩⟩⟩
  refine bind_eq_ok_iff.mpr ⟨(), check_eq_ok_iff.mpr hpinned, bind_eq_ok_iff.mpr
    ⟨(), check_eq_ok_iff.mpr (Bool.and_eq_true_iff.mpr hascii), ?_⟩⟩
  refine bind_eq_ok_iff.mpr ⟨_, congrArg (orRefusedWith · "KEY_MATERIAL") hkey,
    bind_eq_ok_iff.mpr ⟨_, congrArg (orFailWith · "CANONICALIZATION") hcanonical, ?_⟩⟩
  exact bind_eq_ok_iff.mpr ⟨_, hmember "signature" _ rfl,
    congrArg (orRefusedWith · "SIGNATURE_INVALID") hmaterial⟩

/-- The verifier accepts the sidecar. -/
theorem verifyCommitmentLinkage_sample :
    ∃ linkage, verifyCommitmentLinkage neutralPlatform sampleEnvelope sampleContext =
      .ok linkage := by
  have hdigest : roleDigest neutralPlatform "traigent.commitment_linkage.unsigned.v1"
      sampleUnsigned = .ok (digestValue neutralPlatform
        "traigent.commitment_linkage.unsigned.v1" sampleUnsigned) :=
    (roleDigest_eq_ok_iff neutralPlatform).mpr ⟨canonicalizable_sampleUnsigned, rfl⟩
  have hindex : ∀ {document : PyValue} {name : String} {v : PyValue},
      document.member name = some v → CommitmentLinkage.index document name = .ok v :=
    fun hv => index_eq_ok_iff.mpr hv
  have hdict : check sampleEnvelope.isDict "ENVELOPE_SHAPE" = .ok () := rfl
  have hunsigned : CommitmentLinkage.index sampleEnvelope "unsigned_linkage" =
      .ok sampleUnsigned := hindex rfl
  have hsignature : CommitmentLinkage.index sampleEnvelope "signature" = .ok sampleSignature :=
    hindex rfl
  have hentries : entriesOf sampleUnsigned = .ok [agentEntry, unavailableEntry] := rfl
  have hroles : [agentEntry, unavailableEntry].mapM
      (fun entry => CommitmentLinkage.index entry "role") =
        .ok [.str "agent", .str "config_space"] := rfl
  have hknown : [PyValue.str "agent", .str "config_space"].all (isStr (isLiteralOf roles)) =
      true := rfl
  have hdistinct : decide ([PyValue.str "agent", .str "config_space"].map strText).Nodup = true :=
    by decide
  have hstated : pyEq (sampleSignature.field "unsigned_linkage_digest") (digestValue
      neutralPlatform "traigent.commitment_linkage.unsigned.v1" sampleUnsigned) = true :=
    pyEq_strValue.mpr rfl
  have hrecord : CommitmentLinkage.index sampleUnsigned "process_record_digest" =
      .ok (strValue sampleRecordDigest) := hindex rfl
  have hbound : pyEq (strValue sampleRecordDigest)
      (strValue sampleContext.expectedProcessRecordDigest) = true := pyEq_strValue.mpr rfl
  have hscope : (pyEq (sampleUnsigned.field "project_ref")
      (strValue sampleContext.expectedProjectRef) &&
      pyEq (sampleUnsigned.field "build_session_ref")
        (strValue sampleContext.expectedBuildSessionRef)) = true := by
    rw [Bool.and_eq_true]
    exact ⟨pyEq_strValue.mpr rfl, pyEq_strValue.mpr rfl⟩
  have hrows : [agentEntry, unavailableEntry].mapM entryRow =
      .ok [rowOf agentEntry, rowOf unavailableEntry] := rfl
  refine ⟨⟨strValue sampleRecordDigest, digestValue neutralPlatform
    "traigent.commitment_linkage.unsigned.v1" sampleUnsigned,
    [rowOf agentEntry, rowOf unavailableEntry]⟩, ?_⟩
  unfold verifyCommitmentLinkage verify
  refine bind_eq_ok_iff.mpr ⟨(), hdict, bind_eq_ok_iff.mpr
    ⟨(), check_eq_ok_iff.mpr envelopeSchema_sampleEnvelope, ?_⟩⟩
  refine bind_eq_ok_iff.mpr ⟨_, hunsigned, bind_eq_ok_iff.mpr ⟨_, hsignature, ?_⟩⟩
  refine bind_eq_ok_iff.mpr ⟨_, hentries, bind_eq_ok_iff.mpr ⟨_, hroles, ?_⟩⟩
  refine bind_eq_ok_iff.mpr ⟨(), check_eq_ok_iff.mpr hknown, bind_eq_ok_iff.mpr
    ⟨(), check_eq_ok_iff.mpr hdistinct, ?_⟩⟩
  refine bind_eq_ok_iff.mpr ⟨_, congrArg (orFailWith · "CANONICALIZATION") hdigest,
    bind_eq_ok_iff.mpr ⟨(), check_eq_ok_iff.mpr hstated, ?_⟩⟩
  refine bind_eq_ok_iff.mpr ⟨(), checkSignature_sample, bind_eq_ok_iff.mpr ⟨_, hrecord, ?_⟩⟩
  refine bind_eq_ok_iff.mpr ⟨(), check_eq_ok_iff.mpr hbound, bind_eq_ok_iff.mpr
    ⟨(), check_eq_ok_iff.mpr hscope, ?_⟩⟩
  exact bind_eq_ok_iff.mpr ⟨_, hrows, rfl⟩

/-- The agent is opened by its fingerprint and opening, and nothing is committed to for the
configuration space. -/
theorem opening_is_binding_sample :
    verifyAndOpenCommitment neutralPlatform sampleEnvelope sampleContext (strValue (text "agent"))
        (strValue sampleFingerprint) (some sampleOpening) = .ok .openedMatch ∧
      verifyAndOpenCommitment neutralPlatform sampleEnvelope sampleContext
        (strValue (text "config_space")) (strValue sampleFingerprint) (some sampleOpening) =
        .ok .unavailable := by
  obtain ⟨linkage, hverified⟩ := verifyCommitmentLinkage_sample
  have hdecided := ((opening_is_binding neutralPlatform).2.1 _ _ _ hverified).2.1
  constructor
  · obtain ⟨outcome, hopened, houtcome⟩ := hdecided (text "agent") sampleFingerprint sampleOpening
      ⟨by decide, by decide, by decide⟩
    have hmatch : outcome = .openedMatch := by
      apply houtcome.openedMatch_iff.mpr
      refine ⟨agentEntry, rfl, fun huncommitted => ?_, ?_⟩
      · exact absurd (strValue_inj.mp huncommitted) (by decide)
      · refine ⟨_, computeCommitment_eq_ok_iff.mpr ⟨text "agent", text "name_only",
          sampleFingerprint, sampleOpening, rfl, rfl, rfl, rfl, ?_, rfl⟩, rfl⟩
        exact ⟨by decide, by decide, by decide, by decide, by decide⟩
    rw [hopened, hmatch]
  · obtain ⟨outcome, hopened, houtcome⟩ := hdecided (text "config_space") sampleFingerprint
      sampleOpening ⟨by decide, by decide, by decide⟩
    have hunavailable : outcome = .unavailable := by
      apply houtcome.unavailable_iff.mpr
      exact Or.inr ⟨unavailableEntry, rfl, fun hcommitted => hcommitted rfl⟩
    rw [hopened, hunavailable]

end TraigentSchema.CommitmentLinkage
