import TraigentSchema.Fp2.Encoder

/-!
# The encoder meets the recursive definition

A recursive reader of the object graph stands between the loop and the recursive
definition on trees.  The loop does what the reader does as long as every open
container reaches the value it is about to encode, and the reader answers exactly
when the graph unfolds to a supported tree.
-/

namespace TraigentSchema.Fp2

open TraigentSchema.Unicode
open TraigentSchema.JsonText (commaSeparated arrayText comma leftBrace rightBrace)
open TraigentSchema.Python
open TraigentSchema.SortedBy
open TraigentSchema.Traverse
open TraigentSchema.VariantLoop

variable {A : Type} (float : FloatRepr) (h : Heap A)

/-- A member with its value replaced by the value's text. -/
def encodeMember (encodeValue : Ref A → Option Text) (member : Key × Ref A) :
    Option (Key × Text) :=
  (encodeValue member.2).map (Prod.mk member.1)

/-- The canonical text below a reference, opening at most `n` nested
containers. -/
def encodeAt : (n : ℕ) → Ref A → Option Text
  | _, .atom x => if SupportedAtom x then some (atomText float x) else none
  | 0, .node _ => none
  | n + 1, .node a =>
      match h a with
      | .list items => (items.mapM (encodeAt n)).map arrayText
      | .dict members =>
          if ∀ member ∈ members.items, PlainKey member.1 then
            ((sortedMembers members.items).mapM (encodeMember (encodeAt n))).map
              fun texts => leftBrace ::
                (commaSeparated (texts.map memberText) ++ [rightBrace])
          else none

variable {float h}

@[simp]
theorem encodeAt_atom (n : ℕ) (x : Atom) :
    encodeAt float h n (.atom x) =
      if SupportedAtom x then some (atomText float x) else none := by
  cases n <;> rfl

theorem encodeMember_eq_some_iff {encodeValue : Ref A → Option Text}
    {member : Key × Ref A} {encoded : Key × Text} :
    encodeMember encodeValue member = some encoded ↔
      member.1 = encoded.1 ∧ encodeValue member.2 = some encoded.2 := by
  obtain ⟨key, literal⟩ := encoded
  simp only [encodeMember, Option.map_eq_some_iff, Prod.mk.injEq]
  exact ⟨fun ⟨_, hvalue, hkey, hliteral⟩ => ⟨hkey, hliteral ▸ hvalue⟩,
    fun ⟨hkey, hvalue⟩ => ⟨literal, hvalue, hkey, rfl⟩⟩

/-! ## The reader and the tree -/

theorem encodeAt_of_unfold {n : ℕ} {r : Ref A} {v : PyValue}
    (hunfold : unfold h n r = some v) (hsupported : Supported v) :
    encodeAt float h n r = some (canonicalText float v) := by
  induction n generalizing r v with
  | zero =>
      cases r with
      | atom x =>
          obtain rfl : Tree.leaf x = v := by simpa using hunfold
          simpa using hsupported
      | node a => simp at hunfold
  | succ n ih =>
      cases r with
      | atom x =>
          obtain rfl : Tree.leaf x = v := by simpa using hunfold
          simpa using hsupported
      | node a =>
          cases hnode : h a with
          | list items =>
              obtain ⟨values, rfl, hvalues⟩ := (unfold_list hnode n v).mp hunfold
              rw [supported_list] at hsupported
              have htexts : items.mapM (encodeAt float h n) =
                  some (values.map (canonicalText float)) := by
                rw [mapM_eq_some_iff, List.forall₂_map_right_iff]
                exact forall₂_imp_of_mem hvalues fun _ _ value hvalue hitem =>
                  ih hitem (hsupported value hvalue)
              simp [encodeAt, hnode, htexts]
          | dict members =>
              obtain ⟨values, rfl, hvalues⟩ := (unfold_dict hnode n v).mp hunfold
              rw [supported_dict] at hsupported
              have hplain : ∀ member ∈ members.items, PlainKey member.1 := by
                intro member hmember
                obtain ⟨value, hvalue, hkey, -⟩ := exists_of_mem_left hvalues hmember
                exact hkey ▸ (hsupported value hvalue).1
              have hmembers : List.Forall₂ (fun member encoded =>
                  encodeMember (encodeAt float h n) member = some encoded)
                  members.items
                  (values.map fun value => (value.1, canonicalText float value.2)) := by
                rw [List.forall₂_map_right_iff]
                exact forall₂_imp_of_mem hvalues fun _ _ value hvalue hmember =>
                  encodeMember_eq_some_iff.mpr
                    ⟨hmember.1, ih hmember.2 (hsupported value hvalue).2⟩
              have htexts := mapM_eq_some_iff.mpr (forall₂_sortedBy
                (fun member : Key × Ref A => utf16BigEndian (keyText member.1))
                (fun member : Key × Text => utf16 (keyText member.1))
                hmembers fun hleft hright => by
                  rw [(encodeMember_eq_some_iff.mp hleft).1,
                    (encodeMember_eq_some_iff.mp hright).1, utf16BigEndian_le_iff])
              simp [encodeAt, hnode, if_pos hplain, sortedMembers, htexts, objectText]

theorem admitsWithin_of_encodeAt {n : ℕ} {r : Ref A} {literal : Text}
    (hencode : encodeAt float h n r = some literal) :
    AdmitsWithin h SupportedAtom PlainKey n r := by
  induction n generalizing r literal with
  | zero =>
      cases r with
      | atom x => exact admitsWithin_atom.mpr (Option.ite_none_right_eq_some.mp hencode).1
      | node a => simp [encodeAt] at hencode
  | succ n ih =>
      cases r with
      | atom x => exact admitsWithin_atom.mpr (Option.ite_none_right_eq_some.mp hencode).1
      | node a =>
          rw [admitsWithin_node]
          cases hnode : h a with
          | list items =>
              simp only [encodeAt, hnode, Option.map_eq_some_iff,
                mapM_eq_some_iff] at hencode
              obtain ⟨texts, htexts, -⟩ := hencode
              refine ⟨trivial, fun item hitem => ?_⟩
              obtain ⟨literal, -, hliteral⟩ := exists_of_mem_left htexts hitem
              exact ih hliteral
          | dict members =>
              simp only [encodeAt, hnode] at hencode
              split_ifs at hencode with hplain
              simp only [Option.map_eq_some_iff, mapM_eq_some_iff] at hencode
              obtain ⟨texts, htexts, -⟩ := hencode
              refine ⟨hplain, fun r hr => ?_⟩
              obtain ⟨member, hmember, rfl⟩ := List.mem_map.mp hr
              obtain ⟨encoded, -, hencoded⟩ :=
                exists_of_mem_left htexts (mem_sortedBy.mpr hmember)
              exact ih (encodeMember_eq_some_iff.mp hencoded).2

/-- The reader answers exactly on the graphs that unfold, within the bound, to a
supported tree. -/
theorem encodeAt_eq_some_iff {n : ℕ} {r : Ref A} {literal : Text} :
    encodeAt float h n r = some literal ↔
      ∃ v, unfold h n r = some v ∧ Supported v ∧ literal = canonicalText float v := by
  constructor
  · intro hencode
    obtain ⟨v, hunfold, hsupported⟩ := admitsWithin_of_encodeAt hencode
    have heq := hencode.symm.trans (encodeAt_of_unfold hunfold hsupported)
    exact ⟨v, hunfold, hsupported, Option.some.inj heq⟩
  · rintro ⟨v, hunfold, hsupported, rfl⟩
    exact encodeAt_of_unfold hunfold hsupported

/-! ## The loop and the reader -/

theorem encodeAt_of_cycle {n : ℕ} {a : A} (hreach : Reaches h a (.node a)) :
    encodeAt float h n (.node a) = none := by
  rw [Option.eq_none_iff_forall_ne_some]
  intro literal hencode
  obtain ⟨v, hunfold, -, -⟩ := encodeAt_eq_some_iff.mp hencode
  exact not_unfolds_of_reaches hreach ⟨n, hunfold⟩

variable [DecidableEq A]

/-- What the rest of the walk gives from a state, errors forgotten. -/
def rest (float : FloatRepr) (h : Heap A) (out : Text) (openContainers : Finset A)
    (work : List (Work A)) : Option Text :=
  (run (encodeLoop float h) ⟨out, openContainers, work⟩).toOption

section Steps

variable {out : Text} {openContainers : Finset A} {work : List (Work A)}

@[simp]
theorem rest_nil : rest float h out openContainers [] = some out := by
  have hexit : (encodeLoop float h).step ⟨out, openContainers, []⟩ = .ok (.inr out) :=
    rfl
  rw [rest, run_of_exit _ hexit, toOption_ok]

theorem rest_of_step {out' : Text} {openContainers' : Finset A} {work' : List (Work A)}
    (hstep : encodeStep float h ⟨out, openContainers, work⟩ =
      .ok (.inl ⟨out', openContainers', work'⟩)) :
    rest float h out openContainers work = rest float h out' openContainers' work' :=
  congrArg Except.toOption (run_of_step (encodeLoop float h) hstep)

@[simp]
theorem rest_emit (literal : Text) :
    rest float h out openContainers (.emit literal :: work) =
      rest float h (out ++ literal) openContainers work := by
  exact rest_of_step rfl

@[simp]
theorem rest_close (identity : A) :
    rest float h out openContainers (.close identity :: work) =
      rest float h out (openContainers.erase identity) work := by
  exact rest_of_step rfl

theorem rest_of_error {entry : Work A} {e : Raised}
    (hstep : encodeStep float h ⟨out, openContainers, entry :: work⟩ = .error e) :
    rest float h out openContainers (entry :: work) = none := by
  rw [rest, run_of_error (encodeLoop float h) hstep, toOption_error]

theorem rest_atom (x : Atom) (depth : ℕ) :
    rest float h out openContainers (.value (.atom x) depth :: work) =
      (if SupportedAtom x then some (atomText float x) else none).bind fun literal =>
        rest float h (out ++ literal) openContainers work := by
  by_cases hx : SupportedAtom x
  · have hstep : encodeStep float h
        ⟨out, openContainers, .value (.atom x) depth :: work⟩ =
          .ok (.inl ⟨out ++ atomText float x, openContainers, work⟩) := by
      simp [encodeStep, encodeScalar_of_supported float hx]
    rw [rest_of_step hstep, if_pos hx, Option.bind_some]
  · rw [if_neg hx, Option.bind_none]
    rcases encodeScalar_of_not_supported float hx with ⟨message, herror⟩ | ⟨o, rfl⟩
    · exact rest_of_error (e := .fp2UnsupportedValue message)
        (by simp [encodeStep, herror])
    · exact rest_of_error (e := raiseNaming "unsupported type: " o.typeName)
        (by simp [encodeStep, encodeScalar, Atom.typeName])

theorem rest_itemEntries {n depth : ℕ} (items : List (Ref A))
    (hvalue : ∀ item ∈ items, ∀ out work,
      rest float h out openContainers (.value item (depth + 1) :: work) =
        (encodeAt float h n item).bind fun literal =>
          rest float h (out ++ literal) openContainers work)
    (index : ℕ) (out : Text) :
    rest float h out openContainers (itemEntries depth index items ++ work) =
      (items.mapM (encodeAt float h n)).bind fun texts =>
        rest float h (out ++ if index = 0 then commaSeparated texts
          else texts.flatMap fun other => comma :: other) openContainers work := by
  induction items generalizing index out with
  | nil => simp [itemEntries, commaSeparated]
  | cons item items ih =>
      have hrest := ih fun i hi => hvalue i (List.mem_cons_of_mem _ hi)
      have hcomma : ∀ pending, rest float h out openContainers
          ((if index = 0 then [] else [.emit (text ",")]) ++ pending) =
            rest float h (out ++ if index = 0 then [] else text ",")
              openContainers pending := by
        intro pending
        split_ifs <;> simp
      rw [itemEntries, List.append_assoc, hcomma, List.cons_append,
        hvalue item (by simp), List.mapM_cons]
      cases hitem : encodeAt float h n item with
      | none => simp
      | some literal =>
          simp only [Option.bind_some, hrest, Option.bind_eq_bind]
          cases items.mapM (encodeAt float h n) with
          | none => simp
          | some texts =>
              by_cases hindex : index = 0 <;> simp [hindex, commaSeparated]

theorem rest_memberWork {n depth : ℕ} (members : List (Key × Ref A))
    (hvalue : ∀ member ∈ members, ∀ out work,
      rest float h out openContainers (.value member.2 (depth + 1) :: work) =
        (encodeAt float h n member.2).bind fun literal =>
          rest float h (out ++ literal) openContainers work)
    (index : ℕ) (out : Text) :
    rest float h out openContainers (memberWork depth index members ++ work) =
      (members.mapM (encodeMember (encodeAt float h n))).bind fun texts =>
        rest float h (out ++ if index = 0 then commaSeparated (texts.map memberText)
          else (texts.map memberText).flatMap fun other => comma :: other)
          openContainers work := by
  induction members generalizing index out with
  | nil => simp [memberWork, commaSeparated]
  | cons member members ih =>
      have hrest := ih fun m hm => hvalue m (List.mem_cons_of_mem _ hm)
      have hcomma : ∀ pending, rest float h out openContainers
          ((if index = 0 then [] else [.emit (text ",")]) ++ pending) =
            rest float h (out ++ if index = 0 then [] else text ",")
              openContainers pending := by
        intro pending
        split_ifs <;> simp
      rw [memberWork, List.append_assoc, hcomma, List.cons_append, List.cons_append,
        rest_emit, hvalue member (by simp), List.mapM_cons]
      cases hitem : encodeAt float h n member.2 with
      | none => simp [encodeMember, hitem]
      | some literal =>
          simp only [encodeMember, hitem, Option.bind_some, hrest,
            Option.bind_eq_bind, Option.map_some]
          cases members.mapM (encodeMember (encodeAt float h n)) with
          | none => simp
          | some texts =>
              by_cases hindex : index = 0 <;>
                simp [hindex, commaSeparated, memberText]

end Steps

/-- Encoding one value: the loop emits the value's canonical text and leaves the
open set as it was. -/
theorem rest_value {n depth : ℕ} {r : Ref A} {openContainers : Finset A}
    (hn : maxDepth + 1 - depth = n)
    (hopen : ∀ b ∈ openContainers, Reaches h b r) (out : Text)
    (work : List (Work A)) :
    rest float h out openContainers (.value r depth :: work) =
      (encodeAt float h n r).bind fun literal =>
        rest float h (out ++ literal) openContainers work := by
  induction n generalizing r depth openContainers out work with
  | zero =>
      cases r with
      | atom x => rw [rest_atom, encodeAt_atom]
      | node a =>
          have hdeep : maxDepth < depth := by omega
          exact rest_of_error (e := .fp2UnsupportedValue _)
            (by simp [encodeStep, openContainer, hdeep]; rfl)
  | succ n ih =>
      cases r with
      | atom x => rw [rest_atom, encodeAt_atom]
      | node a =>
          have hdepth : ¬ maxDepth < depth := by omega
          have hchild : maxDepth + 1 - (depth + 1) = n := by omega
          by_cases hmem : a ∈ openContainers
          · rw [encodeAt_of_cycle (hopen a hmem)]
            exact rest_of_error (e := .fp2UnsupportedValue "circular reference")
              (by simp [encodeStep, openContainer, hdepth, hmem])
          have hinsert : ∀ r ∈ (h a).children, ∀ b ∈ insert a openContainers,
              Reaches h b r := by
            intro r hr b hb
            rcases Finset.mem_insert.mp hb with rfl | hb
            · exact .of_child hr
            · exact (hopen b hb).child hr
          have hclose : (insert a openContainers).erase a = openContainers :=
            Finset.erase_insert hmem
          cases hnode : h a with
          | list items =>
              rw [hnode] at hinsert
              have hstep : encodeStep float h
                  ⟨out, openContainers, .value (.node a) depth :: work⟩ =
                    .ok (.inl ⟨out ++ text "[", insert a openContainers,
                      listChildren items depth ++ .close a :: work⟩) := by
                simp [encodeStep, openContainer, hdepth, hmem, hnode]
              rw [rest_of_step hstep, listChildren, List.append_assoc,
                rest_itemEntries (n := n) items
                  fun item hitem => ih hchild (hinsert item hitem)]
              simp only [encodeAt, hnode, ↓reduceIte]
              cases items.mapM (encodeAt float h n) with
              | none => simp
              | some texts => simp [hclose, arrayText]
          | dict members =>
              rw [hnode] at hinsert
              by_cases hplain : ∀ member ∈ members.items, PlainKey member.1
              · have hstep : encodeStep float h
                    ⟨out, openContainers, .value (.node a) depth :: work⟩ =
                      .ok (.inl ⟨out ++ text "\x7b", insert a openContainers,
                        memberWork depth 0 (sortedMembers members.items) ++
                          [.emit (text "\x7d")] ++ .close a :: work⟩) := by
                  simp [encodeStep, openContainer, hdepth, hmem, hnode,
                    dictChildren_of_plain hplain]
                rw [rest_of_step hstep, List.append_assoc,
                  rest_memberWork (n := n) (sortedMembers members.items)
                    fun member hmember => ih hchild (hinsert member.2
                      (List.mem_map_of_mem (mem_sortedBy.mp hmember)))]
                simp only [encodeAt, hnode, if_pos hplain, ↓reduceIte]
                cases (sortedMembers members.items).mapM
                    (encodeMember (encodeAt float h n)) with
                | none => simp
                | some texts => simp [hclose]
              · obtain ⟨e, he⟩ := dictChildren_of_not_plain hplain depth
                simp only [encodeAt, hnode, if_neg hplain, Option.bind_none]
                exact rest_of_error (e := e)
                  (by simp [encodeStep, openContainer, hdepth, hmem, hnode, he])

/-- The encoder answers as the recursive definition does. -/
theorem encode_toOption (root : Ref A) :
    (encode float h root).toOption = encodeAt float h maxDepth root := by
  have hvalue : rest float h [] ∅ [.value root 1] =
      (encodeAt float h maxDepth root).bind fun literal => rest float h literal ∅ [] :=
    rest_value rfl (by simp) [] []
  have hencode : rest float h [] ∅ [.value root 1] =
      (encode float h root).toOption := rfl
  simpa [hencode] using hvalue

end TraigentSchema.Fp2
