import Mathlib.Data.List.Infix
import Mathlib.Logic.Function.Basic

/-!
# File trees

A file system without links, as what stands at each absolute path, and the calls that make
directories and files.  A call that fails part of the way leaves behind what it has made.
-/

namespace TraigentSchema.FileTree

/-- What stands at a path. -/
inductive Node (B : Type) where
  | directory
  | file (content : B)
  deriving DecidableEq

abbrev Files (N B : Type) := List N → Option (Node B)

/-- How a call fails. -/
inductive OsError where
  | fileExists
  | notFound
  | notDirectory
  deriving DecidableEq, Repr

/-- How a sequence of calls ends, and the tree it leaves. -/
structure Outcome (E T : Type) where
  tree : T
  error : Option E

variable {N B : Type} [DecidableEq N]

/-! ## Calls -/

/-- Goes through the directories on the way to `front ++ rest`, from `front` on. -/
def walk (t : Files N B) (front : List N) : (rest : List N) → Except OsError Unit
  | [] => .ok ()
  | name :: rest =>
      match t front with
      | none => .error .notFound
      | some (.file _) => .error .notDirectory
      | some .directory => walk t (front ++ [name]) rest

/-- Puts a node where nothing stands, in a directory that is there. -/
def add (t : Files N B) (path : List N) (node : Node B) :
    Except OsError (Files N B) :=
  match walk t [] path with
  | .error error => .error error
  | .ok () =>
      match t path with
      | some _ => .error .fileExists
      | none => .ok (Function.update t path (some node))

def mkdir (t : Files N B) (path : List N) : Except OsError (Files N B) :=
  add t path .directory

/-- Opens a file for exclusive creation and writes it. -/
def create (t : Files N B) (path : List N) (content : B) :
    Except OsError (Files N B) :=
  add t path (.file content)

def isDirectory (t : Files N B) (path : List N) : Bool :=
  match t path with
  | some .directory => true
  | _ => false

/-- `Path.mkdir` with `exist_ok`, after a call of `mkdir` that did not fail for want of a
parent. -/
def existOk (t : Files N B) (path : List N) (made : Except OsError (Files N B)) :
    Outcome OsError (Files N B) :=
  match made with
  | .ok t' => ⟨t', none⟩
  | .error .notFound => ⟨t, some .notFound⟩
  | .error error => if isDirectory t path then ⟨t, none⟩ else ⟨t, some error⟩

/-- `Path.mkdir` with `parents` and `exist_ok`. -/
def mkdirParents (t : Files N B) (path : List N) : Outcome OsError (Files N B) :=
  match mkdir t path with
  | .error .notFound =>
      if _hroot : path = [] then ⟨t, some .notFound⟩
      else
        let above := mkdirParents t path.dropLast
        match above.error with
        | some _ => above
        | none => existOk above.tree path (mkdir above.tree path)
  | made => existOk t path made
termination_by path.length
decreasing_by
  rw [List.length_dropLast]
  exact Nat.sub_lt (List.length_pos_of_ne_nil _hroot) Nat.one_pos

/-! ## What they do -/

/-- Every directory on the way to a path is there. -/
def HasParents (t : Files N B) (path : List N) : Prop :=
  ∀ q, q <+: path → q ≠ path → t q = some .directory

/-- No file stands on the way to a path, nor at it. -/
def Clear (t : Files N B) (path : List N) : Prop :=
  ∀ q, q <+: path → ∀ content, t q ≠ some (.file content)

/-- The tree with directories all the way to a path. -/
def withDirectories (t : Files N B) (path : List N) : Files N B := fun q =>
  if q <+: path then some .directory else t q

omit [DecidableEq N] in
theorem walk_of_hasParents {t : Files N B} {front rest : List N}
    (hparents : ∀ q, q <+: rest → q ≠ rest → t (front ++ q) = some .directory) :
    walk t front rest = .ok () := by
  induction rest generalizing front with
  | nil => rfl
  | cons name rest ih =>
      have hhere : t front = some .directory := by
        simpa using hparents [] List.nil_prefix (List.cons_ne_nil _ _).symm
      rw [walk, hhere]
      apply ih
      intro q hq hne
      have hdeeper := hparents (name :: q) (List.cons_prefix_cons.mpr ⟨rfl, hq⟩)
        fun heq => hne (List.cons.inj heq).2
      rwa [List.append_assoc]

omit [DecidableEq N] in
theorem walk_of_clear {t : Files N B} {front rest : List N}
    (hclear : ∀ q, q <+: rest → ∀ content, t (front ++ q) ≠ some (.file content)) :
    (∀ q, q <+: rest → q ≠ rest → t (front ++ q) = some .directory) ∨
      walk t front rest = .error .notFound ∧ rest ≠ [] := by
  induction rest generalizing front with
  | nil => exact Or.inl fun q hq hne => absurd (List.prefix_nil.mp hq) hne
  | cons name rest ih =>
      rw [walk]
      cases hhere : t front with
      | none => exact Or.inr ⟨rfl, List.cons_ne_nil _ _⟩
      | some node =>
          cases node with
          | file content =>
              have hfile := hclear [] List.nil_prefix content
              rw [List.append_nil] at hfile
              exact absurd hhere hfile
          | directory =>
              have hdeeper : ∀ q, q <+: rest → ∀ content,
                  t (front ++ [name] ++ q) ≠ some (.file content) := by
                intro q hq
                rw [List.append_assoc]
                exact hclear (name :: q) (List.cons_prefix_cons.mpr ⟨rfl, hq⟩)
              rcases ih hdeeper with hparents | ⟨hmissing, -⟩
              · refine Or.inl fun q hq hne => ?_
                cases q with
                | nil => rwa [List.append_nil]
                | cons name' q =>
                    obtain ⟨rfl, hrest⟩ := List.cons_prefix_cons.mp hq
                    have hat := hparents q hrest fun heq => hne (heq ▸ rfl)
                    rwa [List.append_assoc] at hat
              · exact Or.inr ⟨hmissing, List.cons_ne_nil _ _⟩

omit [DecidableEq N] in
theorem HasParents.walk_eq {t : Files N B} {path : List N} (hparents : HasParents t path) :
    walk t [] path = .ok () := by
  have hrooted : ∀ q, q <+: path → q ≠ path → t ([] ++ q) = some .directory := hparents
  exact walk_of_hasParents hrooted

theorem add_eq {t : Files N B} {path : List N} {node : Node B}
    (hparents : HasParents t path) (habsent : t path = none) :
    add t path node = .ok (Function.update t path (some node)) := by
  rw [add, hparents.walk_eq]
  dsimp only
  rw [habsent]

/-- In a directory that is there, a directory is made or found. -/
theorem existOk_mkdir {t : Files N B} {path : List N} (hparents : HasParents t path)
    (hclear : ∀ content, t path ≠ some (.file content)) :
    existOk t path (mkdir t path) = ⟨withDirectories t path, none⟩ := by
  have htree : ∀ q, q <+: path → q ≠ path → t q = some .directory := hparents
  cases hpath : t path with
  | none =>
      rw [mkdir, add_eq hparents hpath, existOk]
      congr 1
      funext q
      by_cases hq : q = path
      · simp [hq, withDirectories]
      · by_cases hpre : q <+: path
        · simp [withDirectories, hq, hpre, htree q hpre hq]
        · simp [withDirectories, hq, hpre]
  | some node =>
      cases node with
      | file content => exact absurd hpath (hclear content)
      | directory =>
          have hmade : mkdir t path = .error .fileExists := by
            rw [mkdir, add, hparents.walk_eq]
            dsimp only
            rw [hpath]
          have hfound : isDirectory t path = true := by
            rw [isDirectory, hpath]
          simp only [hmade, existOk, hfound, if_true]
          congr 1
          funext q
          by_cases hpre : q <+: path
          · by_cases hq : q = path
            · simp [withDirectories, hq, hpath]
            · simp [withDirectories, hpre, htree q hpre hq]
          · simp [withDirectories, hpre]

omit [DecidableEq N] in
theorem prefix_dropLast_of_ne {q path : List N} (hpre : q <+: path) (hne : q ≠ path) :
    q <+: path.dropLast := by
  obtain ⟨rest, rfl⟩ := hpre
  have hrest : rest ≠ [] := fun hnil => hne (by rw [hnil, List.append_nil])
  rw [List.dropLast_append_of_ne_nil hrest]
  exact List.prefix_append _ _

theorem mkdirParents_of_ne {t : Files N B} {path : List N}
    (hmade : mkdir t path ≠ .error .notFound) :
    mkdirParents t path = existOk t path (mkdir t path) := by
  rw [mkdirParents]
  split
  · rename_i hmissing
    exact absurd hmissing hmade
  · rfl

theorem mkdir_of_walk {t : Files N B} {path : List N} {error : OsError}
    (hwalk : walk t [] path = .error error) : mkdir t path = .error error := by
  rw [mkdir, add, hwalk]

theorem mkdir_ne_notFound {t : Files N B} {path : List N} (hparents : HasParents t path) :
    mkdir t path ≠ .error .notFound := by
  rw [mkdir, add, hparents.walk_eq]
  cases t path <;> simp

/-- Where no file stands in the way, all the directories are made.  By induction on the length
of the path: one level up when a parent is missing. -/
theorem mkdirParents_eq {t : Files N B} {path : List N} (hclear : Clear t path) :
    mkdirParents t path = ⟨withDirectories t path, none⟩ := by
  induction hlength : path.length using Nat.strong_induction_on generalizing path with
  | _ n ih =>
      have hrooted : ∀ q, q <+: path → ∀ content, t ([] ++ q) ≠ some (.file content) := hclear
      have hself := hclear path (List.prefix_refl path)
      rcases walk_of_clear hrooted with hfront | ⟨hmissing, hne⟩
      · have hparents : HasParents t path := hfront
        rw [mkdirParents_of_ne (mkdir_ne_notFound hparents)]
        exact existOk_mkdir hparents hself
      · have hpos := List.length_pos_of_ne_nil hne
        have hshorter : path.dropLast.length < n := by
          rw [List.length_dropLast, ← hlength]
          omega
        have hup : mkdirParents t path.dropLast =
            ⟨withDirectories t path.dropLast, none⟩ :=
          ih _ hshorter (fun q hq => hclear q (hq.trans (List.dropLast_prefix path))) rfl
        have hnot : ¬path <+: path.dropLast := fun hpre => by
          have hle := hpre.length_le
          rw [List.length_dropLast] at hle
          omega
        have hparents : HasParents (withDirectories t path.dropLast) path := fun q hq hneq =>
          if_pos (prefix_dropLast_of_ne hq hneq)
        have habove : ∀ content,
            withDirectories t path.dropLast path ≠ some (.file content) := by
          rw [withDirectories, if_neg hnot]
          exact hself
        rw [mkdirParents, mkdir_of_walk hmissing]
        dsimp only
        rw [dif_neg hne, hup]
        dsimp only
        rw [existOk_mkdir hparents habove]
        congr 1
        funext q
        by_cases hpre : q <+: path
        · simp [withDirectories, hpre]
        · have hshort : ¬q <+: path.dropLast := fun hq =>
            hpre (hq.trans (List.dropLast_prefix path))
          simp [withDirectories, hpre, hshort]

theorem create_eq {t : Files N B} {path : List N} {content : B}
    (hparents : HasParents t path) (habsent : t path = none) :
    create t path content = .ok (Function.update t path (some (.file content))) :=
  add_eq hparents habsent

end TraigentSchema.FileTree
