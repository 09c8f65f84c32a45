import TraigentSchema.Fp2.Scalar
import TraigentSchema.Library.JsonText
import TraigentSchema.Library.SortedBy

/-!
# The recursive definition of the canonical form

RFC 8785 stated on finite trees: which trees have a canonical text, and what it
is.  Members of an object come in the order of the UTF-16 code units of their
keys, items of an array in their own order, with no white space.  The encoder,
which works on an object graph with an explicit stack, is compared with this.
-/

namespace TraigentSchema.Fp2

open TraigentSchema.Unicode
open TraigentSchema.JsonText (commaSeparated arrayText leftBrace rightBrace colon)
open TraigentSchema.Python
open TraigentSchema.SortedBy

/-- The text of a plain string key. -/
def keyText : Key → Text
  | .str s => s
  | .foreign _ => []

def PlainKey : Key → Prop
  | .str s => Encodable s
  | .foreign _ => False

instance : DecidablePred PlainKey
  | .str s => inferInstanceAs (Decidable (Encodable s))
  | .foreign _ => inferInstanceAs (Decidable False)

/-- A tree with a canonical text. -/
def Supported (v : PyValue) : Prop :=
  v.Admits SupportedAtom PlainKey

@[simp]
theorem supported_leaf (x : Atom) : Supported (.leaf x) ↔ SupportedAtom x :=
  Tree.admits_leaf x

@[simp]
theorem supported_list (items : List PyValue) :
    Supported (.list items) ↔ ∀ item ∈ items, Supported item :=
  Tree.admits_list items

@[simp]
theorem supported_dict (members : List (Key × PyValue)) :
    Supported (.dict members) ↔
      ∀ member ∈ members, PlainKey member.1 ∧ Supported member.2 :=
  Tree.admits_dict members

def memberText (member : Key × Text) : Text :=
  quoted (keyText member.1) ++ colon :: member.2

/-- Members in the order of the UTF-16 code units of their keys. -/
def objectText (members : List (Key × Text)) : Text :=
  leftBrace ::
    (commaSeparated ((sortedBy (fun member => utf16 (keyText member.1)) members).map
      memberText) ++ [rightBrace])

def canonicalText (float : FloatRepr) : PyValue → Text :=
  Tree.fold (atomText float) arrayText objectText

@[simp]
theorem canonicalText_leaf (float : FloatRepr) (x : Atom) :
    canonicalText float (.leaf x) = atomText float x := by
  simp [canonicalText]

@[simp]
theorem canonicalText_list (float : FloatRepr) (items : List PyValue) :
    canonicalText float (.list items) =
      arrayText (items.map (canonicalText float)) := by
  simp [canonicalText]

@[simp]
theorem canonicalText_dict (float : FloatRepr) (members : List (Key × PyValue)) :
    canonicalText float (.dict members) =
      objectText (members.map fun member =>
        (member.1, canonicalText float member.2)) := by
  simp [canonicalText]

end TraigentSchema.Fp2
