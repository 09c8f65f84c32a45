import TraigentSchema.Library.Binary64
import TraigentSchema.Library.Tree
import TraigentSchema.Library.Unicode

/-!
# Python values

The leaves of a Python object graph as the package tells them apart, the keys of
a `dict`, and the finite trees of lists and dicts over them.  A value whose exact
type is none of the seven JSON built-in types (a tuple, an instance of a
subclass, a function) is foreign: the code asks for nothing but its type's name.
-/

namespace TraigentSchema.Python

open TraigentSchema.Unicode
open TraigentSchema.Binary64

/-- An object of a foreign type.  `typeName` is the outcome of reading
`type(x).__name__`, which a metaclass can make raise an exception of its own;
the error is the name of that exception's type. -/
structure Foreign where
  ident : ℕ
  typeName : Except String String
  deriving Repr

/-- An object that is not an exact `list` or `dict`. -/
inductive Atom where
  | none
  | bool (b : Bool)
  | int (i : ℤ)
  | float (x : Double)
  | str (s : Text)
  | foreign (o : Foreign)
  deriving Repr

/-- The outcome of `type(x).__name__`. -/
def Atom.typeName : Atom → Except String String
  | .none => .ok "NoneType"
  | .bool _ => .ok "bool"
  | .int _ => .ok "int"
  | .float _ => .ok "float"
  | .str _ => .ok "str"
  | .foreign o => o.typeName

/-- A key of a `dict`.  A foreign key equals no string. -/
inductive Key where
  | str (s : Text)
  | foreign (o : Foreign)
  deriving Repr

/-- A Python value without shared or cyclic containers. -/
abbrev PyValue := Tree Key Atom

end TraigentSchema.Python
