/-!
# C types

The C types a signature is declared with.  Each has one name, and the name
determines the type.
-/

namespace Linkage

/-- A C type at the native boundary. -/
inductive CType where
  | int
  | int64
  | charPtr
  | void
  deriving DecidableEq, Repr

namespace CType

/-- The name of a type in signature texts. -/
def name : CType → String
  | .int => "c_int"
  | .int64 => "c_int64"
  | .charPtr => "c_char_ptr"
  | .void => "c_void"

/-- The type of a given name. -/
def ofName? (name : String) : Option CType :=
  if name = "c_int" then some .int
  else if name = "c_int64" then some .int64
  else if name = "c_char_ptr" then some .charPtr
  else if name = "c_void" then some .void
  else none

/-- The tag of a type, as descriptions of declarations show it. -/
def tag : CType → String
  | .int => "CInt"
  | .int64 => "CInt64"
  | .charPtr => "CCharPtr"
  | .void => "CVoid"

@[simp] theorem ofName?_name (t : CType) : ofName? t.name = some t := by
  cases t <;> decide

/-- Only the name of a type is read as that type. -/
theorem ofName?_eq_some {name : String} {t : CType} :
    ofName? name = some t ↔ name = t.name := by
  constructor
  · intro h
    grind [ofName?, CType.name]
  · rintro rfl
    exact ofName?_name t

end CType
end Linkage
