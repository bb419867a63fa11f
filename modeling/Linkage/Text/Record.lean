/-!
# Records in words

A description of a value names its type and shows its fields in order between
braces, each with its name.  A description that leaves fields out says so by two
dots behind the last one shown.
-/

namespace Linkage
namespace Text

/-- One field of a description. -/
def describeField (field : String × String) : String := field.1 ++ ": " ++ field.2

/-- A description by name and fields; `abridged` if fields are left out. -/
def describeRecord (name : String) (fields : List (String × String)) (abridged : Bool) : String :=
  name ++ " \x7b " ++ ", ".intercalate (fields.map describeField) ++
    (if abridged then ", .. \x7d" else " \x7d")

end Text
end Linkage
