/-!
# Names for the platform

A name is handed to the platform with a zero character behind it.  If it ends in
one already, none is added; a zero character anywhere else would cut the name
short, so such a name is refused.
-/

namespace Linkage
namespace Text

/-- A name without the zero character at its end, if it has one. -/
def withoutTerminator (name : List Char) : List Char :=
  if name.getLast? = some '\x00' then name.dropLast else name

/-- The characters of a name that the platform gets to see. -/
def platformName? (name : String) : Option (List Char) :=
  let cs := withoutTerminator name.toList
  if cs.contains '\x00' then none else some cs

end Text
end Linkage
