/-!
# The version

The version that programs linked against this library can ask for.
-/

namespace Linkage

/-- The version of the library. -/
def version : String := "0.1.0"

end Linkage
