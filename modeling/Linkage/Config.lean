import Linkage.Function
import Linkage.Path

/-!
# Configuration

A configuration names the library and the function to call in it, and says where
to look for the library.  Every field has a default, so the empty configuration
is the one for the library that is shipped.

A configuration is checked before it is used: the library has to be a base name,
so that it cannot lead out of the directory it is searched in, and the symbol has
to be an identifier of C.
-/

namespace Linkage

/-- Which library to load, what to call in it, and where to search. -/
structure Config where
  library : String
  symbol : String
  searchPaths : List Path
  systemSearchPaths : Bool
  deriving DecidableEq, Repr

/-- A field of a configuration. -/
inductive Config.Field where
  | library
  | symbol
  | searchPaths
  | systemSearchPaths
  deriving DecidableEq, Repr

namespace Config

/-- The base name of the shipped library. -/
def defaultLibrary : String := "string_length"

/-- The name of the shipped function. -/
def defaultSymbol : String := Image.lengthSymbol

/-- The configuration for the shipped library. -/
def default : Config := ⟨defaultLibrary, defaultSymbol, [], true⟩

instance : Inhabited Config := ⟨default⟩

/-- The name of a field. -/
def Field.name : Field → String
  | .library => "library"
  | .symbol => "symbol"
  | .searchPaths => "search_paths"
  | .systemSearchPaths => "system_search_paths"

/-- The fields in order. -/
def Field.all : List Field := [.library, .symbol, .searchPaths, .systemSearchPaths]

/-- The field of a name. -/
def Field.ofName? (name : String) : Option Field :=
  Field.all.find? fun f => f.name = name

/-- Why a configuration is not accepted. -/
inductive Invalid where
  | emptyLibrary
  | libraryIsPath (library : String)
  | symbolNotIdentifier (symbol : String)
  deriving DecidableEq, Repr

/-- The field that is not accepted. -/
def Invalid.field : Invalid → Field
  | .emptyLibrary | .libraryIsPath _ => .library
  | .symbolNotIdentifier _ => .symbol

/-- Why the field is not accepted, in words. -/
def Invalid.reason : Invalid → String
  | .emptyLibrary => "must not be empty"
  | .libraryIsPath library =>
    "'" ++ library ++ "' is a path; give the base name and add its directory to search_paths"
  | .symbolNotIdentifier symbol => "'" ++ symbol ++ "' is not a C identifier"

/-- Whether a character may start an identifier of C. -/
def startsIdentifier (c : Char) : Bool := c == '_' || c.isAlpha

/-- Whether a character may stand behind the start of an identifier of C. -/
def continuesIdentifier (c : Char) : Bool := startsIdentifier c || c.isDigit

/-- Whether a name is an identifier of C. -/
def isIdentifier (name : String) : Bool :=
  match name.toList with
  | [] => false
  | c :: rest => startsIdentifier c && rest.all continuesIdentifier

/-- Whether a name has a separator of path components in it. -/
def hasSeparator (name : String) : Bool :=
  name.toList.any fun c => c == '/' || c == '\\'

/-- Checks a configuration; the first fault found is the answer. -/
def validate (c : Config) : Except Invalid Unit :=
  if c.library.isEmpty then .error .emptyLibrary
  else if hasSeparator c.library then .error (.libraryIsPath c.library)
  else if !isIdentifier c.symbol then .error (.symbolNotIdentifier c.symbol)
  else .ok ()

/-- A configuration is accepted if none of the faults is found. -/
theorem validate_eq_ok {c : Config} : c.validate = .ok () ↔
    c.library ≠ "" ∧ hasSeparator c.library = false ∧ isIdentifier c.symbol = true := by
  by_cases empty : c.library = ""
  · simp [validate, empty]
  · cases separated : hasSeparator c.library <;> cases named : isIdentifier c.symbol <;>
      simp [validate, empty, separated, named]

end Config
end Linkage
