import Linkage.Config
import Linkage.FileSystem
import Linkage.Toml.Reader

/-!
# Configurations as documents

A configuration is read from a document with at most one entry for each field.
The entries are visited in order, and the first that has an unknown name or a
value of the wrong type is the answer; a field without an entry has its default.
Only a configuration read so is checked.

Written, a configuration has one line for each field, in the order of the fields;
without search paths their line is left out.
-/

namespace Linkage
namespace Config

/-- Why an entry of a document does not fit. -/
inductive Misfit where
  | unknownField (name : String)
  | wrongType (found expected : String)
  deriving DecidableEq, Repr

/-- A name between backward quotes. -/
def backquoted (name : String) : String := "`" ++ name ++ "`"

/-- The words for a misfit. -/
def Misfit.message : Misfit → String
  | .unknownField name =>
    "unknown field " ++ backquoted name ++ ", expected one of " ++
      ", ".intercalate (Field.all.map fun f => backquoted f.name)
  | .wrongType found expected => "invalid type: " ++ found ++ ", expected " ++ expected

/-- A value that has to be a string. -/
def stringOf (expected : String) : Toml.Value → Except Misfit String
  | .string text => .ok text
  | v => .error (.wrongType v.found expected)

/-- A value that has to be a boolean. -/
def booleanOf : Toml.Value → Except Misfit Bool
  | .boolean b => .ok b
  | v => .error (.wrongType v.found "a boolean")

/-- The paths of a list of values. -/
def pathsOf : List Toml.Value → Except Misfit (List Path)
  | [] => .ok []
  | v :: vs =>
    match stringOf "path string" v with
    | .error e => .error e
    | .ok text =>
      match pathsOf vs with
      | .error e => .error e
      | .ok paths => .ok (⟨text⟩ :: paths)

/-- A value that has to be a sequence of paths.  The tables of a doubled header
are a sequence too. -/
def searchPathsOf : Toml.Value → Except Misfit (List Path)
  | .array items => pathsOf items
  | .tables elements => pathsOf (elements.map (Toml.Value.table .defined))
  | v => .error (.wrongType v.found "a sequence")

/-- Takes one entry over into a configuration. -/
def takeEntry (c : Config) (name : String) (v : Toml.Value) : Except Misfit Config :=
  match Field.ofName? name with
  | none => .error (.unknownField name)
  | some .library => (stringOf "a string" v).map fun text => { c with library := text }
  | some .symbol => (stringOf "a string" v).map fun text => { c with symbol := text }
  | some .searchPaths => (searchPathsOf v).map fun paths => { c with searchPaths := paths }
  | some .systemSearchPaths => (booleanOf v).map fun b => { c with systemSearchPaths := b }

/-- Takes the entries of a table over into a configuration, in order. -/
def takeEntries (c : Config) : Toml.Table → Except Misfit Config
  | [] => .ok c
  | (name, v) :: rest =>
    match takeEntry c name v with
    | .error e => .error e
    | .ok c => takeEntries c rest

/-- The configuration that a table describes. -/
def ofTable (t : Toml.Table) : Except Misfit Config := takeEntries .default t

/-! ## Reading -/

/-- Why no configuration could be had. -/
inductive Error where
  /-- The file is not there. -/
  | notFound (path : Path)
  /-- The file is there and cannot be read. -/
  | unreadable (fault : FileFault)
  /-- The document is malformed, or well-formed with an entry that does not fit. -/
  | document (file : Path) (misfit : Option Misfit)
  /-- The configuration is not accepted. -/
  | invalid (reason : Invalid)
  deriving DecidableEq, Repr

/-- The path that stands for a document that is not in a file. -/
def unnamedFile : Path := ⟨"<string>"⟩

/-- The words for an error, as far as they are ours. -/
def Error.message : Error → String
  | .notFound path => "Configuration file not found: " ++ path.text
  | .unreadable fault => "Failed to read configuration file: " ++ fault.message
  | .document file misfit =>
    "Invalid TOML syntax in " ++ file.text ++ ": " ++ (misfit.map Misfit.message).getD ""
  | .invalid reason => "Invalid value for '" ++ reason.field.name ++ "': " ++ reason.reason

/-- The configuration of a document, not yet checked. -/
def parse (file : Path) (text : String) : Except Error Config :=
  match Toml.read? text with
  | none => .error (.document file none)
  | some t =>
    match ofTable t with
    | .error misfit => .error (.document file (some misfit))
    | .ok c => .ok c

/-- The configuration of a document, checked. -/
def read (file : Path) (text : String) : Except Error Config :=
  match parse file text with
  | .error e => .error e
  | .ok c =>
    match c.validate with
    | .error reason => .error (.invalid reason)
    | .ok () => .ok c

/-- The configuration of a text, checked. -/
def ofText (text : String) : Except Error Config := read unnamedFile text

/-- The configuration of a file, checked. -/
def ofFile (fs : FileSystem) (cwd : Place) (path : Path) : Except Error Config :=
  match fs.readText cwd path with
  | .error .notFound => .error (.notFound path)
  | .error fault => .error (.unreadable fault)
  | .ok text => read path text

/-! ## Writing -/

/-- The line of one field. -/
def fieldLine (f : Field) (value : List Char) : List Char :=
  f.name.toList ++ [' ', '=', ' '] ++ value ++ ['\n']

/-- A list of strings on one line. -/
def stringList (texts : List String) : List Char :=
  ['['] ++ [',', ' '].intercalate (texts.map Toml.writeString) ++ [']']

/-- The characters of the document that describes a configuration. -/
def renderChars (c : Config) : List Char :=
  fieldLine .library (Toml.writeString c.library) ++
  fieldLine .symbol (Toml.writeString c.symbol) ++
  (if c.searchPaths.isEmpty then []
    else fieldLine .searchPaths (stringList (c.searchPaths.map (·.text)))) ++
  fieldLine .systemSearchPaths (if c.systemSearchPaths then "true" else "false").toList

/-- The document that describes a configuration. -/
def render (c : Config) : String := String.ofList c.renderChars

end Config
end Linkage
