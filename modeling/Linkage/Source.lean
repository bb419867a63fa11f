import Linkage.BridgeError
import Linkage.Named
import Linkage.Search

/-!
# Sources of libraries

A source says where a library is and opens it there.  There are two origins: the
system, which searches directories and asks the platform's loader, and functions
linked into the program itself, which are registered by name and need no file.

Sources are copied freely, and copies of an in-process source stand for the same
place: its number is given once, when it is made, and is part of the place.

A source may be *watched*.  Then every use of it is recorded under a label, and
a script decides how its uses come out: each verdict of a script is for one use,
in order, over all copies of the source, and when a script has run out every use
passes.  A verdict may answer in place of the origin, so whatever a source does in
a run, some script makes a watched source do.  A watch may also fix the place at
which the source claims every library.
-/

namespace Linkage

/-- Functions linked into the program, under the names they are registered by. -/
structure InProcess where
  id : Nat
  library : String
  symbols : Named Function
  deriving DecidableEq, Repr

namespace InProcess

/-- Registers a function; an older one of that name is replaced. -/
def withSymbol (s : InProcess) (name : String) (f : Function) : InProcess :=
  { s with symbols := s.symbols.put name f }

/-- Registers functions in order. -/
def withSymbols (s : InProcess) (functions : List (String × Function)) : InProcess :=
  functions.foldl (fun s f => s.withSymbol f.1 f.2) s

/-- The directory that stands for a source of this number. -/
def directory (s : InProcess) : Path := ⟨"<in-process:" ++ toString s.id ++ ">"⟩

/-- The place of a library of this source. -/
def pathOf (s : InProcess) (library : String) : Path :=
  s.directory.join (libraryFileName library)

end InProcess

/-- Where the libraries of a source come from. -/
inductive Origin where
  /-- Functions linked into the program. -/
  | inProcess (source : InProcess)
  /-- Files in directories, searched in order. -/
  | system (dirs : List Path)
  deriving DecidableEq, Repr

/-- What the functions of an opened library are found in. -/
inductive SymbolTable where
  /-- Functions registered by name. -/
  | registered (symbols : Named Function)
  /-- The exports of a library mapped from a file. -/
  | mapped (image : Image)
  deriving DecidableEq, Repr

/-- The function found under a name. -/
def SymbolTable.find? (t : SymbolTable) (name : String) : Option Function :=
  match t with
  | .registered symbols => symbols.get? name
  | .mapped image => image.find? name

/-- How one use of a watched source comes out. -/
inductive Verdict where
  /-- As the origin of the source has it. -/
  | pass
  | fail
  | panic
  /-- It fails, and this is the failure. -/
  | refuse (e : BridgeError)
  /-- The library is said to be here, wherever the origin has it. -/
  | place (path : Path)
  /-- The library is said to hold these functions, whatever the origin has. -/
  | supply (table : SymbolTable)
  deriving DecidableEq, Repr

/-- The verdicts still to come, for each kind of use. -/
structure Script where
  locate : List Verdict
  opening : List Verdict
  symbol : List Verdict
  deriving DecidableEq, Repr

/-- The script under which every use passes. -/
def Script.none : Script := ⟨[], [], []⟩

/-- The next verdict of a list, and those behind it. -/
def nextVerdict : List Verdict → Verdict × List Verdict
  | [] => (.pass, [])
  | v :: rest => (v, rest)

/-- The watch on a source: the label its uses are recorded under, and its script. -/
structure Watch where
  label : String
  script : Script
  deriving DecidableEq, Repr

/-- The number of a watch. -/
abbrev WatchId := Nat

/-- A source of libraries. -/
structure Source where
  origin : Origin
  /-- The place at which every library is claimed to be. -/
  fixed : Option Path
  watch : Option WatchId
  deriving DecidableEq, Repr

namespace Source

/-- The source that searches the disk, not watched. -/
def system (dirs : List Path) : Source := ⟨.system dirs, none, none⟩

end Source

end Linkage
