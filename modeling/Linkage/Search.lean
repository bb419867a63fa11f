import Linkage.Host

/-!
# Where a library is searched for

A library is searched for in directories, in a fixed order of groups: the
configured directories, the directory of the running program, and, if the system
is to be searched, the entries of the library path and the standard directories.
A directory that occurs twice, compared by components, is searched once, at its
first place and under its first spelling.
-/

namespace Linkage
namespace Search

/-- The standard directories of the system. -/
def standardDirs : List Path :=
  [⟨"/usr/local/lib"⟩, ⟨"/usr/lib"⟩, ⟨"/lib"⟩, ⟨"/usr/lib64"⟩, ⟨"/lib64"⟩]

/-- The name of the directory into which a build puts programs under test; the
libraries of the build are one level up. -/
def buildSubdirectory : String := "deps"

/-- The directory of the running program, and its parent for a program under
test. -/
def programDirs (host : Host) : List Path :=
  match host.programDir with
  | none => []
  | some dir =>
    if dir.fileName? = some buildSubdirectory then dir :: dir.parent?.toList else [dir]

/-- The entries of the library path that are not empty. -/
def libraryPathDirs (host : Host) : List Path :=
  match host.libraryPath with
  | none => []
  | some value =>
    ((Text.splitOn ':' value.toList).filter (· ≠ [])).map fun cs => ⟨String.ofList cs⟩

/-- Puts a path behind those kept so far, unless one of them is the same. -/
def keepFirst (kept : List Path) (p : Path) : List Path :=
  if kept.any (·.same p) then kept else kept ++ [p]

/-- The first occurrence of each path of a list, in order. -/
def firstOccurrences (paths : List Path) : List Path := paths.foldl keepFirst []

/-- All directories in the order of the search, repetitions included. -/
def allDirs (host : Host) (configured : List Path) (system : Bool) : List Path :=
  configured ++ programDirs host ++
    if system then libraryPathDirs host ++ standardDirs else []

/-- The directories that are searched. -/
def dirs (host : Host) (configured : List Path) (system : Bool) : List Path :=
  firstOccurrences (allDirs host configured system)

/-- The files that may be the library, in the order of the search. -/
def candidates (dirs : List Path) (library : String) : List Path :=
  dirs.map (·.join (libraryFileName library))

/-- The candidates up to the first that passes a test, and that one. -/
def probe (test : Path → Bool) : List Path → List Path × Option Path
  | [] => ([], none)
  | c :: rest =>
    if test c then ([c], some c)
    else
      let (probed, found) := probe test rest
      (c :: probed, found)

end Search
end Linkage
