import Linkage.Function
import Linkage.Path

/-!
# File systems

A file system is a finite map from *places* to what stands there.  A place is the
list of the names on the way down from the root, so it is free of dots, links and
doubled slashes: two paths lead to the same thing exactly if they lead to the
same place, or to two places with the same file.  Files are numbered, because a
file may stand at several places and outlives the place it was found at; a
number is never given twice.

Following a path is a walk over its steps.  A link in the walk is replaced by the
steps of its target; at most forty links are followed, and with that bound the
walk ends, since every other step shortens what is left.
-/

namespace Linkage

/-- Where something stands: the names from the root down. -/
abbrev Place := List String

/-- The number of a file. -/
abbrev FileId := Nat

/-- What is in a file: bytes, or a loadable library. -/
inductive Contents where
  | bytes (data : List UInt8)
  | library (image : Image)
  deriving DecidableEq, Repr

/-- What stands at a place. -/
inductive Entry where
  | directory
  | file (id : FileId)
  | link (target : Path)
  deriving DecidableEq, Repr

/-- Why a path leads nowhere, or why what it leads to cannot be read. -/
inductive FileFault where
  | notFound
  | notDirectory
  | isDirectory
  | linkLoop
  | nameTooLong
  | zeroInName
  | notText
  deriving DecidableEq, Repr

/-- The words for a fault. -/
def FileFault.message : FileFault → String
  | .notFound => "No such file or directory (os error 2)"
  | .notDirectory => "Not a directory (os error 20)"
  | .isDirectory => "Is a directory (os error 21)"
  | .linkLoop => "Too many levels of symbolic links (os error 40)"
  | .nameTooLong => "File name too long (os error 36)"
  | .zeroInName => "file name contained an unexpected NUL byte"
  | .notText => "stream did not contain valid UTF-8"

/-- Everything on the disk: what stands where, and what the files hold. -/
structure FileSystem where
  entries : List (Place × Entry)
  files : List Contents
  deriving DecidableEq, Repr

namespace FileSystem

/-- The disk with nothing but its root. -/
def empty : FileSystem := ⟨[], []⟩

/-- What stands at a place; the root is always there. -/
def entryAt (fs : FileSystem) (place : Place) : Option Entry :=
  if place = [] then some .directory
  else (fs.entries.find? fun e => e.1 = place).map (·.2)

/-- What a file holds. -/
def contents? (fs : FileSystem) (id : FileId) : Option Contents := fs.files[id]?

/-! ## Following a path -/

/-- Where a walk ends: at something, or at a free place in a directory. -/
inductive Arrival where
  | at (place : Place) (entry : Entry)
  | free (place : Place)
  deriving DecidableEq, Repr

/-- The most links that one walk follows. -/
def mostLinks : Nat := 40

/-- The most bytes in a name. -/
def longestName : Nat := 255

/-- The number of bytes that no path reaches. -/
def pathLimit : Nat := 4096

/-- Follows steps from a directory.  `onLink` goes on where a link leads, with the steps of
its target in front; a link at the very end is followed only if `through` says so. -/
def walkBy (fs : FileSystem) (through : Bool)
    (onLink : Place → List String → Except FileFault Arrival) (here : Place) :
    List String → Except FileFault Arrival
  | [] => .ok (.at here .directory)
  | step :: rest =>
    if step = "." then walkBy fs through onLink here rest
    else if step = ".." then walkBy fs through onLink here.dropLast rest
    else if longestName < step.utf8ByteSize then .error .nameTooLong
    else
      let place := here ++ [step]
      match fs.entryAt place with
      | none => if rest = [] then .ok (.free place) else .error .notFound
      | some .directory => walkBy fs through onLink place rest
      | some (.file id) =>
        if rest = [] then .ok (.at place (.file id)) else .error .notDirectory
      | some (.link target) =>
        if rest = [] ∧ through = false then .ok (.at place (.link target))
        else onLink (if target.isAbsolute then [] else here) (target.steps ++ rest)

/-- Follows steps from a directory, and as many links as may still be followed. -/
def walk (fs : FileSystem) (through : Bool) :
    Nat → Place → List String → Except FileFault Arrival
  | 0 => walkBy fs through fun _ _ => .error .linkLoop
  | left + 1 => walkBy fs through (walk fs through left)

/-- Follows a path from a working directory. -/
def follow (fs : FileSystem) (through : Bool) (cwd : Place) (p : Path) :
    Except FileFault Arrival :=
  if p.text.toList.contains '\x00' then .error .zeroInName
  else if p.text.isEmpty then .error .notFound
  else if pathLimit ≤ p.text.utf8ByteSize then .error .nameTooLong
  else if p.isAbsolute then walk fs through mostLinks [] p.steps
  else if fs.entryAt cwd = some .directory then walk fs through mostLinks cwd p.steps
  else .error .notFound

/-- What a path leads to, all links followed. -/
def resolve (fs : FileSystem) (cwd : Place) (p : Path) : Except FileFault (Place × Entry) :=
  match fs.follow true cwd p with
  | .ok (.at place entry) => .ok (place, entry)
  | .ok (.free _) => .error .notFound
  | .error fault => .error fault

/-- The file that a path leads to, if it leads to a file. -/
def fileAt? (fs : FileSystem) (cwd : Place) (p : Path) : Option FileId :=
  match fs.resolve cwd p with
  | .ok (_, .file id) => some id
  | _ => none

/-- Whether a path leads to a file. -/
def isFile (fs : FileSystem) (cwd : Place) (p : Path) : Bool := (fs.fileAt? cwd p).isSome

/-- The path that spells a place. -/
def placePath (place : Place) : Path := ⟨"/" ++ "/".intercalate place⟩

/-- The path of the place that a path leads to. -/
def canonical? (fs : FileSystem) (cwd : Place) (p : Path) : Option Path :=
  match fs.resolve cwd p with
  | .ok (place, _) => some (placePath place)
  | .error _ => none

/-- Reads the text of the file that a path leads to. -/
def readText (fs : FileSystem) (cwd : Place) (p : Path) : Except FileFault String :=
  match fs.resolve cwd p with
  | .error fault => .error fault
  | .ok (_, .file id) =>
    match fs.contents? id with
    | some (.bytes data) =>
      match Utf8.decode? data with
      | some text => .ok (String.ofList text)
      | none => .error .notText
    | _ => .error .notText
  | .ok (_, _) => .error .isDirectory

/-! ## Changing the disk -/

/-- A change to the disk.  A change that cannot be made leaves the disk as it is. -/
inductive FileAction where
  /-- Writes a file, in place if it is there. -/
  | write (path : Path) (data : List UInt8)
  /-- Makes a directory and those on the way to it. -/
  | makeDirectory (path : Path)
  /-- Makes a link to a target, which need not exist. -/
  | makeLink (path : Path) (target : Path)
  /-- Makes a file stand at a second place. -/
  | makeHardLink (path : Path) (existing : Path)
  /-- Takes something away, with all that is in it. -/
  | remove (path : Path)
  /-- Moves something, over a file or an empty directory if one is there. -/
  | rename (source : Path) (target : Path)
  /-- Makes a new file that is a loadable library, in place of a file there. -/
  | install (path : Path) (image : Image)
  deriving DecidableEq, Repr

/-- Puts an entry at a place. -/
def put (fs : FileSystem) (place : Place) (entry : Entry) : FileSystem :=
  { fs with entries := (place, entry) :: fs.entries.filter fun e => e.1 ≠ place }

/-- Takes away what stands at a place or below it. -/
def clear (fs : FileSystem) (place : Place) : FileSystem :=
  { fs with entries := fs.entries.filter fun e => !place.isPrefixOf e.1 }

/-- Makes a new file at a place. -/
def create (fs : FileSystem) (place : Place) (contents : Contents) : FileSystem :=
  { fs.put place (.file fs.files.length) with files := fs.files ++ [contents] }

/-- The entries below a place, and at it, moved to another place. -/
def moved (source target : Place) (e : Place × Entry) : Place × Entry :=
  if source.isPrefixOf e.1 then (target ++ e.1.drop source.length, e.2) else e

/-- Whether a directory holds nothing. -/
def isEmptyAt (fs : FileSystem) (place : Place) : Bool :=
  fs.entries.all fun e => !(place.isPrefixOf e.1 && e.1 ≠ place)

/-- Makes the directories of a path one after the other; `done` are the steps
already made. -/
def makeDirectories (cwd : Place) (absolute : Bool) (done : List String) :
    List String → FileSystem → FileSystem
  | [], fs => fs
  | step :: rest, fs =>
    let done := done ++ [step]
    let fs := match fs.walk false mostLinks (if absolute then [] else cwd) done with
      | .ok (.free place) => fs.put place .directory
      | _ => fs
    makeDirectories cwd absolute done rest fs

/-- Whether what stands at one place may be moved over what stands at another: a
directory only over an empty directory, anything else over anything else, and a
file not over itself. -/
def yields (fs : FileSystem) (new : Place) : Entry → Entry → Bool
  | .directory, .directory => fs.isEmptyAt new
  | .directory, _ | _, .directory => false
  | .file a, .file b => a ≠ b
  | _, _ => true

/-- Moves something, over a file or an empty directory if one is there. -/
def rename (fs : FileSystem) (cwd : Place) (source target : Path) : FileSystem :=
  match fs.follow false cwd source, fs.follow false cwd target with
  | .ok (.at old _), .ok (.free new) =>
    if old.isPrefixOf new then fs
    else { fs with entries := fs.entries.map (moved old new) }
  | .ok (.at old entry), .ok (.at new present) =>
    if old.isPrefixOf new || !fs.yields new entry present then fs
    else
      let fs := fs.clear new
      { fs with entries := fs.entries.map (moved old new) }
  | _, _ => fs

/-- Makes one change, with paths taken from a working directory. -/
def change (cwd : Place) (fs : FileSystem) : FileAction → FileSystem
  | .write path data =>
    match fs.follow true cwd path with
    | .ok (.free place) => fs.create place (.bytes data)
    | .ok (.at _ (.file id)) => { fs with files := fs.files.set id (.bytes data) }
    | _ => fs
  | .makeDirectory path => makeDirectories cwd path.isAbsolute [] path.steps fs
  | .makeLink path target =>
    match fs.follow false cwd path with
    | .ok (.free place) => fs.put place (.link target)
    | _ => fs
  | .makeHardLink path existing =>
    match fs.follow false cwd path, fs.follow false cwd existing with
    | .ok (.free place), .ok (.at _ (.file id)) => fs.put place (.file id)
    | .ok (.free place), .ok (.at _ (.link target)) => fs.put place (.link target)
    | _, _ => fs
  | .remove path =>
    match fs.follow false cwd path with
    | .ok (.at place _) => fs.clear place
    | _ => fs
  | .rename source target => fs.rename cwd source target
  | .install path image =>
    match fs.follow false cwd path with
    | .ok (.free place) => fs.create place (.library image)
    | .ok (.at _ .directory) => fs
    | .ok (.at place _) => (fs.clear place).create place (.library image)
    | .error _ => fs

/-- Makes changes one after the other. -/
def changeAll (cwd : Place) (fs : FileSystem) (actions : List FileAction) : FileSystem :=
  actions.foldl (change cwd) fs

end FileSystem
end Linkage
