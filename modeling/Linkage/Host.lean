import Linkage.FileSystem

/-!
# The host of a process

What a process finds around it: the disk, its working directory, the value of the
variable with further library directories, the directory of the running program,
and the platform's loader.

The platform's loader keeps the files it has mapped for as long as the process
lives.  It knows each by the file itself and by every path text it was asked for
under.  A request is answered by the first mapped file that has the very text as
a name; otherwise the path is followed, and a file that is mapped already is not
mapped twice.  A text without a slash is no path to the loader but a name to
search for in its own directories, where nothing of ours is found.  The empty text
stands for the running program.
-/

namespace Linkage

/-- A file mapped by the platform's loader. -/
structure MappedFile where
  file : FileId
  image : Image
  names : List String
  deriving DecidableEq, Repr

/-- What surrounds a process. -/
structure Host where
  files : FileSystem
  cwd : Place
  /-- The further library directories, separated by colons. -/
  libraryPath : Option String
  /-- The directory of the running program. -/
  programDir : Option Path
  mapped : List MappedFile
  deriving DecidableEq, Repr

namespace Host

/-- The place by which a library is known process-wide: the canonical path where
the located path leads, or the located path if it leads nowhere. -/
def registryKey (host : Host) (p : Path) : Path :=
  (host.files.canonical? host.cwd p).getD p

/-- The loadable library in a file. -/
def imageOf? (host : Host) (id : FileId) : Option Image :=
  match host.files.contents? id with
  | some (.library image) => some image
  | _ => none

/-- Gives a mapped file one more name. -/
def nameMapped (host : Host) (index : Nat) (name : String) : Host :=
  { host with mapped := host.mapped.modify index fun m => { m with names := m.names ++ [name] } }

/-- Finds the library at a path that has not been asked for before. -/
def mapFile (host : Host) (p : Path) : Option Image × Host :=
  match host.files.fileAt? host.cwd p with
  | none => (none, host)
  | some id =>
    match host.mapped.findIdx? fun m => m.file = id with
    | some index => ((host.mapped[index]?).map (·.image), host.nameMapped index p.text)
    | none =>
      match host.imageOf? id with
      | none => (none, host)
      | some image =>
        (some image, { host with mapped := host.mapped ++ [⟨id, image, [p.text]⟩] })

/-- Finds the library under a text that the platform gets to see. -/
def mapNamed (host : Host) (p : Path) : Option Image × Host :=
  if p.text.isEmpty then (some .program, host)
  else if !p.text.toList.contains '/' then (none, host)
  else match host.mapped.find? fun m => m.names.contains p.text with
    | some m => (some m.image, host)
    | none => host.mapFile p

/-- Asks the platform's loader for the library at a path. -/
def mapLibrary (host : Host) (p : Path) : Option Image × Host :=
  match Text.platformName? p.text with
  | none => (none, host)
  | some cs => host.mapNamed ⟨String.ofList cs⟩

end Host
end Linkage
