import Linkage.Notice
import Linkage.Source

/-!
# The state of a process

A process holds its loaders and bridges, the libraries it has opened, and the one
registry that all loaders share.  Opened libraries are numbered in the order in
which they were opened, and that number is the handle: two handles are the same
library exactly if they are the same number.  The registry maps the place of a
library to its handle; nothing is ever taken out of it.

Loaders and bridges are named by their numbers.  One that is no longer wanted is
simply never named again: nothing else in the process depends on it.

The operations here are single steps on that state: reading or writing one cell,
one use of a source, one entry in the registry or the journal.  What the loaders
and bridges do is built from them, once as functions that run to the end
(`Linkage.Loading`, `Linkage.Binding`, `Linkage.Bridge`) and once as the stages
of a thread among others (`Linkage.Thread`).
-/

namespace Linkage

/-- How an operation ends: with a result, with a failure, or by a panic that
unwinds to the caller. -/
inductive Outcome (α : Type) where
  | ok (a : α)
  | error (e : BridgeError)
  | panic
  deriving DecidableEq, Repr

/-- The number of an opened library. -/
abbrev Handle := Nat

/-- The number of a loader. -/
abbrev LoaderId := Nat

/-- The number of a bridge. -/
abbrev BridgeId := Nat

/-- The number of a thread. -/
abbrev ThreadId := Nat

/-- A library that has been opened: the path it was opened at, its functions, and
the watch of the source that opened it. -/
structure Library where
  path : Path
  table : SymbolTable
  watch : Option WatchId
  deriving DecidableEq, Repr

/-- A function bound to a name, with the library that keeps it resident. -/
structure SymbolReference where
  handle : Handle
  name : String
  signature : Signature
  function : Function
  deriving DecidableEq, Repr

/-- A loader: what it loads from where, the handle once it has one, and where it
stands. -/
structure Loader where
  library : String
  source : Source
  handle : Option Handle
  state : LoadState
  deriving DecidableEq, Repr

/-- A loader that has not been used. -/
def Loader.fresh (library : String) (source : Source) : Loader :=
  ⟨library, source, none, .unloaded⟩

instance : Inhabited Loader := ⟨.fresh "" (.system [])⟩

/-- A bridge: its loader, the name it binds, and the bound function once there is
one. -/
structure Bridge where
  loader : LoaderId
  symbol : String
  bound : Option SymbolReference
  deriving DecidableEq, Repr

instance : Inhabited Bridge := ⟨⟨0, "", none⟩⟩

/-- The locks of a process. -/
inductive Lock where
  /-- Guards the registry, and every opening of a library. -/
  | registry
  /-- Guards the loading of one loader. -/
  | loading (l : LoaderId)
  /-- Guards the binding of one bridge. -/
  | binding (b : BridgeId)
  deriving DecidableEq, Repr

/-- The state of a process. -/
structure Process where
  host : Host
  /-- How many in-process sources have been made. -/
  inProcessMade : Nat
  watches : List Watch
  libraries : List Library
  registry : List (Path × Handle)
  loaders : List Loader
  bridges : List Bridge
  /-- The locks that are held, and by which thread. -/
  held : List (Lock × ThreadId)
  journal : List Report
  deriving DecidableEq, Repr

namespace Process

/-- A process that has done nothing yet. -/
def start (host : Host) : Process := ⟨host, 0, [], [], [], [], [], [], []⟩

/-! ## Cells -/

/-- A loader by its number. -/
def loader (p : Process) (l : LoaderId) : Loader := p.loaders.getD l default

/-- A bridge by its number. -/
def bridge (p : Process) (b : BridgeId) : Bridge := p.bridges.getD b default

/-- Changes one loader. -/
def updateLoader (p : Process) (l : LoaderId) (f : Loader → Loader) : Process :=
  { p with loaders := p.loaders.modify l f }

/-- Changes one bridge. -/
def updateBridge (p : Process) (b : BridgeId) (f : Bridge → Bridge) : Process :=
  { p with bridges := p.bridges.modify b f }

/-- Writes the state of a loader. -/
def setState (p : Process) (l : LoaderId) (s : LoadState) : Process :=
  p.updateLoader l fun c => { c with state := s }

/-- Writes the handle of a loader, unless it has one. -/
def storeHandle (p : Process) (l : LoaderId) (h : Handle) : Process :=
  p.updateLoader l fun c => { c with handle := c.handle.or (some h) }

/-- Writes the bound function of a bridge, unless it has one. -/
def storeSymbol (p : Process) (b : BridgeId) (r : SymbolReference) : Process :=
  p.updateBridge b fun c => { c with bound := c.bound.or (some r) }

/-- The path of an opened library. -/
def pathOf (p : Process) (h : Handle) : Path :=
  ((p.libraries[h]?).map Library.path).getD ⟨""⟩

/-- The path of the library that a loader has loaded. -/
def loadedPath? (p : Process) (l : LoaderId) : Option Path :=
  (p.loader l).handle.map p.pathOf

/-! ## The journal -/

/-- Adds a notice to the journal. -/
def note (p : Process) (n : Notice) : Process :=
  { p with journal := p.journal ++ [.notice n] }

/-- Adds several notices to the journal. -/
def noteAll (p : Process) (ns : List Notice) : Process :=
  { p with journal := p.journal ++ ns.map Report.notice }

/-- Records a use under the label of a watch, if there is one. -/
def record (p : Process) (watch : Option WatchId) (use : String → Use) : Process :=
  match watch.bind fun w => p.watches[w]? with
  | some w => { p with journal := p.journal ++ [.use (use w.label)] }
  | none => p

/-! ## The registry -/

/-- The handle registered for a place. -/
def registered? (p : Process) (key : Path) : Option Handle :=
  (p.registry.find? fun e => e.1.same key).map (·.2)

/-- Registers a handle for a place. -/
def register (p : Process) (key : Path) (h : Handle) : Process :=
  { p with registry := p.registry ++ [(key, h)] }

/-! ## Uses of a source -/

/-- The kinds of uses that a script decides on. -/
inductive UseKind where
  | locate
  | opening
  | symbol
  deriving DecidableEq, Repr

/-- The next verdict of a script on a use, and the script behind it. -/
def takeFrom (s : Script) : UseKind → Verdict × Script
  | .locate => ((nextVerdict s.locate).1, { s with locate := (nextVerdict s.locate).2 })
  | .opening => ((nextVerdict s.opening).1, { s with opening := (nextVerdict s.opening).2 })
  | .symbol => ((nextVerdict s.symbol).1, { s with symbol := (nextVerdict s.symbol).2 })

/-- The verdict on the next use of a source; without a watch every use passes. -/
def takeVerdict (p : Process) (watch : Option WatchId) (kind : UseKind) : Verdict × Process :=
  match watch with
  | none => (.pass, p)
  | some w =>
    match p.watches[w]? with
    | none => (.pass, p)
    | some watched =>
      let (verdict, script) := takeFrom watched.script kind
      (verdict, { p with watches := p.watches.set w { watched with script := script } })

/-- Records a use of a source and takes the verdict on it. -/
def ask (p : Process) (watch : Option WatchId) (kind : UseKind) (use : String → Use) :
    Verdict × Process :=
  (p.record watch use).takeVerdict watch kind

/-- The state of the loader on whose behalf a source is used. -/
def ownerState (p : Process) (owner : Option LoaderId) : Option LoadState :=
  owner.map fun l => (p.loader l).state

/-- Where an origin finds a library.  Looking at a file is noted. -/
def locateAt (p : Process) (origin : Origin) (library : String) : Outcome Path × Process :=
  match origin with
  | .inProcess s =>
    if library = s.library then (.ok (s.pathOf library), p)
    else (.error (.libraryNotFound library [s.pathOf library]), p)
  | .system dirs =>
    let candidates := Search.candidates dirs library
    let (probed, found) := Search.probe (p.host.files.isFile p.host.cwd) candidates
    let p := p.noteAll (probed.map Notice.probing)
    match found with
    | some path => (.ok path, p)
    | none => (.error (.libraryNotFound library candidates), p)

/-- What a verdict makes of the question where a library is. -/
def locateUnder (p : Process) (s : Source) (library : String) : Verdict → Outcome Path × Process
  | .panic => (.panic, p)
  | .fail => (.error (.libraryNotFound library []), p)
  | .refuse e => (.error e, p)
  | .place path => (.ok path, p)
  | .pass | .supply _ =>
    match s.fixed with
    | some path => (.ok path, p)
    | none => p.locateAt s.origin library

/-- Asks a source where a library is. -/
def locate (p : Process) (s : Source) (library : String) (owner : Option LoaderId) :
    Outcome Path × Process :=
  let asked := p.ask s.watch .locate fun label => .locate label library (p.ownerState owner)
  asked.2.locateUnder s library asked.1

/-- Adds an opened library; its number is the handle. -/
def addLibrary (p : Process) (lib : Library) : Handle × Process :=
  (p.libraries.length, { p with libraries := p.libraries ++ [lib] })

/-- Opens what is at a path of an origin: functions linked in are there already,
and a file is mapped by the platform's loader. -/
def tableAt (p : Process) (origin : Origin) (path : Path) : Option SymbolTable × Process :=
  match origin with
  | .inProcess s => (some (.registered s.symbols), p)
  | .system _ =>
    let (image, host) := p.host.mapLibrary path
    (image.map SymbolTable.mapped, { p with host := host })

/-- What a verdict makes of the request to open what is at a path. -/
def tableUnder (p : Process) (s : Source) (path : Path) : Verdict → Outcome SymbolTable × Process
  | .panic => (.panic, p)
  | .fail => (.error (.libraryLoad path (.given "injected failure")), p)
  | .refuse e => (.error e, p)
  | .supply table => (.ok table, p)
  | .pass | .place _ =>
    match p.tableAt s.origin path with
    | (some table, p) => (.ok table, p)
    | (none, p) => (.error (.libraryLoad path .refused), p)

/-- Asks a source to open the library at a path. -/
def openLibrary (p : Process) (s : Source) (path : Path) (owner : Option LoaderId) :
    Outcome Handle × Process :=
  let asked := p.ask s.watch .opening fun label => .opening label path (p.ownerState owner)
  match asked.2.tableUnder s path asked.1 with
  | (.panic, p) => (.panic, p)
  | (.error e, p) => (.error e, p)
  | (.ok table, p) =>
    let (h, p) := p.addLibrary ⟨path, table, s.watch⟩
    (.ok h, p)

/-- Looks for a function of an opened library.  The use is recorded under the
watch of the source that opened it, whoever asks. -/
def findSymbol (p : Process) (h : Handle) (name : String) : Outcome (Option Function) × Process :=
  match p.libraries[h]? with
  | none => (.ok none, p)
  | some lib =>
    let taken := p.takeVerdict lib.watch .symbol
    match taken.1 with
    | .panic => (.panic, taken.2)
    | .fail | .refuse _ =>
      (.ok none, taken.2.record lib.watch fun label => .symbol label name false)
    | .pass | .place _ | .supply _ =>
      let found := lib.table.find? name
      (.ok found, taken.2.record lib.watch fun label => .symbol label name found.isSome)

/-! ## Making objects -/

/-- Makes an in-process source, which gets a number of its own. -/
def newInProcess (p : Process) (library : String) : InProcess × Process :=
  (⟨p.inProcessMade, library, []⟩, { p with inProcessMade := p.inProcessMade + 1 })

/-- Puts a watch on an origin. -/
def newWatch (p : Process) (origin : Origin) (fixed : Option Path) (w : Watch) : Source × Process :=
  (⟨origin, fixed, some p.watches.length⟩, { p with watches := p.watches ++ [w] })

/-- Makes a loader. -/
def newLoader (p : Process) (library : String) (source : Source) : LoaderId × Process :=
  (p.loaders.length, { p with loaders := p.loaders ++ [.fresh library source] })

/-- Makes a bridge, with a loader of its own. -/
def newBridge (p : Process) (library symbol : String) (source : Source) : BridgeId × Process :=
  let (l, p) := p.newLoader library source
  (p.bridges.length, { p with bridges := p.bridges ++ [⟨l, symbol, none⟩] })

/-! ## Locks -/

/-- Takes a lock, if no thread holds it. -/
def acquire? (p : Process) (k : Lock) (t : ThreadId) : Option Process :=
  if p.held.any fun e => e.1 = k then none else some { p with held := (k, t) :: p.held }

/-- Gives a lock back. -/
def release (p : Process) (k : Lock) : Process :=
  { p with held := p.held.filter fun e => e.1 ≠ k }

end Process
end Linkage
