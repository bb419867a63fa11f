import Linkage.Description
import Linkage.Named
import Linkage.Pool

/-!
# Sessions

A session is a process with objects under names, changed by commands one after the
other.  Sources, loaders, bridges, handles and bound functions have names of their
own kind, so one name may stand for an object of each kind.  A command that names
an object that is not there changes nothing.

An object stays in the process when its name goes: a library that was opened stays
open, and a copy of a source in a loader is not affected.
-/

namespace Linkage

/-- What a new source is over. -/
inductive Session.Base where
  /-- What another source is over. -/
  | clone (source : String)
  /-- What another in-process source is over, with further functions registered in order. -/
  | extended (source : String) (functions : List (String × Function))
  /-- The disk, searched as a configuration says. -/
  | disk (c : Config)
  /-- Functions linked into the program, registered in order. -/
  | linked (library : String) (functions : List (String × Function))

/-- A command to a session. -/
inductive Session.Command where
  /-- Changes the disk. -/
  | change (actions : List FileSystem.FileAction)
  /-- Moves to another working directory. -/
  | enter (dir : Path)
  /-- Sets the library path of the environment. -/
  | setLibraryPath (value : Option String)
  /-- Makes a watched source, under whose name its uses are recorded. -/
  | source (name : String) (base : Session.Base) (fixed : Option Path) (script : Script)
  | locate (source library : String)
  | loader (name source library : String)
  /-- Loads the library of a loader and keeps the handle. -/
  | load (loader : String) (keep : Option String)
  | describeLoader (loader : String)
  | describeHandle (handle : String)
  /-- Looks for a function in a library. -/
  | look (handle symbol : String)
  /-- Compares two handles. -/
  | compare (a b : String)
  /-- Binds a name in a library and keeps the function. -/
  | bind (handle symbol : String) (keep : String) (declared : Signature)
  /-- Calls a bound function and gives its answer as it is. -/
  | invoke (symbol text : String)
  /-- Makes a bridge, over a source or over the disk. -/
  | bridge (name : String) (config : Except Config.Error Config) (source : Option String)
  | call (bridge text : String)
  /-- Makes the same call from several threads at once. -/
  | callMany (bridge text : String) (threads : Nat)
  | describeBridge (bridge : String)
  /-- Loads the library of a bridge and keeps the handle. -/
  | loadBridge (bridge : String) (keep : Option String)
  /-- Takes away every object of a name. -/
  | drop (name : String)

/-- The answer to a command. -/
inductive Session.Reply where
  | done
  | place (path : Path)
  | loader (library : String) (state : LoadState) (path : Option Path) (description : String)
  | handle (path : Path) (description : String)
  | found (isFound : Bool)
  | same (isSame : Bool)
  | reference (name : String) (signature : Signature) (description : String)
  | number (n : Int64)
  | bridge (state : LoadState) (isBound : Bool)
  | bridgeDetails (state : LoadState) (isBound : Bool) (library : String) (path : Option Path)
      (description : String)
  | many (outcomes : List (Outcome Int64))
  | dropped (count : Nat)
  | failed (e : BridgeError)
  | rejected (e : Config.Error)
  | panicked
  /-- No object has the name. -/
  | unknown

/-- A process with objects under names. -/
structure Session where
  process : Process
  sources : Named Source
  loaders : Named LoaderId
  bridges : Named BridgeId
  handles : Named Handle
  symbols : Named SymbolReference

namespace Session

/-- A session in which nothing has a name yet. -/
def start (host : Host) : Session := ⟨.start host, [], [], [], [], []⟩

/-- A session in which the process has gone on. -/
def withProcess (s : Session) (p : Process) : Session := { s with process := p }

/-- Keeps a handle, if a name is given for it. -/
def keepHandle (s : Session) (keep : Option String) (h : Handle) : Session :=
  match keep with
  | none => s
  | some name => { s with handles := s.handles.put name h }

/-- The answer to a command that an operation of the process decides, and the
session behind it; `kept` says what is done with a result. -/
def conclude {α : Type} (s : Session) (kept : Session → α → Reply × Session) :
    Outcome α × Process → Reply × Session
  | (.ok a, p) => kept (s.withProcess p) a
  | (.error e, p) => (.failed e, s.withProcess p)
  | (.panic, p) => (.panicked, s.withProcess p)

/-! ## Making objects -/

/-- The origin of a new source. -/
def originOf (s : Session) : Base → Option (Origin × Process)
  | .clone name => (s.sources.get? name).map fun source => (source.origin, s.process)
  | .disk c => some (s.process.systemOrigin c, s.process)
  | .extended name functions =>
    match (s.sources.get? name).map Source.origin with
    | some (.inProcess source) => some (.inProcess (source.withSymbols functions), s.process)
    | _ => none
  | .linked library functions =>
    let (source, p) := s.process.newInProcess library
    some (.inProcess (source.withSymbols functions), p)

/-- Makes a watched source. -/
def makeSource (s : Session) (name : String) (base : Base) (fixed : Option Path)
    (script : Script) : Reply × Session :=
  match s.originOf base with
  | none => (.unknown, s)
  | some (origin, p) =>
    let (source, p) := p.newWatch origin fixed ⟨name, script⟩
    (.done, { s.withProcess p with sources := s.sources.put name source })

/-- Makes a loader over a source. -/
def makeLoader (s : Session) (name source library : String) : Reply × Session :=
  match s.sources.get? source with
  | none => (.unknown, s)
  | some source =>
    let (l, p) := s.process.newLoader library source
    (.done, { s.withProcess p with loaders := s.loaders.put name l })

/-- Makes a bridge over a source, or over the disk if none is given. -/
def makeBridgeOver (s : Session) (name : String) (c : Config) (source : Option Source) :
    Reply × Session :=
  let (b, p) := s.process.newBridgeFor c source
  (.bridge (p.loader (p.bridge b).loader).state (p.bridge b).bound.isSome,
    { s.withProcess p with bridges := s.bridges.put name b })

/-- Makes a bridge for a configuration that has been read. -/
def makeBridge (s : Session) (name : String) (config : Except Config.Error Config)
    (source : Option String) : Reply × Session :=
  match config with
  | .error e => (.rejected e, s)
  | .ok c =>
    match source with
    | none => s.makeBridgeOver name c none
    | some source =>
      match s.sources.get? source with
      | none => (.unknown, s)
      | some source => s.makeBridgeOver name c (some source)

/-! ## Using objects -/

/-- Loads the library of a loader. -/
def ensureLoaded (s : Session) (l : LoaderId) (keep : Option String) : Reply × Session :=
  s.conclude (fun s h => (.place (s.process.pathOf h), s.keepHandle keep h))
    (s.process.ensureLoaded l)

/-- Looks for a function in a library. -/
def look (s : Session) (h : Handle) (symbol : String) : Reply × Session :=
  s.conclude (fun s found => (.found found.isSome, s)) (s.process.findSymbol h symbol)

/-- Binds a name in a library. -/
def bind (s : Session) (h : Handle) (symbol keep : String) (declared : Signature) :
    Reply × Session :=
  s.conclude
    (fun s r => (.reference r.name r.signature (s.process.describeReference r),
      { s with symbols := s.symbols.put keep r }))
    (s.process.resolve h symbol declared)

/-- What a bound function answers to a copy of a text. -/
def rawAnswer (r : SymbolReference) (text : String) : Reply :=
  match Argument.ofText text with
  | .error offset => .failed (.marshal offset)
  | .ok argument => .number (r.function.invoke argument.buffer)

/-- The length that a thread has come to.  One that was to load a library, or has
not ended, has none. -/
def lengthOf : Option (Outcome Answer) → Option (Outcome Int64)
  | some (.ok (.length n)) => some (.ok n)
  | some (.error e) => some (.error e)
  | some .panic => some .panic
  | _ => none

/-- Makes the same call from several threads at once. -/
def callMany (s : Session) (b : BridgeId) (text : String) (threads : Nat) : Reply × Session :=
  let pool := (Pool.ofCall s.process b text threads).run 0
  (.many (pool.outcomes.filterMap lengthOf), s.withProcess pool.process)

/-- The number of objects under a name. -/
def countOf {α : Type} (things : Named α) (name : String) : Nat :=
  (things.get? name).toList.length

/-- Takes away every object of a name. -/
def drop (s : Session) (name : String) : Reply × Session :=
  let count := countOf s.sources name + countOf s.loaders name + countOf s.bridges name +
    countOf s.handles name + countOf s.symbols name
  (.dropped count,
    { s with
      sources := s.sources.erase name
      loaders := s.loaders.erase name
      bridges := s.bridges.erase name
      handles := s.handles.erase name
      symbols := s.symbols.erase name })

/-- Moves to another working directory, if there is one at the path. -/
def enter (s : Session) (dir : Path) : Session :=
  let host := s.process.host
  match host.files.resolve host.cwd dir with
  | .ok (place, .directory) => s.withProcess { s.process with host := { host with cwd := place } }
  | _ => s

/-! ## Commands -/

/-- Uses the object under a name. -/
def withNamed {α : Type} (s : Session) (things : Named α) (name : String)
    (f : α → Reply × Session) : Reply × Session :=
  match things.get? name with
  | none => (.unknown, s)
  | some a => f a

/-- The answer to a command, and the session behind it. -/
def step (s : Session) : Command → Reply × Session
  | .change actions =>
    let host := s.process.host
    let files := FileSystem.changeAll [] host.files actions
    (.done, s.withProcess { s.process with host := { host with files := files } })
  | .enter dir => (.done, s.enter dir)
  | .setLibraryPath value =>
    let host := { s.process.host with libraryPath := value }
    (.done, s.withProcess { s.process with host := host })
  | .source name base fixed script => s.makeSource name base fixed script
  | .locate source library =>
    s.withNamed s.sources source fun source =>
      s.conclude (fun s path => (.place path, s)) (s.process.locate source library none)
  | .loader name source library => s.makeLoader name source library
  | .load loader keep => s.withNamed s.loaders loader fun l => s.ensureLoaded l keep
  | .describeLoader loader =>
    s.withNamed s.loaders loader fun l =>
      let c := s.process.loader l
      (.loader c.library c.state (s.process.loadedPath? l) c.describe, s)
  | .describeHandle handle =>
    s.withNamed s.handles handle fun h => (.handle (s.process.pathOf h) (s.process.describeHandle h), s)
  | .look handle symbol => s.withNamed s.handles handle fun h => s.look h symbol
  | .compare a b =>
    s.withNamed s.handles a fun x => s.withNamed s.handles b fun y => (.same (x == y), s)
  | .bind handle symbol keep declared =>
    s.withNamed s.handles handle fun h => s.bind h symbol keep declared
  | .invoke symbol text => s.withNamed s.symbols symbol fun r => (rawAnswer r text, s)
  | .bridge name config source => s.makeBridge name config source
  | .call bridge text =>
    s.withNamed s.bridges bridge fun b =>
      s.conclude (fun s n => (.number n, s)) (s.process.call b text)
  | .callMany bridge text threads =>
    s.withNamed s.bridges bridge fun b => s.callMany b text threads
  | .describeBridge bridge =>
    s.withNamed s.bridges bridge fun b =>
      let c := s.process.bridge b
      (.bridgeDetails (s.process.loader c.loader).state c.bound.isSome
        (s.process.loader c.loader).library (s.process.loadedPath? c.loader)
        (s.process.describeBridge b), s)
  | .loadBridge bridge keep =>
    s.withNamed s.bridges bridge fun b => s.ensureLoaded (s.process.bridge b).loader keep
  | .drop name => s.drop name

/-- The answer to a command with what was reported meanwhile, and the session
behind it. -/
def answer (s : Session) (c : Command) : (Reply × List Report) × Session :=
  let (reply, next) := s.step c
  ((reply, next.process.journal.drop s.process.journal.length), next)

end Session
end Linkage
