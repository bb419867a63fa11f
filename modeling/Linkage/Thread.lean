import Linkage.Bridge

/-!
# A thread on its way through a call

Threads call bridges and loaders at the same time.  What a thread does is cut into
*stages*: each stage reads or writes one cell, takes or gives back one lock, or
uses a source or a library once, and names the stage that follows.  Between two
stages other threads may run.

The way through the stages is the same as in `Process.ensureLoaded` and
`Process.call`, with the locks between them.  A cell is read first without a lock.
A thread that finds it empty takes the lock of its loader (or bridge) and reads
the cell again, since another thread may have filled it meanwhile; and the lock of
the registry is held from the look into it to the entry, so no library is opened
twice.  A panic goes the way of a failure past the writing of the state: the locks
are given back, and nothing else is done.

No stage leads back, so every thread ends: each stage has a number of stages that
at most remain, and the next one has fewer.
-/

namespace Linkage

/-- What a thread wants: the handle of a loader, or a call through a bridge. -/
inductive Goal where
  | load (l : LoaderId)
  | call (b : BridgeId) (text : String)
  deriving DecidableEq, Repr

/-- What a thread gets. -/
inductive Answer where
  | handle (h : Handle)
  | length (n : Int64)
  deriving DecidableEq, Repr

/-- The stages of a thread. -/
inductive Stage where
  /-- Reads the bound function of the bridge. -/
  | readSymbol
  /-- Reads the handle of the loader. -/
  | readHandle
  /-- Takes the lock of the loader. -/
  | enterLoading
  /-- Reads the handle again. -/
  | rereadHandle
  /-- Writes that the loader is loading. -/
  | markLoading
  /-- Asks the source where the library is. -/
  | locate
  /-- Finds the place by which the library is known. -/
  | findPlace (path : Path)
  /-- Takes the lock of the registry. -/
  | enterRegistry (path key : Path)
  /-- Looks into the registry. -/
  | lookUp (path key : Path)
  /-- Asks the source to open the library. -/
  | opening (path key : Path)
  /-- Enters the library into the registry. -/
  | register (a : Load)
  /-- Gives back the lock of the registry. -/
  | leaveRegistry (o : Outcome Load)
  /-- Writes the handle of the loader. -/
  | storeHandle (a : Load)
  /-- Writes that the loader has loaded. -/
  | markLoaded (h : Handle)
  /-- Writes that the loader has failed. -/
  | markFailed (e : BridgeError)
  /-- Gives back the lock of the loader. -/
  | leaveLoading (o : Outcome Handle)
  /-- Takes the lock of the bridge. -/
  | enterBinding (h : Handle)
  /-- Reads the bound function again. -/
  | rereadSymbol (h : Handle)
  /-- Binds the name. -/
  | bind (h : Handle)
  /-- Writes the bound function of the bridge. -/
  | storeSymbol (r : SymbolReference)
  /-- Gives back the lock of the bridge. -/
  | leaveBinding (o : Outcome SymbolReference)
  /-- Copies the text. -/
  | copy (r : SymbolReference)
  /-- Calls the function with the copy. -/
  | invoke (r : SymbolReference) (argument : Argument)
  /-- Has ended. -/
  | done (o : Outcome Answer)

/-- The number of stages that at most remain. -/
def Stage.remaining : Stage → Nat
  | .readSymbol => 23
  | .readHandle => 22
  | .enterLoading => 21
  | .rereadHandle => 20
  | .markLoading => 19
  | .locate => 18
  | .findPlace _ => 17
  | .enterRegistry _ _ => 16
  | .lookUp _ _ => 15
  | .opening _ _ => 14
  | .register _ => 13
  | .leaveRegistry _ => 12
  | .storeHandle _ => 11
  | .markLoaded _ => 10
  | .markFailed _ => 9
  | .leaveLoading _ => 8
  | .enterBinding _ => 7
  | .rereadSymbol _ => 6
  | .bind _ => 5
  | .storeSymbol _ => 4
  | .leaveBinding _ => 3
  | .copy _ => 2
  | .invoke _ _ => 1
  | .done _ => 0

/-- A thread: what it wants and where it is. -/
structure Task where
  goal : Goal
  stage : Stage

namespace Task

/-- A thread that wants the handle of a loader. -/
def load (l : LoaderId) : Task := ⟨.load l, .readHandle⟩

/-- A thread that wants a call through a bridge. -/
def call (b : BridgeId) (text : String) : Task := ⟨.call b text, .readSymbol⟩

/-- The outcome of a thread that has ended. -/
def outcome? (t : Task) : Option (Outcome Answer) :=
  match t.stage with
  | .done o => some o
  | _ => none

/-- The loader a thread is concerned with. -/
def loaderOf (p : Process) : Goal → LoaderId
  | .load l => l
  | .call b _ => (p.bridge b).loader

/-- Where a thread goes on when its loader has answered. -/
def afterLoading (goal : Goal) : Outcome Handle → Stage
  | .panic => .done .panic
  | .error e => .done (.error e)
  | .ok h =>
    match goal with
    | .load _ => .done (.ok (.handle h))
    | .call _ _ => .enterBinding h

/-- Where a thread goes on when its bridge has answered. -/
def afterBinding : Outcome SymbolReference → Stage
  | .panic => .done .panic
  | .error e => .done (.error e)
  | .ok r => .copy r

/-- The bridge and the text of a call. -/
def callOf : Goal → BridgeId × String
  | .load _ => (0, "")
  | .call b text => (b, text)

/-- One stage of a thread: the state behind it, and the stage that follows.  There
is none for a thread that has ended, and none while another holds the lock that
the stage takes. -/
def advance (self : ThreadId) (p : Process) (goal : Goal) : Stage → Option (Process × Stage)
  | .readSymbol =>
    match goal, (p.bridge (callOf goal).1).bound with
    | .call _ _, some r => some (p, .copy r)
    | _, _ => some (p, .readHandle)
  | .readHandle =>
    match (p.loader (loaderOf p goal)).handle with
    | some h => some (p, afterLoading goal (.ok h))
    | none => some (p, .enterLoading)
  | .enterLoading =>
    (p.acquire? (.loading (loaderOf p goal)) self).map fun p => (p, .rereadHandle)
  | .rereadHandle =>
    match (p.loader (loaderOf p goal)).handle with
    | some h => some (p, .leaveLoading (.ok h))
    | none => some (p, .markLoading)
  | .markLoading => some (p.setState (loaderOf p goal) .loading, .locate)
  | .locate =>
    let l := loaderOf p goal
    match p.locate (p.loader l).source (p.loader l).library (some l) with
    | (.ok path, p) => some (p, .findPlace path)
    | (.error e, p) => some (p, .markFailed e)
    | (.panic, p) => some (p, .leaveLoading .panic)
  | .findPlace path => some (p, .enterRegistry path (p.host.registryKey path))
  | .enterRegistry path key =>
    (p.acquire? .registry self).map fun p => (p, .lookUp path key)
  | .lookUp path key =>
    match p.registered? key with
    | some h => some (p.note (.reusing path), .leaveRegistry (.ok ⟨path, key, h, false⟩))
    | none => some (p, .opening path key)
  | .opening path key =>
    let l := loaderOf p goal
    match p.openLibrary (p.loader l).source path (some l) with
    | (.ok h, p) => some (p, .register ⟨path, key, h, true⟩)
    | (.error e, p) => some (p, .leaveRegistry (.error e))
    | (.panic, p) => some (p, .leaveRegistry .panic)
  | .register a => some (p.register a.key a.handle, .leaveRegistry (.ok a))
  | .leaveRegistry o =>
    match o with
    | .ok a => some (p.release .registry, .storeHandle a)
    | .error e => some (p.release .registry, .markFailed e)
    | .panic => some (p.release .registry, .leaveLoading .panic)
  | .storeHandle a =>
    let l := loaderOf p goal
    let p := p.storeHandle l a.handle
    some (p, .markLoaded ((p.loader l).handle.getD a.handle))
  | .markLoaded h =>
    let l := loaderOf p goal
    some ((p.setState l .loaded).note (.loaded (p.loader l).library (p.pathOf h)),
      .leaveLoading (.ok h))
  | .markFailed e =>
    let l := loaderOf p goal
    some ((p.setState l .failed).note (.loadFailed (p.loader l).library e),
      .leaveLoading (.error e))
  | .leaveLoading o =>
    some (p.release (.loading (loaderOf p goal)), afterLoading goal o)
  | .enterBinding h =>
    (p.acquire? (.binding (callOf goal).1) self).map fun p => (p, .rereadSymbol h)
  | .rereadSymbol h =>
    match (p.bridge (callOf goal).1).bound with
    | some r => some (p, .leaveBinding (.ok r))
    | none => some (p, .bind h)
  | .bind h =>
    match p.bind (callOf goal).1 h with
    | (.ok r, p) => some (p, .storeSymbol r)
    | (.error e, p) => some (p, .leaveBinding (.error e))
    | (.panic, p) => some (p, .leaveBinding .panic)
  | .storeSymbol r =>
    let p := p.storeSymbol (callOf goal).1 r
    some (p, .leaveBinding (.ok ((p.bridge (callOf goal).1).bound.getD r)))
  | .leaveBinding o => some (p.release (.binding (callOf goal).1), afterBinding o)
  | .copy r =>
    match Argument.ofText (callOf goal).2 with
    | .error offset => some (p, .done (.error (.marshal offset)))
    | .ok argument => some (p, .invoke r argument)
  | .invoke r argument =>
    match p.classify r (callOf goal).2 (r.function.invoke argument.buffer) with
    | (.ok n, p) => some (p, .done (.ok (.length n)))
    | (.error e, p) => some (p, .done (.error e))
    | (.panic, p) => some (p, .done .panic)
  | .done _ => none

/-- One stage of a thread. -/
def step? (self : ThreadId) (p : Process) (t : Task) : Option (Process × Task) :=
  (advance self p t.goal t.stage).map fun (p, stage) => (p, ⟨t.goal, stage⟩)

theorem afterLoading_remaining (goal : Goal) (o : Outcome Handle) :
    (afterLoading goal o).remaining < 8 := by
  cases o <;> cases goal <;> simp [afterLoading, Stage.remaining]

theorem afterBinding_remaining (o : Outcome SymbolReference) :
    (afterBinding o).remaining < 3 := by
  cases o <;> simp [afterBinding, Stage.remaining]

/-- Every stage leads to one with fewer that remain. -/
theorem advance_remaining {self : ThreadId} {p q : Process} {goal : Goal} {s s' : Stage}
    (h : advance self p goal s = some (q, s')) : s'.remaining < s.remaining := by
  have after := afterLoading_remaining goal
  have bound := afterBinding_remaining
  cases s <;> simp only [advance] at h
  all_goals grind [Stage.remaining, Option.map_eq_some_iff]

end Task
end Linkage
