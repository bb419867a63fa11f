import Linkage.Process

/-!
# Loading a library

A loader loads its library once.  As long as it has no handle, each request makes
one attempt: the source says where the library is, the place is looked up in the
registry, and only a library that is not registered is opened and then registered.
A failed attempt leaves nothing behind but its state, so the next request starts
over; a panic leaves even the state as the attempt had set it.
-/

namespace Linkage

/-- A load that succeeded: the path at which the source had the library, the place
by which it is known process-wide, its handle, and whether it was opened for this. -/
structure Load where
  path : Path
  key : Path
  handle : Handle
  opened : Bool
  deriving DecidableEq, Repr

namespace Process

/-- One attempt to have the library of a loader. -/
def load (p : Process) (l : LoaderId) : Outcome Load × Process :=
  let c := p.loader l
  match p.locate c.source c.library (some l) with
  | (.panic, p) => (.panic, p)
  | (.error e, p) => (.error e, p)
  | (.ok path, p) =>
    let key := p.host.registryKey path
    match p.registered? key with
    | some h => (.ok ⟨path, key, h, false⟩, p.note (.reusing path))
    | none =>
      match p.openLibrary c.source path (some l) with
      | (.panic, p) => (.panic, p)
      | (.error e, p) => (.error e, p)
      | (.ok h, p) => (.ok ⟨path, key, h, true⟩, p.register key h)

/-- What a loader does with the handle of its attempt. -/
def finishLoaded (p : Process) (l : LoaderId) (a : Load) : Outcome Handle × Process :=
  let p := p.storeHandle l a.handle
  let h := (p.loader l).handle.getD a.handle
  (.ok h, (p.setState l .loaded).note (.loaded (p.loader l).library (p.pathOf h)))

/-- What a loader does with the failure of its attempt. -/
def finishFailed (p : Process) (l : LoaderId) (e : BridgeError) : Outcome Handle × Process :=
  (.error e, (p.setState l .failed).note (.loadFailed (p.loader l).library e))

/-- The handle of a loader, which loads its library if it has none. -/
def ensureLoaded (p : Process) (l : LoaderId) : Outcome Handle × Process :=
  match (p.loader l).handle with
  | some h => (.ok h, p)
  | none =>
    match (p.setState l .loading).load l with
    | (.panic, p) => (.panic, p)
    | (.error e, p) => p.finishFailed l e
    | (.ok a, p) => p.finishLoaded l a

/-- A loader that has its handle gives it and changes nothing. -/
theorem ensureLoaded_of_handle {p : Process} {l : LoaderId} {h : Handle}
    (hh : (p.loader l).handle = some h) : p.ensureLoaded l = (.ok h, p) := by
  simp [ensureLoaded, hh]

end Process
end Linkage
