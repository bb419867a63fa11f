import Linkage.Process
import Linkage.Text.Quoted

/-!
# Descriptions of objects

What a loader, a handle, a bound function and a bridge look like in a message for
developers.  Texts and paths are quoted; the source, the locks and the library
itself are left out.
-/

namespace Linkage

/-- The description of a loader. -/
def Loader.describe (c : Loader) : String :=
  Text.describeRecord "NativeLibraryLoader"
    [("library", Text.quoted c.library), ("state", c.state.name)] true

namespace Process

/-- The description of a handle. -/
def describeHandle (p : Process) (h : Handle) : String :=
  Text.describeRecord "LibraryHandle" [("path", Text.quotedPath (p.pathOf h).text)] true

/-- The description of a bound function. -/
def describeReference (p : Process) (r : SymbolReference) : String :=
  Text.describeRecord "SymbolReference"
    [("name", Text.quoted r.name), ("signature", Text.quoted r.signature.text),
      ("library", Text.quotedPath (p.pathOf r.handle).text)] false

/-- The description of what a bridge declares to bind. -/
def describeBinding (symbol : String) : String :=
  Text.describeRecord "NativeSymbolBinding"
    [("name", Text.quoted symbol), ("signature", Signature.callable.describe)] false

/-- The description of a bridge. -/
def describeBridge (p : Process) (b : BridgeId) : String :=
  let c := p.bridge b
  Text.describeRecord "Bridge"
    [("loader", (p.loader c.loader).describe), ("binding", describeBinding c.symbol),
      ("bound", toString c.bound.isSome)] false

end Process
end Linkage
