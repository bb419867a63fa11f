import Linkage.Binding
import Linkage.Config.Document

/-!
# Calling through a bridge

A call goes through four stages: the library is loaded, the name is bound, the
text is copied, and the function is called.  The first stage that fails is the
answer, with its failure unchanged.  Loading and binding happen until they have
succeeded once; after that a call only copies the text and calls.
-/

namespace Linkage
namespace Process

/-- The bound function of a bridge, which loads and binds if there is none. -/
def resolved (p : Process) (b : BridgeId) : Outcome SymbolReference × Process :=
  match (p.bridge b).bound with
  | some r => (.ok r, p)
  | none =>
    match p.ensureLoaded (p.bridge b).loader with
    | (.panic, p) => (.panic, p)
    | (.error e, p) => (.error e, p)
    | (.ok h, p) =>
      match p.bind b h with
      | (.panic, p) => (.panic, p)
      | (.error e, p) => (.error e, p)
      | (.ok r, p) =>
        let p := p.storeSymbol b r
        (.ok ((p.bridge b).bound.getD r), p)

/-- What the answer of a function means: a length, or a failure with its status. -/
def classify (p : Process) (r : SymbolReference) (text : String) (answer : Int64) :
    Outcome Int64 × Process :=
  match CallStatus.ofAnswer? answer with
  | some status => (.error (.invocation r.name status), p.note (.callFailed r.name status))
  | none => (.ok answer, p.note (.called r.name text.utf8ByteSize answer))

/-- Copies a text and calls a bound function with it. -/
def invoke (p : Process) (r : SymbolReference) (text : String) : Outcome Int64 × Process :=
  match Argument.ofText text with
  | .error offset => (.error (.marshal offset), p)
  | .ok argument => p.classify r text (r.function.invoke argument.buffer)

/-- The length of a text, measured by the function that a bridge binds. -/
def call (p : Process) (b : BridgeId) (text : String) : Outcome Int64 × Process :=
  match p.resolved b with
  | (.panic, p) => (.panic, p)
  | (.error e, p) => (.error e, p)
  | (.ok r, p) => p.invoke r text

/-! ## Bridges from configurations -/

/-- The source that searches the disk as a configuration says.  The environment
is looked at now, not when the library is searched for. -/
def systemOrigin (p : Process) (c : Config) : Origin :=
  .system (Search.dirs p.host c.searchPaths c.systemSearchPaths)

/-- Makes a bridge for a configuration, over a given source or the disk. -/
def newBridgeFor (p : Process) (c : Config) (source : Option Source) : BridgeId × Process :=
  p.newBridge c.library c.symbol (source.getD ⟨p.systemOrigin c, none, none⟩)

/-- The length of a text, measured through a bridge with the default
configuration. -/
def textLength (p : Process) (text : String) : Outcome Int64 :=
  let (b, p) := p.newBridgeFor .default none
  (p.call b text).1

end Process
end Linkage
