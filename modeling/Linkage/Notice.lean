import Linkage.BridgeError
import Linkage.Signature

/-!
# What a process reports

Two kinds of reports are kept in one journal, in the order in which they are made.
*Notices* tell of the steps of loading, binding and calling; each has a level,
fixed words, and named details.  *Uses* tell how a watched source was used.
-/

namespace Linkage

/-- Where a loader stands with its library. -/
inductive LoadState where
  | unloaded
  | loading
  | loaded
  | failed
  deriving DecidableEq, Repr

/-- The name of a state. -/
def LoadState.name : LoadState → String
  | .unloaded => "Unloaded"
  | .loading => "Loading"
  | .loaded => "Loaded"
  | .failed => "Failed"

/-- How much a notice matters. -/
inductive Level where
  | trace
  | debug
  | info
  | warn
  deriving DecidableEq, Repr

/-- The name of a level. -/
def Level.name : Level → String
  | .trace => "TRACE"
  | .debug => "DEBUG"
  | .info => "INFO"
  | .warn => "WARN"

/-- A notable event of loading, binding or calling. -/
inductive Notice where
  /-- A file is looked at. -/
  | probing (candidate : Path)
  /-- The library is open already. -/
  | reusing (path : Path)
  | loaded (library : String) (path : Path)
  | loadFailed (library : String) (error : BridgeError)
  /-- The exported signature agrees. -/
  | descriptorVerified (symbol : String) (signature : Signature)
  /-- No signature is exported. -/
  | descriptorAbsent (symbol : String)
  | bound (symbol : String) (signature : Signature)
  | bindingFailed (symbol : String) (error : BridgeError)
  | called (symbol : String) (bytes : Nat) (length : Int64)
  | callFailed (symbol : String) (status : CallStatus)
  deriving DecidableEq, Repr

namespace Notice

/-- How much a notice matters. -/
def level : Notice → Level
  | .probing _ | .reusing _ | .descriptorVerified _ _ | .descriptorAbsent _ => .debug
  | .loaded _ _ | .bound _ _ => .info
  | .loadFailed _ _ | .bindingFailed _ _ | .callFailed _ _ => .warn
  | .called _ _ _ => .trace

/-- The words of a notice. -/
def words : Notice → String
  | .probing _ => "probing for native library"
  | .reusing _ => "reusing process-wide library handle"
  | .loaded _ _ => "native library loaded"
  | .loadFailed _ _ => "native library load failed"
  | .descriptorVerified _ _ => "signature descriptor verified"
  | .descriptorAbsent _ => "no signature descriptor exported"
  | .bound _ _ => "native symbol bound"
  | .bindingFailed _ _ => "symbol resolution failed"
  | .called _ _ _ => "native call"
  | .callFailed _ _ => "native call failed"

/-- The details of a notice, by name. -/
def details : Notice → List (String × String)
  | .probing candidate => [("candidate", candidate.text)]
  | .reusing path => [("path", path.text)]
  | .loaded library path => [("library", library), ("path", path.text)]
  | .loadFailed library error => [("library", library), ("error", error.message)]
  | .descriptorVerified symbol signature =>
    [("symbol", symbol), ("signature", signature.text)]
  | .descriptorAbsent symbol => [("symbol", symbol)]
  | .bound symbol signature => [("symbol", symbol), ("signature", signature.text)]
  | .bindingFailed symbol error => [("symbol", symbol), ("error", error.message)]
  | .called symbol bytes length =>
    [("symbol", symbol), ("bytes", toString bytes), ("length", toString length.toInt)]
  | .callFailed symbol status => [("symbol", symbol), ("status", status.message)]

end Notice

/-- A use of a watched source.  The state is that of the loader on whose behalf
the source is used, if there is one. -/
inductive Use where
  | locate (source library : String) (state : Option LoadState)
  | opening (source : String) (path : Path) (state : Option LoadState)
  | symbol (source name : String) (found : Bool)
  deriving DecidableEq, Repr

/-- An entry of the journal. -/
inductive Report where
  | notice (n : Notice)
  | use (u : Use)
  deriving DecidableEq, Repr

/-- The notices of a journal. -/
def notices (journal : List Report) : List Notice :=
  journal.filterMap fun
    | .notice n => some n
    | .use _ => none

/-- The uses of a journal. -/
def uses (journal : List Report) : List Use :=
  journal.filterMap fun
    | .use u => some u
    | .notice _ => none

end Linkage
