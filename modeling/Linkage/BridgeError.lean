import Linkage.CallStatus
import Linkage.Path

/-!
# Failures on the way to a native call

Every failure is named for its cause and carries what is needed to report it.
The wording is in one place, and the stages of a call pass a failure on
unchanged.
-/

namespace Linkage

/-- Why a located library could not be opened: for a reason given in words, or
because the platform's loader refused it, in words of its own. -/
inductive OpenReason where
  | given (words : String)
  | refused
  deriving DecidableEq, Repr

/-- The words of a reason; a placeholder stands for those of the platform. -/
def OpenReason.words : OpenReason → String
  | .given words => words
  | .refused => "<reason>"

/-- A failure to load, bind or call a native library. -/
inductive BridgeError where
  /-- None of the places searched holds the library. -/
  | libraryNotFound (library : String) (searched : List Path)
  /-- The library is there and cannot be opened. -/
  | libraryLoad (path : Path) (reason : OpenReason)
  /-- The library does not export the name. -/
  | symbolNotFound (symbol : String) (path : Path)
  /-- The declared signature does not fit what is exported. -/
  | signatureMismatch (symbol declared actual : String)
  /-- The text holds a zero byte; no call was made. -/
  | marshal (offset : Nat)
  /-- The function answered with a status. -/
  | invocation (symbol : String) (status : CallStatus)
  deriving DecidableEq, Repr

namespace BridgeError

/-- The words for a text that cannot be copied. -/
def marshalMessage (offset : Nat) : String :=
  "text contains an interior NUL byte at offset " ++ toString offset

/-- The words for a failure. -/
def message : BridgeError → String
  | .libraryNotFound library searched =>
    "native library '" ++ library ++ "' not found (" ++ toString searched.length ++
      " locations searched)"
  | .libraryLoad path reason =>
    "failed to load native library " ++ path.text ++ ": " ++ reason.words
  | .symbolNotFound symbol path => "symbol '" ++ symbol ++ "' not found in " ++ path.text
  | .signatureMismatch symbol declared actual =>
    "signature mismatch for '" ++ symbol ++ "': declared " ++ declared ++ ", found " ++ actual
  | .marshal offset => marshalMessage offset
  | .invocation symbol status =>
    "native call to '" ++ symbol ++ "' failed: " ++ status.message

end BridgeError
end Linkage
