import Linkage.Argument
import Linkage.Signature
import Linkage.Text.Terminated

/-!
# Native functions

What can stand behind an exported name.  A name is bound to a *measuring*
function, which takes the pointer to a text and answers with one 64-bit number;
beside it a library may export a *describing* function, which takes nothing and
answers with the pointer to the text of a signature.

An address does not tell which kind stands behind it, so both uses are defined
for every function as far as one answer fits the other use: a null pointer is the
number zero.  The number of any other pointer is not fixed; zero stands for it.
-/

namespace Linkage

/-- A function exported by a library. -/
inductive Function where
  /-- Counts the scalar values of its argument. -/
  | scalarLength
  /-- Counts the bytes of its argument. -/
  | byteLength
  /-- Answers with one number, whatever its argument. -/
  | constant (answer : Int64)
  /-- Answers as a table has it for the bytes of its argument, and with one number
  where the table has nothing. -/
  | tabulated (answers : List (List UInt8 × Int64)) (otherwise : Int64)
  /-- Answers with the pointer to a descriptor, or with a null pointer. -/
  | descriptor (text : Option (List UInt8))
  deriving DecidableEq, Repr

namespace Function

/-- Calling a function with the pointer to a buffer. -/
def invoke (f : Function) (buffer : List UInt8) : Int64 :=
  match f with
  | .scalarLength => exportedLength (some buffer)
  | .byteLength => lengthAnswer (cString buffer).length
  | .constant answer => answer
  | .tabulated answers otherwise =>
    ((answers.find? fun e => e.1 = cString buffer).map (·.2)).getD otherwise
  | .descriptor _ => 0

/-- Calling a function for the text of a descriptor; `none` is a null pointer. -/
def describe (f : Function) : Option (List UInt8) :=
  match f with
  | .descriptor (some text) => some (cString text)
  | _ => none

/-- The describing function for a signature. -/
def describing (s : Signature) : Function :=
  .descriptor (some (Utf8.encode s.text.toList))

end Function

/-- What is exported under a name: a function, or nothing at an address of zero. -/
abbrev Exported := Option Function

/-- A loadable library: its exports by name, the first of a name counting. -/
structure Image where
  exports : List (String × Exported)
  deriving DecidableEq, Repr

namespace Image

/-- The function found under a requested name.  Nothing is found under the empty
name, nor under one that the platform refuses. -/
def find? (image : Image) (name : String) : Option Function :=
  match Text.platformName? name with
  | none | some [] => none
  | some cs => ((image.exports.find? fun e => e.1.toList = cs).map (·.2)).join

/-- The exported name under which the measuring function is shipped. -/
def lengthSymbol : String := "calculate_string_length_from_rust"

/-- The library that ships the measuring function and its signature. -/
def lengthLibrary : Image where
  exports := [
    (lengthSymbol, some .scalarLength),
    (lengthSymbol ++ Signature.suffix, some (.describing .callable))]

/-- The program itself, loaded under the empty name: it exports nothing. -/
def program : Image := ⟨[]⟩

end Image
end Linkage
