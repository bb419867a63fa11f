import Linkage.CType
import Linkage.Text.Blank
import Linkage.Text.Record
import Linkage.Text.Split

/-!
# Signatures

The signature of an exported function lists its parameter types and its return
type, as in `(c_char_ptr)->c_int64`.  A library may export the text of a
function's signature next to the function, so signatures are written and read.

Reading is as lenient as the writers of such texts are: blanks may stand around
the whole text, around each parameter and around the return type, and blanks
alone between the parentheses are an empty list of parameters.  Nothing may
stand inside the closing `)->`.
-/

namespace Linkage

/-- The declared signature of an exported function. -/
structure Signature where
  params : List CType
  ret : CType
  deriving DecidableEq, Repr

namespace Signature

/-- The only shape that can be called: one text in, one length out. -/
def callable : Signature := ⟨[.charPtr], .int64⟩

/-- The text of a signature. -/
def text (s : Signature) : String :=
  "(" ++ ",".intercalate (s.params.map CType.name) ++ ")->" ++ s.ret.name

/-- The type that a stretch of text names, blanks around it aside. -/
def typeOf? (part : List Char) : Option CType :=
  CType.ofName? (String.ofList (Text.trim part))

/-- The parameters between the parentheses. -/
def paramsOf? (inner : List Char) : Option (List CType) :=
  if (Text.trim inner).isEmpty then some []
  else (Text.splitOn ',' inner).mapM typeOf?

/-- Reads the characters of a signature text. -/
def ofChars? (cs : List Char) : Option Signature :=
  match Text.trim cs with
  | '(' :: rest =>
    match Text.splitAt? [')', '-', '>'] rest with
    | some (inner, ret) =>
      match paramsOf? inner, typeOf? ret with
      | some params, some ret => some ⟨params, ret⟩
      | _, _ => none
    | none => none
  | _ => none

/-- Reads a signature text. -/
def parse? (text : String) : Option Signature := ofChars? text.toList

/-- What is appended to the name of a function to name its exported signature. -/
def suffix : String := "_signature"

/-- The declaration of a signature, as descriptions of bindings show it. -/
def describe (s : Signature) : String :=
  Text.describeRecord "Signature"
    [("params", "[" ++ ", ".intercalate (s.params.map CType.tag) ++ "]"),
      ("return_type", s.ret.tag)] false

end Signature
end Linkage
