import Linkage.Loading

/-!
# Binding a name

A name is bound to the function that the library exports under it.  The declared
signature has to be the one shape that can be called; and if the library exports
the text of a signature for the name, that text has to read as the declared
signature.  A library that exports none is trusted on the first check alone.
-/

namespace Linkage

/-- What stands for a descriptor that is a null pointer. -/
def nullDescriptor : String := "<null descriptor>"

/-- The text that a describing function gives. -/
def descriptorText (f : Function) : String :=
  match f.describe with
  | none => nullDescriptor
  | some bytes => String.ofList (Utf8.decodeLossy bytes)

/-- What is reported as found where a declared signature cannot be called. -/
def onlyCallable : String := Signature.callable.text ++ " (the only callable shape)"

namespace Process

/-- The text of the signature exported for a name, if there is one. -/
def exportedDescriptor (p : Process) (h : Handle) (name : String) :
    Outcome (Option String) × Process :=
  match p.findSymbol h (name ++ Signature.suffix) with
  | (.panic, p) => (.panic, p)
  | (.error e, p) => (.error e, p)
  | (.ok none, p) => (.ok none, p)
  | (.ok (some f), p) => (.ok (some (descriptorText f)), p)

/-- Looks a name up in a library and checks it against a declared signature. -/
def resolve (p : Process) (h : Handle) (name : String) (declared : Signature) :
    Outcome SymbolReference × Process :=
  match p.findSymbol h name with
  | (.panic, p) => (.panic, p)
  | (.error e, p) => (.error e, p)
  | (.ok none, p) => (.error (.symbolNotFound name (p.pathOf h)), p)
  | (.ok (some f), p) =>
    if declared ≠ .callable then
      (.error (.signatureMismatch name declared.text onlyCallable), p)
    else
      match p.exportedDescriptor h name with
      | (.panic, p) => (.panic, p)
      | (.error e, p) => (.error e, p)
      | (.ok (some text), p) =>
        if Signature.parse? text = some declared then
          (.ok ⟨h, name, declared, f⟩, p.note (.descriptorVerified name declared))
        else (.error (.signatureMismatch name declared.text text), p)
      | (.ok none, p) => (.ok ⟨h, name, declared, f⟩, p.note (.descriptorAbsent name))

/-- Binds the name of a bridge in a library, and notes how it went. -/
def bind (p : Process) (b : BridgeId) (h : Handle) : Outcome SymbolReference × Process :=
  match p.resolve h (p.bridge b).symbol .callable with
  | (.panic, p) => (.panic, p)
  | (.error e, p) => (.error e, p.note (.bindingFailed (p.bridge b).symbol e))
  | (.ok r, p) => (.ok r, p.note (.bound r.name r.signature))

end Process
end Linkage
