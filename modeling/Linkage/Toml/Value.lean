import Linkage.Decimal.Shortest
import Linkage.Text.Quoted

/-!
# Values of a document

A document is a table: names with values, in the order in which they first
appear.  A table remembers how it came about, because that decides what may still
be added to it: a table with a header of its own may be opened only once, one that
is only on the way to another header may still be given its own, one made by a
dotted key grows by further dotted keys, and one written in braces is closed.
-/

namespace Linkage
namespace Toml

/-- How a table came about. -/
inductive Standing where
  /-- By a header of its own. -/
  | defined
  /-- On the way to the table of a longer header. -/
  | implied
  /-- By a dotted key. -/
  | dotted
  /-- Between braces. -/
  | inline
  deriving DecidableEq, Repr

/-- A value of a document.  Dates and times are told apart from everything else,
and not from one another. -/
inductive Value where
  | string (text : String)
  | integer (n : Int)
  | float (x : Binary64)
  | boolean (b : Bool)
  | moment
  | array (items : List Value)
  | table (standing : Standing) (entries : List (String × Value))
  /-- The tables of a doubled header, in order. -/
  | tables (elements : List (List (String × Value)))

/-- A table: names with values, in order. -/
abbrev Table := List (String × Value)

/-- What a value is, in the words of a report on a wrong type.  Tables and moments
are maps. -/
def Value.found : Value → String
  | .string text => "string " ++ Text.quoted text
  | .integer n => "integer `" ++ toString n ++ "`"
  | .float x => "floating point `" ++ x.text ++ "`"
  | .boolean b => "boolean `" ++ (if b then "true" else "false") ++ "`"
  | .array _ | .tables _ => "sequence"
  | .moment | .table _ _ => "map"

namespace Table

/-- The value of a name. -/
def get? (t : Table) (key : String) : Option Value := (t.find? fun e => e.1 = key).map (·.2)

/-- Gives a name that is there another value, in place. -/
def set (t : Table) (key : String) (v : Value) : Table :=
  t.map fun e => if e.1 = key then (key, v) else e

/-- A table without a name. -/
def erase (t : Table) (key : String) : Table := t.filter fun e => e.1 ≠ key

/-! ## Adding to a table -/

/-- Adds a value under a name that is not there yet. -/
def addNew (t : Table) (key : String) (v : Value) : Option Table :=
  match t.get? key with
  | none => some (t ++ [(key, v)])
  | some _ => none

/-- Adds a value under a dotted key.  The tables on the way are made as needed;
one that is there must not have been written by a header or in braces, and the
last one must be a table that dotted keys have made. -/
def addDotted (t : Table) : List String → String → Value → Option Table
  | [], key, v => t.addNew key v
  | k :: way, key, v =>
    match t.get? k with
    | none => (addDotted [] way key v).map fun sub => t ++ [(k, .table .dotted sub)]
    | some (.table standing sub) =>
      let grows := match standing with
        | .dotted => true
        | .implied => !way.isEmpty
        | .defined | .inline => false
      if grows then (addDotted sub way key v).map fun sub => t.set k (.table standing sub)
      else none
    | some (.tables elements) =>
      match way.isEmpty, elements.getLast? with
      | false, some last =>
        (addDotted last way key v).map fun last => t.set k (.tables (elements.dropLast ++ [last]))
      | _, _ => none
    | some _ => none

/-- Changes the table that the path of a header leads to.  The tables on the way
are made as needed; in a doubled header's place the last of its tables counts. -/
def within (t : Table) (change : Table → Option Table) : List String → Option Table
  | [] => change t
  | k :: way =>
    match t.get? k with
    | none => (within [] change way).map fun sub => t ++ [(k, .table .implied sub)]
    | some (.table .inline _) => none
    | some (.table standing sub) =>
      (within sub change way).map fun sub => t.set k (.table standing sub)
    | some (.tables elements) =>
      match elements.getLast? with
      | some last =>
        (within last change way).map fun last => t.set k (.tables (elements.dropLast ++ [last]))
      | none => none
    | some _ => none

/-- Opens the table of a header.  A table that was only on the way so far takes
its place behind the names that are there. -/
def openTable (key : String) (t : Table) : Option Table :=
  match t.get? key with
  | none => some (t ++ [(key, .table .defined [])])
  | some (.table .implied sub) => some (t.erase key ++ [(key, .table .defined sub)])
  | some _ => none

/-- Opens the next table of a doubled header. -/
def openNext (key : String) (t : Table) : Option Table :=
  match t.get? key with
  | none => some (t ++ [(key, .tables [[]])])
  | some (.tables elements) => some (t.set key (.tables (elements ++ [[]])))
  | some _ => none

end Table
end Toml
end Linkage
