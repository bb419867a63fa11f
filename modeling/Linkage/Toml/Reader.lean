import Linkage.Text.Split
import Linkage.Toml.Number

/-!
# Reading a document

A document is read line by line.  A line is blank, or holds a comment, a header,
or a key with its value; each adds to the table read so far by the rules of
`Toml.Value`, and a line that breaks a rule makes the whole document malformed.

Readers take the text from the front and give back what they read and what
follows.  Values nest, and arrays and tables in braces may be nested less than
eighty deep, so the reader of values recurs on the depth that is left.  Within a
value, and from line to line, every turn of a loop takes at least one character,
so the length of the document bounds the turns; it is passed along as `fuel`.
-/

namespace Linkage
namespace Toml

/-- How many arrays and tables in braces may stand in one another, and how many
names a dotted key may have: one less than this. -/
def nestingLimit : Nat := 80

/-- The text without the blanks at its front. -/
def skipSpaces (cs : List Char) : List Char := cs.dropWhile isSpace

/-- The text without a comment at its front. -/
def skipComment : List Char → List Char
  | '#' :: rest => rest.dropWhile isLineChar
  | cs => cs

/-- What follows the end of a line. -/
def behindLineEnd? : List Char → Option (List Char)
  | [] => some []
  | cs => behindBreak? cs

/-- What follows the rest of a line that has its content: blanks, a comment and
the end of the line. -/
def behindLine? (cs : List Char) : Option (List Char) :=
  behindLineEnd? (skipComment (skipSpaces cs))

/-- The text without the blanks, comments and line breaks at its front. -/
def skipLines : (fuel : Nat) → List Char → List Char
  | 0, cs => cs
  | fuel + 1, cs =>
    let cs := skipSpaces cs
    match behindBreak? (skipComment cs) with
    | some rest => skipLines fuel rest
    | none => cs

/-! ## Keys -/

/-- Whether a character may stand in a name without quotes. -/
def isNameChar (c : Char) : Bool := c.isAlphanum || c == '_' || c == '-'

/-- Reads one name of a key, blanks around it included. -/
def name? (cs : List Char) : Option (String × List Char) :=
  let cs := skipSpaces cs
  let read := match cs with
    | '"' :: _ | '\'' :: _ => readLineString? cs
    | _ =>
      let name := cs.takeWhile isNameChar
      if name.isEmpty then none else some (name, cs.dropWhile isNameChar)
  read.map fun (name, rest) => (String.ofList name, skipSpaces rest)

/-- Reads the names of a dotted key; `names` are those read so far, latest first. -/
def namesFrom (names : List String) : (fuel : Nat) → List Char → Option (List String × List Char)
  | 0, _ => none
  | fuel + 1, cs =>
    match name? cs with
    | none => none
    | some (name, '.' :: rest) => namesFrom (name :: names) fuel rest
    | some (name, rest) => some (name :: names, rest)

/-- Reads a key: the names in front of the last one, and the last one. -/
def key? (fuel : Nat) (cs : List Char) : Option ((List String × String) × List Char) :=
  match namesFrom [] fuel cs with
  | some (last :: before, rest) =>
    if before.length + 1 < nestingLimit then some ((before.reverse, last), rest) else none
  | _ => none

/-! ## Values -/

/-- Reads a value that is neither an array nor a table. -/
def simple? (cs : List Char) : Option (Value × List Char) :=
  match cs with
  | [] => none
  | c :: _ =>
    if c = '"' ∨ c = '\'' then
      (readString? cs).map fun (text, rest) => (.string (String.ofList text), rest)
    else if c = 't' then (Text.behind? "true".toList cs).map fun rest => (.boolean true, rest)
    else if c = 'f' then (Text.behind? "false".toList cs).map fun rest => (.boolean false, rest)
    else if c.isDigit ∨ c = '+' ∨ c = '-' ∨ c = 'i' ∨ c = 'n' then number? cs
    else none

/-- Reads the items of an array from where one may stand, up to the closing
bracket; `items` are those read so far, latest first. -/
def itemsFrom (fuel : Nat) (value? : List Char → Option (Value × List Char))
    (items : List Value) : (turns : Nat) → List Char → Option (List Value × List Char)
  | 0, _ => none
  | turns + 1, cs =>
    match skipLines fuel cs with
    | ']' :: rest => some (items.reverse, rest)
    | cs =>
      match value? cs with
      | none => none
      | some (v, rest) =>
        match skipLines fuel rest with
        | ',' :: rest => itemsFrom fuel value? (v :: items) turns rest
        | ']' :: rest => some ((v :: items).reverse, rest)
        | _ => none

/-- Reads a key, the sign between key and value, and the value. -/
def entry? (fuel : Nat) (value? : List Char → Option (Value × List Char)) (cs : List Char) :
    Option ((List String × String × Value) × List Char) :=
  match key? fuel cs with
  | some ((way, key), '=' :: rest) =>
    (value? (skipSpaces rest)).map fun (v, rest) => ((way, key, v), rest)
  | _ => none

/-- Reads the entries of a table in braces from where one has to stand, up to the
closing brace. -/
def entriesFrom (fuel : Nat) (value? : List Char → Option (Value × List Char)) (t : Table) :
    (turns : Nat) → List Char → Option (Table × List Char)
  | 0, _ => none
  | turns + 1, cs =>
    match entry? fuel value? cs with
    | none => none
    | some ((way, key, v), rest) =>
      match t.addDotted way key v with
      | none => none
      | some t =>
        match skipSpaces rest with
        | ',' :: rest => entriesFrom fuel value? t turns rest
        | '\x7d' :: rest => some (t, rest)
        | _ => none

/-- Reads a value in which arrays and tables in braces nest at most `depth` deep. -/
def value? (fuel : Nat) : (depth : Nat) → List Char → Option (Value × List Char)
  | 0, cs => simple? cs
  | depth + 1, cs =>
    match cs with
    | '[' :: rest =>
      (itemsFrom fuel (value? fuel depth) [] fuel rest).map fun (items, rest) =>
        (.array items, rest)
    | '\x7b' :: rest =>
      match skipSpaces rest with
      | '\x7d' :: rest => some (.table .inline [], rest)
      | rest =>
        (entriesFrom fuel (value? fuel depth) [] fuel rest).map fun (t, rest) =>
          (.table .inline t, rest)
    | cs => simple? cs

/-! ## Lines -/

/-- What has been read of a document: the table, and the path of the header that
the next entries belong to. -/
structure Reading where
  root : Table
  here : List String

/-- Reads a header behind its opening brackets; `close` are the closing ones. -/
def header? (fuel : Nat) (close : List Char) (cs : List Char) :
    Option ((List String × String) × List Char) :=
  match key? fuel cs with
  | none => none
  | some (key, rest) =>
    match Text.behind? close rest with
    | none => none
    | some rest => (behindLine? rest).map fun rest => (key, rest)

/-- Reads one line that is not blank, from its first character that is no blank. -/
def line? (fuel : Nat) (r : Reading) (cs : List Char) : Option (Reading × List Char) :=
  match cs with
  | '[' :: '[' :: rest =>
    match header? fuel [']', ']'] rest with
    | none => none
    | some ((way, key), rest) =>
      (r.root.within (Table.openNext key) way).map fun root => (⟨root, way ++ [key]⟩, rest)
  | '[' :: rest =>
    match header? fuel [']'] rest with
    | none => none
    | some ((way, key), rest) =>
      (r.root.within (Table.openTable key) way).map fun root => (⟨root, way ++ [key]⟩, rest)
  | cs =>
    match entry? fuel (value? fuel (nestingLimit - 1)) cs with
    | none => none
    | some ((way, key, v), rest) =>
      match behindLine? rest, r.root.within (fun t => t.addDotted way key v) r.here with
      | some rest, some root => some (⟨root, r.here⟩, rest)
      | _, _ => none

/-- Reads the lines of a document. -/
def linesFrom (fuel : Nat) (r : Reading) : (turns : Nat) → List Char → Option Reading
  | 0, _ => none
  | turns + 1, cs =>
    match skipSpaces cs with
    | [] => some r
    | c :: rest =>
      if c = '#' then
        match behindLine? (c :: rest) with
        | some rest => linesFrom fuel r turns rest
        | none => none
      else
        match behindBreak? (c :: rest) with
        | some rest => linesFrom fuel r turns rest
        | none =>
          match line? fuel r (c :: rest) with
          | some (r, rest) => linesFrom fuel r turns rest
          | none => none

/-- The text without the mark of its byte order at the front. -/
def skipMark : List Char → List Char
  | '\uFEFF' :: rest => rest
  | cs => cs

/-- Reads a document: its table, or nothing if it is malformed. -/
def read? (text : String) : Option Table :=
  let cs := skipMark text.toList
  let fuel := cs.length + 1
  (linesFrom fuel ⟨[], []⟩ fuel cs).map Reading.root

end Toml
end Linkage
