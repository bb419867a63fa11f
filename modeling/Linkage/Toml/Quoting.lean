/-!
# The four forms of a string

A string stands between double quotes or apostrophes, on one line or, with the
quote written three times, on several.  Between double quotes the backslash
escapes.  One reader serves all four forms: it goes character by character and
remembers where it stands, so what ends a string and what an escape means is said
once.

On several lines a run of quotes needs care.  Up to two are part of the text; the
third ends the string, and up to two more may stand directly in front of it, so
a run of five is two quotes of text and the end.
-/

namespace Linkage
namespace Toml

/-- A form of a string: its quote, and whether it goes over several lines.  The
backslash escapes exactly between double quotes. -/
structure Form where
  quote : Char
  lines : Bool
  deriving DecidableEq, Repr

namespace Form

/-- Between double quotes. -/
def basic : Form := ⟨'"', false⟩

/-- Between apostrophes. -/
def literal : Form := ⟨'\'', false⟩

/-- Between triple double quotes. -/
def basicLines : Form := ⟨'"', true⟩

/-- Between triple apostrophes. -/
def literalLines : Form := ⟨'\'', true⟩

/-- Whether the backslash escapes. -/
def escapes (f : Form) : Bool := f.quote = '"'

end Form

/-- Where the reader of a string stands. -/
inductive Spot where
  /-- In the text. -/
  | plain
  /-- Behind a backslash. -/
  | slash
  /-- In a character given by its number: digits left, and their value so far. -/
  | number (left value : Nat)
  /-- In the gap behind a backslash at the end of a line. -/
  | gap (crossed : Bool)
  /-- In such a gap, behind a carriage return. -/
  | gapReturn
  /-- Behind a carriage return. -/
  | lineReturn
  /-- In a run of quotes of the form's kind. -/
  | quotes (n : Nat)
  deriving DecidableEq, Repr

/-- What one character does: the reading goes on, or the string is over, with or
without that character, or it is malformed.  Texts are kept latest first. -/
inductive Move where
  | on (spot : Spot) (text : List Char)
  | over (text : List Char)
  | overBefore (text : List Char)
  | malformed
  deriving DecidableEq, Repr

/-- Whether a character may stand in a line: everything but the control characters
other than the tab. -/
def isLineChar (c : Char) : Bool := c == '\t' || (0x20 ≤ c.toNat && c.toNat != 0x7F)

/-- Whether a character is a blank within a line. -/
def isSpace (c : Char) : Bool := c == ' ' || c == '\t'

/-- The value of a hexadecimal digit. -/
def hexValue? (c : Char) : Option Nat :=
  if '0' ≤ c ∧ c ≤ '9' then some (c.toNat - '0'.toNat)
  else if 'a' ≤ c ∧ c ≤ 'f' then some (c.toNat - 'a'.toNat + 10)
  else if 'A' ≤ c ∧ c ≤ 'F' then some (c.toNat - 'A'.toNat + 10)
  else none

/-- The character that a letter behind a backslash stands for. -/
def escaped? (c : Char) : Option Char :=
  if c = 'b' then some '\x08'
  else if c = 't' then some '\t'
  else if c = 'n' then some '\n'
  else if c = 'f' then some '\x0c'
  else if c = 'r' then some '\r'
  else if c = '"' then some '"'
  else if c = '\\' then some '\\'
  else none

/-- What a character of the text does. -/
def plainMove (f : Form) (text : List Char) (c : Char) : Move :=
  if c = f.quote then if f.lines then .on (.quotes 1) text else .over text
  else if c = '\\' ∧ f.escapes then .on .slash text
  else if c = '\n' ∧ f.lines then .on .plain ('\n' :: text)
  else if c = '\r' ∧ f.lines then .on .lineReturn text
  else if isLineChar c then .on .plain (c :: text)
  else .malformed

/-- What a character behind a backslash does. -/
def slashMove (f : Form) (text : List Char) (c : Char) : Move :=
  match escaped? c with
  | some e => .on .plain (e :: text)
  | none =>
    if c = 'u' then .on (.number 4 0) text
    else if c = 'U' then .on (.number 8 0) text
    else if !f.lines then .malformed
    else if isSpace c then .on (.gap false) text
    else if c = '\n' then .on (.gap true) text
    else if c = '\r' then .on .gapReturn text
    else .malformed

/-- What a digit of a character's number does; the number has to be that of a
scalar value. -/
def numberMove (text : List Char) (left value : Nat) (c : Char) : Move :=
  match hexValue? c with
  | none => .malformed
  | some d =>
    let value := value * 16 + d
    if 1 < left then .on (.number (left - 1) value) text
    else if value.isValidChar then .on .plain (Char.ofNat value :: text)
    else .malformed

/-- What one character does where the reader stands. -/
def move (f : Form) (text : List Char) (c : Char) : Spot → Move
  | .plain => plainMove f text c
  | .slash => slashMove f text c
  | .number left value => numberMove text left value c
  | .gap crossed =>
    if isSpace c then .on (.gap crossed) text
    else if c = '\n' then .on (.gap true) text
    else if c = '\r' then .on .gapReturn text
    else if crossed then plainMove f text c
    else .malformed
  | .gapReturn => if c = '\n' then .on (.gap true) text else .malformed
  | .lineReturn => if c = '\n' then .on .plain ('\n' :: text) else .malformed
  | .quotes n =>
    if n < 3 then
      if c = f.quote then .on (.quotes (n + 1)) text
      else plainMove f (List.replicate n f.quote ++ text) c
    else if c = f.quote ∧ n < 5 then .on (.quotes (n + 1)) text
    else .overBefore (List.replicate (n - 3) f.quote ++ text)

/-- Reads a string from where the reader stands: its text, and what follows it. -/
def readFrom (f : Form) : Spot → List Char → List Char → Option (List Char × List Char)
  | .quotes n, text, [] =>
    if 3 ≤ n then some ((List.replicate (n - 3) f.quote ++ text).reverse, []) else none
  | _, _, [] => none
  | spot, text, c :: rest =>
    match move f text c spot with
    | .on spot text => readFrom f spot text rest
    | .over text => some (text.reverse, rest)
    | .overBefore text => some (text.reverse, c :: rest)
    | .malformed => none

/-- What follows a line break at the front. -/
def behindBreak? : List Char → Option (List Char)
  | '\n' :: rest => some rest
  | '\r' :: '\n' :: rest => some rest
  | _ => none

/-- Reads a string on one line, quotes included. -/
def readLineString? : List Char → Option (List Char × List Char)
  | '"' :: rest => readFrom .basic .plain [] rest
  | '\'' :: rest => readFrom .literal .plain [] rest
  | _ => none

/-- Reads a string of any form.  A line break directly behind the opening quotes
of a form on several lines is not part of the text. -/
def readString? (cs : List Char) : Option (List Char × List Char) :=
  match cs with
  | '"' :: '"' :: '"' :: rest => readFrom .basicLines .plain [] ((behindBreak? rest).getD rest)
  | '\'' :: '\'' :: '\'' :: rest =>
    readFrom .literalLines .plain [] ((behindBreak? rest).getD rest)
  | _ => readLineString? cs

/-! ## Writing a string

A string is written in the first form that holds it as it is: between double
quotes, between apostrophes, and then the same on several lines.  If none does,
it is written between double quotes with escapes. -/

/-- Whether a character is a control character of ASCII. -/
def isControl (c : Char) : Bool := c.toNat < 0x20 || c.toNat == 0x7F

/-- The length of the longest run of a character. -/
def longestRun (q : Char) (text : List Char) : Nat :=
  (text.foldl (fun (run : Nat × Nat) c =>
    if c = q then (run.1 + 1, max run.2 (run.1 + 1)) else (0, run.2)) (0, 0)).2

/-- Whether a form holds a text without escapes. -/
def Form.holds (f : Form) (text : List Char) : Bool :=
  (text.all fun c => !isControl c || c == '\t' || (f.lines && c == '\n')) &&
    !(f.escapes && text.contains '\\') &&
    longestRun f.quote text ≤ (if f.lines then 2 else 0)

/-- The form in which a text is written. -/
def formFor (text : List Char) : Form :=
  if Form.basic.holds text then .basic
  else if Form.literal.holds text then .literal
  else if Form.basicLines.holds text then .basicLines
  else if Form.literalLines.holds text then .literalLines
  else if text.contains '\n' then .basicLines
  else .basic

/-- The two uppercase hexadecimal digits of a number below 256. -/
def twoHexDigits (n : Nat) : List Char :=
  [n / 16, n % 16].map fun d => (Nat.digitChar d).toUpper

/-- The escape of a character in a form that escapes, if it needs one.  `run` is
the number of quotes directly in front of it. -/
def escapeOf? (f : Form) (run : Nat) (c : Char) : Option (List Char) :=
  if c = '"' then if (if f.lines then 2 else 0) ≤ run then some ['\\', '"'] else none
  else if c = '\x08' then some ['\\', 'b']
  else if c = '\t' then some ['\\', 't']
  else if c = '\n' then if f.lines then none else some ['\\', 'n']
  else if c = '\x0c' then some ['\\', 'f']
  else if c = '\r' then some ['\\', 'r']
  else if c = '\\' then some ['\\', '\\']
  else if isControl c then some (['\\', 'u', '0', '0'] ++ twoHexDigits c.toNat)
  else none

/-- Writes the characters of a text in a form that escapes. -/
def escapeFrom (f : Form) : Nat → List Char → List Char
  | _, [] => []
  | run, c :: rest =>
    match escapeOf? f run c with
    | some written => written ++ escapeFrom f 0 rest
    | none => c :: escapeFrom f (if c = '"' then run + 1 else 0) rest

/-- Writes a text in a form.  On several lines a text with a line break starts on
a line of its own. -/
def Form.write (f : Form) (text : List Char) : List Char :=
  let quotes := List.replicate (if f.lines then 3 else 1) f.quote
  let lead := if f.lines && text.contains '\n' then ['\n'] else []
  quotes ++ lead ++ (if f.escapes then escapeFrom f 0 text else text) ++ quotes

/-- The written form of a string. -/
def writeString (text : String) : List Char :=
  let cs := text.toList
  (formFor cs).write cs

end Toml
end Linkage
