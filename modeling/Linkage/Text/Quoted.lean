import Linkage.Text.Unshown

/-!
# Quoted text

The quoted form of a text stands between double quotes and can be read back: the
quote and the backslash are escaped, the four control characters that have a
letter use it, and every other character that cannot be seen where it stands is
given by its number.  The quoted form of a path escapes the apostrophe as well.
-/

namespace Linkage
namespace Text

/-- The lowercase hexadecimal digits of a number, without leading zeros. -/
def hexDigits (n : Nat) : List Char := Nat.toDigits 16 n

/-- A character given by its number. -/
def numbered (c : Char) : List Char :=
  ['\\', 'u', '\x7b'] ++ hexDigits c.toNat ++ ['\x7d']

/-- How one character is written in quoted text. -/
def quotedChar (c : Char) : List Char :=
  if c = '\x00' then ['\\', '0']
  else if c = '\t' then ['\\', 't']
  else if c = '\r' then ['\\', 'r']
  else if c = '\n' then ['\\', 'n']
  else if c = '\\' then ['\\', '\\']
  else if c = '"' then ['\\', '"']
  else if isUnshown c then numbered c
  else [c]

/-- How one character is written in the quoted form of a path. -/
def quotedPathChar (c : Char) : List Char :=
  if c = '\'' then ['\\', '\''] else quotedChar c

/-- A text between double quotes, every character written by the given rule. -/
def quoteBy (rule : Char → List Char) (text : String) : String :=
  String.ofList ('"' :: text.toList.flatMap rule ++ ['"'])

/-- The quoted form of a text. -/
def quoted (text : String) : String := quoteBy quotedChar text

/-- The quoted form of the spelling of a path. -/
def quotedPath (text : String) : String := quoteBy quotedPathChar text

end Text
end Linkage
