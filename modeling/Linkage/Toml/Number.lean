import Linkage.Text.Split
import Linkage.Toml.Quoting
import Linkage.Toml.Value

/-!
# Numbers, dates and times

A number starts with a digit or a sign.  Single underscores may stand between
digits.  A whole number is decimal, or, without a sign, written in base sixteen,
eight or two behind its mark; it has to fit into 64 bits.  A number with a point
or an exponent stands for the nearest floating-point value; one that is too large
is refused, while one too far below zero is the negative infinity.

Dates and times start with digits as well.  They are recognised first, and only
recognised: nothing of them but their presence is used.
-/

namespace Linkage
namespace Toml

/-- Reads digits with single underscores between them, from behind the first
ones, which are kept latest first. -/
def digitsFrom (isDigit : Char → Bool) (ds : List Char) : List Char → Option (List Char × List Char)
  | [] => some (ds.reverse, [])
  | [c] => if isDigit c then some ((c :: ds).reverse, []) else
      if c = '_' then none else some (ds.reverse, [c])
  | c :: d :: rest =>
    if isDigit c then digitsFrom isDigit (c :: ds) (d :: rest)
    else if c = '_' then if isDigit d then digitsFrom isDigit (d :: ds) rest else none
    else some (ds.reverse, c :: d :: rest)

/-- Reads one or more digits with single underscores between them. -/
def digits? (isDigit : Char → Bool) : List Char → Option (List Char × List Char)
  | [] => none
  | c :: rest => if isDigit c then digitsFrom isDigit [c] rest else none

/-- Reads the digits of a decimal whole number: a zero alone, or digits of which
the first is not zero. -/
def wholeDigits? : List Char → Option (List Char × List Char)
  | '0' :: rest => some (['0'], rest)
  | cs => digits? Char.isDigit cs

/-- The number that digits of a base stand for. -/
def valueOf (base : Nat) (ds : List Char) : Nat :=
  ds.foldl (fun n d => n * base + (hexValue? d).getD 0) 0

/-- Whether a character is a digit of a base up to sixteen. -/
def isDigitOf (base : Nat) (c : Char) : Bool :=
  match hexValue? c with
  | some d => d < base
  | none => false

/-- A whole number, if it fits into 64 bits. -/
def integer? (n : Int) : Option Value :=
  if Int64.minValue.toInt ≤ n ∧ n ≤ Int64.maxValue.toInt then some (.integer n) else none

/-- A floating-point value, unless it is the positive infinity. -/
def float? (x : Binary64) : Option Value :=
  if x = .infinite false then none else some (.float x)

/-- Reads the sign of a number. -/
def sign : List Char → Option Bool × List Char
  | '+' :: rest => (some false, rest)
  | '-' :: rest => (some true, rest)
  | cs => (none, cs)

/-- Reads an exponent behind its letter. -/
def exponent? (cs : List Char) : Option (Int × List Char) :=
  let (negative, cs) := sign cs
  (digits? Char.isDigit cs).map fun (ds, rest) =>
    let n : Int := valueOf 10 ds
    (if negative = some true then -n else n, rest)

/-- Reads what follows the digits before the point: a fraction, an exponent, both
or neither.  `places` are the digits read so far, of which the last `behind` are
behind the point; `pointed` says whether there is a point. -/
def afterDigits? (negative : Bool) (places : List Char) (behind : Nat) (pointed : Bool)
    (cs : List Char) : Option (Value × List Char) :=
  let float (power : Int) (rest : List Char) : Option (Value × List Char) :=
    (float? (.ofDecimal negative (valueOf 10 places) places.length (power - behind))).map
      fun v => (v, rest)
  match cs with
  | 'e' :: rest | 'E' :: rest => (exponent? rest).bind fun (power, rest) => float power rest
  | rest =>
    if pointed then float 0 rest
    else
      let n : Int := valueOf 10 places
      (integer? (if negative then -n else n)).map fun v => (v, rest)

/-- Reads a decimal number behind its sign. -/
def decimal? (negative : Bool) (cs : List Char) : Option (Value × List Char) :=
  match wholeDigits? cs with
  | none => none
  | some (whole, '.' :: rest) =>
    (digits? Char.isDigit rest).bind fun (part, rest) =>
      afterDigits? negative (whole ++ part) part.length true rest
  | some (whole, rest) => afterDigits? negative whole 0 false rest

/-- Reads a whole number of a base other than ten, behind its mark. -/
def based? (base : Nat) (cs : List Char) : Option (Value × List Char) :=
  (digits? (isDigitOf base) cs).bind fun (ds, rest) =>
    (integer? (valueOf base ds)).map fun v => (v, rest)

/-! ## Dates and times -/

/-- Reads a number of exactly two digits between bounds. -/
def twoDigits? (low high : Nat) : List Char → Option (Nat × List Char)
  | c :: d :: rest =>
    if c.isDigit ∧ d.isDigit then
      let n := valueOf 10 [c, d]
      if low ≤ n ∧ n ≤ high then some (n, rest) else none
    else none
  | _ => none

/-- The number of days of a month. -/
def daysOf (year month : Nat) : Nat :=
  if month = 2 then
    if year % 4 = 0 ∧ (year % 100 ≠ 0 ∨ year % 400 = 0) then 29 else 28
  else if month = 4 ∨ month = 6 ∨ month = 9 ∨ month = 11 then 30
  else 31

/-- What follows a date at the front. -/
def behindDate? : List Char → Option (List Char)
  | a :: b :: c :: d :: '-' :: rest =>
    if [a, b, c, d].all Char.isDigit then do
      let (month, rest) ← twoDigits? 1 12 rest
      let rest ← Text.behind? ['-'] rest
      let (_, rest) ← twoDigits? 1 (daysOf (valueOf 10 [a, b, c, d]) month) rest
      return rest
    else none
  | _ => none

/-- What follows a time of day at the front; parts of a second may be given. -/
def behindTime? (cs : List Char) : Option (List Char) := do
  let (_, cs) ← twoDigits? 0 23 cs
  let cs ← Text.behind? [':'] cs
  let (_, cs) ← twoDigits? 0 59 cs
  let cs ← Text.behind? [':'] cs
  let (_, cs) ← twoDigits? 0 60 cs
  match cs with
  | '.' :: d :: rest => if d.isDigit then return rest.dropWhile Char.isDigit else return cs
  | cs => return cs

/-- What follows the offset of a time zone at the front. -/
def behindOffset? : List Char → Option (List Char)
  | 'Z' :: rest | 'z' :: rest => some rest
  | '+' :: rest | '-' :: rest => do
    let (_, rest) ← twoDigits? 0 23 rest
    let rest ← Text.behind? [':'] rest
    let (_, rest) ← twoDigits? 0 59 rest
    return rest
  | _ => none

/-- What follows the time and the offset behind a date. -/
def behindDateTime (cs : List Char) : List Char :=
  match cs with
  | c :: rest =>
    if c = 'T' ∨ c = 't' ∨ c = ' ' then
      match behindTime? rest with
      | some rest => (behindOffset? rest).getD rest
      | none => cs
    else cs
  | [] => []

/-- What follows a date, a time or both at the front. -/
def behindMoment? (cs : List Char) : Option (List Char) :=
  match behindDate? cs with
  | some rest => some (behindDateTime rest)
  | none => behindTime? cs

/-! ## All numbers -/

/-- Reads a value that starts with a digit or a sign. -/
def number? (cs : List Char) : Option (Value × List Char) :=
  match behindMoment? cs with
  | some rest => some (.moment, rest)
  | none =>
    match sign cs with
    | (none, '0' :: 'x' :: rest) => based? 16 rest
    | (none, '0' :: 'o' :: rest) => based? 8 rest
    | (none, '0' :: 'b' :: rest) => based? 2 rest
    | (negative, 'i' :: 'n' :: 'f' :: rest) =>
      some (.float (.infinite (negative = some true)), rest)
    | (_, 'n' :: 'a' :: 'n' :: rest) => some (.float .notANumber, rest)
    | (negative, cs) => decimal? (negative = some true) cs

end Toml
end Linkage
