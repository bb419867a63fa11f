import Linkage.Decimal.Binary64

/-!
# The shortest decimal that reads back

A finite value is written with the fewest digits that read back to it, and among
those with the digits nearest to it; a tie goes up.  The reals that read back to
a value are the ones between the midpoints to its neighbours, the midpoints
themselves included exactly when the mantissa is even.

For a given number of digits the candidates are the two neighbours of the value
on that decimal grid: if any point of the grid reads back, so does one of them.
Seventeen digits always suffice.  The digits are then written out in full, with
no exponent, and with `.0` behind a whole number.
-/

namespace Linkage
namespace Binary64

/-- The reals around a positive value that read back to it, over one common
denominator. -/
structure Neighbourhood where
  low : Nat
  value : Nat
  high : Nat
  denominator : Nat
  closed : Bool
  deriving Repr

/-- The neighbourhood of `mantissa * 2 ^ exponent`.  Below a power of two the
next value is only half as far. -/
def neighbourhood (mantissa : Nat) (exponent : Int) : Neighbourhood :=
  let atPower := mantissa = Nat.pow 2 52 ∧ leastExponent < exponent
  let scale := if exponent < 0 then 1 else Nat.pow 2 exponent.natAbs
  let denominator := if exponent < 0 then 4 * Nat.pow 2 exponent.natAbs else 4
  { low := (if atPower then 4 * mantissa - 1 else 4 * mantissa - 2) * scale
    value := 4 * mantissa * scale
    high := (4 * mantissa + 2) * scale
    denominator := denominator
    closed := mantissa % 2 = 0 }

/-- Whether the fraction `num / den` reads back. -/
def Neighbourhood.holds (b : Neighbourhood) (num den : Nat) : Bool :=
  let p := num * b.denominator
  if b.closed then b.low * den ≤ p && p ≤ b.high * den
  else b.low * den < p && p < b.high * den

/-- A power of ten as a fraction. -/
def tenPower (power : Int) : Nat × Nat :=
  if power < 0 then (1, Nat.pow 10 power.natAbs) else (Nat.pow 10 power.natAbs, 1)

/-- The digits on the grid of `10 ^ power` that read back and lie nearest. -/
def Neighbourhood.onGrid (b : Neighbourhood) (power : Int) : Option Nat :=
  let (tn, td) := tenPower power
  let num := b.value * td
  let den := b.denominator * tn
  let below := num / den
  let above := below + 1
  let down := b.holds (below * tn) td
  let up := b.holds (above * tn) td
  if down && up then some (if 2 * (num % den) < den then below else above)
  else if down then some below
  else if up then some above
  else none

/-- The least power of ten above a positive fraction, searched near a guess. -/
def magnitude (num den : Nat) : Int :=
  let guess : Int := ((num.log2 : Int) - (den.log2 : Int)) * 30103 / 100000
  let exceeds (power : Int) : Bool :=
    let (tn, td) := tenPower power
    num * td < den * tn
  ((List.range 5).map fun (i : Nat) => guess - 1 + (i : Int)).find? exceeds |>.getD (guess + 4)

/-- The fewest digits that read back, with the power of ten of their last one:
grids of one digit, then two, and so on. -/
def Neighbourhood.shortest (b : Neighbourhood) : Nat × Int :=
  let top := magnitude b.value b.denominator
  let grids := (List.range 17).map fun (i : Nat) => top - 1 - (i : Int)
  (grids.findSome? fun power => (b.onGrid power).map fun n => (n, power)).getD (0, 0)

/-- The decimal digits of a number. -/
def decimalDigits (n : Nat) : List Char := Nat.toDigits 10 n

/-- `digits * 10 ^ power` in full, with a point. -/
def positional (digits : Nat) (power : Int) : List Char :=
  let ds := decimalDigits digits
  if 0 ≤ power then
    (if digits = 0 then ['0'] else ds ++ List.replicate power.natAbs '0') ++ ['.', '0']
  else
    let places := power.natAbs
    let padded := List.replicate (places + 1 - ds.length) '0' ++ ds
    let whole := padded.take (padded.length - places)
    let part := (padded.drop (padded.length - places)).reverse.dropWhile (· == '0') |>.reverse
    whole ++ ['.'] ++ (if part.isEmpty then ['0'] else part)

/-- The text of a value. -/
def text : Binary64 → String
  | .finite negative mantissa exponent =>
    let (digits, power) :=
      if mantissa = 0 then (0, 0) else (neighbourhood mantissa exponent).shortest
    String.ofList ((if negative then ['-'] else []) ++ positional digits power)
  | .infinite negative => if negative then "-inf" else "inf"
  | .notANumber => "NaN"

end Binary64
end Linkage
