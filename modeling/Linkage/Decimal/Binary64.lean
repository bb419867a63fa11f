/-!
# Binary floating-point numbers of 64 bits

A document may write a number with a point or an exponent.  Such a number stands
for the nearest value with a mantissa below `2 ^ 53` and an exponent of two
between -1074 and 971, a tie going to the even mantissa.  Everything here is
exact arithmetic on whole numbers: a decimal is a fraction, and rounding it is
one division with a look at the remainder.
-/

namespace Linkage

/-- A value of the format: `mantissa * 2 ^ exponent` with a sign, an infinity, or
no number at all. -/
inductive Binary64 where
  | finite (negative : Bool) (mantissa : Nat) (exponent : Int)
  | infinite (negative : Bool)
  | notANumber
  deriving DecidableEq, Repr

namespace Binary64

/-- The exponent of two of the last place of the smallest values. -/
def leastExponent : Int := -1074

/-- The greatest exponent of two of a finite value's last place. -/
def greatestExponent : Int := 971

/-- A fraction divided by a power of two, as a fraction. -/
def scaled (num den : Nat) (exponent : Int) : Nat × Nat :=
  if exponent < 0 then (num * Nat.pow 2 exponent.natAbs, den)
  else (num, den * Nat.pow 2 exponent.natAbs)

/-- The quotient to the nearest whole number, a tie going to the even one. -/
def roundDiv (num den : Nat) : Nat :=
  let q := num / den
  let r := num % den
  if 2 * r < den then q
  else if den < 2 * r then q + 1
  else if q % 2 = 0 then q else q + 1

/-- The exponent of the last place of the value nearest to a positive fraction:
the one that leaves a mantissa of 53 bits, or the least exponent. -/
def lastPlace (num den : Nat) : Int :=
  let guess := max ((num.log2 : Int) - (den.log2 : Int) - 53) leastExponent
  let (n, d) := scaled num den guess
  if n / d < Nat.pow 2 53 then guess else guess + 1

/-- The value nearest to the fraction `num / den` with the given sign. -/
def ofFraction (negative : Bool) (num den : Nat) : Binary64 :=
  if num = 0 then .finite negative 0 leastExponent
  else
    let exponent := lastPlace num den
    let (n, d) := scaled num den exponent
    let mantissa := roundDiv n d
    let (mantissa, exponent) :=
      if mantissa = Nat.pow 2 53 then (Nat.pow 2 52, exponent + 1) else (mantissa, exponent)
    if exponent ≤ greatestExponent then .finite negative mantissa exponent
    else .infinite negative

/-- The value nearest to `digits * 10 ^ power` with the given sign.  `width` is
at least the number of digits; powers so far out that every such decimal rounds
to zero or to an infinity are settled without computing them. -/
def ofDecimal (negative : Bool) (digits : Nat) (width : Nat) (power : Int) : Binary64 :=
  if digits = 0 then .finite negative 0 leastExponent
  else if power + width < -400 then .finite negative 0 leastExponent
  else if 400 < power then .infinite negative
  else if power < 0 then ofFraction negative digits (Nat.pow 10 power.natAbs)
  else ofFraction negative (digits * Nat.pow 10 power.natAbs) 1

end Binary64
end Linkage
