import Typeahead.Text.Basic

/-!
# Binary floating-point numbers of 64 bits

A finite number is a sign, a significand and an exponent of two, kept in lowest form of the format:
the significand is below `2 ^ 53`, the exponent is at least -1074, and a significand below `2 ^ 52`
comes with that least exponent only.  Reading a decimal rounds the exact quotient to the nearest
number, a half to the even neighbour, in natural-number arithmetic.

## Main definitions

* `power` — a power with an exponent that may be negative.
* `Binary64` — the numbers, with the infinities and the one value that is not a number.
* `Binary64.ofQuotient` — the number nearest to a quotient.
* `Binary64.ofDecimal` — the number nearest to `digits * 10 ^ exponent`.
* `Binary64.truncate?` — the integer part of a finite number.
-/

namespace Typeahead

/-- A power whose exponent is cut off at zero: one if it is negative. -/
def power (base : Nat) (exponent : Int) : Nat := Nat.pow base exponent.toNat

/-- A binary floating-point number of 64 bits. -/
inductive Binary64
  /-- The number `significand * 2 ^ exponent`, with a minus sign if `negative`. -/
  | finite (negative : Bool) (significand : Nat) (exponent : Int)
  /-- One of the infinities. -/
  | infinite (negative : Bool)
  /-- The value that is not a number. -/
  | nan
  deriving DecidableEq, Repr

namespace Binary64

/-- `2 ^ 53`, which significands stay below. -/
def significandBound : Nat := 9007199254740992

/-- `2 ^ 52`, from which on a significand has all of its 53 binary digits. -/
def fullSignificand : Nat := 4503599627370496

/-- The nearest integer to a quotient, a half to the even neighbour. -/
def roundQuotient (num den : Nat) : Nat :=
  let q := num / den
  let r := num % den
  if 2 * r < den then q else if den < 2 * r then q + 1 else q + q % 2

/-- The quotient `num / den` in units of `2 ^ exponent`, rounded. -/
def scaled (num den : Nat) (exponent : Int) : Nat :=
  if 0 ≤ exponent then roundQuotient num (den * power 2 exponent)
  else roundQuotient (num * power 2 (-exponent)) den

/-- The exponent in whose units a positive quotient has 53 binary digits, but not below the least
exponent of the format. -/
def unitExponent (num den : Nat) : Int :=
  -- In units of `2 ^ guess` the quotient has 53 or 54 binary digits.
  let guess : Int := (Nat.log2 num : Int) - (Nat.log2 den : Int) - 53
  let cut : Nat :=
    if 0 ≤ guess then num / (den * power 2 guess) else num * power 2 (-guess) / den
  max (if cut < significandBound then guess else guess + 1) (-1074)

/-- The number nearest to the quotient of a natural number and a positive one. -/
def ofQuotient (negative : Bool) (num den : Nat) : Binary64 :=
  if num = 0 then .finite negative 0 (-1074)
  else
    let exponent := unitExponent num den
    let significand := scaled num den exponent
    -- Rounding up may give one digit too many, and then the digits are a one and zeros.
    let (significand, exponent) :=
      if significand = significandBound then (fullSignificand, exponent + 1)
      else (significand, exponent)
    if 971 < exponent then .infinite negative else .finite negative significand exponent

/-- The number nearest to `digits * 10 ^ exponent`.  A decimal far outside the range of the format
is not worked out: from `10 ^ 400` on it is infinite and below `10 ^ (-400)` it is zero. -/
def ofDecimal (negative : Bool) (digits : Nat) (exponent : Int) : Binary64 :=
  if digits = 0 then .finite negative 0 (-1074)
  else
    let places : Int := (Nat.toDigits 10 digits).length
    if 400 < places + exponent then .infinite negative
    else if places + exponent < -400 then .finite negative 0 (-1074)
    else if 0 ≤ exponent then ofQuotient negative (digits * power 10 exponent) 1
    else ofQuotient negative digits (power 10 (-exponent))

/-- The integer part of a finite number and whether anything was cut off. -/
def truncate? : Binary64 → Option (Int × Bool)
  | .finite negative significand exponent =>
    let whole := if 0 ≤ exponent then significand * power 2 exponent
      else significand / power 2 (-exponent)
    let cut := if 0 ≤ exponent then false else significand % power 2 (-exponent) != 0
    some (if negative then -(whole : Int) else whole, cut)
  | .infinite _ => none
  | .nan => none

end Binary64

end Typeahead
