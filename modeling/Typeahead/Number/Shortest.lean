import Typeahead.Number.Binary64

/-!
# The shortest decimal of a binary number

A printed number has the fewest significant digits among all decimals that read back to it, and of
those it is the nearest.  The decimals that read back fill the interval between the midpoints to the
two neighbouring numbers, the ends included exactly if the significand is even.  For one digit, two
digits and so on, the two neighbours of the number on that decimal grid are tried against the
interval; if any decimal of the grid lies in it then one of the two does.

## Main definitions

* `Binary64.Interval` — the interval of the reals that round to a number.
* `Binary64.shortest` — the digits and the place of the decimal point.
* `FloatLayout`, `Binary64.render` — how digits are laid out as text.
-/

namespace Typeahead

namespace Binary64

/-- An interval of reals with a number inside, all given as numerators over one denominator. -/
structure Interval where
  low : Nat
  middle : Nat
  high : Nat
  denominator : Nat
  closed : Bool

/-- The interval of the reals that round to `significand * 2 ^ exponent`.  The lower neighbour of a
power of two is only half as far away as the upper one. -/
def roundingInterval (significand : Nat) (exponent : Int) : Interval :=
  let scale := power 2 (exponent - 2)
  let below := if significand = fullSignificand && exponent ≠ -1074 then 1 else 2
  { low := (4 * significand - below) * scale
    middle := 4 * significand * scale
    high := (4 * significand + 2) * scale
    denominator := power 2 (2 - exponent)
    closed := significand % 2 == 0 }

/-- Whether the decimal `digits * 10 ^ unit` lies in the interval. -/
def Interval.holds (i : Interval) (digits : Nat) (unit : Int) : Bool :=
  let value := digits * power 10 unit * i.denominator
  let scale := power 10 (-unit)
  if i.closed then i.low * scale ≤ value && value ≤ i.high * scale
  else i.low * scale < value && value < i.high * scale

/-- The decimal `digits * 10 ^ unit` in the interval that is nearest to its middle, if the grid of
the multiples of `10 ^ unit` has one. -/
def Interval.pick (i : Interval) (unit : Int) : Option Nat :=
  let num := i.middle * power 10 (-unit)
  let den := i.denominator * power 10 unit
  let down := num / den
  let nearest := roundQuotient num den
  let other := if nearest = down then down + 1 else down
  if i.holds nearest unit then some nearest
  else if i.holds other unit then some other
  else none

/-- The least `point` with the middle of the interval below `10 ^ point`. -/
def Interval.point (i : Interval) : Int :=
  match (List.range 650).find? fun (k : Nat) =>
      i.middle * power 10 (330 - k) < i.denominator * power 10 (k - 330) with
  | some k => (k : Int) - 330
  | none => 320

/-- The digits of the shortest decimal in the interval and the place of its decimal point, from the
grid with `count` digits on, with `more` finer grids to try. -/
def Interval.shortestFrom (i : Interval) (count : Nat) : Nat → Nat × Int
  | 0 => (i.middle, 0)
  | more + 1 =>
    let unit := i.point - count
    match i.pick unit with
    | some digits => (digits, unit)
    | none => i.shortestFrom (count + 1) more

/-- The shortest decimal `digits * 10 ^ unit` that reads back to `significand * 2 ^ exponent`; 17
digits always suffice. -/
def shortest (significand : Nat) (exponent : Int) : Nat × Int :=
  (roundingInterval significand exponent).shortestFrom 1 17

end Binary64

/-- How the digits of a number are laid out. -/
structure FloatLayout where
  /-- The least exponent of ten of the first digit that is written without an exponent. -/
  leastPlain : Int
  /-- The greatest one. -/
  greatestPlain : Int
  /-- The least count of digits in a written exponent. -/
  exponentDigits : Nat
  /-- The texts of infinity and of the value that is not a number. -/
  infinite : String
  notANumber : String

namespace Binary64

/-- Digits with a decimal point behind the first `point` of them. -/
def plain (digits : Text) (point : Int) : Text :=
  if point ≤ 0 then '0' :: '.' :: (List.replicate (-point).toNat '0' ++ digits)
  else if digits.length ≤ point.toNat then
    digits ++ List.replicate (point.toNat - digits.length) '0' ++ ['.', '0']
  else digits.take point.toNat ++ '.' :: digits.drop point.toNat

/-- Digits with the decimal point behind the first of them and an exponent of ten. -/
def scientific (layout : FloatLayout) (digits : Text) (exponent : Int) : Text :=
  let head := match digits with
    | [] => []
    | [d] => [d]
    | d :: rest => d :: '.' :: rest
  let figures := Text.ofNat exponent.natAbs
  head ++ 'e' :: (if exponent < 0 then '-' else '+') ::
    (List.replicate (layout.exponentDigits - figures.length) '0' ++ figures)

/-- A number as text in its shortest form. -/
def render (layout : FloatLayout) : Binary64 → Text
  | .nan => layout.notANumber.toList
  | .infinite negative => (if negative then ['-'] else []) ++ layout.infinite.toList
  | .finite negative significand exponent =>
    let sign := if negative then ['-'] else []
    if significand = 0 then sign ++ ['0', '.', '0']
    else
      let (number, unit) := shortest significand exponent
      let digits := Text.trimRight (· == '0') (Text.ofNat number)
      let point := unit + (Text.ofNat number).length
      sign ++
        if layout.leastPlain ≤ point - 1 && point - 1 ≤ layout.greatestPlain then plain digits point
        else scientific layout digits (point - 1)

end Binary64

end Typeahead
