import Typeahead.Text.Blank
import Typeahead.Text.Digit
import Typeahead.Text.Quoted

/-!
# Integers given as text

A numeral is an optional sign before decimal digits of any script, with white space around it and
single low lines between digits allowed.  Numerals of more than 4300 digits are refused, leading
zeros counted.

## Main definitions

* `Numeral.Fault` — why a text is no usable numeral, with `Numeral.Fault.message`.
* `Numeral.read` — the integer that a text stands for.
-/

namespace Typeahead

namespace Numeral

/-- Why a text is no usable numeral. -/
inductive Fault
  /-- The text does not have the form of a numeral. -/
  | malformed (literal : Text)
  /-- The numeral has more digits than are read. -/
  | tooLong (digits : Nat)
  deriving DecidableEq, Repr

/-- The greatest number of digits that are read. -/
def digitLimit : Nat := 4300

/-- The wording of a fault; of a malformed text the first 200 characters of its quoted form. -/
def Fault.message : Fault → Text
  | .malformed literal =>
    "invalid literal for int() with base 10: ".toList ++ literal.quoted.take 200
  | .tooLong digits =>
    "Exceeds the limit (4300 digits) for integer string conversion: value has ".toList ++
      Text.ofNat digits ++
      " digits; use sys.set_int_max_str_digits() to increase the limit".toList

/-- What a run of digits and low lines amounts to. -/
structure Run where
  /-- The value of the digits. -/
  value : Nat
  /-- How many digits there are. -/
  digits : Nat
  /-- Whether every low line stands between two digits. -/
  proper : Bool
  /-- What follows the run. -/
  rest : Text

/-- The longest run of digits and low lines at the start of a text, behind digits of the value
`value`, `digits` in number; `owed` tells that a digit has to come next. -/
def scan (value digits : Nat) (owed : Bool) : Text → Run
  | [] => ⟨value, digits, !owed, []⟩
  | c :: t =>
    match decimalDigit? c with
    | some d => scan (value * 10 + d) (digits + 1) false t
    | none =>
      if c = '_' then
        if owed then ⟨value, digits, false, t⟩ else scan value digits true t
      else ⟨value, digits, !owed, c :: t⟩

/-- The sign of a numeral and what follows it. -/
def sign : Text → Bool × Text
  | '-' :: t => (true, t)
  | '+' :: t => (false, t)
  | t => (false, t)

/-- The integer that a text stands for. -/
def read (t : Text) : Except Fault Int :=
  let (negative, body) := sign (t.trim isSpace)
  let run := scan 0 0 true body
  if !run.proper then .error (.malformed t)
  else if digitLimit < run.digits then .error (.tooLong run.digits)
  else if run.rest ≠ [] then .error (.malformed t)
  else .ok (if negative then -(run.value : Int) else run.value)

end Numeral

end Typeahead
