import Typeahead.Json.Basic
import Typeahead.Number.Numeral

/-!
# The tokens of a JSON text

The text is read one character at a time by a machine whose state says what the current token is:
nothing, a bare word (a number or a name), or a quoted text with what is owed of an escape.  A bare
word is every character up to the next blank, bracket, brace, comma, colon or quote; as a whole it
has to be a number or one of the names, so that two values never run into each other.

Besides the standard's own, the names `NaN`, `Infinity` and `-Infinity` are numbers, and a number
too great for the floating-point format is infinite.  An integer of more than 4300 digits is
refused.  A half of a surrogate pair that stands alone becomes the replacement character.

## Main definitions

* `Json.Token` — the tokens.
* `Json.number?` — a bare word as a number.
* `Json.Scanner` — the state of the machine, with `Scanner.step` and `Scanner.finish`.
-/

namespace Typeahead

namespace Json

/-- A token of a JSON text. -/
inductive Token
  | openList
  | closeList
  | openObject
  | closeObject
  | comma
  | colon
  | text (t : Text)
  /-- A number or a name. -/
  | scalar (v : Json)

/-! ### Bare words -/

/-- The digits at the start of a text and the rest. -/
def takeDigits (t : Text) : Text × Text := (t.takeWhile Char.isDigit, t.dropWhile Char.isDigit)

/-- The number that a run of digits stands for. -/
def digitsValue (t : Text) : Nat := t.foldl (fun n c => n * 10 + (c.toNat - '0'.toNat)) 0

/-- Whether the digits may stand before a decimal point: a leading zero stands alone. -/
def isWhole : Text → Bool
  | [] => false
  | ['0'] => true
  | c :: _ => c != '0'

/-- The exponent at the end of a number: its value, `0` if there is none. -/
def exponent? : Text → Option Int
  | [] => some 0
  | c :: t =>
    if c = 'e' || c = 'E' then
      let (negative, digits) := match t with
        | '-' :: rest => (true, rest)
        | '+' :: rest => (false, rest)
        | rest => (false, rest)
      if digits ≠ [] && digits.all Char.isDigit then
        some (if negative then -(digitsValue digits : Int) else digitsValue digits)
      else none
    else none

/-- A number without its sign. -/
def magnitude? (negative : Bool) (t : Text) : Option Json :=
  let (whole, rest) := takeDigits t
  if !isWhole whole then none
  else
    match rest with
    | [] =>
      if Numeral.digitLimit < whole.length then none
      else
        let n : Int := digitsValue whole
        some (.int (if negative then -n else n))
    | '.' :: rest =>
      let (fraction, rest) := takeDigits rest
      if fraction = [] then none
      else (exponent? rest).map fun e =>
        .float (Binary64.ofDecimal negative (digitsValue (whole ++ fraction)) (e - fraction.length))
    | rest =>
      (exponent? rest).map fun e => .float (Binary64.ofDecimal negative (digitsValue whole) e)

/-- A bare word as a number. -/
def number? : Text → Option Json
  | '-' :: t => magnitude? true t
  | t => magnitude? false t

/-- A bare word as a value. -/
def scalar? (word : Text) : Option Json :=
  if word = ['n', 'u', 'l', 'l'] then some .null
  else if word = ['t', 'r', 'u', 'e'] then some (.bool true)
  else if word = ['f', 'a', 'l', 's', 'e'] then some (.bool false)
  else if word = ['N', 'a', 'N'] then some (.float .nan)
  else if word = "Infinity".toList then some (.float (.infinite false))
  else if word = "-Infinity".toList then some (.float (.infinite true))
  else number? word

/-! ### The machine -/

/-- What the machine is in the middle of.  The characters gathered so far are kept last first, and
`high` is the first half of a surrogate pair that waits for the second. -/
inductive Scanner
  /-- Between tokens. -/
  | between
  /-- In a bare word. -/
  | word (gathered : Text)
  /-- In a quoted text. -/
  | quote (gathered : Text) (high : Option Nat)
  /-- Behind a backslash. -/
  | escape (gathered : Text) (high : Option Nat)
  /-- In a numbered escape, `owed` digits short of its end. -/
  | numbered (gathered : Text) (high : Option Nat) (owed : Nat) (value : Nat)

/-- The token of a punctuation mark. -/
def punctuation? (c : Char) : Option Token :=
  match c with
  | '[' => some .openList
  | ']' => some .closeList
  | '{' => some .openObject
  | '}' => some .closeObject
  | ',' => some .comma
  | ':' => some .colon
  | _ => none

/-- The blanks between tokens. -/
def isGap (c : Char) : Bool := c == ' ' || c == '\t' || c == '\n' || c == '\r'

/-- The replacement character for a half pair that stays alone. -/
def settle (gathered : Text) (high : Option Nat) : Text :=
  match high with
  | some _ => '\ufffd' :: gathered
  | none => gathered

/-- The character of an escape of one letter. -/
def escaped? (c : Char) : Option Char :=
  match c with
  | '"' => some '"'
  | '\\' => some '\\'
  | '/' => some '/'
  | 'b' => some '\x08'
  | 'f' => some '\x0c'
  | 'n' => some '\n'
  | 'r' => some '\r'
  | 't' => some '\t'
  | _ => none

/-- The value of a hexadecimal digit. -/
def hexDigit? (c : Char) : Option Nat :=
  if '0' ≤ c && c ≤ '9' then some (c.toNat - '0'.toNat)
  else if 'a' ≤ c && c ≤ 'f' then some (c.toNat - 'a'.toNat + 10)
  else if 'A' ≤ c && c ≤ 'F' then some (c.toNat - 'A'.toNat + 10)
  else none

/-- The character of a surrogate pair. -/
def pairChar (high low : Nat) : Char :=
  Char.ofNat (0x10000 + (high - 0xd800) * 0x400 + (low - 0xdc00))

/-- The state behind a numbered escape: a low half joins a high half that waits, a high half waits
in its turn, and anything else is a character of its own. -/
def endNumbered (gathered : Text) (high : Option Nat) (unit : Nat) : Scanner :=
  if 0xdc00 ≤ unit && unit < 0xe000 then
    match high with
    | some first => .quote (pairChar first unit :: gathered) none
    | none => .quote ('\ufffd' :: gathered) none
  else if 0xd800 ≤ unit && unit < 0xdc00 then .quote (settle gathered high) (some unit)
  else .quote (Char.ofNat unit :: settle gathered high) none

/-- The state and the tokens that a character brings when no token is under way. -/
def Scanner.start (c : Char) : Scanner × List Token :=
  if isGap c then (.between, [])
  else if c = '"' then (.quote [] none, [])
  else
    match punctuation? c with
    | some mark => (.between, [mark])
    | none => (.word [c], [])

/-- One character: the new state and the tokens that it completes. -/
def Scanner.step : Scanner → Char → Option (Scanner × List Token)
  | .between, c => some (Scanner.start c)
  | .word gathered, c =>
    if isGap c || c == '"' || (punctuation? c).isSome then
      (scalar? gathered.reverse).map fun v =>
        let (next, marks) := Scanner.start c
        (next, .scalar v :: marks)
    else some (.word (c :: gathered), [])
  | .quote gathered high, c =>
    if c = '"' then some (.between, [.text (settle gathered high).reverse])
    else if c = '\\' then some (.escape gathered high, [])
    else if c < ' ' then none
    else some (.quote (c :: settle gathered high) none, [])
  | .escape gathered high, c =>
    if c = 'u' then some (.numbered gathered high 4 0, [])
    else (escaped? c).map fun e => (.quote (e :: settle gathered high) none, [])
  | .numbered gathered high owed value, c =>
    (hexDigit? c).map fun d =>
      let value := value * 16 + d
      -- The last digit that is owed ends the escape.
      match owed with
      | 0 | 1 => (endNumbered gathered high value, [])
      | owed + 1 => (.numbered gathered high owed value, [])

/-- The tokens that the end of the text completes. -/
def Scanner.finish : Scanner → Option (List Token)
  | .between => some []
  | .word gathered => (scalar? gathered.reverse).map fun v => [.scalar v]
  | _ => none

end Json

end Typeahead
