import Typeahead.Json.Basic
import Typeahead.Number.Shortest
import Typeahead.Text.Quoted

/-!
# Writing JSON

Texts are written in ASCII alone: a quote, a backslash and five controls have an escape of one
letter, and every other character that is not printable ASCII is written by the hexadecimal digits
of its UTF-16 units.  Numbers take their shortest form.  A value is written either on one line or
with every item and member on a line of its own, indented by two for each list and object around it;
an empty list or object stays in one piece.

## Main definitions

* `Json.quote` — a text between double quotes.
* `Json.floats` — the layout of floating-point numbers.
* `Json.compact`, `Json.pretty` — the two forms.
-/

namespace Typeahead

namespace Json

/-- One UTF-16 unit as an escape. -/
def unitEscape (unit : Nat) : Text := '\\' :: 'u' :: hexDigits 4 unit

/-- One character between double quotes. -/
def escapeChar (c : Char) : Text :=
  if c = '"' then ['\\', '"']
  else if c = '\\' then ['\\', '\\']
  else if c = '\n' then ['\\', 'n']
  else if c = '\r' then ['\\', 'r']
  else if c = '\t' then ['\\', 't']
  else if c = '\x0c' then ['\\', 'f']
  else if c = '\x08' then ['\\', 'b']
  else if ' ' ≤ c && c ≤ '~' then [c]
  else if c.toNat < 0x10000 then unitEscape c.toNat
  else
    unitEscape (0xd800 + (c.toNat - 0x10000) / 0x400) ++
      unitEscape (0xdc00 + (c.toNat - 0x10000) % 0x400)

/-- A text between double quotes. -/
def quote (t : Text) : Text := '"' :: t.flatMap escapeChar ++ ['"']

/-- Floating-point numbers are written without an exponent from `0.0001` up to below `10 ^ 16`, and
an exponent has a sign and at least two digits. -/
def floats : FloatLayout where
  leastPlain := -4
  greatestPlain := 15
  exponentDigits := 2
  infinite := "Infinity"
  notANumber := "NaN"

/-- A value that is no list and no object. -/
def scalar : Json → Text
  | .null => ['n', 'u', 'l', 'l']
  | .bool true => ['t', 'r', 'u', 'e']
  | .bool false => ['f', 'a', 'l', 's', 'e']
  | .int n => Text.ofInt n
  | .float x => x.render floats
  | .text t => quote t
  | .list _ => []
  | .object _ => []

mutual

/-- A value on one line. -/
def compact : Json → Text
  | .list items => '[' :: compactItems items ++ [']']
  | .object members => '{' :: compactMembers members ++ ['}']
  | v => scalar v

/-- The items of a list on one line. -/
def compactItems : List Json → Text
  | [] => []
  | [v] => compact v
  | v :: rest => compact v ++ ',' :: compactItems rest

/-- The members of an object on one line. -/
def compactMembers : List (Text × Json) → Text
  | [] => []
  | [(k, v)] => quote k ++ ':' :: compact v
  | (k, v) :: rest => quote k ++ ':' :: (compact v ++ ',' :: compactMembers rest)

end

/-- The break before a line at a depth of nesting. -/
def newLine (depth : Nat) : Text := '\n' :: List.replicate (2 * depth) ' '

mutual

/-- A value at a depth of nesting, with its contents on lines of their own. -/
def prettyAt (depth : Nat) : Json → Text
  | .list [] => ['[', ']']
  | .list items => '[' :: prettyItems (depth + 1) items ++ newLine depth ++ [']']
  | .object [] => ['{', '}']
  | .object members => '{' :: prettyMembers (depth + 1) members ++ newLine depth ++ ['}']
  | v => scalar v

/-- The items of a list, each on its line. -/
def prettyItems (depth : Nat) : List Json → Text
  | [] => []
  | [v] => newLine depth ++ prettyAt depth v
  | v :: rest => newLine depth ++ prettyAt depth v ++ ',' :: prettyItems depth rest

/-- The members of an object, each on its line. -/
def prettyMembers (depth : Nat) : List (Text × Json) → Text
  | [] => []
  | [(k, v)] => newLine depth ++ quote k ++ ':' :: ' ' :: prettyAt depth v
  | (k, v) :: rest =>
    newLine depth ++ quote k ++ ':' :: ' ' :: (prettyAt depth v ++ ',' :: prettyMembers depth rest)

end

/-- A value with its contents on lines of their own. -/
def pretty (v : Json) : Text := prettyAt 0 v

end Json

end Typeahead
