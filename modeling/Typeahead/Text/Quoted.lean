import Typeahead.Text.Graphic

/-!
# Quoted texts

The printed form of a text between quotes, in which every character is visible.  The quotes are
single unless the text holds a single quote and no double one.  A backslash, the quote in use, the
line feed, the carriage return and the tab have an escape of their own; any other character that
does not show is written by its number in two, four or eight hexadecimal digits, the fewest that
hold it.

## Main definitions

* `hexDigits` — a number in a given count of hexadecimal digits.
* `Text.quoteMark` — the quote a text is put between.
* `Text.quoted` — the printed form.
-/

namespace Typeahead

/-- The last `count` hexadecimal digits of a number. -/
def hexDigits : Nat → Nat → Text
  | 0, _ => []
  | count + 1, n => hexDigits count (n / 16) ++ [Nat.digitChar (n % 16)]

namespace Text

/-- The quote around a text. -/
def quoteMark (t : Text) : Char := if t.contains '\'' && !t.contains '"' then '"' else '\''

/-- One character as it stands between the quotes `mark`. -/
def quotedChar (mark c : Char) : Text :=
  if c = mark || c = '\\' then ['\\', c]
  else if c = '\n' then ['\\', 'n']
  else if c = '\r' then ['\\', 'r']
  else if c = '\t' then ['\\', 't']
  else if isGraphic c then [c]
  else if c.toNat < 0x100 then '\\' :: 'x' :: hexDigits 2 c.toNat
  else if c.toNat < 0x10000 then '\\' :: 'u' :: hexDigits 4 c.toNat
  else '\\' :: 'U' :: hexDigits 8 c.toNat

/-- The text between quotes. -/
def quoted (t : Text) : Text :=
  quoteMark t :: t.flatMap (quotedChar (quoteMark t)) ++ [quoteMark t]

end Text

end Typeahead
