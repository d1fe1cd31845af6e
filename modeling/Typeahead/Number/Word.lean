/-!
# Machine words

A machine word holds the integers of 64 bits with a sign.

## Main definitions

* `wordBound` — the least natural number that no word holds.
* `fitsWord` — whether a word holds an integer.
-/

namespace Typeahead

/-- `2 ^ 63`, which the integers of 64 bits with a sign stay below. -/
def wordBound : Nat := 9223372036854775808

/-- Whether a machine word holds an integer. -/
def fitsWord (n : Int) : Bool := -(wordBound : Int) ≤ n && n < wordBound

end Typeahead
