import Typeahead.Text.Basic

/-!
# The spans of a line

A line is cut into arguments at the spaces that are not between double quotes.  Nothing is dropped
but those spaces: the quotes stay in the argument, and two spaces in a row leave an empty argument
between them.  A line without any character has no argument.

## Main definitions

* `Span` — the part of a line from one position up to another.
* `Line.spans` — the spans of the arguments.
* `Line.quotes` — the positions of the double quotes.
* `Line.cuts` — the positions of the spaces at which the line is cut.
* `Line.indexAt` — which argument a position belongs to.
* `Line.boundaries` — the starts and stops of the spans in one list.
-/

namespace Typeahead

/-- The part of a line from `start` up to `stop`. -/
structure Span where
  start : Nat
  stop : Nat
  deriving DecidableEq, Repr

/-- The text of a span. -/
def Span.of (s : Span) (t : Text) : Text := t.between s.start s.stop

namespace Line

/-- The spans of the rest of a line from the position `here`, inside an argument that starts at
`start`. -/
def spansFrom (here start : Nat) (quoted : Bool) : Text → List Span
  | [] => [⟨start, here⟩]
  | c :: t =>
    if c = '"' then spansFrom (here + 1) start (!quoted) t
    else if c = ' ' && !quoted then ⟨start, here⟩ :: spansFrom (here + 1) (here + 1) quoted t
    else spansFrom (here + 1) start quoted t

/-- The spans of the arguments of a line. -/
def spans (t : Text) : List Span := if t = [] then [] else spansFrom 0 0 false t

/-- The positions of the double quotes of the rest of a line. -/
def quotesFrom (here : Nat) : Text → List Nat
  | [] => []
  | c :: t => if c = '"' then here :: quotesFrom (here + 1) t else quotesFrom (here + 1) t

/-- The positions of the double quotes of a line. -/
def quotes (t : Text) : List Nat := quotesFrom 0 t

/-- The positions at which the rest of a line is cut. -/
def cutsFrom (here : Nat) (quoted : Bool) : Text → List Nat
  | [] => []
  | c :: t =>
    if c = '"' then cutsFrom (here + 1) (!quoted) t
    else if c = ' ' && !quoted then here :: cutsFrom (here + 1) quoted t
    else cutsFrom (here + 1) quoted t

/-- The positions of the spaces at which a line is cut. -/
def cuts (t : Text) : List Nat := cutsFrom 0 false t

/-- The index of the argument that a position belongs to: the number of cuts before it. -/
def indexAt (t : Text) (position : Nat) : Nat := ((cuts t).filter (· < position)).length

/-- The arguments of a line. -/
def arguments (t : Text) : List Text := (spans t).map fun s => s.of t

/-- The starts and stops of some spans in order. -/
def boundaries (spans : List Span) : List Nat := spans.flatMap fun s => [s.start, s.stop]

end Line

end Typeahead
