import Typeahead.Text.Basic

/-!
# Notices

What the library has to say about its own running goes into a journal of notices.  A notice is the
area of work that it comes from and its weight; a threshold tells which notices are of interest.

## Main definitions

* `Weight`, `Area`, `Notice` — the parts of a notice and the notice.
* `Notice.passes` — whether a notice reaches a threshold.
-/

namespace Typeahead

/-- The weight of a notice. -/
inductive Weight
  | debug
  | warning
  deriving DecidableEq, Repr

/-- The weight as a number, to be held against a threshold. -/
def Weight.value : Weight → Nat
  | .debug => 10
  | .warning => 30

/-- The area of work that a notice comes from. -/
inductive Area
  /-- The line being typed. -/
  | line
  /-- The choice of a grammar. -/
  | classification
  /-- The reading of grammars. -/
  | grammar
  /-- The listing of directories. -/
  | directories
  /-- The listing of programs. -/
  | programs
  /-- The settings. -/
  | settings
  deriving DecidableEq, Repr

/-- A notice. -/
structure Notice where
  weight : Weight
  area : Area
  deriving DecidableEq, Repr

/-- Whether a notice is heavy enough for a threshold. -/
def Notice.passes (threshold : Nat) (n : Notice) : Bool := threshold ≤ n.weight.value

end Typeahead
