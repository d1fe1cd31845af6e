import Typeahead.Text.Quoted
import Typeahead.World.Path

/-!
# Suggestions

A suggestion is what an argument may be completed to: a list of choices, the scope that they come
from, a placeholder to show as long as nothing is typed, and the choice that fits best.  A part at
the start of the argument may take no part in the matching, such as the directory of a path.

## Main definitions

* `Scope` — where the choices come from.
* `Suggestion` — the choices and the best of them.
* `Suggestion.fitting` — the choices that start with what is typed.
* `Suggestion.bestFor`, `Suggestion.focus` — the choice that fits best, and keeping it.
* `Suggestion.describe` — a line about a suggestion.
-/

namespace Typeahead

/-- Where choices come from. -/
inductive Scope
  /-- The programs on the search path. -/
  | programs
  /-- A directory. -/
  | directory (path : Path)
  deriving DecidableEq, Repr

/-- The text of a scope. -/
def Scope.label : Scope → Text
  | .programs => "<executables>".toList
  | .directory path => path.toText

/-- What an argument may be completed to. -/
structure Suggestion where
  choices : List Text
  /-- What is shown as long as nothing is typed. -/
  placeholder : Option Text
  scope : Option Scope
  /-- How many characters at the start of the argument take no part in the matching. -/
  skip : Nat
  /-- The choice that fits best, or the placeholder. -/
  best : Option Text
  deriving DecidableEq, Repr

namespace Suggestion

/-- A suggestion without choices; an empty placeholder counts as none. -/
def bare (placeholder : Option Text) : Suggestion :=
  ⟨[], placeholder.filter (· ≠ []), none, 0, none⟩

/-- A suggestion of some choices with nothing matched yet. -/
def ofChoices (choices : List Text) (placeholder : Option Text) (scope : Scope) (skip : Nat) :
    Suggestion :=
  { bare placeholder with choices, scope := some scope, skip }

/-- The choices that start with what is typed. -/
def fitting (s : Suggestion) (typed : Text) : List Text := s.choices.filter (typed.isPrefixOf ·)

/-- What fits best: the first choice that starts with what is typed or, as long as nothing is typed,
the placeholder if there is one. -/
def bestFor (s : Suggestion) (typed : Text) : Option Text :=
  if typed = [] then
    match s.placeholder with
    | some shown => some shown
    | none => s.choices.head?
  else s.choices.find? (typed.isPrefixOf ·)

/-- The suggestion with what fits best kept. -/
def focus (s : Suggestion) (typed : Text) : Suggestion := { s with best := s.bestFor typed }

/-- A text between quotes, or the word for nothing. -/
def quotedOr (t : Option Text) : Text :=
  match t with
  | some t => t.quoted
  | none => "None".toList

/-- A line about a suggestion whose scope is called `label` and which passes over `skip`
characters. -/
def describe (s : Suggestion) (label : Option Text) (skip : Int) : Text :=
  "Hint(selection=".toList ++ Text.ofNat s.choices.length ++ " items, inlay=".toList ++
    quotedOr s.placeholder ++ ", cache_key=".toList ++ quotedOr label ++ ", disregard=".toList ++
    Text.ofInt skip ++ ", last_closest_match=".toList ++ quotedOr s.best ++ ")".toList

end Suggestion

end Typeahead
