import Typeahead.Suggestion.Basic
import Typeahead.Suggestion.Target
import Typeahead.Text.Order

/-!
# Where suggestions come from

A suggestion for a program takes its choices from the catalog, and one for a path takes them from
the directory that the argument points into, whose names are put in order here.  A suggestion that
is renewed keeps its choices as long as its scope stays the same, so that a directory is listed once
while its names are being typed.

## Main definitions

* `World.choices`, `World.listing` — the names in a directory in order, none if it cannot be listed.
* `Suggestion.forProgram`, `Suggestion.forTarget`, `Suggestion.forText` — new suggestions.
* `Suggestion.renewProgram`, `Suggestion.renewTarget` — renewed ones.
-/

namespace Typeahead

/-- The names in a directory in code-point order, none if it cannot be listed, of which a notice
tells. -/
def World.choices (w : World) (directory : Path) : List Notice × List Text :=
  match w.list directory.toText with
  | .ok names => ([], Text.sort names)
  | .error _ => ([⟨.debug, .directories⟩], [])

/-- The names in a directory for one who only wants to know them: none if it cannot be listed, but
the null character in its path is not let pass. -/
def World.listing (w : World) (directory : Path) : Except Fault (List Text) :=
  match w.list directory.toText with
  | .error .nullCharacter => .error (.path .nullCharacter)
  | _ => .ok (w.choices directory).2

namespace Suggestion

/-- A suggestion for a program. -/
def forProgram (names : List Text) (argument : Text) (placeholder : Option Text) : Suggestion :=
  (ofChoices names placeholder .programs 0).focus argument

/-- A suggestion for a path that points to a target or nowhere. -/
def forTarget (w : World) (placeholder : Option Text) : Option Target → List Notice × Suggestion
  | none => ([], (bare placeholder).focus [])
  | some target =>
    let (notices, names) := w.choices target.directory
    let scope := Scope.directory target.directory
    (notices, (ofChoices names placeholder scope target.skip).focus target.typed)

/-- A suggestion without choices. -/
def forText (argument : Text) (placeholder : Option Text) : Suggestion :=
  (bare placeholder).focus argument

/-- A suggestion renewed for a program; `names` is asked for only if the scope is another one. -/
def renewProgram (s : Suggestion) (names : List Text) (argument : Text) : Suggestion :=
  let choices := if s.scope = some .programs then s.choices else names
  { s with choices, scope := some .programs, skip := 0 }.focus argument

/-- A suggestion renewed for a path that points to a target or nowhere. -/
def renewTarget (w : World) (s : Suggestion) : Option Target → List Notice × Suggestion
  | none => ([], { s with choices := [], scope := none, skip := 0 }.focus [])
  | some target =>
    let scope := some (Scope.directory target.directory)
    if s.scope = scope then ([], { s with skip := target.skip }.focus target.typed)
    else
      let (notices, choices) := w.choices target.directory
      (⟨.debug, .directories⟩ :: notices,
        { s with choices, scope, skip := target.skip }.focus target.typed)

end Suggestion

end Typeahead
