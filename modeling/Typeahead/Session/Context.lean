import Typeahead.Line.Reading
import Typeahead.Suggestion.Source

/-!
# The context of a line

A context is what a line being typed is seen in: the world, the directory that its paths are seen
from, the grammars, the programs, and the journal of notices.

## Main definitions

* `Context` — the parts.
* `Context.programs` — the names of the programs.
* `Context.suggest` — a new suggestion for an argument.
* `Context.renew` — a suggestion brought up to date with its argument.
-/

namespace Typeahead

/-- What a line being typed is seen in. -/
structure Context where
  world : World
  /-- The directory that paths are seen from. -/
  here : Path
  grammars : List Grammar
  catalog : Catalog
  journal : List Notice
  deriving DecidableEq, Repr

namespace Context

/-- The context with more notices in its journal. -/
def note (c : Context) (notices : List Notice) : Context :=
  { c with journal := c.journal ++ notices }

/-- The grammar for the name of a command; the empty name has none. -/
def grammarFor (c : Context) (name : Text) : Option Grammar :=
  if name = [] then none else Grammar.find? name c.grammars

/-- The names of the programs, which are known from then on. -/
def programs (c : Context) : Context × Except Fault (List Text) :=
  let (catalog, notices, names) := c.catalog.names c.world
  ({ c with catalog }.note notices, names)

/-- The target of a path argument. -/
def target (c : Context) (argument : Text) : Except Fault (Option Target) :=
  match Target.resolve c.world c.here argument with
  | .ok target => .ok target
  | .error fault => .error (.path fault)

/-- A new suggestion for an argument. -/
def suggest (c : Context) (argument : Text) (r : Reading) : Context × Except Fault Suggestion :=
  match r.kind with
  | .program =>
    match c.programs with
    | (c, .ok names) => (c, .ok (Suggestion.forProgram names argument r.placeholder))
    | (c, .error fault) => (c, .error fault)
  | .path =>
    match c.target argument with
    | .ok target =>
      let (notices, s) := Suggestion.forTarget c.world r.placeholder target
      (c.note notices, .ok s)
    | .error fault => (c, .error fault)
  | .text => (c, .ok (Suggestion.forText argument r.placeholder))

/-- What became of a suggestion that was to be brought up to date. -/
structure Renewal where
  context : Context
  suggestion : Suggestion
  /-- Why it could not be done in full. -/
  fault : Option Fault

/-- A suggestion brought up to date with its argument.  The placeholder is set first, and is all
that changes if the rest cannot be done. -/
def renew (c : Context) (argument : Text) (r : Reading) (s : Suggestion) : Renewal :=
  let s := { s with placeholder := r.placeholder }
  match r.kind with
  | .program =>
    if s.scope = some .programs then ⟨c, s.renewProgram [] argument, none⟩
    else
      match c.programs with
      | (c, .ok names) => ⟨c, s.renewProgram names argument, none⟩
      | (c, .error fault) => ⟨c, s, some fault⟩
  | .path =>
    match c.target argument with
    | .ok target =>
      let (notices, s) := s.renewTarget c.world target
      ⟨c.note notices, s, none⟩
    | .error fault => ⟨c, s, some fault⟩
  | .text => ⟨c, s.focus argument, none⟩

end Context

end Typeahead
