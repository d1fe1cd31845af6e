import Typeahead.Session.Context

/-!
# The table of suggestions

Every argument of a line has a suggestion and the kind of thing that it is for.  When the line has
changed, a suggestion whose argument is still of the same kind is brought up to date, any other is
made anew, and those behind the last argument are dropped.  If one of them cannot be had, those
before it are done and those from it on are left as they were.

## Main definitions

* `Table` — the suggestions.
* `Table.refresh` — the table brought in line with arguments and their readings.
-/

namespace Typeahead

/-- The suggestions of the arguments of a line, each with its kind. -/
abbrev Table := List (ArgumentKind × Suggestion)

/-- What became of a table that was to be refreshed. -/
structure Refreshed where
  context : Context
  table : Table
  /-- Why it could not be done in full. -/
  fault : Option Fault

namespace Refreshed

/-- A refreshed table with one entry before it. -/
def cons (entry : ArgumentKind × Suggestion) (r : Refreshed) : Refreshed :=
  { r with table := entry :: r.table }

end Refreshed

namespace Table

/-- The table brought in line with arguments and their readings. -/
def refresh : Context → List (Text × Reading) → Table → Refreshed
  | c, [], _ => ⟨c, [], none⟩
  | c, (argument, r) :: rest, [] =>
    match c.suggest argument r with
    | (c, .ok s) => (refresh c rest []).cons (r.kind, s)
    | (c, .error fault) => ⟨c, [], some fault⟩
  | c, (argument, r) :: rest, (kind, s) :: table =>
    if kind = r.kind then
      let renewal := c.renew argument r s
      match renewal.fault with
      | none => (refresh renewal.context rest table).cons (kind, renewal.suggestion)
      -- The placeholder of this entry is new already; those behind it are not touched.
      | some fault => ⟨renewal.context, (kind, renewal.suggestion) :: table, some fault⟩
    else
      match c.suggest argument r with
      | (c, .ok fresh) => (refresh c rest table).cons (r.kind, fresh)
      | (c, .error fault) => ⟨c, (kind, s) :: table, some fault⟩

/-- The table with what fits best set by hand in one entry. -/
def setBest (i : Nat) (best : Option Text) (table : Table) : Table :=
  table.modify i fun (kind, s) => (kind, { s with best })

end Table

end Typeahead
