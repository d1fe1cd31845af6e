import Typeahead.Grammar.Schema
import Typeahead.Json.Spelling
import Typeahead.Notice

/-!
# Loading grammars

Of a list of descriptions the good ones give their grammars, and each of the others is set aside
with a warning that says what it is called by.  What becomes of a warning is up to its sink: it is
kept as it is, or it is written out before the next description is read.  Writing spells the label
out, and a label with too many values inside each other ends the loading; a label that cannot be
written for another reason is left out of the warning.

## Main definitions

* `Grammar.label` — what a description is called by.
* `Warning`, `Sink`, `Sink.warn` — the warning of a description and what becomes of it.
* `Grammar.Loaded`, `Grammar.loadInto` — what a list of descriptions comes to.
* `Grammar.load` — what it comes to if warnings are only kept.
-/

namespace Typeahead

/-- What a description that was set aside is called by: its name if it is an object, else itself. -/
def Grammar.label : Json → Json
  | .object members => (Json.find? "name".toList members).getD .null
  | v => v

/-- The warning of a description that was set aside. -/
structure Warning where
  description : Json
  /-- The label of the description as it was written out; none if it was not. -/
  text : Option Text

/-- The notice of a warning. -/
def Warning.notice (_ : Warning) : Notice := ⟨.warning, .grammar⟩

/-- Why a warning ends the loading: there is no room for all that lies inside its label. -/
structure LabelFault where
  label : Json

/-- What becomes of warnings as they come up. -/
inductive Sink
  /-- They are kept. -/
  | kept
  /-- They are written out, with room for so many values inside each other. -/
  | written (room : Nat)
  deriving DecidableEq, Repr

/-- What becomes of warnings under a threshold: those that do not reach it are not written. -/
def Sink.under (threshold : Nat) (sink : Sink) : Sink :=
  if threshold ≤ Weight.warning.value then sink else .kept

/-- The warning of a description. -/
def Sink.warn (sink : Sink) (v : Json) : Except LabelFault Warning :=
  match sink with
  | .kept => .ok ⟨v, none⟩
  | .written room =>
    match Json.obstacle? room (Grammar.label v) with
    | some .tooDeep => .error ⟨Grammar.label v⟩
    | some .longInteger => .ok ⟨v, none⟩
    | none => .ok ⟨v, some (Grammar.label v).spell⟩

namespace Grammar

/-- What a list of descriptions comes to. -/
structure Loaded where
  /-- The grammars of the good descriptions, in order. -/
  grammars : List Grammar
  /-- The warnings of the others, in order. -/
  warnings : List Warning
  /-- The fault that ended the loading before the end of the list. -/
  fault : Option LabelFault

/-- The descriptions that were set aside. -/
def Loaded.refused (loaded : Loaded) : List Json := loaded.warnings.map Warning.description

/-- The notices of a load. -/
def Loaded.notices (loaded : Loaded) : List Notice := loaded.warnings.map Warning.notice

/-- The grammars of the good descriptions of a list; the others are set aside with a warning. -/
def loadInto (sink : Sink) (read : Json → Checked Grammar) : List Json → Loaded
  | [] => ⟨[], [], none⟩
  | v :: rest =>
    match read v with
    | .good g =>
      let loaded := loadInto sink read rest
      { loaded with grammars := g :: loaded.grammars }
    | .bad _ =>
      match sink.warn v with
      | .error fault => ⟨[], [], some fault⟩
      | .ok warning =>
        let loaded := loadInto sink read rest
        { loaded with warnings := warning :: loaded.warnings }

/-- What a list of descriptions comes to if warnings are only kept. -/
def load : List Json → Loaded := loadInto .kept ofJson

end Grammar

end Typeahead
