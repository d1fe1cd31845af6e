import Typeahead.Fault
import Typeahead.Grammar.Schema
import Typeahead.Json.Writer
import Typeahead.Notice

/-!
# Settings

The settings say how long a line may get, where programs are searched, which notices are shown, and
which commands have a grammar.  They are described by an object; what is not given has a default.
The search path and the level of notices are kept as they are given and judged where they are used.

## Main definitions

* `Settings` — the settings, with `Settings.default`.
* `Settings.capacityOf` — a capacity from its description.
* `Settings.ofJson`, `Settings.toJson` — settings from a description and back.
-/

namespace Typeahead

/-- The settings. -/
structure Settings where
  /-- The greatest length of a line. -/
  capacity : Int
  /-- The search path; null for that of the environment. -/
  searchPath : Json
  /-- The level from which notices are shown. -/
  level : Json
  /-- The descriptions of the grammars. -/
  commands : List Json

namespace Settings

/-- The settings in use where none are given. -/
def default : Settings := ⟨8192, .null, .text "warning".toList, Grammar.standard⟩

/-- A capacity from its description: an integer, a truth value, a number whose fraction is cut off,
or a numeral. -/
def capacityOf : Json → Except Fault Int
  | .int n => .ok n
  | .bool b => .ok (if b then 1 else 0)
  | .float (.infinite _) => .error .infiniteNumber
  | .float x =>
    match x.truncate? with
    | some (n, _) => .ok n
    | none => .error .notANumber
  | .text t =>
    match Numeral.read t with
    | .ok n => .ok n
    | .error fault => .error (.numeral fault)
  | _ => .error .noInteger

/-- The descriptions of the grammars, with a warning if they are given and are no list. -/
def commandsOf : Option Json → List Notice × List Json
  | none | some .null => ([], default.commands)
  | some (.list items) => ([], items)
  | some _ => ([⟨.warning, .settings⟩], default.commands)

/-- Settings from their description. -/
def ofJson : Json → List Notice × Except Fault Settings
  | .object members =>
    let (notices, commands) := commandsOf (Json.find? "commands".toList members)
    let capacity :=
      match Json.find? "bufferCapacity".toList members with
      | some v => capacityOf v
      | none => .ok default.capacity
    (notices, capacity.map fun capacity =>
      { capacity, commands
        searchPath := (Json.find? "searchPath".toList members).getD default.searchPath
        level := (Json.find? "logLevel".toList members).getD default.level })
  | _ => ([], .error .settingsShape)

/-- The search path as members of a description: none if it is that of the environment. -/
def searchPathMembers : Json → List (Text × Json)
  | .null => []
  | v => [("searchPath".toList, v)]

/-- The description of settings. -/
def toJson (s : Settings) : Json :=
  .object ([("bufferCapacity".toList, .int s.capacity), ("logLevel".toList, s.level),
    ("commands".toList, .list s.commands)] ++ searchPathMembers s.searchPath)

end Settings

end Typeahead
