import Typeahead.Json.Reader
import Typeahead.Settings.Basic
import Typeahead.World.Change

/-!
# The settings file

Settings are kept in a file of JSON text.  A file that is not there gives the default settings, and
so does one that cannot be read or understood, with a warning; only an infinite capacity and values
that lie too deep inside each other are not put up with.

## Main definitions

* `Settings.standardPath` — where the file is if nothing else is said.
* `Settings.load`, `Settings.save` — settings from the file and into it.
-/

namespace Typeahead

namespace Settings

/-- The directory of the settings file. -/
def standardDirectory (e : Environment) : Path :=
  match e.settingsDirectory with
  | some directory => Path.ofText directory
  | none => (Path.ofText e.home).child ".hintline".toList

/-- The path of the settings file. -/
def standardPath (e : Environment) : Path := (standardDirectory e).child "settings.json".toList

/-- The warning of a file that gives no settings. -/
def warning : Notice := ⟨.warning, .settings⟩

/-- Whether a description that gives no settings is put up with.  An infinite capacity is not. -/
def isTolerated (f : Fault) : Bool := f ≠ .infiniteNumber

/-- Settings from the text of a file. -/
def ofText (t : Text) : List Notice × Except Fault Settings :=
  match Json.read t with
  | .error (.tooDeep container) => ([], .error (.deepNesting container))
  | .error .malformed => ([warning], .ok default)
  | .ok v =>
    match ofJson v with
    | (notices, .ok settings) => (notices, .ok settings)
    | (notices, .error fault) =>
      if isTolerated fault then (notices ++ [warning], .ok default) else (notices, .error fault)

/-- Settings from a file. -/
def load (w : World) (path : Path) : List Notice × Except Fault Settings :=
  match w.isPresent path.toText with
  | .error fault => ([], .error (.path fault))
  | .ok false => ([], .ok default)
  | .ok true =>
    match w.read path.toText with
    | .error _ => ([warning], .ok default)
    | .ok content => ofText content

/-- The text of the settings file. -/
def content (s : Settings) : Text := s.toJson.pretty

/-- The world with the settings in a file, whose directory is made if need be. -/
def save (w : World) (s : Settings) (path : Path) : Except PathFault World := do
  let w ← w.ensureDirectory path.parent
  w.write path.toText s.content

end Settings

end Typeahead
