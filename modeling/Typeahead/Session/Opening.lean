import Typeahead.Grammar.Loading
import Typeahead.Session.Action
import Typeahead.Settings.Basic

/-!
# Opening a session

The settings decide the grammars, the programs and the capacity of a session.

## Main definitions

* `Catalog.ofSetting` — the catalog of a search path from the settings.
* `Context.openInto` — the context that settings give, if their grammars can be loaded.
* `Context.ofSettings`, `Session.ofSettings` — the context and an empty line in it where warnings
  are only kept.
-/

namespace Typeahead

/-- The catalog of a search path from the settings. -/
def Catalog.ofSetting (e : Environment) : Json → Catalog
  | .null => Catalog.create .posix e none none
  | .text searchPath => Catalog.create .posix e (some searchPath) none
  | _ => ⟨none, [], none⟩

/-- The context that settings give with the grammars that were loaded; paths are seen from the
working directory if from nowhere else.  Its journal starts with the warnings of the descriptions
that were set aside. -/
def Context.ofLoaded (w : World) (settings : Settings) (here : Option Path)
    (loaded : Grammar.Loaded) : Context :=
  { world := w
    here := here.getD (Path.ofText w.workingDirectory)
    grammars := loaded.grammars
    catalog := Catalog.ofSetting w.environment settings.searchPath
    journal := loaded.notices }

/-- The context that settings give, whose grammars are loaded by a reader of descriptions.  There is
none if a warning of the descriptions that are set aside cannot be written. -/
def Context.openInto (sink : Sink) (read : Json → Checked Grammar) (w : World) (settings : Settings)
    (here : Option Path) : Except LabelFault Context :=
  let loaded := Grammar.loadInto sink read settings.commands
  match loaded.fault with
  | some fault => .error fault
  | none => .ok (Context.ofLoaded w settings here loaded)

/-- The context that settings give if warnings are only kept. -/
def Context.ofSettings (w : World) (settings : Settings) (here : Option Path) : Context :=
  Context.ofLoaded w settings here (Grammar.load settings.commands)

/-- An empty line with the capacity that the settings give. -/
def Session.ofSettings (w : World) (settings : Settings) (here : Option Path) : Session :=
  Session.start (Context.ofSettings w settings here) settings.capacity

end Typeahead
