import Typeahead.Settings.Basic
import Typeahead.Text.Lowercase

/-!
# Thresholds for notices

A threshold is given by the name of a level, capital or small.  Two names are no levels and yet
taken by other things, a layout of log lines and the table of layout styles; they are refused.  Any
other name, and anything that is no text, stands for the level of warnings.

## Main definitions

* `Threshold.levels` — the names of the levels.
* `Threshold.named` — the threshold of a name.
* `Threshold.ofSetting` — the threshold of a setting.
-/

namespace Typeahead

namespace Threshold

/-- The level of warnings. -/
def warning : Nat := 30

/-- The levels by name. -/
def levels : List (String × Nat) :=
  [("DEBUG", 10), ("INFO", 20), ("WARNING", warning), ("WARN", warning), ("ERROR", 40),
    ("CRITICAL", 50), ("FATAL", 50), ("NOTSET", 0)]

/-- The names that other things have, and why they are refused. -/
def taken : List (String × Fault) :=
  [("BASIC_FORMAT", .layoutThreshold), ("_STYLES", .styleThreshold)]

/-- The threshold of a name in capital letters. -/
def named (name : Text) : Except Fault Nat :=
  match levels.find? fun (level, _) => level.toList = name with
  | some (_, value) => .ok value
  | none =>
    match taken.find? fun (other, _) => other.toList = name with
    | some (_, fault) => .error fault
    | none => .ok warning

/-- The threshold of a setting.  The text of a value that is no text names no level. -/
def ofSetting : Json → Except Fault Nat
  | .text t => named t.toCapital
  | _ => .ok warning

end Threshold

end Typeahead
