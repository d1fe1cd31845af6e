import Typeahead.Console.Report
import Typeahead.Console.Request
import Typeahead.Settings.Store
import Typeahead.Settings.Threshold
import Typeahead.Text.Terminal

/-!
# Running the program

A run reads the settings, sets the threshold for notices, loads the grammars, does what is asked for
and prints.  The threshold asked for among the arguments goes before that of the settings, and it is
in force already while the settings are read.  The warnings about grammars go where the run is told,
and one that cannot be written ends it.

## Main definitions

* `Console.Result` — what a run leaves.
* `Console.runInto` — a run with some arguments in a world, whose warnings go into a sink.
* `Console.run` — a run whose warnings are only kept.
-/

namespace Typeahead

namespace Console

/-- What a run leaves. -/
structure Result where
  exitCode : Nat
  /-- The lines that were printed. -/
  output : List Text
  /-- The threshold at the end. -/
  threshold : Nat
  /-- The notices that reached the threshold in force when they came up. -/
  notices : List Notice
  /-- The fault that ended the run. -/
  fault : Option Fault
  /-- The warning that could not be written and ended the run. -/
  labelFault : Option LabelFault

/-- The text of the lines that were printed, which is not shown on a terminal. -/
def Result.text (r : Result) : Text := Text.withoutSequences (r.output.flatMap (· ++ ['\n']))

/-- A run that ended with a fault. -/
def failed (threshold : Nat) (notices : List Notice) (fault : Fault) : Result :=
  ⟨1, [], threshold, notices, some fault, none⟩

/-- A run that ended with a warning that could not be written. -/
def interrupted (threshold : Nat) (notices : List Notice) (fault : LabelFault) : Result :=
  ⟨1, [], threshold, notices, none, some fault⟩

/-- A run that ended well. -/
def printed (threshold : Nat) (notices : List Notice) (output : List Text) : Result :=
  ⟨0, output, threshold, notices, none, none⟩

/-- The path of the settings file that is asked for, or the standard one. -/
def configPath (w : World) : Option Text → Path
  | some t => Path.ofText t
  | none => Settings.standardPath w.environment

/-- The notices that reach a threshold. -/
def passing (threshold : Nat) (notices : List Notice) : List Notice :=
  notices.filter (Notice.passes threshold)

/-- An empty session with a line put in, the caret where it is asked for, and brought up to date. -/
def typed (s : Session) (line : Text) (cursor : Option Int) : Outcome Unit :=
  let s := s.insertAll line
  match cursor with
  | some position => (s.place position).update
  | none => s.update

/-- An empty line under some settings with the grammars that were loaded. -/
def opened (w : World) (settings : Settings) (loaded : Grammar.Loaded) (directory : Option Text) :
    Session :=
  Session.start (Context.ofLoaded w settings (directory.map Path.ofText) loaded) settings.capacity

/-- What a task prints under some settings with the grammars that were loaded, with the notices that
come up. -/
def perform (w : World) (settings : Settings) (loaded : Grammar.Loaded) :
    Task → List Notice × Except Fault (List Text)
  | .inspect line cursor _ directory =>
    let outcome := typed (opened w settings loaded directory) line cursor
    (outcome.session.context.journal, outcome.answer.map fun _ => inspection outcome.session)
  | .expand line _ directory =>
    let outcome := typed (opened w settings loaded directory) line none
    (outcome.session.context.journal,
      outcome.answer.bind fun _ => outcome.session.command.map expansion)
  | .grammars _ =>
    let context := Context.ofLoaded w settings none loaded
    (context.journal, .ok (listing context.grammars))

/-- The settings file that a task asks for. -/
def Task.config : Task → Option Text
  | .inspect _ _ config _ => config
  | .expand _ config _ => config
  | .grammars config => config

/-- The threshold asked for among the arguments, or else that of the settings. -/
def thresholdFor (asked : Option Nat) (settings : Settings) : Except Fault Nat :=
  match asked with
  | some threshold => .ok threshold
  | none => Threshold.ofSetting settings.level

/-- A run that does a task; `asked` is the threshold asked for among the arguments. -/
def runTask (sink : Sink) (w : World) (asked : Option Nat) (task : Task) : Result :=
  -- What comes up while the settings are read is held against the threshold before theirs.
  let early := asked.getD Threshold.warning
  match Settings.load w (configPath w task.config) with
  | (notices, .error fault) => failed early (passing early notices) fault
  | (notices, .ok settings) =>
    let heard := passing early notices
    match thresholdFor asked settings with
    | .error fault => failed early heard fault
    | .ok threshold =>
      let loaded := Grammar.loadInto (sink.under threshold) Grammar.ofJson settings.commands
      match loaded.fault with
      | some fault => interrupted threshold (heard ++ passing threshold loaded.notices) fault
      | none =>
        match perform w settings loaded task with
        | (notices, .error fault) => failed threshold (heard ++ passing threshold notices) fault
        | (notices, .ok output) => printed threshold (heard ++ passing threshold notices) output

/-- A run with some arguments in a world, whose warnings go into a sink. -/
def runInto (sink : Sink) (w : World) (arguments : List Text) : Result :=
  let understood := Request.ofArguments w arguments
  let threshold := understood.threshold.getD Threshold.warning
  match understood.request with
  | .error .usage => ⟨2, [], threshold, [], none, none⟩
  | .error (.fault fault) => failed threshold [] fault
  | .ok (.help topic) => printed threshold [] topic.help
  | .ok (.task task) => runTask sink w understood.threshold task

/-- A run with some arguments in a world, whose warnings are only kept. -/
def run (w : World) (arguments : List Text) : Result := runInto .kept w arguments

end Console

end Typeahead
