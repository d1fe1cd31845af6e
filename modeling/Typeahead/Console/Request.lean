import Typeahead.Console.Help
import Typeahead.Console.Options

/-!
# Requests

The arguments of the program ask for help or for one of three commands.  Arguments that make no
sense are refused without a word; the files that they name are looked at already here, so that a
settings file that cannot be read, or a directory that cannot be listed, is refused as well.  A path
that names nothing is let pass, and an empty one counts as not given.

## Main definitions

* `Task`, `Request` — what is asked for.
* `Refusal` — why nothing can be done.
* `Request.ofArguments` — the request of the program's arguments.
-/

namespace Typeahead

namespace Console

/-- A command with what it needs. -/
inductive Task
  /-- Show the arguments of a line. -/
  | inspect (line : Text) (cursor : Option Int) (config directory : Option Text)
  /-- Show what a line runs. -/
  | expand (line : Text) (config directory : Option Text)
  /-- List the grammars. -/
  | grammars (config : Option Text)
  deriving DecidableEq, Repr

/-- Why nothing can be done. -/
inductive Refusal
  /-- The arguments make no sense. -/
  | usage
  /-- A path cannot be used at all. -/
  | fault (f : Fault)
  deriving DecidableEq, Repr

/-- What the arguments of the program ask for. -/
inductive Request
  | help (topic : Topic)
  | task (t : Task)
  deriving DecidableEq, Repr

/-- A request as far as it is understood, and the threshold that was set on the way. -/
structure Understood where
  threshold : Option Nat
  request : Except Refusal Request

/-- The commands by name. -/
def topicOf? (name : Text) : Option Topic :=
  if name = "inspect".toList then some .inspect
  else if name = "expand".toList then some .expand
  else if name = "grammars".toList then some .grammars
  else none

/-- The options of a command. -/
def switchesOf : Topic → List Switch
  | .program => [.level, .help]
  | .inspect => [.cursor, .config, .directory, .help]
  | .expand => [.config, .directory, .help]
  | .grammars => [.config, .help]

/-- The thresholds that can be asked for, by name. -/
def thresholdOf? (name : Text) : Option Nat :=
  if name = "debug".toList then some 10
  else if name = "info".toList then some 20
  else if name = "warning".toList then some 30
  else if name = "error".toList then some 40
  else none

/-- Whether the settings file may be what a path names. -/
def isUsableFile : Entry → Bool
  | .file f => f.readable
  | _ => false

/-- Whether paths may be seen from what a path names. -/
def isUsableDirectory : Entry → Bool
  | .directory access => access.lists
  | _ => false

/-- Refusal of a path that names something of no use. -/
def checkPath (w : World) (usable : Entry → Bool) (t : Text) : Except Refusal Unit :=
  match w.entry? t with
  | .ok entry => if usable entry then .ok () else .error .usage
  | .error .nullCharacter => .error (.fault (.path .nullCharacter))
  | .error _ => .ok ()

/-- Refusal of an option's value. -/
def checkValue (w : World) : Switch × Text → Except Refusal Unit
  | (.cursor, t) =>
    match Numeral.read t with
    | .ok _ => .ok ()
    | .error _ => .error .usage
  | (.config, t) => checkPath w isUsableFile t
  | (.directory, t) => checkPath w isUsableDirectory t
  | _ => .ok ()

/-- Refusal of the first option whose value is refused. -/
def checkValues (w : World) : List (Switch × Text) → Except Refusal Unit
  | [] => .ok ()
  | v :: rest =>
    match checkValue w v with
    | .ok () => checkValues w rest
    | .error refusal => .error refusal

/-- The path that an option gives; an empty one counts as not given. -/
def pathOf? (g : Given) (s : Switch) : Option Text := (g.value? s).filter (· ≠ [])

/-- The position of the caret that is asked for. -/
def cursorOf? (g : Given) : Option Int :=
  match (g.value? .cursor).map Numeral.read with
  | some (.ok n) => some n
  | _ => none

/-- The command of options and arguments. -/
def taskOf? (topic : Topic) (g : Given) : Option Task :=
  match topic, g.rest with
  | .inspect, [line] =>
    some (.inspect line (cursorOf? g) (pathOf? g .config) (pathOf? g .directory))
  | .expand, [line] => some (.expand line (pathOf? g .config) (pathOf? g .directory))
  | .grammars, [] => some (.grammars (pathOf? g .config))
  | _, _ => none

namespace Request

/-- The request of the arguments of a command. -/
def ofCommand (w : World) (topic : Topic) (arguments : List Text) : Except Refusal Request :=
  match Given.ofArguments? (switchesOf topic) true arguments with
  | none => .error .usage
  | some g =>
    if g.has .help then .ok (.help topic)
    else
      match checkValues w g.values with
      | .error refusal => .error refusal
      | .ok () =>
        match taskOf? topic g with
        | some t => .ok (.task t)
        | none => .error .usage

/-- The request of arguments that start with the name of no command.  An option may stand there,
behind two minus signs, so they are sorted out once more, and a request for help among them is
heard. -/
def ofUnknown (arguments : List Text) : Except Refusal Request :=
  match Given.ofArguments? (switchesOf .program) false arguments with
  | some g => if g.has .help then .ok (.help .program) else .error .usage
  | none => .error .usage

/-- The request of what stands behind the options of the program. -/
def ofRest (w : World) (threshold : Option Nat) : List Text → Understood
  | [] => ⟨threshold, .ok (.help .program)⟩
  | name :: arguments =>
    match topicOf? name with
    | none => ⟨none, ofUnknown (name :: arguments)⟩
    | some topic => ⟨threshold, ofCommand w topic arguments⟩

/-- The request of the program's arguments. -/
def ofArguments (w : World) (arguments : List Text) : Understood :=
  match Given.ofArguments? (switchesOf .program) false arguments with
  | none => ⟨none, .error .usage⟩
  | some g =>
    if g.has .help then ⟨none, .ok (.help .program)⟩
    else
      match g.value? .level with
      | none => ofRest w none g.rest
      | some name =>
        match thresholdOf? name with
        | none => ⟨none, .error .usage⟩
        | some threshold => ofRest w (some threshold) g.rest

end Request

end Console

end Typeahead
