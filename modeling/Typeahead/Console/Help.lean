import Typeahead.Text.Basic

/-!
# Help texts

Every command has a text that says how it is used, and so has the program as a whole.
-/

namespace Typeahead

namespace Console

/-- The topics of help: the program and its commands. -/
inductive Topic
  | program
  | inspect
  | expand
  | grammars
  deriving DecidableEq, Repr

/-- The lines of a help text. -/
def Topic.lines : Topic → List String
  | .program =>
    ["Usage: hintline [OPTIONS] [COMMAND] [ARGS]...",
      "",
      "  Inspect how hintline splits and completes a command line.",
      "",
      "Options:",
      "  --log-level [debug|info|warning|error]",
      "                                  Logging verbosity (default: logLevel from",
      "                                  settings)",
      "  --help                          Show this message and exit.",
      "",
      "Commands:",
      "  expand    Show the command lines LINE would run, with aliases substituted.",
      "  grammars  List the command grammars that loaded successfully.",
      "  inspect   Show the arguments of LINE with their kinds and closest matches."]
  | .inspect =>
    ["Usage: hintline inspect [OPTIONS] LINE",
      "",
      "  Show the arguments of LINE with their kinds and closest matches.",
      "",
      "Options:",
      "  --cursor INTEGER  Caret position (default: end of line)",
      "  --config FILE     Settings file to use",
      "  --cwd DIRECTORY   Directory to resolve paths against",
      "  --help            Show this message and exit."]
  | .expand =>
    ["Usage: hintline expand [OPTIONS] LINE",
      "",
      "  Show the command lines LINE would run, with aliases substituted.",
      "",
      "Options:",
      "  --config FILE    Settings file to use",
      "  --cwd DIRECTORY  Directory to resolve paths against",
      "  --help           Show this message and exit."]
  | .grammars =>
    ["Usage: hintline grammars [OPTIONS]",
      "",
      "  List the command grammars that loaded successfully.",
      "",
      "Options:",
      "  --config FILE  Settings file to use",
      "  --help         Show this message and exit."]

/-- A help text. -/
def Topic.help (t : Topic) : List Text := t.lines.map String.toList

end Console

end Typeahead
