import Typeahead.Grammar.Hook
import Typeahead.Index
import Typeahead.Line.Reading

/-!
# The command of a line

What a line runs is its non-empty arguments with single spaces between them.  With a grammar, the
name of the command and the flags stand for their targets, and the hooks of the grammar and of every
flag in the line are run before and after it, those of the grammar first and then those of the flags
in the order of the line.

## Main definitions

* `Command` — what is run.
* `Command.ofReadings` — the command of arguments with their readings.
-/

namespace Typeahead

/-- What a line runs. -/
structure Command where
  line : Text
  before : List Text
  after : List Text
  deriving DecidableEq, Repr

/-- The words of a command and the hooks around it. -/
structure Pieces where
  words : List Text
  before : List Text
  after : List Text
  deriving DecidableEq, Repr

namespace Pieces

/-- Nothing. -/
def nothing : Pieces := ⟨[], [], []⟩

/-- One piece behind the other. -/
def append (p q : Pieces) : Pieces := ⟨p.words ++ q.words, p.before ++ q.before, p.after ++ q.after⟩

/-- The command of some pieces: the non-empty words with single spaces between them. -/
def command (p : Pieces) : Command := ⟨Text.join ' ' (p.words.filter (· ≠ [])), p.before, p.after⟩

/-- A hook expanded, if there is one and it is not empty. -/
def expand (arguments : List Text) : Option Text → Except Fault (List Text)
  | none => pure []
  | some [] => pure []
  | some template => do
    let line ← Hook.expand template arguments
    pure [line]

/-- The hooks of an entry expanded. -/
def ofHooks (arguments : List Text) (hooks : Hooks) : Except Fault Pieces := do
  let before ← expand arguments hooks.before
  let after ← expand arguments hooks.after
  pure ⟨[], before, after⟩

/-- A word with the hooks of an entry. -/
def ofEntry (arguments : List Text) (word : Text) (hooks : Hooks) : Except Fault Pieces := do
  let hooked ← ofHooks arguments hooks
  pure ⟨[word], hooked.before, hooked.after⟩

/-- What one argument contributes. -/
def ofArgument (g : Grammar) (arguments : List Text) (argument : Text) (r : Reading) :
    Except Fault Pieces :=
  match r.role, r.entry with
  | .command, _ => pure ⟨[g.target], [], []⟩
  | .flag, some k => do
    let flag ← entryAt g.flags k
    ofEntry arguments flag.target flag.hooks
  | .valueFlag, some k => do
    let flag ← entryAt g.valueFlags k
    ofEntry arguments flag.target flag.hooks
  | _, _ => pure ⟨[argument], [], []⟩

/-- What some arguments contribute, each with its reading. -/
def ofArguments (g : Grammar) (arguments : List Text) :
    List (Text × Reading) → Except Fault Pieces
  | [] => pure nothing
  | (argument, r) :: rest => do
    let first ← ofArgument g arguments argument r
    let others ← ofArguments g arguments rest
    pure (first.append others)

end Pieces

namespace Command

/-- The command of arguments with their readings. -/
def ofReadings (grammar : Option Grammar) (arguments : List Text) (readings : List Reading) :
    Except Fault Command :=
  match grammar with
  | none => pure (Pieces.mk arguments [] []).command
  | some g => do
    let around ← Pieces.ofHooks arguments g.hooks
    let pieces ← Pieces.ofArguments g arguments (arguments.zip readings)
    pure (around.append pieces).command

end Command

end Typeahead
