import Typeahead.Text.Order

/-!
# Command grammars

A command grammar says what the arguments of a known command are: the slots that are filled in order
of position, the flags, and the flags that take the next argument as their value.  The name of the
command and of each flag may stand for something else, a substitute, in the command that is run, and
commands may be hooked to run before and after it.

## Main definitions

* `ArgumentKind` — what kind of thing an argument names.
* `Hooks`, `Slot`, `Flag`, `ValueFlag`, `Grammar` — a grammar and its entries.
* `Grammar.find?` — the grammar that a list of grammars has for a name.
-/

namespace Typeahead

/-- What kind of thing an argument names. -/
inductive ArgumentKind
  | path
  | program
  | text
  deriving DecidableEq, Repr

/-- The word for a kind of argument. -/
def ArgumentKind.word : ArgumentKind → Text
  | .path => "path".toList
  | .program => "executable".toList
  | .text => "text".toList

/-- The kind that a word stands for. -/
def ArgumentKind.ofWord? (word : Text) : Option ArgumentKind :=
  if word = ArgumentKind.word .path then some .path
  else if word = ArgumentKind.word .program then some .program
  else if word = ArgumentKind.word .text then some .text
  else none

/-- The commands to run before and after, as templates. -/
structure Hooks where
  before : Option Text
  after : Option Text
  deriving DecidableEq, Repr

/-- An argument that is known by its position. -/
structure Slot where
  kind : ArgumentKind
  /-- What is shown as long as nothing is typed; empty for nothing. -/
  placeholder : Text
  position : Nat
  deriving DecidableEq, Repr

/-- An argument that stands alone, such as `-f`. -/
structure Flag where
  name : Text
  /-- What the flag stands for; empty for itself. -/
  substitute : Text
  hooks : Hooks
  deriving DecidableEq, Repr

/-- A flag whose value is the next argument, such as `-o FILE`. -/
structure ValueFlag where
  name : Text
  substitute : Text
  /-- The kind of the value. -/
  kind : ArgumentKind
  /-- What is shown as long as no value is typed; empty for nothing. -/
  placeholder : Text
  hooks : Hooks
  deriving DecidableEq, Repr

/-- The arguments of a command. -/
structure Grammar where
  name : Text
  substitute : Text
  hooks : Hooks
  slots : List Slot
  flags : List Flag
  valueFlags : List ValueFlag
  deriving DecidableEq, Repr

/-- The substitute of a name, or the name itself if there is none. -/
def substituteOr (substitute name : Text) : Text := if substitute = [] then name else substitute

/-- What is run for a flag. -/
def Flag.target (f : Flag) : Text := substituteOr f.substitute f.name

/-- What is run for a flag with a value. -/
def ValueFlag.target (f : ValueFlag) : Text := substituteOr f.substitute f.name

namespace Grammar

/-- What is run for the command. -/
def target (g : Grammar) : Text := substituteOr g.substitute g.name

/-- The last grammar of a name. -/
def find? (name : Text) : List Grammar → Option Grammar
  | [] => none
  | g :: rest =>
    match find? name rest with
    | some later => some later
    | none => if g.name = name then some g else none

end Grammar

end Typeahead
