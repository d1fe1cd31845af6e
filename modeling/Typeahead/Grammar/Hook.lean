import Typeahead.Fault

/-!
# Hooks

A hook is a template for a command.  Its words are separated by any blanks and joined by single
spaces.  A word that starts with a dollar sign refers to the arguments of the line: `$2` to the
argument at index two, `$1..3` to those from index one up to index three, and either end of a range
may be left out.  An index past the end counts as the number of arguments.  A word that is no such
reference stays as it is.

An index is a text of digit signs; that some of them stand for no decimal place, or that there are
too many, is found only when it is read as a number.

## Main definitions

* `Hook.index?` — the index that a text stands for.
* `Hook.expandWord`, `Hook.expand` — a word and a template with the references filled in.
-/

namespace Typeahead

namespace Hook

/-- The index that a text stands for, at most `limit`; `absent` if there is no text, `none` if the
text is no index. -/
def index? (t : Text) (absent limit : Nat) : Except Fault (Option Nat) :=
  if t = [] then .ok (some absent)
  else if !t.all isDigitSign then .ok none
  else
    match Numeral.read t with
    | .error fault => .error (.numeral fault)
    | .ok n => .ok (some (min n.toNat limit))

/-- What a reference, the word `word` without its dollar sign, stands for. -/
def refer (args : List Text) (word reference : Text) : Except Fault Text :=
  match Text.partition? ['.', '.'] reference with
  | some (first, last) => do
    let start ← index? first 0 args.length
    let stop ← index? last args.length args.length
    match start, stop with
    | some start, some stop => pure (Text.join ' ' ((args.take stop).drop start))
    | _, _ => pure word
  | none => do
    match ← index? reference 0 args.length with
    | some i => pure (args[i]?.getD [])
    | none => pure word

/-- A word with its reference filled in. -/
def expandWord (args : List Text) : Text → Except Fault Text
  | '$' :: c :: rest => refer args ('$' :: c :: rest) (c :: rest)
  | word => pure word

/-- Some words with their references filled in. -/
def expandWords (args : List Text) : List Text → Except Fault (List Text)
  | [] => pure []
  | word :: rest => do
    let expanded ← expandWord args word
    let others ← expandWords args rest
    pure (expanded :: others)

/-- A template with its references filled in. -/
def expand (template : Text) (args : List Text) : Except Fault Text := do
  let words ← expandWords args template.words
  pure (Text.join ' ' words)

end Hook

end Typeahead
